/-
**Service leases are isolated.**

A request id is free again when its request is answered, and another lease may take it. Removing the
first lease then also deletes what the map of requests holds for the second one.

* `ServiceHub.Removes` — what a removal does to both maps;
* `ServiceHub.Sound`, `sound_step` — what every step keeps;
* `leases_isolated_iff` — the same for whole runs, with the limits and the tickets.
-/

import Atterm.Foundation.Runs
import Atterm.Service.Lease

namespace Atterm.Service

open Atterm.Foundation Atterm.Transport

structure ServiceLease.Same (lease lease' : ServiceLease) : Prop where
  id : lease'.id = lease.id
  owner : lease'.ownerUserID = lease.ownerUserID
  request : lease'.requestID = lease.requestID
  ticket : ∀ role, lease'.ticket role = lease.ticket role

theorem ServiceLease.Same.refl (lease : ServiceLease) : lease.Same lease := ⟨rfl, rfl, rfl, fun _ => rfl⟩

theorem ServiceLease.Same.trans {one two three : ServiceLease} (first : one.Same two)
    (second : two.Same three) : one.Same three :=
  ⟨second.id.trans first.id, second.owner.trans first.owner, second.request.trans first.request,
    fun role => (second.ticket role).trans (first.ticket role)⟩

theorem ServiceLease.same_close (lease : ServiceLease) : lease.Same lease.close :=
  ⟨rfl, rfl, rfl, fun role => by cases role <;> rfl⟩

namespace ServiceHub

variable {parseUUID : String → Option UUID} {h h' : ServiceHub}

/-! ### Removing leases -/

/-- **What a removal does**: the keys of the leases are deleted from both maps, and the leases are
closed. -/
structure Removes (h h' : ServiceHub) (refs : List ℕ) : Prop where
  services : ∀ id, h'.services.lookup id =
    if ∃ ref ∈ refs, (h.lease ref).id = id then none else h.services.lookup id
  requests : ∀ r, h'.requests r =
    if ∃ ref ∈ refs, (h.lease ref).requestID = r then none else h.requests r
  entries : h'.services.entries.Sublist h.services.entries
  next : h'.next = h.next
  kept : ∀ ref ∉ refs, h'.lease ref = h.lease ref
  closed : ∀ ref, h'.lease ref = h.lease ref ∨ h'.lease ref = (h.lease ref).close

theorem Removes.nil (h : ServiceHub) : h.Removes h [] where
  services := fun id => by simp
  requests := fun r => by simp
  entries := .refl _
  next := rfl
  kept := fun _ _ => rfl
  closed := fun _ => .inl rfl

theorem Removes.removeLocked {refs : List ℕ} (removes : h.Removes h' refs) {ref : ℕ}
    (open' : h'.lease ref = h.lease ref) : h.Removes (h'.removeLocked ref) (refs ++ [ref]) where
  services := fun id => by
    show (h'.services.erase (h'.lease ref).id).lookup id = _
    by_cases same : id = (h.lease ref).id
    · subst same
      rw [open', AList.lookup_erase, if_pos ⟨ref, by simp, rfl⟩]
    · rw [open', AList.lookup_erase_ne same, removes.services]
      refine if_congr ⟨?_, ?_⟩ rfl rfl
      · rintro ⟨other, listed, at'⟩
        exact ⟨other, List.mem_append_left _ listed, at'⟩
      · rintro ⟨other, listed, rfl⟩
        rcases List.mem_append.mp listed with earlier | last
        · exact ⟨other, earlier, rfl⟩
        · rw [List.mem_singleton.mp last] at same
          exact absurd rfl same
  requests := fun r => by
    show Function.update h'.requests (h'.lease ref).requestID none r = _
    by_cases same : r = (h.lease ref).requestID
    · subst same
      rw [open', Function.update_self, if_pos ⟨ref, by simp, rfl⟩]
    · rw [open', Function.update_of_ne same, removes.requests]
      refine if_congr ⟨?_, ?_⟩ rfl rfl
      · rintro ⟨other, listed, at'⟩
        exact ⟨other, List.mem_append_left _ listed, at'⟩
      · rintro ⟨other, listed, rfl⟩
        rcases List.mem_append.mp listed with earlier | last
        · exact ⟨other, earlier, rfl⟩
        · rw [List.mem_singleton.mp last] at same
          exact absurd rfl same
  entries := (List.kerase_sublist _ _).trans removes.entries
  next := removes.next
  kept := fun other fresh => removes.kept other fun listed => fresh (List.mem_append_left _ listed)
  closed := removes.closed

theorem Removes.close {refs : List ℕ} (removes : h.Removes h' refs) {ref : ℕ} (listed : ref ∈ refs) :
    h.Removes (h'.modify ref ServiceLease.close) refs where
  services := removes.services
  requests := removes.requests
  entries := removes.entries
  next := removes.next
  kept := fun other fresh => by
    have ne : other ≠ ref := fun same => fresh (same ▸ listed)
    show Function.update h'.lease ref _ other = _
    rw [Function.update_of_ne ne, removes.kept other fresh]
  closed := fun other => by
    show Function.update h'.lease ref _ other = _ ∨ Function.update h'.lease ref _ other = _
    by_cases same : other = ref
    · subst same
      rw [Function.update_self]
      rcases removes.closed other with untouched | closed
      · rw [untouched]
        exact .inr rfl
      · rw [closed]
        exact .inr rfl
    · rw [Function.update_of_ne same]
      exact removes.closed other

theorem removes_removeLocked (h : ServiceHub) (refs : List ℕ) :
    h.Removes (refs.foldl ServiceHub.removeLocked h) refs ∧
      (refs.foldl ServiceHub.removeLocked h).lease = h.lease := by
  induction refs using List.reverseRecOn with
  | nil => exact ⟨.nil h, rfl⟩
  | append_singleton refs ref ih =>
    rw [List.foldl_append]
    exact ⟨ih.1.removeLocked (congrFun ih.2 ref), ih.2⟩

theorem removes_closeAll (h : ServiceHub) (refs : List ℕ) : h.Removes (h.closeAll refs) refs := by
  have closing : ∀ some, some ⊆ refs → h.Removes (some.foldl
      (fun h ref => h.modify ref ServiceLease.close) (refs.foldl ServiceHub.removeLocked h)) refs := by
    intro some
    induction some using List.reverseRecOn with
    | nil => exact fun _ => (removes_removeLocked h refs).1
    | append_singleton some ref ih =>
      intro inside
      rw [List.foldl_append]
      exact (ih fun other listed => inside (List.mem_append_left _ listed)).close
        (inside (by simp))
  exact closing refs fun _ listed => listed

theorem Removes.sessions {refs : List ℕ} {sessions : UUID → Option ServiceUplinkRoute}
    (removes : Removes { h with sessions := sessions } h' refs) : h.Removes h' refs :=
  ⟨removes.services, removes.requests, removes.entries, removes.next, removes.kept, removes.closed⟩

/-! ### What every step keeps -/

/-- **How the two maps fit together.** -/
structure Sound (h : ServiceHub) : Prop where
  known : ∀ id ref, h.services.lookup id = some ref → ref < h.next ∧ (h.lease ref).id = id
  requested : ∀ r ref, h.requests r = some ref →
    (h.lease ref).requestID = r ∧ h.services.lookup (h.lease ref).id = some ref
  limited : ∀ owner, h.owned owner ≤ serviceMaxPerUser
  multiplexed : ∀ ref, (h.lease ref).connections.card ≤ serviceMaxConnections

theorem sound_new : newServiceHub.Sound where
  known := fun id ref found => by cases found
  requested := fun r ref found => by cases found
  limited := fun owner => Nat.zero_le _
  multiplexed := fun ref => Nat.zero_le _

theorem owned_congr (services : h'.services = h.services)
    (same : ∀ ref, (h'.lease ref).ownerUserID = (h.lease ref).ownerUserID) (owner : String) :
    h'.owned owner = h.owned owner := by
  rw [owned, owned, services]
  simp only [same]

theorem Sound.congr (sound : h.Sound) (services : h'.services = h.services)
    (requests : ∀ r ref, h'.requests r = some ref → h.requests r = some ref) (next : h'.next = h.next)
    (same : ∀ ref, (h.lease ref).Same (h'.lease ref))
    (bounded : ∀ ref, (h'.lease ref).connections.card ≤ serviceMaxConnections) : h'.Sound where
  known := fun id ref found => by
    rw [services] at found
    rw [next, (same ref).id]
    exact sound.known id ref found
  requested := fun r ref found => by
    rw [services, (same ref).id, (same ref).request]
    exact sound.requested r ref (requests r ref found)
  limited := fun owner => by
    rw [owned_congr services (fun ref => (same ref).owner)]
    exact sound.limited owner
  multiplexed := bounded

theorem same_modify {ref : ℕ} {change : ServiceLease → ServiceLease}
    (same : (h.lease ref).Same (change (h.lease ref))) (other : ℕ) :
    (h.lease other).Same ((h.modify ref change).lease other) := by
  show (h.lease other).Same (Function.update h.lease ref _ other)
  by_cases here : other = ref
  · subst here
    rw [Function.update_self]
    exact same
  · rw [Function.update_of_ne here]
    exact .refl _

/-- **One lease changes in place.** -/
theorem Sound.modify (sound : h.Sound) {ref : ℕ} {change : ServiceLease → ServiceLease}
    (same : (h.lease ref).Same (change (h.lease ref)))
    (bounded : (change (h.lease ref)).connections.card ≤ serviceMaxConnections) :
    (h.modify ref change).Sound := by
  refine sound.congr rfl (fun _ _ found => found) rfl (same_modify same) fun other => ?_
  show (Function.update h.lease ref _ other).connections.card ≤ _
  by_cases here : other = ref
  · subst here
    rw [Function.update_self]
    exact bounded
  · rw [Function.update_of_ne here]
    exact sound.multiplexed other

theorem Removes.same {refs : List ℕ} (removes : h.Removes h' refs) (ref : ℕ) :
    (h.lease ref).Same (h'.lease ref) := by
  rcases removes.closed ref with same | closed
  · rw [same]
    exact .refl _
  · rw [closed]
    exact ServiceLease.same_close _

/-- **Registered leases are removed.** -/
theorem Sound.removes (sound : h.Sound) {refs : List ℕ} (removes : h.Removes h' refs)
    (registered : ∀ ref ∈ refs, h.services.lookup (h.lease ref).id = some ref) : h'.Sound where
  known := fun id ref found => by
    rw [removes.services] at found
    split_ifs at found
    rw [removes.next, (removes.same ref).id]
    exact sound.known id ref found
  requested := fun r ref found => by
    rw [removes.requests] at found
    split_ifs at found with gone
    obtain ⟨request, service⟩ := sound.requested r ref found
    rw [(removes.same ref).id, (removes.same ref).request, removes.services, if_neg, service]
    · exact ⟨request, rfl⟩
    · rintro ⟨other, listed, same⟩
      have there := registered other listed
      rw [same, service] at there
      cases there
      exact gone ⟨ref, listed, request⟩
  limited := fun owner => by
    have owners : (fun entry : Sigma fun _ : UUID => ℕ => (h'.lease entry.2).ownerUserID == owner) =
        fun entry => (h.lease entry.2).ownerUserID == owner := by
      funext entry
      rw [(removes.same entry.2).owner]
    refine le_trans ?_ (sound.limited owner)
    rw [owned, owned, owners]
    exact removes.entries.countP_le
  multiplexed := fun ref => by
    rcases removes.closed ref with same | closed
    · rw [same]
      exact sound.multiplexed ref
    · rw [closed]
      exact sound.multiplexed ref

theorem registered_of_matching (sound : h.Sound) {want : ServiceLease → Bool} {ref : ℕ}
    (listed : ref ∈ h.matching want) : h.services.lookup (h.lease ref).id = some ref := by
  rw [matching, List.mem_filter, List.mem_map] at listed
  obtain ⟨⟨⟨id, other⟩, entry, rfl⟩, -⟩ := listed
  have found : h.services.lookup id = some other := AList.mem_lookup_iff.mpr entry
  rw [(sound.known id other found).2]
  exact found

theorem answered_some {resp : Option ServiceOpenedPayload} {fromUplink : ℕ}
    {found : ServiceOpenedPayload × ℕ} (answered : h.answered parseUUID resp fromUplink = some found) :
    h.requests found.1.requestID = some found.2 := by
  rw [ServiceHub.answered] at answered
  cases resp with
  | none => cases answered
  | some resp =>
    rw [Option.bind_eq_bind, Option.bind_some] at answered
    split_ifs at answered
    simp only [Option.bind_eq_bind, Option.bind_eq_some_iff] at answered
    obtain ⟨serviceID, -, ref, requested, rest⟩ := answered
    split_ifs at rest
    cases rest
    exact requested

/-- **What an event removes is registered.** -/
theorem removed_registered (sound : h.Sound) {event : LeaseEvent} {ref : ℕ}
    (listed : ref ∈ h.removed parseUUID event) : h.services.lookup (h.lease ref).id = some ref := by
  cases event with
  | finish resp fromUplink now =>
    rw [removed] at listed
    cases found : h.answered parseUUID resp fromUplink with
    | none =>
      rw [found] at listed
      cases listed
    | some pair =>
      rw [found] at listed
      dsimp only at listed
      split_ifs at listed
      · cases listed
      · rw [List.mem_singleton.mp listed]
        exact (sound.requested _ _ (answered_some found)).2
  | closeByRequester serviceID requester =>
    rw [removed, Option.mem_toList, requested, Option.filter_eq_some_iff] at listed
    rw [(sound.known _ _ listed.1).2]
    exact listed.1
  | closeRequester requester =>
    rw [removed] at listed
    exact registered_of_matching sound listed
  | closeUplink uplink =>
    rw [removed] at listed
    exact registered_of_matching sound listed
  | closeSession sessionID =>
    rw [removed] at listed
    exact registered_of_matching sound listed
  | closeLease lease =>
    rw [removed, Option.mem_toList, Option.filter_eq_some_iff] at listed
    simpa [registered] using listed.2
  | reapExpired now =>
    rw [removed] at listed
    exact registered_of_matching sound listed
  | registerSession sessionID owner uplink => cases listed
  | «begin» owner sessionID req requester onOverflow tickets now => cases listed
  | attach owner role reg conn now => cases listed
  | observePacket ref role packet now => cases listed

/-- **What `begin` can do**: refuse and stay, or reserve a lease under two ids that are free. -/
theorem begin_cases (owner : String) (sessionID : UUID) (req : ServiceOpenPayload)
    (requester onOverflow : Option ℕ) (tickets : Option (Ticket × Ticket)) (now : ℤ) :
    (∃ e, h.begin parseUUID owner sessionID req requester onOverflow tickets now = (.error e, h)) ∨
      ∃ lease : ServiceLease, ∃ texts, tickets = some (lease.hostTicket, lease.clientTicket) ∧
        lease.ownerUserID = owner ∧ lease.connections = ∅ ∧ lease.hostUsed = false ∧
        lease.clientUsed = false ∧ h.services.lookup lease.id = none ∧
        h.requests lease.requestID = none ∧ h.owned owner < serviceMaxPerUser ∧
        h.begin parseUUID owner sessionID req requester onOverflow tickets now = (.ok texts, { h with
          lease := Function.update h.lease h.next lease
          next := h.next + 1
          services := h.services.insert lease.id h.next
          requests := Function.update h.requests lease.requestID (some h.next) }) := by
  unfold ServiceHub.begin
  cases parsed : parseUUID req.serviceID with
  | none => exact .inl ⟨_, rfl⟩
  | some serviceID =>
    cases requester with
    | none => exact .inl ⟨_, rfl⟩
    | some requester =>
      dsimp only
      by_cases invalid : req.requestID = "" ∨ req.sealed.length = 0
      · exact .inl ⟨_, if_pos invalid⟩
      · rw [if_neg invalid]
        cases tickets with
        | none => exact .inl ⟨_, rfl⟩
        | some pair =>
          cases route : h.sessions sessionID with
          | none => exact .inl ⟨_, rfl⟩
          | some uplinkRoute =>
            dsimp only
            split_ifs with other service request limit
            · exact .inl ⟨_, rfl⟩
            · exact .inl ⟨_, rfl⟩
            · exact .inl ⟨_, rfl⟩
            · exact .inl ⟨_, rfl⟩
            · exact .inr ⟨_, _, rfl, rfl, rfl, rfl, rfl, by simpa using service,
                by simpa using request, not_le.mp limit, rfl⟩

/-- **A lease is reserved.** -/
theorem Sound.begin (sound : h.Sound) {lease : ServiceLease} (free : h.services.lookup lease.id = none)
    (below : h.owned lease.ownerUserID < serviceMaxPerUser) (unused : lease.connections = ∅) :
    Sound { h with
      lease := Function.update h.lease h.next lease
      next := h.next + 1
      services := h.services.insert lease.id h.next
      requests := Function.update h.requests lease.requestID (some h.next) } := by
  have old : ∀ id ref, h.services.lookup id = some ref →
      Function.update h.lease h.next lease ref = h.lease ref := by
    intro id ref found
    exact Function.update_of_ne (sound.known id ref found).1.ne _ _
  have absent : lease.id ∉ h.services := by
    rw [← AList.lookup_isSome, free]
    simp
  refine ⟨fun id ref found => ?_, fun r ref found => ?_, fun owner => ?_, fun ref => ?_⟩
  · dsimp only at found ⊢
    by_cases same : id = lease.id
    · subst same
      rw [AList.lookup_insert] at found
      cases found
      rw [Function.update_self]
      exact ⟨Nat.lt_succ_self _, rfl⟩
    · rw [AList.lookup_insert_ne same] at found
      rw [old id ref found]
      exact ⟨(sound.known id ref found).1.trans (Nat.lt_succ_self _), (sound.known id ref found).2⟩
  · dsimp only at found ⊢
    by_cases same : r = lease.requestID
    · subst same
      rw [Function.update_self] at found
      cases found
      rw [Function.update_self, AList.lookup_insert]
      exact ⟨rfl, rfl⟩
    · rw [Function.update_of_ne same] at found
      obtain ⟨request, service⟩ := sound.requested r ref found
      have elsewhere : (h.lease ref).id ≠ lease.id := by
        intro here
        rw [here, free] at service
        cases service
      rw [old _ ref service, AList.lookup_insert_ne elsewhere]
      exact ⟨request, service⟩
  · show List.countP _ (h.services.insert lease.id h.next).entries ≤ _
    have entries : (h.services.insert lease.id h.next).entries =
        ⟨lease.id, h.next⟩ :: h.services.entries := AList.entries_insert_of_notMem absent
    have others : h.services.entries.countP (fun entry =>
        (Function.update h.lease h.next lease entry.2).ownerUserID == owner) = h.owned owner := by
      refine List.countP_congr fun entry listed => ?_
      have found : h.services.lookup entry.1 = some entry.2 := AList.mem_lookup_iff.mpr listed
      rw [old entry.1 entry.2 found]
    rw [entries, List.countP_cons, others]
    simp only [Function.update_self]
    split_ifs with mine
    · rw [beq_iff_eq.mp mine] at below
      exact below
    · exact sound.limited owner
  · show (Function.update h.lease h.next lease ref).connections.card ≤ _
    by_cases fresh : ref = h.next
    · subst fresh
      rw [Function.update_self, unused]
      exact Nat.zero_le _
    · rw [Function.update_of_ne fresh]
      exact sound.multiplexed ref

/-- **What `finish` can do**: drop the answer, give the lease over to the requester, or end it. -/
theorem finish_cases (sound : h.Sound) (resp : Option ServiceOpenedPayload) (fromUplink : ℕ) (now : ℤ) :
    (h.removed parseUUID (.finish resp fromUplink now) = [] ∧
        ((h.finish parseUUID resp fromUplink now).2 = h ∨ ∃ r ref,
          (h.finish parseUUID resp fromUplink now).2 =
            { h with requests := Function.update h.requests r none }.modify ref fun lease =>
              { lease with ready := true, lastActive := now })) ∨
      ∃ ref, h.removed parseUUID (.finish resp fromUplink now) = [ref] ∧
        (h.finish parseUUID resp fromUplink now).2 = h.closeAll [ref] := by
  rw [removed, finish]
  cases found : h.answered parseUUID resp fromUplink with
  | none => exact .inl ⟨rfl, .inl rfl⟩
  | some pair =>
    obtain ⟨resp, ref⟩ := pair
    have request := (sound.requested _ _ (answered_some found)).1
    dsimp only
    cases ok : resp.ok with
    | true => exact .inl ⟨if_pos rfl, .inr ⟨resp.requestID, ref, congrArg Prod.snd (if_pos rfl)⟩⟩
    | false =>
      refine .inr ⟨ref, if_neg (by simp), ?_⟩
      rw [if_neg (by simp), ← request]
      rfl

/-- **An event that removes leases does nothing else.** -/
theorem step_removes (sound : h.Sound) {event : LeaseEvent} {ref : ℕ}
    (ends : ref ∈ h.removed parseUUID event) :
    h.Removes (h.step parseUUID event) (h.removed parseUUID event) := by
  cases event with
  | finish resp fromUplink now =>
    rcases h.finish_cases sound resp fromUplink now with ⟨nothing, -⟩ | ⟨ref, only, closed⟩
    · rw [nothing] at ends
      cases ends
    · rw [only, step, closed]
      exact removes_closeAll h [ref]
  | closeByRequester serviceID requester =>
    rw [removed] at ends ⊢
    cases found : h.requested serviceID requester with
    | none =>
      rw [found] at ends
      cases ends
    | some ref =>
      rw [step, closeByRequester, found]
      exact removes_closeAll h [ref]
  | closeRequester requester => exact removes_closeAll h _
  | closeUplink uplink => exact (removes_closeAll { h with sessions := _ } _).sessions
  | closeSession sessionID => exact (removes_closeAll { h with sessions := _ } _).sessions
  | closeLease lease =>
    rw [removed, Option.mem_toList, Option.filter_eq_some_iff] at ends
    obtain ⟨rfl, registered⟩ := ends
    rw [removed, Option.filter_some, if_pos registered, step, closeLease, if_pos registered]
    exact removes_closeAll h [ref]
  | reapExpired now => exact removes_closeAll h _
  | registerSession sessionID owner uplink => cases ends
  | «begin» owner sessionID req requester onOverflow tickets now => cases ends
  | attach owner role reg conn now => cases ends
  | observePacket ref role packet now => cases ends

theorem same_pair (lease : ServiceLease) : lease.Same lease.pair := by
  rw [ServiceLease.pair]
  split_ifs
  · exact ⟨rfl, rfl, rfl, fun role => by cases role <;> rfl⟩
  · exact .refl _

theorem connections_pair (lease : ServiceLease) : lease.pair.connections = lease.connections := by
  rw [ServiceLease.pair]
  split_ifs <;> rfl

/-- **What `attach` can do**: refuse and stay, or take the ticket of an end that has not been used. -/
theorem attach_cases (owner : String) (role : ServiceRole) (reg : ServiceRegistration) (conn : ℕ)
    (now : ℤ) :
    (∃ e, h.attach parseUUID owner role reg conn now = (.error e, h)) ∨
      ∃ id ref, h.services.lookup id = some ref ∧ (h.lease ref).used role = false ∧
        parseServiceTicket reg.ticket = some ((h.lease ref).ticket role) ∧
        ∃ change : ServiceLease → ServiceLease,
          h.attach parseUUID owner role reg conn now = (.ok ref, h.modify ref change) ∧
          (h.lease ref).Same (change (h.lease ref)) ∧
          (change (h.lease ref)).connections = (h.lease ref).connections ∧
          ∀ other, (change (h.lease ref)).used other =
            if other = role then true else (h.lease ref).used other := by
  unfold attach
  cases parsed : parseUUID reg.serviceID with
  | none => exact .inl ⟨_, rfl⟩
  | some id =>
    dsimp only
    by_cases blank : reg.ticket = ""
    · exact .inl ⟨_, if_pos blank⟩
    · rw [if_neg blank]
      cases found : h.services.lookup id with
      | none => exact .inl ⟨_, rfl⟩
      | some ref =>
        dsimp only
        by_cases foreign : (h.lease ref).ownerUserID ≠ owner
        · exact .inl ⟨_, if_pos foreign⟩
        · rw [if_neg foreign]
          cases role with
          | host =>
            dsimp only
            by_cases refused : (h.lease ref).hostUsed = true ∨
                ticketMatches (h.lease ref).hostTicket reg.ticket = false
            · exact .inl ⟨_, if_pos refused⟩
            · rw [if_neg refused]
              push Not at refused
              refine .inr ⟨id, ref, found, by simpa [ServiceLease.used] using refused.1,
                by simpa [ticketMatches, ServiceLease.ticket] using refused.2, _, rfl, ?_, ?_,
                fun other => ?_⟩
              · refine ServiceLease.Same.trans ?_ (same_pair _)
                exact ⟨rfl, rfl, rfl, fun role => by cases role <;> rfl⟩
              · exact connections_pair _
              · rw [ServiceLease.pair]
                split_ifs <;> cases other <;> simp_all [ServiceLease.used]
          | client =>
            dsimp only
            by_cases refused : (h.lease ref).ready = false ∨ (h.lease ref).clientUsed = true ∨
                ticketMatches (h.lease ref).clientTicket reg.ticket = false
            · exact .inl ⟨_, if_pos refused⟩
            · rw [if_neg refused]
              push Not at refused
              refine .inr ⟨id, ref, found, by simpa [ServiceLease.used] using refused.2.1,
                by simpa [ticketMatches, ServiceLease.ticket] using refused.2.2, _, rfl, ?_, ?_,
                fun other => ?_⟩
              · refine ServiceLease.Same.trans ?_ (same_pair _)
                exact ⟨rfl, rfl, rfl, fun role => by cases role <;> rfl⟩
              · exact connections_pair _
              · rw [ServiceLease.pair]
                split_ifs <;> cases other <;> simp_all [ServiceLease.used]

theorem observeConnections_card {connections after : Finset UInt32} {role : ServiceRole}
    {kind : Kind} {connection : UInt32} (bounded : connections.card ≤ serviceMaxConnections)
    (observed : observeConnections connections role kind connection = .ok after) :
    after.card ≤ serviceMaxConnections := by
  rw [observeConnections] at observed
  split_ifs at observed with opens stranger known full closes known
  · cases observed
    exact bounded
  · cases observed
    exact (Finset.card_insert_le _ _).trans (not_le.mp full)
  · cases observed
    exact (Finset.card_le_card (Finset.erase_subset _ _)).trans bounded
  · cases observed
    exact bounded

/-- What is left as it is: the tickets of the leases and whether they have been used. -/
structure Steady (h h' : ServiceHub) : Prop where
  next : h'.next = h.next
  same : ∀ ref, (h.lease ref).Same (h'.lease ref)
  used : ∀ ref role, (h'.lease ref).used role = (h.lease ref).used role

theorem Steady.refl (h : ServiceHub) : h.Steady h := ⟨rfl, fun _ => .refl _, fun _ _ => rfl⟩

theorem Steady.trans {h'' : ServiceHub} (first : h.Steady h') (second : h'.Steady h'') :
    h.Steady h'' :=
  ⟨second.next.trans first.next, fun ref => (first.same ref).trans (second.same ref),
    fun ref role => (second.used ref role).trans (first.used ref role)⟩

theorem steady_modify {ref : ℕ} {change : ServiceLease → ServiceLease}
    (same : (h.lease ref).Same (change (h.lease ref)))
    (used : ∀ role, (change (h.lease ref)).used role = (h.lease ref).used role) :
    h.Steady (h.modify ref change) := by
  refine ⟨rfl, same_modify same, fun other role => ?_⟩
  show (Function.update h.lease ref _ other).used role = _
  by_cases here : other = ref
  · subst here
    rw [Function.update_self]
    exact used role
  · rw [Function.update_of_ne here]

theorem Removes.steady {refs : List ℕ} (removes : h.Removes h' refs) : h.Steady h' := by
  refine ⟨removes.next, removes.same, fun ref role => ?_⟩
  rcases removes.closed ref with same | closed
  · rw [same]
  · rw [closed]
    cases role <;> rfl

theorem observePacket_steady (sound : h.Sound) (ref : ℕ) (role : ServiceRole) (packet : Bytes)
    (now : ℤ) : (h.observePacket ref role packet now).2.Sound ∧
      h.Steady (h.observePacket ref role packet now).2 := by
  unfold observePacket
  cases parsed : parseHeader packet with
  | error e => exact ⟨sound, .refl h⟩
  | ok header =>
    dsimp only
    by_cases gone : h.registered ref = false
    · rw [if_pos gone]
      exact ⟨sound, .refl h⟩
    · rw [if_neg gone]
      have counted : (h.lease ref).Same
          { h.lease ref with bytes := (h.lease ref).bytes + packet.length } :=
        ⟨rfl, rfl, rfl, fun role => by cases role <;> rfl⟩
      have counting : (h.modify ref fun lease =>
          { lease with bytes := lease.bytes + packet.length }).Sound :=
        sound.modify counted (sound.multiplexed ref)
      have steady : h.Steady (h.modify ref fun lease =>
          { lease with bytes := lease.bytes + packet.length }) :=
        steady_modify counted fun role => by cases role <;> rfl
      split_ifs with limit
      · exact ⟨counting, steady⟩
      · cases observed : observeConnections (h.lease ref).connections role header.kind
            header.connection with
        | error e => exact ⟨counting, steady⟩
        | ok connections =>
          dsimp only
          have bounded := observeConnections_card (sound.multiplexed ref) observed
          have kept : ∀ lease : ServiceLease,
              lease.Same { lease with connections := connections, lastActive := now } :=
            fun lease => ⟨rfl, rfl, rfl, fun role => by cases role <;> rfl⟩
          have unused : ∀ (lease : ServiceLease) role, ServiceLease.used
              { lease with connections := connections, lastActive := now } role =
                lease.used role := fun lease role => by cases role <;> rfl
          exact ⟨counting.modify (kept _) bounded,
            steady.trans (steady_modify (kept _) (unused _))⟩

theorem finish_steady (sound : h.Sound) (resp : Option ServiceOpenedPayload) (fromUplink : ℕ)
    (now : ℤ) : (h.finish parseUUID resp fromUplink now).2.Sound ∧
      h.Steady (h.finish parseUUID resp fromUplink now).2 := by
  rcases h.finish_cases sound resp fromUplink now with ⟨-, same | ⟨r, ref, given⟩⟩ | ⟨ref, only, closed⟩
  · rw [same]
    exact ⟨sound, .refl h⟩
  · rw [given]
    have taken : Sound { h with requests := Function.update h.requests r none } := by
      refine sound.congr rfl (fun other found => ?_) rfl (fun _ => .refl _) sound.multiplexed
      intro requested
      dsimp only at requested
      by_cases same : other = r
      · subst same
        rw [Function.update_self] at requested
        cases requested
      · rwa [Function.update_of_ne same] at requested
    have same : ((ServiceHub.mk h.lease h.next h.services (Function.update h.requests r none)
        h.sessions).lease ref).Same { h.lease ref with ready := true, lastActive := now } :=
      ⟨rfl, rfl, rfl, fun role => by cases role <;> rfl⟩
    refine ⟨taken.modify same (sound.multiplexed ref), ?_⟩
    have steady : h.Steady { h with requests := Function.update h.requests r none } :=
      ⟨rfl, fun _ => .refl _, fun _ _ => rfl⟩
    exact steady.trans (steady_modify same fun role => by cases role <;> rfl)
  · have removes := removes_closeAll h [ref]
    have registered : ∀ other ∈ [ref], h.services.lookup (h.lease other).id = some other := by
      intro other listed
      rw [← only] at listed
      exact removed_registered sound listed
    rw [closed]
    exact ⟨sound.removes removes registered, removes.steady⟩

/-- **What ends some leases, whichever they are.** -/
theorem closeAll_steady (sound : h.Sound) {refs : List ℕ} (removes : h.Removes h' refs)
    (registered : ∀ ref ∈ refs, h.services.lookup (h.lease ref).id = some ref) :
    h'.Sound ∧ h.Steady h' := ⟨sound.removes removes registered, removes.steady⟩

theorem closeLease_steady (sound : h.Sound) (lease : Option ℕ) :
    (h.closeLease lease).Sound ∧ h.Steady (h.closeLease lease) := by
  cases lease with
  | none => exact ⟨sound, .refl h⟩
  | some ref =>
    rw [closeLease]
    by_cases registered : h.registered ref
    · rw [if_pos registered]
      refine closeAll_steady sound (removes_closeAll h [ref]) fun other listed => ?_
      rw [List.mem_singleton.mp listed]
      simpa [ServiceHub.registered] using registered
    · rw [if_neg registered]
      exact ⟨sound.modify (ServiceLease.same_close _) (sound.multiplexed ref),
        steady_modify (ServiceLease.same_close _) fun role => by cases role <;> rfl⟩

theorem closeByRequester_steady (sound : h.Sound) (serviceID : UUID) (requester : ℕ) :
    (h.closeByRequester serviceID requester).2.Sound ∧
      h.Steady (h.closeByRequester serviceID requester).2 := by
  rw [closeByRequester]
  cases found : h.requested serviceID requester with
  | none => exact ⟨sound, .refl h⟩
  | some ref =>
    refine closeAll_steady sound (removes_closeAll h [ref]) fun other listed => ?_
    rw [List.mem_singleton.mp listed]
    rw [ServiceHub.requested, Option.filter_eq_some_iff] at found
    rw [(sound.known _ _ found.1).2]
    exact found.1

theorem closeMatching_steady (sound : h.Sound) (want : ServiceLease → Bool)
    (sessions : UUID → Option ServiceUplinkRoute) :
    ({ h with sessions := sessions }.closeMatching want).Sound ∧
      h.Steady ({ h with sessions := sessions }.closeMatching want) :=
  closeAll_steady sound (removes_closeAll { h with sessions := sessions } _).sessions
    fun _ listed => registered_of_matching sound listed

end ServiceHub

/-! ### Isolation -/

/-- A ticket that was accepted, the end and the lease it was accepted for. -/
structure Attachment where
  ref : ℕ
  role : ServiceRole
  ticket : Ticket
deriving DecidableEq

structure LeaseWorld where
  hub : ServiceHub
  accepted : List Attachment

namespace LeaseWorld

variable (parseUUID : String → Option UUID)

def start : LeaseWorld := ⟨newServiceHub, []⟩

def accepts (w : LeaseWorld) : LeaseEvent → List Attachment
  | .attach owner role reg conn now =>
    match (w.hub.attach parseUUID owner role reg conn now).1, parseServiceTicket reg.ticket with
    | .ok ref, some ticket => [⟨ref, role, ticket⟩]
    | _, _ => []
  | _ => []

def step (w : LeaseWorld) (event : LeaseEvent) : LeaseWorld where
  hub := w.hub.step parseUUID event
  accepted := w.accepted ++ w.accepts parseUUID event

/-- The random tickets of a new lease have not been drawn before. -/
def Fresh (w : LeaseWorld) : LeaseEvent → Prop
  | .begin _ _ _ _ _ (some (host, client)) _ => host ≠ client ∧ ∀ ref < w.hub.next, ∀ role,
      (w.hub.lease ref).ticket role ≠ host ∧ (w.hub.lease ref).ticket role ≠ client
  | _ => True

instance (w : LeaseWorld) : (event : LeaseEvent) → Decidable (w.Fresh event)
  | .begin _ _ _ _ _ (some (host, client)) _ =>
    inferInstanceAs (Decidable (host ≠ client ∧ ∀ ref < w.hub.next, ∀ role,
      (w.hub.lease ref).ticket role ≠ host ∧ (w.hub.lease ref).ticket role ≠ client))
  | .begin _ _ _ _ _ none _ | .registerSession _ _ _ | .finish _ _ _ | .closeByRequester _ _
  | .closeRequester _ | .closeUplink _ | .closeSession _ | .closeLease _ | .attach _ _ _ _ _
  | .observePacket _ _ _ _ | .reapExpired _ => inferInstanceAs (Decidable True)

/-- **Removing leases leaves the others alone**: what the maps hold for another lease stays there, and
the lease itself does not change. -/
def Isolates (w : LeaseWorld) (event : LeaseEvent) : Prop :=
  ∀ ref ∈ w.hub.removed parseUUID event, ∀ other ∉ w.hub.removed parseUUID event,
    (∀ id, w.hub.services.lookup id = some other →
      (w.hub.step parseUUID event).services.lookup id = some other) ∧
    (∀ r, w.hub.requests r = some other →
      (w.hub.step parseUUID event).requests r = some other) ∧
    (w.hub.step parseUUID event).lease other = w.hub.lease other

/-- The request id of a lease that is removed does not stand for a lease that stays. -/
def Careful (w : LeaseWorld) (event : LeaseEvent) : Prop :=
  ∀ ref ∈ w.hub.removed parseUUID event, ∀ other ∈ w.hub.requests (w.hub.lease ref).requestID,
    other ∈ w.hub.removed parseUUID event

instance (w : LeaseWorld) (event : LeaseEvent) : Decidable (w.Careful parseUUID event) :=
  inferInstanceAs (Decidable (∀ ref ∈ w.hub.removed parseUUID event,
    ∀ other ∈ w.hub.requests (w.hub.lease ref).requestID, other ∈ w.hub.removed parseUUID event))

/-- What else holds of the leases, whatever happens. -/
structure Leased (w : LeaseWorld) : Prop where
  byService : ∀ r ref, w.hub.requests r = some ref →
    w.hub.services.lookup (w.hub.lease ref).id = some ref
  perUser : ∀ owner, w.hub.owned owner ≤ serviceMaxPerUser
  role : ∀ a ∈ w.accepted, a.ticket = (w.hub.lease a.ref).ticket a.role
  once : (w.accepted.map Attachment.ticket).Nodup
  perLease : ∀ ref, (w.hub.lease ref).connections.card ≤ serviceMaxConnections

/-- The leases are in order, and no two ends have one ticket. -/
structure Sound (w : LeaseWorld) : Prop where
  hub : w.hub.Sound
  distinct : ∀ ref < w.hub.next, ∀ ref' < w.hub.next, ∀ role role',
    (w.hub.lease ref).ticket role = (w.hub.lease ref').ticket role' → ref = ref' ∧ role = role'
  accepted : ∀ a ∈ w.accepted, a.ref < w.hub.next ∧ (w.hub.lease a.ref).used a.role = true ∧
    a.ticket = (w.hub.lease a.ref).ticket a.role
  once : (w.accepted.map fun a => (a.ref, a.role)).Nodup

variable {parseUUID} {w : LeaseWorld}

theorem sound_start : start.Sound where
  hub := ServiceHub.sound_new
  distinct := fun ref below => absurd below (Nat.not_lt_zero ref)
  accepted := by simp [start]
  once := .nil

/-- **A step isolates the leases exactly if it is careful.** -/
theorem isolates_iff (sound : w.hub.Sound) (event : LeaseEvent) :
    w.Isolates parseUUID event ↔ w.Careful parseUUID event := by
  constructor
  · intro isolates ref ends other requested
    by_contra stays
    have removes := ServiceHub.step_removes sound ends
    have kept := (isolates ref ends other stays).2.1 _ requested
    rw [removes.requests, if_pos ⟨ref, ends, rfl⟩] at kept
    cases kept
  · intro careful ref ends other stays
    have removes := ServiceHub.step_removes sound ends
    refine ⟨fun id service => ?_, fun r request => ?_, removes.kept other stays⟩
    · rw [removes.services, if_neg]
      · exact service
      · rintro ⟨gone, listed, rfl⟩
        have there := ServiceHub.removed_registered sound listed
        rw [service] at there
        cases there
        exact stays listed
    · rw [removes.requests, if_neg]
      · exact request
      · rintro ⟨gone, listed, rfl⟩
        exact stays (careful gone listed other request)

theorem Sound.leased (sound : w.Sound) : w.Leased where
  byService := fun r ref found => (sound.hub.requested r ref found).2
  perUser := sound.hub.limited
  role := fun a listed => (sound.accepted a listed).2.2
  perLease := sound.hub.multiplexed
  once := by
    have distinct : w.accepted.Pairwise fun a b => (a.ref, a.role) ≠ (b.ref, b.role) :=
      List.pairwise_map.mp sound.once
    refine List.pairwise_map.mpr (distinct.imp_of_mem fun {a b} first second differ same => ?_)
    obtain ⟨below, -, issued⟩ := sound.accepted a first
    obtain ⟨below', -, issued'⟩ := sound.accepted b second
    rw [issued, issued'] at same
    obtain ⟨ref, role⟩ := sound.distinct _ below _ below' _ _ same
    exact differ (Prod.ext ref role)

theorem Sound.steady (sound : w.Sound) {hub : ServiceHub} (kept : hub.Sound)
    (steady : w.hub.Steady hub) : Sound ⟨hub, w.accepted⟩ where
  hub := kept
  distinct := fun ref below ref' below' role role' same => by
    rw [(steady.same ref).ticket, (steady.same ref').ticket] at same
    rw [steady.next] at below below'
    exact sound.distinct ref below ref' below' role role' same
  accepted := fun a listed => by
    obtain ⟨below, used, ticket⟩ := sound.accepted a listed
    exact ⟨steady.next ▸ below, (steady.used _ _).trans used,
      ticket.trans ((steady.same _).ticket _).symm⟩
  once := sound.once

theorem Sound.begin (sound : w.Sound) {lease : ServiceLease}
    (fresh : lease.hostTicket ≠ lease.clientTicket ∧ ∀ ref < w.hub.next, ∀ role,
      (w.hub.lease ref).ticket role ≠ lease.hostTicket ∧
        (w.hub.lease ref).ticket role ≠ lease.clientTicket)
    {hub : ServiceHub} (kept : hub.Sound) (next : hub.next = w.hub.next + 1)
    (leases : hub.lease = Function.update w.hub.lease w.hub.next lease) :
    Sound ⟨hub, w.accepted⟩ := by
  have old : ∀ ref < w.hub.next, hub.lease ref = w.hub.lease ref := fun ref below => by
    rw [leases, Function.update_of_ne below.ne]
  have new : hub.lease w.hub.next = lease := by rw [leases, Function.update_self]
  have apart : ∀ ref < w.hub.next, ∀ role role',
      (w.hub.lease ref).ticket role ≠ lease.ticket role' := fun ref below role role' => by
    cases role' with
    | client => exact (fresh.2 ref below role).2
    | host => exact (fresh.2 ref below role).1
  refine ⟨kept, fun ref below ref' below' role role' same => ?_, fun a listed => ?_, sound.once⟩
  · dsimp only at below below' same
    rw [next] at below below'
    rcases Nat.lt_succ_iff_lt_or_eq.mp below with earlier | rfl
    · rcases Nat.lt_succ_iff_lt_or_eq.mp below' with earlier' | rfl
      · rw [old ref earlier, old ref' earlier'] at same
        exact sound.distinct ref earlier ref' earlier' role role' same
      · rw [old ref earlier, new] at same
        exact absurd same (apart ref earlier role role')
    · rcases Nat.lt_succ_iff_lt_or_eq.mp below' with earlier' | rfl
      · rw [old ref' earlier', new] at same
        exact absurd same.symm (apart ref' earlier' role' role)
      · rw [new] at same
        refine ⟨rfl, ?_⟩
        cases role <;> cases role'
        · rfl
        · exact absurd same.symm fresh.1
        · exact absurd same fresh.1
        · rfl
  · obtain ⟨below, used, ticket⟩ := sound.accepted a listed
    dsimp only
    rw [next, old a.ref below]
    exact ⟨below.trans (Nat.lt_succ_self _), used, ticket⟩

theorem Sound.accept (sound : w.Sound) {hub : ServiceHub} (kept : hub.Sound)
    (next : hub.next = w.hub.next) (same : ∀ ref, (w.hub.lease ref).Same (hub.lease ref)) {ref : ℕ}
    {role : ServiceRole} (below : ref < w.hub.next) (unused : (w.hub.lease ref).used role = false)
    (used : ∀ other role', (hub.lease other).used role' =
      if other = ref ∧ role' = role then true else (w.hub.lease other).used role') :
    Sound ⟨hub, w.accepted ++ [⟨ref, role, (w.hub.lease ref).ticket role⟩]⟩ where
  hub := kept
  distinct := fun one below other below' role role' equal => by
    rw [(same one).ticket, (same other).ticket] at equal
    rw [next] at below below'
    exact sound.distinct one below other below' role role' equal
  accepted := fun a listed => by
    dsimp only at listed ⊢
    rw [next, used, (same a.ref).ticket]
    rcases List.mem_append.mp listed with earlier | last
    · obtain ⟨known, taken, ticket⟩ := sound.accepted a earlier
      refine ⟨known, ?_, ticket⟩
      split_ifs
      · rfl
      · exact taken
    · rw [List.mem_singleton.mp last]
      exact ⟨below, if_pos ⟨rfl, rfl⟩, rfl⟩
  once := by
    rw [List.map_append]
    refine List.nodup_append.mpr ⟨sound.once, List.nodup_singleton _, ?_⟩
    intro pair listed other last
    obtain ⟨a, earlier, rfl⟩ := List.mem_map.mp listed
    rw [List.map_singleton, List.mem_singleton] at last
    subst last
    intro equal
    have taken := (sound.accepted a earlier).2.1
    obtain ⟨there, mine⟩ := Prod.mk.inj equal
    rw [there, mine, unused] at taken
    cases taken

/-- **What every step keeps**, when the tickets it draws are fresh. -/
theorem sound_step (sound : w.Sound) (event : LeaseEvent) (fresh : w.Fresh event) :
    (w.step parseUUID event).Sound := by
  have still : ∀ {hub : ServiceHub}, hub.Sound ∧ w.hub.Steady hub →
      Sound ⟨hub, w.accepted ++ []⟩ := fun {hub} both => by
    rw [List.append_nil]
    exact sound.steady both.1 both.2
  cases event with
  | registerSession sessionID owner uplink =>
    refine still ?_
    show (w.hub.registerSession sessionID owner uplink).Sound ∧
      w.hub.Steady (w.hub.registerSession sessionID owner uplink)
    unfold ServiceHub.registerSession
    split
    · exact ⟨sound.hub, .refl _⟩
    · split_ifs
      · exact ⟨sound.hub, .refl _⟩
      · exact ⟨sound.hub.congr rfl (fun _ _ found => found) rfl (fun _ => .refl _)
          sound.hub.multiplexed, ⟨rfl, fun _ => .refl _, fun _ _ => rfl⟩⟩
  | «begin» owner sessionID req requester onOverflow tickets now =>
    show Sound ⟨(w.hub.begin parseUUID owner sessionID req requester onOverflow tickets now).2,
      w.accepted ++ []⟩
    rw [List.append_nil]
    rcases w.hub.begin_cases owner sessionID req requester onOverflow tickets now with
      ⟨e, refused⟩ | ⟨lease, texts, drawn, rfl, unused, -, -, free, -, below, reserved⟩
    · rw [refused]
      exact sound
    · rw [drawn] at fresh
      rw [reserved]
      exact sound.begin fresh (sound.hub.begin free below unused) rfl rfl
  | finish resp fromUplink now => exact still (ServiceHub.finish_steady sound.hub resp fromUplink now)
  | closeByRequester serviceID requester =>
    exact still (ServiceHub.closeByRequester_steady sound.hub serviceID requester)
  | closeRequester requester => exact still (ServiceHub.closeMatching_steady sound.hub _ w.hub.sessions)
  | closeUplink uplink => exact still (ServiceHub.closeMatching_steady sound.hub _ _)
  | closeSession sessionID => exact still (ServiceHub.closeMatching_steady sound.hub _ _)
  | closeLease lease => exact still (ServiceHub.closeLease_steady sound.hub lease)
  | reapExpired now => exact still (ServiceHub.closeMatching_steady sound.hub _ w.hub.sessions)
  | observePacket ref role packet now =>
    exact still (ServiceHub.observePacket_steady sound.hub ref role packet now)
  | attach owner role reg conn now =>
    rw [step, accepts, ServiceHub.step]
    rcases w.hub.attach_cases owner role reg conn now with
      ⟨e, refused⟩ | ⟨id, ref, service, unused, ticket, change, attached, same, connections, used⟩
    · rw [refused]
      dsimp only
      rw [List.append_nil]
      exact sound
    · rw [attached, ticket]
      dsimp only
      have bounded : (change (w.hub.lease ref)).connections.card ≤ serviceMaxConnections := by
        rw [connections]
        exact sound.hub.multiplexed ref
      refine sound.accept (sound.hub.modify same bounded) rfl (ServiceHub.same_modify same)
        (sound.hub.known id ref service).1 unused fun other role' => ?_
      show (Function.update w.hub.lease ref _ other).used role' = _
      by_cases here : other = ref
      · subst here
        rw [Function.update_self, used]
        simp
      · rw [Function.update_of_ne here, if_neg fun both => here both.1]

theorem sound_run {events : List LeaseEvent} (fresh : Meets (step parseUUID) Fresh start events) :
    (run (step parseUUID) start events).Sound :=
  run_invariant_of_meets Sound (fun _ event sound fresh => sound_step sound event fresh) sound_start
    fresh

/-- **The leases are isolated in a run exactly if its steps are careful.** Whatever happens, each
request leads to a registered lease, no owner has more leases and no lease more connections than it
may have, and each ticket is accepted once and for its own end. -/
theorem leases_isolated_iff {events : List LeaseEvent}
    (fresh : Meets (step parseUUID) Fresh start events) :
    ((∀ before, before <+: events → (run (step parseUUID) start before).Leased) ∧
      Meets (step parseUUID) (Isolates parseUUID) start events) ↔
      Meets (step parseUUID) (Careful parseUUID) start events := by
  have leased : ∀ before, before <+: events → (run (step parseUUID) start before).Leased := by
    rintro before ⟨after, rfl⟩
    exact (sound_run ((meets_append _).mp fresh).1).leased
  have alike : ∀ {w : LeaseWorld} {rest : List LeaseEvent}, w.Sound →
      Meets (step parseUUID) Fresh w rest →
      (Meets (step parseUUID) (Isolates parseUUID) w rest ↔
        Meets (step parseUUID) (Careful parseUUID) w rest) := by
    intro w rest sound fresh
    induction rest generalizing w with
    | nil => exact Iff.rfl
    | cons event rest ih =>
      exact and_congr (isolates_iff sound.hub event) (ih (sound_step sound event fresh.1) fresh.2)
  rw [← alike sound_start fresh]
  exact and_iff_right leased

/-! ### A request id that is used again -/

def sampleID (last : UInt8) : UUID := ⟨List.replicate 15 0 ++ [last], rfl⟩

def sampleUUID (text : String) : Option UUID :=
  if text = "00000000-0000-0000-0000-000000000001" then some (sampleID 1)
  else if text = "00000000-0000-0000-0000-000000000002" then some (sampleID 2)
  else none

def sampleTicket (octet : UInt8) : Ticket := ⟨List.replicate 32 octet, by simp⟩

/-- An owner opens a service under the request id `open` and is answered, and so does another owner,
whose request is still to be answered. -/
def sampleLeases : List LeaseEvent :=
  let one := "00000000-0000-0000-0000-000000000001"
  let two := "00000000-0000-0000-0000-000000000002"
  [.registerSession (sampleID 7) "ann" (some 70), .registerSession (sampleID 8) "bob" (some 80),
    .begin "ann" (sampleID 7) ⟨"open", one, "", [1]⟩ (some 10) none
      (some (sampleTicket 1, sampleTicket 2)) 0,
    .finish (some ⟨"open", one, true, "", ""⟩) 70 5,
    .attach "ann" .host ⟨one, Base64.encode (sampleTicket 1).val⟩ 1 6,
    .begin "bob" (sampleID 8) ⟨"open", two, "", [1]⟩ (some 20) none
      (some (sampleTicket 3, sampleTicket 4)) 7]

/-- The first owner closes its service, and the request of the second one is no longer known. -/
theorem request_taken_away :
    Meets (step sampleUUID) Fresh start (sampleLeases ++ [.closeByRequester (sampleID 1) 10]) ∧
      ¬Meets (step sampleUUID) (Isolates sampleUUID) start
        (sampleLeases ++ [.closeByRequester (sampleID 1) 10]) := by
  refine ⟨by decide, fun isolates => ?_⟩
  have last := ((meets_append _).mp isolates).2.1
  have ends : 0 ∈ (run (step sampleUUID) start sampleLeases).hub.removed sampleUUID
      (.closeByRequester (sampleID 1) 10) := by decide
  have stays : 1 ∉ (run (step sampleUUID) start sampleLeases).hub.removed sampleUUID
      (.closeByRequester (sampleID 1) 10) := by decide
  have kept := (last 0 ends 1 stays).2.1 "open" (by decide)
  revert kept
  decide

theorem answered_leases_isolated :
    (run (step sampleUUID) start (sampleLeases ++ [.closeByRequester (sampleID 2) 20])).Leased := by
  have fresh : Meets (step sampleUUID) Fresh start
      (sampleLeases ++ [.closeByRequester (sampleID 2) 20]) := by decide
  have careful : Meets (step sampleUUID) (Careful sampleUUID) start
      (sampleLeases ++ [.closeByRequester (sampleID 2) 20]) := by decide
  exact ((leases_isolated_iff fresh).mpr careful).1 _ (List.prefix_refl _)

end LeaseWorld

end Atterm.Service
