/-
**An invitation is redeemed once.**

Adding, redeeming and revoking invitations, and denials received from other peers, all rewrite the
same records. A consumed record is frozen: no later call touches it. The one way around that is a
redemption in the second zero of the clock, because time zero stands for "not consumed".

* `Tidy` — distinct ids, and no record both consumed and revoked;
* `Kept` — every record is still there, a consumed one unchanged;
* `invitations_redeemed_once` — every run whose calls are sound.
-/

import Atterm.Peer.Denials
import Atterm.Peer.Directory
import Atterm.Foundation.Runs

namespace Atterm.Peer

open Atterm.Foundation

/-! ### Records -/

/-- A record that is consumed is not revoked, and one that is not consumed names no consumer. -/
def Invitation.Settled (invite : Invitation) : Prop :=
  (invite.consumedAt ≠ 0 → invite.revokedAt = 0) ∧
    (invite.consumedAt = 0 → invite.consumedByPeerID = "" ∧ invite.issuedMembership = "")

instance (invite : Invitation) : Decidable invite.Settled :=
  inferInstanceAs (Decidable (_ ∧ _))

/-- The records of a store in order. -/
structure Tidy (invitations : List Invitation) : Prop where
  ids : (invitations.map Invitation.inviteID).Nodup
  settled : ∀ invite ∈ invitations, invite.Settled

/-- Every record is still there, and a consumed one is unchanged. -/
def Kept (before after : List Invitation) : Prop :=
  ∀ invite ∈ before, ∃ later ∈ after, later.inviteID = invite.inviteID ∧
    (invite.consumedAt ≠ 0 → later = invite)

theorem Kept.refl (invitations : List Invitation) : Kept invitations invitations :=
  fun invite member => ⟨invite, member, rfl, fun _ => rfl⟩

theorem Kept.trans {first second third : List Invitation} (early : Kept first second)
    (late : Kept second third) : Kept first third := by
  intro invite member
  obtain ⟨middle, inside, named, frozen⟩ := early invite member
  obtain ⟨last, inside', named', frozen'⟩ := late middle inside
  refine ⟨last, inside', named'.trans named, fun consumed => ?_⟩
  have same := frozen consumed
  rw [frozen' (same ▸ consumed), same]

/-- What a call may do to a record of its own accord. -/
structure Rewrites (change : Invitation → Invitation) : Prop where
  inviteID : ∀ invite, (change invite).inviteID = invite.inviteID
  consumed : ∀ invite, (change invite).consumedAt = invite.consumedAt
  frozen : ∀ invite, invite.consumedAt ≠ 0 → change invite = invite
  settled : ∀ invite, invite.Settled → (change invite).Settled

theorem rewrites_of_revokedAt {change : Invitation → Invitation}
    (shape : ∀ invite, ∃ revokedAt, change invite = { invite with revokedAt })
    (frozen : ∀ invite, invite.consumedAt ≠ 0 → change invite = invite) : Rewrites change where
  inviteID := by
    intro invite
    obtain ⟨revokedAt, same⟩ := shape invite
    rw [same]
  consumed := by
    intro invite
    obtain ⟨revokedAt, same⟩ := shape invite
    rw [same]
  frozen := frozen
  settled := by
    intro invite settled
    by_cases consumed : invite.consumedAt = 0
    · obtain ⟨revokedAt, same⟩ := shape invite
      rw [same]
      exact ⟨fun used => absurd consumed used, settled.2⟩
    · rw [frozen invite consumed]
      exact settled

theorem Rewrites.tidy {change : Invitation → Invitation} (rewrites : Rewrites change)
    {invitations : List Invitation} (tidy : Tidy invitations) : Tidy (invitations.map change) where
  ids := by
    rw [List.map_map]
    have same : Invitation.inviteID ∘ change = Invitation.inviteID := funext rewrites.inviteID
    rw [same]
    exact tidy.ids
  settled := by
    intro invite member
    obtain ⟨before, inside, rfl⟩ := List.mem_map.mp member
    exact rewrites.settled before (tidy.settled before inside)

theorem Rewrites.kept {change : Invitation → Invitation} (rewrites : Rewrites change)
    (invitations : List Invitation) : Kept invitations (invitations.map change) :=
  fun invite member => ⟨change invite, List.mem_map.mpr ⟨invite, member, rfl⟩,
    rewrites.inviteID invite, rewrites.frozen invite⟩

theorem Rewrites.mem_of_consumed {change : Invitation → Invitation} (rewrites : Rewrites change)
    {invitations : List Invitation} {invite : Invitation} (member : invite ∈ invitations.map change)
    (consumed : invite.consumedAt ≠ 0) : invite ∈ invitations := by
  obtain ⟨before, inside, rfl⟩ := List.mem_map.mp member
  rw [rewrites.consumed] at consumed
  rw [rewrites.frozen before consumed]
  exact inside

theorem denied_rewrites (times : Invitation → List ℤ) :
    Rewrites fun invite => invite.deniedAll (times invite) :=
  rewrites_of_revokedAt (fun invite => invite.deniedAll_shape (times invite))
    fun _ consumed => Invitation.deniedAll_of_consumed consumed _

theorem revoked_rewrites (matching : Invitation → Bool) (now : ℤ) :
    Rewrites (Invitation.revoked matching now) := by
  refine rewrites_of_revokedAt (fun invite => ?_) fun invite consumed => ?_
  · unfold Invitation.revoked
    split_ifs
    · exact ⟨unix now, rfl⟩
    · exact ⟨invite.revokedAt, rfl⟩
  · unfold Invitation.revoked
    rw [if_neg fun all => consumed all.2.1]

/-! ### Adding and redeeming -/

theorem addEach_ok {now : ℤ} {seen : List String} {held added after : List Invitation}
    (done : addEach now seen held added = .ok after) :
    after = held ++ added ∧ (added.map Invitation.inviteID).Nodup ∧
      ∀ invite ∈ added, invite.inviteID ∉ seen := by
  induction added generalizing seen held with
  | nil =>
    rw [addEach, Except.ok.injEq] at done
    simp [done]
  | cons invite rest ih =>
    rw [addEach] at done
    obtain ⟨_, done⟩ := guard_ok done
    obtain ⟨fresh, done⟩ := guard_ok done
    obtain ⟨whole, distinct, apart⟩ := ih done
    refine ⟨by rw [whole, List.append_assoc]; rfl, ?_, ?_⟩
    · rw [List.map_cons, List.nodup_cons]
      refine ⟨fun again => ?_, distinct⟩
      obtain ⟨other, member, same⟩ := List.mem_map.mp again
      exact apart other member (same ▸ List.mem_cons_self)
    · intro other member
      rcases List.mem_cons.mp member with rfl | later
      · exact fresh
      · exact fun listed => apart other later (List.mem_cons_of_mem _ listed)

theorem addEach_tidy {now : ℤ} {held added after : List Invitation} (tidy : Tidy held)
    (settled : ∀ invite ∈ added, invite.Settled)
    (done : addEach now (held.map Invitation.inviteID) held added = .ok after) :
    Tidy after ∧ Kept held after := by
  obtain ⟨rfl, distinct, apart⟩ := addEach_ok done
  refine ⟨⟨?_, ?_⟩, fun invite member => ⟨invite, List.mem_append_left _ member, rfl, fun _ => rfl⟩⟩
  · rw [List.map_append, List.nodup_append]
    refine ⟨tidy.ids, distinct, ?_⟩
    rintro first firstMember second secondMember rfl
    obtain ⟨invite, member, rfl⟩ := List.mem_map.mp secondMember
    exact apart invite member firstMember
  · intro invite member
    rcases List.mem_append.mp member with old | new
    · exact tidy.settled invite old
    · exact settled invite new

def Invitation.redeemed (invite : Invitation) (consumerPeerID issuedMembership : String) (now : ℤ) :
    Invitation :=
  { invite with
    consumedAt := unix now
    consumedByPeerID := consumerPeerID
    issuedMembership := issuedMembership }

/-- **A redemption** finds the record of its invitation: consumed by the same peer, and then nothing
changes, or open, and then the record is consumed. -/
theorem redeemEach_ok {inviteID consumerPeerID issuedMembership membership : String} {now : ℤ}
    {invitations after : List Invitation} {changed : Bool}
    (done : redeemEach inviteID consumerPeerID issuedMembership now invitations
      = .ok (after, membership, changed)) :
    ∃ before invite rest, invitations = before ++ invite :: rest ∧ invite.inviteID = inviteID ∧
      ((changed = false ∧ after = invitations ∧ invite.consumedAt ≠ 0 ∧
          invite.consumedByPeerID = consumerPeerID ∧ invite.issuedMembership = membership) ∨
        (changed = true ∧ invite.consumedAt = 0 ∧ invite.revokedAt = 0 ∧
          membership = issuedMembership ∧
          after = before ++ invite.redeemed consumerPeerID issuedMembership now :: rest)) := by
  induction invitations generalizing after with
  | nil => cases done
  | cons invite rest ih =>
    rw [redeemEach] at done
    by_cases other : invite.inviteID ≠ inviteID
    · rw [if_pos other] at done
      obtain ⟨⟨others, found, moved⟩, later, same⟩ := bind_ok done
      cases same
      obtain ⟨before, hit, tail, split, named, outcome⟩ := ih later
      refine ⟨invite :: before, hit, tail, by rw [split]; rfl, named, ?_⟩
      rcases outcome with ⟨still, unchanged, rest⟩ | ⟨moved, open_, unrevoked, answer, whole⟩
      · exact Or.inl ⟨still, by rw [unchanged], rest⟩
      · exact Or.inr ⟨moved, open_, unrevoked, answer, by rw [whole]; rfl⟩
    rw [if_neg other] at done
    refine ⟨[], invite, rest, rfl, not_not.mp other, ?_⟩
    by_cases consumed : invite.consumedAt ≠ 0
    · rw [if_pos consumed] at done
      obtain ⟨mine, done⟩ := guard_ok done
      cases done
      exact Or.inl ⟨rfl, rfl, consumed, not_not.mp fun other => mine (Or.inl other), rfl⟩
    · rw [if_neg consumed] at done
      obtain ⟨unrevoked, done⟩ := guard_ok done
      obtain ⟨_, done⟩ := guard_ok done
      cases done
      exact Or.inr ⟨rfl, not_not.mp consumed, not_not.mp unrevoked, rfl, rfl⟩

theorem redeemed_tidy {before rest : List Invitation} {invite : Invitation}
    (consumerPeerID issuedMembership : String) {now : ℤ} (dated : unix now ≠ 0)
    (unused : invite.consumedAt = 0) (unrevoked : invite.revokedAt = 0)
    (tidy : Tidy (before ++ invite :: rest)) :
    Tidy (before ++ invite.redeemed consumerPeerID issuedMembership now :: rest) ∧
      Kept (before ++ invite :: rest)
        (before ++ invite.redeemed consumerPeerID issuedMembership now :: rest) := by
  refine ⟨⟨?_, ?_⟩, ?_⟩
  · have ids := tidy.ids
    rw [List.map_append, List.map_cons] at ids ⊢
    exact ids
  · intro found member
    rcases List.mem_append.mp member with early | late
    · exact tidy.settled found (List.mem_append_left _ early)
    · rcases List.mem_cons.mp late with rfl | later
      · exact ⟨fun _ => unrevoked, fun zero => absurd zero dated⟩
      · exact tidy.settled found (List.mem_append_right _ (List.mem_cons_of_mem _ later))
  · intro found member
    rcases List.mem_append.mp member with early | late
    · exact ⟨found, List.mem_append_left _ early, rfl, fun _ => rfl⟩
    · rcases List.mem_cons.mp late with rfl | later
      · exact ⟨_, List.mem_append_right _ List.mem_cons_self, rfl, fun used => absurd unused used⟩
      · exact ⟨found, List.mem_append_right _ (List.mem_cons_of_mem _ later), rfl, fun _ => rfl⟩

/-! ### One call -/

section Calls

variable {P : Primitives}

theorem load_rewrites {disk state : StoreState} (done : load P disk = .ok state) :
    ∃ change, Rewrites change ∧ state.invitations = disk.invitations.map change := by
  unfold load at done
  obtain ⟨_, done⟩ := guard_ok done
  obtain ⟨canonical, ordered, done⟩ := bind_ok done
  obtain ⟨_, _, rfl⟩ := materializeMemberships_shape ordered
  split_ifs at done with denials
  · obtain ⟨⟨genesis, set⟩, _, filed⟩ := bind_ok done
    obtain ⟨docs, rfl, _⟩ := materialize_fold_ok filed
    rw [StoreState.fileAll_eq]
    exact ⟨_, denied_rewrites _, rfl⟩
  · cases done
    exact ⟨id, ⟨fun _ => rfl, fun _ => rfl, fun _ _ => rfl, fun _ settled => settled⟩,
      (List.map_id _).symm⟩

theorem write_invitations {written : Bool} {state after : StoreState}
    (done : write P written state = .ok after) : after.invitations = state.invitations := by
  obtain ⟨canonical, ordered, done⟩ := bind_ok done
  obtain ⟨_, done⟩ := guard_ok done
  cases done
  obtain ⟨_, _, rfl⟩ := materializeMemberships_shape ordered
  rfl

theorem mutate_kept {written : Bool} {apply : StoreState → Except StoreError StoreState}
    {disk after : StoreState} (tidy : Tidy disk.invitations)
    (keeps : ∀ state changed, Tidy state.invitations → apply state = .ok changed →
      Tidy changed.invitations ∧ Kept state.invitations changed.invitations)
    (done : mutate P written apply disk = .ok after) :
    Tidy after.invitations ∧ Kept disk.invitations after.invitations := by
  obtain ⟨state, loaded, done⟩ := bind_ok done
  obtain ⟨changed, applied, done⟩ := bind_ok done
  obtain ⟨change, rewrites, same⟩ := load_rewrites loaded
  have read : Kept disk.invitations state.invitations := same ▸ rewrites.kept disk.invitations
  obtain ⟨still, moved⟩ := keeps state changed (same ▸ rewrites.tidy tidy) applied
  rw [write_invitations done]
  exact ⟨still, read.trans moved⟩

theorem revoke_kept {matching : Invitation → Bool} {now : ℤ} {state changed : StoreState}
    (tidy : Tidy state.invitations) (done : revoke matching now state = .ok changed) :
    Tidy changed.invitations ∧ Kept state.invitations changed.invitations := by
  obtain ⟨_, done⟩ := guard_ok done
  cases done
  exact ⟨(revoked_rewrites matching now).tidy tidy, (revoked_rewrites matching now).kept _⟩

theorem addInvitations_kept {invitations : List Invitation} {now : ℤ} {state changed : StoreState}
    (settled : ∀ invite ∈ invitations, invite.Settled) (tidy : Tidy state.invitations)
    (done : addInvitations invitations now state = .ok changed) :
    Tidy changed.invitations ∧ Kept state.invitations changed.invitations := by
  obtain ⟨held, added, done⟩ := bind_ok done
  cases done
  exact addEach_tidy tidy settled added

theorem applyRevocations_kept {tokens : List String} {now : ℤ} {state changed : StoreState}
    (tidy : Tidy state.invitations) (done : applyRevocations P tokens now state = .ok changed) :
    Tidy changed.invitations ∧ Kept state.invitations changed.invitations := by
  obtain ⟨⟨genesis, set⟩, _, done⟩ := bind_ok done
  obtain ⟨filled, _, done⟩ := bind_ok done
  obtain ⟨filed, materialized, done⟩ := bind_ok done
  cases done
  obtain ⟨docs, rfl, _⟩ := materialize_fold_ok materialized
  rw [StoreState.fileAll_eq]
  exact ⟨(denied_rewrites _).tidy tidy, (denied_rewrites _).kept _⟩

theorem applyMemberships_kept {tokens : List String} {now : ℤ} {state changed : StoreState}
    (tidy : Tidy state.invitations) (done : applyMemberships P tokens now state = .ok changed) :
    Tidy changed.invitations ∧ Kept state.invitations changed.invitations := by
  obtain ⟨filed, ordered, done⟩ := bind_ok done
  obtain ⟨_, _, rfl⟩ := materializeMemberships_shape ordered
  split_ifs at done <;> cases done <;> exact ⟨tidy, Kept.refl _⟩

/-- A record that shows who redeemed an invitation and what was issued for it. -/
def Consumed (invitations : List Invitation) (inviteID consumerPeerID membership : String) : Prop :=
  ∃ invite ∈ invitations, invite.inviteID = inviteID ∧ invite.consumedAt ≠ 0 ∧
    invite.consumedByPeerID = consumerPeerID ∧ invite.issuedMembership = membership

theorem redeemInvitation_kept {inviteID consumerPeerID issuedMembership membership : String} {now : ℤ}
    {written : Bool} {disk after : StoreState} (dated : unix now ≠ 0) (tidy : Tidy disk.invitations)
    (done : redeemInvitation P inviteID consumerPeerID issuedMembership now written disk
      = .ok (membership, after)) :
    Tidy after.invitations ∧ Kept disk.invitations after.invitations ∧
      Consumed after.invitations inviteID consumerPeerID membership := by
  obtain ⟨_, done⟩ := guard_ok done
  obtain ⟨state, loaded, done⟩ := bind_ok done
  obtain ⟨⟨invitations, answer, changed⟩, redeemed, done⟩ := bind_ok done
  obtain ⟨change, rewrites, same⟩ := load_rewrites loaded
  have read : Kept disk.invitations state.invitations := same ▸ rewrites.kept disk.invitations
  have tidied : Tidy state.invitations := same ▸ rewrites.tidy tidy
  obtain ⟨before, invite, rest, split, named, outcome⟩ := redeemEach_ok redeemed
  have member : invite ∈ state.invitations :=
    split ▸ List.mem_append_right _ List.mem_cons_self
  rcases outcome with ⟨rfl, rfl, consumed, consumer, rfl⟩ | ⟨rfl, unused, unrevoked, rfl, rfl⟩
  · -- a retry: the consumed record is in the file as it was read
    cases done
    rw [same] at member
    exact ⟨tidy, Kept.refl _, invite, rewrites.mem_of_consumed member consumed, named, consumed,
      consumer, rfl⟩
  · obtain ⟨written, stored, done⟩ := bind_ok done
    cases done
    rw [split] at tidied read
    have redemption := redeemed_tidy consumerPeerID membership dated unused unrevoked tidied
    rw [write_invitations stored]
    exact ⟨redemption.1, read.trans redemption.2, _, List.mem_append_right _ List.mem_cons_self, named, dated, rfl,
      rfl⟩

/-- A call of the kind the program makes: a new batch holds settled records, and a redemption does
not happen in second zero. -/
def StoreCall.Sound : StoreCall → Prop
  | addInvitations invitations _ => ∀ invite ∈ invitations, invite.Settled
  | redeemInvitation _ _ _ now => unix now ≠ 0
  | _ => True

/-- **One call** keeps the records in order and freezes the consumed ones. -/
theorem StoreCall.run_kept {call : StoreCall} {written : Bool} {disk after : StoreState}
    {answer : Option String} (sound : call.Sound) (tidy : Tidy disk.invitations)
    (done : call.run P written disk = .ok (answer, after)) :
    Tidy after.invitations ∧ Kept disk.invitations after.invitations := by
  cases call with
  | addInvitations invitations now =>
    obtain ⟨changed, mutated, done⟩ := bind_ok done
    cases done
    exact mutate_kept tidy (fun _ _ => addInvitations_kept sound) mutated
  | redeemInvitation inviteID consumerPeerID issuedMembership now =>
    obtain ⟨⟨membership, changed⟩, redeemed, done⟩ := bind_ok done
    cases done
    obtain ⟨still, kept, _⟩ := redeemInvitation_kept sound tidy redeemed
    exact ⟨still, kept⟩
  | revokeInvitation inviteID now =>
    obtain ⟨changed, mutated, done⟩ := bind_ok done
    cases done
    exact mutate_kept tidy (fun _ _ => revoke_kept) mutated
  | revokeBatch batchID now =>
    obtain ⟨changed, mutated, done⟩ := bind_ok done
    cases done
    exact mutate_kept tidy (fun _ _ => revoke_kept) mutated
  | applyRevocations tokens now =>
    obtain ⟨_, done⟩ := guard_ok done
    obtain ⟨changed, mutated, done⟩ := bind_ok done
    cases done
    exact mutate_kept tidy (fun _ _ => applyRevocations_kept) mutated
  | applyMemberships tokens now =>
    obtain ⟨_, done⟩ := guard_ok done
    obtain ⟨changed, mutated, done⟩ := bind_ok done
    cases done
    exact mutate_kept tidy (fun _ _ => applyMemberships_kept) mutated

/-! ### Runs -/

/-- The file after a call; a refused call leaves it as it was. -/
def storeStep (P : Primitives) (disk : StoreState) (event : StoreCall × Bool) : StoreState :=
  match event.1.run P event.2 disk with
  | .ok (_, after) => after
  | .error _ => disk

theorem storeStep_ok {disk after : StoreState} {event : StoreCall × Bool} {answer : Option String}
    (done : event.1.run P event.2 disk = .ok (answer, after)) : storeStep P disk event = after := by
  unfold storeStep
  rw [done]

/-- The membership a redemption of an invitation by a peer returns. -/
def Redeems (P : Primitives) (disk : StoreState) (event : StoreCall × Bool)
    (inviteID consumerPeerID membership : String) : Prop :=
  ∃ issuedMembership now after,
    event.1 = .redeemInvitation inviteID consumerPeerID issuedMembership now ∧
      event.1.run P event.2 disk = .ok (some membership, after)

theorem storeStep_kept {disk : StoreState} {event : StoreCall × Bool} (sound : event.1.Sound)
    (tidy : Tidy disk.invitations) :
    Tidy (storeStep P disk event).invitations ∧
      Kept disk.invitations (storeStep P disk event).invitations := by
  unfold storeStep
  cases outcome : event.1.run P event.2 disk with
  | error error => exact ⟨tidy, Kept.refl _⟩
  | ok result => exact StoreCall.run_kept sound tidy outcome

theorem run_kept {disk : StoreState} {events : List (StoreCall × Bool)}
    (sound : ∀ event ∈ events, event.1.Sound) (tidy : Tidy disk.invitations) :
    Tidy (run (storeStep P) disk events).invitations ∧
      Kept disk.invitations (run (storeStep P) disk events).invitations := by
  induction events generalizing disk with
  | nil => exact ⟨tidy, Kept.refl _⟩
  | cons event rest ih =>
    obtain ⟨still, moved⟩ := storeStep_kept (P := P) (sound event List.mem_cons_self) tidy
    obtain ⟨last, later⟩ := ih (fun found member => sound found (List.mem_cons_of_mem _ member)) still
    exact ⟨last, moved.trans later⟩

theorem Redeems.consumed {disk : StoreState} {event : StoreCall × Bool}
    {inviteID consumerPeerID membership : String}
    (redeems : Redeems P disk event inviteID consumerPeerID membership) (sound : event.1.Sound)
    (tidy : Tidy disk.invitations) :
    Consumed (storeStep P disk event).invitations inviteID consumerPeerID membership := by
  obtain ⟨issuedMembership, now, after, call, answered⟩ := redeems
  unfold storeStep
  rw [answered]
  rw [call] at answered sound
  obtain ⟨⟨found, changed⟩, redeemed, done⟩ := bind_ok answered
  cases done
  exact (redeemInvitation_kept sound tidy redeemed).2.2

theorem Consumed.kept {before after : List Invitation} {inviteID consumerPeerID membership : String}
    (consumed : Consumed before inviteID consumerPeerID membership) (kept : Kept before after) :
    Consumed after inviteID consumerPeerID membership := by
  obtain ⟨invite, member, named, used, consumer, issued⟩ := consumed
  obtain ⟨later, inside, _, frozen⟩ := kept invite member
  have same := frozen used
  subst same
  exact ⟨later, inside, named, used, consumer, issued⟩

theorem Consumed.unique {invitations : List Invitation}
    {inviteID first second membership membership' : String} (tidy : Tidy invitations)
    (left : Consumed invitations inviteID first membership)
    (right : Consumed invitations inviteID second membership') :
    first = second ∧ membership = membership' := by
  obtain ⟨invite, member, named, _, rfl, rfl⟩ := left
  obtain ⟨other, member', named', _, rfl, rfl⟩ := right
  have same : invite = other :=
    List.inj_on_of_nodup_map tidy.ids member member' (named.trans named'.symm)
  rw [same]
  exact ⟨rfl, rfl⟩

/-- **Single redemption** over a run of calls, with every state the run passes through. -/
structure SingleRedemption (P : Primitives) (disk : StoreState) (events : List (StoreCall × Bool)) :
    Prop where
  /-- An id names one record. -/
  ids : ∀ early late, events = early ++ late →
    ((run (storeStep P) disk early).invitations.map Invitation.inviteID).Nodup
  /-- No record is both consumed and revoked. -/
  exclusive : ∀ early late, events = early ++ late →
    ∀ invite ∈ (run (storeStep P) disk early).invitations,
      ¬ (invite.consumedAt ≠ 0 ∧ invite.revokedAt ≠ 0)
  /-- A record stays, and what it says about its redemption does not change once it is said. -/
  lasting : ∀ early middle late, events = early ++ middle ++ late →
    ∀ invite ∈ (run (storeStep P) disk early).invitations,
      ∃ later ∈ (run (storeStep P) disk (early ++ middle)).invitations,
        later.inviteID = invite.inviteID ∧
        (invite.consumedAt ≠ 0 → later.consumedAt = invite.consumedAt) ∧
        (invite.consumedByPeerID ≠ "" → later.consumedByPeerID = invite.consumedByPeerID) ∧
        (invite.issuedMembership ≠ "" → later.issuedMembership = invite.issuedMembership)
  /-- All successful redemptions of one invitation are by one peer and return one membership. -/
  answers : ∀ early first middle second late,
    events = early ++ first :: middle ++ second :: late →
    ∀ inviteID consumer consumer' membership membership',
      Redeems P (run (storeStep P) disk early) first inviteID consumer membership →
      Redeems P (run (storeStep P) disk (early ++ first :: middle)) second inviteID consumer'
        membership' →
      consumer = consumer' ∧ membership = membership'

/-- **An invitation is redeemed once** in every run of sound calls on a store in order. -/
theorem invitations_redeemed_once (P : Primitives) (disk : StoreState)
    (tidy : Tidy disk.invitations) (events : List (StoreCall × Bool))
    (sound : ∀ event ∈ events, event.1.Sound) : SingleRedemption P disk events := by
  have part : ∀ early late, events = early ++ late →
      Tidy (run (storeStep P) disk early).invitations := by
    rintro early late rfl
    exact (run_kept (fun event member => sound event (List.mem_append_left _ member)) tidy).1
  refine ⟨fun early late split => (part early late split).ids, ?_, ?_, ?_⟩
  · rintro early late split invite member ⟨consumed, revoked⟩
    exact revoked (((part early late split).settled invite member).1 consumed)
  · intro early middle late split invite member
    have reached := part early (middle ++ late) (by rw [split, List.append_assoc])
    have soundMiddle : ∀ event ∈ middle, event.1.Sound := fun event listed => sound event (by
      rw [split]
      exact List.mem_append_left _ (List.mem_append_right _ listed))
    have kept := (run_kept (P := P) soundMiddle reached).2
    rw [run_append]
    obtain ⟨later, inside, named, frozen⟩ := kept invite member
    refine ⟨later, inside, named, ?_⟩
    by_cases unused : invite.consumedAt = 0
    · obtain ⟨consumer, issued⟩ := (reached.settled invite member).2 unused
      exact ⟨fun used => absurd unused used, fun some => absurd consumer some,
        fun some => absurd issued some⟩
    · rw [frozen unused]
      exact ⟨fun _ => rfl, fun _ => rfl, fun _ => rfl⟩
  · intro early first middle second late split inviteID consumer consumer' membership membership'
      redeems redeems'
    have firstSound : first.1.Sound := sound first (by simp [split])
    have secondSound : second.1.Sound := sound second (by simp [split])
    have tidyEarly := part early (first :: middle ++ second :: late) (by simp [split])
    have tidyLate := part (early ++ first :: middle) (second :: late) (by simp [split])
    have left := redeems.consumed firstSound tidyEarly
    have right := redeems'.consumed secondSound tidyLate
    obtain ⟨last, stepKept⟩ := storeStep_kept (P := P) secondSound tidyLate
    have middleKept : Kept (storeStep P (run (storeStep P) disk early) first).invitations
        (run (storeStep P) disk (early ++ first :: middle)).invitations := by
      rw [run_append, run_cons]
      exact (run_kept (fun event listed => sound event (by simp [split, listed]))
        (storeStep_kept firstSound tidyEarly).1).2
    exact Consumed.unique last ((left.kept middleKept).kept stepKept) right

end Calls

/-! ### One invitation and two guests -/

/-- The creator and two peers it could let in. -/
def guests : List GrantPayload :=
  [sampleGrant 0 0,
    { sampleGrant 1 1 with serial := "44444444-4444-4444-8444-444444444444" },
    { sampleGrant 2 1 with serial := "55555555-5555-4555-8555-555555555555" }]

def guestPrimitives : Primitives := samplePrimitives sampleGenesis.document guests [] []

def guestGrant (index : UInt8) (payload : GrantPayload) : VerifiedGrant :=
  ⟨sampleToken membershipTag index, payload.decoded, sampleKey index, sampleKey index⟩

def guestGrants : List VerifiedGrant :=
  [guestGrant 0 guests[0], guestGrant 1 guests[1], guestGrant 2 guests[2]]

theorem guest_verified {index : UInt8} {payload : GrantPayload} (sample : DatedPayload payload index 0)
    (listed : guests[index.toNat]? = some payload)
    (size : (sampleToken membershipTag index).utf8ByteSize ≤ maxTokenBytes)
    (issuedAt : payload.issuedAt = 1000) (expiresAt : payload.decoded.expiresAt = 9000)
    (depth : payload.issuerPeerID ≠ payload.subjectPeerID → payload.delegationDepth = 1) :
    verifyGrantAtIssuance guestPrimitives (sampleToken membershipTag index) sampleGenesis
      = .ok (guestGrant index payload) := by
  refine verifyGrantAtIssuance_ok_iff.mpr (dated_root_accepted sample listed size ?_ ?_ depth)
  · show payload.issuedAt ≤ unix (payload.issuedAt * second + 5 * minute)
    rw [issuedAt]
    decide
  · right
    show unix (payload.issuedAt * second) < payload.decoded.expiresAt
    rw [issuedAt, expiresAt]
    decide

theorem guests_gatherable : Gatherable guestPrimitives sampleGenesis guestGrants where
  verified := by
    have creator : DatedPayload guests[0] 0 0 :=
      ⟨⟨0, rfl⟩, by decide, by decide, by decide, rfl, by decide, by decide, by decide,
        Or.inl rfl⟩
    have first : DatedPayload guests[1] 1 0 :=
      ⟨⟨1, rfl⟩, by decide, by decide, by decide, rfl, by decide, by decide, by decide,
        Or.inl rfl⟩
    have second : DatedPayload guests[2] 2 0 :=
      ⟨⟨1, rfl⟩, by decide, by decide, by decide, rfl, by decide, by decide, by decide,
        Or.inl rfl⟩
    intro grant member
    rcases List.mem_cons.mp member with rfl | member
    · exact guest_verified creator rfl (by decide) rfl rfl fun other => absurd rfl other
    rcases List.mem_pair.mp member with rfl | rfl
    · exact guest_verified first rfl (by decide) rfl rfl fun _ => rfl
    · exact guest_verified second rfl (by decide) rfl rfl fun _ => rfl
  closed := by
    intro grant member embedded
    rcases List.mem_cons.mp member with rfl | member
    · exact absurd rfl embedded
    rcases List.mem_pair.mp member with rfl | rfl <;> exact absurd rfl embedded
  serials := by decide
  keys := by decide
  few := by decide

theorem Holds.redeems {P : Primitives} {genesis : VerifiedGenesis} {known : List VerifiedGrant}
    {state : StoreState} {invite : Invitation} (holds : Holds P genesis known state)
    (gatherable : Gatherable P genesis known) (single : state.invitations = [invite])
    (consumer issued : String) (now : ℤ) (named : invite.inviteID ≠ "") (someone : consumer ≠ "")
    (unused : invite.consumedAt = 0) (unrevoked : invite.revokedAt = 0)
    (unexpired : unix now < invite.expiresAt) (listed : issued ∈ known.map VerifiedGrant.token) :
    ∃ after, StoreCall.run P true state (.redeemInvitation invite.inviteID consumer issued now)
        = .ok (some issued, after) ∧
      Holds P genesis known after ∧ after.invitations = [invite.redeemed consumer issued now] := by
  obtain ⟨read, loaded, held, same⟩ := holds.loaded gatherable
  have redeemed : redeemEach invite.inviteID consumer issued now read.invitations
      = .ok ([invite.redeemed consumer issued now], issued, true) := by
    rw [same, single, redeemEach, if_neg (not_not.mpr rfl), if_neg (not_not.mpr unused),
      if_neg (not_not.mpr unrevoked), if_neg (not_le.mpr unexpired)]
    rfl
  have changed : Holds P genesis known { read with
      invitations := [invite.redeemed consumer issued now], updatedAt := unix now } := by
    refine ⟨held.anchored, held.owner, ?_, held.denials⟩
    intro token candidate
    rcases List.mem_append.mp candidate with directory | last
    · exact held.members token (List.mem_append_left _ directory)
    · have own : token = issued := List.mem_singleton.mp (List.mem_filter.mp last).1
      rw [own]
      exact listed
  obtain ⟨after, ordered, still, kept⟩ := changed.materialized gatherable
  have stored : write P true { read with
      invitations := [invite.redeemed consumer issued now], updatedAt := unix now } = .ok after :=
    bind_ok_iff.mpr ⟨after, ordered, rfl⟩
  refine ⟨after, bind_ok_iff.mpr ⟨(issued, after), guard_ok_iff.mpr ⟨?_, bind_ok_iff.mpr ⟨read, loaded,
    bind_ok_iff.mpr ⟨_, redeemed, bind_ok_iff.mpr ⟨after, stored, rfl⟩⟩⟩⟩, rfl⟩, still, kept⟩
  rintro (none | none | none)
  · exact named none
  · exact someone none
  · exact gatherable.token_ne_empty listed none

def guestStore : StoreState where
  genesisToken := sampleToken genesisTag 0
  localMembership := sampleToken membershipTag 0
  memberships := []
  invitations := [{ inviteID := "invite", batchID := "batch", token := "ticket", expiresAt := 9000 }]
  revocations := []
  revokedMembers := ∅
  revokedGrantSerials := ∅
  updatedAt := 0

def guestRedeems (guest : UInt8) (now : ℤ) : StoreCall × Bool :=
  (.redeemInvitation "invite" (samplePeerID guest) (sampleToken membershipTag guest) now, true)

theorem guestStore_tidy : Tidy guestStore.invitations :=
  ⟨by decide, by decide⟩

theorem invitations_redeemed_once_guests : SingleRedemption guestPrimitives guestStore
    [guestRedeems 1 (2000 * second), guestRedeems 1 (3000 * second), guestRedeems 2 (3000 * second)] :=
  invitations_redeemed_once guestPrimitives guestStore guestStore_tidy _ (by
    intro event member
    rcases List.mem_cons.mp member with rfl | member
    · exact (by decide : unix (2000 * second) ≠ 0)
    rcases List.mem_pair.mp member with rfl | rfl <;>
      exact (by decide : unix (3000 * second) ≠ 0))

/-- **In second zero two peers redeem one invitation**, each for a membership of its own. -/
theorem redeemed_twice_in_second_zero : Tidy guestStore.invitations ∧
    ¬ SingleRedemption guestPrimitives guestStore [guestRedeems 1 0, guestRedeems 2 0] := by
  refine ⟨guestStore_tidy, fun single => ?_⟩
  have store : Holds guestPrimitives sampleGenesis guestGrants guestStore := by
    refine ⟨sample_genesis, List.mem_cons_self, fun token candidate => ?_, rfl⟩
    rw [List.mem_singleton.mp candidate]
    exact List.mem_cons_self
  have named : ("invite" : String) ≠ "" := by decide
  obtain ⟨middle, first, held, left⟩ := store.redeems guests_gatherable rfl (samplePeerID 1)
    (sampleToken membershipTag 1) 0 named (by decide) rfl rfl (by decide)
    (List.mem_cons_of_mem _ List.mem_cons_self)
  obtain ⟨after, second, _⟩ := held.redeems guests_gatherable left (samplePeerID 2)
    (sampleToken membershipTag 2) 0 named (by decide) rfl rfl (by decide)
    (List.mem_cons_of_mem _ (List.mem_cons_of_mem _ List.mem_cons_self))
  have redeems : Redeems guestPrimitives (run (storeStep guestPrimitives) guestStore [])
      (guestRedeems 1 0) "invite" (samplePeerID 1) (sampleToken membershipTag 1) :=
    ⟨_, _, middle, rfl, first⟩
  have stepped : run (storeStep guestPrimitives) guestStore ([] ++ guestRedeems 1 0 :: [])
      = middle := by
    rw [List.nil_append, run_cons, run_nil]
    exact storeStep_ok first
  have redeems' : Redeems guestPrimitives
      (run (storeStep guestPrimitives) guestStore ([] ++ guestRedeems 1 0 :: []))
      (guestRedeems 2 0) "invite" (samplePeerID 2) (sampleToken membershipTag 2) := by
    rw [stepped]
    exact ⟨_, _, after, rfl, second⟩
  have apart : samplePeerID 1 ≠ samplePeerID 2 := by decide
  exact apart (single.answers [] _ [] _ [] rfl _ _ _ _ _ redeems redeems').1

end Atterm.Peer
