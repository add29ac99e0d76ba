/-
**Who a client believes to be there.**

A client learns at its registration who is ready, and is told of everybody who is activated or leaves
afterwards. The two ends of a presence are told by different goroutines, outside the lock, so that they
may overtake each other, and nobody is told of a client that leaves between the registration and the
activation of another.

* `PeerClient.view` — the snapshot of the registration, folded with the presence events;
* `Broker.Truthful` — a snapshot is still true at the activation, and an event when it is queued, or the
  event that corrects it is on its way;
* `views_converge` — and right when everything has been delivered.
-/

import Atterm.Foundation.Openings
import Atterm.Rendezvous.Custody

namespace Atterm.Rendezvous

open Atterm.Foundation

def EventMessage.touch : EventMessage → Touch String
  | .online presence => .opens presence.presenceID
  | .offline presence => .closes presence.presenceID
  | .signal s => .uses s.sender
  | .ack messageID _ => .uses messageID
  | .error _ messageID => .uses messageID

def EventMessage.presence (online : Bool) (presence : Presence) : EventMessage :=
  if online then .online presence else .offline presence

namespace PeerClient

variable (client : PeerClient)

def snapshot : Finset String := (client.existing.map (·.presenceID)).toFinset

/-- The snapshot, folded with the presence events that were queued. -/
def view : Finset String := replay EventMessage.touch client.snapshot client.queued

/-- The snapshot, folded with the presence events that were written. -/
def seen : Finset String := replay EventMessage.touch client.snapshot client.written

/-- The goroutine is still to tell a client that its own has come, or has left. -/
def Tells (online : Bool) (r : ℕ) : Prop :=
  client.phase = (if online then .announcing else .departing) ∧ r ∈ client.recipients

/-- An activation is still to come. -/
def Early : Prop :=
  client.phase = .absent ∨ client.phase = .registering ∨ client.phase = .activating

/-- A registered client is activated, and stays until it leaves. -/
def Staying : Prop :=
  client.phase ≠ .absent ∧ client.phase ≠ .registering ∧ client.phase ≠ .departing ∧
    client.phase ≠ .gone

variable {client}

theorem view_send (event : EventMessage) : { client with send := client.send ++ [event] }.view =
    replayOne client.view event.touch := by
  rw [view, queued_send, replay, List.foldl_append]
  rfl

theorem mem_replayOne_presence (online : Bool) (presence : Presence) (view : Finset String) (p : String) :
    p ∈ replayOne view (EventMessage.presence online presence).touch ↔
      if p = presence.presenceID then online = true else p ∈ view := by
  cases online with
  | true =>
    show p ∈ insert presence.presenceID view ↔ _
    rw [Finset.mem_insert]
    split_ifs with same <;> simp [same]
  | false =>
    show p ∈ view.erase presence.presenceID ↔ _
    rw [Finset.mem_erase]
    split_ifs with same <;> simp [same]

end PeerClient

namespace Broker

variable {cfg : Config} {w : Broker}

/-- The other clients of the topic that are ready. -/
def others (w : Broker) (c : ℕ) : Finset String :=
  ((w.readyOthers c).map fun other => (w.clients other).presenceID).toFinset

theorem mem_readyOthers {c d : ℕ} : d ∈ w.readyOthers c ↔ d ∈ w.registered ∧
    (w.clients d).topic = (w.clients c).topic ∧ d ≠ c ∧ (w.clients d).ready = true := by
  rw [readyOthers, peers, List.mem_filter, List.mem_filter, beq_iff_eq, Bool.and_eq_true, bne_iff_ne,
    and_assoc]

theorem mem_others {c : ℕ} {p : String} : p ∈ w.others c ↔ ∃ d ∈ w.registered,
    (w.clients d).topic = (w.clients c).topic ∧ d ≠ c ∧ (w.clients d).ready = true ∧
      (w.clients d).presenceID = p := by
  rw [others, List.mem_toFinset, List.mem_map]
  simp only [mem_readyOthers, and_assoc]

/-- An event of a presence is on its way to a client. -/
def Coming (w : Broker) (c : ℕ) (p : String) (online : Bool) : Prop :=
  (online = true ∧ ∃ presence : Presence, .online presence ∈ (w.clients c).pending ∧
    presence.presenceID = p) ∨ ∃ d, (w.clients d).Tells online c ∧ (w.clients d).presenceID = p

/-- The client is told the truth, or the event that says otherwise is on its way to it. -/
def Says (w : Broker) (c : ℕ) (p : String) (online : Bool) : Prop :=
  (p ∈ w.others c ↔ online = true) ∨ w.Coming c p !online

def Watching (w : Broker) (c : ℕ) : Prop :=
  c ∈ w.registered ∧ (w.clients c).ready = true ∧ (w.clients c).cancelled = false

/-- The next client that is told has room in its send queue. -/
def Roomy (w : Broker) : RendezvousStep → Prop
  | .announce c _ => (w.clients c).phase = .announcing → ∀ r ∈ (w.clients c).recipients.head?,
      (w.clients r).cancelled = false → (w.clients r).send.length < clientSendQueueSize
  | .depart c _ => (w.clients c).phase = .departing → ∀ r ∈ (w.clients c).recipients.head?,
      (w.clients r).cancelled = false → (w.clients r).send.length < clientSendQueueSize
  | _ => True

/-- **A snapshot is still true when its client is activated, and an event when it is queued**, or the
event that corrects it is on its way. -/
def Truthful (w : Broker) : RendezvousStep → Prop
  | .activate c _ => (w.clients c).phase = .activating →
      ∀ presence ∈ (w.clients c).existing, presence.presenceID ∈ w.others c
  | .announce c _ => (w.clients c).phase = .announcing → ∀ r ∈ (w.clients c).recipients.head?,
      w.Watching r → w.Says r (w.clients c).presenceID true
  | .depart c _ => (w.clients c).phase = .departing → ∀ r ∈ (w.clients c).recipients.head?,
      w.Watching r → w.Says r (w.clients c).presenceID false
  | .flush c _ => (w.clients c).phase = .flushing → w.Watching c →
      ∀ event ∈ (w.clients c).pending.head?, ∀ online presence, event = .presence online presence →
        w.Says c presence.presenceID online
  | _ => True

/-- The view of a client is right about a presence, or an event that will correct it is on its way. -/
def Tracks (w : Broker) (c : ℕ) (p : String) : Prop :=
  ∀ online, (p ∈ w.others c ↔ online = true) →
    (p ∈ (w.clients c).view ↔ online = true) ∨ w.Coming c p online

/-- **Views are right, but for what is on its way.** -/
structure Viewing (w : Broker) : Prop where
  nodup : w.registered.Nodup
  unique : ∀ c ∈ w.registered, ∀ d ∈ w.registered, (w.clients c).topic = (w.clients d).topic →
    (w.clients c).presenceID = (w.clients d).presenceID → c = d
  staying : ∀ c ∈ w.registered, (w.clients c).Staying
  early : ∀ c, (w.clients c).Early → (w.clients c).ready = false ∧ (w.clients c).queued = []
  told : ∀ d, ∀ r ∈ (w.clients d).recipients, (w.clients r).ready = true
  tracks : ∀ c, w.Watching c → ∀ p, w.Tracks c p

/-- What a client becomes while it is registered and ready as before. -/
structure Lasting (w : Broker) (c : ℕ) (new : PeerClient) : Prop where
  same : c ∈ w.registered → new.topic = (w.clients c).topic ∧
    new.presenceID = (w.clients c).presenceID
  ready : new.ready = (w.clients c).ready
  staying : c ∈ w.registered → new.Staying
  early : new.Early → new.ready = false ∧ new.queued = []
  told : new.recipients ⊆ (w.clients c).recipients

/-- What a client becomes that changes no view. -/
structure Still (w : Broker) (c : ℕ) (new : PeerClient) : Prop extends w.Lasting c new where
  tells : ∀ online r, (w.clients c).Tells online r → new.Tells online r ∧
    new.presenceID = (w.clients c).presenceID
  view : c ∈ w.registered → new.cancelled = false → (w.clients c).cancelled = false ∧
    new.view = (w.clients c).view ∧ (w.clients c).pending ⊆ new.pending

namespace Viewing

theorem start : Broker.start.Viewing where
  nodup := List.nodup_nil
  unique := List.forall_mem_nil _
  staying := List.forall_mem_nil _
  early _ _ := ⟨rfl, rfl⟩
  told _ := List.forall_mem_nil _
  tracks _ watching := absurd watching.1 List.not_mem_nil

theorem lasting (viewing : w.Viewing) (c : ℕ) : w.Lasting c (w.clients c) where
  same _ := ⟨rfl, rfl⟩
  ready := rfl
  staying := viewing.staying c
  early := viewing.early c
  told := List.Subset.refl _

theorem still (viewing : w.Viewing) (c : ℕ) : w.Still c (w.clients c) where
  toLasting := viewing.lasting c
  tells _ _ tells := ⟨tells, rfl⟩
  view _ uncancelled := ⟨uncancelled, rfl, List.Subset.refl _⟩

end Viewing

theorem others_eq {w' : Broker} (registered : w'.registered = w.registered)
    (lasting : ∀ c, w.Lasting c (w'.clients c)) {c : ℕ} (listed : c ∈ w.registered) :
    w'.others c = w.others c := by
  ext p
  rw [mem_others, mem_others, registered]
  refine exists_congr fun d => and_congr_right fun member => ?_
  rw [((lasting d).same member).1, ((lasting c).same listed).1, (lasting d).ready,
    ((lasting d).same member).2]

namespace Viewing

theorem last {w' : Broker} (viewing : w.Viewing) (registered : w'.registered = w.registered)
    (lasting : ∀ c, w.Lasting c (w'.clients c)) (tracks : ∀ c, w'.Watching c → ∀ p, w'.Tracks c p) :
    w'.Viewing := by
  refine ⟨registered ▸ viewing.nodup, fun c listed d member topic presenceID => ?_, fun c listed => ?_,
    fun c => (lasting c).early, fun d r told => ?_, tracks⟩
  · rw [registered] at listed member
    rw [((lasting c).same listed).1, ((lasting d).same member).1] at topic
    rw [((lasting c).same listed).2, ((lasting d).same member).2] at presenceID
    exact viewing.unique c listed d member topic presenceID
  · exact (lasting c).staying (registered ▸ listed)
  · exact (lasting r).ready.trans (viewing.told d r ((lasting d).told told))

/-- **Clients that change no view.** -/
theorem frame {w' : Broker} (viewing : w.Viewing) (registered : w'.registered = w.registered)
    (still : ∀ c, w.Still c (w'.clients c)) : w'.Viewing := by
  refine viewing.last registered (fun c => (still c).toLasting) fun c watching p online truth => ?_
  obtain ⟨listed, ready, uncancelled⟩ := watching
  rw [registered] at listed
  obtain ⟨before, view, pending⟩ := (still c).view listed uncancelled
  rw [others_eq registered (fun c => (still c).toLasting) listed] at truth
  rcases viewing.tracks c ⟨listed, (still c).ready ▸ ready, before⟩ p online truth with right | coming
  · exact .inl (view ▸ right)
  · rcases coming with ⟨came, presence, held, same⟩ | ⟨d, tells, same⟩
    · exact .inr (.inl ⟨came, presence, pending held, same⟩)
    · obtain ⟨tells, presenceID⟩ := (still d).tells online c tells
      exact .inr (.inr ⟨d, tells, presenceID.trans same⟩)

theorem modify (viewing : w.Viewing) {c : ℕ} {change : PeerClient → PeerClient}
    (still : w.Still c (change (w.clients c))) : (w.modify c change).Viewing := by
  refine viewing.frame rfl fun d => ?_
  by_cases same : d = c
  · subst same
    rwa [modify_self]
  · rw [modify_of_ne same]
    exact viewing.still d

theorem congr {w' : Broker} (viewing : w.Viewing) (clients : w'.clients = w.clients)
    (registered : w'.registered = w.registered) : w'.Viewing :=
  viewing.frame registered fun c => clients ▸ viewing.still c

theorem peer_eq (viewing : w.Viewing) {c : ℕ} (listed : c ∈ w.registered) :
    w.peer (w.clients c).topic (w.clients c).presenceID = some c := by
  cases found : w.peer (w.clients c).topic (w.clients c).presenceID with
  | none =>
    refine absurd ?_ (List.find?_eq_none.mp found c listed)
    rw [Bool.and_eq_true, beq_iff_eq, beq_iff_eq]
    exact ⟨rfl, rfl⟩
  | some d =>
    obtain ⟨member, topic, presenceID⟩ := peer_eq_some found
    rw [viewing.unique d member c listed topic presenceID]

theorem hangUp (viewing : w.Viewing) {c : ℕ} (serving : (w.clients c).phase = .serving) :
    (w.modify c fun client => { client with cancelled := true, phase := .leaving }).Viewing := by
  refine viewing.modify ⟨⟨fun _ => ⟨rfl, rfl⟩, rfl, fun _ => ⟨nofun, nofun, nofun, nofun⟩, fun early => ?_,
    List.Subset.refl _⟩, fun online r tells => ?_, fun _ uncancelled => Bool.noConfusion uncancelled⟩
  · exact absurd early (by simp [PeerClient.Early])
  · have phase := tells.1
    rw [serving] at phase
    cases online <;> exact absurd phase (by decide)

theorem late (viewing : w.Viewing) {c : ℕ} (ready : (w.clients c).ready = true) :
    ¬(w.clients c).Early := fun early =>
  absurd (ready.symm.trans (viewing.early c early).1) Bool.noConfusion

/-- **A client gets an event.** -/
theorem hear (viewing : w.Viewing) {r : ℕ} (late : ¬(w.clients r).Early) (event : EventMessage)
    (spoken : w.Watching r → ∀ online presence, event = .presence online presence →
      w.Says r presence.presenceID online) :
    (w.modify r fun client => { client with send := client.send ++ [event] }).Viewing := by
  set w' := w.modify r fun client => { client with send := client.send ++ [event] } with w'_eq
  have self : w'.clients r = { w.clients r with send := (w.clients r).send ++ [event] } :=
    modify_self ..
  have lasting : ∀ c, w.Lasting c (w'.clients c) := fun c => by
    by_cases same : c = r
    · subst same
      rw [self]
      refine ⟨fun _ => ⟨rfl, rfl⟩, rfl, viewing.staying c, fun early => absurd early late,
        List.Subset.refl _⟩
    · rw [modify_of_ne same]
      exact viewing.lasting c
  have coming : ∀ c p online, w.Coming c p online → w'.Coming c p online := by
    rintro c p online (⟨came, presence, held, same⟩ | ⟨d, tells, same⟩)
    · refine .inl ⟨came, presence, ?_, same⟩
      by_cases same : c = r
      · subst same
        rwa [self]
      · rwa [modify_of_ne same]
    · refine .inr ⟨d, ?_⟩
      by_cases same_d : d = r
      · subst same_d
        rw [self]
        exact ⟨tells, same⟩
      · rw [modify_of_ne same_d]
        exact ⟨tells, same⟩
  refine viewing.last rfl lasting fun c watching p online truth => ?_
  rw [@others_eq w w' rfl lasting _ watching.1] at truth
  by_cases same : c = r
  · subst same
    rw [Watching, self] at watching
    have before := (viewing.tracks c watching p online truth).imp_right (coming c p online)
    rw [self, PeerClient.view_send]
    have presence_case : ∀ told presence, event = .presence told presence →
        (p ∈ replayOne (w.clients c).view event.touch ↔ online = true) ∨ w'.Coming c p online := by
      rintro told presence rfl
      rw [PeerClient.mem_replayOne_presence]
      by_cases own : p = presence.presenceID
      · subst own
        rw [if_pos rfl]
        by_cases right : told = online
        · exact .inl (right ▸ Iff.rfl)
        · have other : online = !told := by cases told <;> cases online <;> simp_all
          rcases spoken watching told presence rfl with true_now | corrected
          · have equal := true_now.symm.trans truth
            exact absurd (Bool.eq_iff_iff.mpr equal) right
          · exact .inr (coming c _ _ (other ▸ corrected))
      · rw [if_neg own]
        exact before
    cases event with
    | online presence => exact presence_case true presence rfl
    | offline presence => exact presence_case false presence rfl
    | signal s => exact before
    | ack messageID state => exact before
    | error code messageID => exact before
  · rw [Watching, modify_of_ne same] at watching
    rw [modify_of_ne same]
    exact (viewing.tracks c watching p online truth).imp_right (coming c p online)

/-- **A client has been told.** -/
theorem toldOne (viewing : w.Viewing) {c r : ℕ} {rest : List ℕ}
    (recipients : (w.clients c).recipients = r :: rest) (online : Bool)
    (stage : (w.clients c).phase = if online then .announcing else .departing)
    (heard : w.Watching r → ((w.clients c).presenceID ∈ (w.clients r).view ↔ online = true)) :
    (w.modify c fun client => { client with recipients := rest }).Viewing := by
  set w' := w.modify c fun client => { client with recipients := rest } with w'_eq
  have self : w'.clients c = { w.clients c with recipients := rest } := modify_self ..
  have lasting : ∀ d, w.Lasting d (w'.clients d) := fun d => by
    by_cases same : d = c
    · subst same
      rw [self]
      refine ⟨fun _ => ⟨rfl, rfl⟩, rfl, viewing.staying d, viewing.early d, fun s listed => ?_⟩
      rw [recipients]
      exact List.mem_cons_of_mem r listed
    · rw [modify_of_ne same]
      exact viewing.lasting d
  have view : ∀ d, (w'.clients d).view = (w.clients d).view ∧
      (w'.clients d).pending = (w.clients d).pending := fun d => by
    by_cases same : d = c
    · subst same
      rw [self]
      exact ⟨rfl, rfl⟩
    · rw [modify_of_ne same]
      exact ⟨rfl, rfl⟩
  refine viewing.last rfl lasting fun d watching p truth_online truth => ?_
  rw [@others_eq w w' rfl lasting _ watching.1] at truth
  have before : w.Watching d := by
    refine ⟨watching.1, (lasting d).ready ▸ watching.2.1, ?_⟩
    have uncancelled := watching.2.2
    by_cases same : d = c
    · subst same
      rwa [self] at uncancelled
    · rwa [modify_of_ne same] at uncancelled
  rw [(view d).1]
  rcases viewing.tracks d before p truth_online truth with right | coming
  · exact .inl right
  · rcases coming with ⟨came, presence, held, same⟩ | ⟨e, tells, same⟩
    · exact .inr (.inl ⟨came, presence, (view d).2 ▸ held, same⟩)
    · by_cases teller : e = c
      · subst teller
        have told := tells.2
        rw [recipients, List.mem_cons] at told
        rcases told with rfl | later
        · have equal : truth_online = online := by
            have phases := stage.symm.trans tells.1
            cases truth_online <;> cases online <;> simp_all
          subst equal same
          exact .inl (heard before)
        · refine .inr (.inr ⟨e, ?_⟩)
          rw [self]
          exact ⟨⟨tells.1, later⟩, same⟩
      · refine .inr (.inr ⟨e, ?_⟩)
        rw [modify_of_ne teller]
        exact ⟨tells, same⟩

/-- **A missed event has been queued.** -/
theorem flushedOne (viewing : w.Viewing) {c : ℕ} (event : EventMessage) {rest : List EventMessage}
    (pending : (w.clients c).pending = event :: rest)
    (heard : w.Watching c → ∀ presence, event = .online presence →
      presence.presenceID ∈ (w.clients c).view) :
    (w.modify c fun client => { client with pending := rest }).Viewing := by
  set w' := w.modify c fun client => { client with pending := rest } with w'_eq
  have self : w'.clients c = { w.clients c with pending := rest } := modify_self ..
  have lasting : ∀ d, w.Lasting d (w'.clients d) := fun d => by
    by_cases same : d = c
    · subst same
      rw [self]
      exact ⟨fun _ => ⟨rfl, rfl⟩, rfl, viewing.staying d, viewing.early d, List.Subset.refl _⟩
    · rw [modify_of_ne same]
      exact viewing.lasting d
  refine viewing.last rfl lasting fun d watching p online truth => ?_
  rw [@others_eq w w' rfl lasting _ watching.1] at truth
  have tells : (∃ e, (w.clients e).Tells online d ∧ (w.clients e).presenceID = p) →
      w'.Coming d p online := by
    rintro ⟨e, tells⟩
    refine .inr ⟨e, ?_⟩
    by_cases same : e = c
    · subst same
      rw [self]
      exact tells
    · rw [modify_of_ne same]
      exact tells
  by_cases same : d = c
  · subst same
    rw [Watching, self] at watching
    rw [self]
    rcases viewing.tracks d watching p online truth with right | ⟨came, presence, held, same⟩ | told
    · exact .inl right
    · rw [pending, List.mem_cons] at held
      rcases held with now | later
      · subst came same
        exact .inl (iff_of_true (heard watching presence now.symm) rfl)
      · refine .inr (.inl ⟨came, presence, ?_, same⟩)
        rw [self]
        exact later
    · exact .inr (tells told)
  · rw [Watching, modify_of_ne same] at watching
    rw [modify_of_ne same]
    rcases viewing.tracks d watching p online truth with right | coming | told
    · exact .inl right
    · refine .inr (.inl ?_)
      rwa [modify_of_ne same]
    · exact .inr (tells told)

/-- **A client enters a topic.** -/
theorem enter (viewing : w.Viewing) {c : ℕ} (registering : (w.clients c).phase = .registering)
    (free : w.peer (w.clients c).topic (w.clients c).presenceID = none) (existing : List Presence) :
    ({ w with registered := w.registered ++ [c] }.modify c fun client =>
      { client with existing := existing, phase := .activating }).Viewing := by
  set w' : Broker := { w with registered := w.registered ++ [c] }.modify c fun client =>
    { client with existing := existing, phase := .activating } with w'_eq
  have self : w'.clients c = { w.clients c with existing := existing, phase := .activating } :=
    modify_self ..
  have apart : ∀ d, d ≠ c → w'.clients d = w.clients d := fun d other => modify_of_ne other _
  have early := viewing.early c (.inr (.inl registering))
  have absent : c ∉ w.registered := fun listed => (viewing.staying c listed).2.1 registering
  have members : ∀ d, d ∈ w'.registered → d ∈ w.registered ∨ d = c := fun d listed =>
    (List.mem_append.mp listed).imp_right List.mem_singleton.mp
  have ident : ∀ d, (w'.clients d).topic = (w.clients d).topic ∧
      (w'.clients d).presenceID = (w.clients d).presenceID ∧
        (w'.clients d).ready = (w.clients d).ready := fun d => by
    by_cases same : d = c
    · subst same
      rw [self]
      exact ⟨rfl, rfl, rfl⟩
    · rw [apart d same]
      exact ⟨rfl, rfl, rfl⟩
  have alone : ∀ d ∈ w.registered, (w.clients d).topic = (w.clients c).topic →
      (w.clients d).presenceID ≠ (w.clients c).presenceID := fun d listed topic presenceID => by
    refine List.find?_eq_none.mp free d listed ?_
    rw [Bool.and_eq_true, beq_iff_eq, beq_iff_eq]
    exact ⟨topic, presenceID⟩
  have others : ∀ d p, p ∈ w'.others d ↔ p ∈ w.others d := fun d p => by
    rw [mem_others, mem_others]
    constructor
    · rintro ⟨e, listed, topic, other, ready, same⟩
      rw [(ident e).1, (ident d).1] at topic
      rw [(ident e).2.2] at ready
      rw [(ident e).2.1] at same
      rcases members e listed with listed | rfl
      · exact ⟨e, listed, topic, other, ready, same⟩
      · exact absurd (early.1.symm.trans ready) Bool.noConfusion
    · rintro ⟨e, listed, topic, other, ready, same⟩
      refine ⟨e, List.mem_append_left _ listed, ?_, other, (ident e).2.2.trans ready,
        (ident e).2.1.trans same⟩
      rw [(ident e).1, (ident d).1, topic]
  refine ⟨?_, fun d one e two topic presenceID => ?_, fun d listed => ?_, fun d early_d => ?_,
    fun d r told => ?_, fun d watching p online truth => ?_⟩
  · exact viewing.nodup.append (List.nodup_singleton c) (List.disjoint_singleton.mpr absent)
  · rw [(ident d).1, (ident e).1] at topic
    rw [(ident d).2.1, (ident e).2.1] at presenceID
    rcases members d one with old | rfl <;> rcases members e two with older | rfl
    · exact viewing.unique d old e older topic presenceID
    · exact absurd presenceID (alone d old topic)
    · exact absurd presenceID.symm (alone e older topic.symm)
    · rfl
  · by_cases same : d = c
    · rw [same, self]
      exact ⟨nofun, nofun, nofun, nofun⟩
    · rw [apart d same]
      exact viewing.staying d ((members d listed).resolve_right same)
  · by_cases same : d = c
    · rw [same, self]
      exact early
    · rw [apart d same] at early_d ⊢
      exact viewing.early d early_d
  · rw [(ident r).2.2]
    by_cases same : d = c
    · subst same
      rw [self] at told
      exact viewing.told d r told
    · rw [apart d same] at told
      exact viewing.told d r told
  · have other : d ≠ c := by
      rintro rfl
      have ready := watching.2.1
      rw [(ident d).2.2, early.1] at ready
      exact Bool.noConfusion ready
    rw [others] at truth
    have before : w.Watching d := ⟨(members d watching.1).resolve_right other,
      (ident d).2.2 ▸ watching.2.1, apart d other ▸ watching.2.2⟩
    rw [apart d other]
    rcases viewing.tracks d before p online truth with right | coming | ⟨e, tells, same⟩
    · exact .inl right
    · refine .inr (.inl ?_)
      rwa [apart d other]
    · have elsewhere : e ≠ c := by
        rintro rfl
        have phase := tells.1
        rw [registering] at phase
        cases online <;> exact absurd phase (by decide)
      refine .inr (.inr ⟨e, ?_⟩)
      rw [apart e elsewhere]
      exact ⟨tells, same⟩

/-- **A client is activated**, whose snapshot is still true. -/
theorem handOver (viewing : w.Viewing) {c : ℕ} (activating : (w.clients c).phase = .activating)
    (found : w.peer (w.clients c).topic (w.clients c).presenceID = some c) {order : List ℕ}
    (perm : order.Perm (w.readyOthers c))
    (truthful : ∀ presence ∈ (w.clients c).existing, presence.presenceID ∈ w.others c) :
    ((w.takeMailboxLocked (w.clients c).topic (w.clients c).presenceID).modify c fun client =>
      { client with
        ready := true, recipients := order, pending := w.missed c order,
        phase := .announcing }).Viewing := by
  set w' := (w.takeMailboxLocked (w.clients c).topic (w.clients c).presenceID).modify c fun client =>
    { client with
      ready := true, recipients := order, pending := w.missed c order, phase := .announcing } with w'_eq
  have self : w'.clients c = { w.clients c with
      ready := true, recipients := order, pending := w.missed c order, phase := .announcing } :=
    modify_self ..
  have apart : ∀ d, d ≠ c → w'.clients d = w.clients d := fun d other => modify_of_ne other _
  have listed_c := (peer_eq_some found).1
  have early := viewing.early c (.inr (.inr activating))
  have ident : ∀ d, (w'.clients d).topic = (w.clients d).topic ∧
      (w'.clients d).presenceID = (w.clients d).presenceID ∧
        ((w.clients d).ready = true → (w'.clients d).ready = true) := fun d => by
    by_cases same : d = c
    · subst same
      rw [self]
      exact ⟨rfl, rfl, fun _ => rfl⟩
    · rw [apart d same]
      exact ⟨rfl, rfl, id⟩
  have others : ∀ d p, p ∈ w'.others d ↔ p ∈ w.others d ∨
      (d ≠ c ∧ (w.clients c).topic = (w.clients d).topic ∧ (w.clients c).presenceID = p) := fun d p => by
    rw [mem_others, mem_others]
    constructor
    · rintro ⟨e, listed, topic, other, ready, same⟩
      rw [(ident e).1, (ident d).1] at topic
      rw [(ident e).2.1] at same
      by_cases new : e = c
      · subst new
        exact .inr ⟨other.symm, topic, same⟩
      · rw [apart e new] at ready
        exact .inl ⟨e, listed, topic, other, ready, same⟩
    · rintro (⟨e, listed, topic, other, ready, same⟩ | ⟨other, topic, same⟩)
      · refine ⟨e, listed, ?_, other, (ident e).2.2 ready, (ident e).2.1.trans same⟩
        rw [(ident e).1, (ident d).1, topic]
      · refine ⟨c, listed_c, ?_, other.symm, ?_, (ident c).2.1.trans same⟩
        · rw [(ident c).1, (ident d).1, topic]
        · rw [self]
  refine ⟨viewing.nodup, fun d one e two topic presenceID => ?_, fun d listed => ?_, fun d early_d => ?_,
    fun d r told => ?_, fun d watching p online truth => ?_⟩
  · rw [(ident d).1, (ident e).1] at topic
    rw [(ident d).2.1, (ident e).2.1] at presenceID
    exact viewing.unique d one e two topic presenceID
  · by_cases same : d = c
    · rw [same, self]
      exact ⟨nofun, nofun, nofun, nofun⟩
    · rw [apart d same]
      exact viewing.staying d listed
  · by_cases same : d = c
    · rw [same, self] at early_d
      exact absurd early_d (by simp [PeerClient.Early])
    · rw [apart d same] at early_d ⊢
      exact viewing.early d early_d
  · refine (ident r).2.2 ?_
    by_cases same : d = c
    · subst same
      rw [self] at told
      exact (mem_readyOthers.mp (perm.subset told)).2.2.2
    · rw [apart d same] at told
      exact viewing.told d r told
  · by_cases same : d = c
    · subst same
      have view : (w'.clients d).view = (w.clients d).snapshot := by
        rw [self, PeerClient.view]
        show replay EventMessage.touch (w.clients d).snapshot (w.clients d).queued = _
        rw [early.2]
        rfl
      have right : p ∈ w'.others d ↔ p ∈ w.others d := by
        rw [others]
        exact or_iff_left fun new => new.1 rfl
      rw [right] at truth
      rw [view]
      by_cases known : p ∈ (w.clients d).snapshot
      · obtain ⟨presence, existing, rfl⟩ := List.mem_map.mp (List.mem_toFinset.mp known)
        exact .inl ((iff_of_true known (truthful presence existing)).trans truth)
      · by_cases there : p ∈ w.others d
        · refine .inr (.inl ⟨truth.mp there, ?_⟩)
          obtain ⟨e, listed, topic, other, ready, same⟩ := mem_others.mp there
          refine ⟨(w.clients e).presence, ?_, same⟩
          rw [self]
          refine List.mem_append_left _ (List.mem_map_of_mem (List.mem_filter.mpr ⟨?_, ?_⟩))
          · exact perm.symm.subset (mem_readyOthers.mpr ⟨listed, topic, other, ready⟩)
          · rw [Bool.not_eq_true', List.any_eq_false]
            intro presence existing equal
            refine known (List.mem_toFinset.mpr (List.mem_map.mpr ⟨presence, existing, ?_⟩))
            exact (beq_iff_eq.mp equal).trans same
        · exact .inl ((iff_of_false known there).trans truth)
    · have before : w.Watching d := by
        rw [Watching, apart d same] at watching
        exact watching
      rw [apart d same]
      by_cases new : (w.clients c).topic = (w.clients d).topic ∧ (w.clients c).presenceID = p
      · have came := truth.mp ((others d p).mpr (.inr ⟨same, new⟩))
        subst came
        refine .inr (.inr ⟨c, ⟨?_, ?_⟩, (ident c).2.1.trans new.2⟩)
        · rw [self]
          rfl
        · rw [self]
          exact perm.symm.subset (mem_readyOthers.mpr
            ⟨before.1, new.1.symm, same, before.2.1⟩)
      · have right : p ∈ w'.others d ↔ p ∈ w.others d := by
          rw [others]
          exact or_iff_left fun came => new came.2
        rw [right] at truth
        rcases viewing.tracks d before p online truth with right | coming | ⟨e, tells, same_p⟩
        · exact .inl right
        · refine .inr (.inl ?_)
          rwa [apart d same]
        · have elsewhere : e ≠ c := by
            rintro rfl
            have phase := tells.1
            rw [activating] at phase
            cases online <;> exact absurd phase (by decide)
          refine .inr (.inr ⟨e, ?_⟩)
          rw [apart e elsewhere]
          exact ⟨tells, same_p⟩

/-- **A client leaves its topic.** -/
theorem leave (viewing : w.Viewing) {c : ℕ} (leaving : (w.clients c).phase = .leaving)
    (found : w.peer (w.clients c).topic (w.clients c).presenceID = some c) {recipients : List ℕ}
    (perm : (w.clients c).ready = true → recipients.Perm (w.readyOthers c))
    (nobody : (w.clients c).ready = false → recipients = []) :
    ({ w with registered := w.registered.erase c }.modify c fun client =>
      { client with recipients := recipients, phase := .departing }).Viewing := by
  set w' : Broker := { w with registered := w.registered.erase c }.modify c fun client =>
    { client with recipients := recipients, phase := .departing } with w'_eq
  have self : w'.clients c = { w.clients c with recipients := recipients, phase := .departing } :=
    modify_self ..
  have apart : ∀ d, d ≠ c → w'.clients d = w.clients d := fun d other => modify_of_ne other _
  have listed_c := (peer_eq_some found).1
  have members : ∀ d, d ∈ w'.registered ↔ d ≠ c ∧ d ∈ w.registered := fun d =>
    viewing.nodup.mem_erase_iff
  have ident : ∀ d, (w'.clients d).topic = (w.clients d).topic ∧
      (w'.clients d).presenceID = (w.clients d).presenceID ∧
        (w'.clients d).ready = (w.clients d).ready := fun d => by
    by_cases same : d = c
    · subst same
      rw [self]
      exact ⟨rfl, rfl, rfl⟩
    · rw [apart d same]
      exact ⟨rfl, rfl, rfl⟩
  have others : ∀ d p, p ∈ w'.others d ↔ ∃ e ∈ w.registered, e ≠ c ∧
      (w.clients e).topic = (w.clients d).topic ∧ e ≠ d ∧ (w.clients e).ready = true ∧
        (w.clients e).presenceID = p := fun d p => by
    rw [mem_others]
    refine exists_congr fun e => ?_
    rw [members, (ident e).1, (ident d).1, (ident e).2.1, (ident e).2.2]
    tauto
  refine ⟨viewing.nodup.erase c, fun d one e two topic presenceID => ?_, fun d listed => ?_,
    fun d early_d => ?_, fun d r told => ?_, fun d watching p online truth => ?_⟩
  · rw [(ident d).1, (ident e).1] at topic
    rw [(ident d).2.1, (ident e).2.1] at presenceID
    exact viewing.unique d ((members d).mp one).2 e ((members e).mp two).2 topic presenceID
  · obtain ⟨other, listed⟩ := (members d).mp listed
    rw [apart d other]
    exact viewing.staying d listed
  · by_cases same : d = c
    · rw [same, self] at early_d
      exact absurd early_d (by simp [PeerClient.Early])
    · rw [apart d same] at early_d ⊢
      exact viewing.early d early_d
  · rw [(ident r).2.2]
    by_cases same : d = c
    · subst same
      rw [self] at told
      by_cases ready : (w.clients d).ready = true
      · exact (mem_readyOthers.mp ((perm ready).subset told)).2.2.2
      · rw [nobody (Bool.eq_false_of_not_eq_true ready)] at told
        exact absurd told List.not_mem_nil
    · rw [apart d same] at told
      exact viewing.told d r told
  · obtain ⟨other, listed⟩ := (members d).mp watching.1
    have before : w.Watching d := by
      rw [Watching, apart d other] at watching
      exact ⟨listed, watching.2⟩
    rw [apart d other]
    by_cases gone : (w.clients c).ready = true ∧ (w.clients c).topic = (w.clients d).topic ∧
        (w.clients c).presenceID = p
    · have absent : p ∉ w'.others d := fun there => by
        obtain ⟨e, member, distinct, topic, -, -, same⟩ := (others d p).mp there
        exact distinct (viewing.unique e member c listed_c (topic.trans gone.2.1.symm)
          (same.trans gone.2.2.symm))
      have left : online = false := Bool.eq_false_of_not_eq_true fun came => absent (truth.mpr came)
      subst left
      refine .inr (.inr ⟨c, ⟨?_, ?_⟩, (ident c).2.1.trans gone.2.2⟩)
      · rw [self]
        rfl
      · rw [self]
        exact (perm gone.1).symm.subset (mem_readyOthers.mpr
          ⟨listed, gone.2.1.symm, other, before.2.1⟩)
    · have right : p ∈ w'.others d ↔ p ∈ w.others d := by
        rw [others, mem_others]
        constructor
        · rintro ⟨e, member, -, there⟩
          exact ⟨e, member, there⟩
        · rintro ⟨e, member, topic, distinct, ready, same⟩
          refine ⟨e, member, ?_, topic, distinct, ready, same⟩
          rintro rfl
          exact gone ⟨ready, topic, same⟩
      rw [right] at truth
      rcases viewing.tracks d before p online truth with right | coming | ⟨e, tells, same_p⟩
      · exact .inl right
      · refine .inr (.inl ?_)
        rwa [apart d other]
      · have elsewhere : e ≠ c := by
          rintro rfl
          have phase := tells.1
          rw [leaving] at phase
          cases online <;> exact absurd phase (by decide)
        refine .inr (.inr ⟨e, ?_⟩)
        rw [apart e elsewhere]
        exact ⟨tells, same_p⟩

theorem tellNext (viewing : w.Viewing) {c : ℕ} (online : Bool)
    (stage : (w.clients c).phase = if online then .announcing else .departing)
    (roomy : ∀ r ∈ (w.clients c).recipients.head?, (w.clients r).cancelled = false →
      (w.clients r).send.length < clientSendQueueSize)
    (truthful : ∀ r ∈ (w.clients c).recipients.head?, w.Watching r →
      w.Says r (w.clients c).presenceID online) (sends : Bool) :
    (w.tellNext c (.presence online (w.clients c).presence) sends
      (if online then .confirming else .gone)).Viewing := by
  have unregistered : online = false → c ∉ w.registered := fun departs listed => by
    subst departs
    exact (viewing.staying c listed).2.2.1 stage
  unfold Broker.tellNext
  cases recipients : (w.clients c).recipients with
  | nil =>
    refine viewing.modify ⟨⟨fun _ => ⟨rfl, rfl⟩, rfl, fun listed => ?_, fun early => ?_,
      List.Subset.refl _⟩, fun told r tells => ?_, fun _ uncancelled => ?_⟩
    · cases online with
      | true => exact ⟨nofun, nofun, nofun, nofun⟩
      | false => exact absurd listed (unregistered rfl)
    · cases online <;> exact absurd early (by simp [PeerClient.Early])
    · rw [PeerClient.Tells, recipients] at tells
      exact absurd tells.2 List.not_mem_nil
    · exact ⟨uncancelled, rfl, List.Subset.refl _⟩
  | cons r rest =>
    have head : r ∈ (w.clients c).recipients.head? := by
      rw [recipients]
      rfl
    have ready := viewing.told c r (List.mem_of_mem_head? head)
    dsimp only
    cases queued : (w.clients r).enqueue (.presence online (w.clients c).presence) sends with
    | some new =>
      have same : (w.modify r fun client => client.tell (.presence online (w.clients c).presence)
          sends) = w.modify r fun client =>
            { client with send := client.send ++ [.presence online (w.clients c).presence] } := by
        refine modify_congr ?_
        rw [PeerClient.tell, queued]
        exact PeerClient.enqueue_eq_some queued
      rw [same]
      have heard := viewing.hear (viewing.late ready) (.presence online (w.clients c).presence)
        fun watching told presence equal => by
          have both : told = online ∧ presence = (w.clients c).presence := by
            cases told <;> cases online <;> simp_all [EventMessage.presence]
          rw [both.1, both.2]
          exact truthful r head watching
      refine @toldOne _ heard _ r _ ?_ online ?_ fun _ => ?_
      · by_cases own : c = r
        · subst own
          rw [modify_self]
          exact recipients
        · rw [modify_of_ne own]
          exact recipients
      · by_cases own : c = r
        · subst own
          rw [modify_self]
          exact stage
        · rw [modify_of_ne own]
          exact stage
      · have pid : ((w.modify r fun client => { client with send := client.send ++
            [EventMessage.presence online (w.clients c).presence] }).clients c).presenceID =
              (w.clients c).presenceID := by
          by_cases own : c = r
          · subst own
            rw [modify_self]
          · rw [modify_of_ne own]
        rw [pid, modify_self, PeerClient.view_send, PeerClient.mem_replayOne_presence]
        exact iff_of_eq (if_pos rfl)
    | none =>
      have same : (w.modify r fun client => client.tell (.presence online (w.clients c).presence)
          sends) = w := by
        refine modify_eq_self ?_
        rw [PeerClient.tell, queued]
        rfl
      rw [same]
      refine viewing.toldOne recipients online stage fun watching => ?_
      rcases PeerClient.enqueue_eq_none queued with full | cancelled
      · exact absurd (roomy r head watching.2.2) (not_lt.mpr full)
      · exact absurd (cancelled.symm.trans watching.2.2) Bool.noConfusion

theorem flush (viewing : w.Viewing) {c : ℕ} (flushing : (w.clients c).phase = .flushing)
    (truthful : w.Watching c → ∀ event ∈ (w.clients c).pending.head?, ∀ online presence,
      event = .presence online presence → w.Says c presence.presenceID online) (sends : Bool) :
    (w.flush c sends).Viewing := by
  unfold Broker.flush
  cases pending : (w.clients c).pending with
  | nil =>
    refine viewing.modify ⟨⟨fun _ => ⟨rfl, rfl⟩, rfl, fun _ => ⟨nofun, nofun, nofun, nofun⟩, nofun,
      List.Subset.refl _⟩, fun told r tells => ?_, fun _ uncancelled => ?_⟩
    · have phase := tells.1
      rw [flushing] at phase
      cases told <;> exact absurd phase (by decide)
    · exact ⟨uncancelled, rfl, List.Subset.refl _⟩
  | cons event rest =>
    have head : event ∈ (w.clients c).pending.head? := by
      rw [pending]
      rfl
    dsimp only
    cases queued : (w.clients c).enqueue event sends with
    | some new =>
      dsimp only
      have same : (w.modify c fun _ => { new with pending := rest }) =
          (w.modify c fun client => { client with send := client.send ++ [event] }).modify c
            fun client => { client with pending := rest } := by
        rw [modify_modify]
        refine modify_congr ?_
        rw [PeerClient.enqueue_eq_some queued]
      rw [same]
      have heard := viewing.hear (by rw [PeerClient.Early, flushing]; decide) event
        fun watching => truthful watching event head
      refine heard.flushedOne event ?_ fun _ presence online => ?_
      · rw [modify_self]
        exact pending
      · subst online
        rw [modify_self, PeerClient.view_send]
        exact Finset.mem_insert_self _ _
    | none =>
      dsimp only
      split_ifs with cancelled
      · refine viewing.modify ⟨⟨fun _ => ⟨rfl, rfl⟩, rfl, fun _ => ⟨nofun, nofun, nofun, nofun⟩,
          nofun, List.Subset.refl _⟩, fun told r tells => ?_, fun _ uncancelled => ?_⟩
        · have phase := tells.1
          rw [flushing] at phase
          cases told <;> exact absurd phase (by decide)
        · exact absurd (cancelled.symm.trans uncancelled) Bool.noConfusion
      · exact viewing

theorem answer (viewing : w.Viewing) {c : ℕ} (serving : (w.clients c).phase = .serving)
    {event : EventMessage} (quiet : ∀ online presence, event ≠ .presence online presence)
    (sends : Bool) : (w.answer c event sends).Viewing := by
  cases queued : (w.clients c).enqueue event sends with
  | some new =>
    have same : w.answer c event sends =
        w.modify c fun client => { client with send := client.send ++ [event] } := by
      refine modify_congr ?_
      rw [queued]
      exact PeerClient.enqueue_eq_some queued
    rw [same]
    refine viewing.hear (by rw [PeerClient.Early, serving]; decide) event ?_
    exact fun _ online presence equal => absurd equal (quiet online presence)
  | none =>
    have same : w.answer c event sends =
        w.modify c fun client => { client with cancelled := true, phase := .leaving } := by
      refine modify_congr ?_
      rw [queued]
    rw [same]
    exact viewing.hangUp serving

theorem publish (viewing : w.Viewing) {sender : PeerClient} {message : PublishMessage} {now : ℤ}
    {sends : Bool} {w' : Broker} (outcome : Outcome cfg w sender message now sends w') :
    w'.Viewing := by
  cases outcome with
  | refused => exact viewing
  | purged => exact viewing.congr rfl rfl
  | forwarded same fresh valid spare r found ready room =>
    subst same
    have accepted : ((w.purgeExpiredLocked now).accept sender message .delivered
        (now + cfg.mailboxTTL)).Viewing := viewing.congr rfl rfl
    refine accepted.hear (accepted.late ready) (.signal _) fun _ online presence equal => ?_
    cases online <;> exact absurd equal nofun
  | stored same fresh =>
    subst same
    exact viewing.congr rfl rfl

theorem register (viewing : w.Viewing) {c : ℕ} (registering : (w.clients c).phase = .registering)
    (now : ℤ) : (w.register cfg c now).2.Viewing := by
  have purged : (w.purgeExpiredLocked now).Viewing := viewing.congr rfl rfl
  rcases w.register_cases c now with same | ⟨free, same⟩ <;> rw [same]
  · have absent : c ∉ w.registered := fun listed => (viewing.staying c listed).2.1 registering
    refine purged.modify ⟨⟨fun _ => ⟨rfl, rfl⟩, rfl, fun listed => absurd listed absent, fun early => ?_,
      List.Subset.refl _⟩, fun online r tells => ?_, fun listed => absurd listed absent⟩
    · exact absurd early (by simp [PeerClient.Early])
    · have phase : (w.clients c).phase = _ := tells.1
      rw [registering] at phase
      cases online <;> exact absurd phase (by decide)
  · exact purged.enter registering free _

theorem activate (viewing : w.Viewing) {c : ℕ} (activating : (w.clients c).phase = .activating)
    (order : List ℕ)
    (truthful : ∀ presence ∈ (w.clients c).existing, presence.presenceID ∈ w.others c) :
    (w.activate c order).Viewing := by
  rcases w.activate_cases c order with ⟨-, same⟩ | same | ⟨found, -, perm, same⟩ <;> rw [same]
  · refine viewing.modify ⟨⟨fun _ => ⟨rfl, rfl⟩, rfl, fun _ => ⟨nofun, nofun, nofun, nofun⟩, fun early => ?_,
      List.Subset.refl _⟩, fun online r tells => ?_, fun _ uncancelled =>
        ⟨uncancelled, rfl, List.Subset.refl _⟩⟩
    · exact absurd early (by simp [PeerClient.Early])
    · have phase := tells.1
      rw [activating] at phase
      cases online <;> exact absurd phase (by decide)
  · exact viewing
  · exact viewing.handOver activating found perm truthful

theorem confirm (viewing : w.Viewing) {c : ℕ} (confirming : (w.clients c).phase = .confirming)
    (works : Bool) : (w.confirm c works).Viewing := by
  have silent : ∀ online r, ¬(w.clients c).Tells online r := fun online r tells => by
    have phase := tells.1
    rw [confirming] at phase
    cases online <;> exact absurd phase (by decide)
  refine viewing.modify ?_
  cases works with
  | true =>
    refine ⟨⟨fun _ => ⟨rfl, rfl⟩, rfl, fun _ => ⟨nofun, nofun, nofun, nofun⟩, fun early => ?_,
      List.Subset.refl _⟩, fun online r tells => absurd tells (silent online r),
        fun _ uncancelled => ⟨uncancelled, rfl, List.Subset.refl _⟩⟩
    exact absurd early (by simp [PeerClient.Early])
  | false =>
    refine ⟨⟨fun _ => ⟨rfl, rfl⟩, rfl, fun _ => ⟨nofun, nofun, nofun, nofun⟩, fun early => ?_,
      List.Subset.refl _⟩, fun online r tells => absurd tells (silent online r),
        fun _ uncancelled => Bool.noConfusion uncancelled⟩
    exact absurd early (by simp [PeerClient.Early])

theorem unregister (viewing : w.Viewing) {c : ℕ} (leaving : (w.clients c).phase = .leaving)
    (order : List ℕ) : (w.unregister c order).Viewing := by
  rcases w.unregister_cases c order with ⟨stranger, same⟩ | same | ⟨found, _, perm, nobody, same⟩ <;>
    rw [same]
  · have absent : c ∉ w.registered := fun listed => stranger (viewing.peer_eq listed)
    refine viewing.modify ⟨⟨fun _ => ⟨rfl, rfl⟩, rfl, fun listed => absurd listed absent, fun early => ?_,
      List.Subset.refl _⟩, fun online r tells => ?_, fun listed => absurd listed absent⟩
    · exact absurd early (by simp [PeerClient.Early])
    · have phase := tells.1
      rw [leaving] at phase
      cases online <;> exact absurd phase (by decide)
  · exact viewing
  · exact viewing.leave leaving found perm nobody

end Viewing

theorem published_ne_presence (messageID : String) (result : Except String DeliveryState)
    (online : Bool) (presence : Presence) :
    published messageID result ≠ .presence online presence := by
  cases result <;> cases online <;> exact nofun

/-- **Every truthful step keeps every view right**, but for what is on its way. -/
theorem viewing_step (viewing : w.Viewing) (s : RendezvousStep) (roomy : w.Roomy s)
    (truthful : w.Truthful s) : (w.step cfg s).Viewing := by
  cases s with
  | connect c topic presenceID role =>
    refine atPhase_of viewing fun absent => viewing.modify ?_
    have stranger : c ∉ w.registered := fun listed => (viewing.staying c listed).1 absent
    refine ⟨⟨fun listed => absurd listed stranger, ?_, fun listed => absurd listed stranger,
      fun _ => ⟨rfl, rfl⟩, List.nil_subset _⟩, fun online r tells => ?_,
        fun listed => absurd listed stranger⟩
    · exact (viewing.early c (.inl absent)).1.symm
    · have phase := tells.1
      rw [absent] at phase
      cases online <;> exact absurd phase (by decide)
  | register c now => exact atPhase_of viewing fun registering => viewing.register registering now
  | activate c order =>
    exact atPhase_of viewing fun activating => viewing.activate activating order (truthful activating)
  | announce c sends =>
    refine atPhase_of viewing fun announcing => ?_
    exact viewing.tellNext true announcing (roomy announcing) (truthful announcing) sends
  | confirm c works => exact atPhase_of viewing fun confirming => viewing.confirm confirming works
  | flush c sends =>
    exact atPhase_of viewing fun flushing => viewing.flush flushing (truthful flushing) sends
  | publish c message now sends answers =>
    refine atPhase_of viewing fun serving => ?_
    have outcome := @publish_outcome cfg w (w.clients c) message now sends
    exact (viewing.publish outcome).answer ((outcome.phase c).trans serving)
      (published_ne_presence _ _) answers
  | refuse c code messageID answers =>
    refine atPhase_of viewing fun serving => viewing.answer serving ?_ answers
    intro online presence equal
    cases online <;> exact absurd equal nofun
  | hangUp c => exact atPhase_of viewing fun serving => viewing.hangUp serving
  | unregister c order => exact atPhase_of viewing fun leaving => viewing.unregister leaving order
  | depart c sends =>
    refine atPhase_of viewing fun departing => ?_
    exact viewing.tellNext false departing (roomy departing) (truthful departing) sends
  | write c =>
    unfold step
    dsimp only
    split_ifs
    · exact viewing
    · refine viewing.modify ⟨⟨fun _ => ⟨rfl, rfl⟩, rfl, viewing.staying c, fun early => ?_,
        List.Subset.refl _⟩, fun _ _ tells => ⟨tells, rfl⟩, fun _ uncancelled => ⟨uncancelled, ?_,
          List.Subset.refl _⟩⟩
      · rw [write_queued]
        exact viewing.early c early
      · rw [PeerClient.view, write_queued]
        rfl
  | cancel c =>
    refine @Viewing.modify w viewing c (fun client => { client with cancelled := true })
      ⟨⟨fun _ => ⟨rfl, rfl⟩, rfl, viewing.staying c, viewing.early c, List.Subset.refl _⟩,
        fun _ _ tells => ⟨tells, rfl⟩, fun _ uncancelled => Bool.noConfusion uncancelled⟩
  | purge now => exact viewing.congr rfl rfl

def Delivered (w : Broker) (c : ℕ) : Prop :=
  (w.clients c).cancelled = false ∧ (w.clients c).send = [] ∧ (w.clients c).pending = [] ∧
    ∀ d online, ¬(w.clients d).Tells online c

/-- **When everything has been delivered, every ready client believes those to be there who are.** -/
theorem views_converge (cfg : Config) {events : List RendezvousStep}
    (meets : Meets (step cfg) (fun w s => w.Roomy s ∧ w.Truthful s) start events) {c : ℕ}
    (registered : c ∈ (run (step cfg) start events).registered)
    (ready : ((run (step cfg) start events).clients c).ready = true)
    (delivered : (run (step cfg) start events).Delivered c) :
    ((run (step cfg) start events).clients c).seen = (run (step cfg) start events).others c := by
  have viewing : (run (step cfg) start events).Viewing :=
    run_invariant_of_meets Viewing
      (fun _ s viewing both => viewing_step viewing s both.1 both.2) .start meets
  obtain ⟨uncancelled, send, pending, told⟩ := delivered
  set w := run (step cfg) start events
  have seen : (w.clients c).view = (w.clients c).seen := by
    rw [PeerClient.view, PeerClient.queued, send, List.append_nil]
    rfl
  ext p
  have right : ∀ online, (p ∈ w.others c ↔ online = true) → (p ∈ (w.clients c).seen ↔ online = true) :=
    fun online truth => by
      rcases viewing.tracks c ⟨registered, ready, uncancelled⟩ p online truth with
        right | ⟨-, presence, held, -⟩ | ⟨d, tells, -⟩
      · exact seen ▸ right
      · rw [pending] at held
        exact absurd held List.not_mem_nil
      · exact absurd tells (told d online)
  by_cases there : p ∈ w.others c
  · exact iff_of_true ((right true (iff_of_true there rfl)).mpr rfl) there
  · refine iff_of_false (fun believed => ?_) there
    exact Bool.noConfusion ((right false (iff_of_false there Bool.false_ne_true)).mp believed)

instance (w : Broker) : (s : RendezvousStep) → Decidable (w.Roomy s)
  | .announce c _ => inferInstanceAs (Decidable ((w.clients c).phase = .announcing →
      ∀ r ∈ (w.clients c).recipients.head?, (w.clients r).cancelled = false →
        (w.clients r).send.length < clientSendQueueSize))
  | .depart c _ => inferInstanceAs (Decidable ((w.clients c).phase = .departing →
      ∀ r ∈ (w.clients c).recipients.head?, (w.clients r).cancelled = false →
        (w.clients r).send.length < clientSendQueueSize))
  | .connect _ _ _ _ | .register _ _ | .activate _ _ | .confirm _ _ | .flush _ _
  | .publish _ _ _ _ _ | .refuse _ _ _ _ | .hangUp _ | .unregister _ _ | .write _ | .cancel _
  | .purge _ => inferInstanceAs (Decidable True)

/-- A snapshot is still true, and every presence that is told; nothing that corrects it is looked for. -/
def Prompt (w : Broker) : RendezvousStep → Prop
  | .activate c _ => ∀ presence ∈ (w.clients c).existing, presence.presenceID ∈ w.others c
  | .announce c _ => ∀ r ∈ (w.clients c).recipients.head?, (w.clients c).presenceID ∈ w.others r
  | .depart c _ => ∀ r ∈ (w.clients c).recipients.head?, (w.clients c).presenceID ∉ w.others r
  | .flush c _ => (w.clients c).pending = []
  | _ => True

instance (w : Broker) : (s : RendezvousStep) → Decidable (w.Prompt s)
  | .activate c _ => inferInstanceAs (Decidable (∀ presence ∈ (w.clients c).existing,
      presence.presenceID ∈ w.others c))
  | .announce c _ => inferInstanceAs (Decidable (∀ r ∈ (w.clients c).recipients.head?,
      (w.clients c).presenceID ∈ w.others r))
  | .depart c _ => inferInstanceAs (Decidable (∀ r ∈ (w.clients c).recipients.head?,
      (w.clients c).presenceID ∉ w.others r))
  | .flush c _ => inferInstanceAs (Decidable ((w.clients c).pending = []))
  | .connect _ _ _ _ | .register _ _ | .confirm _ _ | .publish _ _ _ _ _ | .refuse _ _ _ _
  | .hangUp _ | .unregister _ _ | .write _ | .cancel _ | .purge _ => inferInstanceAs (Decidable True)

theorem Prompt.truthful {s : RendezvousStep} (prompt : w.Prompt s) : w.Truthful s := by
  cases s with
  | activate c order => exact fun _ => prompt
  | announce c sends => exact fun _ r head _ => .inl (iff_of_true (prompt r head) rfl)
  | depart c sends => exact fun _ r head _ => .inl (iff_of_false (prompt r head) nofun)
  | flush c sends =>
    intro _ _ event head
    rw [show (w.clients c).pending = [] from prompt] at head
    exact absurd head (Option.not_mem_none event)
  | _ => trivial

/-- A host is served, then a member registers and finds it. -/
def sampleMeeting : List RendezvousStep :=
  [.connect 0 "topic" sampleHost .host, .register 0 0, .activate 0 [], .announce 0 true,
    .confirm 0 true, .flush 0 true, .connect 1 "topic" sampleMember .member, .register 1 0]

/-- The member is activated, and the host is told of it. -/
def sampleWelcome : List RendezvousStep :=
  sampleMeeting ++ [.activate 1 [0], .announce 1 true, .announce 1 true, .confirm 1 true, .flush 1 true,
    .write 0]

theorem views_converge_sample : ((run (step sampleConfig) start sampleWelcome).clients 0).seen =
    (run (step sampleConfig) start sampleWelcome).others 0 := by
  have prompt : Meets (step sampleConfig) (fun w s => w.Roomy s ∧ w.Prompt s) start sampleWelcome := by
    decide +kernel
  refine views_converge sampleConfig (prompt.mono _ fun w s both => ⟨both.1, both.2.truthful⟩)
    (by decide +kernel) (by decide +kernel) ⟨by decide +kernel, by decide +kernel, by decide +kernel, ?_⟩
  intro d online tells
  match d with
  | 0 => cases online <;> exact absurd tells.1 (by decide +kernel)
  | 1 => cases online <;> exact absurd tells.1 (by decide +kernel)
  | n + 2 =>
    have away : (run (step sampleConfig) start sampleWelcome).clients (n + 2) = .absent := by
      with_unfolding_all rfl
    rw [away] at tells
    exact absurd tells.2 List.not_mem_nil

/-- The host leaves before the member is activated. -/
def sampleParting : List RendezvousStep :=
  sampleMeeting ++ [.hangUp 0, .unregister 0 [], .depart 0 true, .activate 1 [], .announce 1 true,
    .confirm 1 true, .flush 1 true]

/-- **The member goes on believing that the host is there.** -/
theorem departed_host_seen : Meets (step sampleConfig) Roomy start sampleParting ∧
    1 ∈ (run (step sampleConfig) start sampleParting).registered ∧
    ((run (step sampleConfig) start sampleParting).clients 1).ready = true ∧
    (run (step sampleConfig) start sampleParting).Delivered 1 ∧
    ((run (step sampleConfig) start sampleParting).clients 1).seen ≠
      (run (step sampleConfig) start sampleParting).others 1 := by
  refine ⟨by decide +kernel, by decide +kernel, by decide +kernel,
    ⟨by decide +kernel, by decide +kernel, by decide +kernel, ?_⟩, by decide +kernel⟩
  intro d online tells
  match d with
  | 0 => cases online <;> exact absurd tells.1 (by decide +kernel)
  | 1 => cases online <;> exact absurd tells.1 (by decide +kernel)
  | _ + 2 => exact absurd (show 1 ∈ ([] : List ℕ) from tells.2) List.not_mem_nil

end Broker

end Atterm.Rendezvous
