/-
**Queued messages are kept.**

A message that was acknowledged as queued waits in the mailbox of its target until the target is
activated. From there it goes to the send queue of that connection, once the registration has been
acknowledged. When the acknowledgement fails, or the connection is cancelled in between, it is lost.

* `Broker.Kept` — an unexpired queued message is in its mailbox, was handed to a connection of its
  target, or is being handed over;
* `Broker.Careful` — no connection gives up such a message;
* `queued_messages_kept_iff` — a run keeps them exactly if it is careful.
-/

import Atterm.Rendezvous.Custody

namespace Atterm.Rendezvous

open Atterm.Foundation

namespace PeerClient

variable (client : PeerClient)

/-- The message is in the send queue of a connection whose registration succeeded. -/
def Handed (n : ℕ) : Prop := client.confirmed = true ∧ ∃ s ∈ client.sent, s.number = n

/-- The message was taken from the mailbox for a connection that is being set up. -/
def HandingOver (n : ℕ) : Prop :=
  (client.phase = .announcing ∨ client.phase = .confirming ∨ client.phase = .flushing) ∧
    ∃ s ∈ client.due, s.number = n

def Has (n : ℕ) : Prop := client.Handed n ∨ client.HandingOver n

/-- A connection is confirmed when it is flushed, and not before it is made. -/
structure Staged : Prop where
  absent : client.phase = .absent → client.confirmed = false
  flushing : client.phase = .flushing → client.confirmed = true

/-- What a client becomes without giving up a message. -/
structure Retains (new old : PeerClient) : Prop where
  topic : new.topic = old.topic
  presenceID : new.presenceID = old.presenceID
  has : ∀ n, old.Has n → new.Has n
  staged : old.Staged → new.Staged

variable {client}

theorem has_of {new : PeerClient} {n : ℕ} (has : client.Has n)
    (away : ¬(client.phase = .announcing ∨ client.phase = .confirming ∨ client.phase = .flushing))
    (confirmed : client.confirmed = true → new.confirmed = true)
    (sent : ∀ s ∈ client.sent, s ∈ new.sent) : new.Has n := by
  rcases has with ⟨done, s, listed, number⟩ | handing
  · exact .inl ⟨confirmed done, s, sent s listed, number⟩
  · exact absurd handing.1 away

theorem sent_enqueue (event : EventMessage) : { client with send := client.send ++ [event] }.sent =
    client.sent ++ [event].filterMap EventMessage.signalOf := by
  rw [sent, queued_send, List.filterMap_append]
  rfl

theorem enqueue_retains (event : EventMessage) :
    { client with send := client.send ++ [event] }.Retains client := by
  refine ⟨rfl, rfl, fun n has => has.imp (fun handed => ⟨handed.1, ?_⟩) id, fun staged =>
    ⟨staged.absent, staged.flushing⟩⟩
  obtain ⟨s, listed, number⟩ := handed.2
  exact ⟨s, sent_enqueue event ▸ List.mem_append_left _ listed, number⟩

theorem tell_retains (event : EventMessage) (sends : Bool) :
    (client.tell event sends).Retains client := by
  unfold tell
  cases queued : client.enqueue event sends with
  | none => exact ⟨rfl, rfl, fun _ => id, id⟩
  | some new =>
    rw [enqueue_eq_some queued]
    exact enqueue_retains event

end PeerClient

namespace Broker

variable {cfg : Config} {w : Broker}

/-- The message was queued, and has not expired. -/
def Wanted (w : Broker) (n : ℕ) : Prop :=
  ∃ a ∈ w.accepted[n]?, a.state = .queued ∧ w.clock < a.expiresAt

instance (w : Broker) (n : ℕ) : Decidable (w.Wanted n) :=
  inferInstanceAs (Decidable (∃ a ∈ w.accepted[n]?, _))

/-- The message is in the mailbox of its target, or with a connection of it. -/
def Located (w : Broker) (n : ℕ) (a : Accepted) : Prop :=
  (∃ m ∈ w.mail, m.topic = a.topic ∧ m.target = a.target ∧ m.signal.number = n) ∨
    ∃ c, (w.clients c).topic = a.topic ∧ (w.clients c).presenceID = a.target ∧ (w.clients c).Has n

/-- **No unexpired queued message is lost.** -/
def Kept (w : Broker) : Prop :=
  ∀ n a, w.accepted[n]? = some a → a.state = .queued → w.clock < a.expiresAt → w.Located n a

/-- **No connection gives up a message that is wanted.** -/
def Careful (w : Broker) : RendezvousStep → Prop
  | .confirm c works => (w.clients c).phase = .confirming → works = false →
      ∀ s ∈ (w.clients c).due, ¬w.Wanted s.number
  | .flush c sends => (w.clients c).phase = .flushing → (w.clients c).cancelled = true →
      (∃ event ∈ (w.clients c).pending.head?, ((w.clients c).enqueue event sends).isNone) →
        ∀ s ∈ (w.clients c).due, ¬w.Wanted s.number
  | _ => True

instance (w : Broker) : (s : RendezvousStep) → Decidable (w.Careful s)
  | .confirm c works => inferInstanceAs (Decidable ((w.clients c).phase = .confirming →
      works = false → ∀ s ∈ (w.clients c).due, ¬w.Wanted s.number))
  | .flush c sends => inferInstanceAs (Decidable ((w.clients c).phase = .flushing →
      (w.clients c).cancelled = true → (∃ event ∈ (w.clients c).pending.head?,
        ((w.clients c).enqueue event sends).isNone) → ∀ s ∈ (w.clients c).due, ¬w.Wanted s.number))
  | .connect _ _ _ _ | .register _ _ | .activate _ _ | .announce _ _ | .publish _ _ _ _ _
  | .refuse _ _ _ _ | .hangUp _ | .unregister _ _ | .depart _ _ | .write _ | .cancel _ | .purge _ =>
    inferInstanceAs (Decidable True)

theorem Kept.mono {w' : Broker} (kept : w.Kept) (custody : w.Custody) (clock : w.clock ≤ w'.clock)
    (accepted : ∀ (n : ℕ) (a : Accepted), w'.accepted[n]? = some a → a.state = .queued →
      w.accepted[n]? = some a ∨ w'.Located n a)
    (mail : ∀ m ∈ w.mail, w'.clock < m.expiresAt → m ∈ w'.mail)
    (clients : ∀ c n, w.Wanted n → (w.clients c).Has n → (w'.clients c).topic = (w.clients c).topic ∧
      (w'.clients c).presenceID = (w.clients c).presenceID ∧ (w'.clients c).Has n) : w'.Kept := by
  intro n a listed queued unexpired
  rcases accepted n a listed queued with listed | located
  on_goal 2 => exact located
  rcases kept n a listed queued (clock.trans_lt unexpired) with
    ⟨m, boxed, topic, target, number⟩ | ⟨c, topic, target, has⟩
  · obtain ⟨-, b, same, expiresAt⟩ := custody.mailed m boxed
    rw [number, listed, Option.some.injEq] at same
    subst same
    exact .inl ⟨m, mail m boxed (expiresAt ▸ unexpired), topic, target, number⟩
  · obtain ⟨same_topic, same_target, has⟩ :=
      clients c n ⟨a, listed, queued, clock.trans_lt unexpired⟩ has
    exact .inr ⟨c, same_topic.trans topic, same_target.trans target, has⟩

theorem Kept.modify (kept : w.Kept) (custody : w.Custody) {c : ℕ} {change : PeerClient → PeerClient}
    (has : ∀ n, w.Wanted n → (w.clients c).Has n →
      (change (w.clients c)).topic = (w.clients c).topic ∧
        (change (w.clients c)).presenceID = (w.clients c).presenceID ∧
          (change (w.clients c)).Has n) : (w.modify c change).Kept := by
  refine kept.mono custody le_rfl (fun _ _ old _ => .inl old) (fun _ listed _ => listed) fun d n wanted had => ?_
  by_cases same : d = c
  · subst same
    rw [modify_self]
    exact has n wanted had
  · rw [modify_of_ne same]
    exact ⟨rfl, rfl, had⟩

/-- What every careful step keeps. -/
structure Keeping (w : Broker) : Prop where
  custody : w.Custody
  staged : ∀ c, (w.clients c).Staged
  kept : w.Kept

namespace Keeping

theorem start : Broker.start.Keeping where
  custody := .start
  staged _ := ⟨fun _ => rfl, nofun⟩
  kept _ _ listed := nomatch listed

theorem modify (keeping : w.Keeping) {c : ℕ} {change : PeerClient → PeerClient}
    (custody : (w.modify c change).Custody)
    (retains : (change (w.clients c)).Retains (w.clients c)) : (w.modify c change).Keeping where
  custody := custody
  staged d := by
    by_cases same : d = c
    · subst same
      rw [modify_self]
      exact retains.staged (keeping.staged d)
    · rw [modify_of_ne same]
      exact keeping.staged d
  kept := keeping.kept.modify keeping.custody fun n _ has =>
    ⟨retains.topic, retains.presenceID, retains.has n has⟩

theorem registered (keeping : w.Keeping) (registered : List ℕ) :
    { w with registered := registered }.Keeping where
  custody := keeping.custody.registered registered
  staged := keeping.staged
  kept := keeping.kept.mono keeping.custody le_rfl (fun _ _ old _ => .inl old) (fun _ listed _ => listed) fun _ _ _ has =>
    ⟨rfl, rfl, has⟩

theorem purge (keeping : w.Keeping) (now : ℤ) : (w.purgeExpiredLocked now).Keeping where
  custody := keeping.custody.purge now
  staged := keeping.staged
  kept := keeping.kept.mono keeping.custody (le_max_left _ _)
    (fun _ _ old _ => .inl old)
    (fun _ listed unexpired => List.mem_filter.mpr
      ⟨listed, decide_eq_true ((le_max_right _ _).trans_lt unexpired)⟩)
    fun _ _ _ has => ⟨rfl, rfl, has⟩

/-- **The mailbox goes to the activated client.** -/
theorem handOver (keeping : w.Keeping) {c : ℕ} (order : List ℕ)
    (unready : (w.clients c).ready = false) :
    ((w.takeMailboxLocked (w.clients c).topic (w.clients c).presenceID).modify c fun client =>
      { client with
        ready := true, recipients := order, pending := w.missed c order,
        phase := .announcing }).Keeping := by
  set w' := (w.takeMailboxLocked (w.clients c).topic (w.clients c).presenceID).modify c fun client =>
    { client with
      ready := true, recipients := order, pending := w.missed c order, phase := .announcing } with w'_eq
  have others : ∀ d, d ≠ c → w'.clients d = w.clients d := fun d other => modify_of_ne other _
  have self : w'.clients c = { w.clients c with
      ready := true, recipients := order, pending := w.missed c order, phase := .announcing } :=
    modify_self ..
  refine ⟨keeping.custody.handOver order unready, fun d => ?_, fun n a listed queued unexpired => ?_⟩
  · by_cases same : d = c
    · rw [same, self]
      exact ⟨nofun, nofun⟩
    · rw [others d same]
      exact keeping.staged d
  · rcases keeping.kept n a listed queued unexpired with
      ⟨m, boxed, topic, target, number⟩ | ⟨d, topic, target, has⟩
    · by_cases own : m.topic = (w.clients c).topic ∧ m.target = (w.clients c).presenceID
      · refine .inr ⟨c, ?_, ?_, .inr ⟨?_, m.signal, ?_, number⟩⟩
        · rw [self, ← topic, own.1]
        · rw [self, ← target, own.2]
        · rw [self]
          exact .inl rfl
        · rw [self]
          show m.signal ∈ (w.missed c order).filterMap EventMessage.signalOf
          rw [signals_missed]
          exact List.mem_map_of_mem (mem_mailbox.mpr ⟨boxed, own⟩)
      · refine .inl ⟨m, List.mem_filter.mpr ⟨boxed, ?_⟩, topic, target, number⟩
        rw [Bool.not_eq_true', ← Bool.not_eq_true, Bool.and_eq_true, beq_iff_eq, beq_iff_eq]
        exact own
    · have other : d ≠ c := by
        rintro rfl
        have nothing := List.append_eq_nil_iff.mp (keeping.custody.unready d unready)
        rcases has with ⟨-, s, listed, -⟩ | ⟨-, s, listed, -⟩
        · exact absurd (nothing.1 ▸ listed) List.not_mem_nil
        · exact absurd (nothing.2 ▸ listed) List.not_mem_nil
      exact .inr ⟨d, others d other ▸ topic, others d other ▸ target, others d other ▸ has⟩

theorem forward (keeping : w.Keeping) {r : ℕ} (s : Signal) {a : Accepted} (delivered : a.state = .delivered)
    (recent : List RecentMessage) (custody : ({ w with
      recent := recent, accepted := w.accepted ++ [a] }.modify r fun _ => { w.clients r with
        send := (w.clients r).send ++ [EventMessage.signal s] }).Custody) :
    ({ w with recent := recent, accepted := w.accepted ++ [a] }.modify r fun _ => { w.clients r with
      send := (w.clients r).send ++ [EventMessage.signal s] }).Keeping := by
  have retains : ∀ c, (({ w with recent := recent, accepted := w.accepted ++ [a] }.modify r fun _ =>
      { w.clients r with send := (w.clients r).send ++ [EventMessage.signal s] }).clients c).Retains
        (w.clients c) := fun c => by
    by_cases same : c = r
    · subst same
      rw [modify_self]
      exact PeerClient.enqueue_retains _
    · rw [modify_of_ne same]
      exact ⟨rfl, rfl, fun _ => id, id⟩
  refine ⟨custody, fun c => (retains c).staged (keeping.staged c), ?_⟩
  refine keeping.kept.mono keeping.custody le_rfl (fun n b listed queued => ?_)
    (fun _ listed _ => listed) fun c n _ has =>
      ⟨(retains c).topic, (retains c).presenceID, (retains c).has n has⟩
  replace listed : (w.accepted ++ [a])[n]? = some b := listed
  rw [List.getElem?_append] at listed
  split_ifs at listed with old
  · exact .inl listed
  · obtain rfl := List.mem_singleton.mp (List.mem_of_getElem? listed)
    exact absurd (delivered.symm.trans queued) nofun

theorem store (keeping : w.Keeping) {m : MailboxMessage} {a : Accepted}
    (number : m.signal.number = w.accepted.length) (topic : a.topic = m.topic)
    (target : a.target = m.target) (recent : List RecentMessage)
    (custody : ({ w with recent := recent, accepted := w.accepted ++ [a] }.store m).Custody) :
    ({ w with recent := recent, accepted := w.accepted ++ [a] }.store m).Keeping := by
  refine ⟨custody, keeping.staged, ?_⟩
  refine keeping.kept.mono keeping.custody le_rfl (fun n b listed _ => ?_)
    (fun _ listed _ => List.mem_append_left _ listed) fun c n _ has => ⟨rfl, rfl, has⟩
  replace listed : (w.accepted ++ [a])[n]? = some b := listed
  by_cases old : n < w.accepted.length
  · rw [List.getElem?_append_left old] at listed
    exact .inl listed
  · have last : n = w.accepted.length := by
      have bound := (List.getElem?_eq_some_iff.mp listed).1
      rw [List.length_append, List.length_singleton] at bound
      omega
    subst last
    rw [List.getElem?_concat_length, Option.some.injEq] at listed
    subst listed
    exact .inr (.inl ⟨m, List.mem_append_right _ (List.mem_singleton_self m), topic.symm, target.symm,
      number⟩)

theorem publish (keeping : w.Keeping) {sender : PeerClient} {message : PublishMessage} {now : ℤ}
    {sends : Bool} {w' : Broker} (outcome : Outcome cfg w sender message now sends w') : w'.Keeping := by
  have custody := keeping.custody.publish outcome
  cases outcome with
  | refused => exact keeping
  | purged => exact keeping.purge now
  | forwarded purged fresh valid spare r found ready room =>
    subst purged
    exact (keeping.purge now).forward _ rfl _ custody
  | stored purged fresh =>
    subst purged
    exact (keeping.purge now).store rfl rfl rfl _ custody

theorem answer (keeping : w.Keeping) {c : ℕ} (serving : (w.clients c).phase = .serving)
    {event : EventMessage} (quiet : event.signalOf = none) (sends : Bool) :
    (w.answer c event sends).Keeping := by
  refine keeping.modify (Custody.preserved.answer keeping.custody c quiet sends) ?_
  cases queued : (w.clients c).enqueue event sends with
  | none =>
    refine ⟨rfl, rfl, fun n has => ?_, fun _ => ⟨nofun, nofun⟩⟩
    exact PeerClient.has_of has (by rw [serving]; decide) id fun _ => id
  | some new =>
    dsimp only
    rw [PeerClient.enqueue_eq_some queued]
    exact PeerClient.enqueue_retains _

theorem tellNext (keeping : w.Keeping) {c : ℕ} {event : EventMessage} (quiet : event.signalOf = none)
    (sends : Bool) {after : Phase}
    (stage : (w.clients c).phase = .announcing ∧ after = .confirming ∨
      (w.clients c).phase = .departing ∧ after = .gone) : (w.tellNext c event sends after).Keeping := by
  have custody := Custody.preserved.tellNext keeping.custody c quiet sends after
  unfold Broker.tellNext at custody ⊢
  cases recipients : (w.clients c).recipients with
  | nil =>
    rw [recipients] at custody
    refine keeping.modify custody ?_
    rcases stage with ⟨phase, rfl⟩ | ⟨phase, rfl⟩
    · refine ⟨rfl, rfl, fun n has => has.imp id fun handing => ?_, fun _ => ⟨nofun, nofun⟩⟩
      exact ⟨.inr (.inl rfl), handing.2⟩
    · refine ⟨rfl, rfl, fun n has => ?_, fun _ => ⟨nofun, nofun⟩⟩
      exact PeerClient.has_of has (by rw [phase]; decide) id fun _ => id
  | cons r rest =>
    rw [recipients] at custody
    refine (keeping.modify (keeping.custody.modify (c := r) (PeerClient.tell_follows quiet))
      (PeerClient.tell_retains event sends)).modify custody ?_
    exact ⟨rfl, rfl, fun _ => id, fun staged => ⟨staged.absent, staged.flushing⟩⟩

theorem flush (keeping : w.Keeping) {c : ℕ} (flushing : (w.clients c).phase = .flushing) (sends : Bool)
    (careful : (w.clients c).cancelled = true →
      (∃ event ∈ (w.clients c).pending.head?, ((w.clients c).enqueue event sends).isNone) →
        ∀ s ∈ (w.clients c).due, ¬w.Wanted s.number) : (w.flush c sends).Keeping := by
  have custody := Custody.preserved.flush keeping.custody c sends
  have confirmed := (keeping.staged c).flushing flushing
  unfold Broker.flush at custody ⊢
  cases first : (w.clients c).pending with
  | nil =>
    rw [first] at custody
    refine keeping.modify custody ⟨rfl, rfl, fun n has => has.imp id fun handing => ?_,
      fun _ => ⟨(fun h => by cases h), (fun h => by cases h)⟩⟩
    obtain ⟨-, s, listed, -⟩ := handing
    rw [PeerClient.due, first] at listed
    exact absurd listed List.not_mem_nil
  | cons event rest =>
    rw [first] at custody careful
    dsimp only at custody ⊢
    cases queued : (w.clients c).enqueue event sends with
    | some new =>
      rw [queued] at custody
      refine keeping.modify custody ?_
      rw [PeerClient.enqueue_eq_some queued]
      refine ⟨rfl, rfl, fun n has => ?_, fun _ => ⟨fun absent => ?_, fun _ => confirmed⟩⟩
      · rcases has with ⟨-, s, listed, number⟩ | ⟨-, s, listed, number⟩
        · refine .inl ⟨confirmed, s, ?_, number⟩
          show s ∈ { w.clients c with send := (w.clients c).send ++ [event] }.sent
          rw [PeerClient.sent_enqueue]
          exact List.mem_append_left _ listed
        · rw [PeerClient.due, first, ← List.singleton_append, List.filterMap_append] at listed
          rcases List.mem_append.mp listed with now | later
          · refine .inl ⟨confirmed, s, ?_, number⟩
            show s ∈ { w.clients c with send := (w.clients c).send ++ [event] }.sent
            rw [PeerClient.sent_enqueue]
            exact List.mem_append_right _ now
          · exact .inr ⟨.inr (.inr flushing), s, later, number⟩
      · cases absent.symm.trans flushing
    | none =>
      rw [queued] at custody
      dsimp only at custody ⊢
      split_ifs at custody ⊢ with cancelled
      · refine ⟨custody, fun d => ?_, ?_⟩
        · by_cases same : d = c
          · subst same
            rw [modify_self]
            exact ⟨(fun h => by cases h), (fun h => by cases h)⟩
          · rw [modify_of_ne same]
            exact keeping.staged d
        · refine keeping.kept.modify keeping.custody fun n wanted has => ⟨rfl, rfl, .inl ?_⟩
          rcases has with handed | ⟨-, s, listed, rfl⟩
          · exact handed
          · refine absurd wanted (careful cancelled ⟨event, rfl, ?_⟩ s listed)
            rw [queued]
            rfl
      · exact keeping

end Keeping

/-- **Every careful step keeps what is wanted.** -/
theorem keeping_step (keeping : w.Keeping) (s : RendezvousStep) (careful : w.Careful s) :
    (w.step cfg s).Keeping := by
  have custody := @custody_step cfg _ keeping.custody s
  cases s with
  | connect c topic presenceID role =>
    refine atPhase_of keeping fun absent => ⟨keeping.custody.modify_or (.inl rfl), fun d => ?_,
      keeping.kept.modify keeping.custody fun n _ has => ?_⟩
    · by_cases same : d = c
      · rw [same, modify_self]
        exact ⟨nofun, nofun⟩
      · rw [modify_of_ne same]
        exact keeping.staged d
    · rcases has with ⟨confirmed, -⟩ | ⟨phase, -⟩
      · exact absurd (((keeping.staged c).absent absent).symm.trans confirmed) nofun
      · rw [absent] at phase
        exact absurd phase (by decide)
  | register c now =>
    have purged := keeping.purge now
    refine atPhase_of keeping fun registering => ?_
    have custody := purged.custody
    have away : ∀ phase n, (w.clients c).Has n → { w.clients c with phase := phase }.Has n :=
      fun phase n has => PeerClient.has_of has (by rw [registering]; decide) id fun _ => id
    rcases w.register_cases c now with same | ⟨-, same⟩
    · rw [same]
      refine purged.modify (custody.modify ⟨rfl, rfl, id, List.Sublist.refl _⟩) ?_
      exact ⟨rfl, rfl, away _, fun _ => ⟨nofun, nofun⟩⟩
    · rw [same]
      refine (purged.registered _).modify
        ((custody.registered _).modify ⟨rfl, rfl, id, List.Sublist.refl _⟩) ?_
      exact ⟨rfl, rfl, away _, fun _ => ⟨nofun, nofun⟩⟩
  | activate c order =>
    refine atPhase_of keeping fun activating => ?_
    have custody := Custody.preserved.activate keeping.custody c order fun unready _ =>
      keeping.custody.handOver order unready
    rcases w.activate_cases c order with ⟨-, same⟩ | same | ⟨-, unready, -, same⟩ <;>
      rw [same] at custody ⊢
    · refine keeping.modify custody ⟨rfl, rfl, fun n has => ?_, fun _ => ⟨nofun, nofun⟩⟩
      exact PeerClient.has_of has (by rw [activating]; decide) id fun _ => id
    · exact keeping
    · exact keeping.handOver order unready
  | announce c sends =>
    exact atPhase_of keeping fun announcing => keeping.tellNext rfl sends (.inl ⟨announcing, rfl⟩)
  | confirm c works =>
    refine atPhase_of keeping fun confirming => ?_
    have custody := Custody.preserved.confirm keeping.custody c works
    cases works with
    | true =>
      refine keeping.modify custody ⟨rfl, rfl, fun n has => ?_, fun _ => ⟨nofun, fun _ => rfl⟩⟩
      exact has.imp (fun handed => ⟨rfl, handed.2⟩) fun handing => ⟨.inr (.inr rfl), handing.2⟩
    | false =>
      refine ⟨custody, fun d => ?_, keeping.kept.modify keeping.custody fun n wanted has =>
        ⟨rfl, rfl, .inl ?_⟩⟩
      · by_cases same : d = c
        · rw [same]
          show ((w.modify c _).clients c).Staged
          rw [modify_self]
          exact ⟨nofun, nofun⟩
        · show ((w.modify c _).clients d).Staged
          rw [modify_of_ne same]
          exact keeping.staged d
      · rcases has with handed | ⟨-, s, listed, rfl⟩
        · exact handed
        · exact absurd wanted (careful confirming rfl s listed)
  | flush c sends =>
    exact atPhase_of keeping fun flushing => keeping.flush flushing sends (careful flushing)
  | publish c message now sends answers =>
    refine atPhase_of keeping fun serving => ?_
    have outcome := @publish_outcome cfg w (w.clients c) message now sends
    refine (keeping.publish outcome).answer ?_ (published_quiet _ _) answers
    exact (outcome.phase c).trans serving
  | refuse c code messageID answers =>
    exact atPhase_of keeping fun serving => keeping.answer serving rfl answers
  | hangUp c =>
    refine atPhase_of keeping fun serving => ?_
    refine keeping.modify (keeping.custody.modify ⟨rfl, rfl, id, List.Sublist.refl _⟩)
      ⟨rfl, rfl, fun n has => ?_, fun _ => ⟨nofun, nofun⟩⟩
    exact PeerClient.has_of has (by rw [serving]; decide) id fun _ => id
  | unregister c order =>
    refine atPhase_of keeping fun leaving => ?_
    have custody := Custody.preserved.unregister keeping.custody c order
    have away : ∀ recipients phase n, (w.clients c).Has n →
        { w.clients c with recipients := recipients, phase := phase }.Has n :=
      fun recipients phase n has =>
        PeerClient.has_of has (by rw [leaving]; decide) id fun _ => id
    rcases w.unregister_cases c order with ⟨-, same⟩ | same | ⟨-, recipients, -, -, same⟩ <;>
      rw [same] at custody ⊢
    · exact keeping.modify custody ⟨rfl, rfl, away _ _, fun _ => ⟨nofun, nofun⟩⟩
    · exact keeping
    · exact (keeping.registered _).modify custody ⟨rfl, rfl, away _ _, fun _ => ⟨nofun, nofun⟩⟩
  | depart c sends =>
    exact atPhase_of keeping fun departing => keeping.tellNext rfl sends (.inr ⟨departing, rfl⟩)
  | write c =>
    unfold step at custody ⊢
    dsimp only at custody ⊢
    split_ifs at custody ⊢ with closed
    · exact keeping
    · refine keeping.modify custody ⟨rfl, rfl, fun n has => has.imp (fun handed => ⟨handed.1, ?_⟩) id,
        fun staged => ⟨staged.absent, staged.flushing⟩⟩
      rw [PeerClient.sent, write_queued]
      exact handed.2
  | cancel c =>
    refine @Keeping.modify w keeping c (fun client => { client with cancelled := true }) custody ?_
    exact ⟨rfl, rfl, fun _ => id, fun staged => ⟨staged.absent, staged.flushing⟩⟩
  | purge now => exact keeping.purge now

/-- **A message that is given up is lost.** -/
theorem lost (custody : w.Custody) {c : ℕ} {s : Signal} (due : s ∈ (w.clients c).due)
    (wanted : w.Wanted s.number) {change : PeerClient → PeerClient}
    (same_sent : (change (w.clients c)).sent = (w.clients c).sent)
    (no_due : (change (w.clients c)).due = []) : ¬(w.modify c change).Kept := by
  intro kept
  obtain ⟨a, listed, queued, unexpired⟩ := wanted
  have carried : ∀ d t, t ∈ (w.clients d).carried → t.number = s.number → d = c :=
    fun d t held number => Option.some.inj <| custody.placed.eq_of_mem
      (p := some d) (q := some c) (List.mem_map_of_mem held)
      (number ▸ List.mem_map_of_mem (List.mem_append_right _ due))
  rcases kept _ a listed queued unexpired with ⟨m, boxed, -, -, number⟩ | ⟨d, -, -, has⟩
  · have away := custody.placed.eq_of_mem (p := none) (q := some c) (List.mem_map_of_mem boxed)
      (number ▸ List.mem_map_of_mem (List.mem_append_right _ due))
    exact absurd away nofun
  · by_cases same : d = c
    · subst same
      rw [modify_self] at has
      rcases has with ⟨-, t, sent, number⟩ | ⟨-, t, none, -⟩
      · rw [same_sent] at sent
        have once := custody.placed.once (some d)
        rw [places, PeerClient.carried, List.map_append] at once
        exact (List.nodup_append.mp once).2.2 _ (List.mem_map_of_mem sent) _
          (List.mem_map_of_mem due) number
      · exact absurd (no_due ▸ none) List.not_mem_nil
    · rw [modify_of_ne same] at has
      rcases has with ⟨-, t, held, number⟩ | ⟨-, t, held, number⟩
      · exact same (carried d t (List.mem_append_left _ held) number)
      · exact same (carried d t (List.mem_append_right _ held) number)

theorem careless_step (custody : w.Custody) (s : RendezvousStep) (careless : ¬w.Careful s) :
    ¬(w.step cfg s).Kept := by
  cases s with
  | confirm c works =>
    simp only [Careful, not_forall, not_not] at careless
    obtain ⟨confirming, rfl, s, due, wanted⟩ := careless
    show ¬(w.atPhase c .confirming (w.confirm c false)).Kept
    rw [atPhase_eq confirming]
    exact lost custody due wanted rfl rfl
  | flush c sends =>
    simp only [Careful, not_forall, not_not] at careless
    obtain ⟨flushing, cancelled, ⟨event, first, full⟩, s, due, wanted⟩ := careless
    show ¬(w.atPhase c .flushing (w.flush c sends)).Kept
    rw [atPhase_eq flushing]
    cases pending : (w.clients c).pending with
    | nil =>
      rw [pending] at first
      exact absurd first (Option.not_mem_none event)
    | cons head rest =>
      rw [pending, List.head?_cons, Option.mem_some_iff] at first
      subst first
      unfold flush
      rw [pending]
      dsimp only
      rw [Option.isNone_iff_eq_none.mp full]
      dsimp only
      rw [if_pos cancelled]
      exact lost custody due wanted rfl rfl
  | _ => exact absurd trivial careless

/-- **Queued messages are kept in every state of a run exactly if no connection gives one up.** -/
theorem queued_messages_kept_iff (cfg : Config) (events : List RendezvousStep) :
    (∀ before, before <+: events → (run (step cfg) start before).Kept) ↔
      Meets (step cfg) Careful start events :=
  sound_iff_meets Keeping (fun _ s keeping careful => keeping_step keeping s careful)
    (fun _ keeping => keeping.kept) (fun _ s keeping => careless_step keeping.custody s)
    .start events

/-- A member whose registration is not acknowledged takes its messages with it. -/
theorem queued_message_lost :
    ¬(run (step sampleConfig) start (sampleHandover ++ [.confirm 1 false])).Kept := by
  have custody : (run (step sampleConfig) start sampleHandover).Custody :=
    run_invariant Custody (fun _ s custody => custody_step custody s) .start sampleHandover
  rw [run_append]
  exact @careless_step sampleConfig _ custody (.confirm 1 false) (by decide +kernel)

end Broker

end Atterm.Rendezvous
