/-
**Where the signals are.**

A signal that was accepted is in one place: a mailbox, or with one connection, which was sent it or
still is to be. It may also be in none, when a connection has given it up.

* `PeerClient.carried` — the signals that a connection was sent, or is still to be;
* `Broker.Custody`, `custody_step` — every signal is in one place, that of its target.
-/

import Atterm.Foundation.Places
import Atterm.Foundation.Runs
import Atterm.Rendezvous.Broker

namespace Atterm.Rendezvous

open Atterm.Foundation

def EventMessage.signalOf : EventMessage → Option Signal
  | .signal s => some s
  | _ => none

namespace PeerClient

variable (client : PeerClient)

def sent : List Signal := client.queued.filterMap EventMessage.signalOf

def due : List Signal := client.pending.filterMap EventMessage.signalOf

def carried : List Signal := client.sent ++ client.due

/-- What a client becomes without a new signal. -/
structure Follows (new old : PeerClient) : Prop where
  topic : new.topic = old.topic
  presenceID : new.presenceID = old.presenceID
  ready : old.ready = true → new.ready = true
  carried : new.carried.Sublist old.carried

variable {client}

theorem enqueue_eq_some {event : EventMessage} {sends : Bool} {new : PeerClient}
    (queued : client.enqueue event sends = some new) :
    new = { client with send := client.send ++ [event] } := by
  unfold enqueue at queued
  split_ifs at queued
  exact (Option.some.inj queued).symm

theorem enqueue_eq_none {event : EventMessage} {sends : Bool}
    (dropped : client.enqueue event sends = none) :
    clientSendQueueSize ≤ client.send.length ∨ client.cancelled = true := by
  unfold enqueue at dropped
  split_ifs at dropped with full closed
  · exact .inl full
  · exact .inr closed.1

theorem Follows.rfl : client.Follows client := ⟨Eq.refl _, Eq.refl _, id, List.Sublist.refl _⟩

theorem queued_send (event : EventMessage) :
    { client with send := client.send ++ [event] }.queued = client.queued ++ [event] :=
  (List.append_assoc _ _ _).symm

theorem enqueue_follows {event : EventMessage} {sends : Bool} {new : PeerClient}
    (quiet : event.signalOf = none) (queued : client.enqueue event sends = some new) :
    new.Follows client := by
  rw [enqueue_eq_some queued]
  refine ⟨Eq.refl _, Eq.refl _, id, ?_⟩
  rw [carried, sent, queued_send, List.filterMap_append]
  simp [quiet, carried, sent, due]

theorem tell_follows {event : EventMessage} {sends : Bool} (quiet : event.signalOf = none) :
    (client.tell event sends).Follows client := by
  unfold tell
  cases queued : client.enqueue event sends with
  | none => exact .rfl
  | some new => exact enqueue_follows quiet queued

end PeerClient

namespace Broker

variable {cfg : Config} {w : Broker}

@[simp] theorem modify_self (c : ℕ) (change : PeerClient → PeerClient) :
    (w.modify c change).clients c = change (w.clients c) := Function.update_self ..

theorem modify_of_ne {c d : ℕ} (other : d ≠ c) (change : PeerClient → PeerClient) :
    (w.modify c change).clients d = w.clients d := Function.update_of_ne other ..

theorem modify_congr {c : ℕ} {change other : PeerClient → PeerClient}
    (same : change (w.clients c) = other (w.clients c)) : w.modify c change = w.modify c other := by
  unfold modify
  rw [same]

theorem modify_eq_self {c : ℕ} {change : PeerClient → PeerClient}
    (same : change (w.clients c) = w.clients c) : w.modify c change = w := by
  unfold modify
  rw [same, Function.update_eq_self]

theorem modify_modify (c : ℕ) (first second : PeerClient → PeerClient) :
    (w.modify c first).modify c second = w.modify c fun client => second (first client) := by
  unfold modify
  dsimp only
  rw [Function.update_self, Function.update_idem]

theorem peer_eq_some {topic presenceID : String} {c : ℕ} (found : w.peer topic presenceID = some c) :
    c ∈ w.registered ∧ (w.clients c).topic = topic ∧ (w.clients c).presenceID = presenceID := by
  have meets := List.find?_some found
  rw [Bool.and_eq_true, beq_iff_eq, beq_iff_eq] at meets
  exact ⟨List.mem_of_find?_eq_some found, meets⟩

theorem mem_mailbox {topic presenceID : String} {m : MailboxMessage} :
    m ∈ w.mailbox topic presenceID ↔ m ∈ w.mail ∧ m.topic = topic ∧ m.target = presenceID := by
  rw [mailbox, List.mem_filter, Bool.and_eq_true, beq_iff_eq, beq_iff_eq]

theorem signals_missed (c : ℕ) (order : List ℕ) :
    (w.missed c order).filterMap EventMessage.signalOf =
      (w.mailbox (w.clients c).topic (w.clients c).presenceID).map (·.signal) := by
  have online : ∀ news : List ℕ, (news.map fun p => EventMessage.online (w.clients p).presence).filterMap
      EventMessage.signalOf = [] := fun news => by
    rw [List.filterMap_map, List.filterMap_eq_nil_iff]
    intro _ _
    rfl
  have signals : ∀ mail : List MailboxMessage, (mail.map fun m => EventMessage.signal m.signal).filterMap
      EventMessage.signalOf = mail.map (·.signal) := fun mail => by
    rw [List.filterMap_map]
    exact congrFun (List.filterMap_eq_map (f := fun m : MailboxMessage => m.signal)) mail
  rw [missed, List.filterMap_append, online, List.nil_append, signals]

theorem register_cases (c : ℕ) (now : ℤ) :
    (w.register cfg c now).2 = ((w.purgeExpiredLocked now).modify c fun client =>
        { client with phase := .gone }) ∨
      (w.purgeExpiredLocked now).peer (w.clients c).topic (w.clients c).presenceID = none ∧
        (w.register cfg c now).2 = { w.purgeExpiredLocked now with
          registered := w.registered ++ [c] }.modify c fun client =>
            { client with
              existing := ((((w.purgeExpiredLocked now).peers (w.clients c).topic).filter fun p =>
                (w.clients p).ready).map fun p => (w.clients p).presence).mergeSort fun one other =>
                  one.presenceID ≤ other.presenceID
              phase := .activating } := by
  unfold register
  dsimp only
  split_ifs with conflict capacity
  · exact .inl rfl
  · exact .inl rfl
  · exact .inr ⟨Option.not_isSome_iff_eq_none.mp conflict, rfl⟩

theorem activate_cases (c : ℕ) (order : List ℕ) :
    (w.peer (w.clients c).topic (w.clients c).presenceID ≠ some c ∨ (w.clients c).ready = true) ∧
        w.activate c order = (w.modify c fun client => { client with phase := .confirming }) ∨
      w.activate c order = w ∨
      (w.peer (w.clients c).topic (w.clients c).presenceID = some c ∧ (w.clients c).ready = false ∧
        order.Perm (w.readyOthers c) ∧
        w.activate c order = (w.takeMailboxLocked (w.clients c).topic (w.clients c).presenceID).modify c
          fun client =>
            { client with
              ready := true, recipients := order, pending := w.missed c order, phase := .announcing }) := by
  unfold activate
  dsimp only
  split_ifs with idle perm
  · exact .inl ⟨idle, rfl⟩
  · obtain ⟨found, unready⟩ := not_or.mp idle
    exact .inr (.inr ⟨not_not.mp found, Bool.eq_false_of_not_eq_true unready, perm, rfl⟩)
  · exact .inr (.inl rfl)

theorem unregister_cases (c : ℕ) (order : List ℕ) :
    w.peer (w.clients c).topic (w.clients c).presenceID ≠ some c ∧
        w.unregister c order = (w.modify c fun client => { client with phase := .gone }) ∨
      w.unregister c order = w ∨
      (w.peer (w.clients c).topic (w.clients c).presenceID = some c ∧
        ∃ recipients : List ℕ, ((w.clients c).ready = true → recipients.Perm (w.readyOthers c)) ∧
          ((w.clients c).ready = false → recipients = []) ∧
          w.unregister c order = { w with registered := w.registered.erase c }.modify c fun client =>
            { client with recipients := recipients, phase := .departing }) := by
  unfold unregister
  dsimp only
  split_ifs with stranger unready perm
  · exact .inl ⟨stranger, rfl⟩
  · exact .inr (.inr ⟨not_not.mp stranger, [],
      fun ready => absurd (unready.symm.trans ready) Bool.noConfusion, fun _ => rfl, rfl⟩)
  · exact .inr (.inr ⟨not_not.mp stranger, order, fun _ => perm, fun no => absurd no unready, rfl⟩)
  · exact .inr (.inl rfl)

/-- The signal was accepted, from its sender and for the client of the presence id. -/
def Vouched (w : Broker) (topic target : String) (signal : Signal) : Prop :=
  ∃ a, w.accepted[signal.number]? = some a ∧ a.topic = topic ∧ a.target = target ∧
    a.sender = signal.sender ∧ a.messageID = signal.messageID

/-- What the mailboxes and the connections hold. -/
def places (w : Broker) : Option ℕ → List ℕ
  | none => w.mail.map (·.signal.number)
  | some c => (w.clients c).carried.map (·.number)

/-- **Every signal is in one place**, which is that of its target. -/
structure Custody (w : Broker) : Prop where
  mailed : ∀ m ∈ w.mail, w.Vouched m.topic m.target m.signal ∧
    ∃ a, w.accepted[m.signal.number]? = some a ∧ a.expiresAt = m.expiresAt
  held : ∀ c, ∀ s ∈ (w.clients c).carried,
    w.Vouched (w.clients c).topic (w.clients c).presenceID s
  placed : Placed w.places
  unready : ∀ c, (w.clients c).ready = false → (w.clients c).carried = []

theorem getElem?_accepted {accepted : List Accepted} {n : ℕ} {a entry : Accepted}
    (listed : accepted[n]? = some a) : (accepted ++ [entry])[n]? = some a := by
  rw [List.getElem?_append_left (List.getElem?_eq_some_iff.mp listed).1, listed]

theorem Vouched.number_lt {topic target : String} {signal : Signal}
    (vouched : w.Vouched topic target signal) : signal.number < w.accepted.length := by
  obtain ⟨_, listed, _⟩ := vouched
  exact (List.getElem?_eq_some_iff.mp listed).1

theorem Vouched.mono {w' : Broker} {topic target : String} {signal : Signal}
    (vouched : w.Vouched topic target signal)
    (kept : ∀ (n : ℕ) (a : Accepted), w.accepted[n]? = some a → w'.accepted[n]? = some a) :
    w'.Vouched topic target signal := by
  obtain ⟨a, listed, same⟩ := vouched
  exact ⟨a, kept _ _ listed, same⟩

namespace Custody

theorem start : Broker.start.Custody where
  mailed := List.forall_mem_nil _
  held _ := List.forall_mem_nil _
  placed := Placed.empty.shrink fun p => by cases p <;> exact List.Subperm.refl _
  unready _ _ := rfl

theorem fresh (custody : w.Custody) (p : Option ℕ) : w.accepted.length ∉ w.places p := by
  intro listed
  cases p with
  | none =>
    obtain ⟨m, mailed, same⟩ := List.mem_map.mp listed
    exact absurd same (custody.mailed m mailed).1.number_lt.ne
  | some c =>
    obtain ⟨s, held, same⟩ := List.mem_map.mp listed
    exact absurd same (custody.held c s held).number_lt.ne

theorem shrink {w' : Broker} (custody : w.Custody)
    (follows : ∀ c, (w'.clients c).carried = [] ∨ (w'.clients c).Follows (w.clients c))
    (mail : w'.mail.Sublist w.mail) (accepted : w'.accepted = w.accepted) : w'.Custody where
  mailed m listed := by
    have mailed := custody.mailed m (mail.subset listed)
    rwa [Vouched, ← accepted] at mailed
  held c s carried := by
    rcases follows c with empty | follows
    · rw [empty] at carried
      exact absurd carried List.not_mem_nil
    · have held := custody.held c s (follows.carried.subset carried)
      rwa [Vouched, ← accepted, ← follows.topic, ← follows.presenceID] at held
  placed := custody.placed.shrink fun p => by
    cases p with
    | none => exact (mail.map _).subperm
    | some c =>
      show ((w'.clients c).carried.map _).Subperm ((w.clients c).carried.map _)
      rcases follows c with empty | follows
      · rw [empty]
        exact List.nil_subperm
      · exact (follows.carried.map _).subperm
  unready c unready := by
    rcases follows c with empty | follows
    · exact empty
    · have before : (w.clients c).ready = false := by
        by_contra ready
        rw [follows.ready (Bool.eq_true_of_not_eq_false ready)] at unready
        exact Bool.noConfusion unready
      exact List.sublist_nil.mp (custody.unready c before ▸ follows.carried)

theorem registered (custody : w.Custody) (registered : List ℕ) :
    { w with registered := registered }.Custody :=
  custody.shrink (fun _ => .inr .rfl) (List.Sublist.refl _) rfl

theorem modify_or (custody : w.Custody) {c : ℕ} {change : PeerClient → PeerClient}
    (follows : (change (w.clients c)).carried = [] ∨ (change (w.clients c)).Follows (w.clients c)) :
    (w.modify c change).Custody := by
  refine custody.shrink (fun d => ?_) (List.Sublist.refl _) rfl
  by_cases same : d = c
  · subst same
    rwa [modify_self]
  · rw [modify_of_ne same]
    exact .inr .rfl

theorem modify (custody : w.Custody) {c : ℕ} {change : PeerClient → PeerClient}
    (follows : (change (w.clients c)).Follows (w.clients c)) : (w.modify c change).Custody :=
  custody.modify_or (.inr follows)

theorem purge (custody : w.Custody) (now : ℤ) : (w.purgeExpiredLocked now).Custody :=
  custody.shrink (fun _ => .inr .rfl) List.filter_sublist rfl

/-- **The mailbox of a client is handed to it.** -/
theorem handOver (custody : w.Custody) {c : ℕ} (order : List ℕ)
    (unready : (w.clients c).ready = false) :
    ((w.takeMailboxLocked (w.clients c).topic (w.clients c).presenceID).modify c fun client =>
      { client with
        ready := true, recipients := order, pending := w.missed c order,
        phase := .announcing }).Custody := by
  replace unready : (w.clients c).carried = [] := custody.unready c unready
  set topic := (w.clients c).topic with topic_eq
  set presenceID := (w.clients c).presenceID with presenceID_eq
  set change : PeerClient → PeerClient := fun client =>
    { client with
      ready := true, recipients := order, pending := w.missed c order, phase := .announcing }
    with change_eq
  have self : (change (w.clients c)).carried = (w.mailbox topic presenceID).map (·.signal) := by
    show (w.clients c).sent ++ (w.missed c order).filterMap EventMessage.signalOf = _
    rw [(List.append_eq_nil_iff.mp unready).1, List.nil_append, signals_missed]
  set w' := (w.takeMailboxLocked topic presenceID).modify c change with w'_eq
  have others : ∀ d, d ≠ c → w'.clients d = w.clients d := fun d other => modify_of_ne other _
  have held_self : w'.places (some c) = (w.mailbox topic presenceID).map (·.signal.number) := by
    show (w'.clients c).carried.map _ = _
    rw [w'_eq, modify_self]
    show (change (w.clients c)).carried.map _ = _
    rw [self, List.map_map]
    rfl
  refine ⟨fun m listed => custody.mailed m (List.mem_of_mem_filter listed), fun d s carried => ?_, ?_,
    fun d unready => ?_⟩
  · by_cases same : d = c
    · subst same
      rw [w'_eq, modify_self] at carried ⊢
      obtain ⟨m, boxed, rfl⟩ := List.mem_map.mp (self ▸ carried)
      obtain ⟨listed, topic_m, target_m⟩ := mem_mailbox.mp boxed
      have mailed := (custody.mailed m listed).1
      rwa [topic_m, target_m] at mailed
    · rw [others d same] at carried ⊢
      exact custody.held d s carried
  · refine custody.placed.transfer (a := none) (b := some c) nofun ?_ fun p mail own => ?_
    · rw [held_self]
      show List.Subperm ((w.mail.filter _).map _ ++ (w.mail.filter _).map _) _
      rw [← List.map_append]
      refine (((List.perm_append_comm.trans (List.filter_append_perm _ w.mail)).map _).subperm).trans ?_
      exact (List.sublist_append_left _ _).subperm
    · cases p with
      | none => exact absurd rfl mail
      | some d =>
        show (w'.clients d).carried.map _ = (w.clients d).carried.map _
        rw [others d fun same => own (congrArg some same)]
  · by_cases same : d = c
    · subst same
      rw [w'_eq, modify_self] at unready
      exact Bool.noConfusion unready
    · rw [others d same] at unready ⊢
      exact custody.unready d unready

theorem forward (custody : w.Custody) {r : ℕ} {s : Signal} {a : Accepted}
    (ready : (w.clients r).ready = true) (number : s.number = w.accepted.length)
    (topic : a.topic = (w.clients r).topic) (target : a.target = (w.clients r).presenceID)
    (sender : a.sender = s.sender) (messageID : a.messageID = s.messageID) (recent : List RecentMessage) :
    ({ w with recent := recent, accepted := w.accepted ++ [a] }.modify r fun _ =>
      { w.clients r with
        send := (w.clients r).send ++ [EventMessage.signal s] }).Custody := by
  set new : PeerClient := { w.clients r with send := (w.clients r).send ++ [.signal s] } with new_eq
  set w' : Broker := { w with recent := recent, accepted := w.accepted ++ [a] }.modify r fun _ => new
    with w'_eq
  have kept : ∀ (n : ℕ) (b : Accepted), w.accepted[n]? = some b → w'.accepted[n]? = some b :=
    fun _ _ => getElem?_accepted
  have others : ∀ d, d ≠ r → w'.clients d = w.clients d := fun d other => modify_of_ne other _
  have self : w'.clients r = new := modify_self ..
  have sent : new.carried = (w.clients r).sent ++ s :: (w.clients r).due := by
    rw [PeerClient.carried, PeerClient.sent, new_eq, PeerClient.queued_send, List.filterMap_append,
      List.append_assoc]
    rfl
  refine ⟨fun m listed => ?_, fun c t carried => ?_, ?_, fun c unready => ?_⟩
  · obtain ⟨vouched, b, same, expiresAt⟩ := custody.mailed m listed
    exact ⟨vouched.mono kept, b, kept _ _ same, expiresAt⟩
  · by_cases same : c = r
    · subst same
      rw [self] at carried ⊢
      rw [sent, List.mem_append, List.mem_cons] at carried
      have old : t ∈ (w.clients c).carried → w'.Vouched new.topic new.presenceID t :=
        fun held => (custody.held c t held).mono kept
      rcases carried with held | rfl | held
      · exact old (List.mem_append_left _ held)
      · refine ⟨a, ?_, topic, target, sender, messageID⟩
        rw [number]
        exact List.getElem?_concat_length
      · exact old (List.mem_append_right _ held)
    · rw [others c same] at carried ⊢
      exact (custody.held c t carried).mono kept
  · refine custody.placed.deposit (a := some r) custody.fresh ?_ fun p other => ?_
    · show ((w'.clients r).carried.map (·.number)).Perm (_ :: (w.clients r).carried.map (·.number))
      rw [self, sent, ← number, PeerClient.carried]
      exact List.Perm.map Signal.number List.perm_middle
    · cases p with
      | none => rfl
      | some c =>
        show (w'.clients c).carried.map _ = (w.clients c).carried.map _
        rw [others c fun same => other (congrArg some same)]
  · by_cases same : c = r
    · subst same
      rw [self] at unready
      exact absurd (ready.symm.trans unready) Bool.noConfusion
    · rw [others c same] at unready ⊢
      exact custody.unready c unready

theorem store (custody : w.Custody) {m : MailboxMessage} {a : Accepted}
    (number : m.signal.number = w.accepted.length) (topic : a.topic = m.topic)
    (target : a.target = m.target) (sender : a.sender = m.signal.sender)
    (messageID : a.messageID = m.signal.messageID) (expiresAt : a.expiresAt = m.expiresAt)
    (recent : List RecentMessage) :
    ({ w with recent := recent, accepted := w.accepted ++ [a] }.store m).Custody := by
  have kept : ∀ (n : ℕ) (b : Accepted), w.accepted[n]? = some b →
      (w.accepted ++ [a])[n]? = some b := fun _ _ => getElem?_accepted
  have self : (w.accepted ++ [a])[m.signal.number]? = some a := by
    rw [number]
    exact List.getElem?_concat_length
  refine ⟨fun other listed => ?_, fun c s carried => (custody.held c s carried).mono kept, ?_,
    custody.unready⟩
  · rcases List.mem_append.mp listed with old | new
    · obtain ⟨vouched, b, same, expires⟩ := custody.mailed other old
      exact ⟨vouched.mono kept, b, kept _ _ same, expires⟩
    · cases List.mem_singleton.mp new
      exact ⟨⟨a, self, topic, target, sender, messageID⟩, a, self, expiresAt⟩
  · refine custody.placed.deposit (a := none) custody.fresh ?_ fun p other => ?_
    · show ((w.mail ++ [m]).map (·.signal.number)).Perm (_ :: w.mail.map (·.signal.number))
      rw [List.map_append, ← number]
      exact List.perm_append_singleton _ _
    · cases p with
      | none => exact absurd rfl other
      | some c => rfl

end Custody

/-- **What a publish comes to**: nothing, a signal that is queued at once, or one that is stored. -/
inductive Outcome (cfg : Config) (w : Broker) (sender : PeerClient) (message : PublishMessage)
    (now : ℤ) (sends : Bool) : Broker → Prop
  | refused : Outcome cfg w sender message now sends w
  | purged : Outcome cfg w sender message now sends (w.purgeExpiredLocked now)
  | forwarded {p : Broker} (purged : p = w.purgeExpiredLocked now)
      (fresh : ∀ r ∈ p.recent, ¬(r.topic = sender.topic ∧ r.sender = sender.presenceID ∧
        r.messageID = message.messageID))
      (valid : validatePublish sender.presenceID message = .ok ())
      (spare : p.recent.length < cfg.maxRecentMessages)
      (r : ℕ) (found : p.peer sender.topic message.target = some r)
      (ready : (p.clients r).ready = true)
      (room : ((p.clients r).enqueue (.signal (p.signalOf sender message now)) sends).isSome) :
      Outcome cfg w sender message now sends
        ((p.accept sender message .delivered (now + cfg.mailboxTTL)).modify r fun _ =>
          { p.clients r with
            send := (p.clients r).send ++ [.signal (p.signalOf sender message now)] })
  | stored {p : Broker} (purged : p = w.purgeExpiredLocked now)
      (fresh : ∀ r ∈ p.recent, ¬(r.topic = sender.topic ∧ r.sender = sender.presenceID ∧
        r.messageID = message.messageID)) :
      Outcome cfg w sender message now sends
        ((p.accept sender message .queued (now + cfg.mailboxTTL)).store
          ⟨sender.topic, message.target, p.signalOf sender message now, now + cfg.mailboxTTL⟩)

theorem Outcome.phase {sender : PeerClient} {message : PublishMessage} {now : ℤ}
    {sends : Bool} {w' : Broker}
    (outcome : Outcome cfg w sender message now sends w') (c : ℕ) :
    (w'.clients c).phase = (w.clients c).phase := by
  cases outcome with
  | refused => rfl
  | purged => rfl
  | forwarded purged fresh valid spare r found ready room =>
    subst purged
    by_cases same : c = r
    · subst same
      rw [modify_self]
      rfl
    · rw [modify_of_ne same]
      rfl
  | stored purged fresh => exact purged ▸ rfl

theorem live_eq_some {topic target : String} {s : Signal} {sends : Bool} {r : ℕ} {new : PeerClient}
    (taken : w.live topic target s sends = some (r, new)) :
    w.peer topic target = some r ∧ (w.clients r).ready = true ∧
      ((w.clients r).enqueue (.signal s) sends).isSome ∧
      new = { w.clients r with send := (w.clients r).send ++ [.signal s] } := by
  unfold live at taken
  cases found : w.peer topic target with
  | none =>
    rw [found] at taken
    simp at taken
  | some recipient =>
    rw [found] at taken
    by_cases ready : (w.clients recipient).ready = true
    · cases queued : (w.clients recipient).enqueue (.signal s) sends with
      | none => simp [ready, queued] at taken
      | some client =>
        simp only [Option.bind_eq_bind, Option.bind_some, ready, if_true, queued,
          Option.pure_def, Option.some.injEq, Prod.mk.injEq] at taken
        obtain ⟨rfl, rfl⟩ := taken
        exact ⟨rfl, ready, queued ▸ rfl, PeerClient.enqueue_eq_some queued⟩
    · simp [ready] at taken

theorem publish_outcome (sender : PeerClient) (message : PublishMessage) (now : ℤ) (sends : Bool) :
    Outcome cfg w sender message now sends (w.publish cfg sender message now sends).2 := by
  unfold publish
  cases valid : validatePublish sender.presenceID message with
  | error code => exact .refused
  | ok _ =>
    dsimp only
    set p := w.purgeExpiredLocked now with purged
    cases known : p.recent.find? fun r => r.topic == sender.topic && r.sender == sender.presenceID &&
        r.messageID == message.messageID with
    | some recent => exact .purged
    | none =>
      have fresh : ∀ r ∈ p.recent, ¬(r.topic = sender.topic ∧ r.sender = sender.presenceID ∧
          r.messageID = message.messageID) := fun r listed same => by
        refine List.find?_eq_none.mp known r listed ?_
        rw [Bool.and_eq_true, Bool.and_eq_true, beq_iff_eq, beq_iff_eq, beq_iff_eq, and_assoc]
        exact same
      dsimp only
      by_cases full : cfg.maxRecentMessages ≤ p.recent.length
      · rw [if_pos full]
        exact .purged
      · rw [if_neg full]
        cases taken : p.live sender.topic message.target (p.signalOf sender message now) sends with
        | some found =>
          obtain ⟨r, new⟩ := found
          obtain ⟨found, ready, room, rfl⟩ := live_eq_some taken
          exact .forwarded purged fresh valid (not_le.mp full) r found ready room
        | none =>
          dsimp only
          split_ifs with capacity
          · exact .purged
          · exact .stored purged fresh

namespace Custody

theorem publish (custody : w.Custody) {sender : PeerClient} {message : PublishMessage} {now : ℤ}
    {sends : Bool} {w' : Broker} (outcome : Outcome cfg w sender message now sends w') : w'.Custody := by
  cases outcome with
  | refused => exact custody
  | purged => exact custody.purge now
  | forwarded purged fresh valid spare r found ready room =>
    subst purged
    obtain ⟨-, topic, target⟩ := peer_eq_some found
    exact (custody.purge now).forward ready rfl topic.symm target.symm rfl rfl _
  | stored purged fresh =>
    subst purged
    exact (custody.purge now).store rfl rfl rfl rfl rfl rfl _

end Custody

theorem giveUp_follows (client : PeerClient) (cancelled : Bool) (phase : Phase) :
    { client with cancelled := cancelled, pending := [], phase := phase }.Follows client where
  topic := rfl
  presenceID := rfl
  ready := id
  carried := by
    show ((client.queued.filterMap _) ++ []).Sublist _
    rw [List.append_nil]
    exact List.sublist_append_left _ _

theorem flush_carried {client : PeerClient} {event : EventMessage} {rest : List EventMessage}
    (first : client.pending = event :: rest) :
    { client with send := client.send ++ [event], pending := rest }.carried = client.carried := by
  show ((client.written ++ (client.send ++ [event])).filterMap _) ++ rest.filterMap _ = _
  rw [← List.filterMap_append, PeerClient.carried, PeerClient.sent, PeerClient.due, first,
    ← List.filterMap_append, PeerClient.queued]
  simp only [List.append_assoc, List.singleton_append]

theorem write_queued (client : PeerClient) :
    { client with
      written := client.written ++ client.send.take 1, send := client.send.drop 1 }.queued =
        client.queued := by
  show (client.written ++ client.send.take 1) ++ client.send.drop 1 = client.written ++ client.send
  rw [List.append_assoc, List.take_append_drop]

theorem write_carried (client : PeerClient) :
    { client with
      written := client.written ++ client.send.take 1, send := client.send.drop 1 }.carried =
        client.carried := by
  rw [PeerClient.carried, PeerClient.sent, write_queued]
  rfl

theorem published_quiet (messageID : String) (result : Except String DeliveryState) :
    (published messageID result).signalOf = none := by
  cases result <;> rfl

theorem atPhase_eq {c : ℕ} {phase : Phase} {next : Broker} (at_phase : (w.clients c).phase = phase) :
    w.atPhase c phase next = next := if_pos at_phase

theorem atPhase_of {property : Broker → Prop} {c : ℕ} {phase : Phase} {next : Broker}
    (before : property w) (after : (w.clients c).phase = phase → property next) :
    property (w.atPhase c phase next) := by
  unfold atPhase
  split_ifs with at_phase
  · exact after at_phase
  · exact before

/-- A property that no step changes unless it brings a new signal or empties a mailbox. -/
structure Preserved (property : Broker → Prop) : Prop where
  modify : ∀ {w : Broker} (c : ℕ) (change : PeerClient → PeerClient), property w →
    ((change (w.clients c)).carried = [] ∨ (change (w.clients c)).Follows (w.clients c)) →
      property (w.modify c change)
  registered : ∀ {w : Broker} (registered : List ℕ), property w →
    property { w with registered := registered }
  purge : ∀ {w : Broker} (now : ℤ), property w → property (w.purgeExpiredLocked now)

namespace Preserved

variable {property : Broker → Prop} (rule : Preserved property)
include rule

theorem answer (before : property w) (c : ℕ) {event : EventMessage} (quiet : event.signalOf = none)
    (sends : Bool) : property (w.answer c event sends) := by
  refine rule.modify c _ before (.inr ?_)
  cases queued : (w.clients c).enqueue event sends with
  | none => exact ⟨rfl, rfl, id, List.Sublist.refl _⟩
  | some new => exact PeerClient.enqueue_follows quiet queued

theorem tellNext (before : property w) (c : ℕ) {event : EventMessage} (quiet : event.signalOf = none)
    (sends : Bool) (after : Phase) : property (w.tellNext c event sends after) := by
  unfold Broker.tellNext
  cases (w.clients c).recipients with
  | nil => exact rule.modify c _ before (.inr ⟨rfl, rfl, id, List.Sublist.refl _⟩)
  | cons r rest =>
    refine rule.modify c _ (rule.modify r _ before (.inr (PeerClient.tell_follows quiet))) (.inr ?_)
    exact ⟨rfl, rfl, id, List.Sublist.refl _⟩

theorem register (before : property w) (c : ℕ) (now : ℤ) : property (w.register cfg c now).2 := by
  have purged := rule.purge now before
  rcases w.register_cases c now with same | ⟨-, same⟩ <;> rw [same]
  · exact rule.modify c _ purged (.inr ⟨rfl, rfl, id, List.Sublist.refl _⟩)
  · exact rule.modify c _ (rule.registered _ purged) (.inr ⟨rfl, rfl, id, List.Sublist.refl _⟩)

theorem unregister (before : property w) (c : ℕ) (order : List ℕ) :
    property (w.unregister c order) := by
  rcases w.unregister_cases c order with ⟨-, same⟩ | same | ⟨-, recipients, -, -, same⟩ <;> rw [same]
  · exact rule.modify c _ before (.inr ⟨rfl, rfl, id, List.Sublist.refl _⟩)
  · exact before
  · exact rule.modify c _ (rule.registered _ before) (.inr ⟨rfl, rfl, id, List.Sublist.refl _⟩)

theorem confirm (before : property w) (c : ℕ) (works : Bool) : property (w.confirm c works) := by
  refine rule.modify c _ before (.inr ?_)
  cases works with
  | true => exact ⟨rfl, rfl, id, List.Sublist.refl _⟩
  | false => exact giveUp_follows _ _ _

theorem flush (before : property w) (c : ℕ) (sends : Bool) : property (w.flush c sends) := by
  unfold Broker.flush
  cases first : (w.clients c).pending with
  | nil => exact rule.modify c _ before (.inr ⟨rfl, rfl, id, List.Sublist.refl _⟩)
  | cons event rest =>
    dsimp only
    cases queued : (w.clients c).enqueue event sends with
    | some new =>
      refine rule.modify c _ before (.inr ?_)
      rw [PeerClient.enqueue_eq_some queued]
      refine ⟨rfl, rfl, id, ?_⟩
      rw [flush_carried first]
    | none =>
      dsimp only
      split_ifs
      · exact rule.modify c _ before (.inr (giveUp_follows _ _ _))
      · exact before

theorem activate (before : property w) (c : ℕ) (order : List ℕ)
    (handOver : (w.clients c).ready = false → order.Perm (w.readyOthers c) →
      property ((w.takeMailboxLocked (w.clients c).topic (w.clients c).presenceID).modify c
        fun client => { client with
          ready := true, recipients := order, pending := w.missed c order, phase := .announcing })) :
    property (w.activate c order) := by
  rcases w.activate_cases c order with ⟨-, same⟩ | same | ⟨-, unready, perm, same⟩ <;> rw [same]
  · exact rule.modify c _ before (.inr ⟨rfl, rfl, id, List.Sublist.refl _⟩)
  · exact before
  · exact handOver unready perm

/-- **What only a handover and a publish can change.** -/
theorem step (before : property w) (s : RendezvousStep)
    (handOver : ∀ c order, s = .activate c order → (w.clients c).ready = false →
      property ((w.takeMailboxLocked (w.clients c).topic (w.clients c).presenceID).modify c
        fun client => { client with
          ready := true, recipients := order, pending := w.missed c order, phase := .announcing }))
    (publish : ∀ c message now sends answers w', s = .publish c message now sends answers →
      (w.clients c).phase = .serving → Outcome cfg w (w.clients c) message now sends w' →
        property w') : property (w.step cfg s) := by
  cases s with
  | connect => exact atPhase_of before fun _ => rule.modify _ _ before (.inl rfl)
  | register => exact atPhase_of before fun _ => rule.register before _ _
  | activate c order =>
    exact atPhase_of before fun _ => rule.activate before c order fun unready _ =>
      handOver c order rfl unready
  | announce => exact atPhase_of before fun _ => rule.tellNext before _ rfl _ _
  | confirm => exact atPhase_of before fun _ => rule.confirm before _ _
  | flush => exact atPhase_of before fun _ => rule.flush before _ _
  | publish c message now sends answers =>
    refine atPhase_of before fun serving => rule.answer ?_ c (published_quiet _ _) answers
    exact publish c message now sends answers _ rfl serving (publish_outcome _ _ _ _)
  | refuse => exact atPhase_of before fun _ => rule.answer before _ rfl _
  | hangUp =>
    refine atPhase_of before fun _ => rule.modify _ _ before (.inr ?_)
    exact ⟨rfl, rfl, id, List.Sublist.refl _⟩
  | unregister => exact atPhase_of before fun _ => rule.unregister before _ _
  | depart => exact atPhase_of before fun _ => rule.tellNext before _ rfl _ _
  | write c =>
    unfold Broker.step
    dsimp only
    split_ifs
    · exact before
    · refine rule.modify c _ before (.inr ⟨rfl, rfl, id, ?_⟩)
      rw [write_carried]
  | cancel c =>
    refine rule.modify c (fun client => { client with cancelled := true }) before (.inr ?_)
    exact ⟨rfl, rfl, id, List.Sublist.refl _⟩
  | purge now => exact rule.purge now before

end Preserved

theorem Custody.preserved : Preserved Custody where
  modify _ _ custody follows := custody.modify_or follows
  registered registered custody := custody.registered registered
  purge now custody := custody.purge now

/-- **Every step keeps every signal in one place.** -/
theorem custody_step (custody : w.Custody) (s : RendezvousStep) : (w.step cfg s).Custody :=
  Custody.preserved.step custody s (fun _ order _ unready => custody.handOver order unready)
    fun _ _ _ _ _ _ _ _ outcome => custody.publish outcome

def sampleConfig : Config := ⟨600, 8, 64, 1024, 1024⟩

def sampleHost : String := "AAAAAAAAAAAAAAAAAAAAAAAAAAAAAAAAAAAAAAAAAAA"

def sampleMember : String := "BAAAAAAAAAAAAAAAAAAAAAAAAAAAAAAAAAAAAAAAAAA"

def sampleMessage (messageID : String) : PublishMessage :=
  ⟨1, "publish", messageID, sampleMember, "AAAA"⟩

/-- A host queues a message for a member, and the member registers and is activated. -/
def sampleHandover : List RendezvousStep :=
  [.connect 0 "topic" sampleHost .host, .register 0 0, .activate 0 [], .announce 0 true,
    .confirm 0 true, .flush 0 true, .publish 0 (sampleMessage "AAAAAAAAAAAAAAAAAAAAAA") 0 true true,
    .connect 1 "topic" sampleMember .member, .register 1 1, .activate 1 [0], .announce 1 true,
    .announce 1 true]

end Broker

end Atterm.Rendezvous
