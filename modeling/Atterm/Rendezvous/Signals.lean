/-
**Signals arrive once, and in order.**

Every accepted signal is put into one send queue at most, once, and a message id is accepted again only
when the first signal of that id has expired. The signals of one sender reach a connection in the order
in which they were accepted, as long as none overtakes those that the connection has taken from its
mailbox and still holds back.

* `Broker.Once`, `Broker.InOrder` — what the send queues hold;
* `Broker.Overtakes` — a publish reaches a connection that holds a signal of the sender back;
* `signals_arrive` — once in every run, and in order in a run where nothing overtakes.
-/

import Atterm.Rendezvous.Custody

namespace Atterm.Rendezvous

open Atterm.Foundation

def numbers (sender : String) (signals : List Signal) : List ℕ :=
  (signals.filter fun s => s.sender == sender).map (·.number)

@[simp] theorem numbers_append (sender : String) (one other : List Signal) :
    numbers sender (one ++ other) = numbers sender one ++ numbers sender other := by
  rw [numbers, List.filter_append, List.map_append]
  rfl

theorem numbers_sublist (sender : String) {one other : List Signal} (sub : one.Sublist other) :
    (numbers sender one).Sublist (numbers sender other) := (sub.filter _).map _

theorem numbers_sublist_map (sender : String) (signals : List Signal) :
    (numbers sender signals).Sublist (signals.map (·.number)) := List.filter_sublist.map _

namespace Broker

variable {cfg : Config} {w : Broker}

/-- A message id of a sender is accepted again only when the time to live of the first has passed. -/
def RetriesLate (w : Broker) : Prop :=
  ∀ (i j : ℕ) (a b : Accepted), i < j → w.accepted[i]? = some a → w.accepted[j]? = some b →
    a.topic = b.topic → a.sender = b.sender → a.messageID = b.messageID → a.expiresAt ≤ b.clock

/-- **No signal is put into a send queue twice**, or into two of them, or into that of another client
than its target; and a message id is accepted again only after its time to live. -/
structure Once (w : Broker) : Prop where
  vouched : ∀ c, ∀ s ∈ (w.clients c).sent, w.Vouched (w.clients c).topic (w.clients c).presenceID s
  once : ∀ c, ((w.clients c).sent.map (·.number)).Nodup
  apart : ∀ c d, c ≠ d → ∀ s ∈ (w.clients c).sent, ∀ t ∈ (w.clients d).sent, s.number ≠ t.number
  retries : w.RetriesLate

/-- **The signals of each sender are in each send queue in the order in which they were accepted.** -/
def InOrder (w : Broker) : Prop :=
  ∀ c sender, (numbers sender (w.clients c).sent).Pairwise (· < ·)

/-- What was accepted and has not expired is remembered. -/
structure Remembered (w : Broker) : Prop where
  recent : ∀ a ∈ w.accepted, w.clock < a.expiresAt → ∃ r ∈ w.recent, r.topic = a.topic ∧
    r.sender = a.sender ∧ r.messageID = a.messageID ∧ r.expiresAt = a.expiresAt
  retries : w.RetriesLate

namespace Remembered

theorem start : Broker.start.Remembered where
  recent := List.forall_mem_nil _
  retries := fun _ _ _ _ _ listed => nomatch listed

theorem congr {w' : Broker} (remembered : w.Remembered) (recent : w'.recent = w.recent)
    (clock : w'.clock = w.clock) (accepted : w'.accepted = w.accepted) : w'.Remembered where
  recent := by
    rw [recent, clock, accepted]
    exact remembered.recent
  retries := by
    rw [RetriesLate, accepted]
    exact remembered.retries

theorem purge (remembered : w.Remembered) (now : ℤ) : (w.purgeExpiredLocked now).Remembered where
  recent a listed unexpired := by
    obtain ⟨r, known, topic, sender, messageID, expiresAt⟩ :=
      remembered.recent a listed ((le_max_left _ _).trans_lt unexpired)
    refine ⟨r, List.mem_filter.mpr ⟨known, decide_eq_true ?_⟩, topic, sender, messageID, expiresAt⟩
    exact expiresAt ▸ (le_max_right _ _).trans_lt unexpired
  retries := remembered.retries

theorem preserved : Preserved Remembered where
  modify _ _ remembered _ := remembered.congr rfl rfl rfl
  registered _ remembered := remembered.congr rfl rfl rfl
  purge now remembered := remembered.purge now

/-- **A message id that is accepted is not remembered**, so that the earlier ones have expired. -/
theorem accept (remembered : w.Remembered) {sender : PeerClient} {message : PublishMessage}
    (fresh : ∀ r ∈ w.recent, ¬(r.topic = sender.topic ∧ r.sender = sender.presenceID ∧
      r.messageID = message.messageID)) (state : DeliveryState) (expiresAt : ℤ) :
    (w.accept sender message state expiresAt).Remembered where
  recent a listed unexpired := by
    rcases List.mem_append.mp listed with old | new
    · obtain ⟨r, known, same⟩ := remembered.recent a old unexpired
      exact ⟨r, List.mem_append_left _ known, same⟩
    · cases List.mem_singleton.mp new
      exact ⟨_, List.mem_append_right _ (List.mem_singleton_self _), rfl, rfl, rfl, rfl⟩
  retries := fun i j a b before one two topic from_sender messageID => by
    have bound : j < w.accepted.length + 1 := by
      have bound := (List.getElem?_eq_some_iff.mp two).1
      rwa [Broker.accept, List.length_append] at bound
    have earlier : (w.accept sender message state expiresAt).accepted[i]? = w.accepted[i]? :=
      List.getElem?_append_left (by omega)
    rw [earlier] at one
    by_cases old : j < w.accepted.length
    · have later : (w.accept sender message state expiresAt).accepted[j]? = w.accepted[j]? :=
        List.getElem?_append_left old
      rw [later] at two
      exact remembered.retries i j a b before one two topic from_sender messageID
    · obtain rfl : j = w.accepted.length := by omega
      have last : (w.accept sender message state expiresAt).accepted[w.accepted.length]? = some _ :=
        List.getElem?_concat_length
      rw [last, Option.some.injEq] at two
      subst two
      by_contra unexpired
      obtain ⟨r, known, topic', sender', messageID', -⟩ :=
        remembered.recent a (List.mem_of_getElem? one) (not_le.mp unexpired)
      exact fresh r known
        ⟨topic'.trans topic, sender'.trans from_sender, messageID'.trans messageID⟩

theorem publish (remembered : w.Remembered) {sender : PeerClient} {message : PublishMessage} {now : ℤ}
    {sends : Bool} {w' : Broker} (outcome : Outcome cfg w sender message now sends w') :
    w'.Remembered := by
  have purged := remembered.purge now
  cases outcome with
  | refused => exact remembered
  | purged => exact purged
  | forwarded same fresh =>
    subst same
    exact (purged.accept fresh _ _).congr rfl rfl rfl
  | stored same fresh =>
    subst same
    exact (purged.accept fresh _ _).congr rfl rfl rfl

end Remembered

theorem remembered_step (remembered : w.Remembered) (s : RendezvousStep) :
    (w.step cfg s).Remembered :=
  Remembered.preserved.step remembered s (fun _ _ _ _ => remembered.congr rfl rfl rfl)
    fun _ _ _ _ _ _ _ _ outcome => remembered.publish outcome

/-- Mailboxes and connections hold the signals of each sender in order. -/
structure Ordered (w : Broker) : Prop where
  custody : w.Custody
  mailed : (w.mail.map (·.signal.number)).Pairwise (· < ·)
  carried : ∀ c sender, (numbers sender (w.clients c).carried).Pairwise (· < ·)

/-- **A publish goes to the send queue of a client that holds a signal of the same sender back.** -/
def Overtakes (cfg : Config) (w : Broker) (sender : PeerClient) (message : PublishMessage) (now : ℤ)
    (sends : Bool) : Prop :=
  let p := w.purgeExpiredLocked now
  validatePublish sender.presenceID message = .ok () ∧
    (∀ r ∈ p.recent, ¬(r.topic = sender.topic ∧ r.sender = sender.presenceID ∧
      r.messageID = message.messageID)) ∧
    p.recent.length < cfg.maxRecentMessages ∧
    ∃ r ∈ p.peer sender.topic message.target, (p.clients r).ready = true ∧
      ((p.clients r).enqueue (.signal (p.signalOf sender message now)) sends).isSome ∧
      ∃ s ∈ (p.clients r).due, s.sender = sender.presenceID

/-- **No signal overtakes another one of its sender.** -/
def Patient (cfg : Config) (w : Broker) : RendezvousStep → Prop
  | .publish c message now sends _ => (w.clients c).phase = .serving →
      ¬w.Overtakes cfg (w.clients c) message now sends
  | _ => True

instance (w : Broker) (sender : PeerClient) (message : PublishMessage) (now : ℤ) (sends : Bool) :
    Decidable (w.Overtakes cfg sender message now sends) := by
  unfold Overtakes
  infer_instance

instance (w : Broker) : (s : RendezvousStep) → Decidable (w.Patient cfg s)
  | .publish c message now sends _ => inferInstanceAs (Decidable ((w.clients c).phase = .serving →
      ¬w.Overtakes cfg (w.clients c) message now sends))
  | .connect _ _ _ _ | .register _ _ | .activate _ _ | .announce _ _ | .confirm _ _ | .flush _ _
  | .refuse _ _ _ _ | .hangUp _ | .unregister _ _ | .depart _ _ | .write _ | .cancel _ | .purge _ =>
    inferInstanceAs (Decidable True)

namespace Ordered

theorem start : Broker.start.Ordered where
  custody := .start
  mailed := .nil
  carried _ _ := .nil

theorem preserved : Preserved Ordered where
  modify c change ordered follows :=
    { custody := ordered.custody.modify_or follows
      mailed := ordered.mailed
      carried := fun d sender => by
        by_cases same : d = c
        · subst same
          rw [modify_self]
          rcases follows with empty | follows
          · rw [empty]
            exact .nil
          · exact (ordered.carried d sender).sublist (numbers_sublist sender follows.carried)
        · rw [modify_of_ne same]
          exact ordered.carried d sender }
  registered registered ordered := ⟨ordered.custody.registered registered, ordered.mailed, ordered.carried⟩
  purge now ordered := ⟨ordered.custody.purge now, ordered.mailed.sublist (List.filter_sublist.map _),
    ordered.carried⟩

/-- **A mailbox is handed over in order.** -/
theorem handOver (ordered : w.Ordered) {c : ℕ} (order : List ℕ)
    (unready : (w.clients c).ready = false) :
    ((w.takeMailboxLocked (w.clients c).topic (w.clients c).presenceID).modify c fun client =>
      { client with
        ready := true, recipients := order, pending := w.missed c order,
        phase := .announcing }).Ordered := by
  refine ⟨ordered.custody.handOver order unready, ordered.mailed.sublist (List.filter_sublist.map _),
    fun d sender => ?_⟩
  by_cases same : d = c
  · subst same
    rw [modify_self]
    show (numbers sender ((w.clients d).sent ++
      (w.missed d order).filterMap EventMessage.signalOf)).Pairwise _
    rw [(List.append_eq_nil_iff.mp (ordered.custody.unready d unready)).1, List.nil_append,
      signals_missed]
    refine List.Pairwise.sublist (numbers_sublist_map _ _) ?_
    rw [List.map_map]
    exact ordered.mailed.sublist (List.filter_sublist.map _)
  · rw [modify_of_ne same]
    exact ordered.carried d sender

theorem forward (ordered : w.Ordered) {r : ℕ} {s : Signal} (number : s.number = w.accepted.length)
    (patient : ∀ t ∈ (w.clients r).due, t.sender ≠ s.sender) (recent : List RecentMessage)
    {a : Accepted} (custody : ({ w with recent := recent, accepted := w.accepted ++ [a] }.modify r
      fun _ => { w.clients r with
        send := (w.clients r).send ++ [EventMessage.signal s] }).Custody) :
    ({ w with recent := recent, accepted := w.accepted ++ [a] }.modify r fun _ => { w.clients r with
      send := (w.clients r).send ++ [EventMessage.signal s] }).Ordered := by
  refine ⟨custody, ordered.mailed, fun c sender => ?_⟩
  by_cases same : c = r
  · subst same
    rw [modify_self]
    show (numbers sender (({ w.clients c with
      send := (w.clients c).send ++ [EventMessage.signal s] } : PeerClient).sent ++
        (w.clients c).due)).Pairwise _
    have before := ordered.carried c sender
    rw [PeerClient.carried, numbers_append] at before
    rw [PeerClient.sent, PeerClient.queued_send, List.filterMap_append, numbers_append, numbers_append]
    by_cases own : s.sender = sender
    · have none : numbers sender (w.clients c).due = [] := by
        rw [numbers, List.map_eq_nil_iff, List.filter_eq_nil_iff]
        intro t held equal
        exact patient t held ((beq_iff_eq.mp equal).trans own.symm)
      rw [none, List.append_nil] at before ⊢
      refine List.pairwise_append.mpr ⟨before, ?_, fun one listed two last => ?_⟩
      · exact List.Pairwise.sublist (numbers_sublist_map _ _) (List.pairwise_singleton _ _)
      · obtain ⟨t, held, rfl⟩ := List.mem_map.mp listed
        have small := (ordered.custody.held c t
          (List.mem_append_left _ (List.mem_of_mem_filter held))).number_lt
        have large := List.mem_singleton.mp ((numbers_sublist_map sender [s]).subset last)
        exact (large.trans number).symm ▸ small
    · have none : numbers sender [s] = [] := by
        rw [numbers, List.map_eq_nil_iff, List.filter_eq_nil_iff]
        intro t listed equal
        exact own (List.mem_singleton.mp listed ▸ beq_iff_eq.mp equal)
      show (numbers sender (w.clients c).sent ++ numbers sender [s] ++ _).Pairwise _
      rw [none, List.append_nil]
      exact before
  · rw [modify_of_ne same]
    exact ordered.carried c sender

theorem publish (ordered : w.Ordered) {sender : PeerClient} {message : PublishMessage} {now : ℤ}
    {sends : Bool} {w' : Broker} (outcome : Outcome cfg w sender message now sends w')
    (patient : ¬w.Overtakes cfg sender message now sends) : w'.Ordered := by
  have custody := ordered.custody.publish outcome
  have purged := preserved.purge now ordered
  cases outcome with
  | refused => exact ordered
  | purged => exact purged
  | forwarded same fresh valid spare r found ready room =>
    subst same
    refine purged.forward rfl (fun t held equal => patient ?_) _ custody
    exact ⟨valid, fresh, spare, r, found, ready, room, t, held, equal⟩
  | stored same fresh =>
    subst same
    refine ⟨custody, ?_, purged.carried⟩
    show (((w.purgeExpiredLocked now).mail ++ [_]).map _).Pairwise _
    rw [List.map_append]
    refine List.pairwise_append.mpr
      ⟨purged.mailed, List.pairwise_singleton _ _, fun one listed two last => ?_⟩
    obtain ⟨m, mailed, rfl⟩ := List.mem_map.mp listed
    rw [List.mem_singleton.mp last]
    exact (purged.custody.mailed m mailed).1.number_lt

end Ordered

theorem ordered_step (ordered : w.Ordered) (s : RendezvousStep) (patient : w.Patient cfg s) :
    (w.step cfg s).Ordered :=
  Ordered.preserved.step ordered s (fun _ order _ unready => ordered.handOver order unready)
    fun _ _ _ _ _ _ same serving outcome => by
      subst same
      exact ordered.publish outcome (patient serving)

theorem once_of (custody : w.Custody) (remembered : w.Remembered) : w.Once where
  vouched c s sent := custody.held c s (List.mem_append_left _ sent)
  once c := (custody.placed.once (some c)).sublist ((List.sublist_append_left _ _).map _)
  apart c d other s one t two same := by
    have place := custody.placed.eq_of_mem (p := some c) (q := some d)
      (List.mem_map_of_mem (List.mem_append_left _ one))
      (same ▸ List.mem_map_of_mem (List.mem_append_left _ two))
    exact other (Option.some.inj place)
  retries := remembered.retries

/-- **Signals arrive once; and in order, in a run in which none overtakes another one.** -/
theorem signals_arrive (cfg : Config) (events : List RendezvousStep) :
    (run (step cfg) start events).Once ∧
      (Meets (step cfg) (Patient cfg) start events → (run (step cfg) start events).InOrder) := by
  constructor
  · exact once_of (run_invariant Custody (fun _ s custody => custody_step custody s) .start events)
      (run_invariant Remembered (fun _ s remembered => remembered_step remembered s) .start events)
  · intro patient c sender
    have ordered : (run (step cfg) start events).Ordered :=
      run_invariant_of_meets Ordered (fun _ s ordered patient => ordered_step ordered s patient)
        .start patient
    exact (ordered.carried c sender).sublist
      (numbers_sublist sender (List.sublist_append_left _ _))

/-- The member is activated, and its registration acknowledged. -/
def sampleActivation : List RendezvousStep := sampleHandover ++ [.confirm 1 true]

theorem signals_in_order_sample : (run (step sampleConfig) start (sampleActivation ++
    [.flush 1 true, .flush 1 true,
      .publish 0 (sampleMessage "BAAAAAAAAAAAAAAAAAAAAA") 2 true true])).InOrder :=
  (signals_arrive _ _).2 (by decide +kernel)

/-- **A live signal overtakes the one that is held back.** -/
theorem signal_overtakes : ¬(run (step sampleConfig) start (sampleActivation ++
    [.publish 0 (sampleMessage "BAAAAAAAAAAAAAAAAAAAAA") 2 true true, .flush 1 true])).InOrder := by
  intro ordered
  exact absurd (ordered 1 sampleHost) (by decide +kernel)

end Broker

end Atterm.Rendezvous
