/-
**The accounts of the rendezvous broker.**

The counters beside the tables of the broker hold what the tables hold, and a limit that a counter is checked
against bounds the table. A counter that is forgotten where messages are dropped would close a mailbox for
good; here each way out of the tables is shown to move every counter.

* `Counted` — the counters of the messages are their numbers;
* `Counted.change` — a change of one mailbox, with the counters moved by the same number;
* `accounts_hold` — both, over every sequence of calls.
-/

import Atterm.Rendezvous.Tables

namespace Atterm.Rendezvous.Tables

open Std (ExtTreeMap)
open Atterm.Foundation
open Atterm.Foundation.Tally

def queueLength (queue : List MailboxMessage) : ℤ := queue.length

theorem queueLength_nonneg (queue : List MailboxMessage) : 0 ≤ queueLength queue := Int.natCast_nonneg _

abbrev messages (byTarget : Table (List MailboxMessage)) : ℤ := tally queueLength byTarget

theorem messages_nonneg (byTarget : Table (List MailboxMessage)) : 0 ≤ messages byTarget :=
  tally_nonneg queueLength_nonneg byTarget

@[simp] theorem messages_empty : messages ∅ = 0 := tally_empty

theorem weight_queueLength (byTarget : Table (List MailboxMessage)) (target : String) :
    weight queueLength byTarget target = ((byTarget[target]?).getD []).length := by
  cases held : byTarget[target]? with
  | none =>
    rw [weight_of_none held]
    rfl
  | some queue =>
    rw [weight_of_some held]
    rfl

/-- **The counters of the messages are their numbers.** -/
structure Counted (w : Broker) : Prop where
  total : w.mailCount = tally messages w.mailboxes
  perTopic : ∀ topic, w.count topic = messages (row w.mailboxes topic)
  metric : w.metrics.mailboxMessages = w.mailCount
  queues : ∀ topic target : String, (row w.mailboxes topic)[target]? ≠ some []

theorem Counted.change {w w' : Broker} (counted : Counted w) (topic : String) (d : ℤ)
    (others : ∀ other, other ≠ topic → row w'.mailboxes other = row w.mailboxes other)
    (sum : tally messages w'.mailboxes =
      tally messages w.mailboxes - messages (row w.mailboxes topic) + messages (row w'.mailboxes topic))
    (moved : messages (row w'.mailboxes topic) = messages (row w.mailboxes topic) + d)
    (total : w'.mailCount = w.mailCount + d)
    (metric : w'.metrics.mailboxMessages = w.metrics.mailboxMessages + d)
    (counter : w'.count topic = w.count topic + d)
    (counters : ∀ other, other ≠ topic → w'.count other = w.count other)
    (queues : ∀ target : String, (row w'.mailboxes topic)[target]? ≠ some []) : Counted w' where
  total := by
    rw [total, sum, moved, counted.total]
    ring
  perTopic other := by
    by_cases here : other = topic
    · rw [here, counter, moved, counted.perTopic]
    · rw [counters other here, others other here, counted.perTopic]
  metric := by rw [metric, total, counted.metric]
  queues other := by
    by_cases here : other = topic
    · rw [here]
      exact queues
    · rw [others other here]
      exact counted.queues other

/-- **The accounts of the mailboxes.** While a topic is being purged its entries may be empty. -/
structure MailAccounts (cfg : Config) (changing : Option String) (w : Broker) : Prop extends Counted w where
  topicCap : ∀ topic, w.count topic ≤ cfg.maxMailboxPerTopic
  globalCap : w.mailCount ≤ cfg.maxMailboxGlobal
  rows : ∀ topic : String, some topic ≠ changing → w.mailboxes[topic]? ≠ some ∅
  counters : ∀ topic : String, some topic ≠ changing → w.mailCountByTopic[topic]? ≠ some 0

/-- What the mailboxes are not about stays as it is. -/
structure Aside (w w' : Broker) : Prop where
  clients : w'.clients = w.clients
  made : w'.made = w.made
  topics : w'.topics = w.topics
  registeredPeers : w'.metrics.registeredPeers = w.metrics.registeredPeers

theorem Aside.refl (w : Broker) : Aside w w := ⟨rfl, rfl, rfl, rfl⟩

theorem Aside.trans {w w' w'' : Broker} (first : Aside w w') (second : Aside w' w'') : Aside w w'' :=
  ⟨second.clients.trans first.clients, second.made.trans first.made, second.topics.trans first.topics,
    second.registeredPeers.trans first.registeredPeers⟩

/-! ### What has expired is dropped -/

/-- The counters of a number of messages of a topic are taken back, and nothing else. -/
structure Dropped (topic : String) (n : ℕ) (w w' : Broker) : Prop extends Aside w w' where
  mailboxes : w'.mailboxes = w.mailboxes
  total : w'.mailCount = w.mailCount - n
  metric : w'.metrics.mailboxMessages = w.metrics.mailboxMessages - n
  counter : w'.count topic = w.count topic - n
  counters : ∀ other : String, other ≠ topic → w'.mailCountByTopic[other]? = w.mailCountByTopic[other]?

theorem dropped_foldl (topic : String) (expired : List MailboxMessage) (w : Broker) :
    Dropped topic expired.length w (expired.foldl (fun w _ => w.expire topic) w) := by
  induction expired generalizing w with
  | nil => exact ⟨.refl w, rfl, (sub_zero _).symm, (sub_zero _).symm, (sub_zero _).symm, fun _ _ => rfl⟩
  | cons message expired ih =>
    have rest := ih (w.expire topic)
    have first : (w.expire topic).count topic = w.count topic - 1 := by
      rw [Broker.count, Broker.expire, ExtTreeMap.getElem?_insert_self]
      rfl
    have length : ((message :: expired).length : ℤ) = expired.length + 1 := by
      rw [List.length_cons]
      push_cast
      ring
    refine ⟨⟨rest.clients, rest.made, rest.topics, rest.registeredPeers⟩, rest.mailboxes, ?_, ?_, ?_, ?_⟩
    · rw [List.foldl_cons, rest.total, length, Broker.expire]
      ring
    · rw [List.foldl_cons, rest.metric, length, Broker.expire]
      ring
    · rw [List.foldl_cons, rest.counter, length, first]
      ring
    · intro other apart
      exact (rest.counters other apart).trans (getElem?_insert_of_ne _ _ apart)

theorem messages_kept (byTarget : Table (List MailboxMessage)) (target : String)
    {queued : List MailboxMessage} (kept : List MailboxMessage)
    (held : (byTarget[target]?).getD [] = queued) :
    messages (if kept = [] then byTarget.erase target else byTarget.insert target kept) =
      messages byTarget - queued.length + kept.length := by
  have weighs := weight_queueLength byTarget target
  rw [held] at weighs
  split_ifs with none
  · rw [messages, tally_erase, weighs, none, List.length_nil]
    ring
  · rw [messages, tally_insert, weighs, queueLength]

theorem queues_kept {byTarget : Table (List MailboxMessage)} {kept : List MailboxMessage} (target : String)
    (queues : ∀ other : String, byTarget[other]? ≠ some []) (other : String) :
    (if kept = [] then byTarget.erase target else byTarget.insert target kept)[other]? ≠ some [] := by
  by_cases here : other = target
  · subst here
    split_ifs with none
    · rw [ExtTreeMap.getElem?_erase_self]
      exact nofun
    · rw [ExtTreeMap.getElem?_insert_self, ne_eq, Option.some.injEq]
      exact none
  · split_ifs
    · rw [getElem?_erase_of_ne _ here]
      exact queues other
    · rw [getElem?_insert_of_ne _ _ here]
      exact queues other

section Purge

variable {cfg : Config} {w : Broker} {topic : String} (now : ℤ)

theorem count_of_eq {w' : Broker} (same : w'.mailCountByTopic[topic]? = w.mailCountByTopic[topic]?) :
    w'.count topic = w.count topic := by
  rw [Broker.count, same, Broker.count]

/-- **One mailbox is purged.** -/
theorem MailAccounts.purgeTarget (accounts : MailAccounts cfg (some topic) w) (target : String) :
    MailAccounts cfg (some topic) (Broker.purgeTarget now topic w target) ∧
      Aside w (Broker.purgeTarget now topic w target) := by
  set queued := ((row w.mailboxes topic)[target]?).getD [] with queued_eq
  set kept := queued.filter fun message => now < message.expiresAt with kept_eq
  set expired := queued.filter fun message => !decide (now < message.expiresAt) with expired_eq
  have parts : queued.length = kept.length + expired.length :=
    List.length_eq_length_filter_add _
  have dropped := dropped_foldl topic expired w
  set cut := expired.foldl (fun w _ => w.expire topic) w with cut_eq
  have shape : Broker.purgeTarget now topic w target = { cut with
      mailboxes := w.mailboxes.insert topic (if kept = [] then (row w.mailboxes topic).erase target
        else (row w.mailboxes topic).insert target kept) } := by
    rw [Broker.purgeTarget, ← queued_eq, ← kept_eq, ← expired_eq, ← cut_eq, dropped.mailboxes]
  rw [shape]
  have left := messages_kept (row w.mailboxes topic) target kept queued_eq.symm
  have counts (other : String) : cut.count other ≤ w.count other := by
    by_cases here : other = topic
    · rw [here, dropped.counter]
      omega
    · rw [count_of_eq (dropped.counters other here)]
  refine ⟨⟨accounts.toCounted.change topic (-expired.length) ?_ ?_ ?_ ?_ ?_ ?_ ?_ ?_,
    ?_, ?_, ?_, ?_⟩, ⟨dropped.clients, dropped.made, dropped.topics, dropped.registeredPeers⟩⟩
  · exact fun other apart => row_insert_of_ne apart
  · rw [tally_insert_row, row_insert_self]
  · rw [row_insert_self, left, parts]
    push_cast
    ring
  · exact dropped.total
  · exact dropped.metric
  · exact dropped.counter
  · exact fun other apart => count_of_eq (dropped.counters other apart)
  · rw [row_insert_self]
    exact queues_kept target (accounts.queues topic)
  · exact fun other => (counts other).trans (accounts.topicCap other)
  · exact le_trans (by rw [dropped.total]; omega) accounts.globalCap
  · intro other apart
    have distinct : other ≠ topic := fun same => apart (congrArg some same)
    dsimp only
    rw [getElem?_insert_of_ne _ _ distinct]
    exact accounts.rows other apart
  · intro other apart
    have distinct : other ≠ topic := fun same => apart (congrArg some same)
    exact (dropped.counters other distinct) ▸ accounts.counters other apart

theorem MailAccounts.enter (accounts : MailAccounts cfg none w) (topic : String) :
    MailAccounts cfg (some topic) w :=
  { accounts with
    rows := fun other _ => accounts.rows other (Option.some_ne_none other)
    counters := fun other _ => accounts.counters other (Option.some_ne_none other) }

theorem purgeTargets (targets : List String) (accounts : MailAccounts cfg (some topic) w) :
    MailAccounts cfg (some topic) (targets.foldl (Broker.purgeTarget now topic) w) ∧
      Aside w (targets.foldl (Broker.purgeTarget now topic) w) := by
  induction targets generalizing w with
  | nil => exact ⟨accounts, .refl w⟩
  | cons target targets ih =>
    obtain ⟨first, aside⟩ := accounts.purgeTarget now target
    obtain ⟨rest, aside'⟩ := ih first
    exact ⟨rest, aside.trans aside'⟩

theorem messages_pos {byTarget : Table (List MailboxMessage)} (inhabited : byTarget ≠ ∅)
    (queues : ∀ target : String, byTarget[target]? ≠ some []) : 0 < messages byTarget := by
  obtain ⟨target, queue, held⟩ := exists_of_ne_empty inhabited
  have filled : queue ≠ [] := fun none => queues target (none ▸ held)
  calc (0 : ℤ) < queue.length := Int.natCast_pos.mpr (List.length_pos_iff.mpr filled)
    _ = weight queueLength byTarget target := (weight_of_some (f := queueLength) held).symm
    _ ≤ messages byTarget := weight_le_tally queueLength_nonneg byTarget target

/-- **The mailboxes of a topic are purged**, and no empty entry is left. -/
theorem MailAccounts.purgeTopic (accounts : MailAccounts cfg none w) (topic : String) :
    MailAccounts cfg none (Broker.purgeTopic now w topic) ∧
      Aside w (Broker.purgeTopic now w topic) := by
  obtain ⟨purged, aside⟩ := purgeTargets now (row w.mailboxes topic).keys (accounts.enter topic)
  rw [Broker.purgeTopic]
  set left := (row w.mailboxes topic).keys.foldl (Broker.purgeTarget now topic) w
  split_ifs with empty
  · have none : row left.mailboxes topic = ∅ := ExtTreeMap.isEmpty_iff.mp empty
    have zero : left.count topic = 0 := by
      rw [purged.perTopic, none, messages_empty]
    have erased : row (left.mailboxes.erase topic) topic = ∅ := by
      rw [row, ExtTreeMap.getElem?_erase_self]
      rfl
    have others (other : String) (apart : other ≠ topic) :
        row (left.mailboxes.erase topic) other = row left.mailboxes other := by
      rw [row, getElem?_erase_of_ne _ apart, row]
    have counts (other : String) : (((left.mailCountByTopic.erase topic)[other]?).getD 0 : ℤ) =
        left.count other := by
      by_cases here : other = topic
      · rw [here, ExtTreeMap.getElem?_erase_self, zero]
        rfl
      · rw [getElem?_erase_of_ne _ here, Broker.count]
    refine ⟨⟨purged.toCounted.change topic 0 ?_ ?_ ?_ ?_ ?_ ?_ ?_ ?_, ?_, ?_, ?_, ?_⟩,
      ⟨aside.clients, aside.made, aside.topics, aside.registeredPeers⟩⟩
    · exact others
    · rw [tally_erase, weight_tally, erased, messages_empty, add_zero]
    · rw [erased, none, add_zero]
    · exact (add_zero _).symm
    · exact (add_zero _).symm
    · exact (counts topic).trans (add_zero _).symm
    · exact fun other _ => counts other
    · rw [erased]
      exact fun target => by
        rw [ExtTreeMap.getElem?_empty]
        exact fun same => by cases same
    · exact fun other => (counts other).trans_le (purged.topicCap other)
    · exact purged.globalCap
    · intro other _
      by_cases here : other = topic
      · rw [here, ExtTreeMap.getElem?_erase_self]
        exact fun same => by cases same
      · rw [getElem?_erase_of_ne _ here]
        exact purged.rows other fun same => here (Option.some.inj same)
    · intro other _
      by_cases here : other = topic
      · rw [here, ExtTreeMap.getElem?_erase_self]
        exact fun same => by cases same
      · rw [getElem?_erase_of_ne _ here]
        exact purged.counters other fun same => here (Option.some.inj same)
  · have some : row left.mailboxes topic ≠ ∅ := fun none => empty (ExtTreeMap.isEmpty_iff.mpr none)
    refine ⟨{ purged with rows := ?_, counters := ?_ }, aside⟩
    · intro other _ held
      by_cases here : other = topic
      · exact some (row_of_some (here ▸ held))
      · exact purged.rows other (fun same => here (Option.some.inj same)) held
    · intro other _ held
      by_cases here : other = topic
      · have positive := messages_pos some (purged.queues topic)
        rw [← purged.perTopic, Broker.count, ← here, held] at positive
        exact absurd positive (lt_irrefl 0)
      · exact purged.counters other (fun same => here (Option.some.inj same)) held

theorem purgeTopics (topics : List String) (accounts : MailAccounts cfg none w) :
    MailAccounts cfg none (topics.foldl (Broker.purgeTopic now) w) ∧
      Aside w (topics.foldl (Broker.purgeTopic now) w) := by
  induction topics generalizing w with
  | nil => exact ⟨accounts, .refl w⟩
  | cons topic topics ih =>
    obtain ⟨first, aside⟩ := accounts.purgeTopic now topic
    obtain ⟨rest, aside'⟩ := ih first
    exact ⟨rest, aside.trans aside'⟩

/-- **What has expired is dropped from the accounts**; what is remembered is not in them. -/
theorem MailAccounts.purgeExpiredLocked (accounts : MailAccounts cfg none w) :
    MailAccounts cfg none (w.purgeExpiredLocked now) ∧ Aside w (w.purgeExpiredLocked now) := by
  set forgot : Broker := { w with recent := w.recent.filter fun _ recent => now < recent.expiresAt }
  have same : MailAccounts cfg none forgot :=
    ⟨⟨accounts.total, accounts.perTopic, accounts.metric, accounts.queues⟩, accounts.topicCap,
      accounts.globalCap, accounts.rows, accounts.counters⟩
  obtain ⟨purged, aside⟩ := purgeTopics now forgot.mailboxes.keys same
  exact ⟨purged, (Aside.mk rfl rfl rfl rfl : Aside w forgot).trans aside⟩

end Purge

/-! ### A mailbox is emptied, a message is put into one -/

section Mailboxes

variable {cfg : Config} {w : Broker}

/-- **A mailbox is taken from the accounts.** -/
theorem MailAccounts.takeMailboxLocked (accounts : MailAccounts cfg none w) (topic presenceID : String) :
    MailAccounts cfg none (w.takeMailboxLocked topic presenceID).2 ∧
      Aside w (w.takeMailboxLocked topic presenceID).2 := by
  rw [Broker.takeMailboxLocked]
  set queued := ((row w.mailboxes topic)[presenceID]?).getD [] with queued_eq
  split_ifs with none
  · exact ⟨accounts, .refl w⟩
  · set count := w.count topic - queued.length with count_eq
    set counters := if count = 0 then w.mailCountByTopic.erase topic
      else w.mailCountByTopic.insert topic count with counters_eq
    have here : (counters[topic]?).getD 0 = count ∧ counters[topic]? ≠ some 0 := by
      rw [counters_eq]
      split_ifs with zero
      · rw [ExtTreeMap.getElem?_erase_self]
        exact ⟨zero.symm, (Option.some_ne_none 0).symm⟩
      · rw [ExtTreeMap.getElem?_insert_self]
        exact ⟨rfl, fun same => zero (Option.some.inj same)⟩
    have others (other : String) (apart : other ≠ topic) :
        counters[other]? = w.mailCountByTopic[other]? := by
      rw [counters_eq]
      split_ifs
      · exact getElem?_erase_of_ne _ apart
      · exact getElem?_insert_of_ne _ _ apart
    have left : messages ((row w.mailboxes topic).erase presenceID) =
        messages (row w.mailboxes topic) - queued.length := by
      rw [messages, tally_erase, weight_queueLength, ← queued_eq]
    refine ⟨⟨accounts.toCounted.change topic (-queued.length) ?_ ?_ ?_ ?_ ?_ ?_ ?_ ?_,
      ?_, ?_, ?_, ?_⟩, ⟨rfl, rfl, rfl, rfl⟩⟩
    · exact fun other apart => row_put_of_ne apart
    · rw [tally_put, row_put_self]
    · rw [row_put_self, left]
      rfl
    · rfl
    · rfl
    · exact here.1
    · exact fun other apart => congrArg (fun held : Option ℤ => held.getD 0) (others other apart)
    · rw [row_put_self]
      exact fun target => by
        by_cases same : target = presenceID
        · rw [same, ExtTreeMap.getElem?_erase_self]
          exact fun same => by cases same
        · rw [getElem?_erase_of_ne _ same]
          exact accounts.queues topic target
    · intro other
      have old := accounts.topicCap other
      by_cases same : other = topic
      · subst same
        exact here.1.trans_le (by omega)
      · exact (congrArg (fun held : Option ℤ => held.getD 0) (others other same)).trans_le old
    · have old := accounts.globalCap
      dsimp only
      omega
    · exact fun other _ => Rows.put (fun other _ => accounts.rows other (Option.some_ne_none other)) other
    · intro other _
      by_cases same : other = topic
      · subst same
        exact here.2
      · exact (others other same) ▸ accounts.counters other (Option.some_ne_none other)

/-- **A message is put into the accounts**, if there is room in its topic and at all. -/
theorem MailAccounts.store (accounts : MailAccounts cfg none w) (topic target : String)
    (message : MailboxMessage) (room : w.count topic < cfg.maxMailboxPerTopic)
    (roomGlobal : w.mailCount < cfg.maxMailboxGlobal) :
    MailAccounts cfg none (w.store topic target message) := by
  have here : ((w.mailCountByTopic.insert topic (w.count topic + 1))[topic]?).getD 0 = w.count topic + 1 := by
    rw [ExtTreeMap.getElem?_insert_self]
    rfl
  have others (other : String) (apart : other ≠ topic) :
      (w.mailCountByTopic.insert topic (w.count topic + 1))[other]? = w.mailCountByTopic[other]? :=
    getElem?_insert_of_ne _ _ apart
  have positive : 0 ≤ w.count topic := accounts.perTopic topic ▸ messages_nonneg _
  rw [Broker.store]
  set queued := ((row w.mailboxes topic)[target]?).getD [] with queued_eq
  have grown : messages ((row w.mailboxes topic).insert target (queued ++ [message])) =
      messages (row w.mailboxes topic) + 1 := by
    rw [messages, tally_insert, weight_queueLength, ← queued_eq, queueLength, List.length_append,
      List.length_singleton]
    push_cast
    ring
  refine ⟨accounts.toCounted.change topic 1 ?_ ?_ ?_ ?_ ?_ ?_ ?_ ?_, ?_, ?_, ?_, ?_⟩
  · exact fun other apart => row_insert_of_ne apart
  · rw [tally_insert_row, row_insert_self]
  · rw [row_insert_self, grown]
  · rfl
  · rfl
  · exact here
  · exact fun other apart => congrArg (fun held : Option ℤ => held.getD 0) (others other apart)
  · rw [row_insert_self]
    intro other
    by_cases same : other = target
    · rw [same, ExtTreeMap.getElem?_insert_self, ne_eq, Option.some.injEq]
      exact List.append_ne_nil_of_right_ne_nil _ (List.cons_ne_nil _ _)
    · rw [getElem?_insert_of_ne _ _ same]
      exact accounts.queues topic other
  · intro other
    by_cases same : other = topic
    · subst same
      exact here.trans_le (by omega)
    · exact (congrArg (fun held : Option ℤ => held.getD 0) (others other same)).trans_le
        (accounts.topicCap other)
  · dsimp only
    omega
  · intro other _
    by_cases same : other = topic
    · rw [same, ExtTreeMap.getElem?_insert_self, ne_eq, Option.some.injEq]
      exact ExtTreeMap.insert_ne_empty
    · rw [getElem?_insert_of_ne _ _ same]
      exact accounts.rows other (Option.some_ne_none other)
  · intro other _
    by_cases same : other = topic
    · rw [same, ExtTreeMap.getElem?_insert_self, ne_eq, Option.some.injEq]
      omega
    · exact (others other same) ▸ accounts.counters other (Option.some_ne_none other)

theorem MailAccounts.congr {w' : Broker} (accounts : MailAccounts cfg none w)
    (mailboxes : w'.mailboxes = w.mailboxes) (total : w'.mailCount = w.mailCount)
    (counters : w'.mailCountByTopic = w.mailCountByTopic)
    (metric : w'.metrics.mailboxMessages = w.metrics.mailboxMessages) : MailAccounts cfg none w' := by
  have counts (topic : String) : w'.count topic = w.count topic := by
    rw [Broker.count, counters, Broker.count]
  exact {
    total := by rw [total, mailboxes, accounts.total]
    perTopic := fun topic => by rw [counts, mailboxes, accounts.perTopic]
    metric := by rw [metric, total, accounts.metric]
    queues := mailboxes ▸ accounts.queues
    topicCap := fun topic => counts topic ▸ accounts.topicCap topic
    globalCap := total ▸ accounts.globalCap
    rows := mailboxes ▸ accounts.rows
    counters := counters ▸ accounts.counters }

theorem MailAccounts.deliver (accounts : MailAccounts cfg none w) (client : PeerClient)
    (message : PublishMessage) (event : SignalEvent) (expiresAt : ℤ) (taken : Bool) :
    MailAccounts cfg none (w.deliver cfg client message event expiresAt taken).2 ∧
      Aside w (w.deliver cfg client message event expiresAt taken).2 := by
  rw [Broker.deliver]
  cases w.recent[Broker.recentKey client message.messageID]? with
  | some recent => exact ⟨accounts, .refl w⟩
  | none =>
    dsimp only
    split_ifs with full live noRoom
    · exact ⟨accounts, .refl w⟩
    · exact ⟨accounts.congr rfl rfl rfl rfl, ⟨rfl, rfl, rfl, rfl⟩⟩
    · exact ⟨accounts, .refl w⟩
    · rw [not_or, not_le, not_le] at noRoom
      have stored := accounts.store client.topic message.target ⟨event, expiresAt⟩ noRoom.1 noRoom.2
      exact ⟨stored.congr rfl rfl rfl rfl, ⟨rfl, rfl, rfl, rfl⟩⟩

/-- **A publish keeps the accounts.** -/
theorem MailAccounts.publish (accounts : MailAccounts cfg none w) (sender : ℕ) (message : PublishMessage)
    (now : ℤ) (taken : Bool) : MailAccounts cfg none (w.publish cfg sender message now taken).2 ∧
      Aside w (w.publish cfg sender message now taken).2 := by
  rw [Broker.publish]
  cases validatePublish (w.clients sender).presenceID message with
  | error code => exact ⟨accounts, .refl w⟩
  | ok _ =>
    obtain ⟨purged, aside⟩ := accounts.purgeExpiredLocked now
    obtain ⟨delivered, aside'⟩ := purged.deliver (w.clients sender) message
      ⟨message.messageID, (w.clients sender).presenceID, message.payload, now / 1000000000⟩
      (now + cfg.mailboxTTL) taken
    exact ⟨delivered, aside.trans aside'⟩

/-! ### The calls that are about clients -/

theorem MailAccounts.register (accounts : MailAccounts cfg none w) (client : ℕ) (now : ℤ) :
    MailAccounts cfg none (w.register cfg client now).2 := by
  have purged := (accounts.purgeExpiredLocked now).1
  rw [Broker.register]
  split_ifs
  · exact purged.congr rfl rfl rfl rfl
  · exact purged.congr rfl rfl rfl rfl
  · exact purged.congr rfl rfl rfl rfl

theorem MailAccounts.activate (accounts : MailAccounts cfg none w) (client : ℕ)
    (announced : List Presence) : MailAccounts cfg none (w.activate client announced).2 := by
  rw [Broker.activate]
  split_ifs
  · exact accounts
  · set ready : Broker := { w with
      clients := Function.update w.clients client { w.clients client with ready := true } }
    have same : MailAccounts cfg none ready := accounts.congr rfl rfl rfl rfl
    have taken := (same.takeMailboxLocked (w.clients client).topic (w.clients client).presenceID).1
    exact taken.congr rfl rfl rfl rfl

theorem MailAccounts.unregister (accounts : MailAccounts cfg none w) (client : ℕ) :
    MailAccounts cfg none (w.unregister client).2 := by
  rw [Broker.unregister]
  split_ifs
  · exact accounts
  · exact accounts.congr rfl rfl rfl rfl

end Mailboxes

/-! ### Who is registered -/

def isReady (clients : ℕ → PeerClient) (client : ℕ) : ℤ := if (clients client).ready then 1 else 0

abbrev readyPeers (clients : ℕ → PeerClient) (peers : Table ℕ) : ℤ := tally (isReady clients) peers

/-- **The gauge of the peers is the number of the ready ones**, and a topic without clients is not kept. -/
structure Registered (w : Broker) : Prop where
  gauge : w.metrics.registeredPeers = tally (readyPeers w.clients) w.topics
  occupied : Rows w.topics
  named : ∀ (topic presenceID : String) (client : ℕ), (row w.topics topic)[presenceID]? = some client →
    client < w.made ∧ (w.clients client).topic = topic ∧ (w.clients client).presenceID = presenceID
  fresh : ∀ client, w.made ≤ client → (w.clients client).ready = false

section Peers

variable {cfg : Config} {w : Broker}

theorem Registered.aside {w' : Broker} (registered : Registered w) (aside : Aside w w') : Registered w' where
  gauge := by rw [aside.registeredPeers, aside.clients, aside.topics, registered.gauge]
  occupied := aside.topics ▸ registered.occupied
  named := by
    rw [aside.topics, aside.made, aside.clients]
    exact registered.named
  fresh := by
    rw [aside.made, aside.clients]
    exact registered.fresh

theorem Registered.make (registered : Registered w) (topic presenceID : String) (role : Role) :
    Registered (w.make topic presenceID role) := by
  have old {client : ℕ} (known : client < w.made) :
      (w.make topic presenceID role).clients client = w.clients client :=
    Function.update_of_ne known.ne _ _
  have known (key : String) (peers : Table ℕ) (held : w.topics[key]? = some peers) (name : String)
      (client : ℕ) (inside : peers[name]? = some client) : client < w.made := by
    rw [← row_of_some held] at inside
    exact (registered.named key name client inside).1
  constructor
  · refine registered.gauge.trans (tally_congr fun key peers held => ?_).symm
    refine tally_congr fun name client inside => ?_
    rw [isReady, old (known key peers held name client inside), isReady]
  · exact registered.occupied
  · intro topic presenceID client held
    obtain ⟨below, names⟩ := registered.named topic presenceID client held
    rw [old below]
    exact ⟨Nat.lt_succ_of_lt below, names⟩
  · intro client above
    have apart : client ≠ w.made := (Nat.lt_of_succ_le above).ne'
    have same : (w.make topic presenceID role).clients client = w.clients client :=
      Function.update_of_ne apart _ _
    rw [same]
    exact registered.fresh client (Nat.le_of_succ_le above)

theorem Registered.change {w' : Broker} (registered : Registered w) (topic : String) (d : ℤ)
    (clients : w'.clients = w.clients) (made : w'.made = w.made)
    (others : ∀ other, other ≠ topic → row w'.topics other = row w.topics other)
    (sum : tally (readyPeers w.clients) w'.topics = tally (readyPeers w.clients) w.topics + d)
    (gauge : w'.metrics.registeredPeers = w.metrics.registeredPeers + d) (occupied : Rows w'.topics)
    (named : ∀ (presenceID : String) (client : ℕ), (row w'.topics topic)[presenceID]? = some client →
      client < w.made ∧ (w.clients client).topic = topic ∧ (w.clients client).presenceID = presenceID) :
    Registered w' where
  gauge := by rw [gauge, clients, sum, registered.gauge]
  occupied := occupied
  named other := by
    rw [clients, made]
    by_cases here : other = topic
    · rw [here]
      exact named
    · rw [others other here]
      exact registered.named other
  fresh := by
    rw [clients, made]
    exact registered.fresh

/-- **A client that is not ready yet enters its topic**, or the topic keeps the clients that were there. -/
theorem Registered.register (registered : Registered w) (accounts : MailAccounts cfg none w)
    (room : 0 < cfg.maxConnectionsPerTopic) {client : ℕ} (known : client < w.made)
    (unready : (w.clients client).ready = false) (now : ℤ) :
    Registered (w.register cfg client now).2 := by
  obtain ⟨_, aside⟩ := accounts.purgeExpiredLocked now
  have purged := registered.aside aside
  rw [← aside.made] at known
  rw [← aside.clients] at unready
  rw [Broker.register]
  set p := w.purgeExpiredLocked now
  set topic := (p.clients client).topic with topic_eq
  set presenceID := (p.clients client).presenceID with presence_eq
  have others (new : Table ℕ) (other : String) (apart : other ≠ topic) :
      row (p.topics.insert topic new) other = row p.topics other := row_insert_of_ne apart
  have stays (inhabited : row p.topics topic ≠ ∅) :
      Registered { p with topics := p.topics.insert topic (row p.topics topic) } := by
    refine purged.change topic 0 rfl rfl (others _) ?_ (add_zero _).symm
      (purged.occupied.insert inhabited) ?_
    · rw [tally_insert_row]
      ring
    · rw [row_insert_self]
      exact purged.named topic
  split_ifs with conflict full
  · obtain ⟨found, held⟩ := Option.isSome_iff_exists.mp conflict
    exact stays (ne_empty_of_some held)
  · refine stays fun none => ?_
    have zero := ExtTreeMap.eq_empty_iff_size_eq_zero.mp none
    omega
  · have absent : (row p.topics topic)[presenceID]? = none := by
      rwa [Bool.not_eq_true, Option.isSome_eq_false_iff, Option.isNone_iff_eq_none] at conflict
    have idle : isReady p.clients client = 0 := by
      rw [isReady, unready]
      rfl
    refine purged.change topic 0 rfl rfl (others _) ?_ (add_zero _).symm
      (purged.occupied.insert ExtTreeMap.insert_ne_empty) ?_
    · rw [tally_insert_row, tally_insert (isReady p.clients), weight_of_none absent, idle]
      ring
    · rw [row_insert_self]
      intro name other held
      by_cases here : name = presenceID
      · rw [here, ExtTreeMap.getElem?_insert_self, Option.some.injEq] at held
        obtain rfl := held
        exact ⟨known, rfl, here.symm⟩
      · rw [getElem?_insert_of_ne _ _ here] at held
        exact purged.named topic name other held

/-- **A registered client becomes ready.** -/
theorem Registered.activate (registered : Registered w) (accounts : MailAccounts cfg none w) (client : ℕ)
    (announced : List Presence) : Registered (w.activate client announced).2 := by
  rw [Broker.activate]
  set topic := (w.clients client).topic with topic_eq
  set presenceID := (w.clients client).presenceID with presence_eq
  split_ifs with idle
  · exact registered
  · rw [not_or, not_not, Bool.not_eq_true] at idle
    obtain ⟨held, unready⟩ := idle
    set ready : Broker := { w with
      clients := Function.update w.clients client { w.clients client with ready := true } } with ready_eq
    have same : MailAccounts cfg none ready := accounts.congr rfl rfl rfl rfl
    obtain ⟨_, aside⟩ := same.takeMailboxLocked topic presenceID
    have here : ready.clients client = { w.clients client with ready := true } := Function.update_self _ _ _
    have others {other : ℕ} (apart : other ≠ client) : ready.clients other = w.clients other :=
      Function.update_of_ne apart _ _
    have alike (other : ℕ) : (ready.clients other).topic = (w.clients other).topic ∧
        (ready.clients other).presenceID = (w.clients other).presenceID := by
      by_cases same : other = client
      · rw [same, here]
        exact ⟨rfl, rfl⟩
      · rw [others same]
        exact ⟨rfl, rfl⟩
    have announcedReady : Registered { ready with
        metrics := { ready.metrics with registeredPeers := ready.metrics.registeredPeers + 1 } } := by
      constructor
      · have inside : readyPeers ready.clients (row w.topics topic) =
            readyPeers w.clients (row w.topics topic) - isReady w.clients client +
              isReady ready.clients client := by
          refine tally_update held fun name other apart found => ?_
          have distinct : other ≠ client := by
            rintro rfl
            exact apart (registered.named topic name other found).2.2.symm
          rw [isReady, others distinct, isReady]
        have sum : tally (readyPeers ready.clients) w.topics = tally (readyPeers w.clients) w.topics -
            readyPeers w.clients (row w.topics topic) + readyPeers ready.clients (row w.topics topic) := by
          refine tally_update (getElem?_of_row held) fun key peers apart found => ?_
          refine tally_congr fun name other member => ?_
          rw [← row_of_some found] at member
          have distinct : other ≠ client := by
            rintro rfl
            exact apart (registered.named key name other member).2.1.symm
          rw [isReady, others distinct, isReady]
        have before : isReady w.clients client = 0 := by
          rw [isReady, unready]
          rfl
        have after : isReady ready.clients client = 1 := by
          rw [isReady, here]
          rfl
        show w.metrics.registeredPeers + 1 = tally (readyPeers ready.clients) w.topics
        rw [sum, inside, before, after, registered.gauge]
        ring
      · exact registered.occupied
      · intro key name other found
        rw [(alike other).1, (alike other).2]
        exact registered.named key name other found
      · intro other above
        have apart : other ≠ client := by
          rintro rfl
          exact absurd (registered.named topic presenceID other held).1 (not_lt.mpr above)
        rw [others apart]
        exact registered.fresh other above
    exact announcedReady.aside ⟨aside.clients, aside.made, aside.topics,
      congrArg (· + 1) aside.registeredPeers⟩

/-- **A client leaves its topic.** -/
theorem Registered.unregister (registered : Registered w) (client : ℕ) :
    Registered (w.unregister client).2 := by
  rw [Broker.unregister]
  set topic := (w.clients client).topic with topic_eq
  set presenceID := (w.clients client).presenceID with presence_eq
  split_ifs with absent
  · exact registered
  · rw [not_not] at absent
    refine registered.change topic (-isReady w.clients client) rfl rfl
      (fun other apart => row_put_of_ne apart) ?_ ?_ (Rows.put fun other _ => registered.occupied other) ?_
    · rw [tally_put, tally_erase (isReady w.clients), weight_of_some absent]
      ring
    · rw [isReady]
      ring
    · rw [row_put_self]
      intro name other held
      have apart : name ≠ presenceID := by
        rintro rfl
        rw [ExtTreeMap.getElem?_erase_self] at held
        cases held
      rw [getElem?_erase_of_ne _ apart] at held
      exact registered.named topic name other held

end Peers

/-! ### Over every sequence of calls -/

structure Accounts (cfg : Config) (w : Broker) : Prop extends MailAccounts cfg none w, Registered w

theorem accounts_start (cfg : Config) : Accounts cfg .start where
  total := tally_empty.symm
  perTopic topic := by
    have none : row (∅ : Table (Table (List MailboxMessage))) topic = ∅ := by
      rw [row, ExtTreeMap.getElem?_empty]
      rfl
    have zero : Broker.start.count topic = 0 := by
      rw [Broker.count, Broker.start, ExtTreeMap.getElem?_empty]
      rfl
    rw [zero]
    exact (congrArg messages none).trans messages_empty |>.symm
  metric := rfl
  queues topic target held := by
    rw [row, Broker.start, ExtTreeMap.getElem?_empty, Option.getD_none, ExtTreeMap.getElem?_empty] at held
    cases held
  topicCap topic := by
    rw [Broker.count, Broker.start, ExtTreeMap.getElem?_empty]
    exact Int.natCast_nonneg _
  globalCap := Int.natCast_nonneg _
  rows topic _ := rows_empty topic
  counters topic _ held := by
    rw [Broker.start, ExtTreeMap.getElem?_empty] at held
    cases held
  gauge := tally_empty.symm
  occupied := rows_empty
  named topic presenceID client held := by
    rw [row, Broker.start, ExtTreeMap.getElem?_empty, Option.getD_none, ExtTreeMap.getElem?_empty] at held
    cases held
  fresh _ _ := rfl

/-- **Each call keeps the accounts.** -/
theorem Accounts.call {cfg : Config} {w : Broker} (accounts : Accounts cfg w)
    (room : 0 < cfg.maxConnectionsPerTopic) (call : Call) : Accounts cfg (w.call cfg call) := by
  cases call with
  | register topic presenceID role now =>
    have made : MailAccounts cfg none (w.make topic presenceID role) :=
      accounts.toMailAccounts.congr rfl rfl rfl rfl
    have unready : ((w.make topic presenceID role).clients w.made).ready = false :=
      congrArg PeerClient.ready (Function.update_self w.made _ w.clients)
    exact ⟨made.register w.made now, (accounts.toRegistered.make topic presenceID role).register made room
      (Nat.lt_succ_self _) unready now⟩
  | activate client announced =>
    exact ⟨accounts.toMailAccounts.activate client announced,
      accounts.toRegistered.activate accounts.toMailAccounts client announced⟩
  | unregister client =>
    exact ⟨accounts.toMailAccounts.unregister client, accounts.toRegistered.unregister client⟩
  | publish sender message now taken =>
    obtain ⟨mail, aside⟩ := accounts.toMailAccounts.publish sender message now taken
    exact ⟨mail, accounts.toRegistered.aside aside⟩
  | purge now =>
    obtain ⟨mail, aside⟩ := accounts.toMailAccounts.purgeExpiredLocked now
    exact ⟨mail, accounts.toRegistered.aside aside⟩

theorem accounts_run {cfg : Config} (room : 0 < cfg.maxConnectionsPerTopic) (calls : List Call) :
    Accounts cfg (Broker.run cfg calls) := by
  have step (w : Broker) (accounts : Accounts cfg w) : Accounts cfg (calls.foldl (Broker.call cfg) w) := by
    induction calls generalizing w with
    | nil => exact accounts
    | cons call calls ih => exact ih _ (accounts.call room call)
  exact step .start (accounts_start cfg)

theorem applyDefault_pos {value fallback : ℤ} (given : ¬ value < 0) (positive : 0 < fallback) :
    0 < applyDefault value fallback := by
  rw [applyDefault]
  split_ifs with zero
  · exact positive
  · omega

theorem normalizeConfig_room {settings : Settings} {cfg : Config}
    (normal : normalizeConfig settings = .ok cfg) : 0 < cfg.maxConnectionsPerTopic := by
  rw [normalizeConfig] at normal
  split_ifs at normal with negative
  cases normal
  have above : ¬ settings.maxConnectionsPerTopic < 0 := fun below => negative (.inr (.inr (.inl below)))
  exact Int.lt_toNat.mpr (applyDefault_pos above (by decide))

/-- **The accounts hold over every sequence of calls.** The counters are the numbers of the messages, and
within the limits; the gauge is the number of the ready clients; and no empty entry is kept. -/
theorem accounts_hold (settings : Settings) (cfg : Config) (normal : normalizeConfig settings = .ok cfg)
    (calls : List Call) :
    (Broker.run cfg calls).mailCount = tally messages (Broker.run cfg calls).mailboxes ∧
      (∀ topic, (Broker.run cfg calls).count topic = messages (row (Broker.run cfg calls).mailboxes topic)) ∧
      (0 ≤ (Broker.run cfg calls).mailCount ∧ (Broker.run cfg calls).mailCount ≤ cfg.maxMailboxGlobal) ∧
      (∀ topic, 0 ≤ (Broker.run cfg calls).count topic ∧
        (Broker.run cfg calls).count topic ≤ cfg.maxMailboxPerTopic) ∧
      (Broker.run cfg calls).metrics.registeredPeers =
        tally (readyPeers (Broker.run cfg calls).clients) (Broker.run cfg calls).topics ∧
      Rows (Broker.run cfg calls).topics ∧ Rows (Broker.run cfg calls).mailboxes ∧
      ∀ topic target : String, (row (Broker.run cfg calls).mailboxes topic)[target]? ≠ some [] := by
  have accounts := accounts_run (normalizeConfig_room normal) calls
  refine ⟨accounts.total, accounts.perTopic, ⟨?_, accounts.globalCap⟩, fun topic => ⟨?_, accounts.topicCap topic⟩,
    accounts.gauge, accounts.occupied, fun topic => accounts.rows topic nofun, accounts.queues⟩
  · rw [accounts.total]
    exact tally_nonneg messages_nonneg _
  · rw [accounts.perTopic]
    exact messages_nonneg _

theorem accounts_hold_defaults :
    Rows (Broker.run ⟨defaultMailboxTTL, 32, 128, 4096, 8192⟩
      [.register "t" "p" .host 0, .activate 0 [], .purge 7, .unregister 0]).topics :=
  (accounts_hold ⟨0, 0, 0, 0, 0, 0, 0, 0, 0⟩ ⟨defaultMailboxTTL, 32, 128, 4096, 8192⟩ (by decide)
    [.register "t" "p" .host 0, .activate 0 [], .purge 7, .unregister 0]).2.2.2.2.2.1

end Atterm.Rendezvous.Tables
