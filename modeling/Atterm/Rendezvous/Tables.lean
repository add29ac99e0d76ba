/-
**The tables of the rendezvous broker.**

The broker keeps its clients in a map of topics, each a map of presence ids, and the waiting messages in a
map of topics, each a map of targets to queues. Beside them stand counters: of all messages, of the messages
of a topic, and the metrics. What is here is what happens to the tables under the lock; whether a send queue
takes an event is not decided here.

* `normalizeConfig` — the limits of a broker;
* `Broker.expire`, `purgeTarget`, `purgeTopic`, `purgeExpiredLocked` — what has expired is dropped;
* `Broker.takeMailboxLocked` — a mailbox is emptied.
-/

import Atterm.Foundation.Tally
import Atterm.Rendezvous.Broker

namespace Atterm.Rendezvous.Tables

open Std (ExtTreeMap)
open Atterm.Foundation
open Atterm.Foundation.Tally

def defaultMailboxTTL : ℤ := 120 * 1000000000
def defaultChallengeTTL : ℤ := 10 * 1000000000
def defaultMaxConnections : ℤ := 1024
def defaultMaxConnectionsPerIP : ℤ := 32
def defaultMaxConnectionsPerTopic : ℤ := 32
def defaultMaxMailboxPerTopic : ℤ := 128
def defaultMaxMailboxGlobal : ℤ := 4096
def defaultMaxRecentMessages : ℤ := 8192
def defaultMaxMessagesPerMinute : ℤ := 240
def hardMaxConnections : ℤ := 100000
def hardMaxConnectionsPerTopic : ℤ := 1024
def hardMaxMailboxMessages : ℤ := 1048576
def hardMaxMessagesPerMinute : ℤ := 100000

/-- `Config`, without the origins, as it is given; zero stands for a default. -/
structure Settings where
  mailboxTTL : ℤ
  challengeTTL : ℤ
  maxConnections : ℤ
  maxConnectionsPerIP : ℤ
  maxConnectionsPerTopic : ℤ
  maxMailboxPerTopic : ℤ
  maxMailboxGlobal : ℤ
  maxRecentMessages : ℤ
  maxMessagesPerMinutePerIP : ℤ
deriving DecidableEq, Repr

def applyDefault (value fallback : ℤ) : ℤ := if value = 0 then fallback else value

/-- What the broker is given of the configuration. The origins are not checked here. -/
def normalizeConfig (settings : Settings) : Except String Config :=
  let mailboxTTL := applyDefault settings.mailboxTTL defaultMailboxTTL
  let challengeTTL := applyDefault settings.challengeTTL defaultChallengeTTL
  let maxConnections := applyDefault settings.maxConnections defaultMaxConnections
  let maxConnectionsPerIP := applyDefault settings.maxConnectionsPerIP defaultMaxConnectionsPerIP
  let maxConnectionsPerTopic := applyDefault settings.maxConnectionsPerTopic defaultMaxConnectionsPerTopic
  let maxMailboxPerTopic := applyDefault settings.maxMailboxPerTopic defaultMaxMailboxPerTopic
  let maxMailboxGlobal := applyDefault settings.maxMailboxGlobal defaultMaxMailboxGlobal
  let maxRecentMessages := applyDefault settings.maxRecentMessages defaultMaxRecentMessages
  let maxMessagesPerMinutePerIP := applyDefault settings.maxMessagesPerMinutePerIP defaultMaxMessagesPerMinute
  if settings.maxConnections < 0 ∨ settings.maxConnectionsPerIP < 0 ∨ settings.maxConnectionsPerTopic < 0 ∨
      settings.maxMailboxPerTopic < 0 ∨ settings.maxMailboxGlobal < 0 ∨ settings.maxRecentMessages < 0 ∨
      settings.maxMessagesPerMinutePerIP < 0 then
    .error "rendezvous: limits must be positive"
  else if mailboxTTL ≤ 0 ∨ challengeTTL ≤ 0 then .error "rendezvous: timeouts must be positive"
  else if hardMaxConnections < maxConnections ∨ hardMaxConnections < maxConnectionsPerIP ∨
      hardMaxConnectionsPerTopic < maxConnectionsPerTopic ∨ hardMaxMailboxMessages < maxMailboxPerTopic ∨
      hardMaxMailboxMessages < maxMailboxGlobal ∨ hardMaxMailboxMessages < maxRecentMessages ∨
      hardMaxMessagesPerMinute < maxMessagesPerMinutePerIP then
    .error "rendezvous: configured limit exceeds hard maximum"
  else if maxConnections < maxConnectionsPerIP then
    .error "rendezvous: per-IP connection limit exceeds global connection limit"
  else if maxConnections < maxConnectionsPerTopic then
    .error "rendezvous: per-topic connection limit exceeds global connection limit"
  else if maxMailboxGlobal < maxMailboxPerTopic then
    .error "rendezvous: per-topic mailbox limit exceeds global mailbox limit"
  else
    .ok { mailboxTTL
          maxConnectionsPerTopic := maxConnectionsPerTopic.toNat
          maxMailboxPerTopic := maxMailboxPerTopic.toNat
          maxMailboxGlobal := maxMailboxGlobal.toNat
          maxRecentMessages := maxRecentMessages.toNat }

/-- A client; the broker holds its number, as the source holds a pointer. -/
structure PeerClient where
  topic : String
  presenceID : String
  role : Role
  ready : Bool
deriving DecidableEq, Repr

def PeerClient.presence (client : PeerClient) : Presence := ⟨client.presenceID, client.role⟩

structure SignalEvent where
  messageID : String
  sender : String
  payload : String
  storedAt : ℤ
deriving DecidableEq, Repr

/-- What an activated client has missed. -/
inductive EventMessage where
  | online (presence : Presence)
  | signal (signal : SignalEvent)
deriving DecidableEq, Repr

structure MailboxMessage where
  event : SignalEvent
  expiresAt : ℤ
deriving DecidableEq, Repr

structure RecentMessage where
  state : DeliveryState
  expiresAt : ℤ
deriving DecidableEq, Repr

structure Metrics where
  registeredPeers : ℤ
  mailboxMessages : ℤ
  forwardedTotal : ℕ
  queuedTotal : ℕ
  expiredTotal : ℕ
deriving DecidableEq, Repr

abbrev Table (α : Type) := ExtTreeMap String α compare

/-- The clients that have been made, in a heap of which `made` numbers are in use, and the broker. -/
structure Broker where
  clients : ℕ → PeerClient
  made : ℕ
  topics : Table (Table ℕ)
  mailboxes : Table (Table (List MailboxMessage))
  mailCountByTopic : Table ℤ
  recent : Table RecentMessage
  mailCount : ℤ
  metrics : Metrics

namespace Broker

def start : Broker where
  clients := fun _ => ⟨"", "", .member, false⟩
  made := 0
  topics := ∅
  mailboxes := ∅
  mailCountByTopic := ∅
  recent := ∅
  mailCount := 0
  metrics := ⟨0, 0, 0, 0, 0⟩

variable (cfg : Config) (w : Broker)

/-- The counter of a topic; no entry means zero. -/
def count (topic : String) : ℤ := (w.mailCountByTopic[topic]?).getD 0

def expire (topic : String) : Broker :=
  { w with
    mailCount := w.mailCount - 1
    mailCountByTopic := w.mailCountByTopic.insert topic (w.count topic - 1)
    metrics := { w.metrics with
      mailboxMessages := w.metrics.mailboxMessages - 1
      expiredTotal := w.metrics.expiredTotal + 1 } }

/-- One mailbox keeps what has not expired; an empty one is deleted. -/
def purgeTarget (now : ℤ) (topic : String) (w : Broker) (target : String) : Broker :=
  let queued := ((row w.mailboxes topic)[target]?).getD []
  let kept := queued.filter fun message => now < message.expiresAt
  let expired := queued.filter fun message => !decide (now < message.expiresAt)
  let w := expired.foldl (fun w _ => w.expire topic) w
  let byTarget := row w.mailboxes topic
  { w with
    mailboxes := w.mailboxes.insert topic
      (if kept = [] then byTarget.erase target else byTarget.insert target kept) }

/-- The mailboxes of a topic, which is deleted with its counter if none is left. -/
def purgeTopic (now : ℤ) (w : Broker) (topic : String) : Broker :=
  let w := (row w.mailboxes topic).keys.foldl (purgeTarget now topic) w
  if (row w.mailboxes topic).isEmpty then
    { w with
      mailboxes := w.mailboxes.erase topic
      mailCountByTopic := w.mailCountByTopic.erase topic }
  else w

/-- The maps are read in the order of their keys, where the source reads them in any order. -/
def purgeExpiredLocked (now : ℤ) : Broker :=
  let w := { w with recent := w.recent.filter fun _ recent => now < recent.expiresAt }
  w.mailboxes.keys.foldl (purgeTopic now) w

def takeMailboxLocked (topic presenceID : String) : List EventMessage × Broker :=
  let byTarget := row w.mailboxes topic
  let queued := (byTarget[presenceID]?).getD []
  if queued = [] then ([], w)
  else
    let count := w.count topic - queued.length
    (queued.map fun message => .signal message.event,
      { w with
        mailboxes := put w.mailboxes topic (byTarget.erase presenceID)
        mailCount := w.mailCount - queued.length
        mailCountByTopic :=
          if count = 0 then w.mailCountByTopic.erase topic
          else w.mailCountByTopic.insert topic count
        metrics := { w.metrics with mailboxMessages := w.metrics.mailboxMessages - queued.length } })

/-- The peers of a topic that are ready, without one of them. -/
def readyOthers (client : ℕ) (peers : Table ℕ) : List ℕ :=
  (mapValues peers).filter fun peer => peer != client && (w.clients peer).ready

/-- A client enters its topic and finds who is ready there. The map of the topic is made first. -/
def register (client : ℕ) (now : ℤ) : Except String (List Presence) × Broker :=
  let w := w.purgeExpiredLocked now
  let topic := (w.clients client).topic
  let peers := row w.topics topic
  let refused := { w with topics := w.topics.insert topic peers }
  if (peers[(w.clients client).presenceID]?).isSome then (.error "presence_conflict", refused)
  else if cfg.maxConnectionsPerTopic ≤ peers.size then (.error "topic_capacity", refused)
  else
    let existing := ((mapValues peers).filter fun peer => (w.clients peer).ready).map fun peer =>
      (w.clients peer).presence
    (.ok (existing.mergeSort fun one other => one.presenceID ≤ other.presenceID),
      { w with topics := w.topics.insert topic (peers.insert (w.clients client).presenceID client) })

/-- A client becomes ready: what it has missed, and whom its presence is announced to. -/
def activate (client : ℕ) (announced : List Presence) : (List EventMessage × List ℕ) × Broker :=
  let topic := (w.clients client).topic
  let presenceID := (w.clients client).presenceID
  let peers := row w.topics topic
  if peers[presenceID]? ≠ some client ∨ (w.clients client).ready then (([], []), w)
  else
    let w := { w with
      clients := Function.update w.clients client { w.clients client with ready := true } }
    let taken := w.takeMailboxLocked topic presenceID
    let w := taken.2
    let recipients := w.readyOthers client peers
    let news := recipients.filter fun peer =>
      !(announced.any fun presence => presence.presenceID == (w.clients peer).presenceID)
    (((news.map fun peer => .online (w.clients peer).presence) ++ taken.1, recipients),
      { w with metrics := { w.metrics with registeredPeers := w.metrics.registeredPeers + 1 } })

/-- A client leaves its topic: whom its absence is announced to. -/
def unregister (client : ℕ) : List ℕ × Broker :=
  let topic := (w.clients client).topic
  let presenceID := (w.clients client).presenceID
  let peers := row w.topics topic
  if peers[presenceID]? ≠ some client then ([], w)
  else
    let left := peers.erase presenceID
    let ready := (w.clients client).ready
    (if ready then (mapValues left).filter fun peer => (w.clients peer).ready else [],
      { w with
        topics := put w.topics topic left
        metrics := { w.metrics with
          registeredPeers := w.metrics.registeredPeers - if ready then 1 else 0 } })

def recentKey (client : PeerClient) (messageID : String) : String :=
  client.topic ++ "\x00" ++ client.presenceID ++ "\x00" ++ messageID

def live (topic target : String) : Bool :=
  match (row w.topics topic)[target]? with
  | some recipient => (w.clients recipient).ready
  | none => false

def store (topic target : String) (message : MailboxMessage) : Broker :=
  let byTarget := row w.mailboxes topic
  let queued := (byTarget[target]?).getD []
  { w with
    mailboxes := w.mailboxes.insert topic (byTarget.insert target (queued ++ [message]))
    mailCount := w.mailCount + 1
    mailCountByTopic := w.mailCountByTopic.insert topic (w.count topic + 1)
    metrics := { w.metrics with
      mailboxMessages := w.metrics.mailboxMessages + 1
      queuedTotal := w.metrics.queuedTotal + 1 } }

def remember (key : String) (recent : RecentMessage) : Broker := { w with recent := w.recent.insert key recent }

def forwarded : Broker :=
  { w with metrics := { w.metrics with forwardedTotal := w.metrics.forwardedTotal + 1 } }

/-- A signal goes to its target, if its send queue takes it, or into a mailbox. -/
def deliver (client : PeerClient) (message : PublishMessage) (event : SignalEvent) (expiresAt : ℤ)
    (taken : Bool) : Except String DeliveryState × Broker :=
  let key := recentKey client message.messageID
  match w.recent[key]? with
  | some recent => (.ok recent.state, w)
  | none =>
    if cfg.maxRecentMessages ≤ w.recent.size then (.error "server_capacity", w)
    else if w.live client.topic message.target && taken then
      (.ok .delivered, (w.remember key ⟨.delivered, expiresAt⟩).forwarded)
    else if (cfg.maxMailboxPerTopic : ℤ) ≤ w.count client.topic ∨
        (cfg.maxMailboxGlobal : ℤ) ≤ w.mailCount then
      (.error "mailbox_capacity", w)
    else
      (.ok .queued, (w.store client.topic message.target ⟨event, expiresAt⟩).remember key
        ⟨.queued, expiresAt⟩)

def publish (sender : ℕ) (message : PublishMessage) (now : ℤ) (taken : Bool) :
    Except String DeliveryState × Broker :=
  let client := w.clients sender
  match validatePublish client.presenceID message with
  | .error code => (.error code, w)
  | .ok () =>
    (w.purgeExpiredLocked now).deliver cfg client message
      ⟨message.messageID, client.presenceID, message.payload, now / 1000000000⟩ (now + cfg.mailboxTTL) taken

end Broker

/-- The calls of the broker. A connection that authenticates makes a client and registers it; the other
calls are for a client of any connection. -/
inductive Call where
  | register (topic presenceID : String) (role : Role) (now : ℤ)
  | activate (client : ℕ) (announced : List Presence)
  | unregister (client : ℕ)
  | publish (sender : ℕ) (message : PublishMessage) (now : ℤ) (taken : Bool)
  | purge (now : ℤ)
deriving DecidableEq, Repr

namespace Broker

variable (cfg : Config) (w : Broker)

def make (topic presenceID : String) (role : Role) : Broker :=
  { w with
    clients := Function.update w.clients w.made ⟨topic, presenceID, role, false⟩
    made := w.made + 1 }

def call : Call → Broker
  | .register topic presenceID role now =>
    ((w.make topic presenceID role).register cfg w.made now).2
  | .activate client announced => (w.activate client announced).2
  | .unregister client => (w.unregister client).2
  | .publish sender message now taken => (w.publish cfg sender message now taken).2
  | .purge now => w.purgeExpiredLocked now

def run (calls : List Call) : Broker := calls.foldl (call cfg) start

end Broker

end Atterm.Rendezvous.Tables
