/-
**The rendezvous broker.**

Clients of a topic register under a presence id, learn who else is there, and publish signals to one
another. A signal goes to the send queue of its target, or waits in a mailbox until the target is
activated. Each connection is served by a goroutine that holds the broker's lock for some of its steps
only, so that the steps of different connections interleave.

* `PeerClient.enqueue` — a send queue takes an event, or is full or closed;
* `Broker.register`, `activate`, `unregister`, `publish` — what happens under the lock;
* `RendezvousStep`, `Broker.step` — the goroutines take steps in any order.
-/

import Atterm.Foundation.Base64

namespace Atterm.Rendezvous

open Atterm.Foundation

def version : ℤ := 1
def clientSendQueueSize : ℕ := 64
def maxPayloadBytes : ℕ := 64 * 1024

inductive Role where
  | host
  | member
deriving DecidableEq, Repr

/-- The limits of the configuration that the broker checks. -/
structure Config where
  mailboxTTL : ℤ
  maxConnectionsPerTopic : ℕ
  maxMailboxPerTopic : ℕ
  maxMailboxGlobal : ℕ
  maxRecentMessages : ℕ
deriving DecidableEq, Repr

structure Presence where
  presenceID : String
  role : Role
deriving DecidableEq, Repr

structure PublishMessage where
  version : ℤ
  kind : String
  messageID : String
  target : String
  payload : String
deriving DecidableEq, Repr

/-- A published signal. The number is not part of the message: it counts the accepted ones. -/
structure Signal where
  number : ℕ
  messageID : String
  sender : String
  payload : String
  storedAt : ℤ
deriving DecidableEq, Repr

inductive DeliveryState where
  | delivered
  | queued
deriving DecidableEq, Repr

/-- The events that go through a send queue. -/
inductive EventMessage where
  | online (presence : Presence)
  | offline (presence : Presence)
  | signal (signal : Signal)
  | ack (messageID : String) (state : DeliveryState)
  | error (code messageID : String)
deriving DecidableEq, Repr

structure MailboxMessage where
  topic : String
  target : String
  signal : Signal
  expiresAt : ℤ
deriving DecidableEq, Repr

structure RecentMessage where
  topic : String
  sender : String
  messageID : String
  state : DeliveryState
  expiresAt : ℤ
deriving DecidableEq, Repr

/-- Where the goroutine of a connection stands. -/
inductive Phase where
  | absent
  | registering
  | activating
  | announcing
  | confirming
  | flushing
  | serving
  | leaving
  | departing
  | gone
deriving DecidableEq, Repr

/-- A connection: the client as the broker knows it, what has been written of its send queue and what
waits there, and what its goroutine holds. That is the presence it found at its registration, the
clients it is still to tell of its own presence, and the events that are still to be queued. -/
structure PeerClient where
  topic : String
  presenceID : String
  role : Role
  ready : Bool
  cancelled : Bool
  written : List EventMessage
  send : List EventMessage
  phase : Phase
  existing : List Presence
  recipients : List ℕ
  pending : List EventMessage
  confirmed : Bool

namespace PeerClient

def new (topic presenceID : String) (role : Role) : PeerClient where
  topic := topic
  presenceID := presenceID
  role := role
  ready := false
  cancelled := false
  written := []
  send := []
  phase := .registering
  existing := []
  recipients := []
  pending := []
  confirmed := false

def absent : PeerClient := { new "" "" .member with phase := .absent }

variable (client : PeerClient)

def presence : Presence := ⟨client.presenceID, client.role⟩

def queued : List EventMessage := client.written ++ client.send

/-- The send queue takes an event, unless it is full; a select with a cancelled context may go either
way. -/
def enqueue (event : EventMessage) (sends : Bool) : Option PeerClient :=
  if clientSendQueueSize ≤ client.send.length then none
  else if client.cancelled ∧ sends = false then none
  else some { client with send := client.send ++ [event] }

def tell (event : EventMessage) (sends : Bool) : PeerClient :=
  (client.enqueue event sends).getD client

end PeerClient

/-- What became of an accepted publish; kept for what is proved, and read by nobody. -/
structure Accepted where
  topic : String
  sender : String
  target : String
  messageID : String
  state : DeliveryState
  expiresAt : ℤ
  clock : ℤ
deriving DecidableEq, Repr

/-- The connections by their numbers, and the broker: who is registered, the mailboxes and their
counters, and what has been published lately. The clock is the latest time that the broker has seen. -/
structure Broker where
  clients : ℕ → PeerClient
  registered : List ℕ
  mail : List MailboxMessage
  mailCount : ℤ
  mailCountByTopic : String → ℤ
  recent : List RecentMessage
  clock : ℤ
  accepted : List Accepted

def decodeExact (value : String) (size : ℕ) : Option (List UInt8) :=
  (Base64.decodeRawURL value).filter fun raw => raw.length == size && Base64.encode raw == value

/-- The payload of a publish is canonical base64. -/
def decodeCanonical (value : String) : Option (List UInt8) :=
  (Base64.decodeRawURL value).filter fun raw => Base64.encode raw == value

/-- What is checked of a publish before the lock is taken. -/
def validatePublish (presenceID : String) (message : PublishMessage) : Except String Unit :=
  if message.version ≠ version ∨ message.kind ≠ "publish" ∨ message.target = presenceID then
    .error "invalid_message"
  else if (decodeExact message.messageID 16).isNone then .error "invalid_message"
  else if (decodeExact message.target 32).isNone then .error "invalid_message"
  else
    match decodeCanonical message.payload with
    | none => .error "invalid_message"
    | some payload => if maxPayloadBytes < payload.length then .error "message_too_large" else .ok ()

namespace Broker

def start : Broker where
  clients := fun _ => .absent
  registered := []
  mail := []
  mailCount := 0
  mailCountByTopic := fun _ => 0
  recent := []
  clock := 0
  accepted := []

variable (cfg : Config) (w : Broker)

def modify (c : ℕ) (change : PeerClient → PeerClient) : Broker :=
  { w with clients := Function.update w.clients c (change (w.clients c)) }

def peers (topic : String) : List ℕ := w.registered.filter fun c => (w.clients c).topic == topic

def peer (topic presenceID : String) : Option ℕ :=
  w.registered.find? fun c => (w.clients c).topic == topic && (w.clients c).presenceID == presenceID

def readyOthers (c : ℕ) : List ℕ :=
  (w.peers (w.clients c).topic).filter fun other => other != c && (w.clients other).ready

def purgeExpiredLocked (now : ℤ) : Broker :=
  let expired := w.mail.filter fun m => !decide (now < m.expiresAt)
  { w with
    recent := w.recent.filter fun r => now < r.expiresAt
    mail := w.mail.filter fun m => now < m.expiresAt
    mailCount := w.mailCount - expired.length
    mailCountByTopic := fun topic =>
      w.mailCountByTopic topic - (expired.countP fun m => m.topic == topic : ℕ)
    clock := max w.clock now }

/-- The client enters its topic and finds who is ready there; the code, if it is refused. -/
def register (c : ℕ) (now : ℤ) : Option String × Broker :=
  let w := w.purgeExpiredLocked now
  let client := w.clients c
  let peers := w.peers client.topic
  if (w.peer client.topic client.presenceID).isSome then
    (some "presence_conflict", w.modify c fun client => { client with phase := .gone })
  else if cfg.maxConnectionsPerTopic ≤ peers.length then
    (some "topic_capacity", w.modify c fun client => { client with phase := .gone })
  else
    let existing := ((peers.filter fun p => (w.clients p).ready).map fun p =>
      (w.clients p).presence).mergeSort fun one other => one.presenceID ≤ other.presenceID
    (none, { w with registered := w.registered ++ [c] }.modify c fun client =>
      { client with existing := existing, phase := .activating })

def mailbox (topic presenceID : String) : List MailboxMessage :=
  w.mail.filter fun m => m.topic == topic && m.target == presenceID

def takeMailboxLocked (topic presenceID : String) : Broker :=
  let queued := w.mailbox topic presenceID
  { w with
    mail := w.mail.filter fun m => !(m.topic == topic && m.target == presenceID)
    mailCount := w.mailCount - queued.length
    mailCountByTopic := Function.update w.mailCountByTopic topic
      (w.mailCountByTopic topic - queued.length) }

/-- The events that an activated client has missed: who came since it registered, and its mailbox. -/
def missed (c : ℕ) (order : List ℕ) : List EventMessage :=
  let client := w.clients c
  let news := order.filter fun p =>
    !(client.existing.any fun presence => presence.presenceID == (w.clients p).presenceID)
  news.map (fun p => .online (w.clients p).presence) ++
    (w.mailbox client.topic client.presenceID).map fun m => .signal m.signal

/-- The client becomes ready. The map of peers is read in any order. -/
def activate (c : ℕ) (order : List ℕ) : Broker :=
  let client := w.clients c
  if w.peer client.topic client.presenceID ≠ some c ∨ client.ready then
    w.modify c fun client => { client with phase := .confirming }
  else if order.Perm (w.readyOthers c) then
    let pending := w.missed c order
    (w.takeMailboxLocked client.topic client.presenceID).modify c fun client =>
      { client with ready := true, recipients := order, pending := pending, phase := .announcing }
  else w

/-- The client leaves its topic. -/
def unregister (c : ℕ) (order : List ℕ) : Broker :=
  let client := w.clients c
  if w.peer client.topic client.presenceID ≠ some c then
    w.modify c fun client => { client with phase := .gone }
  else if client.ready = false then
    { w with registered := w.registered.erase c }.modify c fun client =>
      { client with recipients := [], phase := .departing }
  else if order.Perm (w.readyOthers c) then
    { w with registered := w.registered.erase c }.modify c fun client =>
      { client with recipients := order, phase := .departing }
  else w

/-- The next recipient is told of a client's presence, outside the lock. -/
def tellNext (c : ℕ) (event : EventMessage) (sends : Bool) (after : Phase) : Broker :=
  match (w.clients c).recipients with
  | [] => w.modify c fun client => { client with phase := after }
  | r :: rest =>
    (w.modify r fun client => client.tell event sends).modify c fun client =>
      { client with recipients := rest }

/-- The acknowledgement of the registration is written, or the connection fails. -/
def confirm (c : ℕ) (works : Bool) : Broker :=
  w.modify c fun client =>
    if works then { client with confirmed := true, phase := .flushing }
    else { client with cancelled := true, pending := [], phase := .leaving }

/-- The next missed event is queued, as soon as there is room; a cancelled connection gives up. -/
def flush (c : ℕ) (sends : Bool) : Broker :=
  match (w.clients c).pending with
  | [] => w.modify c fun client => { client with phase := .serving }
  | event :: rest =>
    match (w.clients c).enqueue event sends with
    | some client => w.modify c fun _ => { client with pending := rest }
    | none =>
      if (w.clients c).cancelled then
        w.modify c fun client => { client with pending := [], phase := .serving }
      else w

/-- The send queue that takes a signal at once. -/
def live (topic target : String) (signal : Signal) (sends : Bool) : Option (ℕ × PeerClient) := do
  let recipient ← w.peer topic target
  if (w.clients recipient).ready then
    let client ← (w.clients recipient).enqueue (.signal signal) sends
    pure (recipient, client)
  else none

def accept (sender : PeerClient) (message : PublishMessage) (state : DeliveryState) (expiresAt : ℤ) :
    Broker :=
  { w with
    recent := w.recent ++ [⟨sender.topic, sender.presenceID, message.messageID, state, expiresAt⟩]
    accepted := w.accepted ++ [⟨sender.topic, sender.presenceID, message.target, message.messageID, state,
      expiresAt, w.clock⟩] }

def signalOf (sender : PeerClient) (message : PublishMessage) (now : ℤ) : Signal :=
  ⟨w.accepted.length, message.messageID, sender.presenceID, message.payload, now⟩

def store (m : MailboxMessage) : Broker :=
  { w with
    mail := w.mail ++ [m]
    mailCount := w.mailCount + 1
    mailCountByTopic := Function.update w.mailCountByTopic m.topic (w.mailCountByTopic m.topic + 1) }

def publish (sender : PeerClient) (message : PublishMessage) (now : ℤ) (sends : Bool) :
    Except String DeliveryState × Broker :=
  match validatePublish sender.presenceID message with
  | .error code => (.error code, w)
  | .ok () =>
    let w := w.purgeExpiredLocked now
    match w.recent.find? fun r => r.topic == sender.topic && r.sender == sender.presenceID &&
        r.messageID == message.messageID with
    | some recent => (.ok recent.state, w)
    | none =>
      if cfg.maxRecentMessages ≤ w.recent.length then (.error "server_capacity", w)
      else
        let signal := w.signalOf sender message now
        match w.live sender.topic message.target signal sends with
        | some (recipient, client) =>
          (.ok .delivered, (w.accept sender message .delivered (now + cfg.mailboxTTL)).modify
            recipient fun _ => client)
        | none =>
          if (cfg.maxMailboxPerTopic : ℤ) ≤ w.mailCountByTopic sender.topic ∨
              (cfg.maxMailboxGlobal : ℤ) ≤ w.mailCount then
            (.error "mailbox_capacity", w)
          else
            (.ok .queued, (w.accept sender message .queued (now + cfg.mailboxTTL)).store
              ⟨sender.topic, message.target, signal, now + cfg.mailboxTTL⟩)

/-- The read loop answers its client; without an answer it ends. -/
def answer (c : ℕ) (event : EventMessage) (sends : Bool) : Broker :=
  w.modify c fun client =>
    match client.enqueue event sends with
    | some client => client
    | none => { client with cancelled := true, phase := .leaving }

end Broker

/-- A connection authenticates as a client; its goroutine registers it, activates it, tells another
client of it, acknowledges the registration, queues a missed event, publishes a message of the client,
refuses one, comes to the end of the connection, unregisters the client and tells another one of that.
The writer writes an event, a connection is cancelled, and what has expired is purged. -/
inductive RendezvousStep where
  | connect (c : ℕ) (topic presenceID : String) (role : Role)
  | register (c : ℕ) (now : ℤ)
  | activate (c : ℕ) (order : List ℕ)
  | announce (c : ℕ) (sends : Bool)
  | confirm (c : ℕ) (works : Bool)
  | flush (c : ℕ) (sends : Bool)
  | publish (c : ℕ) (message : PublishMessage) (now : ℤ) (sends answers : Bool)
  | refuse (c : ℕ) (code messageID : String) (answers : Bool)
  | hangUp (c : ℕ)
  | unregister (c : ℕ) (order : List ℕ)
  | depart (c : ℕ) (sends : Bool)
  | write (c : ℕ)
  | cancel (c : ℕ)
  | purge (now : ℤ)
deriving DecidableEq, Repr

namespace Broker

variable (cfg : Config) (w : Broker)

/-- A step of a goroutine that stands at a phase. -/
def atPhase (c : ℕ) (phase : Phase) (next : Broker) : Broker :=
  if (w.clients c).phase = phase then next else w

def published (messageID : String) : Except String DeliveryState → EventMessage
  | .ok state => .ack messageID state
  | .error code => .error code messageID

def step : RendezvousStep → Broker
  | .connect c topic presenceID role =>
    w.atPhase c .absent (w.modify c fun _ => .new topic presenceID role)
  | .register c now => w.atPhase c .registering (w.register cfg c now).2
  | .activate c order => w.atPhase c .activating (w.activate c order)
  | .announce c sends => w.atPhase c .announcing
      (w.tellNext c (.online (w.clients c).presence) sends .confirming)
  | .confirm c works => w.atPhase c .confirming (w.confirm c works)
  | .flush c sends => w.atPhase c .flushing (w.flush c sends)
  | .publish c message now sends answers =>
    let result := w.publish cfg (w.clients c) message now sends
    w.atPhase c .serving (result.2.answer c (published message.messageID result.1) answers)
  | .refuse c code messageID answers =>
    w.atPhase c .serving (w.answer c (.error code messageID) answers)
  | .hangUp c => w.atPhase c .serving
      (w.modify c fun client => { client with cancelled := true, phase := .leaving })
  | .unregister c order => w.atPhase c .leaving (w.unregister c order)
  | .depart c sends => w.atPhase c .departing
      (w.tellNext c (.offline (w.clients c).presence) sends .gone)
  | .write c =>
    if (w.clients c).cancelled ∨ (w.clients c).confirmed = false then w
    else w.modify c fun client =>
      { client with written := client.written ++ client.send.take 1, send := client.send.drop 1 }
  | .cancel c => w.modify c fun client => { client with cancelled := true }
  | .purge now => w.purgeExpiredLocked now

end Broker

end Atterm.Rendezvous
