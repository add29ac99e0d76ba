/-
**A service preview and its three parties.**

Both ends keep a map of connections, with a goroutine for each that reads the local socket and queues
what is to be sent; a read loop handles what arrives. The relay passes the packets on in both directions
and keeps a set of connections of its own. The queue of an end and its socket are one list here, and
the packets on it are what the codec opens on the other side.

* `PreviewEnd.acceptConn`, `PreviewEnd.openTarget` — a connection opens at the client, and at the host;
* `PreviewEnd.readPacket` — what the read loop of an end does with a packet;
* `PreviewEvent`, `PreviewWorld.step` — the goroutines take steps in any order.
-/

import Mathlib.Data.List.AList
import Atterm.Foundation.Openings
import Atterm.Service.Lease

namespace Atterm.Service

open Atterm.Foundation Atterm.Transport

structure ServiceHostMessage where
  kind : Kind
  id : UInt32
  data : Bytes
deriving DecidableEq, Repr

def ServiceHostMessage.touch (m : ServiceHostMessage) : Touch UInt32 :=
  if m.kind = kindOpen then .opens m.id
  else if m.kind = kindData then .uses m.id
  else .closes m.id

/-- Where the goroutine of a connection stands: the connection is accepted and is still to be
announced, the local socket is being read, or a message is to be queued. -/
inductive PumpPhase where
  | opening
  | reading
  | sending (data : Bytes)
  | closing
deriving DecidableEq, Repr

structure Pump where
  id : UInt32
  phase : PumpPhase
deriving DecidableEq, Repr

def Pump.message (pump : Pump) : Option ServiceHostMessage :=
  match pump.phase with
  | .opening => some ⟨kindOpen, pump.id, []⟩
  | .reading => none
  | .sending data => some ⟨kindData, pump.id, data⟩
  | .closing => some ⟨kindClose, pump.id, []⟩

def Pump.queued (pump : Pump) : Option Pump :=
  match pump.phase with
  | .opening | .reading | .sending _ => some { pump with phase := .reading }
  | .closing => none

def ServiceRole.peer : ServiceRole → ServiceRole
  | .client => .host
  | .host => .client

/-- An end of the service. The sockets are known by numbers, each with its goroutine; `loop` is the
connection whose close the read loop is about to queue. -/
structure PreviewEnd where
  connections : AList fun _ : UInt32 => ℕ
  pumps : ℕ → Option Pump
  next : ℕ
  loop : Option UInt32

namespace PreviewEnd

def new : PreviewEnd := ⟨∅, fun _ => none, 0, none⟩

def has (e : PreviewEnd) : Finset UInt32 := e.connections.keys.toFinset

variable (e : PreviewEnd)

/-- A socket is registered, and its goroutine starts. -/
def register (id : UInt32) (phase : PumpPhase) : PreviewEnd :=
  { e with
    connections := e.connections.insert id e.next
    pumps := Function.update e.pumps e.next (some ⟨id, phase⟩)
    next := e.next + 1 }

def setPump (conn : ℕ) (pump : Option Pump) : PreviewEnd :=
  { e with pumps := Function.update e.pumps conn pump }

def closeConnection (id : UInt32) : PreviewEnd :=
  { e with connections := e.connections.erase id }

/-- The connection is closed, if it is still the one of this socket. -/
def closeConnectionIf (id : UInt32) (conn : ℕ) : PreviewEnd :=
  if e.connections.lookup id = some conn then e.closeConnection id else e

/-- The next free id, within the attempts; `0` when there is none. -/
def nextConnectionID : ℕ → UInt32 → UInt32 × UInt32
  | 0, nextID => (0, nextID)
  | attempts + 1, nextID =>
    let nextID := if nextID + 1 = 0 then nextID + 2 else nextID + 1
    if (e.connections.lookup nextID).isNone then (nextID, nextID)
    else nextConnectionID attempts nextID

def acceptConn (nextID : UInt32) : PreviewEnd × UInt32 :=
  if 16 ≤ e.connections.keys.length then (e, nextID)
  else
    let (id, nextID) := e.nextConnectionID 32 nextID
    if id = 0 then (e, nextID) else (e.register id .opening, nextID)

/-- The host dials its target; without a connection it is about to queue a close. -/
def openTarget (id : UInt32) (dials : Bool) : PreviewEnd :=
  if (e.connections.lookup id).isSome ∨ 16 ≤ e.connections.keys.length then
    { e with loop := some id }
  else if dials = false then { e with loop := some id }
  else e.register id .reading

/-- What the read loop does with data; a write that fails ends the connection. -/
def writeData (id : UInt32) (works : Bool) : PreviewEnd :=
  if works then e else { e.closeConnection id with loop := some id }

/-- **One packet of the read loop**; `works` is whether the write, or the dial, succeeds. -/
def readPacket (role : ServiceRole) (m : ServiceHostMessage) (works : Bool) :
    Except String PreviewEnd :=
  match role with
  | .client =>
    if m.kind = kindData then
      if (e.connections.lookup m.id).isNone then .error "data for unopened local connection"
      else .ok (e.writeData m.id works)
    else if m.kind = kindClose then
      if m.data ≠ [] then .error "close packet has payload"
      else .ok (e.closeConnection m.id)
    else if m.kind = kindOpen then .error "host sent open packet"
    else .ok e
  | .host =>
    if m.kind = kindOpen then
      if m.data ≠ [] then .error "open packet has payload"
      else .ok (e.openTarget m.id works)
    else if m.kind = kindData then
      if (e.connections.lookup m.id).isNone then .error "data for unopened target"
      else .ok (e.writeData m.id works)
    else if m.kind = kindClose then
      if m.data ≠ [] then .error "close packet has payload"
      else .ok (e.closeConnection m.id)
    else .ok e

end PreviewEnd

/-- The two ends and the relay: what an end has sent and the relay has not yet read, what the relay has
passed on and the other end has not yet read, and the error that tears the service down. -/
structure PreviewWorld where
  ends : ServiceRole → PreviewEnd
  nextID : UInt32
  sent : ServiceRole → List ServiceHostMessage
  forwarded : ServiceRole → List ServiceHostMessage
  relay : Finset UInt32
  error : Option String

/-- A browser connects; the goroutine of a socket reads data, comes to the end of the socket, or queues
its message; the read loop queues its close or reads a packet; the relay passes a packet on. -/
inductive PreviewEvent where
  | accept
  | read (role : ServiceRole) (conn : ℕ) (data : Bytes)
  | finish (role : ServiceRole) (conn : ℕ)
  | enqueue (role : ServiceRole) (conn : ℕ)
  | enqueueLoop (role : ServiceRole)
  | observe (role : ServiceRole)
  | deliver (role : ServiceRole) (works : Bool)
deriving DecidableEq, Repr

namespace PreviewWorld

def start : PreviewWorld where
  ends := fun _ => .new
  nextID := 0
  sent := fun _ => []
  forwarded := fun _ => []
  relay := ∅
  error := none

variable (w : PreviewWorld)

def setEnd (role : ServiceRole) (e : PreviewEnd) : PreviewWorld :=
  { w with ends := Function.update w.ends role e }

def send (role : ServiceRole) (m : ServiceHostMessage) : PreviewWorld :=
  { w with sent := Function.update w.sent role (w.sent role ++ [m]) }

/-- The relay reads a packet, and passes it on or tears the service down. -/
def observe (role : ServiceRole) : PreviewWorld :=
  match w.sent role with
  | [] => w
  | m :: rest =>
    match observeConnections w.relay role m.kind m.id with
    | .error e => { w with sent := Function.update w.sent role rest, error := some e }
    | .ok relay =>
      { w with
        sent := Function.update w.sent role rest
        forwarded := Function.update w.forwarded role (w.forwarded role ++ [m])
        relay := relay }

/-- The read loop of an end reads a packet, unless it still has a close to queue. -/
def deliver (role : ServiceRole) (works : Bool) : PreviewWorld :=
  match w.forwarded role.peer, (w.ends role).loop with
  | m :: rest, none =>
    let w := { w with forwarded := Function.update w.forwarded role.peer rest }
    match (w.ends role).readPacket role m works with
    | .error e => { w with error := some e }
    | .ok e => w.setEnd role e
  | _, _ => w

def step (event : PreviewEvent) : PreviewWorld :=
  if w.error.isSome then w
  else
    match event with
    | .accept =>
      let (e, nextID) := (w.ends .client).acceptConn w.nextID
      { w.setEnd .client e with nextID := nextID }
    | .read role conn data =>
      match (w.ends role).pumps conn with
      | some ⟨id, .reading⟩ =>
        if data = [] ∨ maxPlaintextSize < data.length then w
        else w.setEnd role ((w.ends role).setPump conn (some ⟨id, .sending data⟩))
      | _ => w
    | .finish role conn =>
      match (w.ends role).pumps conn with
      | some ⟨id, .reading⟩ =>
        w.setEnd role (((w.ends role).closeConnectionIf id conn).setPump conn
          (some ⟨id, .closing⟩))
      | _ => w
    | .enqueue role conn =>
      match (w.ends role).pumps conn with
      | some pump =>
        match pump.message with
        | some m => (w.setEnd role ((w.ends role).setPump conn pump.queued)).send role m
        | none => w
      | none => w
    | .enqueueLoop role =>
      match (w.ends role).loop with
      | some id =>
        (w.setEnd role { w.ends role with loop := none }).send role ⟨kindClose, id, []⟩
      | none => w
    | .observe role => w.observe role
    | .deliver role works => w.deliver role works

end PreviewWorld

end Atterm.Service
