/-
**The terminal connection of accountless peer sessions.**

One connection owns at most one current transport and one handover attempt, and reaches the next
transport through a reconnect timer, the check of the quick tunnel or the probe of the direct route.
Transports are numbered in the order in which their factory made them; `PeerWorld` remembers what the
program itself does not: which transports were started and closed, the callbacks they may still
invoke, the checks in flight, and what was handed to `sendFrame`.

* `PeerSessionConnection.start`, `recover`, `promoteHandover`, `closeTransport` — the transitions;
* `PeerEvent`, `PeerSessionConnection.step` — one public call, timer, answer or callback.
-/

import Atterm.Foundation.Ledger
import Atterm.Session.FallbackReason

namespace Atterm.Session

open Atterm.Foundation

inductive NativePeerRoute where
  | direct
  | lan
  | quickTunnel
deriving DecidableEq, Repr

/-- `PeerSessionConnectionOptions`: the two checks are present or not. -/
structure PeerSessionConnectionOptions where
  route : Option NativePeerRoute
  resolveQuickTunnelFallback : Bool
  resolveDirectFailback : Bool
  directFailbackCooldownMs : Option ℤ
deriving DecidableEq, Repr

def defaultDirectFailbackCooldownMs : ℤ := 30000
def maxDirectFailbackCooldownMs : ℤ := 5 * 60000

inductive PeerFrame where
  | input (value : String)
  | resize (cols rows : ℕ)
  | claimDriver
  | serviceOpen (port : ℕ) (host : String)
  | serviceClose (serviceId : String)
  | sessionCreate (hostId profileId : String)
  | fsRequest (requestId : String)
  | pasteImage (payload : List UInt8)
  | pasteFile (payload : List UInt8)
deriving DecidableEq, Repr

/-- The frames of `openService`, `createSessionWithProfile` and `sendFSRequest`. -/
def PeerFrame.isRequest : PeerFrame → Bool
  | .serviceOpen .. | .sessionCreate .. | .fsRequest _ => true
  | .input _ | .resize .. | .claimDriver | .serviceClose _ | .pasteImage _ | .pasteFile _ => false

/-- The frames that it reads, as far as they move its state. -/
inductive PeerInbound where
  | out (seq : ℕ)
  | close
  | other
deriving DecidableEq, Repr

structure PeerHandoverAttempt where
  generation : ℕ
  transport : ℕ
  authenticated : Bool
  promoted : Bool
deriving DecidableEq, Repr

/-- The timer of `scheduleDirectFailback`, with the generation it captured. -/
structure FailbackTimer where
  delay : ℤ
  generation : ℕ
deriving DecidableEq, Repr

/-- The callbacks given to a transport, with what they captured; `handover` tells which of the two
makers they come from. -/
structure PeerCallbacks where
  transport : ℕ
  generation : ℕ
  handover : Bool
deriving DecidableEq, Repr

/-- One `resolveDirectFailback` in flight. -/
structure FailbackProbe where
  probe : ℕ
  generation : ℕ
deriving DecidableEq, Repr

/-- A paste whose payload is being encoded, with what it captured. -/
structure PendingPaste where
  transport : ℕ
  generation : ℕ
  image : Bool
deriving DecidableEq, Repr

/-- One call of a transport's `sendFrame`, and its answer. -/
structure Offer where
  transport : ℕ
  frame : PeerFrame
  accepted : Bool
deriving DecidableEq, Repr

/-- What happened outside the connection. -/
structure PeerWorld where
  attached : Bool
  transports : Ledger
  callbacks : List PeerCallbacks
  promoted : List PeerHandoverAttempt
  fallbacks : List ℕ
  probes : List FailbackProbe
  nextProbe : ℕ
  pastes : List PendingPaste
  offers : List Offer
deriving DecidableEq, Repr

structure PeerSessionConnection where
  transport : Option ℕ
  generation : ℕ
  lastSeq : ℕ
  authenticated : Bool
  ready : Bool
  detached : Bool
  suspended : Bool
  reconnectAttempts : ℕ
  reconnectTimer : Option ℕ
  fallbackPending : Bool
  handover : Option PeerHandoverAttempt
  failbackTimer : Option FailbackTimer
  failbackProbe : Option ℕ
  failbackAttempts : ℕ
  pendingInputs : List String
  pendingResize : Option (ℕ × ℕ)
  pendingDriverClaim : Bool
  route : NativePeerRoute
  world : PeerWorld
deriving DecidableEq, Repr

/-- How the factory and the new transport's `start()` end. -/
inductive Launch where
  | starts
  | factoryThrows (error : String)
  | startThrows (error : String)
deriving DecidableEq, Repr

namespace PeerSessionConnection

def newWorld : PeerWorld :=
  { attached := false
    transports := .empty
    callbacks := []
    promoted := []
    fallbacks := []
    probes := []
    nextProbe := 0
    pastes := []
    offers := [] }

/-- `constructor`. -/
def new (options : PeerSessionConnectionOptions) : PeerSessionConnection :=
  { transport := none
    generation := 0
    lastSeq := 0
    authenticated := false
    ready := false
    detached := false
    suspended := false
    reconnectAttempts := 0
    reconnectTimer := none
    fallbackPending := false
    handover := none
    failbackTimer := none
    failbackProbe := none
    failbackAttempts := 0
    pendingInputs := []
    pendingResize := none
    pendingDriverClaim := false
    route := options.route.getD .direct
    world := newWorld }

variable (options : PeerSessionConnectionOptions) (c : PeerSessionConnection)

def isCurrent (generation transport : ℕ) : Bool :=
  decide (generation = c.generation) && decide (c.transport = some transport) && !c.detached &&
    !c.suspended

def isHandoverCurrent (attempt : PeerHandoverAttempt) : Bool :=
  if attempt.promoted then c.isCurrent attempt.generation attempt.transport
  else decide (c.handover = some attempt) && decide (attempt.generation = c.generation) &&
    !c.detached && !c.suspended

def clearReconnect : PeerSessionConnection := { c with reconnectTimer := none }

def clearDirectFailbackTimer : PeerSessionConnection := { c with failbackTimer := none }

/-- `transport?.close()`. -/
def close (transport : Option ℕ) : PeerSessionConnection :=
  { c with world.transports := c.world.transports.release? transport }

def closeTransport : PeerSessionConnection :=
  let handover := c.handover
  let transport := c.transport
  let dropped :=
    { c with
      generation := c.generation + 1
      fallbackPending := false
      failbackProbe := none
      failbackAttempts := 0
      failbackTimer := none
      handover := none
      transport := none
      authenticated := false
      ready := false }
  (dropped.close (handover.map (·.transport))).close transport

/-! ### Sending -/

/-- `transport.sendFrame(frame)`, answered with `accepted`. -/
def offer (transport : ℕ) (frame : PeerFrame) (accepted : Bool) : PeerSessionConnection :=
  { c with world.offers := c.world.offers ++ [⟨transport, frame, accepted⟩] }

/-- `send`: the transport takes the frame when `takes` is positive. -/
def send (frame : PeerFrame) (takes : ℕ) : Bool × PeerSessionConnection :=
  if !c.handover.isSome && c.ready then
    match c.transport with
    | some transport => (decide (0 < takes), c.offer transport frame (decide (0 < takes)))
    | none => (false, c)
  else (false, c)

def sendInput (value : String) (takes : ℕ) : PeerSessionConnection :=
  let sent := c.send (.input value) takes
  if sent.1 then sent.2 else { sent.2 with pendingInputs := sent.2.pendingInputs ++ [value] }

def sendResize (cols rows takes : ℕ) : PeerSessionConnection :=
  let sent := c.send (.resize cols rows) takes
  { sent.2 with pendingResize := if sent.1 then none else some (cols, rows) }

def claimDriver (takes : ℕ) : PeerSessionConnection :=
  let sent := c.send .claimDriver takes
  { sent.2 with pendingDriverClaim := !sent.1 }

/-- `closeService`, of a well-formed service id. -/
def closeService (serviceId : String) (takes : ℕ) : PeerSessionConnection :=
  (c.send (.serviceClose serviceId) takes).2

/-- The sending half of `openService`, `createSessionWithProfile` and `sendFSRequest`. -/
def request (frame : PeerFrame) (takes : ℕ) : PeerSessionConnection :=
  match c.transport with
  | none => c
  | some transport =>
    if !c.ready || c.handover.isSome then c
    else if !c.isCurrent c.generation transport || c.handover.isSome then c
    else c.offer transport frame (decide (0 < takes))

/-- `sendPaste`, up to the encoding of its payload. -/
def sendPaste (image : Bool) : PeerSessionConnection :=
  match c.transport with
  | none => c
  | some transport =>
    if !c.ready || c.handover.isSome then c
    else { c with world.pastes := c.world.pastes ++ [⟨transport, c.generation, image⟩] }

/-- `sendPaste`, once the payload is encoded. -/
def pasteEncoded (paste : PendingPaste) (payload : List UInt8) (takes : ℕ) :
    PeerSessionConnection :=
  if !c.isCurrent paste.generation paste.transport || !c.ready || c.handover.isSome then c
  else c.offer paste.transport (if paste.image then .pasteImage payload else .pasteFile payload)
    (decide (0 < takes))

/-- The last loop of `flush`: a refused frame stays queued. -/
def flushInputs (transport : ℕ) : ℕ → List String → PeerSessionConnection → PeerSessionConnection
  | _, [], c => c
  | 0, value :: _, c => c.offer transport (.input value) false
  | takes + 1, value :: rest, c =>
    flushInputs transport takes rest
      { c.offer transport (.input value) true with pendingInputs := rest }

/-- `flush`, from the pending resize on. -/
def flushResize (transport takes : ℕ) : PeerSessionConnection :=
  match c.pendingResize with
  | none => flushInputs transport takes c.pendingInputs c
  | some (cols, rows) =>
    if takes = 0 then c.offer transport (.resize cols rows) false
    else flushInputs transport (takes - 1) c.pendingInputs
      { c.offer transport (.resize cols rows) true with pendingResize := none }

/-- `flush`: the transport takes `takes` frames and refuses the next one. -/
def flush (takes : ℕ) : PeerSessionConnection :=
  match c.transport with
  | none => c
  | some transport =>
    if !c.ready then c
    else if c.pendingDriverClaim then
      if takes = 0 then c.offer transport .claimDriver false
      else flushResize { c.offer transport .claimDriver true with pendingDriverClaim := false }
        transport (takes - 1)
    else c.flushResize transport takes

/-! ### Recovery -/

def scheduleReconnect : PeerSessionConnection :=
  if c.detached || c.suspended || c.reconnectTimer.isSome then c
  else
    { c with
      reconnectTimer := some (min 8000 (500 * 2 ^ c.reconnectAttempts))
      reconnectAttempts := c.reconnectAttempts + 1 }

def recover (generation : ℕ) (error : String) : PeerSessionConnection :=
  if c.detached || c.suspended then c
  else
    let reason := directFallbackReason error c.ready
    let cleared := { c with failbackTimer := none, authenticated := false, ready := false }
    if decide (cleared.route = .direct) && allowsQuickTunnelFallback reason &&
        options.resolveQuickTunnelFallback then
      { cleared with
        fallbackPending := true
        world.fallbacks := generation :: cleared.world.fallbacks }
    else cleared.scheduleReconnect

def fail (generation transport : ℕ) (error : String) : PeerSessionConnection :=
  if !c.isCurrent generation transport then c
  else
    let closed := { c with transport := none }.close (some transport)
    if closed.handover.map (·.generation) = some generation then
      { closed with authenticated := false, ready := false }
    else recover options closed generation error

/-- A transport of the factory, with the callbacks it was given. -/
def made (generation : ℕ) (handover : Bool) : PeerSessionConnection :=
  { c with
    world.transports := c.world.transports.begin
    world.callbacks := ⟨c.world.transports.started, generation, handover⟩ :: c.world.callbacks }

def start (launch : Launch) : PeerSessionConnection :=
  let generation := c.generation + 1
  let begun :=
    { c with
      generation := generation
      fallbackPending := false
      authenticated := false
      ready := false }
  match launch with
  | .factoryThrows error => recover options { begun with transport := none } generation error
  | .startThrows error =>
    recover options { begun.made generation false with transport := none } generation error
  | .starts => { begun.made generation false with transport := some c.world.transports.started }

/-- `tryQuickTunnelFallback`, once it has its answer. -/
def quickTunnelFallback (generation : ℕ) (available : Bool) (launch : Launch) :
    PeerSessionConnection :=
  if decide (generation ≠ c.generation) || !c.fallbackPending || c.detached || c.suspended ||
      c.transport.isSome then c
  else
    let answered := { c with fallbackPending := false }
    if available then
      start options
        { answered with
          route := .quickTunnel
          reconnectAttempts := max 1 answered.reconnectAttempts }
        launch
    else answered.scheduleReconnect

/-- The timer of `scheduleReconnect` fires. -/
def reconnect (launch : Launch) : PeerSessionConnection :=
  match c.reconnectTimer with
  | none => c
  | some _ =>
    let fired := { c with reconnectTimer := none }
    if !fired.detached && !fired.suspended then start options fired launch else fired

/-! ### Failback to the direct route -/

def scheduleDirectFailback : PeerSessionConnection :=
  let cleared := c.clearDirectFailbackTimer
  if !options.resolveDirectFailback || decide (cleared.route ≠ .quickTunnel) || !cleared.ready ||
      cleared.detached || cleared.suspended || cleared.handover.isSome ||
      cleared.failbackProbe.isSome then cleared
  else
    let base := max 1 (options.directFailbackCooldownMs.getD defaultDirectFailbackCooldownMs)
    { cleared with
      failbackTimer := some
        ⟨min maxDirectFailbackCooldownMs (base * 2 ^ cleared.failbackAttempts),
          cleared.generation⟩ }

/-- The guards that `probeDirectFailback` and `startDirectHandover` share. -/
def failbackAllowed (generation : ℕ) : Bool :=
  decide (generation = c.generation) && decide (c.route = .quickTunnel) && c.ready &&
    !c.detached && !c.suspended && !c.handover.isSome

/-- `probeDirectFailback`, up to its question. -/
def probeDirectFailback (generation : ℕ) : PeerSessionConnection :=
  if !c.failbackAllowed generation || c.failbackProbe.isSome then c
  else
    { c with
      failbackProbe := some c.world.nextProbe
      world.probes := ⟨c.world.nextProbe, generation⟩ :: c.world.probes
      world.nextProbe := c.world.nextProbe + 1 }

/-- The timer of `scheduleDirectFailback` fires. -/
def failback : PeerSessionConnection :=
  match c.failbackTimer with
  | none => c
  | some timer => { c with failbackTimer := none }.probeDirectFailback timer.generation

def failHandover (attempt : PeerHandoverAttempt) (error : String) : PeerSessionConnection :=
  if !c.isHandoverCurrent attempt || attempt.promoted then c
  else
    let closed := { c with handover := none }.close (some attempt.transport)
    let both := { closed with transport := none }.close closed.transport
    recover options
      { both with failbackAttempts := both.failbackAttempts + 1, route := .quickTunnel }
      attempt.generation error

def cancelHandover (attempt : PeerHandoverAttempt) : PeerSessionConnection :=
  if !c.isHandoverCurrent attempt || attempt.promoted then c
  else
    let closed := { c with handover := none }.close (some attempt.transport)
    let both := { closed with transport := none }.close closed.transport
    scheduleReconnect
      { both with
        failbackAttempts := both.failbackAttempts + 1
        authenticated := false
        ready := false }

def promoteHandover (attempt : PeerHandoverAttempt) (replayedSeq takes : ℕ) :
    PeerSessionConnection :=
  if !c.isHandoverCurrent attempt || attempt.promoted then c
  else
    let promoted :=
      { c with
        handover := none
        transport := some attempt.transport
        route := .direct
        authenticated := true
        ready := true
        lastSeq := replayedSeq
        reconnectAttempts := 0
        failbackAttempts := 0
        world.promoted := { attempt with promoted := true } :: c.world.promoted }
    (promoted.close c.transport).flush takes

def startDirectHandover (generation : ℕ) (launch : Launch) : PeerSessionConnection :=
  if !c.failbackAllowed generation then c
  else
    let attempt : PeerHandoverAttempt := ⟨generation, c.world.transports.started, false, false⟩
    match launch with
    | .factoryThrows _ =>
      scheduleDirectFailback options { c with failbackAttempts := c.failbackAttempts + 1 }
    | .startThrows error =>
      failHandover options { c.made generation true with handover := some attempt } attempt error
    | .starts => { c.made generation true with handover := some attempt }

/-- `probeDirectFailback`, once it has its answer. -/
def probeAnswered (probe : FailbackProbe) (available : Bool) (launch : Launch) :
    PeerSessionConnection :=
  let answered :=
    { c with
      failbackProbe := if c.failbackProbe = some probe.probe then none else c.failbackProbe }
  if !answered.failbackAllowed probe.generation then answered
  else if !available then
    scheduleDirectFailback options
      { answered with failbackAttempts := answered.failbackAttempts + 1 }
  else startDirectHandover options answered probe.generation launch

/-! ### Public calls -/

def attach (launch : Launch) : PeerSessionConnection :=
  if c.detached then c
  else
    let resumed := { c with suspended := false, world.attached := true }
    if resumed.transport.isSome || resumed.reconnectTimer.isSome || resumed.fallbackPending then
      resumed
    else start options resumed launch

def suspend : PeerSessionConnection :=
  if c.detached then c
  else { c with suspended := true }.clearReconnect.closeTransport

def detach : PeerSessionConnection :=
  { c with detached := true, suspended := false }.clearReconnect.closeTransport

def setRoute (route : NativePeerRoute) (launch : Launch) : PeerSessionConnection :=
  if c.detached then c
  else if route = c.route then
    match c.handover with
    | some attempt => if route = .quickTunnel then c.cancelHandover attempt else c
    | none => c
  else
    let closed := { c with route := route }.clearReconnect.closeTransport
    if !closed.suspended then start options closed launch else closed

/-! ### Callbacks -/

/-- `handleFrame`. -/
def handleFrame : PeerInbound → PeerSessionConnection
  | .out seq =>
    if 0 < seq ∧ seq ≤ c.lastSeq then c
    else if 0 < seq then { c with lastSeq := seq } else c
  | .close => c.detach
  | .other => c

inductive Callback where
  | authenticated
  | frame (frame : PeerInbound)
  | ready (replayedSeq takes : ℕ)
  | failure (error : String)
deriving DecidableEq, Repr

/-- `onReady` of `start`. -/
def becomeReady (generation transport replayedSeq takes : ℕ) : PeerSessionConnection :=
  if !c.isCurrent generation transport || !c.authenticated || decide (replayedSeq < c.lastSeq) then
    fail options c generation transport "invalid Peer replay cursor"
  else
    let flushed :=
      { c with lastSeq := replayedSeq, ready := true, reconnectAttempts := 0 }.flush takes
    if flushed.route = .quickTunnel then scheduleDirectFailback options flushed else flushed

/-- The callbacks that `start` gives to its transport. -/
def callback (generation transport : ℕ) : Callback → PeerSessionConnection
  | .authenticated =>
    if !c.isCurrent generation transport then c else { c with authenticated := true }
  | .frame frame => if !c.isCurrent generation transport then c else c.handleFrame frame
  | .ready replayedSeq takes => becomeReady options c generation transport replayedSeq takes
  | .failure error => fail options c generation transport error

/-- The attempt that the callbacks of a handover captured, unless it was dropped. -/
def attempt? (transport : ℕ) : Option PeerHandoverAttempt :=
  match c.handover with
  | some attempt =>
    if attempt.transport = transport then some attempt
    else c.world.promoted.find? fun promoted => decide (promoted.transport = transport)
  | none => c.world.promoted.find? fun promoted => decide (promoted.transport = transport)

/-- The callbacks that `startDirectHandover` gives to its transport. -/
def handoverCallback (generation transport : ℕ) (call : Callback) : PeerSessionConnection :=
  match c.attempt? transport with
  | none => c
  | some attempt =>
    if !c.isHandoverCurrent attempt then c
    else
      match call with
      -- only an authenticated attempt is promoted, so the flag of a promoted one is set already
      | .authenticated =>
        if attempt.promoted then c
        else { c with handover := some { attempt with authenticated := true } }
      | .frame frame => c.handleFrame frame
      | .ready replayedSeq takes =>
        if !attempt.authenticated || decide (replayedSeq < c.lastSeq) then
          failHandover options c attempt "invalid Peer replay cursor"
        else c.promoteHandover attempt replayedSeq takes
      | .failure error =>
        if attempt.promoted then fail options c generation attempt.transport error
        else failHandover options c attempt error

end PeerSessionConnection

/-! ### Steps -/

inductive PeerEvent where
  | attach (launch : Launch)
  | suspend
  | detach
  | setRoute (route : NativePeerRoute) (launch : Launch)
  | sendInput (value : String) (takes : ℕ)
  | sendResize (cols rows takes : ℕ)
  | claimDriver (takes : ℕ)
  | closeService (serviceId : String) (takes : ℕ)
  | request (frame : PeerFrame) (takes : ℕ)
  | sendPaste (image : Bool)
  | pasteEncoded (paste : PendingPaste) (payload : List UInt8) (takes : ℕ)
  | reconnect (launch : Launch)
  | failback
  | fallbackAnswered (generation : ℕ) (available : Bool) (launch : Launch)
  | probeAnswered (probe : FailbackProbe) (available : Bool) (launch : Launch)
  | callback (callbacks : PeerCallbacks) (call : PeerSessionConnection.Callback)
deriving DecidableEq, Repr

namespace PeerSessionConnection

/-- An answer takes its question out of those in flight. -/
def withoutFallback (c : PeerSessionConnection) (generation : ℕ) : PeerSessionConnection :=
  { c with world.fallbacks := c.world.fallbacks.erase generation }

def withoutProbe (c : PeerSessionConnection) (probe : FailbackProbe) : PeerSessionConnection :=
  { c with world.probes := c.world.probes.erase probe }

def withoutPaste (c : PeerSessionConnection) (paste : PendingPaste) : PeerSessionConnection :=
  { c with world.pastes := c.world.pastes.erase paste }

/-- One step. Answers come for questions in flight, callbacks from transports that were made. -/
def step (options : PeerSessionConnectionOptions) (c : PeerSessionConnection) :
    PeerEvent → PeerSessionConnection
  | .attach launch => c.attach options launch
  | .suspend => c.suspend
  | .detach => c.detach
  | .setRoute route launch => c.setRoute options route launch
  | .sendInput value takes => c.sendInput value takes
  | .sendResize cols rows takes => c.sendResize cols rows takes
  | .claimDriver takes => c.claimDriver takes
  | .closeService serviceId takes => c.closeService serviceId takes
  | .request frame takes => if frame.isRequest then c.request frame takes else c
  | .sendPaste image => c.sendPaste image
  | .pasteEncoded paste payload takes =>
    if paste ∈ c.world.pastes then (c.withoutPaste paste).pasteEncoded paste payload takes else c
  | .reconnect launch => c.reconnect options launch
  | .failback => c.failback
  | .fallbackAnswered generation available launch =>
    if generation ∈ c.world.fallbacks then
      (c.withoutFallback generation).quickTunnelFallback options generation available launch
    else c
  | .probeAnswered probe available launch =>
    if probe ∈ c.world.probes then
      (c.withoutProbe probe).probeAnswered options probe available launch
    else c
  | .callback callbacks call =>
    if callbacks ∈ c.world.callbacks then
      if callbacks.handover then
        c.handoverCallback options callbacks.generation callbacks.transport call
      else c.callback options callbacks.generation callbacks.transport call
    else c

end PeerSessionConnection

end Atterm.Session
