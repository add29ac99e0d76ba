/-
**The terminal connection of relay sessions.**

One connection reads and writes through a relay socket, tries the direct route once the relay has
replayed, and hands the terminal over to it. Sockets and direct transports are numbered in the order in
which they were made; `SessionWorld` remembers what the program itself does not: the generations that
their handlers captured, the states of the sockets, what was handed to them and what was put out.

* `SessionConnection.openWS`, `maybeStartDirect`, `maybeActivateDirect`, `handleDirectFailure` — the
  transitions;
* `SessionEvent`, `SessionConnection.step` — one public call, socket event, timer or callback.
-/

import Atterm.Session.PeerConnection
import Atterm.Transport.DirectRoute

namespace Atterm.Session

open Atterm.Transport

inductive ReadyState where
  | connecting
  | opened
  | closing
  | closed
deriving DecidableEq, Repr

/-- A socket of `openWS`, with the generation that its handlers captured. -/
structure RelaySocket where
  generation : ℕ
  readyState : ReadyState
deriving DecidableEq, Repr

inductive SessionFrame where
  | attach (sinceSeq : ℕ)
  | input (value : String)
  | resize (cols rows : ℕ)
  | claimDriver
deriving DecidableEq, Repr

/-- The frames that it reads, as far as they move its state: `other` stands for those of another
session, too. -/
inductive SessionInbound where
  | out (seq : ℕ) (data : Bytes)
  | close
  | driver (driverClientID : String)
  | replayProgress (ended : Bool)
  | other
deriving DecidableEq, Repr

inductive Carrier where
  | relay (socket : ℕ)
  | direct (transport : ℕ)
deriving DecidableEq, Repr

/-- One call of a socket's `send`, or of a transport's `sendFrame` with its answer. -/
structure SessionOffer where
  carrier : Carrier
  frame : SessionFrame
  accepted : Bool
deriving DecidableEq, Repr

/-- What happened outside the connection. -/
structure SessionWorld where
  sockets : List RelaySocket
  /-- The generations that the callbacks of the direct transports captured. -/
  transports : List ℕ
  offers : List SessionOffer
  outputs : List Bytes
deriving DecidableEq, Repr

/-- The options, and the opening of a sealed frame. -/
structure SessionConnectionOptions where
  remote : Bool
  preferDirect : Bool
  directEndpoint : Bool
  clientID : String
  openOutFrame : (data accountKey : Bytes) → (seq : ℕ) → Option Bytes

/-- What an event finds around it: the account key, whether a direct transport is supported, how its
factory ends, how many frames it takes, and whether a socket can be made. -/
structure Surroundings where
  accountKey : Option Bytes
  supported : Bool
  launch : Launch
  takes : ℕ
  opens : Bool
deriving DecidableEq, Repr

structure SessionConnection where
  ws : Option ℕ
  lastSeq : ℕ
  route : DirectRouteTracker
  direct : Option ℕ
  directAttempted : Bool
  reconnectAttempts : ℕ
  reconnectTimer : Option ℕ
  detached : Bool
  suspended : Bool
  pendingResize : Option (ℕ × ℕ)
  pendingInputs : List String
  preferDirect : Bool
  pendingDriverClaim : Bool
  relayReplayComplete : Bool
  currentDriverClientID : String
  isDriverRole : Bool
  recoverDriverIfVacant : Bool
  recoverDriverVacant : Bool
  world : SessionWorld
deriving DecidableEq, Repr

namespace SessionConnection

/-- `constructor`. -/
def new (options : SessionConnectionOptions) : SessionConnection :=
  { ws := none
    lastSeq := 0
    route := .new 0
    direct := none
    directAttempted := false
    reconnectAttempts := 0
    reconnectTimer := none
    detached := false
    suspended := false
    pendingResize := none
    pendingInputs := []
    preferDirect := options.preferDirect
    pendingDriverClaim := false
    relayReplayComplete := false
    currentDriverClientID := ""
    isDriverRole := false
    recoverDriverIfVacant := false
    recoverDriverVacant := false
    world := ⟨[], [], [], []⟩ }

variable (options : SessionConnectionOptions) (c : SessionConnection)

/-! ### Sockets -/

def readyState (socket : ℕ) : Option ReadyState :=
  c.world.sockets[socket]?.map RelaySocket.readyState

def setReadyState (socket : ℕ) (state : ReadyState) : SessionConnection :=
  { c with
    world.sockets := c.world.sockets.modify socket fun s => { s with readyState := state } }

/-- `ws.close()`. -/
def closeSocket (socket : ℕ) : SessionConnection :=
  if c.readyState socket = some .closed then c else c.setReadyState socket .closing

/-- `this.ws?.readyState === WebSocket.OPEN`. -/
def openSocket : Option ℕ := c.ws.filter fun socket => decide (c.readyState socket = some .opened)

/-- Both timers of a failed socket. -/
def scheduleReconnect : SessionConnection :=
  { c with
    reconnectTimer := some (min 8000 (500 * 2 ^ c.reconnectAttempts))
    reconnectAttempts := c.reconnectAttempts + 1 }

def openWS (generation : ℕ) (opens : Bool) : SessionConnection :=
  if c.detached || c.suspended || !c.route.acceptsRoute generation .relay then c
  else if opens then
    { c with
      world.sockets := c.world.sockets ++ [⟨generation, .connecting⟩]
      ws := some c.world.sockets.length }
  -- `handleOpenFailure`
  else { c with ws := none }.scheduleReconnect

/-! ### Sending -/

/-- A frame is handed to a socket or a transport. -/
def offer (carrier : Carrier) (frame : SessionFrame) (accepted : Bool) : SessionConnection :=
  { c with world.offers := c.world.offers ++ [⟨carrier, frame, accepted⟩] }

def queueInput (value : String) : SessionConnection :=
  { c with pendingInputs := c.pendingInputs ++ [value] }

def sendInput (value : String) (takes : ℕ) : SessionConnection :=
  match c.route.inputRoute with
  | .direct =>
    match c.direct with
    | none => c.queueInput value
    | some transport =>
      if takes = 0 then (c.offer (.direct transport) (.input value) false).queueInput value
      else c.offer (.direct transport) (.input value) true
  | .none => c.queueInput value
  | .relay =>
    match c.ws with
    | none => c.queueInput value
    | some socket =>
      if c.readyState socket = some .connecting then c.queueInput value
      else if c.readyState socket ≠ some .opened then c
      else c.offer (.relay socket) (.input value) true

def claimDriver (takes : ℕ) : SessionConnection :=
  if c.detached || c.suspended then c
  else
    match c.route.inputRoute, c.direct, c.openSocket with
    | .direct, some transport, _ =>
      { c.offer (.direct transport) .claimDriver (decide (0 < takes)) with
        pendingDriverClaim := decide (takes = 0) }
    | .relay, _, some socket =>
      { c.offer (.relay socket) .claimDriver true with pendingDriverClaim := false }
    | _, _, _ => { c with pendingDriverClaim := true }

def sendResize (cols rows takes : ℕ) : SessionConnection :=
  match c.route.inputRoute, c.direct, c.openSocket with
  | .direct, some transport, _ =>
    { c.offer (.direct transport) (.resize cols rows) (decide (0 < takes)) with
      pendingResize := if takes = 0 then some (cols, rows) else none }
  | .direct, none, _ => { c with pendingResize := some (cols, rows) }
  | .relay, _, some socket | .none, _, some socket =>
    { c.offer (.relay socket) (.resize cols rows) true with pendingResize := none }
  | .relay, _, none | .none, _, none => { c with pendingResize := some (cols, rows) }

/-- The last loop of `flushPendingRelayWrites`. -/
def flushRelayInputs (socket : ℕ) : SessionConnection :=
  { c with
    pendingInputs := []
    world.offers := c.world.offers ++
      c.pendingInputs.map fun value => ⟨.relay socket, .input value, true⟩ }

def flushRelayResize (socket : ℕ) : SessionConnection :=
  match c.pendingResize with
  | none => c
  | some (cols, rows) =>
    { c.offer (.relay socket) (.resize cols rows) true with pendingResize := none }

def flushPendingRelayWrites (socket : ℕ) : SessionConnection :=
  let claimed :=
    if c.pendingDriverClaim then
      { c.offer (.relay socket) .claimDriver true with pendingDriverClaim := false }
    else c
  (claimed.flushRelayResize socket).flushRelayInputs socket

/-- The last loop of `flushPendingDirectWrites`: a refused frame stays queued. -/
def flushDirectInputs (transport : ℕ) : ℕ → List String → SessionConnection → SessionConnection
  | _, [], c => c
  | 0, value :: _, c => c.offer (.direct transport) (.input value) false
  | takes + 1, value :: rest, c =>
    flushDirectInputs transport takes rest
      { c.offer (.direct transport) (.input value) true with pendingInputs := rest }

/-- `flushPendingDirectWrites`, from the pending resize on. -/
def flushDirectResize (transport takes : ℕ) : SessionConnection :=
  match c.pendingResize with
  | none => flushDirectInputs transport takes c.pendingInputs c
  | some (cols, rows) =>
    if takes = 0 then c.offer (.direct transport) (.resize cols rows) false
    else flushDirectInputs transport (takes - 1) c.pendingInputs
      { c.offer (.direct transport) (.resize cols rows) true with pendingResize := none }

/-- The transport takes `takes` frames and refuses the next one. -/
def flushPendingDirectWrites (transport takes : ℕ) : SessionConnection :=
  if c.pendingDriverClaim then
    if takes = 0 then c.offer (.direct transport) .claimDriver false
    else flushDirectResize
      { c.offer (.direct transport) .claimDriver true with pendingDriverClaim := false }
      transport (takes - 1)
  else c.flushDirectResize transport takes

/-! ### The direct route -/

/-- `this.route.abortDirect(generation)`. -/
def abortDirect (generation : ℕ) : SessionConnection :=
  { c with route := (c.route.abortDirect generation).2 }

def maybeStartDirect (around : Surroundings) : SessionConnection :=
  if !c.preferDirect || !options.remote || c.directAttempted ||
      decide (c.route.routeState ≠ .relayAttached) || c.detached || c.suspended then c
  else if !options.directEndpoint || !around.supported ||
      decide (around.accountKey.map List.length ≠ some 32) then { c with directAttempted := true }
  else
    let generation := c.route.routeGeneration
    let begun := { c with directAttempted := true, route := c.route.beginDirect.2 }
    let made := { begun with world.transports := c.world.transports ++ [generation] }
    match around.launch with
    | .factoryThrows _ => { begun.abortDirect generation with direct := none }
    | .startThrows _ => { made.abortDirect generation with direct := none }
    | .starts => { made with direct := some c.world.transports.length }

/-- The end of `maybeActivateDirect`: the relay socket is given up for the transport. -/
def activateDirect (generation transport takes : ℕ) : SessionConnection :=
  let activated :=
    { c with
      route := (c.route.activateDirect generation).2
      reconnectTimer := none
      ws := none }
  let closed :=
    match c.ws with
    | none => activated
    | some relay => activated.closeSocket relay
  closed.flushPendingDirectWrites transport takes

def maybeActivateDirect (generation takes : ℕ) : SessionConnection :=
  match c.direct with
  | none => c
  | some transport =>
    if c.route.canActivateDirect generation = false then c
    else if c.isDriverRole then
      if takes = 0 then c.offer (.direct transport) .claimDriver false
      else (c.offer (.direct transport) .claimDriver true).activateDirect generation transport
        (takes - 1)
    else c.activateDirect generation transport takes

/-- The direct route was lost: the relay is reattached. -/
def directLost (generation : ℕ) (opens : Bool) : SessionConnection :=
  match c.route.directLost generation with
  | (.ok next, route) => { c with route := route }.openWS next opens
  | (.error _, _) => c

def handleDirectFailure (generation transport : ℕ) (opens : Bool) : SessionConnection :=
  if c.direct ≠ some transport ∨ generation ≠ c.route.routeGeneration then c
  else
    let failed := { c with direct := none }
    if c.route.routeState = .directConnecting ∨ c.route.routeState = .directReplay then
      failed.abortDirect generation
    else if c.route.routeState ≠ .directActive ∨ c.detached ∨ c.suspended then failed
    else failed.directLost generation opens

/-! ### Frames -/

/-- `decryptOut`: what is no envelope passes as it is. -/
def decryptOut (data : Bytes) (seq : ℕ) (accountKey : Option Bytes) : Option Bytes :=
  if data.length < 1 + 24 + 16 ∨ data.head? ≠ some 1 then some data
  else accountKey.bind fun key => options.openOutFrame data key seq

def shown (data : Bytes) (seq : ℕ) (accountKey : Option Bytes) : Option Bytes :=
  if options.remote then decryptOut options data seq accountKey else some data

/-- `onOutput`. -/
def output (data : Option Bytes) : SessionConnection :=
  { c with world.outputs := c.world.outputs ++ data.toList }

def changeDriver (driverClientID : String) : SessionConnection :=
  if driverClientID = c.currentDriverClientID then c
  else
    { c with
      currentDriverClientID := driverClientID
      isDriverRole := decide (driverClientID ≠ "" ∧ driverClientID = options.clientID) }

/-- `handleMeta`. -/
def handleMeta (driverClientID : String) (route : Route) (takes : ℕ) : SessionConnection :=
  let settled := { c with recoverDriverIfVacant := false, recoverDriverVacant := false }
  if route = .relay ∧ c.recoverDriverIfVacant then
    if driverClientID = "" then
      if c.route.routeState ≠ .relayReattaching then settled.claimDriver takes
      else { c with recoverDriverVacant := true }
    else changeDriver options settled driverClientID
  else changeDriver options c driverClientID

def replayed (generation : ℕ) (around : Surroundings) : SessionConnection :=
  let complete := { c with relayReplayComplete := true }
  if c.route.routeState = .relayReattaching then
    let attached := { complete with route := (c.route.relayAttached generation).2 }
    let claimed :=
      if c.recoverDriverIfVacant && c.recoverDriverVacant then
        { attached with recoverDriverIfVacant := false, recoverDriverVacant := false }.claimDriver
          around.takes
      else attached
    match claimed.openSocket with
    | some socket => claimed.flushPendingRelayWrites socket
    | none => claimed
  else maybeStartDirect options complete around

/-- `handleProtocolFrame`. On the direct route some frames throw, which leaves the state as it is. -/
def handleProtocolFrame (frame : SessionInbound) (route : Route) (generation : ℕ)
    (around : Surroundings) : SessionConnection :=
  if c.route.acceptsRoute generation route = false then c
  else
    match frame with
    | .out seq data =>
      if seq = 0 then
        if route = .direct then c else c.output (shown options data seq around.accountKey)
      else
        let accepted := c.route.acceptOutput generation route seq
        let committed :=
          if accepted.1 then
            { { c with route := accepted.2 }.output (shown options data seq around.accountKey) with
              lastSeq := accepted.2.lastCommittedSeq }
          else { c with route := accepted.2 }
        if route = .direct then committed.maybeActivateDirect generation around.takes else committed
    | .close => { c with direct := none }
    | .driver driverClientID => handleMeta options c driverClientID route around.takes
    | .replayProgress ended =>
      if route = .relay ∧ ended then replayed options c generation around else c
    | .other => c

/-! ### Public calls -/

def attach (opens : Bool) : SessionConnection :=
  if c.detached then c
  else
    let resumed :=
      if c.suspended then
        { c with
          route := .new c.lastSeq
          directAttempted := false
          relayReplayComplete := false
          suspended := false }
      else c
    if resumed.ws.isSome || resumed.reconnectTimer.isSome then resumed
    else resumed.openWS resumed.route.routeGeneration opens

def setPreferDirect (enabled : Bool) (around : Surroundings) : SessionConnection :=
  if c.preferDirect = enabled then c
  else if enabled then
    let preferred := { c with preferDirect := true, directAttempted := false }
    if preferred.relayReplayComplete then maybeStartDirect options preferred around else preferred
  else
    let dropped := { c with preferDirect := false, direct := none }
    if c.route.routeState = .directConnecting ∨ c.route.routeState = .directReplay then
      dropped.abortDirect c.route.routeGeneration
    else if c.route.routeState = .directActive then
      dropped.directLost c.route.routeGeneration around.opens
    else dropped

/-- What `suspend` and `detach` let go of. -/
def release : SessionConnection :=
  let released :=
    { c with
      direct := none
      pendingDriverClaim := false
      reconnectTimer := none
      ws := none }
  match c.ws with
  | none => released
  | some socket => released.closeSocket socket

def suspend : SessionConnection :=
  if c.detached then c else { c with suspended := true }.release

def detach : SessionConnection := { c with detached := true, suspended := false }.release

/-! ### Socket events, timers and callbacks -/

/-- `onopen`. -/
def opened (socket generation : ℕ) : SessionConnection :=
  let ready := c.setReadyState socket .opened
  if c.ws ≠ some socket ∨ c.route.acceptsRoute generation .relay = false then
    ready.closeSocket socket
  else
    let attached :=
      { ready.offer (.relay socket) (.attach c.route.lastCommittedSeq) true with
        recoverDriverIfVacant := c.isDriverRole
        recoverDriverVacant := false }
    if c.route.inputRoute = .relay then attached.flushPendingRelayWrites socket else attached

/-- `onmessage`, of a frame that can be decoded. -/
def message (socket generation : ℕ) (frame : SessionInbound) (around : Surroundings) :
    SessionConnection :=
  if c.ws ≠ some socket ∨ c.route.acceptsRoute generation .relay = false then c
  else handleProtocolFrame options { c with reconnectAttempts := 0 } frame .relay generation around

/-- `onclose`. -/
def closed (socket : ℕ) : SessionConnection :=
  let ended := c.setReadyState socket .closed
  if c.ws ≠ some socket then ended
  else if c.detached || c.suspended then { ended with ws := none }
  else { ended with ws := none }.scheduleReconnect

def reconnect (opens : Bool) : SessionConnection :=
  match c.reconnectTimer with
  | none => c
  | some _ => { c with reconnectTimer := none }.openWS c.route.routeGeneration opens

inductive DirectCall where
  | authenticated
  | frame (frame : SessionInbound)
  | ready (replayedSeq : ℕ)
  | failure
deriving DecidableEq, Repr

/-- The callbacks that `maybeStartDirect` gives to its transport. -/
def callback (transport generation : ℕ) (call : DirectCall) (around : Surroundings) :
    SessionConnection :=
  if c.direct ≠ some transport ∨ generation ≠ c.route.routeGeneration then c
  else
    match call with
    | .authenticated => { c with route := (c.route.beginDirectReplay generation).2 }
    | .frame frame => handleProtocolFrame options c frame .direct generation around
    | .ready replayedSeq =>
      match c.route.noteDirectReady generation replayedSeq with
      | (.ok _, route) => { c with route := route }.maybeActivateDirect generation around.takes
      | (.error _, _) => c
    | .failure => c.handleDirectFailure generation transport around.opens

end SessionConnection

/-! ### Steps -/

inductive SessionEvent where
  | attach (opens : Bool)
  | suspend
  | detach
  | setPreferDirect (enabled : Bool) (around : Surroundings)
  | sendInput (value : String) (takes : ℕ)
  | sendResize (cols rows takes : ℕ)
  | claimDriver (takes : ℕ)
  | opened (socket : ℕ)
  | message (socket : ℕ) (frame : SessionInbound) (around : Surroundings)
  | closing (socket : ℕ)
  | closed (socket : ℕ)
  | reconnect (opens : Bool)
  | callback (transport : ℕ) (call : SessionConnection.DirectCall) (around : Surroundings)
deriving DecidableEq, Repr

namespace SessionConnection

/-- One step. A socket opens once, is read while it is open, and closes at last. -/
def step (options : SessionConnectionOptions) (c : SessionConnection) :
    SessionEvent → SessionConnection
  | .attach opens => c.attach opens
  | .suspend => c.suspend
  | .detach => c.detach
  | .setPreferDirect enabled around => c.setPreferDirect options enabled around
  | .sendInput value takes => c.sendInput value takes
  | .sendResize cols rows takes => c.sendResize cols rows takes
  | .claimDriver takes => c.claimDriver takes
  | .opened socket =>
    match c.world.sockets[socket]? with
    | some ⟨generation, .connecting⟩ => c.opened socket generation
    | _ => c
  | .message socket frame around =>
    match c.world.sockets[socket]? with
    | some ⟨generation, .opened⟩ => c.message options socket generation frame around
    | _ => c
  | .closing socket =>
    match c.world.sockets[socket]? with
    | some ⟨_, .opened⟩ => c.setReadyState socket .closing
    | _ => c
  | .closed socket =>
    match c.world.sockets[socket]? with
    | some ⟨_, .closed⟩ | none => c
    | some _ => c.closed socket
  | .reconnect opens => c.reconnect opens
  | .callback transport call around =>
    match c.world.transports[transport]? with
    | some generation => c.callback options transport generation call around
    | none => c

end SessionConnection

end Atterm.Session
