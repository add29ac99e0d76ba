/-
**The SOCKS5 front end of dynamic port forwarding.**

A client offers methods and sends one request; the server answers both, and what it was asked to connect
to is dialled by someone else. The bytes of the client arrive in reads of any size and may end anywhere.

* `negotiateMethod`, `handleRequest`, `serveConn` — the server, as the code reads and writes;
* `Request`, `Request.bytes` — the requests that there are, and how they are written;
* `serveConn_safe` — what is dialled, what is answered, and what is left unread.
-/

import Atterm.Foundation.BigEndian
import Atterm.Foundation.ByteReads
import Atterm.Socks5.Address

namespace Atterm.Socks5

open Atterm.Foundation

def version : UInt8 := 5
def methodNoAuth : UInt8 := 0
def methodNoAcceptable : UInt8 := 0xFF
def cmdConnect : UInt8 := 1
def atypIPv4 : UInt8 := 1
def atypDomain : UInt8 := 3
def atypIPv6 : UInt8 := 4
def repSuccess : UInt8 := 0
def repGeneralFailure : UInt8 := 1
def repHostUnreachable : UInt8 := 4
def repConnectionRefused : UInt8 := 5
def repCommandNotSupported : UInt8 := 7
def repAddrTypeNotSupported : UInt8 := 8

structure DialError where
  refused : Bool
  canceled : Bool
  timeout : Bool
deriving DecidableEq, Repr

def replyCodeForDialError (err : DialError) : UInt8 :=
  if err.refused then repConnectionRefused
  else if err.canceled then repGeneralFailure
  else if err.timeout then repHostUnreachable
  else repGeneralFailure

/-- What the dialer returns; a dialer that is wrong returns neither a connection nor an error. -/
inductive Dialed where
  | failed (err : DialError)
  | nothing
  | connected
deriving DecidableEq, Repr

/-- The dialer, and which of the writes to the client go through. -/
structure World where
  dial : List UInt8 → Dialed
  accepts : ℕ → Bool

inductive SocksError where
  | readingGreeting
  | unsupportedVersion (version : UInt8)
  | readingMethods
  | writing
  | noAcceptableMethod
  | readingRequest
  | unsupportedRequestVersion (version : UInt8)
  | addrTypeNotSupported (atyp : UInt8)
  | readingDomainLength
  | readingAddress
  | readingPort
  | unsupportedCommand (cmd : UInt8)
  | emptyAddress
  | dialFailed (target : List UInt8) (err : DialError)
  | noConnection (target : List UInt8)
deriving DecidableEq, Repr

/-- What the server does that is seen outside. -/
inductive Action where
  | wrote (frame : List UInt8)
  | dialed (target : List UInt8)
  | closedRemote
  | spliced
deriving DecidableEq, Repr

/-- An action, and the reads that were still to come. -/
structure Event where
  action : Action
  left : List (List UInt8)
deriving DecidableEq, Repr

def Event.isWrite (event : Event) : Bool :=
  match event.action with
  | .wrote _ => true
  | _ => false

def Event.isDial (event : Event) : Bool :=
  match event.action with
  | .dialed _ => true
  | _ => false

/-- A reply to a request; it has ten bytes, and the answer to a greeting has two. -/
def Event.isReply (event : Event) : Bool :=
  match event.action with
  | .wrote frame => frame.length == 10
  | _ => false

/-- The reads of the client that are still to come, and what was done. -/
structure Conn where
  reads : List (List UInt8)
  log : List Event
deriving DecidableEq, Repr

abbrev Serve := EStateM SocksError Conn

/-! ### The server -/

/-- `io.ReadFull`; a client that ends before has been read to its end. -/
def read (n : ℕ) (ended : SocksError) : Serve (List UInt8) := fun c =>
  match readFull n c.reads with
  | some (bytes, left) => .ok bytes ⟨left, c.log⟩
  | none => .error ended ⟨[], c.log⟩

def act (action : Action) : Serve Unit := fun c => .ok () ⟨c.reads, c.log ++ [⟨action, c.reads⟩]⟩

/-- A write, and whether it went through. -/
def write (world : World) (frame : List UInt8) : Serve Bool := fun c =>
  .ok (world.accepts (c.log.countP Event.isWrite)) ⟨c.reads, c.log ++ [⟨.wrote frame, c.reads⟩]⟩

def byteAt (bytes : List UInt8) (place : ℕ) : UInt8 := bytes.getD place 0

/-- The part of `negotiateMethod` behind the methods. -/
def selectMethod (world : World) (methods : List UInt8) : Serve Unit := do
  if methodNoAuth ∈ methods then
    let written ← write world [version, methodNoAuth]
    if written = false then throw .writing
  else
    let written ← write world [version, methodNoAcceptable]
    throw (if written = false then .writing else .noAcceptableMethod)

def negotiateMethod (world : World) : Serve Unit := do
  let head ← read 2 .readingGreeting
  if byteAt head 0 ≠ version then throw (.unsupportedVersion (byteAt head 0))
  let methods ← read (byteAt head 1).toNat .readingMethods
  selectMethod world methods

/-- A destination; the host is a text. -/
structure Address where
  host : List UInt8
  port : ℕ
deriving DecidableEq, Repr

/-- The bytes of an address, by its type. -/
def readRaw (atyp : UInt8) : Serve (List UInt8) :=
  if atyp = atypIPv4 then read 4 .readingAddress
  else if atyp = atypIPv6 then read 16 .readingAddress
  else if atyp = atypDomain then do
    let n ← read 1 .readingDomainLength
    read (byteAt n 0).toNat .readingAddress
  else throw (.addrTypeNotSupported atyp)

def readAddress (atyp : UInt8) : Serve Address := do
  let raw ← readRaw atyp
  let port ← read 2 .readingPort
  return ⟨if atyp = atypDomain then raw else ipString raw, ofBigEndian port⟩

def replyFrame (rep : UInt8) : List UInt8 := [version, rep, 0, atypIPv4, 0, 0, 0, 0, 0, 0]

def writeReply (world : World) (rep : UInt8) : Serve Bool := write world (replyFrame rep)

/-- A refusal: the reply, and the error, whatever became of the reply. -/
def refuse (world : World) (rep : UInt8) (err : SocksError) : Serve Unit := do
  let _ ← writeReply world rep
  throw err

/-- The reply to a request that was connected, and the relay behind it. -/
def succeed (world : World) : Serve Unit := do
  let written ← writeReply world repSuccess
  if written = false then
    act .closedRemote
    throw .writing
  else act .spliced

/-- The part of `handleRequest` behind the address. -/
def connect (world : World) (cmd : UInt8) (addr : Address) : Serve Unit := do
  if cmd ≠ cmdConnect then refuse world repCommandNotSupported (.unsupportedCommand cmd)
  else if addr.host = [] then refuse world repGeneralFailure .emptyAddress
  else
    let target := joinHostPort addr.host (itoa addr.port)
    act (.dialed target)
    match world.dial target with
    | .failed err => refuse world (replyCodeForDialError err) (.dialFailed target err)
    | .nothing => refuse world repGeneralFailure (.noConnection target)
    | .connected => succeed world

def refuseAddress (world : World) : SocksError → Serve Address
  | .addrTypeNotSupported atyp => do
      let _ ← writeReply world repAddrTypeNotSupported
      throw (.addrTypeNotSupported atyp)
  | err => throw err

def handleRequest (world : World) : Serve Unit := do
  let head ← read 4 .readingRequest
  if byteAt head 0 ≠ version then throw (.unsupportedRequestVersion (byteAt head 0))
  -- the address is read before a command is refused, so that this happens behind the request
  let addr ← tryCatch (readAddress (byteAt head 3)) (refuseAddress world)
  connect world (byteAt head 1) addr

def serveConn (world : World) : Serve Unit := do
  negotiateMethod world
  handleRequest world

/-! ### Requests -/

inductive Destination where
  | ipv4 (raw : List UInt8) (sized : raw.length = 4)
  | ipv6 (raw : List UInt8) (sized : raw.length = 16)
  | domain (raw : List UInt8) (sized : raw.length < 256)
deriving DecidableEq, Repr

namespace Destination

def atyp : Destination → UInt8
  | ipv4 .. => atypIPv4
  | ipv6 .. => atypIPv6
  | domain .. => atypDomain

def raw : Destination → List UInt8
  | ipv4 raw _ => raw
  | ipv6 raw _ => raw
  | domain raw _ => raw

def bytes : Destination → List UInt8
  | ipv4 raw _ => raw
  | ipv6 raw _ => raw
  | domain raw _ => UInt8.ofNat raw.length :: raw

def host : Destination → List UInt8
  | ipv4 raw _ => ipString raw
  | ipv6 raw _ => ipString raw
  | domain raw _ => raw

end Destination

structure Request where
  cmd : UInt8
  reserved : UInt8
  destination : Destination
  port : ℕ
  bounded : port < 65536
deriving DecidableEq, Repr

def Request.bytes (r : Request) : List UInt8 :=
  [version, r.cmd, r.reserved, r.destination.atyp] ++ (r.destination.bytes ++ bigEndian 2 r.port)

def Request.address (r : Request) : Address := ⟨r.destination.host, r.port⟩

/-- The types of address that no request can have. -/
def Unsupported (atyp : UInt8) : Prop := atyp ≠ atypIPv4 ∧ atyp ≠ atypIPv6 ∧ atyp ≠ atypDomain

def greeting (methods : List UInt8) : List UInt8 := [version, UInt8.ofNat methods.length] ++ methods

/-- Methods that a greeting can have, and that the server can take one of. -/
structure Offers (methods : List UInt8) : Prop where
  counted : methods.length < 256
  offered : methodNoAuth ∈ methods

/-! ### Steps -/

/-- The connection when a part of the server is through. -/
def final {α : Type} : EStateM.Result SocksError Conn α → Conn
  | .ok _ c => c
  | .error _ c => c

variable {α β : Type} {c c' : Conn} {world : World} {n : ℕ} {ended err : SocksError}
  {bytes rest : List UInt8}

theorem bind_ok {first : Serve α} {next : α → Serve β} {a : α} (goes : first c = .ok a c') :
    (first >>= next) c = next a c' := by
  show EStateM.bind first next c = _
  rw [EStateM.bind, goes]

theorem bind_error {first : Serve α} {next : α → Serve β} (fails : first c = .error err c') :
    (first >>= next) c = .error err c' := by
  show EStateM.bind first next c = _
  rw [EStateM.bind, fails]

theorem read_ok (stream : c.reads.flatten = bytes ++ rest) (sized : bytes.length = n) :
    ∃ left, left.flatten = rest ∧ read n ended c = .ok bytes ⟨left, c.log⟩ := by
  obtain ⟨left, reads, same⟩ := readFull_append stream
  refine ⟨left, same, ?_⟩
  rw [read, ← sized, reads]

theorem read_cases (n : ℕ) (ended : SocksError) (c : Conn) :
    (∃ bytes left, bytes.length = n ∧ c.reads.flatten = bytes ++ left.flatten ∧
      read n ended c = .ok bytes ⟨left, c.log⟩) ∨ read n ended c = .error ended ⟨[], c.log⟩ := by
  rw [read]
  cases reads : readFull n c.reads with
  | none => exact Or.inr rfl
  | some pair =>
    obtain ⟨stream, sized⟩ := readFull_some reads
    exact Or.inl ⟨pair.1, pair.2, sized, stream, rfl⟩

theorem toNat_ofNat_length {raw : List UInt8} (small : raw.length < 256) :
    (UInt8.ofNat raw.length).toNat = raw.length := by
  rw [UInt8.toNat_ofNat', Nat.mod_eq_of_lt small]

theorem readRaw_ipv4 : readRaw atypIPv4 = read 4 .readingAddress := rfl
theorem readRaw_ipv6 : readRaw atypIPv6 = read 16 .readingAddress := rfl

theorem readRaw_domain : readRaw atypDomain = (do
    let n ← read 1 .readingDomainLength
    read (byteAt n 0).toNat .readingAddress) := rfl

theorem readRaw_ok (destination : Destination) (stream : c.reads.flatten = destination.bytes ++ rest) :
    ∃ left, left.flatten = rest ∧ readRaw destination.atyp c = .ok destination.raw ⟨left, c.log⟩ := by
  cases destination with
  | ipv4 raw sized =>
    rw [Destination.atyp, readRaw_ipv4]
    exact read_ok stream sized
  | ipv6 raw sized =>
    rw [Destination.atyp, readRaw_ipv6]
    exact read_ok stream sized
  | domain raw sized =>
    obtain ⟨left, behind, counts⟩ := @read_ok c 1 .readingDomainLength [UInt8.ofNat raw.length]
      (raw ++ rest) stream rfl
    obtain ⟨left', same, reads⟩ := @read_ok ⟨left, c.log⟩ _ .readingAddress raw rest behind
      (toNat_ofNat_length sized).symm
    refine ⟨left', same, ?_⟩
    rw [Destination.atyp, readRaw_domain, bind_ok counts]
    exact reads

theorem host_eq (destination : Destination) : destination.host =
    if destination.atyp = atypDomain then destination.raw else ipString destination.raw := by
  cases destination with
  | ipv4 raw sized => exact (if_neg (by decide : atypIPv4 ≠ atypDomain)).symm
  | ipv6 raw sized => exact (if_neg (by decide : atypIPv6 ≠ atypDomain)).symm
  | domain raw sized => exact (if_pos rfl).symm

theorem readAddress_ok (destination : Destination) {port : ℕ} (bounded : port < 65536)
    (stream : c.reads.flatten = destination.bytes ++ bigEndian 2 port ++ rest) :
    ∃ left, left.flatten = rest ∧
      readAddress destination.atyp c = .ok ⟨destination.host, port⟩ ⟨left, c.log⟩ := by
  rw [List.append_assoc] at stream
  obtain ⟨left, behind, raw⟩ := readRaw_ok destination stream
  obtain ⟨left', same, ports⟩ := @read_ok ⟨left, c.log⟩ 2 .readingPort _ _ behind
    (length_bigEndian 2 port)
  refine ⟨left', same, ?_⟩
  rw [readAddress, bind_ok raw, bind_ok ports, host_eq, ofBigEndian_bigEndian bounded]
  rfl

theorem readRaw_cases (atyp : UInt8) (c : Conn) :
    (∃ (destination : Destination) (left : List (List UInt8)), destination.atyp = atyp ∧
      c.reads.flatten = destination.bytes ++ left.flatten ∧
      readRaw atyp c = .ok destination.raw ⟨left, c.log⟩) ∨
    (Unsupported atyp ∧ readRaw atyp c = .error (.addrTypeNotSupported atyp) c) ∨
    ∃ err, (∀ atyp, err ≠ .addrTypeNotSupported atyp) ∧ readRaw atyp c = .error err ⟨[], c.log⟩ := by
  rw [readRaw]
  split_ifs with ip4 ip6 name
  · rcases read_cases 4 .readingAddress c with ⟨raw, left, sized, stream, reads⟩ | ends
    · exact Or.inl ⟨.ipv4 raw sized, left, ip4.symm, stream, reads⟩
    · exact Or.inr (Or.inr ⟨.readingAddress, fun _ => SocksError.noConfusion, ends⟩)
  · rcases read_cases 16 .readingAddress c with ⟨raw, left, sized, stream, reads⟩ | ends
    · exact Or.inl ⟨.ipv6 raw sized, left, ip6.symm, stream, reads⟩
    · exact Or.inr (Or.inr ⟨.readingAddress, fun _ => SocksError.noConfusion, ends⟩)
  · rcases read_cases 1 .readingDomainLength c with ⟨count, left, sized, stream, reads⟩ | ends
    · obtain ⟨byte, rfl⟩ := List.length_eq_one_iff.mp sized
      rw [bind_ok reads]
      rcases read_cases byte.toNat .readingAddress ⟨left, c.log⟩ with
        ⟨raw, left', sized', stream', reads'⟩ | ends
      · have small : raw.length < 256 := sized' ▸ byte.toNat_lt
        refine Or.inl ⟨.domain raw small, left', name.symm, ?_, reads'⟩
        rw [stream, show left.flatten = raw ++ left'.flatten from stream', Destination.bytes, sized',
          UInt8.ofNat_toNat]
        rfl
      · exact Or.inr (Or.inr ⟨.readingAddress, fun _ => SocksError.noConfusion, ends⟩)
    · rw [bind_error ends]
      exact Or.inr (Or.inr ⟨.readingDomainLength, fun _ => SocksError.noConfusion, rfl⟩)
  · exact Or.inr (Or.inl ⟨⟨ip4, ip6, name⟩, rfl⟩)

theorem readAddress_cases (atyp : UInt8) (c : Conn) :
    (∃ (destination : Destination) (port : ℕ) (left : List (List UInt8)), port < 65536 ∧
      destination.atyp = atyp ∧
      c.reads.flatten = destination.bytes ++ bigEndian 2 port ++ left.flatten ∧
      readAddress atyp c = .ok ⟨destination.host, port⟩ ⟨left, c.log⟩) ∨
    (Unsupported atyp ∧ readAddress atyp c = .error (.addrTypeNotSupported atyp) c) ∨
    ∃ err, (∀ atyp, err ≠ .addrTypeNotSupported atyp) ∧
      readAddress atyp c = .error err ⟨[], c.log⟩ := by
  rcases readRaw_cases atyp c with ⟨destination, left, rfl, stream, raw⟩ | ⟨unsupported, fails⟩ |
    ⟨err, other, fails⟩
  · rcases read_cases 2 .readingPort ⟨left, c.log⟩ with ⟨port, left', sized, stream', ports⟩ | ends
    · have written : bigEndian 2 (ofBigEndian port) = port := sized ▸ bigEndian_ofBigEndian port
      have bounded : ofBigEndian port < 65536 := by
        have fits := ofBigEndian_lt port
        rwa [sized] at fits
      refine Or.inl ⟨destination, ofBigEndian port, left', bounded, rfl, ?_, ?_⟩
      · rw [stream, show left.flatten = port ++ left'.flatten from stream', written, List.append_assoc]
      · rw [readAddress, bind_ok raw, bind_ok ports, host_eq]
        rfl
    · refine Or.inr (Or.inr ⟨.readingPort, fun _ => SocksError.noConfusion, ?_⟩)
      rw [readAddress, bind_ok raw, bind_error ends]
  · refine Or.inr (Or.inl ⟨unsupported, ?_⟩)
    rw [readAddress, bind_error fails]
  · refine Or.inr (Or.inr ⟨err, other, ?_⟩)
    rw [readAddress, bind_error fails]

/-- What is done with a complete request: it gets one reply, behind what is dialled for it. -/
inductive Answered (cmd : UInt8) (addr : Address) (left : List (List UInt8)) : List Event → Prop
  | refused (rep : UInt8) : Answered cmd addr left [⟨.wrote (replyFrame rep), left⟩]
  | dialed (rep : UInt8) (after : List Event) (connects : cmd = cmdConnect) (named : addr.host ≠ [])
      (silent : after = [] ∨ after = [⟨.closedRemote, left⟩] ∨ after = [⟨.spliced, left⟩]) :
      Answered cmd addr left (⟨.dialed (joinHostPort addr.host (itoa addr.port)), left⟩ ::
        ⟨.wrote (replyFrame rep), left⟩ :: after)

theorem final_refuse (rep : UInt8) (err : SocksError) :
    final (refuse world rep err c) = ⟨c.reads, c.log ++ [⟨.wrote (replyFrame rep), c.reads⟩]⟩ := rfl

theorem final_succeed : ∃ after, final (succeed world c) =
      ⟨c.reads, c.log ++ ⟨.wrote (replyFrame repSuccess), c.reads⟩ :: after⟩ ∧
    (after = [] ∨ after = [⟨.closedRemote, c.reads⟩] ∨ after = [⟨.spliced, c.reads⟩]) := by
  have replies : writeReply world repSuccess c = .ok (world.accepts (c.log.countP Event.isWrite))
      ⟨c.reads, c.log ++ [⟨.wrote (replyFrame repSuccess), c.reads⟩]⟩ := rfl
  rw [succeed, bind_ok replies]
  by_cases lost : world.accepts (c.log.countP Event.isWrite) = false
  · rw [if_pos lost]
    refine ⟨_, ?_, Or.inr (Or.inl rfl)⟩
    show (⟨c.reads, c.log ++ [_] ++ [_]⟩ : Conn) = _
    rw [List.append_assoc]
    rfl
  · rw [if_neg lost]
    refine ⟨_, ?_, Or.inr (Or.inr rfl)⟩
    show (⟨c.reads, c.log ++ [_] ++ [_]⟩ : Conn) = _
    rw [List.append_assoc]
    rfl

theorem connect_answers (cmd : UInt8) (addr : Address) : ∃ events,
    final (connect world cmd addr c) = ⟨c.reads, c.log ++ events⟩ ∧ Answered cmd addr c.reads events := by
  rw [connect]
  by_cases connects : cmd = cmdConnect
  · rw [if_neg (not_not.mpr connects)]
    by_cases named : addr.host = []
    · rw [if_pos named]
      exact ⟨_, final_refuse _ _, .refused _⟩
    · rw [if_neg named]
      have dials : act (.dialed (joinHostPort addr.host (itoa addr.port))) c = .ok () ⟨c.reads, c.log ++
          [⟨.dialed (joinHostPort addr.host (itoa addr.port)), c.reads⟩]⟩ := rfl
      rw [bind_ok dials]
      cases world.dial (joinHostPort addr.host (itoa addr.port)) with
      | failed err =>
        refine ⟨_, ?_, .dialed (replyCodeForDialError err) [] connects named (Or.inl rfl)⟩
        rw [final_refuse, List.append_assoc]
        rfl
      | nothing =>
        refine ⟨_, ?_, .dialed repGeneralFailure [] connects named (Or.inl rfl)⟩
        rw [final_refuse, List.append_assoc]
        rfl
      | connected =>
        obtain ⟨after, succeeds, silent⟩ := @final_succeed ⟨c.reads, c.log ++
          [⟨.dialed (joinHostPort addr.host (itoa addr.port)), c.reads⟩]⟩ world
        refine ⟨_, ?_, .dialed repSuccess after connects named silent⟩
        rw [succeeds, List.append_assoc]
        rfl
  · rw [if_pos connects]
    exact ⟨_, final_refuse _ _, .refused _⟩

theorem handleRequest_eq {cmd reserved atyp : UInt8} {left : List (List UInt8)}
    (head : read 4 .readingRequest c = .ok [version, cmd, reserved, atyp] ⟨left, c.log⟩) :
    handleRequest world c = (do
      let addr ← tryCatch (readAddress atyp) (refuseAddress world)
      connect world cmd addr : Serve Unit) ⟨left, c.log⟩ := by
  rw [handleRequest, bind_ok head]
  rfl

/-- **A complete request is answered, and nothing behind it is read.** -/
theorem handleRequest_ok (request : Request) (stream : c.reads.flatten = request.bytes ++ rest) :
    ∃ left events, left.flatten = rest ∧ final (handleRequest world c) = ⟨left, c.log ++ events⟩ ∧
      Answered request.cmd request.address left events := by
  rw [Request.bytes, List.append_assoc] at stream
  obtain ⟨left, behind, head⟩ := @read_ok c 4 .readingRequest _ _ stream rfl
  obtain ⟨left', same, address⟩ := @readAddress_ok ⟨left, c.log⟩ _ request.destination _
    request.bounded behind
  have caught : tryCatch (readAddress request.destination.atyp) (refuseAddress world) ⟨left, c.log⟩ =
      .ok request.address ⟨left', c.log⟩ := by
    show EStateM.tryCatch _ _ _ = _
    rw [EStateM.tryCatch, address]
    rfl
  obtain ⟨events, answers, answered⟩ := @connect_answers ⟨left', c.log⟩ world request.cmd request.address
  refine ⟨left', events, same, ?_, answered⟩
  rw [handleRequest_eq head, bind_ok caught]
  exact answers

theorem handleRequest_unsupported {cmd reserved atyp : UInt8} (unsupported : Unsupported atyp)
    (stream : c.reads.flatten = [version, cmd, reserved, atyp] ++ rest) :
    ∃ left, left.flatten = rest ∧ final (handleRequest world c) =
      ⟨left, c.log ++ [⟨.wrote (replyFrame repAddrTypeNotSupported), left⟩]⟩ := by
  obtain ⟨left, behind, head⟩ := @read_ok c 4 .readingRequest _ _ stream rfl
  have fails : readAddress atyp ⟨left, c.log⟩ = .error (.addrTypeNotSupported atyp) ⟨left, c.log⟩ := by
    have raw : readRaw atyp ⟨left, c.log⟩ = .error (.addrTypeNotSupported atyp) ⟨left, c.log⟩ := by
      rw [readRaw, if_neg unsupported.1, if_neg unsupported.2.1, if_neg unsupported.2.2]
      rfl
    rw [readAddress, bind_error raw]
  have caught : tryCatch (readAddress atyp) (refuseAddress world) ⟨left, c.log⟩ =
      .error (.addrTypeNotSupported atyp)
        ⟨left, c.log ++ [⟨.wrote (replyFrame repAddrTypeNotSupported), left⟩]⟩ := by
    show EStateM.tryCatch _ _ _ = _
    rw [EStateM.tryCatch, fails]
    rfl
  refine ⟨left, behind, ?_⟩
  rw [handleRequest_eq head, bind_error caught]
  rfl

/-- **What a request comes to.** A complete one is answered, one with an unsupported type of address is
refused with a reply, and to anything else nothing is done. -/
theorem handleRequest_cases (world : World) (c : Conn) :
    (∃ (request : Request) (left : List (List UInt8)) (events : List Event),
      c.reads.flatten = request.bytes ++ left.flatten ∧
      final (handleRequest world c) = ⟨left, c.log ++ events⟩ ∧
      Answered request.cmd request.address left events) ∨
    (∃ cmd reserved atyp left, Unsupported atyp ∧
      c.reads.flatten = [version, cmd, reserved, atyp] ++ left.flatten ∧
      final (handleRequest world c) =
        ⟨left, c.log ++ [⟨.wrote (replyFrame repAddrTypeNotSupported), left⟩]⟩) ∨
    ∃ left, final (handleRequest world c) = ⟨left, c.log⟩ := by
  rcases read_cases 4 .readingRequest c with ⟨head, left, sized, stream, reads⟩ | ends
  · obtain ⟨first, cmd, reserved, atyp, rfl⟩ := List.length_eq_four.mp sized
    by_cases versioned : first = version
    · subst versioned
      rcases readAddress_cases atyp ⟨left, c.log⟩ with
        ⟨destination, port, left', bounded, rfl, behind, -⟩ | ⟨unsupported, -⟩ | ⟨err, other, fails⟩
      · have behind' : left.flatten = destination.bytes ++ bigEndian 2 port ++ left'.flatten := behind
        have whole : c.reads.flatten =
            (Request.mk cmd reserved destination port bounded).bytes ++ left'.flatten := by
          rw [stream, behind', Request.bytes]
          simp only [List.append_assoc]
        obtain ⟨left'', events, same, answers, answered⟩ :=
          @handleRequest_ok c world _ (Request.mk cmd reserved destination port bounded) whole
        exact Or.inl ⟨_, left'', events, by rw [whole, same], answers, answered⟩
      · obtain ⟨left', same, answers⟩ := @handleRequest_unsupported c world _ _ _ _ unsupported stream
        exact Or.inr (Or.inl ⟨cmd, reserved, atyp, left', unsupported, by rw [stream, same], answers⟩)
      · refine Or.inr (Or.inr ⟨[], ?_⟩)
        have caught : tryCatch (readAddress atyp) (refuseAddress world) ⟨left, c.log⟩ =
            .error err ⟨[], c.log⟩ := by
          show EStateM.tryCatch _ _ _ = _
          rw [EStateM.tryCatch, fails]
          cases err with
          | addrTypeNotSupported atyp => exact absurd rfl (other atyp)
          | _ => rfl
        rw [handleRequest_eq reads, bind_error caught]
        rfl
    · refine Or.inr (Or.inr ⟨left, ?_⟩)
      have differs : byteAt [first, cmd, reserved, atyp] 0 ≠ version := versioned
      rw [handleRequest, bind_ok reads, if_pos differs]
      rfl
  · refine Or.inr (Or.inr ⟨[], ?_⟩)
    rw [handleRequest, bind_error ends]
    rfl

/-! ### The whole front end -/

theorem negotiateMethod_eq {count : UInt8} {left : List (List UInt8)}
    (head : read 2 .readingGreeting c = .ok [version, count] ⟨left, c.log⟩) :
    negotiateMethod world c = (do
      let methods ← read count.toNat .readingMethods
      selectMethod world methods : Serve Unit) ⟨left, c.log⟩ := by
  rw [negotiateMethod, bind_ok head]
  rfl

theorem selectMethod_ok {methods : List UInt8} (offered : methodNoAuth ∈ methods)
    (written : world.accepts (c.log.countP Event.isWrite) = true) : selectMethod world methods c =
      .ok () ⟨c.reads, c.log ++ [⟨.wrote [version, methodNoAuth], c.reads⟩]⟩ := by
  have writes : write world [version, methodNoAuth] c =
      .ok true ⟨c.reads, c.log ++ [⟨.wrote [version, methodNoAuth], c.reads⟩]⟩ := by
    rw [write, written]
  rw [selectMethod, if_pos offered, bind_ok writes]
  rfl

theorem selectMethod_fails {methods : List UInt8} (fails : methodNoAuth ∉ methods ∨
    world.accepts (c.log.countP Event.isWrite) = false) : ∃ err method,
      selectMethod world methods c =
        .error err ⟨c.reads, c.log ++ [⟨.wrote [version, method], c.reads⟩]⟩ := by
  by_cases offered : methodNoAuth ∈ methods
  · have written := fails.resolve_left (not_not.mpr offered)
    have writes : write world [version, methodNoAuth] c =
        .ok false ⟨c.reads, c.log ++ [⟨.wrote [version, methodNoAuth], c.reads⟩]⟩ := by
      rw [write, written]
    refine ⟨.writing, methodNoAuth, ?_⟩
    rw [selectMethod, if_pos offered, bind_ok writes]
    rfl
  · rw [selectMethod, if_neg offered]
    exact ⟨_, methodNoAcceptable, rfl⟩

theorem negotiateMethod_ok {methods : List UInt8} (offers : Offers methods)
    (stream : c.reads.flatten = greeting methods ++ rest)
    (written : world.accepts (c.log.countP Event.isWrite) = true) :
    ∃ left, left.flatten = rest ∧ negotiateMethod world c =
      .ok () ⟨left, c.log ++ [⟨.wrote [version, methodNoAuth], left⟩]⟩ := by
  rw [greeting, List.append_assoc] at stream
  obtain ⟨left, behind, head⟩ := @read_ok c 2 .readingGreeting _ _ stream rfl
  obtain ⟨left', same, reads⟩ := @read_ok ⟨left, c.log⟩ _ .readingMethods methods rest behind
    (toNat_ofNat_length offers.counted).symm
  refine ⟨left', same, ?_⟩
  rw [negotiateMethod_eq head, bind_ok reads]
  exact @selectMethod_ok ⟨left', c.log⟩ _ _ offers.offered written

theorem negotiateMethod_cases (world : World) (c : Conn) :
    (∃ methods left, Offers methods ∧ c.reads.flatten = greeting methods ++ left.flatten ∧
      negotiateMethod world c = .ok () ⟨left, c.log ++ [⟨.wrote [version, methodNoAuth], left⟩]⟩) ∨
    ∃ err left events, negotiateMethod world c = .error err ⟨left, c.log ++ events⟩ ∧
      (events = [] ∨ ∃ method, events = [⟨.wrote [version, method], left⟩]) := by
  rcases read_cases 2 .readingGreeting c with ⟨head, left, sized, stream, reads⟩ | ends
  · obtain ⟨first, count, rfl⟩ := List.length_eq_two.mp sized
    by_cases versioned : first = version
    · subst versioned
      rw [negotiateMethod_eq reads]
      rcases read_cases count.toNat .readingMethods ⟨left, c.log⟩ with
        ⟨methods, left', sized', stream', reads'⟩ | ends
      · have behind : left.flatten = methods ++ left'.flatten := stream'
        rw [bind_ok reads']
        by_cases answered : methodNoAuth ∈ methods ∧ world.accepts (c.log.countP Event.isWrite) = true
        · have small : methods.length < 256 := sized' ▸ count.toNat_lt
          refine Or.inl ⟨methods, left', ⟨small, answered.1⟩, ?_, ?_⟩
          · rw [stream, behind, greeting, sized', UInt8.ofNat_toNat]
            rfl
          · exact @selectMethod_ok ⟨left', c.log⟩ _ _ answered.1 answered.2
        · rw [not_and_or, Bool.not_eq_true] at answered
          obtain ⟨err, method, fails⟩ := @selectMethod_fails ⟨left', c.log⟩ _ _ answered
          exact Or.inr ⟨err, left', _, fails, Or.inr ⟨method, rfl⟩⟩
      · refine Or.inr ⟨.readingMethods, [], [], ?_, Or.inl rfl⟩
        rw [bind_error ends, List.append_nil]
    · have differs : byteAt [first, count] 0 ≠ version := versioned
      refine Or.inr ⟨.unsupportedVersion first, left, [], ?_, Or.inl rfl⟩
      rw [negotiateMethod, bind_ok reads, if_pos differs, List.append_nil]
      rfl
  · refine Or.inr ⟨.readingGreeting, [], [], ?_, Or.inl rfl⟩
    rw [negotiateMethod, bind_error ends, List.append_nil]

def served (world : World) (reads : List (List UInt8)) : Conn := final (serveConn world ⟨reads, []⟩)

theorem Answered.counts {cmd : UInt8} {addr : Address} {left : List (List UInt8)} {events : List Event}
    (answered : Answered cmd addr left events) :
    events.countP Event.isReply = 1 ∧ events.countP Event.isDial ≤ 1 := by
  cases answered with
  | refused rep => exact ⟨rfl, Nat.zero_le _⟩
  | dialed rep after connects named silent =>
    rcases silent with rfl | rfl | rfl
    · exact ⟨rfl, le_rfl⟩
    · exact ⟨rfl, le_rfl⟩
    · exact ⟨rfl, le_rfl⟩

theorem Answered.dials {cmd : UInt8} {addr : Address} {left left' : List (List UInt8)}
    {events : List Event} {target : List UInt8} (answered : Answered cmd addr left events)
    (dialed : ⟨.dialed target, left'⟩ ∈ events) : left' = left ∧ cmd = cmdConnect ∧ addr.host ≠ [] ∧
      target = joinHostPort addr.host (itoa addr.port) := by
  cases answered with
  | refused rep => simp at dialed
  | dialed rep after connects named silent =>
    have first : target = joinHostPort addr.host (itoa addr.port) ∧ left' = left := by
      rcases silent with rfl | rfl | rfl <;> simpa using dialed
    exact ⟨first.2, connects, named, first.1⟩

theorem served_cases (world : World) (reads : List (List UInt8)) :
    (∃ methods left, Offers methods ∧ reads.flatten = greeting methods ++ left.flatten ∧
      served world reads =
        final (handleRequest world ⟨left, [⟨.wrote [version, methodNoAuth], left⟩]⟩)) ∨
    ((served world reads).log.countP Event.isReply = 0 ∧
      (served world reads).log.countP Event.isDial = 0) := by
  rcases negotiateMethod_cases world ⟨reads, []⟩ with ⟨methods, left, offers, stream, selects⟩ |
    ⟨err, left, events, fails, few⟩
  · refine Or.inl ⟨methods, left, offers, stream, ?_⟩
    rw [served, serveConn, bind_ok selects]
    rfl
  · refine Or.inr ?_
    rw [served, serveConn, bind_error fails]
    rcases few with rfl | ⟨method, rfl⟩
    · exact ⟨rfl, rfl⟩
    · exact ⟨rfl, rfl⟩

theorem served_offered {reads : List (List UInt8)} {methods tail : List UInt8} (offers : Offers methods)
    (stream : reads.flatten = greeting methods ++ tail) (written : world.accepts 0 = true) :
    ∃ left, left.flatten = tail ∧ served world reads =
      final (handleRequest world ⟨left, [⟨.wrote [version, methodNoAuth], left⟩]⟩) := by
  obtain ⟨left, behind, selects⟩ := @negotiateMethod_ok ⟨reads, []⟩ world tail methods offers stream written
  refine ⟨left, behind, ?_⟩
  rw [served, serveConn, bind_ok selects]
  rfl

/-- The bytes behind a greeting begin with a request of this version that is answered. -/
def Whole (tail : List UInt8) : Prop :=
  (∃ (request : Request) (rest : List UInt8), tail = request.bytes ++ rest) ∨
    ∃ cmd reserved atyp rest, Unsupported atyp ∧ tail = [version, cmd, reserved, atyp] ++ rest

/-- **What is dialled, what is answered, and what is left unread.** -/
theorem serveConn_safe (world : World) (reads : List (List UInt8)) :
    (served world reads).log.countP Event.isDial ≤ 1 ∧
    (∀ target left, ⟨.dialed target, left⟩ ∈ (served world reads).log →
      ∃ (methods : List UInt8) (request : Request), Offers methods ∧
        reads.flatten = greeting methods ++ (request.bytes ++ left.flatten) ∧
        request.cmd = cmdConnect ∧ request.destination.host ≠ [] ∧
        target = joinHostPort request.destination.host (itoa request.port) ∧
        ∀ host port, joinHostPort host (itoa port) = target →
          host = request.destination.host ∧ port = request.port) ∧
    ∀ methods tail, Offers methods → reads.flatten = greeting methods ++ tail →
      world.accepts 0 = true →
      (∀ (request : Request) (rest : List UInt8), tail = request.bytes ++ rest →
        (served world reads).log.countP Event.isReply = 1 ∧
          (served world reads).reads.flatten = rest) ∧
      (∀ cmd reserved atyp rest, Unsupported atyp → tail = [version, cmd, reserved, atyp] ++ rest →
        (served world reads).log.countP Event.isReply = 1 ∧
          (served world reads).log.countP Event.isDial = 0 ∧
          (served world reads).reads.flatten = rest) ∧
      (¬ Whole tail → (served world reads).log.countP Event.isReply = 0 ∧
        (served world reads).log.countP Event.isDial = 0) := by
  refine ⟨?_, fun target left dialed => ?_, fun methods tail offers stream written => ?_⟩
  · rcases served_cases world reads with ⟨methods, left, -, -, handled⟩ | ⟨-, silent⟩
    · rw [handled]
      rcases handleRequest_cases world ⟨left, [⟨.wrote [version, methodNoAuth], left⟩]⟩ with
        ⟨request, left', events, -, does, answered⟩ | ⟨cmd, reserved, atyp, left', -, -, does⟩ |
        ⟨left', does⟩
      · rw [does, List.countP_append]
        exact (Nat.zero_add _).trans_le answered.counts.2
      · rw [does]
        exact Nat.zero_le 1
      · rw [does]
        exact Nat.zero_le 1
    · exact silent.trans_le (Nat.zero_le 1)
  · rcases served_cases world reads with ⟨methods, left₁, offers, stream, handled⟩ | ⟨-, silent⟩
    · rw [handled] at dialed
      rcases handleRequest_cases world ⟨left₁, [⟨.wrote [version, methodNoAuth], left₁⟩]⟩ with
        ⟨request, left', events, behind, does, answered⟩ | ⟨cmd, reserved, atyp, left', -, -, does⟩ |
        ⟨left', does⟩
      · rw [does] at dialed
        have among : ⟨.dialed target, left⟩ ∈ events := by
          rcases List.mem_append.mp dialed with first | among
          · simp at first
          · exact among
        obtain ⟨rfl, connects, named, rfl⟩ := answered.dials among
        have behind' : left₁.flatten = request.bytes ++ left.flatten := behind
        refine ⟨methods, request, offers, by rw [stream, behind'], connects, named, rfl, ?_⟩
        exact fun host port same => joinHostPort_inj same
      · rw [does] at dialed
        simp at dialed
      · rw [does] at dialed
        simp at dialed
    · rw [List.countP_eq_zero] at silent
      exact absurd rfl (silent _ dialed)
  · obtain ⟨left, behind, handled⟩ := served_offered offers stream written
    rw [handled]
    refine ⟨fun request rest complete => ?_, fun cmd reserved atyp rest unsupported complete => ?_,
      fun none => ?_⟩
    · obtain ⟨left', events, same, does, answered⟩ := @handleRequest_ok
        ⟨left, [⟨.wrote [version, methodNoAuth], left⟩]⟩ world rest request (behind.trans complete)
      rw [does, List.countP_append, answered.counts.1]
      exact ⟨rfl, same⟩
    · obtain ⟨left', same, does⟩ := @handleRequest_unsupported
        ⟨left, [⟨.wrote [version, methodNoAuth], left⟩]⟩ world rest cmd reserved atyp unsupported
        (behind.trans complete)
      rw [does]
      exact ⟨rfl, rfl, same⟩
    · rcases handleRequest_cases world ⟨left, [⟨.wrote [version, methodNoAuth], left⟩]⟩ with
        ⟨request, left', events, whole, -⟩ | ⟨cmd, reserved, atyp, left', unsupported, whole, -⟩ |
        ⟨left', does⟩
      · exact absurd (Or.inl ⟨request, left'.flatten, behind.symm.trans whole⟩) none
      · exact absurd (Or.inr ⟨cmd, reserved, atyp, left'.flatten, unsupported,
          behind.symm.trans whole⟩) none
      · rw [does]
        exact ⟨rfl, rfl⟩

/-- A request for a name of two letters in a few reads, with two bytes behind it. -/
theorem serveConn_safe_small :
    (served ⟨fun _ => .connected, fun _ => true⟩
      [[5], [1, 0, 5, 1], [0, 3, 2, 97], [98, 0, 80, 7, 7]]).log.countP Event.isReply = 1 ∧
    (served ⟨fun _ => .connected, fun _ => true⟩
      [[5], [1, 0, 5, 1], [0, 3, 2, 97], [98, 0, 80, 7, 7]]).reads.flatten = [7, 7] :=
  ((serveConn_safe ⟨fun _ => .connected, fun _ => true⟩ _).2.2 [0] _ ⟨by decide, by decide⟩ rfl rfl).1
    ⟨1, 0, .domain [97, 98] (by decide), 80, by decide⟩ [7, 7] (by decide)

/-- The front end ended with an error. -/
def Refused (world : World) (reads : List (List UInt8)) : Prop :=
  ∃ err c, serveConn world ⟨reads, []⟩ = .error err c

theorem serveConn_drops : ¬ ∀ (world : World) (reads : List (List UInt8)) (methods : List UInt8)
    (first : UInt8) (request : Request), Offers methods → world.accepts 0 = true →
      reads.flatten = greeting methods ++ first :: request.bytes.tail → Refused world reads →
        (served world reads).log.countP Event.isReply = 1 := by
  intro replies
  have replied := replies ⟨fun _ => .connected, fun _ => true⟩ [[5, 1, 0, 4, 1, 0, 1, 1, 2, 3, 4, 0, 80]]
    [0] 4 ⟨1, 0, .ipv4 [1, 2, 3, 4] (by decide), 80, by decide⟩ ⟨by decide, by decide⟩ rfl (by decide)
    ⟨_, _, rfl⟩
  exact absurd replied (by decide)

end Atterm.Socks5
