/-
**The browser's side of the direct route.**

The desktop web view keeps its own route tracker and its own terminal fragments, over numbers instead
of fixed-width words. They agree with the host's as long as the numbers are exact.

* `DirectRouteTracker.call_web` — one call answers as the host's and keeps the states equal;
* `add_same` — so does one fragment;
* `web_transport_agrees` — every run gives the same results and ends in the same state.
-/

import Atterm.Foundation.Simulation
import Atterm.Transport.Fragment
import Atterm.Transport.Route

namespace Atterm.Transport

open Atterm.Foundation

/-- Numbers below this are exact and safe integers. -/
def safeLimit : ℕ := 2 ^ 53

/-- `Number.isSafeInteger`, of a natural number. -/
def isSafeInteger (number : ℕ) : Bool := decide (number < safeLimit)

/-- `number++`: the successor of `2 ^ 53` rounds back to it. -/
def increment (number : ℕ) : ℕ := if number < safeLimit then number + 1 else number

/-- The two errors of the tracker: `invalid direct route transition` and
`stale direct route generation`. -/
inductive DirectRouteError where
  | transition
  | stale
deriving DecidableEq, Repr

/-- The route generation, the output cursor and the sole input writer of one session. -/
structure DirectRouteTracker where
  routeState : RouteState
  routeGeneration : ℕ
  lastCommittedSeq : ℕ
  directStartSeq : ℕ
  directObservedSeq : ℕ
  directReady : Bool
deriving DecidableEq, Repr

namespace DirectRouteTracker

def new (committedSeq : ℕ) : DirectRouteTracker := ⟨.relayAttached, 1, committedSeq, 0, 0, false⟩

variable (r : DirectRouteTracker) (generation : ℕ)

def beginDirect : Except DirectRouteError ℕ × DirectRouteTracker :=
  if r.routeState ≠ .relayAttached then (.error .transition, r)
  else (.ok r.routeGeneration,
    { r with
      routeState := .directConnecting
      directStartSeq := r.lastCommittedSeq
      directObservedSeq := r.lastCommittedSeq
      directReady := false })

def beginDirectReplay : Except DirectRouteError Unit × DirectRouteTracker :=
  if generation ≠ r.routeGeneration then (.error .stale, r)
  else if r.routeState ≠ .directConnecting then (.error .transition, r)
  else (.ok (), { r with routeState := .directReplay })

def noteDirectReady (replayedSeq : ℕ) : Except DirectRouteError Unit × DirectRouteTracker :=
  if generation ≠ r.routeGeneration then (.error .stale, r)
  else if r.routeState ≠ .directReplay ∨ isSafeInteger replayedSeq = false ∨
      replayedSeq < r.directStartSeq then (.error .transition, r)
  else (.ok (),
    { r with
      directObservedSeq := max r.directObservedSeq replayedSeq
      directReady := true })

def canActivateDirect : Bool :=
  decide (generation = r.routeGeneration) && decide (r.routeState = .directReplay) &&
    r.directReady && decide (r.directObservedSeq ≥ r.lastCommittedSeq)

def activateDirect : Except DirectRouteError Unit × DirectRouteTracker :=
  if generation ≠ r.routeGeneration then (.error .stale, r)
  else if r.canActivateDirect generation = false then (.error .transition, r)
  else (.ok (), { r with routeState := .directActive })

def abortDirect : Except DirectRouteError Unit × DirectRouteTracker :=
  if generation ≠ r.routeGeneration then (.error .stale, r)
  else if r.routeState ≠ .directConnecting ∧ r.routeState ≠ .directReplay then
    (.error .transition, r)
  else (.ok (),
    { r with routeGeneration := increment r.routeGeneration, routeState := .relayAttached })

def directLost : Except DirectRouteError ℕ × DirectRouteTracker :=
  if generation ≠ r.routeGeneration then (.error .stale, r)
  else if r.routeState ≠ .directActive then (.error .transition, r)
  else (.ok (increment r.routeGeneration),
    { r with routeGeneration := increment r.routeGeneration, routeState := .relayReattaching })

def relayAttached : Except DirectRouteError Unit × DirectRouteTracker :=
  if generation ≠ r.routeGeneration then (.error .stale, r)
  else if r.routeState ≠ .relayReattaching then (.error .transition, r)
  else (.ok (), { r with routeState := .relayAttached })

def inputRoute : Route :=
  match r.routeState with
  | .relayAttached => .relay
  | .directConnecting => .relay
  | .directReplay => .relay
  | .directActive => .direct
  | .relayReattaching => .none

/-- The routes that `acceptOutput` lets through in a phase. -/
def allowed (route : Route) : RouteState → Bool
  | .relayAttached => decide (route = .relay)
  | .directConnecting => decide (route = .relay)
  | .relayReattaching => decide (route = .relay)
  | .directReplay => decide (route = .relay) || decide (route = .direct)
  | .directActive => decide (route = .direct)

def acceptOutput (route : Route) (seq : ℕ) : Bool × DirectRouteTracker :=
  if generation ≠ r.routeGeneration ∨ seq ≤ 0 then (false, r)
  else if allowed route r.routeState = false then (false, r)
  else
    let observed :=
      if route = .direct ∧ r.routeState = .directReplay then
        { r with directObservedSeq := max r.directObservedSeq seq }
      else r
    if seq ≤ observed.lastCommittedSeq then (false, observed)
    else (true, { observed with lastCommittedSeq := seq })

/-- `acceptsRoute` lets the same routes through as `acceptOutput`. -/
def acceptsRoute (route : Route) : Bool :=
  decide (generation = r.routeGeneration) && allowed route r.routeState

end DirectRouteTracker

theorem DirectRouteTracker.acceptOutput_admitted {r : DirectRouteTracker} {generation seq : ℕ}
    {route : Route} (current : generation = r.routeGeneration) (some : seq ≠ 0)
    (admitted : allowed route r.routeState = true) :
    r.acceptOutput generation route seq =
      let observed :=
        if route = .direct ∧ r.routeState = .directReplay then
          { r with directObservedSeq := max r.directObservedSeq seq }
        else r
      if seq ≤ observed.lastCommittedSeq then (false, observed)
      else (true, { observed with lastCommittedSeq := seq }) := by
  rw [acceptOutput, if_neg (by simp [current, some]), if_neg (by simp [admitted])]

/-! ### Calls -/

/-- What a call answers: the browser and the host differ in the errors they reject with. -/
inductive RouteOutcome where
  | rejected
  | done
  | generation (generation : ℕ)
  | accepted (committed : Bool)
deriving DecidableEq, Repr

def RouteOutcome.of {ε α : Type} (answer : α → RouteOutcome) : Except ε α → RouteOutcome
  | .ok value => answer value
  | .error _ => .rejected

def RouteCall.Exact : RouteCall ℕ → Prop
  | .beginDirect => True
  | .noteDirectReady generation replayedSeq => generation < safeLimit ∧ replayedSeq < safeLimit
  | .acceptOutput generation _ seq => generation < safeLimit ∧ seq < safeLimit
  | .beginDirectReplay generation => generation < safeLimit
  | .activateDirect generation => generation < safeLimit
  | .abortDirect generation => generation < safeLimit
  | .directLost generation => generation < safeLimit
  | .relayAttached generation => generation < safeLimit

def DirectRouteTracker.call (r : DirectRouteTracker) :
    RouteCall ℕ → RouteOutcome × DirectRouteTracker
  | .beginDirect => (.of .generation r.beginDirect.1, r.beginDirect.2)
  | .beginDirectReplay generation =>
    (.of (fun _ => .done) (r.beginDirectReplay generation).1, (r.beginDirectReplay generation).2)
  | .noteDirectReady generation replayedSeq =>
    (.of (fun _ => .done) (r.noteDirectReady generation replayedSeq).1,
      (r.noteDirectReady generation replayedSeq).2)
  | .activateDirect generation =>
    (.of (fun _ => .done) (r.activateDirect generation).1, (r.activateDirect generation).2)
  | .abortDirect generation =>
    (.of (fun _ => .done) (r.abortDirect generation).1, (r.abortDirect generation).2)
  | .directLost generation =>
    (.of .generation (r.directLost generation).1, (r.directLost generation).2)
  | .relayAttached generation =>
    (.of (fun _ => .done) (r.relayAttached generation).1, (r.relayAttached generation).2)
  | .acceptOutput generation route seq =>
    (.accepted (r.acceptOutput generation route seq).1, (r.acceptOutput generation route seq).2)

namespace RouteTracker

def hostCall (r : RouteTracker UInt64) : RouteCall ℕ → RouteOutcome × RouteTracker UInt64
  | .beginDirect => (.of (fun generation => .generation generation.toNat) r.beginDirect.1,
      r.beginDirect.2)
  | .beginDirectReplay generation =>
    (.of (fun _ => .done) (r.beginDirectReplay (.ofNat generation)).1,
      (r.beginDirectReplay (.ofNat generation)).2)
  | .noteDirectReady generation replayedSeq =>
    (.of (fun _ => .done) (r.noteDirectReady (.ofNat generation) replayedSeq).1,
      (r.noteDirectReady (.ofNat generation) replayedSeq).2)
  | .activateDirect generation =>
    (.of (fun _ => .done) (r.activateDirect (.ofNat generation)).1,
      (r.activateDirect (.ofNat generation)).2)
  | .abortDirect generation =>
    (.of (fun _ => .done) (r.abortDirect (.ofNat generation)).1,
      (r.abortDirect (.ofNat generation)).2)
  | .directLost generation =>
    (.of (fun generation => .generation generation.toNat) (r.directLost (.ofNat generation)).1,
      (r.directLost (.ofNat generation)).2)
  | .relayAttached generation =>
    (.of (fun _ => .done) (r.relayAttached (.ofNat generation)).1,
      (r.relayAttached (.ofNat generation)).2)
  | .acceptOutput generation route seq =>
    (.accepted (r.acceptOutput (.ofNat generation) route seq).1,
      (r.acceptOutput (.ofNat generation) route seq).2)

def web (r : RouteTracker UInt64) : DirectRouteTracker :=
  ⟨r.state, r.generation.toNat, r.committedSeq, r.directStartSeq, r.directObservedSeq,
    r.directReady⟩

def Exact (r : RouteTracker UInt64) : Prop := r.generation.toNat ≤ safeLimit

variable {r : RouteTracker UInt64}

theorem ofNat_eq_generation {generation : ℕ} (exact : generation < safeLimit) :
    UInt64.ofNat generation = r.generation ↔ generation = r.generation.toNat := by
  constructor
  · intro same
    rw [← same, UInt64.toNat_ofNat', Nat.mod_eq_of_lt (exact.trans (by decide))]
  · rintro rfl
    exact UInt64.ofNat_toNat

theorem generation_succ (exact : r.generation.toNat < safeLimit) :
    (r.generation + 1).toNat = increment r.generation.toNat ∧
      increment r.generation.toNat ≤ safeLimit := by
  have small : r.generation.toNat + 1 < 2 ^ 64 := lt_of_le_of_lt exact (by decide)
  rw [increment, if_pos exact, UInt64.toNat_add]
  exact ⟨Nat.mod_eq_of_lt small, exact⟩

theorem web_canActivateDirect {generation : ℕ} (exact : generation < safeLimit) :
    r.web.canActivateDirect generation = r.canActivateDirect (.ofNat generation) := by
  have same : decide (UInt64.ofNat generation = r.generation) =
      decide (generation = r.generation.toNat) := decide_eq_decide.mpr (ofNat_eq_generation exact)
  rw [canActivateDirect, same]
  rfl

theorem web_observed (r : RouteTracker UInt64) (route : Route) (seq : ℕ) :
    (if route = .direct ∧ r.web.routeState = .directReplay then
        { r.web with directObservedSeq := max r.web.directObservedSeq seq } else r.web) =
      (if route = .direct ∧ r.state = .directReplay ∧ r.directObservedSeq < seq then
        { r with directObservedSeq := seq } else r).web := by
  by_cases replayed : route = .direct ∧ r.web.routeState = .directReplay
  · rw [if_pos replayed]
    by_cases later : r.directObservedSeq < seq
    · rw [if_pos ⟨replayed.1, replayed.2, later⟩]
      simp [web, later.le]
    · rw [if_neg (fun observed => later observed.2.2)]
      simp [web, not_lt.mp later]
  · rw [if_neg replayed, if_neg (fun observed => replayed ⟨observed.1, observed.2.1⟩)]

theorem allowed_eq_admits (state : RouteState) (route : Route) :
    DirectRouteTracker.allowed route state = admits state route := by
  cases state <;> simp [DirectRouteTracker.allowed, admits]

theorem acceptOutput_refused {generation seq : ℕ} {route : Route}
    (same : UInt64.ofNat generation = r.generation ↔ generation = r.generation.toNat)
    (refused : generation ≠ r.generation.toNat ∨ seq = 0 ∨ admits r.state route = false) :
    r.web.acceptOutput generation route seq = (false, r.web) ∧
      r.acceptOutput (.ofNat generation) route seq = (false, r) := by
  by_cases early : generation ≠ r.generation.toNat ∨ seq = 0
  · have web : generation ≠ r.web.routeGeneration ∨ seq ≤ 0 := by simpa [web] using early
    have host : UInt64.ofNat generation ≠ r.generation ∨ seq = 0 := by simpa [same] using early
    rw [DirectRouteTracker.acceptOutput, if_pos web, acceptOutput, if_pos host]
    exact ⟨rfl, rfl⟩
  · have web : ¬(generation ≠ r.web.routeGeneration ∨ seq ≤ 0) := by simpa [web] using early
    have host : ¬(UInt64.ofNat generation ≠ r.generation ∨ seq = 0) := by simpa [same] using early
    have closed : admits r.state route = false := by tauto
    have closedWeb : DirectRouteTracker.allowed route r.web.routeState = false :=
      (allowed_eq_admits r.state route).trans closed
    rw [DirectRouteTracker.acceptOutput, if_neg web, if_pos closedWeb, acceptOutput, if_neg host,
      if_pos closed]
    exact ⟨rfl, rfl⟩

theorem acceptOutput_admitted {generation : UInt64} {seq : ℕ} {route : Route}
    (current : generation = r.generation) (some : seq ≠ 0)
    (admitted : admits r.state route = true) :
    r.acceptOutput generation route seq =
      let observed :=
        if route = .direct ∧ r.state = .directReplay ∧ r.directObservedSeq < seq then
          { r with directObservedSeq := seq }
        else r
      if seq ≤ observed.committedSeq then (false, observed)
      else (true, { observed with committedSeq := seq }) := by
  rw [acceptOutput, if_neg (by simp [current, some]), if_neg (by simp [admitted])]

theorem observed_committedSeq (r : RouteTracker UInt64) (condition : Prop) [Decidable condition]
    (seq : ℕ) : (if condition then { r with directObservedSeq := seq } else r).committedSeq =
      r.committedSeq ∧ (if condition then { r with directObservedSeq := seq } else r).generation =
      r.generation := by
  split_ifs <;> exact ⟨rfl, rfl⟩

end RouteTracker

open RouteTracker in
/-- **One call answers alike** and keeps the two trackers in the same state. -/
theorem DirectRouteTracker.call_web {r : RouteTracker UInt64} {call : RouteCall ℕ}
    (within : r.Exact) (exact : call.Exact) :
    (r.web.call call).1 = (r.hostCall call).1 ∧
      (r.web.call call).2 = (r.hostCall call).2.web ∧ (r.hostCall call).2.Exact := by
  cases call with
  | beginDirect =>
    simp only [DirectRouteTracker.call, hostCall, DirectRouteTracker.beginDirect,
      RouteTracker.beginDirect]
    by_cases attached : r.state = .relayAttached
    · simpa [attached, web, RouteOutcome.of, RouteTracker.Exact] using within
    · simpa [attached, web, RouteOutcome.of, RouteTracker.Exact] using within
  | beginDirectReplay generation =>
    have same := ofNat_eq_generation (r := r) exact
    simp only [DirectRouteTracker.call, hostCall, DirectRouteTracker.beginDirectReplay,
      RouteTracker.beginDirectReplay]
    by_cases current : generation = r.generation.toNat
    · by_cases state : r.state = .directConnecting
      · simpa [same, current, state, web, RouteOutcome.of, RouteTracker.Exact] using within
      · simpa [same, current, state, web, RouteOutcome.of, RouteTracker.Exact] using within
    · simpa [same, current, web, RouteOutcome.of, RouteTracker.Exact] using within
  | noteDirectReady generation replayedSeq =>
    have same := ofNat_eq_generation (r := r) exact.1
    have safe : isSafeInteger replayedSeq = true := decide_eq_true exact.2
    have latest : (if r.directObservedSeq < replayedSeq then replayedSeq
        else r.directObservedSeq) = max r.directObservedSeq replayedSeq := by
      rw [max_def_lt]
    simp only [DirectRouteTracker.call, hostCall, DirectRouteTracker.noteDirectReady,
      RouteTracker.noteDirectReady, safe, latest]
    by_cases current : generation = r.generation.toNat
    · by_cases refused : r.state ≠ .directReplay ∨ replayedSeq < r.directStartSeq
      · simpa [same, current, refused, web, RouteOutcome.of, RouteTracker.Exact] using within
      · simpa [same, current, refused, web, RouteOutcome.of, RouteTracker.Exact] using within
    · simpa [same, current, web, RouteOutcome.of, RouteTracker.Exact] using within
  | activateDirect generation =>
    have same := ofNat_eq_generation (r := r) exact
    have ready : r.web.canActivateDirect generation =
        r.canActivateDirect (.ofNat generation) := web_canActivateDirect exact
    simp only [DirectRouteTracker.call, hostCall, DirectRouteTracker.activateDirect,
      RouteTracker.activateDirect, ready]
    cases able : r.canActivateDirect (.ofNat generation) with
    | false =>
      simp only [if_true]
      by_cases current : generation = r.generation.toNat
      · simpa [current, web, RouteOutcome.of, RouteTracker.Exact] using within
      · simpa [current, web, RouteOutcome.of, RouteTracker.Exact] using within
    | true =>
      have current : generation = r.generation.toNat := by
        simp only [RouteTracker.canActivateDirect, Bool.and_eq_true, decide_eq_true_eq] at able
        exact same.mp able.1.1.1
      simpa [current, web, RouteOutcome.of, RouteTracker.Exact] using within
  | abortDirect generation =>
    have same := ofNat_eq_generation (r := r) exact
    simp only [DirectRouteTracker.call, hostCall, DirectRouteTracker.abortDirect,
      RouteTracker.abortDirect]
    by_cases current : generation = r.generation.toNat
    · by_cases refused : r.state ≠ .directConnecting ∧ r.state ≠ .directReplay
      · simpa [same, current, refused, web, RouteOutcome.of, RouteTracker.Exact] using within
      · obtain ⟨next, exactNext⟩ := generation_succ (r := r) (by rw [← current]; exact exact)
        simpa [same, current, refused, web, RouteOutcome.of, RouteTracker.Exact, next]
          using exactNext
    · simpa [same, current, web, RouteOutcome.of, RouteTracker.Exact] using within
  | directLost generation =>
    have same := ofNat_eq_generation (r := r) exact
    simp only [DirectRouteTracker.call, hostCall, DirectRouteTracker.directLost,
      RouteTracker.directLost]
    by_cases current : generation = r.generation.toNat
    · by_cases state : r.state = .directActive
      · obtain ⟨next, exactNext⟩ := generation_succ (r := r) (by rw [← current]; exact exact)
        simpa [same, current, state, web, RouteOutcome.of, RouteTracker.Exact, next]
          using exactNext
      · simpa [same, current, state, web, RouteOutcome.of, RouteTracker.Exact] using within
    · simpa [same, current, web, RouteOutcome.of, RouteTracker.Exact] using within
  | relayAttached generation =>
    have same := ofNat_eq_generation (r := r) exact
    simp only [DirectRouteTracker.call, hostCall, DirectRouteTracker.relayAttached,
      RouteTracker.relayAttached]
    by_cases current : generation = r.generation.toNat
    · by_cases state : r.state = .relayReattaching
      · simpa [same, current, state, web, RouteOutcome.of, RouteTracker.Exact] using within
      · simpa [same, current, state, web, RouteOutcome.of, RouteTracker.Exact] using within
    · simpa [same, current, web, RouteOutcome.of, RouteTracker.Exact] using within
  | acceptOutput generation route seq =>
    have same := ofNat_eq_generation (r := r) exact.1
    simp only [DirectRouteTracker.call, hostCall]
    by_cases refused : generation ≠ r.generation.toNat ∨ seq = 0 ∨ admits r.state route = false
    · obtain ⟨web, host⟩ := acceptOutput_refused same refused
      rw [web, host]
      exact ⟨rfl, rfl, within⟩
    · push Not at refused
      obtain ⟨current, some, admitted⟩ := refused
      have open' : admits r.state route = true := by simpa using admitted
      rw [DirectRouteTracker.acceptOutput_admitted current some
          ((allowed_eq_admits r.state route).trans open'), web_observed,
        RouteTracker.acceptOutput_admitted (same.mpr current) some open']
      obtain ⟨committed, unchanged⟩ := observed_committedSeq r
        (route = .direct ∧ r.state = .directReplay ∧ r.directObservedSeq < seq) seq
      generalize (if route = .direct ∧ r.state = .directReplay ∧ r.directObservedSeq < seq then
        { r with directObservedSeq := seq } else r) = host at committed unchanged ⊢
      have exactHost : host.Exact := by rwa [RouteTracker.Exact, unchanged]
      by_cases below : seq ≤ host.committedSeq
      · simpa [below, web, RouteTracker.Exact] using exactHost
      · simpa [below, web, RouteTracker.Exact] using exactHost

/-! ### Fragments -/

/-- `MAX_DIRECT_RECORD_PLAINTEXT` -/
def maxDirectRecordPlaintext : ℕ := 16 * 1024
def directFragmentHeaderSize : ℕ := 16
def directFragmentDataSize : ℕ := maxDirectRecordPlaintext - directFragmentHeaderSize
def maxDirectFrameSize : ℕ := 16 * 1024 * 1024

/-- `DIRECT_REASSEMBLY_TIMEOUT_MS` -/
def directReassemblyTimeoutMs : ℤ := 10000

inductive DirectFrameError where
  | messageId
  | notRequired
  | tooLarge
  | timeout
  | size
  | bounds
  | offset
  | ordering
deriving DecidableEq, Repr

/-- `TypedArray.set`, of octets that fit at the offset. -/
def setAt (buffer : Bytes) (chunk : Bytes) (offset : ℕ) : Bytes :=
  buffer.take offset ++ chunk ++ buffer.drop (offset + chunk.length)

/-- One fragment: the header is written into a zeroed array, then the chunk. -/
def directFragment (messageId : ℕ) (frame : Bytes) (offset stop : ℕ) : Bytes :=
  let fragment := List.replicate (directFragmentHeaderSize + stop - offset) 0
  let fragment := setAt fragment (bigEndian 8 messageId) 0
  let fragment := setAt fragment (bigEndian 4 offset) 8
  let fragment := setAt fragment (bigEndian 4 frame.length) 12
  setAt fragment (frame.extract offset stop) directFragmentHeaderSize

/-- The loop of `fragmentDirectFrame`. -/
def directFragmentsFrom (messageId : ℕ) (frame : Bytes) : ℕ → ℕ → List Bytes
  | 0, _ => []
  | fuel + 1, offset =>
    if offset < frame.length then
      let stop := min frame.length (offset + directFragmentDataSize)
      directFragment messageId frame offset stop ::
        directFragmentsFrom messageId frame fuel (offset + directFragmentDataSize)
    else []

def fragmentDirectFrame (messageId : ℤ) (frame : Bytes) : Except DirectFrameError (List Bytes) :=
  if messageId < 0 ∨ messageId > 0xffffffffffffffff then .error .messageId
  else if frame.length ≤ maxDirectRecordPlaintext then .error .notRequired
  else if frame.length > maxDirectFrameSize then .error .tooLarge
  else .ok (directFragmentsFrom messageId.toNat frame frame.length 0)

/-- One ordered message at a time, in an array of its final size. -/
structure DirectFrameReassembler where
  messageId : ℕ
  total : ℕ
  next : ℕ
  startedAtMs : ℤ
  buffer : Option Bytes
deriving DecidableEq, Repr

namespace DirectFrameReassembler

/-- A fresh reassembler, and one after `reset`. -/
def fresh : DirectFrameReassembler := ⟨0, 0, 0, 0, none⟩

/-- Append a chunk to the message it continues. -/
def place (r : DirectFrameReassembler) (buffer : Bytes) (messageId offset total : ℕ)
    (chunk : Bytes) : Except DirectFrameError (Option Bytes) × DirectFrameReassembler :=
  if messageId ≠ r.messageId ∨ total ≠ r.total ∨ offset ≠ r.next then (.error .ordering, r)
  else
    let buffer := setAt buffer chunk offset
    let next := r.next + chunk.length
    if next ≠ r.total then (.ok none, { r with buffer := some buffer, next := next })
    else (.ok (some buffer), fresh)

/-- Begin a message with its first chunk, or continue it. -/
def enter (r : DirectFrameReassembler) (messageId offset total : ℕ) (chunk : Bytes) (nowMs : ℤ) :
    Except DirectFrameError (Option Bytes) × DirectFrameReassembler :=
  match r.buffer with
  | some buffer => r.place buffer messageId offset total chunk
  | none =>
    if offset ≠ 0 then (.error .offset, r)
    else
      let buffer := List.replicate total 0
      place { r with messageId := messageId, total := total, startedAtMs := nowMs,
                     buffer := some buffer }
        buffer messageId offset total chunk

/-- Validate a fragment and append it; `none` means that more are to come. -/
def add (r : DirectFrameReassembler) (fragment : Bytes) (nowMs : ℤ) :
    Except DirectFrameError (Option Bytes) × DirectFrameReassembler :=
  if r.buffer.isSome ∧ nowMs - r.startedAtMs > directReassemblyTimeoutMs then
    (.error .timeout, fresh)
  else if fragment.length ≤ directFragmentHeaderSize ∨
      fragment.length > maxDirectRecordPlaintext then (.error .size, r)
  else
    let messageId := numberAt fragment 0 8
    let offset := numberAt fragment 8 12
    let total := numberAt fragment 12 16
    let chunk := fragment.drop directFragmentHeaderSize
    if total ≤ maxDirectRecordPlaintext ∨ total > maxDirectFrameSize ∨
        offset + chunk.length > total then (.error .bounds, r)
    else r.enter messageId offset total chunk nowMs

end DirectFrameReassembler

/-! ### The same fragments -/

theorem setAt_zeros (before chunk : Bytes) (rest : ℕ) {offset zeros : ℕ}
    (length : before.length = offset) (left : zeros = chunk.length + rest) :
    setAt (before ++ List.replicate zeros 0) chunk offset =
      before ++ chunk ++ List.replicate rest 0 := by
  subst length left
  rw [setAt, List.take_left, List.drop_length_add_append, List.drop_replicate,
    Nat.add_sub_cancel_left]

theorem directFragment_eq (messageId : UInt64) {frame : Bytes} {offset stop : ℕ}
    (ordered : offset ≤ stop) (bounded : stop ≤ frame.length) :
    directFragment messageId.toNat frame offset stop =
      terminalFragment ⟨messageId, offset, frame.length, frame.extract offset stop⟩ := by
  have length : (frame.extract offset stop).length = stop - offset := length_chunk bounded
  have header : directFragmentHeaderSize = 16 := rfl
  have zeros : directFragmentHeaderSize + stop - offset = 8 + (8 + (stop - offset)) := by omega
  have id : setAt (List.replicate (8 + (8 + (stop - offset))) 0) (bigEndian 8 messageId.toNat) 0 =
      bigEndian 8 messageId.toNat ++ List.replicate (8 + (stop - offset)) 0 :=
    setAt_zeros [] _ (8 + (stop - offset)) rfl (by rw [length_bigEndian])
  have first := setAt_zeros (bigEndian 8 messageId.toNat) (bigEndian 4 offset)
    (4 + (stop - offset)) (length_bigEndian 8 _)
    (by rw [length_bigEndian]; omega : 8 + (stop - offset) = _)
  have second := setAt_zeros (bigEndian 8 messageId.toNat ++ bigEndian 4 offset)
    (bigEndian 4 frame.length) (stop - offset) (by simp : _ = 12)
    (by rw [length_bigEndian] : 4 + (stop - offset) = _)
  have chunk := setAt_zeros
    (bigEndian 8 messageId.toNat ++ bigEndian 4 offset ++ bigEndian 4 frame.length)
    (frame.extract offset stop) 0 (by simp : _ = 16) (by rw [length]; omega : stop - offset = _)
  rw [directFragment, zeros, id, first, second, header, chunk]
  simp [terminalFragment]

theorem directFragmentsFrom_eq (messageId : UInt64) (frame : Bytes) (fuel offset : ℕ) :
    directFragmentsFrom messageId.toNat frame fuel offset =
      (piecesFrom fragmentDataSize messageId frame fuel offset).map terminalFragment := by
  induction fuel generalizing offset with
  | zero => rfl
  | succ fuel ih =>
    have size : directFragmentDataSize = fragmentDataSize := rfl
    rw [directFragmentsFrom, size]
    by_cases inside : offset < frame.length
    · have ordered : offset ≤ min frame.length (offset + fragmentDataSize) := by omega
      have head := directFragment_eq messageId ordered (min_le_left _ _)
      rw [if_pos inside, piecesFrom_of_lt inside, List.map_cons, ← head, ← ih]
    · rw [if_neg inside, piecesFrom_of_le (by omega)]
      rfl

/-- **The browser and the host cut a frame alike.** -/
theorem fragmentDirectFrame_eq (messageId : UInt64) (frame : Bytes) :
    (fragmentDirectFrame messageId.toNat frame).toOption =
      (fragmentFrame messageId frame).toOption := by
  have word := messageId.toNat_lt
  have inRange : ¬((messageId.toNat : ℤ) < 0 ∨ (messageId.toNat : ℤ) > 0xffffffffffffffff) := by
    omega
  have record : maxDirectRecordPlaintext = maxRecordPlaintext := rfl
  have limit : maxDirectFrameSize = maxFrameSize := rfl
  rw [fragmentDirectFrame, if_neg inRange, fragmentFrame, record, limit]
  split_ifs
  · rfl
  · rfl
  · rw [Int.toNat_natCast, directFragmentsFrom_eq]
    rfl

/-! ### The same reassembly -/

namespace DirectFrameReassembler

/-- The browser's reassembler and the host's hold the same message: the browser's array has its
final size and zeros where octets are missing. -/
inductive Same : DirectFrameReassembler → Option (Assembly UInt64) → Prop
  | idle : Same fresh none
  | busy (tag : UInt64) (total next : ℕ) (startedAtMs : ℤ) (buffer : Bytes)
      (filled : buffer.length = next) (inside : next ≤ total) :
      Same ⟨tag.toNat, total, next, startedAtMs, some (buffer ++ List.replicate (total - next) 0)⟩
        (some ⟨tag, total, next, startedAtMs * 1000000, buffer⟩)

def Waits (r : DirectFrameReassembler) (nowMs : ℤ) : Prop :=
  ¬(r.buffer.isSome ∧ nowMs - r.startedAtMs > directReassemblyTimeoutMs)

theorem place_same (tag : UInt64) (total next : ℕ) (startedAtMs : ℤ) (buffer : Bytes)
    (filled : buffer.length = next) (inside : next ≤ total) {messageId offset size : ℕ}
    {chunk : Bytes} (word : messageId < 2 ^ 64) (fits : offset + chunk.length ≤ size) :
    let web := place ⟨tag.toNat, total, next, startedAtMs,
      some (buffer ++ List.replicate (total - next) 0)⟩ (buffer ++ List.replicate (total - next) 0)
      messageId offset size chunk
    let host := terminalFormat.extend ⟨tag, total, next, startedAtMs * 1000000, buffer⟩
      ⟨UInt64.ofNat messageId, offset, size, chunk⟩
    web.1.toOption = host.1.toOption ∧ Same web.2 host.2 := by
  have same : UInt64.ofNat messageId = tag ↔ messageId = tag.toNat := by
    constructor
    · rintro rfl
      rw [UInt64.toNat_ofNat', Nat.mod_eq_of_lt word]
    · rintro rfl
      exact UInt64.ofNat_toNat
  by_cases other : messageId ≠ tag.toNat ∨ size ≠ total ∨ offset ≠ next
  · have otherHost : UInt64.ofNat messageId ≠ tag ∨ size ≠ total ∨ offset ≠ next := by
      rwa [ne_eq, same]
    rw [place, if_pos other, FragmentFormat.extend, if_pos otherHost]
    exact ⟨rfl, .busy tag total next startedAtMs buffer filled inside⟩
  · have sameHost : ¬(UInt64.ofNat messageId ≠ tag ∨ size ≠ total ∨ offset ≠ next) := by
      rwa [ne_eq, same]
    rw [place, if_neg other, FragmentFormat.extend, if_neg sameHost]
    push Not at other
    obtain ⟨-, rfl, rfl⟩ := other
    have written := setAt_zeros buffer chunk (size - (offset + chunk.length)) filled
      (by omega : size - offset = _)
    simp only [written]
    by_cases more : offset + chunk.length ≠ size
    · rw [if_pos more, if_pos more]
      exact ⟨rfl, .busy tag size (offset + chunk.length) startedAtMs (buffer ++ chunk)
        (by rw [List.length_append, filled]) fits⟩
    · rw [if_neg more, if_neg more]
      push Not at more
      refine ⟨?_, .idle⟩
      simp [more, terminalFormat, Except.toOption]

theorem read_same (fragment : Bytes) (nowMs : ℤ) :
    ((∃ e, terminalPiece fragment = .error e) ∧
        ∀ r : DirectFrameReassembler, r.Waits nowMs → ∃ e, r.add fragment nowMs = (.error e, r)) ∨
      (terminalPiece fragment = .ok ⟨UInt64.ofNat (numberAt fragment 0 8), numberAt fragment 8 12,
          numberAt fragment 12 16, fragment.drop fragmentHeaderSize⟩ ∧
        numberAt fragment 8 12 + (fragment.drop fragmentHeaderSize).length ≤
          numberAt fragment 12 16 ∧
        ∀ r : DirectFrameReassembler, r.Waits nowMs → r.add fragment nowMs =
          r.enter (numberAt fragment 0 8) (numberAt fragment 8 12) (numberAt fragment 12 16)
            (fragment.drop fragmentHeaderSize) nowMs) := by
  have header : directFragmentHeaderSize = fragmentHeaderSize := rfl
  have record : maxDirectRecordPlaintext = maxRecordPlaintext := rfl
  have limit : maxDirectFrameSize = maxFrameSize := rfl
  by_cases sized : fragment.length ≤ fragmentHeaderSize ∨ maxRecordPlaintext < fragment.length
  · refine Or.inl ⟨⟨.size fragment.length, by rw [terminalPiece, if_pos sized]⟩,
      fun r waits => ⟨.size, ?_⟩⟩
    rw [add, if_neg waits, header, record, if_pos sized]
  · by_cases bounded : (numberAt fragment 12 16 ≤ maxRecordPlaintext ∨
        maxFrameSize < numberAt fragment 12 16) ∨
        numberAt fragment 12 16 <
          numberAt fragment 8 12 + (fragment.drop fragmentHeaderSize).length
    · refine Or.inl ⟨?_, fun r waits => ⟨.bounds, ?_⟩⟩
      · rw [terminalPiece, if_neg sized]
        by_cases total : numberAt fragment 12 16 ≤ maxRecordPlaintext ∨
            maxFrameSize < numberAt fragment 12 16
        · exact ⟨_, if_pos total⟩
        · have exceeds := bounded.resolve_left total
          exact ⟨_, (if_neg total).trans (if_pos exceeds)⟩
      · rw [add, if_neg waits, header, record, limit, if_neg sized]
        exact if_pos (or_assoc.mp bounded)
    · refine Or.inr ⟨?_, by omega, fun r waits => ?_⟩
      · push Not at bounded
        rw [terminalPiece, if_neg sized]
        exact (if_neg (by omega)).trans (if_neg (by omega))
      · rw [add, if_neg waits, header, record, limit, if_neg sized]
        exact if_neg (fun wrong => bounded (or_assoc.mpr wrong))

theorem timeout_iff {nowMs startedAtMs : ℤ} :
    terminalFormat.timeout < nowMs * 1000000 - startedAtMs * 1000000 ↔
      nowMs - startedAtMs > directReassemblyTimeoutMs := by
  show reassemblyTimeout < _ ↔ _
  unfold reassemblyTimeout directReassemblyTimeoutMs
  omega

/-- **One fragment is answered alike**, at the same time. -/
theorem add_same {web : DirectFrameReassembler} {host : Option (Assembly UInt64)}
    (same : Same web host) (fragment : Bytes) (nowMs : ℤ) :
    let webAdded := web.add fragment nowMs
    let hostAdded := terminalFormat.add host fragment (nowMs * 1000000)
    webAdded.1.toOption = hostAdded.1.toOption ∧ Same webAdded.2 hostAdded.2 := by
  have word : numberAt fragment 0 8 < 2 ^ 64 := numberAt_lt fragment 0 8
  cases same with
  | idle =>
    have waits : fresh.Waits nowMs := by simp [Waits, fresh]
    rcases read_same fragment nowMs with ⟨⟨e, unreadable⟩, rejects⟩ | ⟨reads, fits, enters⟩
    · obtain ⟨e', rejected⟩ := rejects fresh waits
      rw [rejected, FragmentFormat.add_unreadable rfl unreadable]
      exact ⟨rfl, .idle⟩
    · rw [enters fresh waits]
      by_cases first : numberAt fragment 8 12 = 0
      · rw [FragmentFormat.add_first reads first]
        have tag : (UInt64.ofNat (numberAt fragment 0 8)).toNat = numberAt fragment 0 8 := by
          rw [UInt64.toNat_ofNat', Nat.mod_eq_of_lt word]
        have begun := place_same (UInt64.ofNat (numberAt fragment 0 8)) (numberAt fragment 12 16)
          0 nowMs [] rfl (Nat.zero_le _) word fits
        rw [tag, List.nil_append, Nat.sub_zero] at begun
        have entered : fresh.enter (numberAt fragment 0 8) (numberAt fragment 8 12)
            (numberAt fragment 12 16) (fragment.drop fragmentHeaderSize) nowMs = _ :=
          if_neg (not_not.mpr first)
        rw [entered]
        exact begun
      · have rejected : fresh.enter (numberAt fragment 0 8) (numberAt fragment 8 12)
            (numberAt fragment 12 16) (fragment.drop fragmentHeaderSize) nowMs =
            (.error .offset, fresh) := if_pos first
        rw [rejected, FragmentFormat.add_gap reads first]
        exact ⟨rfl, .idle⟩
  | busy tag total next startedAtMs buffer filled inside =>
    by_cases late : nowMs - startedAtMs > directReassemblyTimeoutMs
    · have expired : terminalFormat.expired
          (some ⟨tag, total, next, startedAtMs * 1000000, buffer⟩) (nowMs * 1000000) = true :=
        decide_eq_true (timeout_iff.mpr late)
      rw [add, if_pos ⟨rfl, late⟩, FragmentFormat.add_expired expired]
      exact ⟨rfl, .idle⟩
    · have timely : terminalFormat.expired
          (some ⟨tag, total, next, startedAtMs * 1000000, buffer⟩) (nowMs * 1000000) = false :=
        decide_eq_false (fun wrong => late (timeout_iff.mp wrong))
      have waits : Waits ⟨tag.toNat, total, next, startedAtMs,
          some (buffer ++ List.replicate (total - next) 0)⟩ nowMs := fun wrong => late wrong.2
      rcases read_same fragment nowMs with ⟨⟨e, unreadable⟩, rejects⟩ | ⟨reads, fits, enters⟩
      · obtain ⟨e', rejected⟩ := rejects _ waits
        rw [rejected, FragmentFormat.add_unreadable timely unreadable]
        exact ⟨rfl, .busy tag total next startedAtMs buffer filled inside⟩
      · rw [enters _ waits, FragmentFormat.add_next timely reads]
        exact place_same tag total next startedAtMs buffer filled inside word fits

/-- A fragment and the time in milliseconds: the host reads its clock in nanoseconds. -/
def hostAdd (host : Option (Assembly UInt64)) (fed : Bytes × ℤ) :
    Option (Option Bytes) × Option (Assembly UInt64) :=
  let added := terminalFormat.add host fed.1 (fed.2 * 1000000)
  (added.1.toOption, added.2)

def webAdd (web : DirectFrameReassembler) (fed : Bytes × ℤ) :
    Option (Option Bytes) × DirectFrameReassembler :=
  let added := web.add fed.1 fed.2
  (added.1.toOption, added.2)

end DirectFrameReassembler

/-- **The browser and the host agree.** On every sequence of calls with exact numbers the two route
trackers answer alike, end in the same state and then hold the same output routes and readiness;
every frame is cut into the same fragments or refused by both; and on every sequence of fragments and
times the two reassemblers reject, accept and deliver the same, and end with the same message. -/
theorem web_transport_agrees :
    (∀ (committedSeq : ℕ) (calls : List (RouteCall ℕ)), committedSeq < safeLimit →
        (∀ call ∈ calls, call.Exact) →
        let web := trace DirectRouteTracker.call (.new committedSeq) calls
        let host := trace RouteTracker.hostCall (.new committedSeq) calls
        web.1 = host.1 ∧ web.2 = host.2.web ∧ web.2.inputRoute = host.2.inputRoute ∧
          ∀ generation < safeLimit, web.2.canActivateDirect generation =
            host.2.canActivateDirect (.ofNat generation)) ∧
      (∀ (messageId : UInt64) frame, (fragmentDirectFrame messageId.toNat frame).toOption =
        (fragmentFrame messageId frame).toOption) ∧
      ∀ fed : List (Bytes × ℤ),
        let web := trace DirectFrameReassembler.webAdd .fresh fed
        let host := trace DirectFrameReassembler.hostAdd none fed
        web.1 = host.1 ∧ DirectFrameReassembler.Same web.2 host.2 := by
  refine ⟨fun committedSeq calls _ exact => ?_, fragmentDirectFrame_eq, fun fed => ?_⟩
  · have exactNew : (RouteTracker.new committedSeq).Exact := by
      show (1 : UInt64).toNat ≤ safeLimit
      decide
    obtain ⟨answers, same, within⟩ := trace_eq_of_simulation
      (fun web host => web = RouteTracker.web host ∧ host.Exact) RouteCall.Exact
      (fun web host call related exact => by
        obtain ⟨rfl, within⟩ := related
        exact DirectRouteTracker.call_web within exact)
      ⟨(rfl : DirectRouteTracker.new committedSeq = _), exactNew⟩ exact
    refine ⟨answers, same, ?_, fun generation exact => ?_⟩
    · rw [same]
      rfl
    · rw [same]
      exact RouteTracker.web_canActivateDirect exact
  · exact trace_eq_of_simulation DirectFrameReassembler.Same (fun _ => True)
      (fun web host fed same _ => DirectFrameReassembler.add_same same fed.1 fed.2)
      .idle fun _ _ => trivial

end Atterm.Transport
