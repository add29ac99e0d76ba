/-
**The switch of a signal channel to the WSS fallback.**

The client writes a request, the host writes an acknowledgement and then activates the fallback, and
the client activates it when it reads the acknowledgement. Until an end has activated, it reads
signals and nothing else; from then on it reads no signal any more.

* `SignalEnd.sendSignal`, `SignalEnd.readRecord` — what an end writes for a signal and does with a
  record;
* `sendSignal_cases`, `sendSignal_ready` — what can come of a signal;
* `SwitchWorld.step` — two ends, and the records on their way to each.
-/

import Atterm.Transport.Signal
import Atterm.Transport.WSSDelivery

namespace Atterm.Transport

open Atterm.Foundation

inductive ReadPhase where
  | reading
  | acknowledging
  | activating
deriving DecidableEq, Repr

/-- What `SendSignal` reports. -/
inductive SendSignalError where
  | closed
  | fallbackActive
  | invalid (error : SignalError)
  | fragments (error : FragmentError)
deriving DecidableEq, Repr

/-- One end of a signal channel. The channel's `done` is the one that its writer is given. -/
structure SignalEnd where
  sendState : DirectionState
  nextMessageID : UInt64
  fallbackBound : Bool
  fallbackActive : Bool
  writer : WSSWriter
  phase : ReadPhase
  fragments : Option (Assembly UInt64)
  receiveState : DirectionState
  /-- What the signal handler was handed. -/
  signals : List Signal
  /-- How many records were read since the switch. -/
  received : ℕ
  receiver : WSSReceiver
  delivered : List Delivery
  /-- What ended the reading. -/
  failure : Option ReadError

def requestSignal : Signal := ⟨signalVersion, .wssFallback, ""⟩
def readySignal : Signal := ⟨signalVersion, .wssReady, ""⟩

/-- A signal without a version gets the current one. -/
def Signal.versioned (signal : Signal) : Signal :=
  if signal.version = 0 then { signal with version := signalVersion } else signal

def Delivery.configMessage : Delivery → Bool
  | .record .. => false
  | .config .. => true

namespace SignalEnd

def new : SignalEnd where
  sendState := .new
  nextMessageID := 0
  fallbackBound := false
  fallbackActive := false
  writer := .new
  phase := .reading
  fragments := none
  receiveState := .new
  signals := []
  received := 0
  receiver := .new
  delivered := []
  failure := none

def closed (e : SignalEnd) : Bool := e.writer.closed

def sendSignal (role : Role) (e : SignalEnd) (signal : Signal) :
    Except SendSignalError (List PlainRecord) × SignalEnd :=
  if e.closed then (.error .closed, e)
  else if e.fallbackActive then (.error .fallbackActive, e)
  else
    match e.sendState.accept signal.versioned role with
    | .error error => (.error (.invalid error), e)
    | .ok sendState =>
      let payload := encodeSignal signal.versioned
      if maxSignalMessageSize < payload.length then
        (.error (.invalid .encodedSize), { e with sendState := sendState })
      else if payload.length ≤ maxRecordPlaintext then
        (.ok [⟨RecordKind.signal, payload⟩], { e with sendState := sendState })
      else
        let messageID := e.nextMessageID + 1
        let after := { e with sendState := sendState, nextMessageID := messageID }
        match fragmentSignalMessage messageID payload with
        | .ok fragments => (.ok (fragments.map (⟨RecordKind.signalFragment, ·⟩)), after)
        | .error error => (.error (.fragments error), after)

def activateWSSFallback (e : SignalEnd) : Except ReadError SignalEnd :=
  if e.fallbackActive then .ok e
  else if e.fallbackBound = false then .error .notPermitted
  else .ok { e with fallbackActive := true }

section Read

variable (decode : Bytes → Option Signal)

/-- `deliverSignal`, up to the acknowledgement of a request. -/
def deliverSignal (role : Role) (e : SignalEnd) (payload : Bytes) (handled : Bool) :
    Except ReadError SignalEnd :=
  if payload.length = 0 ∨ maxSignalMessageSize < payload.length then .error (.signal .encodedSize)
  else
    match decode payload with
    | none => .error (.signal .json)
    | some signal =>
      match e.receiveState.accept signal role.peer with
      | .error error => .error (.signal error)
      | .ok receiveState =>
        let e := { e with receiveState := receiveState }
        if signal.type = .wssFallback then
          if role ≠ .host ∨ e.fallbackBound = false then .error .unsupported
          else .ok { e with phase := .acknowledging }
        else if signal.type = .wssReady then
          if e.sendState.fallback = false then .error .unsolicited
          else e.activateWSSFallback
        else if handled then .ok { e with signals := e.signals ++ [signal] }
        else .error .handler

def receiveFallback (e : SignalEnd) (record : PlainRecord) (now : ℤ) (handled : Bool) :
    Except ReadError SignalEnd :=
  if RecordKind.dataMessage record.kind = false then .error (.kind record.kind)
  else
    match e.receiver.receive record now with
    | (.error error, _) => .error (.fragment error)
    | (.ok delivery, receiver) =>
      if handled = false ∧ delivery.any Delivery.configMessage then .error .handler
      else
        .ok
          { e with
            received := e.received + 1
            receiver := receiver
            delivered := e.delivered ++ delivery.toList }

def readRecord (role : Role) (e : SignalEnd) (record : PlainRecord) (now : ℤ) (handled : Bool) :
    Except ReadError SignalEnd :=
  if e.fallbackActive then e.receiveFallback record now handled
  else
    match collect e.fragments record now with
    | (.error error, _) => .error error
    | (.ok none, fragments) => .ok { e with fragments := fragments }
    | (.ok (some payload), fragments) =>
      deliverSignal decode role { e with fragments := fragments } payload handled

end Read

/-! ### What can come of a signal -/

end SignalEnd

/-- A signal on its way, with the number of its fragments. -/
structure Transmission where
  signal : Signal
  messageID : UInt64

namespace Transmission

def payload (t : Transmission) : Bytes := encodeSignal t.signal

def records (t : Transmission) : List PlainRecord := signalRecords t.messageID t.payload

theorem payload_pos (t : Transmission) : 0 < t.payload.length := Nat.succ_pos _

theorem length_records_pos (t : Transmission) : 0 < t.records.length :=
  length_signalRecords_pos t.payload_pos

end Transmission

namespace SignalEnd

theorem length_bare {signal : Signal} (version : signal.version = signalVersion)
    (bare : signal.payload = "") (fallback : signal.type = .wssFallback ∨ signal.type = .wssReady) :
    (encodeSignal signal).length ≤ maxRecordPlaintext := by
  obtain ⟨_, type, _⟩ := signal
  obtain rfl : _ = signalVersion := version
  obtain rfl : _ = "" := bare
  obtain rfl | rfl : type = .wssFallback ∨ type = .wssReady := fallback
  · decide
  · decide

variable {role : Role} {e : SignalEnd} {signal : Signal}

/-- **What can come of a signal.** It is refused, though a part of the state may have changed, or its
records are written. -/
theorem sendSignal_cases (role : Role) (e : SignalEnd) (signal : Signal) :
    (∃ error sendState messageID, e.sendSignal role signal =
        (.error error, { e with sendState := sendState, nextMessageID := messageID }) ∧
      e.sendState.Within sendState ∧ sendState.fallback = e.sendState.fallback ∧
      sendState.fallbackReady = e.sendState.fallbackReady) ∨
    ∃ t : Transmission, ∃ sendState messageID, e.sendSignal role signal =
        (.ok t.records, { e with sendState := sendState, nextMessageID := messageID }) ∧
      e.closed = false ∧ e.fallbackActive = false ∧ t.signal = signal.versioned ∧
      t.payload.length ≤ maxSignalMessageSize ∧
      e.sendState.accept t.signal role = .ok sendState := by
  unfold sendSignal
  by_cases closed : e.closed = true
  · rw [if_pos closed]
    exact Or.inl ⟨_, e.sendState, e.nextMessageID, rfl, .refl _, rfl, rfl⟩
  rw [if_neg closed]
  by_cases active : e.fallbackActive = true
  · rw [if_pos active]
    exact Or.inl ⟨_, e.sendState, e.nextMessageID, rfl, .refl _, rfl, rfl⟩
  rw [if_neg active]
  have opened := Bool.eq_false_iff.mpr closed
  have inactive := Bool.eq_false_iff.mpr active
  cases accepted : e.sendState.accept signal.versioned role with
  | error error => exact Or.inl ⟨_, e.sendState, e.nextMessageID, rfl, .refl _, rfl, rfl⟩
  | ok sendState =>
    have admitted := DirectionState.admitted_of_accept accepted
    dsimp only
    generalize payload_eq : encodeSignal signal.versioned = payload
    by_cases huge : maxSignalMessageSize < payload.length
    · rw [if_pos huge]
      have limit : maxRecordPlaintext ≤ maxSignalMessageSize := by decide
      have plain (bare : signal.versioned.payload = "") :
          ¬(signal.versioned.type = .wssFallback ∨ signal.versioned.type = .wssReady) := by
        intro fallback
        have small := length_bare admitted.version bare fallback
        rw [payload_eq] at small
        exact absurd huge (small.trans limit).not_gt
      refine Or.inl ⟨_, sendState, e.nextMessageID, rfl, admitted.within, ?_, ?_⟩
      · exact admitted.fallback fun request =>
          plain (admitted.request request).2.1 (Or.inl request)
      · exact admitted.fallbackReady fun ready =>
          plain (admitted.ready ready).2.1 (Or.inr ready)
    · rw [if_neg huge]
      by_cases small : payload.length ≤ maxRecordPlaintext
      · rw [if_pos small]
        refine Or.inr ⟨⟨signal.versioned, e.nextMessageID⟩, sendState, e.nextMessageID, ?_, opened,
          inactive, rfl, ?_, accepted⟩
        · show _ = (Except.ok (signalRecords _ (encodeSignal signal.versioned)), _)
          rw [payload_eq, signalRecords_whole small]
        · show (encodeSignal signal.versioned).length ≤ _
          rw [payload_eq]
          exact not_lt.mp huge
      · rw [if_neg small]
        have fragments : fragmentSignalMessage (e.nextMessageID + 1) payload = .ok _ :=
          if_neg (not_or.mpr ⟨small, huge⟩)
        rw [fragments]
        refine Or.inr ⟨⟨signal.versioned, e.nextMessageID + 1⟩, sendState, e.nextMessageID + 1, ?_,
          opened, inactive, rfl, ?_, accepted⟩
        · show _ = (Except.ok (signalRecords _ (encodeSignal signal.versioned)), _)
          rw [payload_eq, signalRecords_cut (not_le.mp small)]
        · show (encodeSignal signal.versioned).length ≤ _
          rw [payload_eq]
          exact not_lt.mp huge

theorem sendSignal_ready (opened : e.closed = false) (inactive : e.fallbackActive = false)
    (fresh : e.sendState.fallbackReady = false) : ∃ t : Transmission, t.signal = readySignal ∧
      e.sendSignal .host readySignal =
        (.ok t.records, { e with sendState := { e.sendState with fallbackReady := true } }) ∧
      t.payload.length ≤ maxSignalMessageSize ∧
      e.sendState.accept t.signal .host = .ok { e.sendState with fallbackReady := true } := by
  have accepted : e.sendState.accept readySignal .host =
      .ok { e.sendState with fallbackReady := true } := by
    rw [DirectionState.accept, if_neg (by decide)]
    exact if_neg (by simp [readySignal, fresh])
  have small : (encodeSignal readySignal).length ≤ maxRecordPlaintext :=
    length_bare rfl rfl (Or.inr rfl)
  have limit : maxRecordPlaintext ≤ maxSignalMessageSize := by decide
  have versioned : readySignal.versioned = readySignal := by decide
  refine ⟨⟨readySignal, 0⟩, rfl, ?_, small.trans limit, accepted⟩
  have records : Transmission.records ⟨readySignal, 0⟩ =
      [⟨RecordKind.signal, encodeSignal readySignal⟩] := signalRecords_whole small
  have closed : ¬e.closed = true := by simp [opened]
  have active : ¬e.fallbackActive = true := by simp [inactive]
  rw [records, sendSignal, if_neg closed, if_neg active, versioned, accepted]
  dsimp only
  rw [if_neg (small.trans limit).not_gt, if_pos small]

end SignalEnd

structure SwitchWorld where
  ends : Role → SignalEnd
  /-- The records on their way to an end. -/
  wire : Role → List PlainRecord

inductive SwitchEvent where
  | bind (role : Role)
  | send (role : Role) (signal : Signal)
  | start
  | fallback (role : Role) (event : WriterEvent)
  /-- An end reads its next record; `handled` is the answer of the application. -/
  | read (role : Role) (now : ℤ) (handled : Bool)
  | acknowledge (role : Role)
  | activate (role : Role)
  | close (role : Role)

def partRecord (part : Portion Call) : Option PlainRecord := part.item.records[part.index]?

namespace SwitchWorld

def start : SwitchWorld := ⟨fun _ => .new, fun _ => []⟩

def set (w : SwitchWorld) (role : Role) (e : SignalEnd) : SwitchWorld :=
  { w with ends := Function.update w.ends role e }

def write (w : SwitchWorld) (role : Role) (records : List PlainRecord) : SwitchWorld :=
  { w with wire := Function.update w.wire role.peer (w.wire role.peer ++ records) }

theorem write_own (w : SwitchWorld) (role : Role) (records : List PlainRecord) :
    (w.write role records).wire role = w.wire role :=
  Function.update_of_ne role.peer_ne.symm _ _

theorem write_peer (w : SwitchWorld) (role : Role) (records : List PlainRecord) :
    (w.write role records).wire role.peer = w.wire role.peer ++ records :=
  Function.update_self _ _ _

def fail (w : SwitchWorld) (role : Role) (e : SignalEnd) (error : ReadError) : SwitchWorld :=
  w.set role { e with failure := some error, writer := { e.writer with closed := true } }

def sendSignal (w : SwitchWorld) (role : Role) (signal : Signal) : SwitchWorld :=
  match (w.ends role).sendSignal role signal with
  | (.ok records, e) => (w.set role e).write role records
  | (.error _, e) => w.set role e

def stepWriter (w : SwitchWorld) (role : Role) (event : WriterEvent) : SwitchWorld :=
  let e := w.ends role
  let writer := e.writer.step role event
  (w.set role { e with writer := writer }).write role
    ((writer.written.drop e.writer.written.length).filterMap partRecord)

variable (decode : Bytes → Option Signal)

def read (w : SwitchWorld) (role : Role) (now : ℤ) (handled : Bool) : SwitchWorld :=
  let e := w.ends role
  match w.wire role with
  | [] => w
  | record :: rest =>
    if e.closed ∨ e.phase ≠ .reading then w
    else
      let w := { w with wire := Function.update w.wire role rest }
      match e.readRecord decode role record now handled with
      | .ok e => w.set role e
      | .error error => w.fail role e error

def acknowledge (w : SwitchWorld) (role : Role) : SwitchWorld :=
  if (w.ends role).closed ∨ (w.ends role).phase ≠ .acknowledging then w
  else
    match (w.ends role).sendSignal role readySignal with
    | (.ok records, e) => (w.set role { e with phase := .activating }).write role records
    | (.error _, e) => w.fail role e .acknowledgement

/-- After the acknowledgement the end activates the fallback, and reads on. -/
def activate (w : SwitchWorld) (role : Role) : SwitchWorld :=
  if (w.ends role).phase ≠ .activating then w
  else
    match (w.ends role).activateWSSFallback with
    | .ok e => w.set role { e with phase := .reading }
    | .error error => w.fail role (w.ends role) error

def step (w : SwitchWorld) : SwitchEvent → SwitchWorld
  | .bind role =>
    if (w.ends role).closed then w else w.set role { w.ends role with fallbackBound := true }
  | .send role signal => w.sendSignal role signal
  | .start =>
    if (w.ends .client).fallbackActive ∨ (w.ends .client).fallbackBound = false then w
    else w.sendSignal .client requestSignal
  | .fallback role event => if (w.ends role).fallbackActive then w.stepWriter role event else w
  | .read role now handled => w.read decode role now handled
  | .acknowledge role => w.acknowledge role
  | .activate role => w.activate role
  | .close role => w.stepWriter role .close

end SwitchWorld

end Atterm.Transport
