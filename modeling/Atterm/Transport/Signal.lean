/-
**Signals.**

A signal channel carries the negotiation of a direct route, and the request and the acknowledgement of
the fallback. Each direction admits a signal at most once, and a bounded number of candidates. A signal
that does not fit one record is cut into fragments, and the reader puts one signal together at a time.

* `DirectionState.accept` — what a direction admits;
* `accept_within` — a state that has admitted less admits what the other admits;
* `signalRecords`, `collect` — what is written for a signal and what a record does.
-/

import Atterm.Foundation.JsonText
import Atterm.Transport.WSSChannel

namespace Atterm.Transport

open Atterm.Foundation
open Atterm.Foundation.FragmentFormat (pieceAt getElem?_pieces lt_length_pieces Held)

namespace RecordKind

def signal : RecordKind := 11
def signalFragment : RecordKind := 12

end RecordKind

def Role.peer : Role → Role
  | .client => .host
  | .host => .client

@[simp] theorem Role.peer_peer (role : Role) : role.peer.peer = role := by
  cases role <;> rfl

theorem Role.peer_ne (role : Role) : role.peer ≠ role := by
  cases role <;> decide

theorem Role.eq_or_eq_peer (role other : Role) : other = role ∨ other = role.peer := by
  cases role <;> cases other <;> simp [peer]

/-! ### What a direction admits -/

def signalVersion : Int64 := 1
def signalOfferLimit : ℕ := 32 * 1024
def signalCandidateLimit : ℕ := 8 * 1024
def maxCandidates : ℕ := 64

inductive SignalType where
  | offer
  | answer
  | iceCandidate
  | iceEnd
  | wssFallback
  | wssReady
  | other (name : String)
deriving DecidableEq, Repr

def SignalType.name : SignalType → String
  | .offer => "offer"
  | .answer => "answer"
  | .iceCandidate => "ice_candidate"
  | .iceEnd => "ice_end"
  | .wssFallback => "wss_fallback"
  | .wssReady => "wss_ready"
  | .other name => name

def SignalType.known : SignalType → Bool
  | .other _ => false
  | .offer | .answer | .iceCandidate | .iceEnd | .wssFallback | .wssReady => true

/-- A bounded negotiation message. -/
structure Signal where
  version : Int64
  type : SignalType
  payload : String
deriving DecidableEq, Repr

/-- `ErrInvalidSignal`, with what each check reports. -/
inductive SignalError where
  | version
  | offer
  | answer
  | iceCandidate
  | iceEnd
  | wssFallback
  | wssReady
  | type (name : String)
  | encodedSize
  | json
deriving DecidableEq, Repr

structure DirectionState where
  offer : Bool
  answer : Bool
  iceEnd : Bool
  fallback : Bool
  fallbackReady : Bool
  candidates : ℕ
deriving DecidableEq, Repr

namespace DirectionState

def new : DirectionState := ⟨false, false, false, false, false, 0⟩

def accept (s : DirectionState) (signal : Signal) (senderRole : Role) :
    Except SignalError DirectionState :=
  if signal.version ≠ signalVersion then .error .version
  else
    match signal.type with
    | .offer =>
      if s.offer = true ∨ signal.payload = "" ∨ signalOfferLimit < signal.payload.utf8ByteSize then
        .error .offer
      else .ok { s with offer := true }
    | .answer =>
      if s.answer = true ∨ signal.payload = "" ∨ signalOfferLimit < signal.payload.utf8ByteSize then
        .error .answer
      else .ok { s with answer := true }
    | .iceCandidate =>
      if s.iceEnd = true ∨ maxCandidates ≤ s.candidates ∨ signal.payload = "" ∨
          signalCandidateLimit < signal.payload.utf8ByteSize then .error .iceCandidate
      else .ok { s with candidates := s.candidates + 1 }
    | .iceEnd =>
      if s.iceEnd = true ∨ signal.payload ≠ "" then .error .iceEnd
      else .ok { s with iceEnd := true }
    | .wssFallback =>
      if senderRole ≠ .client ∨ s.fallback = true ∨ signal.payload ≠ "" then .error .wssFallback
      else .ok { s with fallback := true }
    | .wssReady =>
      if senderRole ≠ .host ∨ s.fallbackReady = true ∨ signal.payload ≠ "" then .error .wssReady
      else .ok { s with fallbackReady := true }
    | .other name => .error (.type name)

/-- What the one has admitted the other has admitted, too. -/
structure Within (s t : DirectionState) : Prop where
  offer : s.offer = true → t.offer = true
  answer : s.answer = true → t.answer = true
  iceEnd : s.iceEnd = true → t.iceEnd = true
  fallback : s.fallback = true → t.fallback = true
  fallbackReady : s.fallbackReady = true → t.fallbackReady = true
  candidates : s.candidates ≤ t.candidates

theorem Within.refl (s : DirectionState) : s.Within s := ⟨id, id, id, id, id, le_rfl⟩

theorem Within.trans {s t u : DirectionState} (first : s.Within t) (second : t.Within u) :
    s.Within u :=
  ⟨second.offer ∘ first.offer, second.answer ∘ first.answer, second.iceEnd ∘ first.iceEnd,
    second.fallback ∘ first.fallback, second.fallbackReady ∘ first.fallbackReady,
    first.candidates.trans second.candidates⟩

variable {s t after : DirectionState} {signal : Signal} {role : Role}

/-- What is admitted: the version, and for the two signals of the fallback all of the signal. -/
structure Admitted (s : DirectionState) (signal : Signal) (role : Role) (after : DirectionState) :
    Prop where
  version : signal.version = signalVersion
  within : s.Within after
  request : signal.type = .wssFallback →
    role = .client ∧ signal.payload = "" ∧ s.fallback = false ∧ after.fallback = true
  ready : signal.type = .wssReady →
    role = .host ∧ signal.payload = "" ∧ s.fallbackReady = false ∧ after.fallbackReady = true
  fallback : signal.type ≠ .wssFallback → after.fallback = s.fallback
  fallbackReady : signal.type ≠ .wssReady → after.fallbackReady = s.fallbackReady

theorem admitted_of_accept (accepted : s.accept signal role = .ok after) :
    s.Admitted signal role after := by
  obtain ⟨version, type, payload⟩ := signal
  unfold accept at accepted
  by_cases other : version ≠ signalVersion
  · rw [if_pos other] at accepted
    cases accepted
  · rw [if_neg other] at accepted
    have version_eq := not_not.mp other
    cases type with
    | other name => cases accepted
    | offer | answer | iceCandidate | iceEnd =>
      dsimp only at accepted
      split_ifs at accepted
      obtain rfl := Except.ok.inj accepted
      refine ⟨version_eq, ⟨?_, ?_, ?_, ?_, ?_, ?_⟩, ?_, ?_, ?_, ?_⟩ <;> simp
    | wssFallback | wssReady =>
      dsimp only at accepted
      split_ifs at accepted with refused
      obtain rfl := Except.ok.inj accepted
      push Not at refused
      obtain ⟨sender, fresh, bare⟩ := refused
      have fresh := Bool.eq_false_iff.mpr fresh
      refine ⟨version_eq, ⟨?_, ?_, ?_, ?_, ?_, ?_⟩, ?_, ?_, ?_, ?_⟩ <;> simp [sender, fresh, bare]

theorem known_of_accept (accepted : s.accept signal role = .ok after) : signal.type.known = true := by
  obtain ⟨version, type, payload⟩ := signal
  unfold accept at accepted
  by_cases other : version ≠ signalVersion
  · rw [if_pos other] at accepted
    cases accepted
  · rw [if_neg other] at accepted
    cases type with
    | other name => cases accepted
    | offer | answer | iceCandidate | iceEnd | wssFallback | wssReady => rfl

/-- **A state that has admitted less** admits what the other admits, and stays behind it. -/
theorem accept_within (within : s.Within t) (accepted : t.accept signal role = .ok after) :
    ∃ state, s.accept signal role = .ok state ∧ state.Within after := by
  obtain ⟨version, type, payload⟩ := signal
  unfold accept at accepted ⊢
  by_cases other : version ≠ signalVersion
  · rw [if_pos other] at accepted
    cases accepted
  · rw [if_neg other] at accepted ⊢
    obtain ⟨offer, answer, iceEnd, fallback, fallbackReady, candidates⟩ := within
    cases type with
    | other name => cases accepted
    | offer =>
      dsimp only at accepted ⊢
      split_ifs at accepted with refused
      obtain rfl := Except.ok.inj accepted
      rw [if_neg fun still => refused (still.imp_left offer)]
      exact ⟨_, rfl, fun _ => rfl, answer, iceEnd, fallback, fallbackReady, candidates⟩
    | answer =>
      dsimp only at accepted ⊢
      split_ifs at accepted with refused
      obtain rfl := Except.ok.inj accepted
      rw [if_neg fun still => refused (still.imp_left answer)]
      exact ⟨_, rfl, offer, fun _ => rfl, iceEnd, fallback, fallbackReady, candidates⟩
    | iceCandidate =>
      dsimp only at accepted ⊢
      split_ifs at accepted with refused
      obtain rfl := Except.ok.inj accepted
      rw [if_neg fun still => refused (still.imp iceEnd (Or.imp_left (·.trans candidates)))]
      exact ⟨_, rfl, offer, answer, iceEnd, fallback, fallbackReady,
        Nat.add_le_add_right candidates 1⟩
    | iceEnd =>
      dsimp only at accepted ⊢
      split_ifs at accepted with refused
      obtain rfl := Except.ok.inj accepted
      rw [if_neg fun still => refused (still.imp_left iceEnd)]
      exact ⟨_, rfl, offer, answer, fun _ => rfl, fallback, fallbackReady, candidates⟩
    | wssFallback =>
      dsimp only at accepted ⊢
      split_ifs at accepted with refused
      obtain rfl := Except.ok.inj accepted
      rw [if_neg fun still => refused (still.imp_right (Or.imp_left fallback))]
      exact ⟨_, rfl, offer, answer, iceEnd, fun _ => rfl, fallbackReady, candidates⟩
    | wssReady =>
      dsimp only at accepted ⊢
      split_ifs at accepted with refused
      obtain rfl := Except.ok.inj accepted
      rw [if_neg fun still => refused (still.imp_right (Or.imp_left fallbackReady))]
      exact ⟨_, rfl, offer, answer, iceEnd, fallback, fun _ => rfl, candidates⟩

end DirectionState

/-! ### What is written for a signal -/

def encodeSignal (signal : Signal) : Bytes :=
  jsonObject [("v", jsonInt signal.version), ("type", jsonString signal.type.name),
    ("payload", jsonString signal.payload)]

def signalRecords (messageID : UInt64) (payload : Bytes) : List PlainRecord :=
  if payload.length ≤ maxRecordPlaintext then [⟨RecordKind.signal, payload⟩]
  else ((pieces signalFragmentDataSize messageID payload).map signalFragment).map
    (⟨RecordKind.signalFragment, ·⟩)

section Records

variable {messageID : UInt64} {payload : Bytes}

theorem signalRecords_whole (small : payload.length ≤ maxRecordPlaintext) :
    signalRecords messageID payload = [⟨RecordKind.signal, payload⟩] := if_pos small

theorem signalRecords_cut (large : maxRecordPlaintext < payload.length) :
    signalRecords messageID payload =
      ((pieces signalFragmentDataSize messageID payload).map signalFragment).map
        (⟨RecordKind.signalFragment, ·⟩) := if_neg large.not_ge

theorem lt_length_signalRecords (large : maxRecordPlaintext < payload.length) (index : ℕ) :
    index < (signalRecords messageID payload).length ↔
      index * signalFragmentDataSize < payload.length := by
  rw [signalRecords_cut large, List.length_map, List.length_map]
  exact lt_length_pieces (by decide) index

theorem length_signalRecords_pos (nonempty : 0 < payload.length) :
    0 < (signalRecords messageID payload).length := by
  by_cases small : payload.length ≤ maxRecordPlaintext
  · rw [signalRecords_whole small]
    exact Nat.one_pos
  · rw [lt_length_signalRecords (not_le.mp small), Nat.zero_mul]
    exact nonempty

theorem signalFormat_reads (large : maxRecordPlaintext < payload.length)
    (bounded : payload.length ≤ maxSignalMessageSize) {index : ℕ}
    (inside : index * signalFragmentDataSize < payload.length) :
    signalFormat.parse (signalFragment (pieceAt signalFragmentDataSize messageID payload index)) =
      .ok (pieceAt signalFragmentDataSize messageID payload index) := by
  have length : (pieceAt signalFragmentDataSize messageID payload index).chunk.length =
      min payload.length (index * signalFragmentDataSize + signalFragmentDataSize) -
        index * signalFragmentDataSize := length_chunk (min_le_left _ _)
  have positive : 0 < signalFragmentDataSize := by decide
  rw [signalFormat_parse]
  refine signalPiece_signalFragment (by omega) (by omega) large bounded ?_
  show index * signalFragmentDataSize + _ ≤ payload.length
  omega

end Records

/-! ### What a record does -/

inductive ReadError where
  | kind (kind : RecordKind)
  | fragment (error : FragmentError)
  | signal (error : SignalError)
  | unsupported
  | unsolicited
  | notPermitted
  | acknowledgement
  | handler
deriving DecidableEq, Repr

def collect (fragments : Option (Assembly UInt64)) (record : PlainRecord) (now : ℤ) :
    Except ReadError (Option Bytes) × Option (Assembly UInt64) :=
  if record.kind = RecordKind.signal then (.ok (some record.payload), fragments)
  else if record.kind = RecordKind.signalFragment then
    match signalFormat.add fragments record.payload now with
    | (.ok message, fragments) => (.ok message, fragments)
    | (.error error, fragments) => (.error (.fragment error), fragments)
  else (.error (.kind record.kind), fragments)

/-- The signal that the record continues has taken too long. -/
def lateSignal (fragments : Option (Assembly UInt64)) (record : PlainRecord) (now : ℤ) : Bool :=
  decide (record.kind = RecordKind.signalFragment) && signalFormat.expired fragments now

theorem collect_fragment {fragments : Option (Assembly UInt64)} {record : PlainRecord} {now : ℤ}
    (fragment : record.kind = RecordKind.signalFragment) :
    collect fragments record now =
      ((signalFormat.add fragments record.payload now).1.mapError ReadError.fragment,
        (signalFormat.add fragments record.payload now).2) := by
  have other : record.kind ≠ RecordKind.signal := by
    rw [fragment]
    decide
  rw [collect, if_neg other, if_pos fragment]
  rcases signalFormat.add fragments record.payload now with ⟨result, after⟩
  cases result <;> rfl

/-- **Record by record.** The next record of a signal continues it, and the last one completes it. -/
theorem collect_held {messageID : UInt64} {payload : Bytes} {fragments : Option (Assembly UInt64)}
    {index : ℕ} {record : PlainRecord} {now : ℤ} (bounded : payload.length ≤ maxSignalMessageSize)
    (held : Held signalFragmentDataSize messageID payload index fragments)
    (recorded : (signalRecords messageID payload)[index]? = some record)
    (timely : lateSignal fragments record now = false) :
    if index + 1 < (signalRecords messageID payload).length then
      ∃ after, collect fragments record now = (.ok none, after) ∧
        Held signalFragmentDataSize messageID payload (index + 1) after
    else collect fragments record now = (.ok (some payload), none) := by
  by_cases small : payload.length ≤ maxRecordPlaintext
  · rw [signalRecords_whole small] at recorded ⊢
    obtain ⟨below, rfl⟩ := List.getElem?_eq_some_iff.mp recorded
    have first : index = 0 := Nat.lt_one_iff.mp below
    subst first
    rw [Held, if_pos rfl] at held
    rw [if_neg (by simp), held]
    exact if_pos rfl
  · have large := not_le.mp small
    have within := (lt_length_signalRecords large index).mp
      (List.getElem?_eq_some_iff.mp recorded).1
    have count : index + 1 < (signalRecords messageID payload).length ↔ _ :=
      lt_length_signalRecords large (index + 1)
    rw [signalRecords_cut large, List.getElem?_map, List.getElem?_map,
      getElem?_pieces (by decide), if_pos within] at recorded
    obtain rfl := Option.some.inj recorded
    have expires : signalFormat.expired fragments now = false := by simpa [lateSignal] using timely
    have added := FragmentFormat.add_held held expires within (signalFormat_reads large bounded within)
    rw [collect_fragment rfl]
    by_cases more : (index + 1) * signalFragmentDataSize < payload.length
    · rw [if_pos more] at added
      obtain ⟨after, added, holds⟩ := added
      rw [if_pos (count.mpr more), added]
      exact ⟨after, rfl, holds⟩
    · rw [if_neg more] at added
      rw [if_neg (mt count.mp more), added]
      rfl

end Atterm.Transport
