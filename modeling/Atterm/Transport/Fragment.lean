/-
**Fragments of the direct route.**

Terminal frames, config messages and signals that do not fit one record are cut into fragments. Each
has a header of its own, and a reassembler that collects one message at a time.

* `accepts_unique` — no fragment is accepted in two formats;
* `fragmentation_round_trip` — what is cut is put together again, among fragments that are rejected;
* `late_fragment_drops` — a fragment after the timeout drops the message.
-/

import Atterm.Foundation.Fragments
import Atterm.Transport.Record

namespace Atterm.Transport

open Atterm.Foundation

def fragmentHeaderSize : ℕ := 8 + 4 + 4
def fragmentDataSize : ℕ := maxRecordPlaintext - fragmentHeaderSize
def configFragmentHeaderSize : ℕ := 4 + 8 + 4 + 1 + 4 + 4
def configFragmentDataSize : ℕ := maxRecordPlaintext - configFragmentHeaderSize
def signalFragmentHeaderSize : ℕ := 4 + 8 + 4 + 4 + 4
def signalFragmentDataSize : ℕ := maxRecordPlaintext - signalFragmentHeaderSize
def maxFrameSize : ℕ := 16 * 1024 * 1024
def maxConfigMessageSize : ℕ := 16 * 1024 * 1024
def maxSignalMessageSize : ℕ := 64 * 1024

/-- How long an incomplete message is kept, in nanoseconds. -/
def reassemblyTimeout : ℤ := 10 * 1000000000

/-- `ACF1` -/
def configFragmentMagic : Bytes := [0x41, 0x43, 0x46, 0x31]
def configFragmentIsolationMarker : ℕ := 0xffffffff

/-- `ASF1` -/
def signalFragmentMagic : Bytes := [0x41, 0x53, 0x46, 0x31]
def signalFragmentIsolationMarker : ℕ := 0xfffffffe

/-- The three kinds of messages. -/
inductive Channel where
  | terminal
  | config
  | signal
deriving DecidableEq, Repr

/-- `ErrInvalidFragment`, with what each check reports, and `ErrReassemblyTimeout`. -/
inductive FragmentError where
  | notRequired
  | frame (size : ℕ)
  | config (kind : RecordKind) (size : ℕ)
  | signal (size : ℕ)
  | size (length : ℕ)
  | total (total : ℕ)
  | chunkExceedsTotal
  | structure (channel : Channel)
  | bounds (channel : Channel)
  | firstOffset (channel : Channel) (offset : ℕ)
  | mismatch (channel : Channel)
  | reassemblyTimeout
deriving DecidableEq, Repr

/-! ### Terminal frames -/

def terminalFragment (piece : Piece UInt64) : Bytes :=
  bigEndian 8 piece.tag.toNat ++ (bigEndian 4 piece.offset ++ (bigEndian 4 piece.total ++ piece.chunk))

def fragmentFrame (messageID : UInt64) (frame : Bytes) : Except FragmentError (List Bytes) :=
  if frame.length ≤ maxRecordPlaintext then .error .notRequired
  else if maxFrameSize < frame.length then .error (.frame frame.length)
  else .ok ((pieces fragmentDataSize messageID frame).map terminalFragment)

def terminalPiece (fragment : Bytes) : Except FragmentError (Piece UInt64) :=
  if fragment.length ≤ fragmentHeaderSize ∨ maxRecordPlaintext < fragment.length then
    .error (.size fragment.length)
  else
    let messageID := UInt64.ofNat (numberAt fragment 0 8)
    let offset := numberAt fragment 8 12
    let total := numberAt fragment 12 16
    let chunk := fragment.drop fragmentHeaderSize
    if total ≤ maxRecordPlaintext ∨ maxFrameSize < total then .error (.total total)
    else if total < offset + chunk.length then .error .chunkExceedsTotal
    else .ok ⟨messageID, offset, total, chunk⟩

/-- Terminal frames, told apart by their message ids. -/
def terminalFormat : FragmentFormat UInt64 Bytes FragmentError where
  parse := terminalPiece
  deliver := fun _ frame => frame
  timeout := reassemblyTimeout
  late := .reassemblyTimeout
  firstOffset := .firstOffset .terminal
  mismatch := .mismatch .terminal

/-! ### Config messages -/

def configFragment (piece : Piece (RecordKind × UInt64)) : Bytes :=
  configFragmentMagic ++ (bigEndian 8 piece.tag.2.toNat ++
    (bigEndian 4 configFragmentIsolationMarker ++ ([piece.tag.1] ++
      (bigEndian 4 piece.offset ++ (bigEndian 4 piece.total ++ piece.chunk)))))

def fragmentConfigMessage (kind : RecordKind) (messageID : UInt64) (message : Bytes) :
    Except FragmentError (List Bytes) :=
  if RecordKind.configMessage kind = false ∨ message.length ≤ maxRecordPlaintext ∨
      maxConfigMessageSize < message.length then .error (.config kind message.length)
  else .ok ((pieces configFragmentDataSize (kind, messageID) message).map configFragment)

def configPiece (fragment : Bytes) : Except FragmentError (Piece (RecordKind × UInt64)) :=
  if fragment.length ≤ configFragmentHeaderSize ∨ maxRecordPlaintext < fragment.length ∨
      fragment.extract 0 4 ≠ configFragmentMagic ∨
      numberAt fragment 12 16 ≠ configFragmentIsolationMarker then .error (.structure .config)
  else
    let messageID := UInt64.ofNat (numberAt fragment 4 12)
    let kind := fragment.getD 16 0
    let offset := numberAt fragment 17 21
    let total := numberAt fragment 21 25
    let chunk := fragment.drop configFragmentHeaderSize
    if RecordKind.configMessage kind = false ∨ total ≤ maxRecordPlaintext ∨ maxConfigMessageSize < total ∨
        total < offset + chunk.length then .error (.bounds .config)
    else .ok ⟨(kind, messageID), offset, total, chunk⟩

/-- Config messages, told apart by their kinds and message ids. -/
def configFormat : FragmentFormat (RecordKind × UInt64) (RecordKind × Bytes) FragmentError where
  parse := configPiece
  deliver := fun tag message => (tag.1, message)
  timeout := reassemblyTimeout
  late := .reassemblyTimeout
  firstOffset := .firstOffset .config
  mismatch := .mismatch .config

/-! ### Signals -/

def signalFragment (piece : Piece UInt64) : Bytes :=
  signalFragmentMagic ++ (bigEndian 8 piece.tag.toNat ++
    (bigEndian 4 signalFragmentIsolationMarker ++
      (bigEndian 4 piece.offset ++ (bigEndian 4 piece.total ++ piece.chunk))))

def fragmentSignalMessage (messageID : UInt64) (message : Bytes) :
    Except FragmentError (List Bytes) :=
  if message.length ≤ maxRecordPlaintext ∨ maxSignalMessageSize < message.length then
    .error (.signal message.length)
  else .ok ((pieces signalFragmentDataSize messageID message).map signalFragment)

def signalPiece (fragment : Bytes) : Except FragmentError (Piece UInt64) :=
  if fragment.length ≤ signalFragmentHeaderSize ∨ maxRecordPlaintext < fragment.length ∨
      fragment.extract 0 4 ≠ signalFragmentMagic ∨
      numberAt fragment 12 16 ≠ signalFragmentIsolationMarker then .error (.structure .signal)
  else
    let messageID := UInt64.ofNat (numberAt fragment 4 12)
    let offset := numberAt fragment 16 20
    let total := numberAt fragment 20 24
    let chunk := fragment.drop signalFragmentHeaderSize
    if total ≤ maxRecordPlaintext ∨ maxSignalMessageSize < total ∨ total < offset + chunk.length then
      .error (.bounds .signal)
    else .ok ⟨messageID, offset, total, chunk⟩

/-- Signals, told apart by their message ids. -/
def signalFormat : FragmentFormat UInt64 Bytes FragmentError where
  parse := signalPiece
  deliver := fun _ message => message
  timeout := reassemblyTimeout
  late := .reassemblyTimeout
  firstOffset := .firstOffset .signal
  mismatch := .mismatch .signal

@[simp] theorem terminalFormat_parse : terminalFormat.parse = terminalPiece := rfl

@[simp] theorem configFormat_parse : configFormat.parse = configPiece := rfl

@[simp] theorem signalFormat_parse : signalFormat.parse = signalPiece := rfl

/-! ### Reading what was written -/

theorem toNat_lt (messageID : UInt64) : messageID.toNat < 256 ^ 8 := messageID.toNat_lt

theorem length_configFragmentMagic : configFragmentMagic.length = 4 := rfl

theorem length_signalFragmentMagic : signalFragmentMagic.length = 4 := rfl

theorem lt_four_octets {number limit : ℕ} (bounded : number ≤ limit)
    (small : limit ≤ 16 * 1024 * 1024) : number < 256 ^ 4 := by
  norm_num
  omega

theorem fragment_whole : fragmentHeaderSize + fragmentDataSize = maxRecordPlaintext := rfl

theorem configFragment_whole :
    configFragmentHeaderSize + configFragmentDataSize = maxRecordPlaintext := rfl

theorem signalFragment_whole :
    signalFragmentHeaderSize + signalFragmentDataSize = maxRecordPlaintext := rfl

theorem length_terminalFragment (piece : Piece UInt64) :
    (terminalFragment piece).length = fragmentHeaderSize + piece.chunk.length := by
  simp [terminalFragment, fragmentHeaderSize]
  omega

theorem length_configFragment (piece : Piece (RecordKind × UInt64)) :
    (configFragment piece).length = configFragmentHeaderSize + piece.chunk.length := by
  simp [configFragment, configFragmentHeaderSize, configFragmentMagic]
  omega

theorem length_signalFragment (piece : Piece UInt64) :
    (signalFragment piece).length = signalFragmentHeaderSize + piece.chunk.length := by
  simp [signalFragment, signalFragmentHeaderSize, signalFragmentMagic]
  omega

theorem terminalPiece_terminalFragment {piece : Piece UInt64} (some : 0 < piece.chunk.length)
    (fits : piece.chunk.length ≤ fragmentDataSize) (large : maxRecordPlaintext < piece.total)
    (bounded : piece.total ≤ maxFrameSize)
    (inside : piece.offset + piece.chunk.length ≤ piece.total) :
    terminalPiece (terminalFragment piece) = .ok piece := by
  have id : numberAt (terminalFragment piece) 0 8 = piece.tag.toNat := numberAt_head (toNat_lt _)
  have offset : numberAt (terminalFragment piece) 8 12 = piece.offset :=
    (numberAt_skip (length_bigEndian 8 _) 0 4).trans
      (numberAt_head (lt_four_octets (by omega) bounded))
  have total : numberAt (terminalFragment piece) 12 16 = piece.total :=
    (numberAt_skip (length_bigEndian 8 _) 4 8).trans <|
      (numberAt_skip (length_bigEndian 4 _) 0 4).trans
        (numberAt_head (lt_four_octets bounded le_rfl))
  have chunk : (terminalFragment piece).drop fragmentHeaderSize = piece.chunk :=
    (drop_skip (length_bigEndian 8 _) 8).trans <| (drop_skip (length_bigEndian 4 _) 4).trans
      (drop_skip (length_bigEndian 4 _) 0)
  have length := length_terminalFragment piece
  have whole := fragment_whole
  rw [terminalPiece, if_neg (by omega)]
  simp only [id, offset, total, chunk, UInt64.ofNat_toNat]
  rw [if_neg (by omega), if_neg (by omega)]

theorem configPiece_configFragment {piece : Piece (RecordKind × UInt64)}
    (message : RecordKind.configMessage piece.tag.1 = true) (some : 0 < piece.chunk.length)
    (fits : piece.chunk.length ≤ configFragmentDataSize) (large : maxRecordPlaintext < piece.total)
    (bounded : piece.total ≤ maxConfigMessageSize)
    (inside : piece.offset + piece.chunk.length ≤ piece.total) :
    configPiece (configFragment piece) = .ok piece := by
  have magic : (configFragment piece).extract 0 4 = configFragmentMagic :=
    extract_head length_configFragmentMagic
  have id : numberAt (configFragment piece) 4 12 = piece.tag.2.toNat :=
    (numberAt_skip length_configFragmentMagic 0 8).trans (numberAt_head (toNat_lt _))
  have marker : numberAt (configFragment piece) 12 16 = configFragmentIsolationMarker :=
    (numberAt_skip length_configFragmentMagic 8 12).trans <|
      (numberAt_skip (length_bigEndian 8 _) 0 4).trans (numberAt_head (by decide))
  -- the kind and the two numbers after it
  have after (count : ℕ) : (configFragment piece).drop (16 + count) =
      ([piece.tag.1] ++ (bigEndian 4 piece.offset ++
        (bigEndian 4 piece.total ++ piece.chunk))).drop count := by
    rw [show 16 + count = 4 + (8 + (4 + count)) by omega, configFragment,
      drop_skip length_configFragmentMagic, drop_skip (length_bigEndian 8 _),
      drop_skip (length_bigEndian 4 _)]
  have fields (start stop : ℕ) : numberAt (configFragment piece) (16 + start) (16 + stop) =
      numberAt ([piece.tag.1] ++ (bigEndian 4 piece.offset ++
        (bigEndian 4 piece.total ++ piece.chunk))) start stop := by
    rw [numberAt, List.extract_eq_take_drop, after, Nat.add_sub_add_left, numberAt,
      List.extract_eq_take_drop]
  have kind : (configFragment piece).getD 16 0 = piece.tag.1 := by
    have head := congrArg List.head? (after 0)
    rw [List.head?_drop] at head
    simp [List.getD, head]
  have offset : numberAt (configFragment piece) 17 21 = piece.offset :=
    (fields 1 5).trans <| (numberAt_skip List.length_singleton 0 4).trans
      (numberAt_head (lt_four_octets (by omega) bounded))
  have total : numberAt (configFragment piece) 21 25 = piece.total :=
    (fields 5 9).trans <| (numberAt_skip List.length_singleton 4 8).trans <|
      (numberAt_skip (length_bigEndian 4 _) 0 4).trans
        (numberAt_head (lt_four_octets bounded le_rfl))
  have chunk : (configFragment piece).drop configFragmentHeaderSize = piece.chunk :=
    (after 9).trans <| (drop_skip List.length_singleton 8).trans <|
      (drop_skip (length_bigEndian 4 _) 4).trans (drop_skip (length_bigEndian 4 _) 0)
  have length := length_configFragment piece
  have whole := configFragment_whole
  have structured : ¬((configFragment piece).length ≤ configFragmentHeaderSize ∨
      maxRecordPlaintext < (configFragment piece).length ∨
      (configFragment piece).extract 0 4 ≠ configFragmentMagic ∨
      numberAt (configFragment piece) 12 16 ≠ configFragmentIsolationMarker) := by
    push Not
    exact ⟨by omega, by omega, magic, marker⟩
  rw [configPiece, if_neg structured]
  simp only [id, kind, offset, total, chunk, UInt64.ofNat_toNat]
  have within : ¬(RecordKind.configMessage piece.tag.1 = false ∨ piece.total ≤ maxRecordPlaintext ∨
      maxConfigMessageSize < piece.total ∨
      piece.total < piece.offset + piece.chunk.length) := by
    push Not
    exact ⟨by simp [message], by omega, by omega, by omega⟩
  rw [if_neg within]

theorem signalPiece_signalFragment {piece : Piece UInt64} (some : 0 < piece.chunk.length)
    (fits : piece.chunk.length ≤ signalFragmentDataSize) (large : maxRecordPlaintext < piece.total)
    (bounded : piece.total ≤ maxSignalMessageSize)
    (inside : piece.offset + piece.chunk.length ≤ piece.total) :
    signalPiece (signalFragment piece) = .ok piece := by
  have small : maxSignalMessageSize ≤ 16 * 1024 * 1024 := by decide
  have magic : (signalFragment piece).extract 0 4 = signalFragmentMagic :=
    extract_head length_signalFragmentMagic
  have id : numberAt (signalFragment piece) 4 12 = piece.tag.toNat :=
    (numberAt_skip length_signalFragmentMagic 0 8).trans (numberAt_head (toNat_lt _))
  have marker : numberAt (signalFragment piece) 12 16 = signalFragmentIsolationMarker :=
    (numberAt_skip length_signalFragmentMagic 8 12).trans <|
      (numberAt_skip (length_bigEndian 8 _) 0 4).trans (numberAt_head (by decide))
  have offset : numberAt (signalFragment piece) 16 20 = piece.offset :=
    (numberAt_skip length_signalFragmentMagic 12 16).trans <|
      (numberAt_skip (length_bigEndian 8 _) 4 8).trans <|
        (numberAt_skip (length_bigEndian 4 _) 0 4).trans
          (numberAt_head (lt_four_octets (by omega) small))
  have total : numberAt (signalFragment piece) 20 24 = piece.total :=
    (numberAt_skip length_signalFragmentMagic 16 20).trans <|
      (numberAt_skip (length_bigEndian 8 _) 8 12).trans <|
        (numberAt_skip (length_bigEndian 4 _) 4 8).trans <|
          (numberAt_skip (length_bigEndian 4 _) 0 4).trans
            (numberAt_head (lt_four_octets bounded small))
  have chunk : (signalFragment piece).drop signalFragmentHeaderSize = piece.chunk :=
    (drop_skip length_signalFragmentMagic 20).trans <| (drop_skip (length_bigEndian 8 _) 12).trans <|
      (drop_skip (length_bigEndian 4 _) 8).trans <| (drop_skip (length_bigEndian 4 _) 4).trans
        (drop_skip (length_bigEndian 4 _) 0)
  have length := length_signalFragment piece
  have whole := signalFragment_whole
  have structured : ¬((signalFragment piece).length ≤ signalFragmentHeaderSize ∨
      maxRecordPlaintext < (signalFragment piece).length ∨
      (signalFragment piece).extract 0 4 ≠ signalFragmentMagic ∨
      numberAt (signalFragment piece) 12 16 ≠ signalFragmentIsolationMarker) := by
    push Not
    exact ⟨by omega, by omega, magic, marker⟩
  rw [signalPiece, if_neg structured]
  simp only [id, offset, total, chunk, UInt64.ofNat_toNat]
  rw [if_neg (by omega)]

/-! ### Isolation -/

/-- Some reassembler of the channel accepts the fragment at some time. -/
def Channel.Accepts (fragment : Bytes) : Channel → Prop
  | .terminal => ∃ assembly now result,
      (terminalFormat.add assembly fragment now).1 = .ok result
  | .config => ∃ assembly now result, (configFormat.add assembly fragment now).1 = .ok result
  | .signal => ∃ assembly now result, (signalFormat.add assembly fragment now).1 = .ok result

theorem terminal_of_accepts {fragment : Bytes} (accepted : Channel.terminal.Accepts fragment) :
    numberAt fragment 12 16 ≤ maxFrameSize := by
  obtain ⟨assembly, now, result, added⟩ := accepted
  obtain ⟨piece, reads⟩ := FragmentFormat.reads_of_add added
  simp only [terminalFormat, terminalPiece] at reads
  split_ifs at reads
  omega

theorem config_of_accepts {fragment : Bytes} (accepted : Channel.config.Accepts fragment) :
    numberAt fragment 12 16 = configFragmentIsolationMarker := by
  obtain ⟨assembly, now, result, added⟩ := accepted
  obtain ⟨piece, reads⟩ := FragmentFormat.reads_of_add added
  simp only [configFormat, configPiece] at reads
  split_ifs at reads with unstructured
  push Not at unstructured
  exact unstructured.2.2.2

theorem signal_of_accepts {fragment : Bytes} (accepted : Channel.signal.Accepts fragment) :
    numberAt fragment 12 16 = signalFragmentIsolationMarker := by
  obtain ⟨assembly, now, result, added⟩ := accepted
  obtain ⟨piece, reads⟩ := FragmentFormat.reads_of_add added
  simp only [signalFormat, signalPiece] at reads
  split_ifs at reads with unstructured
  push Not at unstructured
  exact unstructured.2.2.2

/-- **The channels are isolated**: the octets where a terminal fragment has its total are a marker,
above every total, in the fragments of the other two. -/
theorem accepts_unique {first second : Channel} {fragment : Bytes} (one : first.Accepts fragment)
    (other : second.Accepts fragment) : first = second := by
  have config : maxFrameSize < configFragmentIsolationMarker := by decide
  have signal : maxFrameSize < signalFragmentIsolationMarker := by decide
  have markers : configFragmentIsolationMarker ≠ signalFragmentIsolationMarker := by decide
  cases first <;> cases second <;> try rfl
  · have total := terminal_of_accepts one
    have marker := config_of_accepts other
    omega
  · have total := terminal_of_accepts one
    have marker := signal_of_accepts other
    omega
  · have marker := config_of_accepts one
    have total := terminal_of_accepts other
    omega
  · exact absurd ((config_of_accepts one).symm.trans (signal_of_accepts other)) markers
  · have marker := signal_of_accepts one
    have total := terminal_of_accepts other
    omega
  · exact absurd ((config_of_accepts other).symm.trans (signal_of_accepts one)) markers

/-! ### Round trips -/

section RoundTrip

variable {τ ω : Type} [DecidableEq τ] {format : FragmentFormat τ ω FragmentError}

open FragmentFormat

def Timely (feed : List Fed) : Prop :=
  ∀ first ∈ (own feed).head?, ∀ fed ∈ feed, fed.now - first.now ≤ reassemblyTimeout

/-- The fragments of a message: they fit a record, no other channel accepts one, and fed in order
and in time among fragments that are rejected they give the message at the last and nothing
before. -/
structure RoundTrips (channel : Channel) (format : FragmentFormat τ ω FragmentError)
    (fragments : List Bytes) (output : ω) : Prop where
  small : ∀ fragment ∈ fragments, fragment.length ≤ maxRecordPlaintext
  isolated : ∀ fragment ∈ fragments, ∀ other, other.Accepts fragment → other = channel
  restored : ∀ feed, (own feed).map (·.fragment) = fragments → Timely feed →
    OthersRejected feed (format.feedAll none feed).1 →
    (format.feedAll none feed).2 = none ∧
      ownResults feed (format.feedAll none feed).1 = delivered fragments.length output

theorem add_unchanged (late : format.late = .reassemblyTimeout) {assembly : Option (Assembly τ)}
    {fragment : Bytes} {now : ℤ} {e : FragmentError}
    (rejected : (format.add assembly fragment now).1 = .error e)
    (timely : e ≠ .reassemblyTimeout) : (format.add assembly fragment now).2 = assembly := by
  cases expired : format.expired assembly now with
  | true =>
    rw [add_expired expired, late] at rejected
    cases rejected
    exact absurd rfl timely
  | false => exact add_error expired rejected

variable (format) in
theorem roundTrips {channel : Channel} {encode : Piece τ → Bytes} {size header : ℕ} {tag : τ}
    {message : Bytes} (timeout : format.timeout = reassemblyTimeout) (positive : 0 < size)
    (whole : header + size = maxRecordPlaintext) (large : maxRecordPlaintext < message.length)
    (length : ∀ piece, (encode piece).length = header + piece.chunk.length)
    (reads : ∀ piece : Piece τ, piece.tag = tag → piece.total = message.length →
      0 < piece.chunk.length → piece.chunk.length ≤ size →
      piece.offset + piece.chunk.length ≤ piece.total → format.parse (encode piece) = .ok piece)
    (accepts : ∀ fragment, (∃ assembly now result,
      (format.add assembly fragment now).1 = .ok result) → channel.Accepts fragment) :
    RoundTrips channel format ((pieces size tag message).map encode)
      (format.deliver tag message) := by
  have readable : ∀ piece ∈ pieces size tag message, format.parse (encode piece) = .ok piece := by
    intro piece listed
    obtain ⟨same, total, some, fits, inside⟩ := of_mem_piecesFrom positive listed
    exact reads piece same total some fits (by rw [total]; exact inside)
  refine ⟨fun fragment listed => ?_, fun fragment listed other accepted => ?_,
    fun feed fragments timely rejected => ?_⟩
  · obtain ⟨piece, member, rfl⟩ := List.mem_map.mp listed
    have fits := (of_mem_piecesFrom positive member).2.2.2.1
    rw [length]
    omega
  · obtain ⟨piece, member, rfl⟩ := List.mem_map.mp listed
    have patient : 0 ≤ format.timeout := by
      rw [timeout]
      decide
    exact accepts_unique accepted (accepts _ (add_of_reads patient (readable piece member)))
  · have nonempty : message ≠ [] := by
      rintro rfl
      cases large
    have count : (own feed).length = ((pieces size tag message).map encode).length := by
      rw [← fragments, List.length_map]
    rw [← count]
    exact feedAll_pieces positive nonempty readable fragments
      (by rw [timeout]; exact timely) rejected

end RoundTrip

theorem fragmentFrame_ok_iff {messageID : UInt64} {frame : Bytes} {fragments : List Bytes} :
    fragmentFrame messageID frame = .ok fragments ↔
      maxRecordPlaintext < frame.length ∧ frame.length ≤ maxFrameSize ∧
        (pieces fragmentDataSize messageID frame).map terminalFragment = fragments := by
  rw [fragmentFrame]
  split_ifs with small large
  · simp [not_lt.mpr small]
  · simp [not_le.mpr large]
  · simp [not_le.mp small, not_lt.mp large]

theorem fragmentConfigMessage_ok_iff {kind : RecordKind} {messageID : UInt64} {message : Bytes}
    {fragments : List Bytes} : fragmentConfigMessage kind messageID message = .ok fragments ↔
      RecordKind.configMessage kind = true ∧ maxRecordPlaintext < message.length ∧
        message.length ≤ maxConfigMessageSize ∧
        (pieces configFragmentDataSize (kind, messageID) message).map configFragment =
          fragments := by
  rw [fragmentConfigMessage]
  split_ifs with refused
  · refine ⟨fun encoded => (by cases encoded), fun ⟨configMessage, large, bounded, _⟩ => ?_⟩
    rcases refused with other | small | huge
    · simp [configMessage] at other
    · omega
    · omega
  · push Not at refused
    simp [refused]

theorem fragmentSignalMessage_ok_iff {messageID : UInt64} {message : Bytes}
    {fragments : List Bytes} : fragmentSignalMessage messageID message = .ok fragments ↔
      maxRecordPlaintext < message.length ∧ message.length ≤ maxSignalMessageSize ∧
        (pieces signalFragmentDataSize messageID message).map signalFragment = fragments := by
  rw [fragmentSignalMessage]
  split_ifs with refused
  · refine ⟨fun encoded => (by cases encoded), fun ⟨large, bounded, _⟩ => ?_⟩
    omega
  · push Not at refused
    simp [refused]

theorem terminal_roundTrips {messageID : UInt64} {frame : Bytes} {fragments : List Bytes}
    (encoded : fragmentFrame messageID frame = .ok fragments) :
    RoundTrips .terminal terminalFormat fragments frame := by
  obtain ⟨large, bounded, rfl⟩ := fragmentFrame_ok_iff.mp encoded
  have reads (piece : Piece UInt64) (_ : piece.tag = messageID) (total : piece.total = frame.length)
      (some : 0 < piece.chunk.length) (fits : piece.chunk.length ≤ fragmentDataSize)
      (inside : piece.offset + piece.chunk.length ≤ piece.total) :
      terminalFormat.parse (terminalFragment piece) = .ok piece := by
    rw [terminalFormat_parse]
    exact terminalPiece_terminalFragment some fits (by rw [total]; exact large)
        (by rw [total]; exact bounded) inside
  exact roundTrips terminalFormat rfl (by decide) fragment_whole large length_terminalFragment
    reads fun _ accepted => accepted

theorem config_roundTrips {kind : RecordKind} {messageID : UInt64} {message : Bytes}
    {fragments : List Bytes}
    (encoded : fragmentConfigMessage kind messageID message = .ok fragments) :
    RoundTrips .config configFormat fragments (kind, message) := by
  obtain ⟨configMessage, large, bounded, rfl⟩ := fragmentConfigMessage_ok_iff.mp encoded
  have reads (piece : Piece (RecordKind × UInt64)) (same : piece.tag = (kind, messageID))
      (total : piece.total = message.length) (some : 0 < piece.chunk.length)
      (fits : piece.chunk.length ≤ configFragmentDataSize)
      (inside : piece.offset + piece.chunk.length ≤ piece.total) :
      configFormat.parse (configFragment piece) = .ok piece := by
    rw [configFormat_parse]
    exact configPiece_configFragment (by rw [same]; exact configMessage) some fits
        (by rw [total]; exact large) (by rw [total]; exact bounded) inside
  exact roundTrips configFormat rfl (by decide) configFragment_whole large length_configFragment
    reads fun _ accepted => accepted

theorem signal_roundTrips {messageID : UInt64} {message : Bytes} {fragments : List Bytes}
    (encoded : fragmentSignalMessage messageID message = .ok fragments) :
    RoundTrips .signal signalFormat fragments message := by
  obtain ⟨large, bounded, rfl⟩ := fragmentSignalMessage_ok_iff.mp encoded
  have reads (piece : Piece UInt64) (_ : piece.tag = messageID)
      (total : piece.total = message.length) (some : 0 < piece.chunk.length)
      (fits : piece.chunk.length ≤ signalFragmentDataSize)
      (inside : piece.offset + piece.chunk.length ≤ piece.total) :
      signalFormat.parse (signalFragment piece) = .ok piece := by
    rw [signalFormat_parse]
    exact signalPiece_signalFragment some fits (by rw [total]; exact large)
        (by rw [total]; exact bounded) inside
  exact roundTrips signalFormat rfl (by decide) signalFragment_whole large length_signalFragment
    reads fun _ accepted => accepted

/-- **Fragmentation goes the round trip.** In each of the three formats, the fragments of every
message that the encoder allows fit a record, are accepted by no reassembler of another format, and,
fed to a fresh reassembler in order and no later than the timeout after the first, give the message
at the last and nothing before, whatever fragments that are rejected come between them. A fragment
that is rejected for anything but the timeout leaves the assembly as it is, and no fragment at all is
accepted by reassemblers of two formats. -/
theorem fragmentation_round_trip :
    (∀ messageID frame fragments, fragmentFrame messageID frame = .ok fragments →
        RoundTrips .terminal terminalFormat fragments frame) ∧
      (∀ kind messageID message fragments,
        fragmentConfigMessage kind messageID message = .ok fragments →
          RoundTrips .config configFormat fragments (kind, message)) ∧
      (∀ messageID message fragments, fragmentSignalMessage messageID message = .ok fragments →
        RoundTrips .signal signalFormat fragments message) ∧
      (∀ assembly fragment now e, (terminalFormat.add assembly fragment now).1 = .error e →
        e ≠ .reassemblyTimeout → (terminalFormat.add assembly fragment now).2 = assembly) ∧
      (∀ assembly fragment now e, (configFormat.add assembly fragment now).1 = .error e →
        e ≠ .reassemblyTimeout → (configFormat.add assembly fragment now).2 = assembly) ∧
      (∀ assembly fragment now e, (signalFormat.add assembly fragment now).1 = .error e →
        e ≠ .reassemblyTimeout → (signalFormat.add assembly fragment now).2 = assembly) ∧
      ∀ (first second : Channel) fragment, first.Accepts fragment → second.Accepts fragment →
        first = second :=
  ⟨fun _ _ _ encoded => terminal_roundTrips encoded,
    fun _ _ _ _ encoded => config_roundTrips encoded,
    fun _ _ _ encoded => signal_roundTrips encoded,
    fun _ _ _ _ rejected timely => add_unchanged rfl rejected timely,
    fun _ _ _ _ rejected timely => add_unchanged rfl rejected timely,
    fun _ _ _ _ rejected timely => add_unchanged rfl rejected timely,
    fun _ _ _ one other => accepts_unique one other⟩

/-- A signal one octet larger than a record. -/
def slowSignal : Bytes := List.replicate 16385 0x2a

/-- Its two fragments, the second of them after more than the timeout. -/
def slowFeed : List FragmentFormat.Fed :=
  [⟨true, signalFragment ⟨37, 0, 16385, slowSignal.extract 0 16360⟩, 0⟩,
    ⟨true, signalFragment ⟨37, 16360, 16385, slowSignal.extract 16360 16385⟩, 10000000001⟩]

theorem slowSignal_encoded :
    fragmentSignalMessage 37 slowSignal = .ok (slowFeed.map (·.fragment)) := by
  have length : slowSignal.length = 16385 := List.length_replicate
  refine fragmentSignalMessage_ok_iff.mpr ⟨by rw [length]; decide, by rw [length]; decide, ?_⟩
  have first : 0 < slowSignal.length := by omega
  have second : 0 + signalFragmentDataSize < slowSignal.length := by
    rw [length]
    decide
  have finished : slowSignal.length ≤ 0 + signalFragmentDataSize + signalFragmentDataSize := by
    rw [length]
    decide
  rw [pieces, show slowSignal.length = 16383 + 1 + 1 from length, piecesFrom_of_lt first,
    piecesFrom_of_lt second, piecesFrom_of_le finished, length]
  rfl

theorem fragmentation_round_trip_signal :
    RoundTrips .signal signalFormat (slowFeed.map (·.fragment)) slowSignal :=
  fragmentation_round_trip.2.2.1 37 slowSignal _ slowSignal_encoded

/-- **A fragment that comes too late drops the message**: in order and complete, the fragments give
nothing but a timeout. -/
theorem late_fragment_drops :
    fragmentSignalMessage 37 slowSignal = .ok (slowFeed.map (·.fragment)) ∧
      signalFormat.feedAll none slowFeed = ([.ok none, .error .reassemblyTimeout], none) := by
  refine ⟨slowSignal_encoded, ?_⟩
  have length : slowSignal.length = 16385 := List.length_replicate
  have first : 0 < slowSignal.length := by omega
  have more : 0 + signalFragmentDataSize < slowSignal.length := by
    rw [length]
    decide
  have small : (slowSignal.extract 0 16360).length = 16360 := by
    rw [length_chunk (by omega)]
  have reads : signalFormat.parse (signalFragment ⟨37, 0, 16385, slowSignal.extract 0 16360⟩) =
      .ok ⟨37, 0, 16385, slowSignal.extract 0 16360⟩ := by
    rw [signalFormat_parse]
    exact signalPiece_signalFragment (by rw [small]; decide) (by rw [small]; decide) (by decide)
      (by decide) (by rw [small]; decide)
  have opened : signalFormat.add none
      (signalFragment ⟨37, 0, 16385, slowSignal.extract 0 16360⟩) 0 =
      (.ok none, some (FragmentFormat.holding 37 slowSignal 0 16360)) := by
    have begun : signalFormat.extend (FragmentFormat.holding 37 slowSignal 0 0)
        ⟨37, 0, slowSignal.length,
          slowSignal.extract 0 (min slowSignal.length (0 + signalFragmentDataSize))⟩ = _ :=
      FragmentFormat.extend_holding first
    rw [if_pos more, FragmentFormat.holding, length] at begun
    rw [FragmentFormat.add_first reads rfl]
    exact begun
  have expired : signalFormat.expired (some (FragmentFormat.holding 37 slowSignal 0 16360))
      10000000001 = true := by
    decide
  rw [slowFeed, FragmentFormat.feedAll_cons, opened, FragmentFormat.feedAll_cons,
    FragmentFormat.add_expired expired]
  rfl

end Atterm.Transport
