/-
**Messages of the WSS fallback.**

The fallback sends control records, terminal frames, service messages and config messages. A frame or
a config message that does not fit one record is cut into fragments, and the receiver puts one frame
and one config message together at a time.

* `Message.records`, `WSSReceiver.receive` — what is written for a message and what a record does;
* `Submission.whole_or_cut` — the two shapes of a message;
* `WSSReceiver.Expects`, `receive_fits`, `receive_clash` — the receiver, part by part.
-/

import Atterm.Foundation.Parts
import Atterm.Transport.Fragment
import Atterm.Transport.Transcript

namespace Atterm.Transport

open Atterm.Foundation
open Atterm.Foundation.FragmentFormat (pieceAt getElem?_pieces lt_length_pieces Held)

namespace RecordKind

def fragment : RecordKind := 2
def configFragment : RecordKind := 10
def service : RecordKind := 13

/-- The kinds of the terminal and config path. -/
def dataMessage (kind : RecordKind) : Bool :=
  decide (frame ≤ kind) && decide (kind ≤ configFragment) ||
    decide (service ≤ kind) && decide (kind ≤ sessionCreated)

theorem dataMessage_of_configMessage {kind : RecordKind} (config : configMessage kind = true) :
    dataMessage kind = true := by
  simp only [configMessage, dataMessage, Bool.or_eq_true, Bool.and_eq_true, decide_eq_true_eq]
    at config ⊢
  have first : frame ≤ configInventory := by decide
  have last : configAck ≤ configFragment := by decide
  have service : service ≤ catalogRequest := by decide
  exact config.imp (And.imp (UInt8.le_trans first) fun below => UInt8.le_trans below last)
    (And.imp_left (UInt8.le_trans service))

theorem valid_of_dataMessage {kind : RecordKind} (data : dataMessage kind = true) : valid kind = true := by
  simp only [dataMessage, valid, Bool.or_eq_true, Bool.and_eq_true, decide_eq_true_eq] at data ⊢
  rcases data with ⟨first, last⟩ | ⟨first, last⟩
  · exact ⟨first, UInt8.le_trans last (by decide)⟩
  · exact ⟨UInt8.le_trans (by decide) first, last⟩

end RecordKind

/-! ### Service messages -/

def serviceMessageHeaderSize : ℕ := 16 + 1 + 4 + 2
def maxServiceData : ℕ := maxRecordPlaintext - serviceMessageHeaderSize

abbrev ServiceKind := UInt8

def serviceOpen : ServiceKind := 1
def serviceData : ServiceKind := 2
def serviceClose : ServiceKind := 3

/-- The octets of `uuid.Nil`. -/
def nilService : Bytes := List.replicate 16 0

structure ServiceMessage where
  serviceID : Bytes
  kind : ServiceKind
  connection : ℕ
  data : Bytes
deriving DecidableEq, Repr

/-- Rejects malformed, oversized and ambiguous messages. -/
def decodeServiceMessage (payload : Bytes) : Option ServiceMessage :=
  if payload.length < serviceMessageHeaderSize ∨ maxRecordPlaintext < payload.length then none
  else
    let serviceID := payload.extract 0 16
    let kind := payload.getD 16 0
    let connection := numberAt payload 17 21
    let dataLen := numberAt payload 21 23
    if serviceID = nilService then none
    else if connection = 0 ∨ kind < serviceOpen ∨ serviceClose < kind ∨ maxServiceData < dataLen ∨
        payload.length ≠ serviceMessageHeaderSize + dataLen ∨ (kind ≠ serviceData ∧ dataLen ≠ 0) ∨
        (kind = serviceData ∧ dataLen = 0) then none
    else some ⟨serviceID, kind, connection, payload.drop serviceMessageHeaderSize⟩

/-! ### What is written -/

structure PlainRecord where
  kind : RecordKind
  payload : Bytes
deriving DecidableEq, Repr

/-- What one call sends: `SendRecord`, `SendFrame`, `SendServiceMessage` or `SendConfigMessage`. -/
inductive Message where
  | record (kind : RecordKind) (plaintext : Bytes)
  | frame (frame : Bytes)
  | service (payload : Bytes)
  | config (kind : RecordKind) (message : Bytes)
deriving DecidableEq, Repr

/-- What the checks of the four calls report. -/
inductive SendError where
  | controlRecord
  | terminalFrame
  | serviceMessage
  | configMessage
  | fragments (error : FragmentError)
deriving DecidableEq, Repr

def fragmentRecords (kind : RecordKind) (fragments : Except FragmentError (List Bytes)) :
    Except SendError (List PlainRecord) :=
  match fragments with
  | .ok payloads => .ok (payloads.map (⟨kind, ·⟩))
  | .error error => .error (.fragments error)

def frameRecords (messageID : UInt64) (frame : Bytes) : Except SendError (List PlainRecord) :=
  if frame.length ≤ maxRecordPlaintext then .ok [⟨RecordKind.frame, frame⟩]
  else fragmentRecords RecordKind.fragment (fragmentFrame messageID frame)

def configRecords (messageID : UInt64) (kind : RecordKind) (message : Bytes) :
    Except SendError (List PlainRecord) :=
  if message.length ≤ maxRecordPlaintext then .ok [⟨kind, message⟩]
  else fragmentRecords RecordKind.configFragment (fragmentConfigMessage kind messageID message)

/-- The records of a message. The number is drawn for a message that has to be cut. -/
def Message.records (messageID : UInt64) : Message → Except SendError (List PlainRecord)
  | .record kind plaintext =>
    if RecordKind.dataMessage kind = false ∨ kind = RecordKind.fragment ∨
        kind = RecordKind.configFragment ∨ kind = RecordKind.service ∨
        RecordKind.configMessage kind = true ∨ maxRecordPlaintext < plaintext.length then
      .error .controlRecord
    else .ok [⟨kind, plaintext⟩]
  | .frame content =>
    if maxFrameSize < content.length then .error .terminalFrame
    else frameRecords messageID content
  | .service payload =>
    if decodeServiceMessage payload = none then .error .serviceMessage
    else .ok [⟨RecordKind.service, payload⟩]
  | .config kind message =>
    if RecordKind.configMessage kind = false ∨ maxConfigMessageSize < message.length then
      .error .configMessage
    else configRecords messageID kind message

inductive WSSPriority where
  | control
  | terminal
  | service
  | config
deriving DecidableEq, Repr

/-- A client's frames are input and go with the control records. -/
def Message.priority (role : Role) : Message → WSSPriority
  | .record .. => .control
  | .frame _ =>
    match role with
    | .client => .control
    | .host => .terminal
  | .service _ => .service
  | .config .. => .config

/-- The callback that a message is handed to. -/
inductive Delivery where
  | record (kind : RecordKind) (plaintext : Bytes)
  | config (kind : RecordKind) (message : Bytes)
deriving DecidableEq, Repr

def Message.delivery : Message → Delivery
  | .record kind plaintext => .record kind plaintext
  | .frame content => .record RecordKind.frame content
  | .service payload => .record RecordKind.service payload
  | .config kind message => .config kind message

/-! ### What a record does -/

structure WSSReceiver where
  reassembler : Option (Assembly UInt64)
  configAssembler : Option (Assembly (RecordKind × UInt64))

namespace WSSReceiver

def new : WSSReceiver := ⟨none, none⟩

/-- `OnConfigMessage` for the config kinds, `OnRecord` for the others. -/
def hand (kind : RecordKind) (plaintext : Bytes) : Delivery :=
  if RecordKind.configMessage kind then .config kind plaintext else .record kind plaintext

def receive (r : WSSReceiver) (record : PlainRecord) (now : ℤ) :
    Except FragmentError (Option Delivery) × WSSReceiver :=
  if record.kind = RecordKind.fragment then
    let (result, assembly) := terminalFormat.add r.reassembler record.payload now
    (result.map fun frame => frame.map (hand RecordKind.frame), { r with reassembler := assembly })
  else if record.kind = RecordKind.configFragment then
    let (result, assembly) := configFormat.add r.configAssembler record.payload now
    (result.map fun message => message.map fun message => hand message.1 message.2,
      { r with configAssembler := assembly })
  else (.ok (some (hand record.kind record.payload)), r)

/-- The message that the record continues has taken too long. -/
def late (r : WSSReceiver) (record : PlainRecord) (now : ℤ) : Bool :=
  if record.kind = RecordKind.fragment then terminalFormat.expired r.reassembler now
  else if record.kind = RecordKind.configFragment then configFormat.expired r.configAssembler now
  else false

end WSSReceiver

/-! ### The shapes of a message -/

/-- A message that passes its checks, with its records. -/
structure Submission where
  message : Message
  messageID : UInt64
  records : List PlainRecord
  encoded : message.records messageID = .ok records

namespace Submission

/-- The assembler that the records of a message go through. -/
def channel (submission : Submission) : Option Channel :=
  match submission.records with
  | ⟨kind, _⟩ :: _ =>
    if kind = RecordKind.fragment then some .terminal
    else if kind = RecordKind.configFragment then some .config
    else none
  | [] => none

/-- A message that fits one record. -/
def Whole (submission : Submission) : Prop :=
  ∃ kind payload, submission.records = [⟨kind, payload⟩] ∧ kind ≠ RecordKind.fragment ∧
    kind ≠ RecordKind.configFragment ∧
    WSSReceiver.hand kind payload = submission.message.delivery

def CutFrame (submission : Submission) (frame : Bytes) : Prop :=
  submission.message = .frame frame ∧ maxRecordPlaintext < frame.length ∧
    frame.length ≤ maxFrameSize ∧ submission.records =
      ((pieces fragmentDataSize submission.messageID frame).map terminalFragment).map
        (⟨RecordKind.fragment, ·⟩)

def CutConfig (submission : Submission) (kind : RecordKind) (message : Bytes) : Prop :=
  submission.message = .config kind message ∧ RecordKind.configMessage kind = true ∧
    maxRecordPlaintext < message.length ∧ message.length ≤ maxConfigMessageSize ∧
    submission.records =
      ((pieces configFragmentDataSize (kind, submission.messageID) message).map configFragment).map
        (⟨RecordKind.configFragment, ·⟩)

theorem fragmentRecords_ok_iff {kind : RecordKind} {fragments : Except FragmentError (List Bytes)}
    {records : List PlainRecord} : fragmentRecords kind fragments = .ok records ↔
      ∃ payloads, fragments = .ok payloads ∧ payloads.map (⟨kind, ·⟩) = records := by
  cases fragments with
  | ok payloads => simp [fragmentRecords]
  | error error => simp [fragmentRecords]

/-- **A message is sent whole or in pieces.** -/
theorem whole_or_cut (submission : Submission) : submission.Whole ∨
    (∃ frame, submission.CutFrame frame) ∨ ∃ kind message, submission.CutConfig kind message := by
  obtain ⟨message, messageID, records, encoded⟩ := submission
  cases message with
  | record kind plaintext =>
    simp only [Message.records] at encoded
    split_ifs at encoded with invalid
    push Not at invalid
    refine Or.inl ⟨kind, plaintext, (Except.ok.inj encoded).symm, invalid.2.1, invalid.2.2.1, ?_⟩
    exact if_neg invalid.2.2.2.2.1
  | service payload =>
    simp only [Message.records] at encoded
    split_ifs at encoded
    exact Or.inl ⟨RecordKind.service, payload, (Except.ok.inj encoded).symm, by decide, by decide,
      rfl⟩
  | frame frame =>
    simp only [Message.records, frameRecords] at encoded
    split_ifs at encoded with huge small
    · exact Or.inl ⟨RecordKind.frame, frame, (Except.ok.inj encoded).symm, by decide, by decide, rfl⟩
    · obtain ⟨payloads, cut, rfl⟩ := fragmentRecords_ok_iff.mp encoded
      obtain ⟨large, bounded, rfl⟩ := fragmentFrame_ok_iff.mp cut
      exact Or.inr (Or.inl ⟨frame, rfl, large, bounded, rfl⟩)
  | config kind message =>
    simp only [Message.records, configRecords] at encoded
    split_ifs at encoded with invalid small
    · push Not at invalid
      have configMessage : RecordKind.configMessage kind = true := by simpa using invalid.1
      refine Or.inl ⟨kind, message, (Except.ok.inj encoded).symm, ?_, ?_, if_pos configMessage⟩
      · rintro rfl
        exact absurd configMessage (by decide)
      · rintro rfl
        exact absurd configMessage (by decide)
    · obtain ⟨payloads, cut, rfl⟩ := fragmentRecords_ok_iff.mp encoded
      obtain ⟨configMessage, large, bounded, rfl⟩ := fragmentConfigMessage_ok_iff.mp cut
      exact Or.inr (Or.inr ⟨kind, message, rfl, configMessage, large, bounded, rfl⟩)

/-- **Every record of a message can be sealed**: its kind is known, and it is not too long. -/
theorem sealable (submission : Submission) {record : PlainRecord} (listed : record ∈ submission.records) :
    RecordKind.valid record.kind = true ∧ record.payload.length ≤ maxRecordPlaintext := by
  obtain ⟨message, messageID, records, encoded⟩ := submission
  cases message with
  | record kind plaintext =>
    simp only [Message.records] at encoded
    split_ifs at encoded with invalid
    push Not at invalid
    cases encoded
    cases List.mem_singleton.mp listed
    exact ⟨RecordKind.valid_of_dataMessage (by simpa using invalid.1), invalid.2.2.2.2.2⟩
  | service payload =>
    simp only [Message.records] at encoded
    split_ifs at encoded with invalid
    cases encoded
    cases List.mem_singleton.mp listed
    refine ⟨rfl, ?_⟩
    by_contra long
    exact invalid (if_pos (.inr (not_le.mp long)))
  | frame frame =>
    simp only [Message.records, frameRecords] at encoded
    split_ifs at encoded with huge small
    · cases encoded
      cases List.mem_singleton.mp listed
      exact ⟨rfl, small⟩
    · obtain ⟨fragments, cut, rfl⟩ := fragmentRecords_ok_iff.mp encoded
      obtain ⟨fragment, inside, rfl⟩ := List.mem_map.mp listed
      exact ⟨rfl, (terminal_roundTrips cut).small fragment inside⟩
  | config kind message =>
    simp only [Message.records, configRecords] at encoded
    split_ifs at encoded with invalid small
    · push Not at invalid
      cases encoded
      cases List.mem_singleton.mp listed
      refine ⟨RecordKind.valid_of_dataMessage ?_, small⟩
      exact RecordKind.dataMessage_of_configMessage (by simpa using invalid.1)
    · obtain ⟨fragments, cut, rfl⟩ := fragmentRecords_ok_iff.mp encoded
      obtain ⟨fragment, inside, rfl⟩ := List.mem_map.mp listed
      exact ⟨rfl, (config_roundTrips cut).small fragment inside⟩

variable {submission : Submission}

theorem channel_of_records {record : PlainRecord} {rest : List PlainRecord}
    (records : submission.records = record :: rest) : submission.channel =
      if record.kind = RecordKind.fragment then some .terminal
      else if record.kind = RecordKind.configFragment then some .config
      else none := by
  unfold channel
  rw [records]

theorem Whole.channel (whole : submission.Whole) : submission.channel = none := by
  obtain ⟨kind, payload, records, frame, config, _⟩ := whole
  rw [channel_of_records records, if_neg frame, if_neg config]

theorem CutFrame.getElem? {frame : Bytes} (cut : submission.CutFrame frame) (index : ℕ) :
    submission.records[index]? = if index * fragmentDataSize < frame.length then
      some ⟨RecordKind.fragment,
        terminalFragment (pieceAt fragmentDataSize submission.messageID frame index)⟩
      else none := by
  rw [cut.2.2.2, List.getElem?_map, List.getElem?_map, getElem?_pieces (by decide)]
  split_ifs <;> rfl

theorem CutConfig.getElem? {kind : RecordKind} {message : Bytes}
    (cut : submission.CutConfig kind message) (index : ℕ) :
    submission.records[index]? = if index * configFragmentDataSize < message.length then
      some ⟨RecordKind.configFragment,
        configFragment (pieceAt configFragmentDataSize (kind, submission.messageID) message index)⟩
      else none := by
  rw [cut.2.2.2.2, List.getElem?_map, List.getElem?_map, getElem?_pieces (by decide)]
  split_ifs <;> rfl

theorem CutFrame.lt_length {frame : Bytes} (cut : submission.CutFrame frame) (index : ℕ) :
    index < submission.records.length ↔ index * fragmentDataSize < frame.length := by
  rw [cut.2.2.2, List.length_map, List.length_map]
  exact lt_length_pieces (by decide) index

theorem CutConfig.lt_length {kind : RecordKind} {message : Bytes}
    (cut : submission.CutConfig kind message) (index : ℕ) :
    index < submission.records.length ↔ index * configFragmentDataSize < message.length := by
  rw [cut.2.2.2.2, List.length_map, List.length_map]
  exact lt_length_pieces (by decide) index

theorem exists_of_head {record : PlainRecord} (head : submission.records[0]? = some record) :
    ∃ rest, submission.records = record :: rest := by
  cases records : submission.records with
  | nil =>
    rw [records] at head
    cases head
  | cons first rest =>
    rw [records] at head
    exact ⟨rest, by rw [Option.some.inj head]⟩

theorem CutFrame.channel {frame : Bytes} (cut : submission.CutFrame frame) :
    submission.channel = some .terminal := by
  have nonempty : 0 * fragmentDataSize < frame.length := by
    rw [Nat.zero_mul]
    exact (Nat.zero_le _).trans_lt cut.2.1
  have head := cut.getElem? 0
  rw [if_pos nonempty] at head
  obtain ⟨rest, records⟩ := exists_of_head head
  rw [channel_of_records records, if_pos rfl]

theorem CutConfig.channel {kind : RecordKind} {message : Bytes}
    (cut : submission.CutConfig kind message) : submission.channel = some .config := by
  have nonempty : 0 * configFragmentDataSize < message.length := by
    rw [Nat.zero_mul]
    exact (Nat.zero_le _).trans_lt cut.2.2.1
  have head := cut.getElem? 0
  rw [if_pos nonempty] at head
  obtain ⟨rest, records⟩ := exists_of_head head
  have other : RecordKind.configFragment ≠ RecordKind.fragment := by decide
  rw [channel_of_records records, if_neg other, if_pos rfl]

theorem length_records_pos (submission : Submission) : 0 < submission.records.length := by
  rcases submission.whole_or_cut with whole | ⟨frame, cut⟩ | ⟨kind, message, cut⟩
  · obtain ⟨kind, payload, records, _⟩ := whole
    rw [records]
    exact Nat.one_pos
  · rw [cut.lt_length, Nat.zero_mul]
    exact (Nat.zero_le _).trans_lt cut.2.1
  · rw [cut.lt_length, Nat.zero_mul]
    exact (Nat.zero_le _).trans_lt cut.2.2.1

theorem dataMessage_of_mem (submission : Submission) {record : PlainRecord}
    (inside : record ∈ submission.records) : RecordKind.dataMessage record.kind = true := by
  obtain ⟨message, messageID, records, encoded⟩ := submission
  have cut : ∀ {kind : RecordKind} {payloads : List Bytes}, RecordKind.dataMessage kind = true →
      record ∈ payloads.map (PlainRecord.mk kind) → RecordKind.dataMessage record.kind = true := by
    intro kind payloads data member
    obtain ⟨payload, _, rfl⟩ := List.mem_map.mp member
    exact data
  cases message with
  | record kind plaintext =>
    simp only [Message.records] at encoded
    split_ifs at encoded with invalid
    obtain rfl := Except.ok.inj encoded
    obtain rfl := List.mem_singleton.mp inside
    push Not at invalid
    exact Bool.eq_true_of_not_eq_false invalid.1
  | service payload =>
    simp only [Message.records] at encoded
    split_ifs at encoded
    obtain rfl := Except.ok.inj encoded
    obtain rfl := List.mem_singleton.mp inside
    rfl
  | frame frame =>
    simp only [Message.records, frameRecords] at encoded
    split_ifs at encoded with huge small
    · obtain rfl := Except.ok.inj encoded
      obtain rfl := List.mem_singleton.mp inside
      rfl
    · obtain ⟨payloads, _, rfl⟩ := fragmentRecords_ok_iff.mp encoded
      exact cut (by decide) inside
  | config kind message =>
    simp only [Message.records, configRecords] at encoded
    split_ifs at encoded with invalid small
    · obtain rfl := Except.ok.inj encoded
      obtain rfl := List.mem_singleton.mp inside
      push Not at invalid
      exact RecordKind.dataMessage_of_configMessage (Bool.eq_true_of_not_eq_false invalid.1)
    · obtain ⟨payloads, _, rfl⟩ := fragmentRecords_ok_iff.mp encoded
      exact cut (by decide) inside

theorem CutFrame.unique {frame other : Bytes} (cut : submission.CutFrame frame)
    (too : submission.CutFrame other) : other = frame :=
  Message.frame.inj (too.1.symm.trans cut.1)

theorem CutConfig.unique {kind kind' : RecordKind} {message message' : Bytes}
    (cut : submission.CutConfig kind message) (too : submission.CutConfig kind' message') :
    kind' = kind ∧ message' = message := Message.config.inj (too.1.symm.trans cut.1)

theorem CutFrame.reads {frame : Bytes} (cut : submission.CutFrame frame) {index : ℕ}
    (inside : index * fragmentDataSize < frame.length) :
    terminalFormat.parse
        (terminalFragment (pieceAt fragmentDataSize submission.messageID frame index)) =
      .ok (pieceAt fragmentDataSize submission.messageID frame index) := by
  obtain ⟨_, large, bounded, _⟩ := cut
  have length : (pieceAt fragmentDataSize submission.messageID frame index).chunk.length =
      min frame.length (index * fragmentDataSize + fragmentDataSize) - index * fragmentDataSize :=
    length_chunk (min_le_left _ _)
  have positive : 0 < fragmentDataSize := by decide
  rw [terminalFormat_parse]
  refine terminalPiece_terminalFragment (by omega) (by omega) large bounded ?_
  show index * fragmentDataSize + _ ≤ frame.length
  omega

theorem CutConfig.reads {kind : RecordKind} {message : Bytes}
    (cut : submission.CutConfig kind message) {index : ℕ}
    (inside : index * configFragmentDataSize < message.length) :
    configFormat.parse (configFragment
        (pieceAt configFragmentDataSize (kind, submission.messageID) message index)) =
      .ok (pieceAt configFragmentDataSize (kind, submission.messageID) message index) := by
  obtain ⟨_, configMessage, large, bounded, _⟩ := cut
  have length : (pieceAt configFragmentDataSize (kind, submission.messageID) message
      index).chunk.length = min message.length
        (index * configFragmentDataSize + configFragmentDataSize) - index * configFragmentDataSize :=
    length_chunk (min_le_left _ _)
  have positive : 0 < configFragmentDataSize := by decide
  rw [configFormat_parse]
  refine configPiece_configFragment configMessage (by omega) (by omega) large bounded ?_
  show index * configFragmentDataSize + _ ≤ message.length
  omega

end Submission

/-! ### The receiver, part by part -/

structure Call extends Submission where
  id : ℕ

def wssCutting : Cutting Call Channel := ⟨fun call => call.channel, fun call => call.records.length⟩

namespace WSSReceiver

def HoldsFrame (r : WSSReceiver) (part : Portion Call) : Prop :=
  ∃ frame, part.item.CutFrame frame ∧ 0 < part.index ∧
    Held fragmentDataSize part.item.messageID frame part.index r.reassembler

/-- The config message that is put together, up to the part. -/
def HoldsConfig (r : WSSReceiver) (part : Portion Call) : Prop :=
  ∃ kind message, part.item.CutConfig kind message ∧ 0 < part.index ∧
    Held configFragmentDataSize (kind, part.item.messageID) message part.index
      r.configAssembler

/-- The receiver is where its channels expect the next parts. -/
structure Expects (r : WSSReceiver) (expected : Channel → Option (Portion Call)) : Prop where
  frame : r.reassembler = none ∧ expected .terminal = none ∨
    ∃ part, expected .terminal = some part ∧ r.HoldsFrame part
  config : r.configAssembler = none ∧ expected .config = none ∨
    ∃ part, expected .config = some part ∧ r.HoldsConfig part

theorem expects_new : new.Expects fun _ => none := ⟨Or.inl ⟨rfl, rfl⟩, Or.inl ⟨rfl, rfl⟩⟩

variable {r : WSSReceiver} {expected : Channel → Option (Portion Call)} {part : Portion Call}
  {record : PlainRecord} {now : ℤ}

theorem receive_whole (frame : record.kind ≠ RecordKind.fragment)
    (config : record.kind ≠ RecordKind.configFragment) :
    r.receive record now = (.ok (some (hand record.kind record.payload)), r) := by
  rw [receive, if_neg frame, if_neg config]

theorem receive_fragment (frame : record.kind = RecordKind.fragment) :
    r.receive record now =
      ((terminalFormat.add r.reassembler record.payload now).1.map fun frame =>
          frame.map (hand RecordKind.frame),
        { r with reassembler := (terminalFormat.add r.reassembler record.payload now).2 }) := by
  rw [receive, if_pos frame]

theorem receive_configFragment (config : record.kind = RecordKind.configFragment) :
    r.receive record now =
      ((configFormat.add r.configAssembler record.payload now).1.map fun message =>
          message.map fun message => hand message.1 message.2,
        { r with configAssembler := (configFormat.add r.configAssembler record.payload now).2 }) := by
  have other : record.kind ≠ RecordKind.fragment := by
    rw [config]
    decide
  rw [receive, if_neg other, if_pos config]

theorem receive_frame {frame : Bytes} (cut : part.item.CutFrame frame) (expects : r.Expects expected)
    (fits : wssCutting.Fits expected part) (inside : part.index < part.item.records.length)
    (recorded : part.item.records[part.index]? = some record) (timely : r.late record now = false) :
    ∃ after, r.receive record now =
        (.ok ((wssCutting.finished part).map fun call => call.message.delivery), after) ∧
      after.Expects (wssCutting.follow expected part) := by
  have channel : wssCutting.channel part.item = some .terminal := cut.channel
  have within := (cut.lt_length part.index).mp inside
  have payload := recorded
  rw [cut.getElem?, if_pos within] at payload
  obtain rfl := Option.some.inj payload
  have held : Held fragmentDataSize part.item.messageID frame part.index
      r.reassembler := by
    have next := fits .terminal channel
    by_cases first : part.index = 0
    · rw [if_pos first] at next
      rcases expects.frame with ⟨idle, _⟩ | ⟨other, occupied, _⟩
      · rw [Held, if_pos first]
        exact idle
      · rw [next] at occupied
        cases occupied
    · rw [if_neg first] at next
      rcases expects.frame with ⟨_, free⟩ | ⟨other, occupied, own, cut', _, held⟩
      · rw [next] at free
        cases free
      · rw [next] at occupied
        obtain rfl := Option.some.inj occupied
        exact cut.unique cut' ▸ held
  have added := FragmentFormat.add_held held timely within (cut.reads within)
  have config : (wssCutting.follow expected part) .config = expected .config :=
    Cutting.follow_of_ne (by rw [channel]; decide) expected
  have progress := Cutting.follow_self channel expected
  rw [receive_fragment rfl]
  have count : (part.index + 1 < part.item.records.length) ↔
      (part.index + 1) * fragmentDataSize < frame.length := cut.lt_length _
  by_cases more : (part.index + 1) * fragmentDataSize < frame.length
  · rw [if_pos more] at added
    obtain ⟨after, added, holds⟩ := added
    have unfinished : wssCutting.finished part = none := if_neg (count.mpr more).ne
    rw [added, unfinished]
    refine ⟨_, rfl, Or.inr ⟨_, progress.trans (if_pos (count.mpr more)), frame, cut, Nat.succ_pos _,
      holds⟩, ?_⟩
    rw [config]
    exact expects.config
  · rw [if_neg more] at added
    have last : part.index + 1 = part.item.records.length := by
      have bound := mt count.mp more
      omega
    have finished : wssCutting.finished part = some part.item := if_pos last
    rw [added, finished]
    refine ⟨{ r with reassembler := none }, ?_,
      Or.inl ⟨rfl, progress.trans (if_neg (mt count.mp more))⟩, ?_⟩
    · rw [Option.map_some, cut.1]
      rfl
    · rw [config]
      exact expects.config

theorem receive_config {kind : RecordKind} {message : Bytes} (cut : part.item.CutConfig kind message)
    (expects : r.Expects expected) (fits : wssCutting.Fits expected part)
    (inside : part.index < part.item.records.length)
    (recorded : part.item.records[part.index]? = some record) (timely : r.late record now = false) :
    ∃ after, r.receive record now =
        (.ok ((wssCutting.finished part).map fun call => call.message.delivery), after) ∧
      after.Expects (wssCutting.follow expected part) := by
  have channel : wssCutting.channel part.item = some .config := cut.channel
  have within := (cut.lt_length part.index).mp inside
  have payload := recorded
  rw [cut.getElem?, if_pos within] at payload
  obtain rfl := Option.some.inj payload
  have held : Held configFragmentDataSize (kind, part.item.messageID) message part.index
      r.configAssembler := by
    have next := fits .config channel
    by_cases first : part.index = 0
    · rw [if_pos first] at next
      rcases expects.config with ⟨idle, _⟩ | ⟨other, occupied, _⟩
      · rw [Held, if_pos first]
        exact idle
      · rw [next] at occupied
        cases occupied
    · rw [if_neg first] at next
      rcases expects.config with ⟨_, free⟩ | ⟨other, occupied, _, _, cut', _, held⟩
      · rw [next] at free
        cases free
      · rw [next] at occupied
        obtain rfl := Option.some.inj occupied
        obtain ⟨rfl, rfl⟩ := cut.unique cut'
        exact held
  have added := FragmentFormat.add_held held timely within (cut.reads within)
  have frame : (wssCutting.follow expected part) .terminal = expected .terminal :=
    Cutting.follow_of_ne (by rw [channel]; decide) expected
  have progress := Cutting.follow_self channel expected
  rw [receive_configFragment rfl]
  have count : (part.index + 1 < part.item.records.length) ↔
      (part.index + 1) * configFragmentDataSize < message.length := cut.lt_length _
  by_cases more : (part.index + 1) * configFragmentDataSize < message.length
  · rw [if_pos more] at added
    obtain ⟨after, added, holds⟩ := added
    have unfinished : wssCutting.finished part = none := if_neg (count.mpr more).ne
    rw [added, unfinished]
    refine ⟨_, rfl, ?_, Or.inr ⟨_, progress.trans (if_pos (count.mpr more)), kind, message, cut,
      Nat.succ_pos _, holds⟩⟩
    rw [frame]
    exact expects.frame
  · rw [if_neg more] at added
    have last : part.index + 1 = part.item.records.length := by
      have bound := mt count.mp more
      omega
    have finished : wssCutting.finished part = some part.item := if_pos last
    rw [added, finished]
    refine ⟨{ r with configAssembler := none }, ?_, ?_,
      Or.inl ⟨rfl, progress.trans (if_neg (mt count.mp more))⟩⟩
    · rw [Option.map_some, cut.1]
      show (Except.ok (some (hand kind message)), _) = _
      rw [hand, if_pos cut.2.1]
      rfl
    · rw [frame]
      exact expects.frame

/-- **A part that its channel expects** is taken in time, and the last one delivers the message. -/
theorem receive_fits (expects : r.Expects expected) (fits : wssCutting.Fits expected part)
    (inside : part.index < part.item.records.length)
    (recorded : part.item.records[part.index]? = some record) (timely : r.late record now = false) :
    ∃ after, r.receive record now =
        (.ok ((wssCutting.finished part).map fun call => call.message.delivery), after) ∧
      after.Expects (wssCutting.follow expected part) := by
  rcases part.item.whole_or_cut with whole | ⟨frame, cut⟩ | ⟨kind, message, cut⟩
  · have channel : wssCutting.channel part.item = none := whole.channel
    obtain ⟨kind, payload, records, frame, config, handed⟩ := whole
    rw [records] at inside recorded
    have first : part.index = 0 := Nat.lt_one_iff.mp inside
    rw [first] at recorded
    obtain rfl := Option.some.inj recorded
    have last : part.index + 1 = part.item.records.length := by
      rw [records, first]
      rfl
    have finished : wssCutting.finished part = some part.item := if_pos last
    refine ⟨r, ?_, ?_⟩
    · rw [receive_whole frame config, finished, Option.map_some, ← handed]
    · rw [Cutting.follow_of_none channel]
      exact expects
  · exact receive_frame cut expects fits inside recorded timely
  · exact receive_config cut expects fits inside recorded timely

/-- **A part of another message than the expected one** is refused. -/
theorem receive_clash (expects : r.Expects expected) {c : Channel} {other : Portion Call}
    (channel : wssCutting.channel part.item = some c) (first : part.index = 0)
    (occupied : expected c = some other)
    (recorded : part.item.records[part.index]? = some record) :
    ∃ e, (r.receive record now).1 = .error e := by
  rw [first] at recorded
  rcases part.item.whole_or_cut with whole | ⟨frame, cut⟩ | ⟨kind, message, cut⟩
  · exact absurd (whole.channel.symm.trans channel) (by simp)
  · obtain rfl := Option.some.inj (cut.channel.symm.trans channel)
    have inside := (cut.lt_length 0).mp part.item.length_records_pos
    rw [cut.getElem?, if_pos inside] at recorded
    obtain rfl := Option.some.inj recorded
    rcases expects.frame with ⟨_, free⟩ | ⟨held, expected', own, cut', begun, holds⟩
    · rw [occupied] at free
      cases free
    · obtain ⟨e, refused⟩ := FragmentFormat.add_clash (by decide) begun holds (cut.reads inside)
      refine ⟨e, ?_⟩
      rw [receive_fragment rfl]
      dsimp only
      rw [refused]
      rfl
  · obtain rfl := Option.some.inj (cut.channel.symm.trans channel)
    have inside := (cut.lt_length 0).mp part.item.length_records_pos
    rw [cut.getElem?, if_pos inside] at recorded
    obtain rfl := Option.some.inj recorded
    rcases expects.config with ⟨_, free⟩ | ⟨held, expected', own, text, cut', begun, holds⟩
    · rw [occupied] at free
      cases free
    · obtain ⟨e, refused⟩ := FragmentFormat.add_clash (by decide) begun holds (cut.reads inside)
      refine ⟨e, ?_⟩
      rw [receive_configFragment rfl]
      dsimp only
      rw [refused]
      rfl

/-- **A fragment that comes too late** is refused. -/
theorem receive_late (late : r.late record now = true) :
    ∃ e, (r.receive record now).1 = .error e := by
  unfold WSSReceiver.late at late
  split_ifs at late with frame config
  · refine ⟨terminalFormat.late, ?_⟩
    rw [receive_fragment frame, FragmentFormat.add_expired late]
    rfl
  · refine ⟨configFormat.late, ?_⟩
    rw [receive_configFragment config, FragmentFormat.add_expired late]
    rfl

end WSSReceiver

end Atterm.Transport
