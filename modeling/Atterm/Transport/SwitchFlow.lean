/-
**What is on its way between the ends of a signal channel.**

The signals that an end has sent and the other has not read yet, in order, the first of them perhaps
partly read, and behind them the records of the fallback.

* `Flow` — what one direction keeps;
* `Flow.send`, `Flow.write` — the sender writes a signal, or records of the fallback;
* `Flow.collects`, `Flow.receives` — the reader reads a record of a signal, or one of the fallback.
-/

import Atterm.Transport.SignalSwitch

namespace Atterm.Transport

open Atterm.Foundation
open Atterm.Foundation.FragmentFormat (Held)

/-! ### Signals on their way -/

/-- The records of the signals, of which some of the first were read. -/
def Arriving (fragments : Option (Assembly UInt64)) : List Transmission → List PlainRecord → Prop
  | [], records => fragments = none ∧ records = []
  | t :: rest, records => ∃ index < t.records.length,
      records = t.records.drop index ++ rest.flatMap Transmission.records ∧
      Held signalFragmentDataSize t.messageID t.payload index fragments

theorem held_none {messageID : UInt64} {payload : Bytes} :
    Held signalFragmentDataSize messageID payload 0 none := by
  rw [Held, if_pos rfl]

variable {fragments : Option (Assembly UInt64)} {sent : List Transmission}
  {records : List PlainRecord}

theorem Arriving.concat (arriving : Arriving fragments sent records) (t : Transmission) :
    Arriving fragments (sent ++ [t]) (records ++ t.records) := by
  cases sent with
  | nil =>
    obtain ⟨rfl, rfl⟩ := arriving
    exact ⟨0, t.length_records_pos, by simp, held_none⟩
  | cons first rest =>
    obtain ⟨index, inside, rfl, held⟩ := arriving
    refine ⟨index, inside, ?_, held⟩
    show _ = first.records.drop index ++ (rest ++ [t]).flatMap Transmission.records
    rw [List.flatMap_append, List.append_assoc, List.flatMap_singleton]

theorem arriving_next (rest : List Transmission) :
    Arriving none rest (rest.flatMap Transmission.records) := by
  cases rest with
  | nil => exact ⟨rfl, rfl⟩
  | cons t rest => exact ⟨0, t.length_records_pos, by simp, held_none⟩

theorem Arriving.eq_nil (arriving : Arriving fragments sent []) : sent = [] := by
  cases sent with
  | nil => rfl
  | cons t rest =>
    obtain ⟨index, inside, empty, _⟩ := arriving
    have left := (List.append_eq_nil_iff.mp empty.symm).1
    rw [List.drop_eq_nil_iff] at left
    exact absurd inside left.not_gt

def Admits (role : Role) : DirectionState → List Transmission → DirectionState → Prop
  | state, [], last => last = state
  | state, t :: rest, last =>
    ∃ next, state.accept t.signal role = .ok next ∧ Admits role next rest last

theorem Admits.concat {role : Role} {state last next : DirectionState}
    (admits : Admits role state sent last) {t : Transmission}
    (accepted : last.accept t.signal role = .ok next) : Admits role state (sent ++ [t]) next := by
  induction sent generalizing state with
  | nil =>
    obtain rfl := admits
    exact ⟨next, accepted, rfl⟩
  | cons first rest ih =>
    obtain ⟨middle, head, tail⟩ := admits
    exact ⟨middle, head, ih tail⟩

/-! ### One direction -/

/-- The fallback's records of one direction. -/
def traffic (sender reader : SignalEnd) : WSSWorld where
  writer := sender.writer
  read := reader.received
  receiver := reader.receiver
  delivered := reader.delivered
  rejection := none

def unreadParts (sender reader : SignalEnd) : List PlainRecord :=
  (sender.writer.written.drop reader.received).filterMap partRecord

/-- What the direction to an end keeps, with the signals on their way. -/
structure Flow (decode : Bytes → Option Signal) (role : Role) (reader sender : SignalEnd)
    (wire : List PlainRecord) (sent : List Transmission) : Prop where
  wire : ∃ records, wire = records ++ unreadParts sender reader ∧
    Arriving reader.fragments sent records
  bounded : ∀ t ∈ sent, t.payload.length ≤ maxSignalMessageSize
  decoded : ∀ t ∈ sent, decode t.payload = some t.signal
  admitted : ∃ last, Admits role.peer reader.receiveState sent last ∧ last.Within sender.sendState
  fallback : (traffic sender reader).Sound role.peer
  idle : sender.fallbackActive = false → sender.writer.written = []

variable {decode : Bytes → Option Signal} {role : Role} {reader sender : SignalEnd}
  {wire : List PlainRecord}

theorem flow_new (decode : Bytes → Option Signal) (role : Role) : Flow decode role .new .new [] [] where
  wire := ⟨[], rfl, rfl, rfl⟩
  bounded := fun _ inside => absurd inside List.not_mem_nil
  decoded := fun _ inside => absurd inside List.not_mem_nil
  admitted := ⟨.new, rfl, .refl _⟩
  fallback := WSSWorld.sound_start
  idle := fun _ => rfl

namespace Flow

theorem unread_idle (flow : Flow decode role reader sender wire sent)
    (idle : sender.fallbackActive = false) : unreadParts sender reader = [] := by
  rw [unreadParts, flow.idle idle, List.drop_nil]
  rfl

theorem sent_eq_nil (flow : Flow decode role reader sender [] sent) : sent = [] := by
  obtain ⟨records, empty, arriving⟩ := flow.wire
  obtain ⟨rfl, _⟩ := List.append_eq_nil_iff.mp empty.symm
  exact arriving.eq_nil

/-- **The sender writes a signal** that it admits itself. -/
theorem send (flow : Flow decode role reader sender wire sent)
    (idle : sender.fallbackActive = false) {t : Transmission} {sendState : DirectionState}
    (accepted : sender.sendState.accept t.signal role.peer = .ok sendState)
    (bounded : t.payload.length ≤ maxSignalMessageSize) (decoded : decode t.payload = some t.signal)
    {after : SignalEnd} (state : after.sendState = sendState) (writer : after.writer = sender.writer) :
    Flow decode role reader after (wire ++ t.records) (sent ++ [t]) := by
  obtain ⟨records, rfl, arriving⟩ := flow.wire
  obtain ⟨last, admits, within⟩ := flow.admitted
  obtain ⟨next, admitted, behind⟩ := DirectionState.accept_within within accepted
  have nothing := flow.unread_idle idle
  have still : unreadParts after reader = [] := by
    rw [unreadParts, writer]
    exact nothing
  refine ⟨⟨records ++ t.records, ?_, arriving.concat t⟩, ?_, ?_, ?_, ?_, ?_⟩
  · rw [nothing, still, List.append_nil, List.append_nil]
  · intro other inside
    rcases List.mem_append.mp inside with old | new
    · exact flow.bounded other old
    · rw [List.mem_singleton.mp new]
      exact bounded
  · intro other inside
    rcases List.mem_append.mp inside with old | new
    · exact flow.decoded other old
    · rw [List.mem_singleton.mp new]
      exact decoded
  · rw [state]
    exact ⟨next, admits.concat admitted, behind⟩
  · rw [traffic, writer]
    exact flow.fallback
  · intro _
    rw [writer]
    exact flow.idle idle

theorem sender_changes (flow : Flow decode role reader sender wire sent) {after : SignalEnd}
    (within : sender.sendState.Within after.sendState) (writer : after.writer = sender.writer)
    (idle : after.fallbackActive = false → sender.fallbackActive = false) :
    Flow decode role reader after wire sent := by
  obtain ⟨last, admits, behind⟩ := flow.admitted
  refine ⟨?_, flow.bounded, flow.decoded, ⟨last, admits, behind.trans within⟩, ?_, ?_⟩
  · rw [unreadParts, writer]
    exact flow.wire
  · rw [traffic, writer]
    exact flow.fallback
  · rw [writer]
    exact fun inactive => flow.idle (idle inactive)

/-- **The sender's writer takes a step.** -/
theorem write (flow : Flow decode role reader sender wire sent) {event : WriterEvent}
    (careful : (traffic sender reader).Careful (.writer event))
    (live : sender.fallbackActive = false →
      (sender.writer.step role.peer event).written = sender.writer.written) :
    Flow decode role reader { sender with writer := sender.writer.step role.peer event }
      (wire ++ ((sender.writer.step role.peer event).written.drop
        sender.writer.written.length).filterMap partRecord) sent := by
  obtain ⟨records, rfl, arriving⟩ := flow.wire
  have sound := WSSWorld.sound_step flow.fallback careful
  have read_le : reader.received ≤ sender.writer.written.length := flow.fallback.read_le
  refine ⟨⟨records, ?_, arriving⟩, flow.bounded, flow.decoded, flow.admitted, sound, ?_⟩
  · obtain ⟨more, written⟩ := WSSWriter.written_step role.peer sender.writer event
    rw [unreadParts, unreadParts, List.append_assoc, ← List.filterMap_append, ← written,
      List.drop_append_of_le_length read_le, List.drop_left]
  · exact fun idle => (live idle).trans (flow.idle idle)

/-- **The reader reads a record of a signal**: the next of the first, or its last. -/
theorem collects {t : Transmission} {rest : List Transmission}
    (flow : Flow decode role reader sender wire (t :: rest)) (now : ℤ) :
    ∃ record after, wire = record :: after ∧ (lateSignal reader.fragments record now = false →
      (∃ fragments, collect reader.fragments record now = (.ok none, fragments) ∧
        Flow decode role { reader with fragments := fragments } sender after (t :: rest)) ∨
      (collect reader.fragments record now = (.ok (some t.payload), none) ∧
        ∃ next, reader.receiveState.accept t.signal role.peer = .ok next ∧
          Flow decode role { reader with fragments := none, receiveState := next } sender after
            rest)) := by
  obtain ⟨records, rfl, index, inside, rfl, held⟩ := flow.wire
  have split : t.records.drop index = t.records[index] :: t.records.drop (index + 1) :=
    List.drop_eq_getElem_cons inside
  have behind : ∀ other ∈ rest, other ∈ t :: rest := fun other => List.mem_cons_of_mem t
  refine ⟨t.records[index], _, by rw [split]; rfl, fun timely => ?_⟩
  have collected := collect_held (flow.bounded t List.mem_cons_self) held
    (List.getElem?_eq_getElem inside) timely
  by_cases more : index + 1 < t.records.length
  · left
    rw [Transmission.records] at more
    rw [if_pos more] at collected
    obtain ⟨fragments, collected, held⟩ := collected
    refine ⟨fragments, collected, ⟨_, rfl, index + 1, more, rfl, held⟩, flow.bounded, flow.decoded,
      flow.admitted, flow.fallback, flow.idle⟩
  · right
    rw [Transmission.records] at more
    rw [if_neg more] at collected
    obtain ⟨last, ⟨next, accepted, admits⟩, within⟩ := flow.admitted
    have finished : t.records.drop (index + 1) = [] := List.drop_eq_nil_iff.mpr (not_lt.mp more)
    refine ⟨collected, next, accepted, ⟨_, rfl, ?_⟩, fun other inside =>
      flow.bounded other (behind other inside), fun other inside =>
      flow.decoded other (behind other inside), ⟨last, admits, within⟩, flow.fallback, flow.idle⟩
    rw [finished]
    exact arriving_next rest

/-- **The reader reads a record of the fallback.** -/
theorem receives {record : PlainRecord} {after : List PlainRecord}
    (flow : Flow decode role reader sender (record :: after) []) {now : ℤ}
    (timely : reader.receiver.late record now = false) :
    RecordKind.dataMessage record.kind = true ∧ ∃ delivery receiver,
      reader.receiver.receive record now = (.ok delivery, receiver) ∧
      Flow decode role
        { reader with
          received := reader.received + 1
          receiver := receiver
          delivered := reader.delivered ++ delivery.toList } sender after [] := by
  obtain ⟨records, wire, whole, rfl⟩ := flow.wire
  rw [List.nil_append, unreadParts] at wire
  have sound := flow.fallback
  have inside : reader.received < sender.writer.written.length := by
    by_contra beyond
    rw [List.drop_eq_nil_iff.mpr (not_lt.mp beyond)] at wire
    cases wire
  obtain ⟨part, next⟩ : ∃ part, sender.writer.written[reader.received]? = some part :=
    ⟨_, List.getElem?_eq_getElem inside⟩
  have member := List.mem_of_getElem? next
  obtain ⟨other, recorded⟩ : ∃ other, partRecord part = some other :=
    ⟨_, List.getElem?_eq_getElem (sound.inside part member)⟩
  have split : sender.writer.written.drop reader.received =
      part :: sender.writer.written.drop (reader.received + 1) := by
    rw [List.drop_eq_getElem_cons inside, (List.getElem?_eq_some_iff.mp next).2]
  rw [split, List.filterMap_cons_some recorded] at wire
  obtain ⟨rfl, rfl⟩ := List.cons.inj wire
  have unread : (traffic sender reader).unread = some record :=
    (congrArg (Option.bind · partRecord) next).trans recorded
  refine ⟨part.item.dataMessage_of_mem (List.mem_of_getElem? recorded), ?_⟩
  have careful : (traffic sender reader).Careful (.receive now) := by
    intro _ other same
    rw [unread] at same
    exact Option.some.inj same ▸ timely
  have kept : ((traffic sender reader).receive now).Sound role.peer :=
    WSSWorld.sound_step sound careful
  rcases received : reader.receiver.receive record now with ⟨result, receiver⟩
  cases result with
  | error error =>
    have moved : ((traffic sender reader).receive now).rejection = some error := by
      simp only [WSSWorld.receive, unread]
      simp only [traffic, received]
    rw [kept.accepted] at moved
    cases moved
  | ok delivery =>
    have moved : (traffic sender reader).receive now = { traffic sender reader with
        read := reader.received + 1
        receiver := receiver
        delivered := reader.delivered ++ delivery.toList } := by
      simp only [WSSWorld.receive, unread]
      simp only [traffic, received]
    rw [moved] at kept
    exact ⟨delivery, receiver, rfl, ⟨[], rfl, whole, rfl⟩, flow.bounded, flow.decoded,
      flow.admitted, kept, flow.idle⟩

end Flow

end Atterm.Transport
