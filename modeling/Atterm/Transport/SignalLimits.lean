/-
**What one end sends, the other end admits.**

Both ends check the version, the order and the size of the signals of a direction, the one before it
writes them and the other after it has read them back from their JSON. The reader may still have no use
for a signal: no handler for it, no fallback to switch to, or no request that it acknowledges.

* `decodeSignal`, `decodeSignal_encodeSignal` — the strict reader, and that it reads what is written;
* `SendCall`, `sendAll` — calls of `SendSignal` at one end, and the signals they put on the wire;
* `signals_admitted` — that none of them is refused for its size, its text or its place.
-/

import Atterm.Foundation.JsonWritten
import Atterm.Transport.SignalSwitch

namespace Atterm.Transport

open Atterm.Foundation

/-! ### The text of a signal -/

def SignalType.ofName (name : String) : SignalType :=
  if name = "offer" then .offer
  else if name = "answer" then .answer
  else if name = "ice_candidate" then .iceCandidate
  else if name = "ice_end" then .iceEnd
  else if name = "wss_fallback" then .wssFallback
  else if name = "wss_ready" then .wssReady
  else .other name

theorem SignalType.ofName_name {type : SignalType} (known : type.known = true) :
    SignalType.ofName type.name = type := by
  cases type with
  | other name => cases known
  | offer | answer | iceCandidate | iceEnd | wssFallback | wssReady => decide

def signalFields : List String := ["v", "type", "payload"]

def Signal.members (signal : Signal) : List (String × Json) :=
  [("v", .int signal.version.toInt), ("type", .str signal.type.name), ("payload", .str signal.payload)]

/-- `decodeStrictJSON` into a signal: no other field, and nothing behind the value. -/
def decodeSignal (payload : Bytes) : Option Signal :=
  match Json.read payload with
  | some .null => some ⟨0, SignalType.ofName "", ""⟩
  | some (.obj members) =>
    if knownFields signalFields members then do
      let version ← readField (decodeInt (-2 ^ 63) (2 ^ 63 - 1)) 0 "v" members
      let type ← readField decodeText "" "type" members
      let payload ← readField decodeText "" "payload" members
      return ⟨Int64.ofInt version, SignalType.ofName type, payload⟩
    else none
  | _ => none

theorem encodeSignal_eq (signal : Signal) : encodeSignal signal = (Json.obj signal.members).bytes := by
  have number : jsonInt signal.version = (Json.int signal.version.toInt).bytes :=
    (jsonInt_eq signal.version).symm
  have text (value : String) : jsonString value = (Json.str value).bytes := (jsonString_eq value).symm
  rw [encodeSignal, number, text, text]
  exact jsonObject_eq signal.members

theorem Signal.members_reads (signal : Signal) :
    Reads (decodeInt (-2 ^ 63) (2 ^ 63 - 1)) Json.int signal.version.toInt :=
  reads_int ⟨signal.version.le_toInt, signal.version.toInt_le⟩

theorem Signal.members_valid (signal : Signal) : (Json.obj signal.members).Valid := by
  rw [Json.Valid, membersValid_iff]
  refine List.forall_mem_cons.mpr ⟨signal.members_reads.valid, ?_⟩
  refine List.forall_mem_cons.mpr ⟨(reads_text _).valid, ?_⟩
  exact List.forall_mem_singleton.mpr (reads_text _).valid

/-- **A signal of a known type is read back.** -/
theorem decodeSignal_encodeSignal {signal : Signal} (known : signal.type.known = true) :
    decodeSignal (encodeSignal signal) = some signal := by
  have distinct : (signal.members.map fun member => foldName member.1).Nodup := by
    show (signalFields.map foldName).Nodup
    decide
  have version : readField (decodeInt (-2 ^ 63) (2 ^ 63 - 1)) 0 "v" signal.members =
      some signal.version.toInt := readField_of_mem distinct List.mem_cons_self signal.members_reads
  have type : readField decodeText "" "type" signal.members = some signal.type.name :=
    readField_of_mem distinct (List.mem_cons_of_mem _ List.mem_cons_self) (reads_text _)
  have payload : readField decodeText "" "payload" signal.members = some signal.payload :=
    readField_of_mem distinct (List.mem_cons_of_mem _ (List.mem_cons_of_mem _ List.mem_cons_self))
      (reads_text _)
  have fields : knownFields signalFields signal.members = true := knownFields_of_subset (by
    rw [signalFields, Signal.members]
    simp)
  rw [encodeSignal_eq, decodeSignal, Json.read_bytes _ signal.members_valid]
  dsimp only
  rw [if_pos fields, version, type, payload]
  show some (Signal.mk _ _ _) = some signal
  rw [SignalType.ofName_name known, Int64.ofInt_toInt]

/-! ### Sending and delivering -/

/-- A call of `SendSignal`: what the end is then, up to what its direction has admitted, and whether all
records of the signal are written. -/
structure SendCall where
  sender : SignalEnd
  signal : Signal
  written : Bool

def SendCall.run (role : Role) (call : SendCall) (s : DirectionState) :
    Except SendSignalError (List PlainRecord) × SignalEnd :=
  ({ call.sender with sendState := s } : SignalEnd).sendSignal role call.signal

def SendCall.sent (role : Role) (call : SendCall) (s : DirectionState) : Option Signal :=
  match (call.run role s).1 with
  | .ok _ => if call.written then some call.signal.versioned else none
  | .error _ => none

/-- The signals that calls put on the wire, one after the other. -/
def sendAll (role : Role) : DirectionState → List SendCall → List Signal
  | _, [] => []
  | s, call :: rest => (call.sent role s).toList ++ sendAll role (call.run role s).2.sendState rest

/-- A delivery: the signal, what the end is then, up to what its reader has admitted, and whether its
handler takes the signal. -/
structure SignalDelivery where
  signal : Signal
  receiver : SignalEnd
  handled : Bool

def SignalDelivery.run (role : Role) (delivery : SignalDelivery) (s : DirectionState) :
    Except ReadError SignalEnd :=
  SignalEnd.deliverSignal decodeSignal role { delivery.receiver with receiveState := s }
    (encodeSignal delivery.signal) delivery.handled

/-- The deliveries one after the other; the first that fails ends the reading. -/
def deliverAll (role : Role) : DirectionState → List SignalDelivery → Except ReadError DirectionState
  | s, [] => .ok s
  | s, delivery :: rest =>
    match delivery.run role s with
    | .error error => .error error
    | .ok after => deliverAll role after.receiveState rest

/-- The end has a use for the signal: a fallback to switch to when it is asked for one, a request of its
own when one is acknowledged, and else a handler that takes it. -/
def SignalDelivery.Prepared (delivery : SignalDelivery) : Prop :=
  if delivery.signal.type = .wssFallback then delivery.receiver.fallbackBound = true
  else if delivery.signal.type = .wssReady then
    delivery.receiver.sendState.fallback = true ∧
      (delivery.receiver.fallbackActive = true ∨ delivery.receiver.fallbackBound = true)
  else delivery.handled = true

variable {role : Role} {s t after : DirectionState}

theorem SendCall.sent_admitted {call : SendCall} {signal : Signal}
    (sent : call.sent role t = some signal) :
    t.accept signal role = .ok (call.run role t).2.sendState ∧
      (encodeSignal signal).length ≤ maxSignalMessageSize := by
  rw [SendCall.sent] at sent
  rcases SignalEnd.sendSignal_cases role { call.sender with sendState := t } call.signal with
    ⟨error, sendState, messageID, refused, -⟩ | ⟨transmission, sendState, messageID, written, -, -,
      same, small, accepted⟩
  · rw [SendCall.run, refused] at sent
    cases sent
  · rw [SendCall.run, written] at sent ⊢
    dsimp only at sent
    split_ifs at sent
    obtain rfl := Option.some.inj sent
    rw [← same]
    exact ⟨accepted, small⟩

theorem SendCall.within (call : SendCall) : t.Within (call.run role t).2.sendState := by
  rcases SignalEnd.sendSignal_cases role { call.sender with sendState := t } call.signal with
    ⟨error, sendState, messageID, refused, within, -⟩ | ⟨transmission, sendState, messageID, written,
      -, -, -, -, accepted⟩
  · rw [SendCall.run, refused]
    exact within
  · rw [SendCall.run, written]
    exact (DirectionState.admitted_of_accept accepted).within

/-- **A signal that the sender has admitted** is not refused by the reader, which has admitted less. -/
theorem SignalDelivery.run_cases {delivery : SignalDelivery} (within : s.Within t)
    (accepted : t.accept delivery.signal role = .ok after)
    (small : (encodeSignal delivery.signal).length ≤ maxSignalMessageSize) :
    (delivery.Prepared ∧ ∃ reader, delivery.run role.peer s = .ok reader ∧
      reader.receiveState.Within after) ∨
      ¬ delivery.Prepared ∧ ∃ error, delivery.run role.peer s = .error error ∧
        ∀ refusal, error ≠ .signal refusal := by
  obtain ⟨state, admitted, behind⟩ := DirectionState.accept_within within accepted
  have sized : ¬((encodeSignal delivery.signal).length = 0 ∨
      maxSignalMessageSize < (encodeSignal delivery.signal).length) :=
    not_or.mpr ⟨Nat.succ_ne_zero _, not_lt.mpr small⟩
  have known := DirectionState.known_of_accept accepted
  rw [SignalDelivery.run, SignalEnd.deliverSignal, if_neg sized, decodeSignal_encodeSignal known,
    Role.peer_peer]
  dsimp only
  rw [admitted]
  dsimp only
  rw [SignalDelivery.Prepared]
  by_cases request : delivery.signal.type = .wssFallback
  · rw [if_pos request, if_pos request]
    obtain ⟨rfl, -⟩ := (DirectionState.admitted_of_accept accepted).request request
    by_cases bound : delivery.receiver.fallbackBound = true
    · have fits : ¬(Role.peer .client ≠ .host ∨ delivery.receiver.fallbackBound = false) := by
        rw [bound]
        decide
      rw [if_neg fits]
      exact Or.inl ⟨bound, _, rfl, behind⟩
    · rw [if_pos (Or.inr (Bool.eq_false_of_not_eq_true bound))]
      exact Or.inr ⟨bound, .unsupported, rfl, fun _ => ReadError.noConfusion⟩
  · rw [if_neg request, if_neg request]
    by_cases ready : delivery.signal.type = .wssReady
    · rw [if_pos ready, if_pos ready]
      by_cases requested : delivery.receiver.sendState.fallback = true
      · rw [if_neg (by rw [requested]; decide), SignalEnd.activateWSSFallback]
        by_cases active : delivery.receiver.fallbackActive = true
        · rw [if_pos active]
          exact Or.inl ⟨⟨requested, Or.inl active⟩, _, rfl, behind⟩
        · rw [if_neg active]
          by_cases bound : delivery.receiver.fallbackBound = true
          · rw [if_neg (by rw [bound]; decide)]
            exact Or.inl ⟨⟨requested, Or.inr bound⟩, _, rfl, behind⟩
          · rw [if_pos (Bool.eq_false_of_not_eq_true bound)]
            refine Or.inr ⟨?_, .notPermitted, rfl, fun _ => ReadError.noConfusion⟩
            exact fun prepared => prepared.2.elim active bound
      · rw [if_pos (Bool.eq_false_of_not_eq_true requested)]
        refine Or.inr ⟨?_, .unsolicited, rfl, fun _ => ReadError.noConfusion⟩
        exact fun prepared => requested prepared.1
    · rw [if_neg ready, if_neg ready]
      by_cases handled : delivery.handled = true
      · rw [if_pos handled]
        exact Or.inl ⟨handled, _, rfl, behind⟩
      · rw [if_neg handled]
        exact Or.inr ⟨handled, .handler, rfl, fun _ => ReadError.noConfusion⟩

theorem deliverAll_cases {calls : List SendCall} {deliveries : List SignalDelivery}
    (within : s.Within t) (sent : deliveries.map SignalDelivery.signal = sendAll role t calls) :
    (∃ reader, deliverAll role.peer s deliveries = .ok reader) ∨
      (∃ delivery ∈ deliveries, ¬ delivery.Prepared) ∧ ∃ error,
        deliverAll role.peer s deliveries = .error error ∧ ∀ refusal, error ≠ .signal refusal := by
  induction calls generalizing s t deliveries with
  | nil =>
    obtain rfl := List.map_eq_nil_iff.mp sent
    exact Or.inl ⟨s, rfl⟩
  | cons call rest ih =>
    rw [sendAll] at sent
    cases wire : call.sent role t with
    | none =>
      rw [wire] at sent
      exact ih (within.trans call.within) sent
    | some signal =>
      rw [wire] at sent
      obtain ⟨delivery, later, rfl, rfl, sent'⟩ := List.map_eq_cons_iff.mp sent
      obtain ⟨accepted, small⟩ := SendCall.sent_admitted wire
      rw [deliverAll]
      rcases SignalDelivery.run_cases within accepted small with
        ⟨-, reader, delivers, behind⟩ | ⟨unprepared, error, fails, other⟩
      · rw [delivers]
        rcases ih behind sent' with goes | ⟨⟨late, among, unprepared⟩, fails⟩
        · exact Or.inl goes
        · exact Or.inr ⟨⟨late, List.mem_cons_of_mem _ among, unprepared⟩, fails⟩
      · rw [fails]
        exact Or.inr ⟨⟨delivery, List.mem_cons_self, unprepared⟩, error, rfl, other⟩

/-- A call on a closed channel, behind the switch or with a signal that is out of place. -/
def SendCall.OutOfPlace (role : Role) (call : SendCall) (s : DirectionState) : Prop :=
  call.sender.closed = true ∨ call.sender.fallbackActive = true ∨
    ∃ refusal, s.accept call.signal.versioned role = .error refusal

theorem sendSignal_outOfPlace {e : SignalEnd} {signal : Signal} (outOfPlace : e.closed = true ∨
    e.fallbackActive = true ∨ ∃ refusal, e.sendState.accept signal.versioned role = .error refusal) :
    ∃ error, e.sendSignal role signal = (.error error, e) := by
  rw [SignalEnd.sendSignal]
  by_cases closed : e.closed = true
  · rw [if_pos closed]
    exact ⟨_, rfl⟩
  · rw [if_neg closed]
    by_cases active : e.fallbackActive = true
    · rw [if_pos active]
      exact ⟨_, rfl⟩
    · rw [if_neg active]
      obtain ⟨refusal, refused⟩ := (outOfPlace.resolve_left closed).resolve_left active
      rw [refused]
      exact ⟨_, rfl⟩

/-- **What one end sends, the other end admits.** -/
theorem signals_admitted (role : Role) (calls : List SendCall) (deliveries : List SignalDelivery)
    (sent : deliveries.map SignalDelivery.signal = sendAll role .new calls) :
    (∀ error, deliverAll role.peer .new deliveries = .error error → ∀ refusal, error ≠ .signal refusal) ∧
    ((∀ delivery ∈ deliveries, delivery.Prepared) →
      ∃ reader, deliverAll role.peer .new deliveries = .ok reader) ∧
    ∀ (s : DirectionState) (call : SendCall), call.OutOfPlace role s →
      (∃ error, (call.run role s).1 = .error error) ∧ (call.run role s).2.sendState = s := by
  refine ⟨fun error fails => ?_, fun prepared => ?_, fun s call outOfPlace => ?_⟩
  · rcases deliverAll_cases (.refl .new) sent with ⟨reader, goes⟩ | ⟨-, other, fails', apart⟩
    · rw [fails] at goes
      cases goes
    · rw [fails] at fails'
      cases fails'
      exact apart
  · rcases deliverAll_cases (.refl .new) sent with goes | ⟨⟨delivery, among, unprepared⟩, -⟩
    · exact goes
    · exact absurd (prepared delivery among) unprepared
  · obtain ⟨error, refused⟩ := sendSignal_outOfPlace (e := { call.sender with sendState := s }) outOfPlace
    rw [SendCall.run, refused]
    exact ⟨⟨error, rfl⟩, rfl⟩

theorem SendCall.sent_of_small {call : SendCall} {signal : Signal} (opened : call.sender.closed = false)
    (inactive : call.sender.fallbackActive = false) (written : call.written = true)
    (versioned : call.signal.versioned = signal) (accepted : t.accept signal role = .ok after)
    (small : (encodeSignal signal).length ≤ maxRecordPlaintext) :
    call.sent role t = some signal ∧ (call.run role t).2.sendState = after := by
  have limit : maxRecordPlaintext ≤ maxSignalMessageSize := by decide
  have closed : ¬ ({ call.sender with sendState := t } : SignalEnd).closed = true :=
    Bool.eq_false_iff.mp opened
  have active : ¬ ({ call.sender with sendState := t } : SignalEnd).fallbackActive = true :=
    Bool.eq_false_iff.mp inactive
  have run : call.run role t = (.ok [⟨RecordKind.signal, encodeSignal signal⟩],
      { call.sender with sendState := after }) := by
    rw [SendCall.run, SignalEnd.sendSignal, if_neg closed, if_neg active, versioned, accepted]
    dsimp only
    rw [if_neg (small.trans limit).not_gt, if_pos small]
  rw [SendCall.sent, run]
  dsimp only
  rw [if_pos written, versioned]
  exact ⟨rfl, rfl⟩

theorem signals_admitted_offer : ∃ reader, deliverAll .host .new
    [⟨⟨signalVersion, .offer, "sdp"⟩, .new, true⟩] = .ok reader := by
  have call : SendCall.sent .client ⟨.new, ⟨0, .offer, "sdp"⟩, true⟩ .new =
      some ⟨signalVersion, .offer, "sdp"⟩ :=
    (SendCall.sent_of_small rfl rfl rfl rfl rfl (by decide)).1
  have sent : [(⟨⟨signalVersion, .offer, "sdp"⟩, .new, true⟩ : SignalDelivery)].map SignalDelivery.signal =
      sendAll .client .new [⟨.new, ⟨0, .offer, "sdp"⟩, true⟩] := by
    rw [sendAll, call]
    rfl
  refine (signals_admitted .client _ _ sent).2.1 fun delivery among => ?_
  obtain rfl := List.mem_singleton.mp among
  exact rfl

/-- A host that acknowledges what it was not asked for is refused by the client. -/
theorem ready_unsolicited : ¬ ∀ (role : Role) (calls : List SendCall) (deliveries : List SignalDelivery),
    deliveries.map SignalDelivery.signal = sendAll role .new calls →
      (∀ delivery ∈ deliveries, delivery.handled = true) →
        ∃ reader, deliverAll role.peer .new deliveries = .ok reader := by
  intro delivers
  have small : (encodeSignal readySignal).length ≤ maxRecordPlaintext :=
    SignalEnd.length_bare rfl rfl (Or.inr rfl)
  have versioned : readySignal.versioned = readySignal := by decide
  have accepted : DirectionState.new.accept readySignal .host =
      .ok { DirectionState.new with fallbackReady := true } := by decide
  have call : SendCall.sent .host ⟨.new, readySignal, true⟩ .new = some readySignal :=
    (SendCall.sent_of_small rfl rfl rfl versioned accepted small).1
  have sent : [(⟨readySignal, .new, true⟩ : SignalDelivery)].map SignalDelivery.signal =
      sendAll .host .new [⟨.new, readySignal, true⟩] := by
    rw [sendAll, call]
    rfl
  obtain ⟨reader, goes⟩ := delivers .host _ _ sent fun delivery among => by
    obtain rfl := List.mem_singleton.mp among
    rfl
  rcases @SignalDelivery.run_cases .host .new .new _ ⟨readySignal, .new, true⟩ (.refl .new) accepted
    (SendCall.sent_admitted call).2 with ⟨prepared, -⟩ | ⟨-, error, fails, -⟩
  · exact absurd prepared.1 (by decide)
  · rw [deliverAll, fails] at goes
    cases goes

end Atterm.Transport
