/-
**The messages of the service channel.**

A preview to another device goes through one channel of byte messages. Each message names its service
and one of the TCP connections of it, and carries octets where its kind is data.

* `encodeServiceMessage`, `decodeServiceMessage` — the codec;
* `ServiceMessage.Valid`, `ServiceMessage.write` — the messages that pass, and their octets;
* `encodeServiceMessage_iff_decode` — the encoder and the decoder are inverse to one another.
-/

import Atterm.Service.Codec

namespace Atterm.Service

open Atterm.Foundation Atterm.Transport

def serviceMessageHeaderSize : ℕ := 16 + 1 + 4 + 2

/-- A whole message fits in one encrypted record. -/
def maxServiceData : ℕ := maxRecordPlaintext - serviceMessageHeaderSize

/-- `ErrInvalidServiceMessage` -/
inductive ServiceMessageError where
  | invalid
deriving DecidableEq, Repr

abbrev ServiceKind := UInt8

def serviceOpen : ServiceKind := 1
def serviceData : ServiceKind := 2
def serviceClose : ServiceKind := 3

theorem length_nilOctets : (List.replicate 16 0 : Bytes).length = 16 := rfl

/-- `uuid.Nil` -/
def UUID.nil : UUID := ⟨List.replicate 16 0, length_nilOctets⟩

/-- `uuid.FromBytes` -/
def UUID.fromBytes (octets : Bytes) : Option UUID :=
  if length : octets.length = 16 then some ⟨octets, length⟩ else none

structure ServiceMessage where
  serviceID : UUID
  kind : ServiceKind
  connection : UInt32
  data : Bytes
deriving DecidableEq, Repr

def ServiceMessage.write (m : ServiceMessage) : Bytes :=
  m.serviceID.val ++ ([m.kind] ++ (bigEndian 4 m.connection.toNat ++
    (bigEndian 2 m.data.length ++ m.data)))

def encodeServiceMessage (m : ServiceMessage) : Except ServiceMessageError Bytes :=
  if m.serviceID = UUID.nil ∨ m.connection = 0 ∨ m.kind < serviceOpen ∨ serviceClose < m.kind ∨
      maxServiceData < m.data.length ∨ (m.kind ≠ serviceData ∧ m.data.length ≠ 0) ∨
      (m.kind = serviceData ∧ m.data.length = 0) then
    .error .invalid
  else .ok m.write

def decodeServiceMessage (payload : Bytes) : Except ServiceMessageError ServiceMessage :=
  if payload.length < serviceMessageHeaderSize ∨ maxRecordPlaintext < payload.length then
    .error .invalid
  else
    match UUID.fromBytes (payload.take 16) with
    | none => .error .invalid
    | some serviceID =>
      if serviceID = UUID.nil then .error .invalid
      else
        let kind : ServiceKind := payload.getD 16 0
        let connection := UInt32.ofNat (numberAt payload 17 21)
        let dataLen := numberAt payload 21 23
        if connection = 0 ∨ kind < serviceOpen ∨ serviceClose < kind ∨ maxServiceData < dataLen ∨
            payload.length ≠ serviceMessageHeaderSize + dataLen ∨
            (kind ≠ serviceData ∧ dataLen ≠ 0) ∨ (kind = serviceData ∧ dataLen = 0) then
          .error .invalid
        else .ok ⟨serviceID, kind, connection, payload.drop serviceMessageHeaderSize⟩

/-! ### The messages that pass -/

structure ServiceMessage.Valid (m : ServiceMessage) : Prop where
  service : m.serviceID ≠ UUID.nil
  connection : m.connection ≠ 0
  known : serviceOpen ≤ m.kind ∧ m.kind ≤ serviceClose
  bounded : m.data.length ≤ maxServiceData
  carries : m.kind = serviceData ↔ m.data.length ≠ 0

theorem encodeServiceMessage_ok_iff {m : ServiceMessage} {payload : Bytes} :
    encodeServiceMessage m = .ok payload ↔ m.Valid ∧ m.write = payload := by
  rw [encodeServiceMessage]
  split_ifs with refused
  · refine iff_of_false nofun fun ⟨valid, _⟩ => ?_
    rcases refused with nil | zero | low | high | long | ⟨other, some⟩ | ⟨data, none⟩
    · exact absurd nil valid.service
    · exact absurd zero valid.connection
    · exact absurd valid.known.1 (UInt8.not_le.mpr low)
    · exact absurd valid.known.2 (UInt8.not_le.mpr high)
    · exact absurd valid.bounded (Nat.not_le.mpr long)
    · exact absurd (valid.carries.mpr some) other
    · exact absurd none (valid.carries.mp data)
  · push Not at refused
    obtain ⟨service, connection, low, high, bounded, other, data⟩ := refused
    have valid : m.Valid := by
      refine ⟨service, connection, ⟨UInt8.not_lt.mp low, UInt8.not_lt.mp high⟩, bounded, data,
        fun some => ?_⟩
      by_contra different
      exact some (other different)
    exact ⟨fun encoded => ⟨valid, Except.ok.inj encoded⟩, fun ⟨_, same⟩ => by rw [same]⟩

@[simp] theorem ServiceMessage.length_write (m : ServiceMessage) :
    m.write.length = serviceMessageHeaderSize + m.data.length := by
  simp [ServiceMessage.write, serviceMessageHeaderSize, m.serviceID.property]
  omega

theorem ServiceMessage.fields_write (m : ServiceMessage) (bounded : m.data.length ≤ maxServiceData) :
    m.write.take 16 = m.serviceID.val ∧ m.write.getD 16 0 = m.kind ∧
      numberAt m.write 17 21 = m.connection.toNat ∧ numberAt m.write 21 23 = m.data.length ∧
      m.write.drop serviceMessageHeaderSize = m.data := by
  have small : m.data.length < 256 ^ 2 := bounded.trans_lt (by decide)
  have sixteen := m.serviceID.property
  have named : (m.serviceID.val ++ [m.kind]).length = 17 := by simp [sixteen]
  have written : m.write = (m.serviceID.val ++ [m.kind]) ++ (bigEndian 4 m.connection.toNat ++
      (bigEndian 2 m.data.length ++ m.data)) := by
    simp [ServiceMessage.write]
  refine ⟨?_, ?_, ?_, ?_, ?_⟩
  · exact List.take_left' sixteen
  · rw [ServiceMessage.write, List.getD_append_right _ _ _ _ sixteen.le, sixteen]
    rfl
  · rw [written]
    exact (numberAt_skip named 0 4).trans (numberAt_head m.connection.toNat_lt)
  · rw [written]
    exact (numberAt_skip named 4 6).trans <| (numberAt_skip (length_bigEndian 4 _) 0 2).trans
      (numberAt_head small)
  · rw [written]
    exact (drop_skip named 6).trans <| (drop_skip (length_bigEndian 4 _) 2).trans
      (drop_skip (length_bigEndian 2 _) 0)

theorem ServiceMessage.write_read {payload : Bytes} {serviceID : UUID}
    (named : payload.take 16 = serviceID.val)
    (whole : payload.length = serviceMessageHeaderSize + numberAt payload 21 23) :
    ServiceMessage.write ⟨serviceID, payload.getD 16 0, .ofNat (numberAt payload 17 21),
      payload.drop serviceMessageHeaderSize⟩ = payload := by
  rw [serviceMessageHeaderSize] at whole ⊢
  have head : serviceID.val = payload.extract 0 16 := by
    rw [List.extract_eq_take_drop]
    exact named.symm
  have kind : [payload.getD 16 0] = payload.extract 16 17 := (extract_octet (by omega)).symm
  have connection : bigEndian 4 (UInt32.ofNat (numberAt payload 17 21)).toNat =
      payload.extract 17 21 := by
    rw [UInt32.toNat_ofNat', Nat.mod_eq_of_lt (show _ < 2 ^ 32 from numberAt_lt payload 17 21)]
    exact bigEndian_numberAt (by omega)
  have length : bigEndian 2 (payload.drop 23).length = payload.extract 21 23 := by
    have counted : (payload.drop 23).length = numberAt payload 21 23 := by
      rw [List.length_drop]
      omega
    rw [counted]
    exact bigEndian_numberAt (by omega)
  have rest : payload.drop 23 = payload.extract 23 payload.length := by
    rw [List.extract_eq_take_drop, List.take_of_length_le]
    rw [List.length_drop]
  rw [ServiceMessage.write]
  dsimp only
  rw [length, head, kind, connection, rest, extract_append_extract (by decide) (by omega),
    extract_append_extract (by decide) (by omega), extract_append_extract (by decide) (by omega),
    extract_append_extract (by decide) (by omega), List.extract_eq_take_drop, List.drop_zero,
    Nat.sub_zero, List.take_length]

/-- **The octets that pass** are those of a valid message. -/
theorem decodeServiceMessage_ok_iff {payload : Bytes} {m : ServiceMessage} :
    decodeServiceMessage payload = .ok m ↔ m.Valid ∧ m.write = payload := by
  constructor
  · intro decoded
    rw [decodeServiceMessage] at decoded
    split_ifs at decoded with size
    cases read : UUID.fromBytes (payload.take 16) with
    | none =>
      rw [read] at decoded
      cases decoded
    | some serviceID =>
      rw [read] at decoded
      dsimp only at decoded
      split_ifs at decoded with nil refused
      have named : payload.take 16 = serviceID.val := by
        rw [UUID.fromBytes] at read
        split_ifs at read
        rw [← Option.some.inj read]
      push Not at refused
      obtain ⟨connection, low, high, bounded, whole, other, data⟩ := refused
      have counted : (payload.drop serviceMessageHeaderSize).length = numberAt payload 21 23 := by
        rw [List.length_drop]
        omega
      obtain rfl := Except.ok.inj decoded
      refine ⟨⟨nil, connection, ⟨UInt8.not_lt.mp low, UInt8.not_lt.mp high⟩, counted.trans_le bounded, ?_⟩,
        ServiceMessage.write_read named whole⟩
      dsimp only
      rw [counted]
      refine ⟨data, fun some => ?_⟩
      by_contra different
      exact some (other different)
  · rintro ⟨valid, rfl⟩
    obtain ⟨named, kind, connection, counted, data⟩ := m.fields_write valid.bounded
    have bounded := valid.bounded
    rw [decodeServiceMessage, if_neg, named]
    · have read : UUID.fromBytes m.serviceID.val = some m.serviceID := dif_pos m.serviceID.property
      rw [read]
      dsimp only
      rw [if_neg valid.service, kind, connection, counted, data, UInt32.ofNat_toNat, if_neg]
      push Not
      refine ⟨valid.connection, UInt8.not_lt.mpr valid.known.1, UInt8.not_lt.mpr valid.known.2, bounded,
        m.length_write, fun other => ?_, valid.carries.mp⟩
      by_contra some
      exact other (valid.carries.mpr some)
    · have limit : maxServiceData = maxRecordPlaintext - serviceMessageHeaderSize := rfl
      have fits : serviceMessageHeaderSize ≤ maxRecordPlaintext := by decide
      rw [m.length_write]
      omega

/-- **The codec is exact**: the decoder returns a message for the octets that the encoder makes of it, and
for no others. -/
theorem encodeServiceMessage_iff_decode (m : ServiceMessage) (payload : Bytes) :
    encodeServiceMessage m = .ok payload ↔ decodeServiceMessage payload = .ok m := by
  rw [encodeServiceMessage_ok_iff, decodeServiceMessage_ok_iff]

end Atterm.Service
