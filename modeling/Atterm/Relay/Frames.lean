/-
**The frames of the wire.**

A frame is a version, a type, the length of its payload, the id of its session and its payload. The relay
and the desktop read it in Go, the clients in TypeScript, which knows no greatest length. An output frame
writes its sequence number before its data, in TypeScript as two halves.

* `marshal`, `unmarshal`, `encodeFrame`, `decodeFrame` — the two codecs;
* `unmarshal_ok_iff`, `decodeFrame_ok_iff` — what each of them reads;
* `frames_agree` — a frame written on one side is read on the other.
-/

import Atterm.Relay.FileRequest
import Atterm.Service.Codec

namespace Atterm.Relay

open Atterm.Foundation Atterm.Transport
open Atterm.Service (extract_octet extract_append_extract bigEndian_numberAt)

namespace Wire

abbrev SessionID := { id : Bytes // id.length = 16 }

structure Frame where
  type : UInt8
  sessionID : SessionID
  payload : Bytes
deriving DecidableEq

def version : UInt8 := 1

def minFrameLen : ℕ := 22

inductive FrameError where
  | short
  | version (got : UInt8)
  | tooLarge
  | payloadLen
deriving DecidableEq, Repr

/-- The length is cut to the four octets it has. -/
def marshal (f : Frame) : Bytes :=
  [version, f.type] ++ (bigEndian 4 f.payload.length ++ (f.sessionID.val ++ f.payload))

theorem length_sessionID {data : Bytes} (long : ¬data.length < minFrameLen) :
    ((data.drop 6).take 16).length = 16 := by
  rw [minFrameLen] at long
  rw [List.length_take, List.length_drop]
  omega

/-- The fields behind the version and the length. -/
def frameOf (data : Bytes) (long : ¬data.length < minFrameLen) : Frame :=
  ⟨data.getD 1 0, ⟨(data.drop 6).take 16, length_sessionID long⟩, data.drop minFrameLen⟩

def unmarshal (data : Bytes) : Except FrameError Frame :=
  if long : data.length < minFrameLen then .error .short
  else if data.getD 0 0 ≠ version then .error (.version (data.getD 0 0))
  else if maxPayload < numberAt data 2 6 then .error .tooLarge
  else if numberAt data 2 6 ≠ data.length - minFrameLen then .error .payloadLen
  else .ok (frameOf data long)

/-- The errors that `decodeFrame` throws. -/
inductive WebFrameError where
  | short
  | version (got : UInt8)
  | lengthMismatch (claimed have_ : ℕ)
deriving DecidableEq, Repr

theorem length_nilSID : (List.replicate 16 (0 : UInt8)).length = 16 := List.length_replicate

def nilSID : SessionID := ⟨List.replicate 16 0, length_nilSID⟩

/-- Neither a session nor a payload needs to be given. -/
def encodeFrame (type : UInt8) (sid : Option SessionID) (payload : Option Bytes) : Bytes :=
  [version, type] ++ (bigEndian 4 (payload.getD []).length ++
    ((sid.getD nilSID).val ++ payload.getD []))

def decodeFrame (data : Bytes) : Except WebFrameError Frame :=
  if long : data.length < minFrameLen then .error .short
  else if data.getD 0 0 ≠ version then .error (.version (data.getD 0 0))
  else if minFrameLen + numberAt data 2 6 ≠ data.length then
    .error (.lengthMismatch (numberAt data 2 6) (data.length - minFrameLen))
  else .ok (frameOf data long)

/-! ### What is read -/

variable {f : Frame} {data : Bytes}

theorem length_marshal (f : Frame) : (marshal f).length = minFrameLen + f.payload.length := by
  simp [marshal, minFrameLen, f.sessionID.property]
  omega

theorem first_marshal (f : Frame) : (marshal f).getD 0 0 = version := rfl

theorem not_short (f : Frame) : ¬(marshal f).length < minFrameLen := by
  rw [length_marshal]
  omega

theorem frameOf_marshal (f : Frame) : frameOf (marshal f) (not_short f) = f := by
  have six : ([version, f.type] ++ bigEndian 4 f.payload.length).length = 6 := by simp
  have behind : (marshal f).drop 6 = f.sessionID.val ++ f.payload := by
    rw [marshal, ← List.append_assoc]
    exact List.drop_left' six
  obtain ⟨type, ⟨sessionID, sixteen⟩, payload⟩ := f
  rw [frameOf]
  congr 1
  · rw [Subtype.mk.injEq, behind]
    exact List.take_left' sixteen
  · have rest := List.drop_drop (i := 16) (j := 6) (l := marshal ⟨type, ⟨sessionID, sixteen⟩, payload⟩)
    rw [behind] at rest
    exact rest.symm.trans (List.drop_left' sixteen)

theorem numberAt_marshal (small : f.payload.length < 2 ^ 32) :
    numberAt (marshal f) 2 6 = f.payload.length :=
  (numberAt_skip (show [version, f.type].length = 2 from rfl) 0 4).trans (numberAt_head small)

/-- **Octets with the version and the right length are those of a frame.** -/
theorem marshal_frameOf (long : ¬data.length < minFrameLen) (first : data.getD 0 0 = version)
    (counted : numberAt data 2 6 = data.length - minFrameLen) :
    marshal (frameOf data long) = data := by
  have enough := long
  rw [minFrameLen] at counted enough
  have head : [version] = data.extract 0 1 := by
    rw [← first]
    exact (extract_octet (by omega)).symm
  have type : [data.getD 1 0] = data.extract 1 2 := (extract_octet (by omega)).symm
  have length : bigEndian 4 (data.drop 22).length = data.extract 2 6 := by
    rw [List.length_drop, ← counted]
    exact bigEndian_numberAt (by omega)
  have sessionID : (data.drop 6).take 16 = data.extract 6 22 := by
    rw [List.extract_eq_take_drop]
  have rest : data.drop 22 = data.extract 22 data.length := by
    rw [List.extract_eq_take_drop, List.take_of_length_le]
    rw [List.length_drop]
  have two : [version, data.getD 1 0] = data.extract 0 2 := by
    rw [← extract_append_extract (show 0 ≤ 1 by decide) (show 1 ≤ 2 by decide), ← head, ← type]
    rfl
  rw [marshal, frameOf, minFrameLen]
  dsimp only
  rw [two, length, sessionID, rest, extract_append_extract (by decide) (by omega),
    extract_append_extract (by decide) (by omega), extract_append_extract (by decide) (by omega),
    List.extract_eq_take_drop, List.drop_zero, Nat.sub_zero, List.take_length]

/-- **What the relay reads**: the octets of the frames whose payloads are not too large. -/
theorem unmarshal_ok_iff : unmarshal data = .ok f ↔ data = marshal f ∧ f.payload.length ≤ maxPayload := by
  constructor
  · intro read
    rw [unmarshal] at read
    split_ifs at read with long first large counted
    obtain rfl := Except.ok.inj read
    refine ⟨(marshal_frameOf long (not_not.mp first) (not_not.mp counted)).symm, ?_⟩
    have length : (frameOf data long).payload.length = numberAt data 2 6 :=
      List.length_drop.trans (not_not.mp counted).symm
    rw [length]
    exact not_lt.mp large
  · rintro ⟨rfl, small⟩
    have counted := numberAt_marshal (f := f) (small.trans_lt (by decide))
    rw [unmarshal, dif_neg (not_short f), if_neg (not_not.mpr (first_marshal f)), counted, if_neg (not_lt.mpr small),
      if_neg (by rw [length_marshal]; omega), frameOf_marshal]

/-- **What the clients read**: the octets of the frames whose lengths can be written. -/
theorem decodeFrame_ok_iff : decodeFrame data = .ok f ↔ data = marshal f ∧ f.payload.length < 2 ^ 32 := by
  constructor
  · intro read
    rw [decodeFrame] at read
    split_ifs at read with long first counted
    obtain rfl := Except.ok.inj read
    have whole : numberAt data 2 6 = data.length - minFrameLen := by omega
    refine ⟨(marshal_frameOf long (not_not.mp first) whole).symm, ?_⟩
    have length : (frameOf data long).payload.length = numberAt data 2 6 :=
      List.length_drop.trans whole.symm
    rw [length]
    exact numberAt_lt data 2 6
  · rintro ⟨rfl, small⟩
    have counted := numberAt_marshal small
    rw [decodeFrame, dif_neg (not_short f), if_neg (not_not.mpr (first_marshal f)), counted,
      if_neg (not_not.mpr (length_marshal f).symm), frameOf_marshal]

/-- **The two codecs agree.** A payload that the relay takes makes a frame that is read as it was written,
whichever side writes it and whichever side reads it; what either side reads was written so; and the
clients read more only where the payload is too large for the relay. -/
theorem frames_agree (f : Frame) (data : Bytes) :
    (∀ type sid payload,
      encodeFrame type sid payload = marshal ⟨type, sid.getD nilSID, payload.getD []⟩) ∧
    (f.payload.length ≤ maxPayload → unmarshal (marshal f) = .ok f ∧ decodeFrame (marshal f) = .ok f) ∧
    (unmarshal data = .ok f → data = marshal f ∧ decodeFrame data = .ok f) ∧
    (decodeFrame data = .ok f → data = marshal f ∧ (f.payload.length ≤ maxPayload ∧
        unmarshal data = .ok f ∨ maxPayload < f.payload.length ∧ unmarshal data = .error .tooLarge)) := by
  refine ⟨fun _ _ _ => rfl, fun small => ⟨unmarshal_ok_iff.mpr ⟨rfl, small⟩,
    decodeFrame_ok_iff.mpr ⟨rfl, small.trans_lt (by decide)⟩⟩, fun read => ?_, fun read => ?_⟩
  · obtain ⟨written, small⟩ := unmarshal_ok_iff.mp read
    exact ⟨written, decodeFrame_ok_iff.mpr ⟨written, small.trans_lt (by decide)⟩⟩
  · obtain ⟨rfl, bounded⟩ := decodeFrame_ok_iff.mp read
    refine ⟨rfl, ?_⟩
    by_cases small : f.payload.length ≤ maxPayload
    · exact .inl ⟨small, unmarshal_ok_iff.mpr ⟨rfl, small⟩⟩
    · refine .inr ⟨not_le.mp small, ?_⟩
      rw [unmarshal, dif_neg (not_short f), if_neg (not_not.mpr (first_marshal f)), numberAt_marshal bounded,
        if_pos (not_le.mp small)]

/-! ### The payload of an output frame -/

def encodeOut (seq : UInt64) (data : Bytes) : Bytes := bigEndian 8 seq.toNat ++ data

def decodeOut (payload : Bytes) : Except FrameError (UInt64 × Bytes) :=
  if payload.length < 8 then .error .short
  else .ok (.ofNat (numberAt payload 0 8), payload.drop 8)

/-- `encodeOut` of the clients: the halves of a number below the largest safe integer. -/
def webEncodeOut (seq : ℕ) (data : Bytes) : Bytes :=
  bigEndian 4 (seq / 2 ^ 32) ++ (bigEndian 4 (seq % 2 ^ 32) ++ data)

/-- `decodeOut` of the clients. -/
def webDecodeOut (payload : Bytes) : Option (ℕ × Bytes) :=
  if payload.length < 8 then none
  else some (numberAt payload 0 4 * 2 ^ 32 + numberAt payload 4 8, payload.drop 8)

theorem bigEndian_halves (seq : ℕ) :
    bigEndian 4 (seq / 2 ^ 32) ++ bigEndian 4 (seq % 2 ^ 32) = bigEndian 8 seq := by
  rw [show bigEndian 4 (seq % 2 ^ 32) = bigEndian 4 seq from bigEndian_mod 4 seq]
  exact (bigEndian_add 4 4 seq).symm

theorem decodeOut_ok_iff {payload : Bytes} {seq : UInt64} :
    decodeOut payload = .ok (seq, data) ↔ payload = encodeOut seq data := by
  constructor
  · intro read
    rw [decodeOut] at read
    split_ifs at read with long
    obtain ⟨rfl, rfl⟩ := Prod.mk.inj (Except.ok.inj read)
    have front : bigEndian 8 (numberAt payload 0 8) = payload.take 8 := by
      refine (bigEndian_numberAt (show 0 + 8 ≤ payload.length by omega)).trans ?_
      rw [List.extract_eq_take_drop, List.drop_zero]
    rw [encodeOut, UInt64.toNat_ofNat', Nat.mod_eq_of_lt (show _ < 2 ^ 64 from numberAt_lt payload 0 8),
      front, List.take_append_drop]
  · rintro rfl
    have eight := length_bigEndian 8 seq.toNat
    rw [decodeOut, encodeOut, if_neg (by simp), numberAt_head seq.toNat_lt, List.drop_left' eight,
      UInt64.ofNat_toNat]

theorem numberAt_halves {payload : Bytes} (long : 8 ≤ payload.length) :
    numberAt payload 0 4 * 2 ^ 32 + numberAt payload 4 8 = numberAt payload 0 8 := by
  have high : bigEndian 4 (numberAt payload 0 4) = payload.extract 0 4 :=
    bigEndian_numberAt (show 0 + 4 ≤ payload.length by omega)
  have low : bigEndian 4 (numberAt payload 4 8) = payload.extract 4 8 :=
    bigEndian_numberAt (show 4 + 4 ≤ payload.length by omega)
  have one := numberAt_lt payload 0 4
  have other := numberAt_lt payload 4 8
  have halves := bigEndian_halves (numberAt payload 0 4 * 2 ^ 32 + numberAt payload 4 8)
  rw [show (numberAt payload 0 4 * 2 ^ 32 + numberAt payload 4 8) / 2 ^ 32 = numberAt payload 0 4 by
      omega,
    show (numberAt payload 0 4 * 2 ^ 32 + numberAt payload 4 8) % 2 ^ 32 = numberAt payload 4 8 by omega,
    high, low, extract_append_extract (by decide) (by omega)] at halves
  exact (ofBigEndian_bigEndian (show _ < 256 ^ 8 by omega)).symm.trans (congrArg ofBigEndian halves.symm)

theorem webDecodeOut_eq (payload : Bytes) :
    webDecodeOut payload = (decodeOut payload).toOption.map fun read => (read.1.toNat, read.2) := by
  rw [webDecodeOut, decodeOut]
  split_ifs with short
  · rfl
  · simp only [Except.toOption, Option.map_some, UInt64.toNat_ofNat']
    rw [numberAt_halves (not_lt.mp short),
      Nat.mod_eq_of_lt (show _ < 2 ^ 64 from numberAt_lt payload 0 8)]

/-- **The number of an output frame** below the largest safe integer is read on either side as it was
written on either, with the same data, and what is read was written so. -/
theorem out_frames_agree {seq : ℕ} (safe : seq < 2 ^ 53) (data payload : Bytes) :
    webEncodeOut seq data = encodeOut (.ofNat seq) data ∧
    (decodeOut payload = .ok (.ofNat seq, data) ↔ payload = webEncodeOut seq data) ∧
    (webDecodeOut payload = some (seq, data) ↔ payload = webEncodeOut seq data) := by
  have number : (UInt64.ofNat seq).toNat = seq := by
    rw [UInt64.toNat_ofNat', Nat.mod_eq_of_lt (by omega)]
  have same : webEncodeOut seq data = encodeOut (.ofNat seq) data := by
    rw [webEncodeOut, encodeOut, ← List.append_assoc, bigEndian_halves, number]
  refine ⟨same, by rw [decodeOut_ok_iff, same], ?_⟩
  rw [same, ← decodeOut_ok_iff, webDecodeOut_eq]
  cases decodeOut payload with
  | error failed => simp [Except.toOption]
  | ok read =>
    obtain ⟨found, rest⟩ := read
    have numbers : found.toNat = seq ↔ found = .ofNat seq := by
      rw [← UInt64.toNat_inj, number]
    simp [Except.toOption, numbers]

theorem out_frames_agree_first :
    webEncodeOut 1 [104, 105] = encodeOut (.ofNat 1) [104, 105] ∧
    (decodeOut [0, 0, 0, 0, 0, 0, 0, 1, 104, 105] = .ok (.ofNat 1, [104, 105]) ↔
      [0, 0, 0, 0, 0, 0, 0, 1, 104, 105] = webEncodeOut 1 [104, 105]) ∧
    (webDecodeOut [0, 0, 0, 0, 0, 0, 0, 1, 104, 105] = some (1, [104, 105]) ↔
      [0, 0, 0, 0, 0, 0, 0, 1, 104, 105] = webEncodeOut 1 [104, 105]) :=
  out_frames_agree (by decide) _ _

end Wire

end Atterm.Relay
