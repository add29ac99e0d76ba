/-
**What is bound to a ciphertext.**

A sealed configuration value is bound to its record and operation, and a sealed epoch key to its
recipient, by associated data that the cipher authenticates. The fields are put one behind the other;
those of variable length are preceded by their lengths.

* `configPayloadAAD`, `epochEnvelopeAAD` — the two encodings;
* `configPayloadAAD_cases`, `epochEnvelopeAAD_cases` — the octets, where there are some;
* `associatedData_injective` — each encoding tells its fields apart, and from those of the other.
-/

import Atterm.ConfigSync.Op
import Atterm.Foundation.BigEndian
import Atterm.Epoch.Rotation

namespace Atterm.Epoch

open Atterm.Foundation
open Atterm.Peer (Bytes)
open Atterm.ConfigSync (validName validRecordID)

abbrev UUID := { id : Bytes // id.length = 16 }

def aadTagPeerConfigPayload : UInt8 := 0xF2
def aadTagPeerEpochEnvelope : UInt8 := 0xF3

/-- What is bound into every encrypted config value. -/
structure PayloadContext where
  spaceID : String
  collection : String
  recordID : String
  opID : String
  keyClass : KeyClass
  epoch : UInt64
deriving DecidableEq, Repr

def octets (text : String) : Bytes := text.toByteArray.data.toList

def KeyClass.discriminator : KeyClass → UInt8
  | .vault => 2
  | _ => 1

/-- What both encodings begin with. -/
def aadHead (spaceID : UUID) (tag : UInt8) (keyClass : KeyClass) (epoch : UInt64) : Bytes :=
  spaceID.val ++ ([tag, keyClass.discriminator] ++ bigEndian 8 epoch.toNat)

/-- The loop over the texts of a context. -/
def appendValues : List String → Bytes → Option Bytes
  | [], aad => some aad
  | value :: values, aad =>
    if 65535 < (octets value).length then none
    else appendValues values (aad ++ (bigEndian 2 (octets value).length ++ octets value))

section Encodings

-- `uuid.Parse`, which reads several texts of one identifier
variable (parseUUID : String → Option UUID)

def configPayloadAAD (context : PayloadContext) : Option Bytes :=
  match parseUUID context.spaceID with
  | none => none
  | some spaceID =>
    if ¬ context.keyClass.valid ∨ context.epoch = 0 ∨ ¬ validName context.collection 64 ∨
        ¬ validRecordID context.recordID ∨ context.opID = "" then none
    else appendValues [context.collection, context.recordID, context.opID]
      (aadHead spaceID aadTagPeerConfigPayload context.keyClass context.epoch)

def epochEnvelopeAAD (doc : EpochEnvelope) : Option Bytes :=
  match parseUUID doc.spaceID with
  | none => none
  | some spaceID =>
    match Base64.decodeStrict doc.recipientPeerID with
    | none => none
    | some peerID =>
      if peerID.length ≠ 32 then none
      else
        match decodeSized doc.recipientWrappingKey Peer.wrappingPublicKeySize,
            decodeSized doc.ephemeralPublicKey Peer.wrappingPublicKeySize with
        | some recipientKey, some ephemeralKey =>
          some (aadHead spaceID aadTagPeerEpochEnvelope doc.keyClass doc.epoch ++
            (peerID ++ (recipientKey ++ ephemeralKey)))
        | _, _ => none

/-- Two contexts that agree, up to the text of the space. -/
structure PayloadContext.Same (one other : PayloadContext) : Prop where
  spaceID : parseUUID one.spaceID = parseUUID other.spaceID
  collection : one.collection = other.collection
  recordID : one.recordID = other.recordID
  opID : one.opID = other.opID
  keyClass : one.keyClass = other.keyClass
  epoch : one.epoch = other.epoch

/-- Two envelopes that agree in what is bound, up to the text of the space. -/
structure EpochEnvelope.Same (one other : EpochEnvelope) : Prop where
  spaceID : parseUUID one.spaceID = parseUUID other.spaceID
  keyClass : one.keyClass = other.keyClass
  epoch : one.epoch = other.epoch
  recipientPeerID : one.recipientPeerID = other.recipientPeerID
  recipientWrappingKey : one.recipientWrappingKey = other.recipientWrappingKey
  ephemeralPublicKey : one.ephemeralPublicKey = other.ephemeralPublicKey

end Encodings

/-- What `SealEpochKey` and `parseEpochEnvelope` check of an envelope before its associated data is
computed. -/
structure EpochEnvelope.Checked (doc : EpochEnvelope) : Prop where
  keyClass : doc.keyClass.valid = true
  recipientPeerID : validPeerID doc.recipientPeerID = true

/-! ### The fields -/

theorem octets_inj {one other : String} (same : octets one = octets other) : one = other := by
  rw [octets, octets, Array.toList_inj] at same
  exact String.toByteArray_inj.mp (ByteArray.ext same)

theorem KeyClass.discriminator_inj {one other : KeyClass} (valid : one.valid = true)
    (known : other.valid = true) (same : one.discriminator = other.discriminator) : one = other := by
  cases one with
  | sync =>
    cases other with
    | sync => rfl
    | vault => exact absurd same (by decide)
    | other => exact absurd known (by simp [KeyClass.valid])
  | vault =>
    cases other with
    | sync => exact absurd same (by decide)
    | vault => rfl
    | other => exact absurd known (by simp [KeyClass.valid])
  | other => exact absurd valid (by simp [KeyClass.valid])

theorem aadHead_append_inj {one other : UUID} {tag tag' : UInt8} {keyClass keyClass' : KeyClass}
    {epoch epoch' : UInt64} {rest rest' : Bytes}
    (same : aadHead one tag keyClass epoch ++ rest = aadHead other tag' keyClass' epoch' ++ rest') :
    one = other ∧ tag = tag' ∧ keyClass.discriminator = keyClass'.discriminator ∧ epoch = epoch' ∧
      rest = rest' := by
  simp only [aadHead, List.append_assoc] at same
  obtain ⟨spaces, same⟩ := List.append_inj same (one.property.trans other.property.symm)
  obtain ⟨tags, same⟩ := List.append_inj same rfl
  obtain ⟨epochs, rests⟩ := List.append_inj same (by rw [length_bigEndian, length_bigEndian])
  rw [List.cons.injEq, List.cons.injEq] at tags
  have numbers := (bigEndian_inj (UInt64.toNat_lt epoch) (UInt64.toNat_lt epoch')).mp epochs
  exact ⟨Subtype.ext spaces, tags.1, tags.2.1, UInt64.toNat_inj.mp numbers, rests⟩

theorem appendValues_cases {values : List String} {head aad : Bytes}
    (appended : appendValues values head = some aad) :
    (∀ value ∈ values, (octets value).length < 256 ^ 2) ∧
      aad = head ++ (values.map octets).flatMap (framed 2) := by
  induction values generalizing head with
  | nil =>
    refine ⟨nofun, ?_⟩
    rw [appendValues, Option.some.injEq] at appended
    rw [List.map_nil, List.flatMap_nil, List.append_nil, appended]
  | cons value values ih =>
    rw [appendValues] at appended
    split_ifs at appended with long
    obtain ⟨short, whole⟩ := ih appended
    refine ⟨?_, ?_⟩
    · rintro v (_ | ⟨_, listed⟩)
      · omega
      · exact short v listed
    · rw [whole, List.map_cons, List.flatMap_cons, List.append_assoc]
      rfl

/-- **The octets of a context.** -/
theorem configPayloadAAD_cases {parseUUID : String → Option UUID} {context : PayloadContext} {aad : Bytes}
    (bound : configPayloadAAD parseUUID context = some aad) : context.keyClass.valid = true ∧
      ∃ spaceID, parseUUID context.spaceID = some spaceID ∧
        (∀ value ∈ [context.collection, context.recordID, context.opID],
          (octets value).length < 256 ^ 2) ∧
        aad = aadHead spaceID aadTagPeerConfigPayload context.keyClass context.epoch ++
          ([context.collection, context.recordID, context.opID].map octets).flatMap (framed 2) := by
  rw [configPayloadAAD] at bound
  cases parsed : parseUUID context.spaceID with
  | none =>
    rw [parsed] at bound
    cases bound
  | some spaceID =>
    rw [parsed] at bound
    dsimp only at bound
    split_ifs at bound with refused
    push Not at refused
    exact ⟨refused.1, spaceID, rfl, appendValues_cases bound⟩

/-- **The octets of an envelope.** -/
theorem epochEnvelopeAAD_cases {parseUUID : String → Option UUID} {doc : EpochEnvelope} {aad : Bytes}
    (bound : epochEnvelopeAAD parseUUID doc = some aad) :
    ∃ spaceID peerID recipientKey ephemeralKey, parseUUID doc.spaceID = some spaceID ∧
      Base64.decodeStrict doc.recipientPeerID = some peerID ∧ peerID.length = 32 ∧
      decodeSized doc.recipientWrappingKey Peer.wrappingPublicKeySize = some recipientKey ∧
      decodeSized doc.ephemeralPublicKey Peer.wrappingPublicKeySize = some ephemeralKey ∧
      aad = aadHead spaceID aadTagPeerEpochEnvelope doc.keyClass doc.epoch ++
        (peerID ++ (recipientKey ++ ephemeralKey)) := by
  rw [epochEnvelopeAAD] at bound
  cases parsed : parseUUID doc.spaceID with
  | none =>
    rw [parsed] at bound
    cases bound
  | some spaceID =>
    rw [parsed] at bound
    dsimp only at bound
    cases decoded : Base64.decodeStrict doc.recipientPeerID with
    | none =>
      rw [decoded] at bound
      cases bound
    | some peerID =>
      rw [decoded] at bound
      dsimp only at bound
      split_ifs at bound with sized
      cases recipient : decodeSized doc.recipientWrappingKey Peer.wrappingPublicKeySize with
      | none =>
        rw [recipient] at bound
        cases bound
      | some recipientKey =>
        cases ephemeral : decodeSized doc.ephemeralPublicKey Peer.wrappingPublicKeySize with
        | none =>
          rw [recipient, ephemeral] at bound
          cases bound
        | some ephemeralKey =>
          rw [recipient, ephemeral] at bound
          exact ⟨spaceID, peerID, recipientKey, ephemeralKey, rfl, rfl, not_not.mp sized, rfl,
            rfl, (Option.some.inj bound).symm⟩

theorem EpochEnvelope.Checked.peerID {doc : EpochEnvelope} (checked : doc.Checked) {peerID : Bytes}
    (decoded : Base64.decodeStrict doc.recipientPeerID = some peerID) :
    Base64.encode peerID = doc.recipientPeerID := by
  have valid := checked.recipientPeerID
  rw [validPeerID, Option.isSome_iff_exists] at valid
  obtain ⟨bytes, read⟩ := valid
  have text := (encode_of_decodeSized read).1
  rw [← text, Base64.decodeStrict_encode, Option.some.injEq] at decoded
  rw [← decoded, text]

/-! ### The encodings are injective -/

theorem configPayloadAAD_inj {parseUUID : String → Option UUID} {one other : PayloadContext} {aad : Bytes}
    (first : configPayloadAAD parseUUID one = some aad)
    (second : configPayloadAAD parseUUID other = some aad) : one.Same parseUUID other := by
  obtain ⟨valid, spaceID, parsed, short, rfl⟩ := configPayloadAAD_cases first
  obtain ⟨known, spaceID', parsed', short', same⟩ := configPayloadAAD_cases second
  obtain ⟨spaces, _, classes, epochs, values⟩ := aadHead_append_inj same
  have fields := flatMap_framed_inj (List.forall_mem_map.mpr short) (List.forall_mem_map.mpr short') rfl
    values
  simp only [List.map_cons, List.map_nil, List.cons.injEq] at fields
  refine ⟨?_, octets_inj fields.1, octets_inj fields.2.1, octets_inj fields.2.2.1,
    KeyClass.discriminator_inj valid known classes, epochs⟩
  rw [parsed, parsed', spaces]

theorem epochEnvelopeAAD_inj {parseUUID : String → Option UUID} {one other : EpochEnvelope} {aad : Bytes}
    (checked : one.Checked) (checked' : other.Checked) (first : epochEnvelopeAAD parseUUID one = some aad)
    (second : epochEnvelopeAAD parseUUID other = some aad) : one.Same parseUUID other := by
  obtain ⟨_, peerID, recipient, ephemeral, parsed, decoded, sized, own, fresh, rfl⟩ :=
    epochEnvelopeAAD_cases first
  obtain ⟨_, peerID', recipient', ephemeral', parsed', decoded', sized', own', fresh', same⟩ :=
    epochEnvelopeAAD_cases second
  obtain ⟨spaces, _, classes, epochs, rest⟩ := aadHead_append_inj same
  obtain ⟨peers, rest⟩ := List.append_inj rest (sized.trans sized'.symm)
  have lengths := (encode_of_decodeSized own).2.trans (encode_of_decodeSized own').2.symm
  obtain ⟨owns, freshes⟩ := List.append_inj rest lengths
  refine ⟨?_, KeyClass.discriminator_inj checked.keyClass checked'.keyClass classes, epochs, ?_, ?_, ?_⟩
  · rw [parsed, parsed', spaces]
  · rw [← checked.peerID decoded, ← checked'.peerID decoded', peers]
  · rw [← (encode_of_decodeSized own).1, ← (encode_of_decodeSized own').1, owns]
  · rw [← (encode_of_decodeSized fresh).1, ← (encode_of_decodeSized fresh').1, freshes]

theorem configPayloadAAD_ne_epochEnvelopeAAD {parseUUID : String → Option UUID} {context : PayloadContext}
    {doc : EpochEnvelope} {aad : Bytes} (first : configPayloadAAD parseUUID context = some aad) :
    epochEnvelopeAAD parseUUID doc ≠ some aad := by
  intro second
  obtain ⟨_, _, _, _, rfl⟩ := configPayloadAAD_cases first
  obtain ⟨_, _, _, _, _, _, _, _, _, same⟩ := epochEnvelopeAAD_cases second
  exact absurd (aadHead_append_inj same).2.1 (by decide)

/-- **Associated data tells what it is bound to**: contexts by all their fields, envelopes that were checked
by all that is bound, and neither is that of the other. -/
theorem associatedData_injective (parseUUID : String → Option UUID) :
    (∀ one other aad, configPayloadAAD parseUUID one = some aad →
      configPayloadAAD parseUUID other = some aad → one.Same parseUUID other) ∧
    (∀ one other aad, EpochEnvelope.Checked one → EpochEnvelope.Checked other →
      epochEnvelopeAAD parseUUID one = some aad → epochEnvelopeAAD parseUUID other = some aad →
        one.Same parseUUID other) ∧
    ∀ context doc aad, configPayloadAAD parseUUID context = some aad →
      epochEnvelopeAAD parseUUID doc ≠ some aad :=
  ⟨fun _ _ _ first second => configPayloadAAD_inj first second,
    fun _ _ _ checked checked' first second => epochEnvelopeAAD_inj checked checked' first second,
    fun _ _ _ first => configPayloadAAD_ne_epochEnvelopeAAD first⟩

/-- An identifier of zeros, for every text. -/
def sampleUUID : String → Option UUID := fun _ => some ⟨List.replicate 16 0, rfl⟩

def sampleContext : PayloadContext := ⟨"space", "prefs", "theme", "laptop:7", .sync, 3⟩

def sampleBound (keyClass : KeyClass) : EpochEnvelope where
  v := epochEnvelopeVersion
  spaceID := "space"
  keyClass := keyClass
  epoch := 3
  recipientPeerID := Base64.encode (List.replicate 32 0)
  recipientWrappingKey := Base64.encode (List.replicate Peer.wrappingPublicKeySize 0)
  ephemeralPublicKey := Base64.encode (List.replicate Peer.wrappingPublicKeySize 0)

theorem epochEnvelopeAAD_sampleBound (keyClass : KeyClass) :
    epochEnvelopeAAD sampleUUID (sampleBound keyClass) =
      some (aadHead ⟨List.replicate 16 0, rfl⟩ aadTagPeerEpochEnvelope keyClass 3 ++
        (List.replicate 32 0 ++ (List.replicate Peer.wrappingPublicKeySize 0 ++
          List.replicate Peer.wrappingPublicKeySize 0))) := by
  simp only [epochEnvelopeAAD, sampleBound, sampleUUID, Base64.decodeStrict_encode,
    decodeSized_encode List.length_replicate, List.length_replicate, ne_eq, not_true_eq_false, if_false]

theorem associatedData_injective_sample :
    (configPayloadAAD sampleUUID sampleContext).isSome = true ∧
      epochEnvelopeAAD sampleUUID (sampleBound .sync) ≠ configPayloadAAD sampleUUID sampleContext := by
  have bound : (configPayloadAAD sampleUUID sampleContext).isSome = true := by decide +kernel
  refine ⟨bound, ?_⟩
  obtain ⟨aad, some⟩ := Option.isSome_iff_exists.mp bound
  rw [some]
  exact (associatedData_injective sampleUUID).2.2 sampleContext (sampleBound .sync) aad some

/-- A class that is neither of the two is bound as the class of portable configuration. -/
theorem epochEnvelopeAAD_unchecked : ¬∀ one other aad, epochEnvelopeAAD sampleUUID one = some aad →
    epochEnvelopeAAD sampleUUID other = some aad → one.Same sampleUUID other := by
  intro injective
  have same := (injective _ _ _ (epochEnvelopeAAD_sampleBound .sync)
    (epochEnvelopeAAD_sampleBound (.other "none"))).keyClass
  exact absurd same (by decide)

end Atterm.Epoch
