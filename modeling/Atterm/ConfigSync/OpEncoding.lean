/-
**The text of an operation token.**

A token is a tag, the JSON of a document and a signature over that JSON, the last two in base64. The
verifier bounds the length of the text before it reads any of it, accepts one spelling of a document
only, and validates every field; the signer validates the same fields and bounds no length.

* `OpDocument.json`, `OpDocument.decode` — the JSON of a document, read strictly;
* `OpCrypto.signOp`, `OpCrypto.verifyOp` — the two sides, on texts;
* `signOp_verifies` — what was signed is accepted and is the document that was asked for.
-/

import Atterm.Foundation.JsonSize
import Atterm.ConfigSync.Op

namespace Atterm.ConfigSync.OpEncoding

open Std (ExtTreeMap)
open Atterm.Foundation

def Kind.text : Kind → String
  | .set => "set"
  | .delete => "delete"

def KeyClass.text : KeyClass → String
  | .sync => "sync"
  | .vault => "vault"

/-- `KeyClass.valid`. -/
def validKeyClass (keyClass : String) : Bool := keyClass == "sync" || keyClass == "vault"

/-- `SyncOp`, with the texts and the nil slices and maps that JSON can hold. -/
structure OpDocument where
  v : ℤ
  spaceID : String
  schemaVersion : ℕ
  opID : String
  actorDeviceID : String
  actorPublicKey : String
  counter : ℕ
  hlc : Timestamp
  collection : String
  recordID : String
  kind : String
  keyClass : String
  keyEpoch : ℕ
  payload : Option Bytes
  payloadHash : String
  causalContext : Option VersionVector
deriving DecidableEq

namespace OpDocument

def zero : OpDocument where
  v := 0
  spaceID := ""
  schemaVersion := 0
  opID := ""
  actorDeviceID := ""
  actorPublicKey := ""
  counter := 0
  hlc := ⟨0, 0⟩
  collection := ""
  recordID := ""
  kind := ""
  keyClass := ""
  keyEpoch := 0
  payload := none
  payloadHash := ""
  causalContext := none

end OpDocument

/-! ### The fields that are no plain texts and numbers -/

def hlcJson (hlc : Timestamp) : Json :=
  .obj [("physical_ms", .int hlc.physicalMS), ("logical", .nat hlc.logical)]

def hlcFields : List String := ["physical_ms", "logical"]

/-- A nested struct is filled where it stands. -/
def fillHLC (held : Timestamp) : Json → Option Timestamp
  | .null => some held
  | .obj members =>
    if knownFields hlcFields members = false then none
    else
      match readField (decodeInt (-2 ^ 63) (2 ^ 63 - 1)) held.physicalMS "physical_ms" members,
        readField (decodeNat 32) held.logical "logical" members with
      | some physicalMS, some logical => some ⟨physicalMS, logical⟩
      | _, _ => none
  | _ => none

/-- A byte slice is a string in padded base64; `null` makes it nil. -/
def bytesJson : Option Bytes → Json
  | none => .null
  | some bytes => .str (Base64.encodeStd bytes)

def fillBytes (_held : Option Bytes) : Json → Option (Option Bytes)
  | .null => some none
  | .str text => (Base64.decodeStd false text).map some
  | .arr elems => (decodeList (decodeNat 8) 0 (.arr elems)).map fun bytes =>
    some (bytes.map UInt8.ofNat)
  | _ => none

def vectorJson : Option VersionVector → Json
  | none => .null
  | some vector => mapJson .nat vector

/-- New entries join those that are there; `null` makes the map nil. -/
def fillVector (held : Option VersionVector) : Json → Option (Option VersionVector)
  | .null => some none
  | .obj members => (decodeMap (decodeNat 64) 0 (.obj members)).map fun read =>
    some (insertAll (held.getD ∅) read.toList)
  | _ => none

namespace OpDocument

def fields : List String :=
  ["v", "space_id", "schema_version", "op_id", "actor_device_id", "actor_public_key", "counter", "hlc",
    "collection", "record_id", "kind", "key_class", "key_epoch", "payload", "payload_hash",
    "causal_context"]

def members (doc : OpDocument) : List (String × Json) :=
  [("v", .int doc.v), ("space_id", .str doc.spaceID), ("schema_version", .nat doc.schemaVersion),
    ("op_id", .str doc.opID), ("actor_device_id", .str doc.actorDeviceID),
    ("actor_public_key", .str doc.actorPublicKey), ("counter", .nat doc.counter),
    ("hlc", hlcJson doc.hlc), ("collection", .str doc.collection), ("record_id", .str doc.recordID),
    ("kind", .str doc.kind), ("key_class", .str doc.keyClass), ("key_epoch", .nat doc.keyEpoch),
    ("payload", bytesJson doc.payload), ("payload_hash", .str doc.payloadHash),
    ("causal_context", vectorJson doc.causalContext)]

/-- `json.Marshal` of a document. -/
def json (doc : OpDocument) : Json := .obj doc.members

def bytes (doc : OpDocument) : Bytes := doc.json.bytes

/-- A document from the members of an object, every one of which names a field. -/
def decodeMembers (members : List (String × Json)) : Option OpDocument :=
  if knownFields fields members = false then none
  else do
    let v ← readField (decodeInt (-2 ^ 63) (2 ^ 63 - 1)) 0 "v" members
    let spaceID ← readField decodeText "" "space_id" members
    let schemaVersion ← readField (decodeNat 32) 0 "schema_version" members
    let opID ← readField decodeText "" "op_id" members
    let actorDeviceID ← readField decodeText "" "actor_device_id" members
    let actorPublicKey ← readField decodeText "" "actor_public_key" members
    let counter ← readField (decodeNat 64) 0 "counter" members
    let hlc ← (fieldValues "hlc" members).foldlM fillHLC ⟨0, 0⟩
    let collection ← readField decodeText "" "collection" members
    let recordID ← readField decodeText "" "record_id" members
    let kind ← readField decodeText "" "kind" members
    let keyClass ← readField decodeText "" "key_class" members
    let keyEpoch ← readField (decodeNat 64) 0 "key_epoch" members
    let payload ← (fieldValues "payload" members).foldlM fillBytes none
    let payloadHash ← readField decodeText "" "payload_hash" members
    let causalContext ← (fieldValues "causal_context" members).foldlM fillVector none
    return { v, spaceID, schemaVersion, opID, actorDeviceID, actorPublicKey, counter, hlc, collection,
             recordID, kind, keyClass, keyEpoch, payload, payloadHash, causalContext }

def decode : Json → Option OpDocument
  | .null => some zero
  | .obj members => decodeMembers members
  | _ => none

structure Typed (doc : OpDocument) : Prop where
  v : -2 ^ 63 ≤ doc.v ∧ doc.v ≤ 2 ^ 63 - 1
  schemaVersion : doc.schemaVersion < 2 ^ 32
  counter : doc.counter < 2 ^ 64
  physicalMS : -2 ^ 63 ≤ doc.hlc.physicalMS ∧ doc.hlc.physicalMS ≤ 2 ^ 63 - 1
  logical : doc.hlc.logical < 2 ^ 32
  keyEpoch : doc.keyEpoch < 2 ^ 64
  causalContext : ∀ vector ∈ doc.causalContext, ∀ entry ∈ vector.toList, entry.2 < 2 ^ 64

end OpDocument

/-! ### A document is read back -/

theorem fillHLC_hlcJson {hlc held : Timestamp}
    (physical : -2 ^ 63 ≤ hlc.physicalMS ∧ hlc.physicalMS ≤ 2 ^ 63 - 1) (logical : hlc.logical < 2 ^ 32) :
    fillHLC held (hlcJson hlc) = some hlc := by
  have distinct : ([("physical_ms", Json.int hlc.physicalMS), ("logical", Json.nat hlc.logical)].map
      fun member => foldName member.1).Nodup := by
    show (hlcFields.map foldName).Nodup
    decide
  have first : readField (decodeInt (-2 ^ 63) (2 ^ 63 - 1)) held.physicalMS "physical_ms" _ = _ :=
    readField_of_mem distinct List.mem_cons_self (reads_int physical)
  have second : readField (decodeNat 32) held.logical "logical" _ = _ :=
    readField_of_mem distinct (List.mem_cons_of_mem _ List.mem_cons_self) (reads_nat logical)
  have known : knownFields hlcFields
      [("physical_ms", Json.int hlc.physicalMS), ("logical", Json.nat hlc.logical)] = true :=
    knownFields_of_names rfl
  rw [hlcJson, fillHLC, known, first, second]
  rfl

theorem fillBytes_bytesJson (held payload : Option Bytes) :
    fillBytes held (bytesJson payload) = some payload := by
  cases payload with
  | none => rfl
  | some bytes =>
    show (Base64.decodeStd false (Base64.encodeStd bytes)).map some = _
    rw [Base64.decodeStd_encodeStd]
    rfl

theorem fillVector_vectorJson {vector : Option VersionVector}
    (below : ∀ inner ∈ vector, ∀ entry ∈ inner.toList, entry.2 < 2 ^ 64) :
    fillVector none (vectorJson vector) = some vector := by
  cases vector with
  | none => rfl
  | some inner =>
    have read : decodeMap (decodeNat 64) 0 (mapJson Json.nat inner) = some inner :=
      decodeMap_obj fun entry inside => reads_nat (below inner rfl entry inside)
    show (decodeMap (decodeNat 64) 0 (mapJson Json.nat inner)).map _ = _
    rw [read]
    exact congrArg (fun map => some (some map)) (insertAll_toList inner)

namespace OpDocument

variable {doc : OpDocument}

theorem distinct_members (doc : OpDocument) :
    (doc.members.map fun member => foldName member.1).Nodup := by
  show (fields.map foldName).Nodup
  decide

theorem fieldValues_members {name : String} {value : Json} (inside : (name, value) ∈ doc.members) :
    fieldValues name doc.members = [value] :=
  fieldValues_of_mem doc.distinct_members inside

theorem readField_text {name text : String} (inside : (name, Json.str text) ∈ doc.members) :
    readField decodeText "" name doc.members = some text :=
  readField_of_mem doc.distinct_members inside (reads_text text)

theorem readField_int {name : String} {value : ℤ} (range : -2 ^ 63 ≤ value ∧ value ≤ 2 ^ 63 - 1)
    (inside : (name, Json.int value) ∈ doc.members) :
    readField (decodeInt (-2 ^ 63) (2 ^ 63 - 1)) 0 name doc.members = some value :=
  readField_of_mem doc.distinct_members inside (reads_int range)

theorem readField_nat {name : String} {bits value : ℕ} (below : value < 2 ^ bits)
    (inside : (name, Json.nat value) ∈ doc.members) :
    readField (decodeNat bits) 0 name doc.members = some value :=
  readField_of_mem doc.distinct_members inside (reads_nat below)

/-- **A document is read back from its own JSON.** -/
theorem decode_json (typed : doc.Typed) : decode doc.json = some doc := by
  have known : knownFields fields doc.members = true := knownFields_of_names rfl
  have v : readField (decodeInt (-2 ^ 63) (2 ^ 63 - 1)) 0 "v" doc.members = some doc.v :=
    readField_int typed.v (by simp [members])
  have spaceID : readField decodeText "" "space_id" doc.members = some doc.spaceID :=
    readField_text (by simp [members])
  have schemaVersion : readField (decodeNat 32) 0 "schema_version" doc.members = _ :=
    readField_nat typed.schemaVersion (by simp [members])
  have opID : readField decodeText "" "op_id" doc.members = some doc.opID :=
    readField_text (by simp [members])
  have actorDeviceID : readField decodeText "" "actor_device_id" doc.members =
      some doc.actorDeviceID := readField_text (by simp [members])
  have actorPublicKey : readField decodeText "" "actor_public_key" doc.members =
      some doc.actorPublicKey := readField_text (by simp [members])
  have counter : readField (decodeNat 64) 0 "counter" doc.members = _ :=
    readField_nat typed.counter (by simp [members])
  have hlc : (fieldValues "hlc" doc.members).foldlM fillHLC ⟨0, 0⟩ = some doc.hlc := by
    have given : fieldValues "hlc" doc.members = [hlcJson doc.hlc] :=
      fieldValues_members (by simp [members])
    rw [given, List.foldlM_cons, fillHLC_hlcJson typed.physicalMS typed.logical]
    rfl
  have collection : readField decodeText "" "collection" doc.members = some doc.collection :=
    readField_text (by simp [members])
  have recordID : readField decodeText "" "record_id" doc.members = some doc.recordID :=
    readField_text (by simp [members])
  have kind : readField decodeText "" "kind" doc.members = some doc.kind :=
    readField_text (by simp [members])
  have keyClass : readField decodeText "" "key_class" doc.members = some doc.keyClass :=
    readField_text (by simp [members])
  have keyEpoch : readField (decodeNat 64) 0 "key_epoch" doc.members = _ :=
    readField_nat typed.keyEpoch (by simp [members])
  have payload : (fieldValues "payload" doc.members).foldlM fillBytes none = some doc.payload := by
    have given : fieldValues "payload" doc.members = [bytesJson doc.payload] :=
      fieldValues_members (by simp [members])
    rw [given, List.foldlM_cons, fillBytes_bytesJson]
    rfl
  have payloadHash : readField decodeText "" "payload_hash" doc.members = some doc.payloadHash :=
    readField_text (by simp [members])
  have causal : (fieldValues "causal_context" doc.members).foldlM fillVector none =
      some doc.causalContext := by
    have given : fieldValues "causal_context" doc.members = [vectorJson doc.causalContext] :=
      fieldValues_members (by simp [members])
    rw [given, List.foldlM_cons, fillVector_vectorJson typed.causalContext]
    rfl
  rw [json, decode, decodeMembers, known, if_neg (fun same => nomatch same), v, spaceID,
    schemaVersion, opID, actorDeviceID, actorPublicKey, counter, hlc, collection, recordID, kind,
    keyClass, keyEpoch, payload, payloadHash, causal]
  rfl

end OpDocument

namespace OpDocument

theorem json_valid (doc : OpDocument) : doc.json.Valid := by
  have text (value : String) : (Json.str value).Valid := (reads_text value).valid
  have hlc : (hlcJson doc.hlc).Valid := by
    rw [hlcJson, Json.Valid, membersValid_iff]
    simp [Json.int_valid, Json.nat_valid]
  have payload : (bytesJson doc.payload).Valid := by
    cases doc.payload with
    | none =>
      rw [bytesJson, Json.Valid.eq_def]
      trivial
    | some bytes => exact text _
  have causal : (vectorJson doc.causalContext).Valid := by
    cases doc.causalContext with
    | none =>
      rw [vectorJson, Json.Valid.eq_def]
      trivial
    | some vector =>
      rw [vectorJson, mapJson, Json.Valid, membersValid_iff, List.forall_mem_map]
      exact fun entry _ => Json.nat_valid entry.2
  rw [json, Json.Valid, membersValid_iff]
  simp [members, text, hlc, payload, causal, Json.int_valid, Json.nat_valid]

end OpDocument

/-! ### Signing and verifying -/

/-- Identifiers, digests and signatures of the packages the code imports. -/
structure OpCrypto where
  /-- `uuid.Validate` succeeds. -/
  uuidValid : String → Bool
  /-- `sha256.Sum256`. -/
  sha256 : Bytes → Bytes
  /-- `peercrypto.Identity.Sign`, from random bytes. -/
  sign : Identity → Bytes → Bytes → Option Bytes
  /-- `peercrypto.Verify` of a key, a payload and a signature. -/
  verify : Bytes → Bytes → Bytes → Bool

/-- What those packages document: the sizes of what they return, and that a signature is accepted
under the key of its signer. -/
structure OpCrypto.Lawful (C : OpCrypto) : Prop where
  uuid_size : ∀ value, C.uuidValid value = true → value.utf8ByteSize ≤ 45
  sha256_size : ∀ payload, (C.sha256 payload).length = 32
  sign_size : ∀ identity entropy payload signature,
    C.sign identity entropy payload = some signature → signature.length = 64
  verify_sign : ∀ identity entropy payload signature, identity.publicKey.length = publicKeySize →
    C.sign identity entropy payload = some signature →
      C.verify identity.publicKey payload signature = true

/-- The arguments of `SignOp`, each of its type. -/
structure SignRequest where
  spaceID : String
  counter : ℕ
  hlc : Timestamp
  causal : VersionVector
  schemaVersion : ℕ
  collection : String
  recordID : String
  kind : String
  keyClass : String
  keyEpoch : ℕ
  payload : Bytes
  counter_lt : counter < 2 ^ 64
  physicalMS_range : -2 ^ 63 ≤ hlc.physicalMS ∧ hlc.physicalMS ≤ 2 ^ 63 - 1
  logical_lt : hlc.logical < 2 ^ 32
  causal_lt : ∀ entry ∈ causal.toList, entry.2 < 2 ^ 64
  schemaVersion_lt : schemaVersion < 2 ^ 32
  keyEpoch_lt : keyEpoch < 2 ^ 64

/-- An operation read from its token. -/
structure VerifiedText where
  token : String
  document : OpDocument
  publicKey : Bytes
  payloadID : Bytes
deriving DecidableEq

def opTokenPrefix : String := "aco1"

/-- `peercrypto.SignatureSize`. -/
def signatureSize : ℕ := 64

/-- `append([]byte(nil), payload...)`. -/
def appendNil (payload : Bytes) : Option Bytes := if payload = [] then none else some payload

def validPeerID (value : String) : Bool :=
  match Base64.decodeStrict value with
  | none => false
  | some decoded => decoded.length == 32 && Base64.encode decoded == value

def decodeSized (value : String) (size : ℕ) (field : String) : Except SyncError Bytes :=
  match Base64.decodeStrict value with
  | none => .error (.invalidOp field)
  | some decoded =>
    if decoded.length ≠ size ∨ Base64.encode decoded ≠ value then .error (.invalidOp field)
    else .ok decoded

def opToken (raw signature : Bytes) : String :=
  opTokenPrefix ++ "." ++ Base64.encode raw ++ "." ++ Base64.encode signature

def readDocument (raw : Bytes) : Except SyncError OpDocument :=
  match readValue (raw.length + 1) (decodeRunes raw.length raw) with
  | none => .error (.invalidOp "payload JSON")
  | some (value, rest) =>
    match OpDocument.decode value with
    | none => .error (.invalidOp "payload JSON")
    | some doc =>
      if skipSpace rest ≠ [] then .error (.invalidOp "trailing payload")
      else if doc.bytes ≠ raw then .error (.invalidOp "non-canonical payload")
      else .ok doc

namespace OpCrypto

variable (C : OpCrypto)

def peerID (publicKey : Bytes) : String := Base64.encode (C.sha256 publicKey)

def payloadHash (payload : Bytes) : String := Base64.encode (C.sha256 payload)

def validateOp (doc : OpDocument) (publicKey : Bytes) : Except SyncError Unit :=
  if doc.v ≠ opVersion ∨ C.uuidValid doc.spaceID = false ∨ doc.schemaVersion = 0 ∨ doc.counter = 0 then
    .error (.invalidOp "version, space, schema, or counter")
  else if doc.hlc.physicalMS ≤ 0 then
    .error (.invalidOp "HLC")
  else if C.peerID publicKey ≠ doc.actorDeviceID ∨ validPeerID doc.actorDeviceID = false then
    .error (.invalidOp "actor identity")
  else if doc.opID ≠ opIDFor doc.actorDeviceID doc.counter then
    .error (.invalidOp "operation id")
  else if validName doc.collection 64 = false ∨ validRecordID doc.recordID = false then
    .error (.invalidOp "collection or record id")
  else if doc.kind ≠ "set" ∧ doc.kind ≠ "delete" then
    .error (.invalidOp "mutation kind")
  else if validKeyClass doc.keyClass = false ∨ doc.keyEpoch = 0 then
    .error (.invalidOp "key class or epoch")
  else if maxPayloadBytes < (doc.payload.getD []).length ∨
      doc.kind = "delete" ∧ doc.payload.getD [] ≠ [] then
    .error (.invalidOp "payload")
  else if doc.payloadHash ≠ C.payloadHash (doc.payload.getD []) then
    .error (.invalidOp "payload hash")
  else if maxCausalActors < (doc.causalContext.getD ∅).size then
    .error (.invalidOp "causal context size")
  else if doc.causalContext = none then
    .error (.invalidOp "missing causal context")
  else if ((doc.causalContext.getD ∅).toList.all fun entry =>
      validPeerID entry.1 && entry.2 != 0) = false then
    .error (.invalidOp "causal context")
  else if (doc.causalContext.getD ∅).get doc.actorDeviceID ≠ doc.counter - 1 then
    .error (.invalidOp "actor counter continuity")
  else .ok ()

def opDocument (identity : Identity) (request : SignRequest) : OpDocument where
  v := opVersion
  spaceID := request.spaceID
  schemaVersion := request.schemaVersion
  opID := opIDFor (C.peerID identity.publicKey) request.counter
  actorDeviceID := C.peerID identity.publicKey
  actorPublicKey := Base64.encode identity.publicKey
  counter := request.counter
  hlc := request.hlc
  collection := request.collection
  recordID := request.recordID
  kind := request.kind
  keyClass := request.keyClass
  keyEpoch := request.keyEpoch
  payload := appendNil request.payload
  payloadHash := C.payloadHash request.payload
  causalContext := some request.causal.clone

/-- Create an immutable signed operation token. -/
def signOp (identity : Identity) (entropy : Entropy) (request : SignRequest) :
    Except SyncError String :=
  C.validateOp (C.opDocument identity request) identity.publicKey >>= fun _ =>
    match C.sign identity entropy.signature (C.opDocument identity request).bytes with
    | none => .error .signing
    | some signature => .ok (opToken (C.opDocument identity request).bytes signature)

/-- Parse a token strictly and verify its signature over the exact bytes it carries. -/
def verifyOp (token : String) : Except SyncError VerifiedText :=
  if token.utf8ByteSize = 0 ∨ maxOpTokenBytes < token.utf8ByteSize then
    .error (.invalidOp "token size")
  else match token.toList.splitOn '.' with
    | [tag, payload, signature] =>
      if String.ofList tag ≠ opTokenPrefix then .error (.invalidOp "token prefix")
      else match Base64.decodeStrict (String.ofList payload) with
        | none => .error (.invalidOp "payload encoding")
        | some raw =>
          decodeSized (String.ofList signature) signatureSize "signature" >>= fun signature =>
          readDocument raw >>= fun doc =>
          decodeSized doc.actorPublicKey publicKeySize "actor public key" >>= fun publicKey =>
          C.validateOp doc publicKey >>= fun _ =>
            if C.verify publicKey raw signature = false then .error (.invalidOp "signature")
            else .ok
              { token := token
                document :=
                  { doc with
                    payload := appendNil (doc.payload.getD [])
                    causalContext := some (doc.causalContext.getD ∅).clone }
                publicKey := publicKey
                payloadID := C.sha256 raw }
    | _ => .error (.invalidOp "token prefix")

end OpCrypto

/-! ### What was encoded is decoded -/

theorem decodeSized_encode {decoded : Bytes} {size : ℕ} (length : decoded.length = size)
    (field : String) : decodeSized (Base64.encode decoded) size field = .ok decoded := by
  rw [decodeSized, Base64.decodeStrict_encode]
  exact if_neg (fun wrong => wrong.elim (fun other => other length) (fun other => other rfl))

theorem readDocument_bytes {doc : OpDocument} (typed : doc.Typed) :
    readDocument doc.bytes = .ok doc := by
  rw [readDocument, OpDocument.bytes, Json.readValue_bytes doc.json doc.json_valid]
  show (match OpDocument.decode doc.json with | none => _ | some doc => _) = _
  rw [OpDocument.decode_json typed]
  refine (if_neg ?_).trans (if_neg ?_)
  · exact fun left => left rfl
  · exact fun other => other rfl

theorem validPeerID_encode {digest : Bytes} (length : digest.length = 32) :
    validPeerID (Base64.encode digest) = true := by
  rw [validPeerID, Base64.decodeStrict_encode]
  simp [length]

theorem validPeerID_size {value : String} (valid : validPeerID value = true) :
    value.utf8ByteSize = 43 := by
  rw [validPeerID] at valid
  split at valid
  · cases valid
  · rename_i decoded _
    rw [Bool.and_eq_true, beq_iff_eq, beq_iff_eq] at valid
    rw [← valid.2, encode_size, valid.1]

/-! ### The length of a token -/

/-- What `validateOp` bounds of a document. -/
structure OpValid (C : OpCrypto) (doc : OpDocument) : Prop where
  v : doc.v = opVersion
  space : C.uuidValid doc.spaceID = true
  physicalMS : 0 < doc.hlc.physicalMS
  peer : validPeerID doc.actorDeviceID = true
  opID : doc.opID = opIDFor doc.actorDeviceID doc.counter
  collection : doc.collection.utf8ByteSize ≤ 64
  recordID : doc.recordID.utf8ByteSize ≤ 256
  kind : doc.kind = "set" ∨ doc.kind = "delete"
  keyClass : doc.keyClass = "sync" ∨ doc.keyClass = "vault"
  payload : (doc.payload.getD []).length ≤ maxPayloadBytes
  payloadHash : doc.payloadHash = C.payloadHash (doc.payload.getD [])
  contextSize : (doc.causalContext.getD ∅).size ≤ maxCausalActors
  context : ∀ entry ∈ (doc.causalContext.getD ∅).toList, validPeerID entry.1 = true

theorem OpCrypto.validateOp_ok {C : OpCrypto} {doc : OpDocument} {publicKey : Bytes}
    (valid : C.validateOp doc publicKey = .ok ()) : OpValid C doc := by
  unfold validateOp at valid
  obtain ⟨header, valid⟩ := guard_ok valid
  obtain ⟨hlc, valid⟩ := guard_ok valid
  obtain ⟨actor, valid⟩ := guard_ok valid
  obtain ⟨opID, valid⟩ := guard_ok valid
  obtain ⟨names, valid⟩ := guard_ok valid
  obtain ⟨kind, valid⟩ := guard_ok valid
  obtain ⟨keyClass, valid⟩ := guard_ok valid
  obtain ⟨payload, valid⟩ := guard_ok valid
  obtain ⟨hash, valid⟩ := guard_ok valid
  obtain ⟨size, valid⟩ := guard_ok valid
  obtain ⟨missing, valid⟩ := guard_ok valid
  obtain ⟨context, valid⟩ := guard_ok valid
  push Not at header actor opID names kind keyClass payload hash
  rw [Bool.not_eq_false, List.all_eq_true] at context
  simp only [ne_eq, Bool.not_eq_false, validName, validRecordID, Bool.and_eq_true,
    decide_eq_true_eq] at names
  simp only [ne_eq, Bool.not_eq_false, validKeyClass, Bool.or_eq_true, beq_iff_eq] at keyClass
  refine ⟨header.1, by simpa using header.2.1, not_le.mp hlc, by simpa using actor.2, opID,
    names.1.1.2, names.2.2, ?_, keyClass.1, payload.1, hash, not_lt.mp size, fun entry member => ?_⟩
  · by_cases set : doc.kind = "set"
    · exact Or.inl set
    · exact Or.inr (kind set)
  · exact (Bool.and_eq_true _ _ ▸ context entry member).1

namespace OpDocument

def valueSizes (doc : OpDocument) : List ℕ :=
  doc.members.map fun member => String.utf8Len member.2.text

theorem size_le_values (doc : OpDocument) : doc.bytes.length ≤ doc.valueSizes.sum + 322 := by
  have names : ∀ name ∈ fields, String.utf8Len (quotedText name) ≤ 18 := by decide
  have each : ∀ member ∈ doc.members, memberSize member ≤ 20 + String.utf8Len member.2.text := by
    intro member inside
    have listed : member.1 ∈ fields := List.mem_map_of_mem (f := Prod.fst) inside
    have short := names member.1 listed
    rw [memberSize]
    omega
  have total := List.sum_le_sum each
  have split : (doc.members.map fun member => 20 + String.utf8Len member.2.text).sum =
      320 + doc.valueSizes.sum := by
    have count : doc.members.length = 16 := rfl
    rw [List.sum_map_add, List.map_const', List.sum_replicate, count, smul_eq_mul, valueSizes]
  have whole := obj_size doc.members
  rw [bytes, Json.bytes_length, json]
  omega

variable {doc : OpDocument} {C : OpCrypto}

theorem str_size {text : String} {bytes : ℕ} (short : text.utf8ByteSize ≤ bytes) :
    String.utf8Len (Json.str text).text ≤ 6 * bytes + 2 := by
  have quoted := quotedText_size text
  rw [Json.text]
  omega

theorem opIDFor_size {actor : String} {counter : ℕ} (size : actor.utf8ByteSize = 43)
    (below : counter < 2 ^ 64) : (opIDFor actor counter).utf8ByteSize ≤ 64 := by
  have digits : (toString counter).utf8ByteSize ≤ 20 := by
    have literal := natLiteral_size_of_uint64 below
    rwa [Json.nat, Json.text, natLiteral, ← String.utf8ByteSize_ofList] at literal
  have colon : (":" : String).utf8ByteSize = 1 := rfl
  rw [opIDFor, String.utf8ByteSize_append, String.utf8ByteSize_append]
  omega

theorem hlcJson_size {hlc : Timestamp} (positive : 0 < hlc.physicalMS)
    (below : hlc.physicalMS ≤ 2 ^ 63 - 1) (logical : hlc.logical < 2 ^ 32) :
    String.utf8Len (hlcJson hlc).text ≤ 70 := by
  obtain ⟨physical, whole⟩ := Int.eq_ofNat_of_zero_le positive.le
  have first : String.utf8Len (Json.int hlc.physicalMS).text ≤ 20 := by
    rw [whole]
    exact natLiteral_size_of_uint64 (by omega)
  have second : String.utf8Len (Json.nat hlc.logical).text ≤ 20 :=
    natLiteral_size_of_uint64 (lt_trans logical (by decide))
  have names : String.utf8Len (quotedText "physical_ms") = 13 ∧
      String.utf8Len (quotedText "logical") = 9 := by decide
  have total := obj_size [("physical_ms", .int hlc.physicalMS), ("logical", .nat hlc.logical)]
  simp only [List.map_cons, List.map_nil, List.sum_cons, List.sum_nil, memberSize, names] at total
  rw [hlcJson]
  omega

theorem bytesJson_size (payload : Option Bytes) :
    String.utf8Len (bytesJson payload).text ≤ ((payload.getD []).length + 2) / 3 * 4 + 4 := by
  cases payload with
  | none => exact le_add_self
  | some bytes =>
    show String.utf8Len (quotedText (Base64.encodeStd bytes)) ≤ (bytes.length + 2) / 3 * 4 + 4
    rw [quoted_encodeStd_size]
    omega

theorem vectorJson_size {vector : Option VersionVector}
    (keys : ∀ entry ∈ (vector.getD ∅).toList, validPeerID entry.1 = true)
    (counters : ∀ inner ∈ vector, ∀ entry ∈ inner.toList, entry.2 < 2 ^ 64) :
    String.utf8Len (vectorJson vector).text ≤ (vector.getD ∅).size * 282 + 4 := by
  cases vector with
  | none => exact le_add_self
  | some inner =>
    have keySizes : ∀ entry ∈ inner.toList, entry.1.utf8ByteSize ≤ 43 := fun entry inside =>
      (validPeerID_size (keys entry inside)).le
    have size := mapJson_size keySizes (counters inner rfl)
    exact le_trans size (Nat.add_le_add_left (by decide) _)

/-- **A validated document is short**, with the largest payload and the largest causal context. -/
theorem size_le (lawful : C.Lawful) (typed : doc.Typed) (valid : OpValid C doc)
    {publicKey : Bytes} (key : doc.actorPublicKey = Base64.encode publicKey)
    (whole : publicKey.length = publicKeySize) : doc.bytes.length ≤ 786000 := by
  have peer := validPeerID_size valid.peer
  have keySize : doc.actorPublicKey.utf8ByteSize ≤ 87 := by
    rw [key, encode_size, whole]
    decide
  have hashSize : doc.payloadHash.utf8ByteSize ≤ 43 := by
    rw [valid.payloadHash, OpCrypto.payloadHash, encode_size, lawful.sha256_size]
  have v : String.utf8Len (Json.int doc.v).text ≤ 1 := by
    rw [valid.v]
    decide
  have kind : doc.kind.utf8ByteSize ≤ 6 := by
    rcases valid.kind with same | same <;> rw [same] <;> decide
  have keyClass : doc.keyClass.utf8ByteSize ≤ 5 := by
    rcases valid.keyClass with same | same <;> rw [same] <;> decide
  have opID : doc.opID.utf8ByteSize ≤ 64 := by
    rw [valid.opID]
    exact opIDFor_size peer typed.counter
  have space := str_size (lawful.uuid_size _ valid.space)
  have schema := natLiteral_size_of_uint64 (lt_trans typed.schemaVersion (by decide))
  have op := str_size opID
  have actor := str_size peer.le
  have publicKeyText := str_size keySize
  have counter := natLiteral_size_of_uint64 typed.counter
  have hlc := hlcJson_size valid.physicalMS typed.physicalMS.2 typed.logical
  have collection := str_size valid.collection
  have recordID := str_size valid.recordID
  have kindText := str_size kind
  have keyClassText := str_size keyClass
  have epoch := natLiteral_size_of_uint64 typed.keyEpoch
  have payload := bytesJson_size doc.payload
  have payloadLength := valid.payload
  have hash := str_size hashSize
  have causal := vectorJson_size valid.context typed.causalContext
  have actors := valid.contextSize
  have total := doc.size_le_values
  simp only [valueSizes, members, List.map_cons, List.map_nil, List.sum_cons, List.sum_nil] at total
  simp only [maxPayloadBytes, maxCausalActors] at payloadLength actors
  omega

end OpDocument

theorem opToken_size (raw signature : Bytes) : (opToken raw signature).utf8ByteSize =
    (4 * raw.length + 2) / 3 + (4 * signature.length + 2) / 3 + 6 := by
  have dot : (".").utf8ByteSize = 1 := rfl
  have tag : opTokenPrefix.utf8ByteSize = 4 := rfl
  rw [opToken]
  simp only [String.utf8ByteSize_append, encode_size]
  omega

/-! ### What was signed is accepted -/

section

variable {C : OpCrypto}

theorem OpCrypto.verifyOp_opToken {doc : OpDocument} {publicKey signature : Bytes}
    (typed : doc.Typed) (key : doc.actorPublicKey = Base64.encode publicKey)
    (whole : publicKey.length = publicKeySize) (length : signature.length = signatureSize)
    (short : (opToken doc.bytes signature).utf8ByteSize ≤ maxOpTokenBytes) :
    C.verifyOp (opToken doc.bytes signature) =
      C.validateOp doc publicKey >>= fun _ =>
        if C.verify publicKey doc.bytes signature = false then .error (.invalidOp "signature")
        else .ok
          { token := opToken doc.bytes signature
            document :=
              { doc with
                payload := appendNil (doc.payload.getD [])
                causalContext := some (doc.causalContext.getD ∅).clone }
            publicKey := publicKey
            payloadID := C.sha256 doc.bytes } := by
  have fits : ¬ ((opToken doc.bytes signature).utf8ByteSize = 0 ∨
      maxOpTokenBytes < (opToken doc.bytes signature).utf8ByteSize) := by
    rw [opToken_size] at short ⊢
    omega
  have parts : (opToken doc.bytes signature).toList.splitOn '.' = _ :=
    Base64.splitOn_dotted doc.bytes signature (by decide)
  have same : String.ofList opTokenPrefix.toList = opTokenPrefix := String.ofList_toList
  rw [verifyOp, if_neg fits, parts]
  simp only [String.ofList_toList, Base64.decodeStrict_encode]
  rw [if_neg (fun other => other rfl), decodeSized_encode length]
  show (readDocument doc.bytes >>= _) = _
  rw [readDocument_bytes typed]
  show (decodeSized doc.actorPublicKey publicKeySize "actor public key" >>= _) = _
  rw [key, decodeSized_encode whole]
  rfl

theorem appendNil_getD (payload : Bytes) : (appendNil payload).getD [] = payload := by
  by_cases empty : payload = []
  · subst empty
    rfl
  · rw [appendNil, if_neg empty, Option.getD_some]

theorem clone_clone (vector : VersionVector) : vector.clone.clone = vector.clone := by
  refine ExtTreeMap.ext_getElem? fun actor => ?_
  rw [VersionVector.getElem?_clone, VersionVector.getElem?_clone, VersionVector.get_clone]

theorem typed_opDocument (identity : Identity) (request : SignRequest) :
    (C.opDocument identity request).Typed where
  v := by
    show -2 ^ 63 ≤ opVersion ∧ opVersion ≤ 2 ^ 63 - 1
    decide
  schemaVersion := request.schemaVersion_lt
  counter := request.counter_lt
  physicalMS := request.physicalMS_range
  logical := request.logical_lt
  keyEpoch := request.keyEpoch_lt
  causalContext := by
    rintro vector ⟨⟩ entry inside
    rw [ExtTreeMap.mem_toList_iff_getElem?_eq_some, VersionVector.getElem?_clone] at inside
    split_ifs at inside with zero
    cases held : request.causal[entry.1]? with
    | none =>
      rw [VersionVector.get_eq_getD, held] at zero
      exact absurd rfl zero
    | some counter =>
      rw [VersionVector.get_eq_getD, held, Option.getD_some] at inside
      have below := request.causal_lt (entry.1, counter)
        (ExtTreeMap.mem_toList_iff_getElem?_eq_some.mpr held)
      rwa [Option.some.inj inside] at below

/-- **Signed operations verify**: the token of every operation that the signer accepts has an admitted
length, and is read as the document that was asked for, under the key of its signer. -/
theorem signOp_verifies (lawful : C.Lawful) {identity : Identity}
    (whole : identity.publicKey.length = publicKeySize) {entropy : Entropy} {request : SignRequest}
    {token : String} (created : C.signOp identity entropy request = .ok token) :
    token.utf8ByteSize ≤ maxOpTokenBytes ∧
      ∃ op, C.verifyOp token = .ok op ∧ op.token = token ∧
        op.document = C.opDocument identity request ∧ op.publicKey = identity.publicKey := by
  obtain ⟨_, valid, signed⟩ := bind_ok created
  cases made : C.sign identity entropy.signature (C.opDocument identity request).bytes with
  | none =>
    rw [made] at signed
    cases signed
  | some signature =>
    rw [made] at signed
    cases signed
    have length := lawful.sign_size _ _ _ _ made
    have typed : (C.opDocument identity request).Typed := typed_opDocument identity request
    have short : (opToken (C.opDocument identity request).bytes signature).utf8ByteSize ≤
        maxOpTokenBytes := by
      have size := OpDocument.size_le lawful typed (OpCrypto.validateOp_ok valid) rfl whole
      rw [opToken_size, length, maxOpTokenBytes]
      omega
    have accepted := OpCrypto.verifyOp_opToken (C := C) typed rfl whole length short
    rw [valid] at accepted
    have document : { C.opDocument identity request with
        payload := appendNil ((C.opDocument identity request).payload.getD [])
        causalContext := some ((C.opDocument identity request).causalContext.getD ∅).clone } =
          C.opDocument identity request := by
      have payload := congrArg appendNil (appendNil_getD request.payload)
      have causal := congrArg some (clone_clone request.causal)
      simp only [OpCrypto.opDocument, payload, Option.getD_some, causal]
    refine ⟨short, _, accepted.trans (if_neg ?_), rfl, document, rfl⟩
    rw [lawful.verify_sign _ _ _ _ whole made]
    exact fun refused => nomatch refused

end

/-- A digest is the front of what was hashed, and one signature holds for everything. -/
def OpCrypto.plain : OpCrypto where
  uuidValid value := value == "8a2f1c34-5b6d-4e7f-9a0b-1c2d3e4f5a6b"
  sha256 payload := (payload ++ List.replicate 32 0).take 32
  sign _ _ _ := some (List.replicate 64 1)
  verify _ _ signature := signature == List.replicate 64 1

theorem OpCrypto.lawful_plain : OpCrypto.plain.Lawful where
  uuid_size value valid := by
    rw [beq_iff_eq.mp valid]
    decide
  sha256_size payload := by
    show ((payload ++ List.replicate 32 0).take 32).length = 32
    rw [List.length_take, List.length_append, List.length_replicate]
    omega
  sign_size identity entropy payload signature made := by
    rw [← Option.some.inj made]
    rfl
  verify_sign identity entropy payload signature _ made := by
    rw [← Option.some.inj made]
    rfl

def SignRequest.plain : SignRequest where
  spaceID := "8a2f1c34-5b6d-4e7f-9a0b-1c2d3e4f5a6b"
  counter := 1
  hlc := ⟨1700000000000, 0⟩
  causal := ∅
  schemaVersion := 1
  collection := "hosts"
  recordID := "build <1>"
  kind := "set"
  keyClass := "sync"
  keyEpoch := 1
  payload := [7, 0, 255]
  counter_lt := by decide
  physicalMS_range := by decide
  logical_lt := by decide
  causal_lt := by
    intro entry inside
    rw [ExtTreeMap.mem_toList_iff_getElem?_eq_some, ExtTreeMap.getElem?_empty] at inside
    cases inside
  schemaVersion_lt := by decide
  keyEpoch_lt := by decide

theorem signOp_verifies_plain :
    ∃ token, OpCrypto.plain.signOp (Identity.plain 4) ⟨[], [], ""⟩ SignRequest.plain = .ok token ∧
      token.utf8ByteSize ≤ maxOpTokenBytes ∧
      ∃ op, OpCrypto.plain.verifyOp token = .ok op ∧ op.token = token ∧
        op.document = OpCrypto.plain.opDocument (Identity.plain 4) SignRequest.plain ∧
        op.publicKey = (Identity.plain 4).publicKey := by
  have created : OpCrypto.plain.signOp (Identity.plain 4) ⟨[], [], ""⟩ SignRequest.plain =
      .ok (opToken (OpCrypto.plain.opDocument (Identity.plain 4) SignRequest.plain).bytes
        (List.replicate 64 1)) := by
    have valid : OpCrypto.plain.validateOp
        (OpCrypto.plain.opDocument (Identity.plain 4) SignRequest.plain)
        (Identity.plain 4).publicKey = .ok () := by decide +kernel
    rw [OpCrypto.signOp, valid]
    rfl
  exact ⟨_, created, signOp_verifies OpCrypto.lawful_plain rfl created⟩

/-! ### Texts refine tokens -/

def document (doc : SyncOp) : OpDocument where
  v := doc.v
  spaceID := doc.spaceID
  schemaVersion := doc.schemaVersion
  opID := doc.opID
  actorDeviceID := doc.actorDeviceID
  actorPublicKey := Base64.encode doc.actorPublicKey
  counter := doc.counter
  hlc := doc.hlc
  collection := doc.collection
  recordID := doc.recordID
  kind := Kind.text doc.kind
  keyClass := KeyClass.text doc.keyClass
  keyEpoch := doc.keyEpoch
  payload := appendNil doc.payload
  payloadHash := doc.payloadHash
  causalContext := some doc.causalContext

namespace OpCrypto

variable (C : OpCrypto) (rest : Primitives)

/-- The primitives on documents that the texts give. -/
def primitives : Primitives :=
  { rest with
    peerID := C.peerID
    uuidValid := C.uuidValid
    validPeerID := validPeerID
    payloadHash := C.payloadHash
    opDigest := fun doc => C.sha256 (document doc).bytes
    opTokenBytes := fun token =>
      match token with
      | .malformed what => rest.opTokenBytes (.malformed what)
      | .signed doc signature => (opToken (document doc).bytes signature).utf8ByteSize
    opSign := fun identity entropy doc => C.sign identity entropy (document doc).bytes
    opVerify := fun publicKey doc signature => C.verify publicKey (document doc).bytes signature }

theorem validateOp_document (doc : SyncOp) (publicKey : Bytes) :
    C.validateOp (document doc) publicKey = (C.primitives rest).validateOp doc publicKey := by
  have payload := appendNil_getD doc.payload
  have kind : ¬ ((document doc).kind ≠ "set" ∧ (document doc).kind ≠ "delete") := by
    cases named : doc.kind <;> simp [document, Kind.text, named]
  have delete : (document doc).kind = "delete" ↔ doc.kind = .delete := by
    cases named : doc.kind <;> simp [document, Kind.text, named]
  have keyClass : validKeyClass (document doc).keyClass = true := by
    cases named : doc.keyClass <;> simp [document, KeyClass.text, named, validKeyClass]
  rw [validateOp, Primitives.validateOp, if_neg kind]
  simp only [delete, keyClass, Bool.true_eq_false, false_or]
  simp only [document, payload, Option.getD_some, reduceCtorEq, if_false]
  rfl

/-- The arguments of the signer for a mutation of `Op`. -/
structure Asks (request : SignRequest) (mutation : Mutation) : Prop where
  schemaVersion : request.schemaVersion = mutation.schemaVersion
  collection : request.collection = mutation.collection
  recordID : request.recordID = mutation.recordID
  kind : request.kind = Kind.text mutation.kind
  keyClass : request.keyClass = KeyClass.text mutation.keyClass
  keyEpoch : request.keyEpoch = mutation.keyEpoch
  payload : request.payload = mutation.payload

/-- The text of a signed document; the signer makes no other token. -/
def tokenText : OpToken → String
  | .malformed _ => ""
  | .signed doc signature => opToken (document doc).bytes signature

/-- The document that the signer of `Op` makes of a mutation. -/
def syncOp (identity : Identity) (request : SignRequest) (mutation : Mutation) : SyncOp where
  v := opVersion
  spaceID := request.spaceID
  schemaVersion := mutation.schemaVersion
  opID := opIDFor (C.peerID identity.publicKey) request.counter
  actorDeviceID := C.peerID identity.publicKey
  actorPublicKey := identity.publicKey
  counter := request.counter
  hlc := request.hlc
  collection := mutation.collection
  recordID := mutation.recordID
  kind := mutation.kind
  keyClass := mutation.keyClass
  keyEpoch := mutation.keyEpoch
  payload := mutation.payload
  payloadHash := C.payloadHash mutation.payload
  causalContext := request.causal.clone

/-- **A token is signed as its text is.** -/
theorem signOp_text {identity : Identity} {entropy : Entropy} {request : SignRequest}
    {mutation : Mutation} (asks : Asks request mutation) :
    C.signOp identity entropy request =
      ((C.primitives rest).signOp identity entropy request.spaceID request.counter request.hlc
        request.causal mutation).map tokenText := by
  obtain ⟨schemaVersion, collection, recordID, kind, keyClass, keyEpoch, payload⟩ := asks
  have same : C.opDocument identity request = document (C.syncOp identity request mutation) := by
    simp only [opDocument, document, syncOp, schemaVersion, collection, recordID, kind, keyClass,
      keyEpoch, payload]
  have made : (C.primitives rest).signOp identity entropy request.spaceID request.counter request.hlc
      request.causal mutation =
        (C.primitives rest).validateOp (C.syncOp identity request mutation) identity.publicKey >>=
          fun _ => match C.sign identity entropy.signature
            (document (C.syncOp identity request mutation)).bytes with
          | none => .error .signing
          | some signature => .ok (.signed (C.syncOp identity request mutation) signature) := rfl
  rw [signOp, same, validateOp_document C rest, made]
  cases (C.primitives rest).validateOp (C.syncOp identity request mutation) identity.publicKey with
  | error wrong => rfl
  | ok _ =>
    show (match C.sign _ _ _ with | none => _ | some _ => _) =
      Except.map tokenText (match C.sign _ _ _ with | none => _ | some _ => _)
    cases C.sign identity entropy.signature
      (document (C.syncOp identity request mutation)).bytes with
    | none => rfl
    | some signature => rfl

/-- What the first operation of a device asks for. -/
def firstMutation : Mutation := ⟨1, "hosts", "build <1>", .set, .sync, 1, [7, 0, 255]⟩

theorem signOp_text_plain :
    plain.signOp (Identity.plain 4) ⟨[], [], ""⟩ SignRequest.plain =
      ((plain.primitives .plain).signOp (Identity.plain 4) ⟨[], [], ""⟩ SignRequest.plain.spaceID 1
        SignRequest.plain.hlc ∅ firstMutation).map tokenText :=
  signOp_text plain .plain ⟨rfl, rfl, rfl, rfl, rfl, rfl, rfl⟩

end OpCrypto

end Atterm.ConfigSync.OpEncoding
