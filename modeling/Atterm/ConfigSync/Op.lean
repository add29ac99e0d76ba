/-
**Signed operations.**

An operation token is the signature of one device over one `SyncOp` document. `VerifyOp` accepts
only the canonical encoding of a document, so a token that parses is the pair of its document and
its signature; every other text is `malformed`. Hashing, signing and encryption are the fields of
`Primitives`; nothing is assumed about them.

* `opIDFor_inj` — an operation identifier names one device counter;
* `verifyOp_ok` — what an accepted token satisfies and what is read from it;
* `signOp_ok` — a created token carries the document it was asked for.
-/

import Atterm.Foundation.Guard
import Atterm.ConfigSync.Vector
import Atterm.ConfigSync.Clock

namespace Atterm.ConfigSync

open Std (ExtTreeMap)
open Atterm.Foundation (guard_ok bind_ok)

abbrev Bytes := List UInt8

/-- The ordinary configuration mutations. -/
inductive Kind where
  | set
  | delete
deriving DecidableEq, Repr

/-- Portable configuration or explicitly enabled secrets. -/
inductive KeyClass where
  | sync
  | vault
deriving DecidableEq, Repr

instance : DecidableEq VersionVector := fun first second =>
  decidable_of_iff (first.toList = second.toList) ExtTreeMap.toList_inj

/-- The unsigned application-level input of an operation. -/
structure Mutation where
  schemaVersion : Nat
  collection : String
  recordID : String
  kind : Kind
  keyClass : KeyClass
  keyEpoch : Nat
  payload : Bytes
deriving DecidableEq

/-- The immutable payload covered by a peer identity signature. -/
structure SyncOp where
  v : Int
  spaceID : String
  schemaVersion : Nat
  opID : String
  actorDeviceID : String
  actorPublicKey : Bytes
  counter : Nat
  hlc : Timestamp
  collection : String
  recordID : String
  kind : Kind
  keyClass : KeyClass
  keyEpoch : Nat
  payload : Bytes
  payloadHash : String
  causalContext : VersionVector
deriving DecidableEq

/-- An operation token: a document with its signature, or a text `VerifyOp` cannot parse, with the
part it stops at. -/
inductive OpToken where
  | malformed (what : String)
  | signed (document : SyncOp) (signature : Bytes)
deriving DecidableEq

structure Identity where
  publicKey : Bytes
deriving DecidableEq

structure EpochKey where
  keyClass : KeyClass
  epoch : Nat
  key : Bytes
  valid : Bool
deriving DecidableEq

/-- What is bound into every encrypted config value. -/
structure PayloadContext where
  spaceID : String
  collection : String
  recordID : String
  opID : String
  keyClass : KeyClass
  epoch : Nat
deriving DecidableEq

/-- A signed compaction boundary. -/
structure Snapshot where
  v : Int
  snapshotID : String
  spaceID : String
  schemaVersion : Nat
  creatorDeviceID : String
  creatorPublicKey : Bytes
  createdHLC : Timestamp
  coverVector : VersionVector
  recordOps : List OpToken
  retainedOps : List OpToken
deriving DecidableEq

/-- A snapshot token: a document with its signature, or a text `VerifySnapshot` cannot parse. -/
inductive SnapshotToken where
  | malformed (what : String)
  | signed (document : Snapshot) (signature : Bytes)
deriving DecidableEq

/-- The random bytes one local write draws. -/
structure Entropy where
  nonce : Bytes
  signature : Bytes
  /-- `uuid.NewString()`. -/
  uuid : String := ""
deriving DecidableEq

/-- Hashes, signatures, encodings and identifiers the package takes from elsewhere. -/
structure Primitives where
  /-- `peercrypto.PeerID`. -/
  peerID : Bytes → String
  /-- `uuid.Validate` succeeds. -/
  uuidValid : String → Bool
  /-- The text is the encoding of a SHA-256 digest. -/
  validPeerID : String → Bool
  /-- The encoded SHA-256 digest of a payload. -/
  payloadHash : Bytes → String
  /-- The SHA-256 digest of a document's canonical JSON. -/
  opDigest : SyncOp → Bytes
  /-- The length of an operation token. -/
  opTokenBytes : OpToken → Nat
  opSign : Identity → Bytes → SyncOp → Option Bytes
  opVerify : Bytes → SyncOp → Bytes → Bool
  configPayloadAAD : PayloadContext → Option Bytes
  aeadSeal : Bytes → Bytes → Bytes → Bytes → Bytes
  /-- The length of a snapshot token. -/
  snapshotTokenBytes : SnapshotToken → Nat
  snapshotSign : Identity → Bytes → Snapshot → Option Bytes
  snapshotVerify : Bytes → Snapshot → Bytes → Bool

def opVersion : Int := 1

def maxOpTokenBytes : Nat := 1 <<< 20

def maxPayloadBytes : Nat := 512 <<< 10

def maxCausalActors : Nat := 256

def publicKeySize : Nat := 65

/-- An operation together with the exact token it was read from. -/
structure VerifiedOp where
  token : OpToken
  document : SyncOp
  payloadID : Bytes
deriving DecidableEq

def opIDFor (actorDeviceID : String) (counter : Nat) : String :=
  actorDeviceID ++ ":" ++ toString counter

def nameCharacter (r : Char) : Bool :=
  ('a' ≤ r && r ≤ 'z') || ('0' ≤ r && r ≤ '9') || r == '_' || r == '-'

def validName (value : String) (max : Nat) : Bool :=
  value != "" && decide (value.utf8ByteSize ≤ max) && value.toList.all nameCharacter

def validRecordID (value : String) : Bool :=
  value != "" && decide (value.utf8ByteSize ≤ 256)

namespace Primitives

variable (P : Primitives)

def validSpaceID (value : String) : Bool := P.uuidValid value

/-- The checks on a document whose actor key has been decoded. -/
def validateOp (doc : SyncOp) (publicKey : Bytes) : Except SyncError Unit :=
  if doc.v ≠ opVersion ∨ P.validSpaceID doc.spaceID = false ∨ doc.schemaVersion = 0 ∨
      doc.counter = 0 then
    .error (.invalidOp "version, space, schema, or counter")
  else if doc.hlc.physicalMS ≤ 0 then
    .error (.invalidOp "HLC")
  else if P.peerID publicKey ≠ doc.actorDeviceID ∨ P.validPeerID doc.actorDeviceID = false then
    .error (.invalidOp "actor identity")
  else if doc.opID ≠ opIDFor doc.actorDeviceID doc.counter then
    .error (.invalidOp "operation id")
  else if validName doc.collection 64 = false ∨ validRecordID doc.recordID = false then
    .error (.invalidOp "collection or record id")
  else if doc.keyEpoch = 0 then
    .error (.invalidOp "key class or epoch")
  else if maxPayloadBytes < doc.payload.length ∨ doc.kind = .delete ∧ doc.payload ≠ [] then
    .error (.invalidOp "payload")
  else if doc.payloadHash ≠ P.payloadHash doc.payload then
    .error (.invalidOp "payload hash")
  else if maxCausalActors < doc.causalContext.size then
    .error (.invalidOp "causal context size")
  else if (doc.causalContext.toList.all fun entry =>
      P.validPeerID entry.1 && entry.2 != 0) = false then
    .error (.invalidOp "causal context")
  else if doc.causalContext.get doc.actorDeviceID ≠ doc.counter - 1 then
    .error (.invalidOp "actor counter continuity")
  else .ok ()

/-- Parse a token strictly and verify its signature over the exact bytes it carries. -/
def verifyOp (token : OpToken) : Except SyncError VerifiedOp :=
  if P.opTokenBytes token = 0 ∨ maxOpTokenBytes < P.opTokenBytes token then
    .error (.invalidOp "token size")
  else match token with
    | .malformed what => .error (.invalidOp what)
    | .signed doc signature =>
      if doc.actorPublicKey.length ≠ publicKeySize then
        .error (.invalidOp "actor public key")
      else
        P.validateOp doc doc.actorPublicKey >>= fun _ =>
          if P.opVerify doc.actorPublicKey doc signature = false then
            .error (.invalidOp "signature")
          else .ok
            { token := token
              document := { doc with causalContext := doc.causalContext.clone }
              payloadID := P.opDigest doc }

/-- Create an immutable signed operation token. -/
def signOp (identity : Identity) (entropy : Entropy) (spaceID : String) (counter : Nat)
    (hlc : Timestamp) (causal : VersionVector) (mutation : Mutation) : Except SyncError OpToken :=
  let doc : SyncOp :=
    { v := opVersion
      spaceID := spaceID
      schemaVersion := mutation.schemaVersion
      opID := opIDFor (P.peerID identity.publicKey) counter
      actorDeviceID := P.peerID identity.publicKey
      actorPublicKey := identity.publicKey
      counter := counter
      hlc := hlc
      collection := mutation.collection
      recordID := mutation.recordID
      kind := mutation.kind
      keyClass := mutation.keyClass
      keyEpoch := mutation.keyEpoch
      payload := mutation.payload
      payloadHash := P.payloadHash mutation.payload
      causalContext := causal.clone }
  P.validateOp doc identity.publicKey >>= fun _ =>
    match P.opSign identity entropy.signature doc with
    | none => .error .signing
    | some signature => .ok (.signed doc signature)

/-! ### Sealed payloads -/

/-- `e2eecrypto.EnvelopePrefixSize`: the cipher byte and the nonce. -/
def envelopePrefixSize : Nat := 25

def aeadOverhead : Nat := 16

/-- `e2eecrypto.CipherXChaCha20Poly1305`. -/
def cipherXChaCha20Poly1305 : UInt8 := 1

/-- Encrypt a config value under the exact operation context. -/
def sealConfigPayload (key : EpochKey) (entropy : Entropy) (context : PayloadContext)
    (plaintext : Bytes) : Except SyncError Bytes :=
  if key.valid = false ∨ key.keyClass ≠ context.keyClass ∨ key.epoch ≠ context.epoch then
    .error (.invalidEpochKey "")
  else match P.configPayloadAAD context with
    | none => .error (.invalidEpochKey "")
    | some aad =>
      if maxPayloadBytes - envelopePrefixSize - aeadOverhead < plaintext.length then
        .error (.invalidEpochKey "payload size")
      else .ok (cipherXChaCha20Poly1305 :: entropy.nonce ++
        P.aeadSeal key.key entropy.nonce plaintext aad)

/-- Seal the payload under the epoch key, then sign. Deletes carry no ciphertext. -/
def signEncryptedOp (identity : Identity) (entropy : Entropy) (spaceID : String) (counter : Nat)
    (hlc : Timestamp) (causal : VersionVector) (key : EpochKey) (mutation : Mutation) :
    Except SyncError OpToken :=
  if key.valid = false then .error (.invalidEpochKey "")
  else
    let mutation := { mutation with keyClass := key.keyClass, keyEpoch := key.epoch }
    match mutation.kind with
    | .delete =>
      P.signOp identity entropy spaceID counter hlc causal { mutation with payload := [] }
    | .set =>
      let context : PayloadContext :=
        { spaceID := spaceID, collection := mutation.collection, recordID := mutation.recordID
          opID := opIDFor (P.peerID identity.publicKey) counter
          keyClass := key.keyClass, epoch := key.epoch }
      P.sealConfigPayload key entropy context mutation.payload >>= fun envelope =>
        P.signOp identity entropy spaceID counter hlc causal
          { mutation with payload := envelope }

end Primitives

/-- Transparent primitives for concrete runs: the first byte of a key names its device, a digest is
what tells two documents of a device apart, and every signature holds. -/
def Primitives.plain : Primitives where
  peerID key := String.singleton (Char.ofNat (96 + (key.headD 0).toNat))
  uuidValid value := value != ""
  validPeerID value := value != ""
  payloadHash payload := toString payload.length
  opDigest doc := [UInt8.ofNat doc.counter, UInt8.ofNat doc.payload.length]
  opTokenBytes _ := 1000
  opSign _ _ _ := some []
  opVerify _ _ _ := true
  configPayloadAAD _ := some []
  aeadSeal _ _ plaintext _ := plaintext ++ List.replicate 16 0
  snapshotTokenBytes _ := 2000
  snapshotSign _ _ _ := some []
  snapshotVerify _ _ _ := true

/-- The identity of a device of the transparent primitives. -/
def Identity.plain (device : UInt8) : Identity := ⟨List.replicate publicKeySize device⟩

/-- A document of the transparent primitives, written to the collection `hosts`. -/
def SyncOp.plain (device : UInt8) (counter : Nat) (hlc : Timestamp) (recordID : String)
    (kind : Kind) (causalContext : VersionVector) : SyncOp where
  v := opVersion
  spaceID := "space"
  schemaVersion := 1
  opID := opIDFor (Primitives.plain.peerID (Identity.plain device).publicKey) counter
  actorDeviceID := Primitives.plain.peerID (Identity.plain device).publicKey
  actorPublicKey := (Identity.plain device).publicKey
  counter := counter
  hlc := hlc
  collection := "hosts"
  recordID := recordID
  kind := kind
  keyClass := .sync
  keyEpoch := 1
  payload := []
  payloadHash := Primitives.plain.payloadHash []
  causalContext := causalContext

def Snapshot.plain (device : UInt8) (createdHLC : Timestamp) (coverVector : VersionVector)
    (recordOps : List SyncOp) : Snapshot where
  v := 1
  snapshotID := "snapshot"
  spaceID := "space"
  schemaVersion := 1
  creatorDeviceID := Primitives.plain.peerID (Identity.plain device).publicKey
  creatorPublicKey := (Identity.plain device).publicKey
  createdHLC := createdHLC
  coverVector := coverVector
  recordOps := recordOps.map fun doc => .signed doc []
  retainedOps := []

/-! ### Operation identifiers -/

theorem colon_not_mem_toString (counter : Nat) : ':' ∉ (toString counter).toList := by
  intro member
  rw [Nat.toString_eq_repr, Nat.repr, String.toList_ofList] at member
  have digit := Nat.isDigit_of_mem_toDigits (by norm_num) (by norm_num) member
  exact absurd digit (by decide)

theorem append_colon_inj {first second left right : List Char} (leftPlain : ':' ∉ left)
    (rightPlain : ':' ∉ right) (same : (first ++ [':']) ++ left = (second ++ [':']) ++ right) :
    first = second ∧ left = right := by
  have oneSided : ∀ {first second left right extra : List Char}, ':' ∉ left →
      second ++ [':'] = (first ++ [':']) ++ extra → left = extra ++ right →
      first = second ∧ left = right := by
    intro first second left right extra plain longer rest
    rcases List.eq_nil_or_concat extra with rfl | ⟨front, last, rfl⟩
    · rw [List.append_nil] at longer
      exact ⟨(List.append_inj' longer rfl).1.symm, by simpa using rest⟩
    · rw [List.concat_eq_append, ← List.append_assoc] at longer
      have colon : [':'] = [last] := (List.append_inj' longer rfl).2
      refine absurd ?_ plain
      rw [rest, ← List.singleton_inj.mp colon]
      simp
  rcases List.append_eq_append_iff.mp same with ⟨extra, longer, rest⟩ | ⟨extra, longer, rest⟩
  · exact oneSided leftPlain longer rest
  · obtain ⟨firstEq, leftEq⟩ := oneSided rightPlain longer rest
    exact ⟨firstEq.symm, leftEq.symm⟩

/-- **An operation identifier names one device counter.** -/
theorem opIDFor_inj {actor other : String} {counter number : Nat}
    (same : opIDFor actor counter = opIDFor other number) : actor = other ∧ counter = number := by
  have lists := congrArg String.toList same
  simp only [opIDFor, String.toList_append] at lists
  obtain ⟨actors, counters⟩ :=
    append_colon_inj (colon_not_mem_toString _) (colon_not_mem_toString _) lists
  refine ⟨String.toList_inj.mp actors, Nat.repr_inj.mp ?_⟩
  exact String.toList_inj.mp counters

/-! ### What verification and signing establish -/

/-- What `validateOp` has checked of a document. -/
structure OpValid (P : Primitives) (doc : SyncOp) : Prop where
  space : P.validSpaceID doc.spaceID = true
  schema : doc.schemaVersion ≠ 0
  counter : 0 < doc.counter
  hlc : 0 < doc.hlc.physicalMS
  actor : P.peerID doc.actorPublicKey = doc.actorDeviceID
  peer : P.validPeerID doc.actorDeviceID = true
  opID : doc.opID = opIDFor doc.actorDeviceID doc.counter
  context : ∀ entry ∈ doc.causalContext.toList, P.validPeerID entry.1 = true ∧ entry.2 ≠ 0
  contextSize : doc.causalContext.size ≤ maxCausalActors
  previous : doc.causalContext.get doc.actorDeviceID = doc.counter - 1

theorem VersionVector.clone_eq_self {vector : VersionVector}
    (nonzero : ∀ entry ∈ vector.toList, entry.2 ≠ 0) : vector.clone = vector := by
  refine ExtTreeMap.ext_getElem? fun actor => ?_
  rw [VersionVector.getElem?_clone, VersionVector.get_eq_getD]
  cases entry : vector[actor]? with
  | none => rfl
  | some counter =>
    have positive := nonzero (actor, counter) ((VersionVector.mem_toList_iff _ _).mpr entry)
    simpa using positive

namespace Primitives

variable (P : Primitives)

theorem validateOp_ok {doc : SyncOp} {publicKey : Bytes}
    (key : publicKey = doc.actorPublicKey) (valid : P.validateOp doc publicKey = .ok ()) :
    OpValid P doc := by
  subst key
  unfold validateOp at valid
  obtain ⟨header, valid⟩ := guard_ok valid
  obtain ⟨hlc, valid⟩ := guard_ok valid
  obtain ⟨actor, valid⟩ := guard_ok valid
  obtain ⟨opID, valid⟩ := guard_ok valid
  obtain ⟨names, valid⟩ := guard_ok valid
  obtain ⟨epoch, valid⟩ := guard_ok valid
  obtain ⟨payload, valid⟩ := guard_ok valid
  obtain ⟨hash, valid⟩ := guard_ok valid
  obtain ⟨size, valid⟩ := guard_ok valid
  obtain ⟨context, valid⟩ := guard_ok valid
  obtain ⟨previous, -⟩ := guard_ok valid
  push Not at header actor opID previous
  refine ⟨by simpa using header.2.1, header.2.2.1, Nat.pos_of_ne_zero header.2.2.2,
    not_le.mp hlc, actor.1, by simpa using actor.2, opID, fun entry member => ?_,
    not_lt.mp size, previous⟩
  rw [Bool.not_eq_false, List.all_eq_true] at context
  simpa using context entry member

/-- **What an accepted token is and what is read from it.** -/
theorem verifyOp_ok {token : OpToken} {op : VerifiedOp}
    (accepted : P.verifyOp token = .ok op) :
    ∃ doc signature, token = .signed doc signature ∧ OpValid P doc ∧
      op = { token := .signed doc signature, document := doc, payloadID := P.opDigest doc } := by
  unfold verifyOp at accepted
  obtain ⟨size, accepted⟩ := guard_ok accepted
  cases token with
  | malformed what => cases accepted
  | signed doc signature =>
    obtain ⟨key, accepted⟩ := guard_ok accepted
    obtain ⟨checked, valid, accepted⟩ := bind_ok accepted
    obtain ⟨signed, accepted⟩ := guard_ok accepted
    have established := P.validateOp_ok rfl valid
    have same := VersionVector.clone_eq_self fun entry member =>
      (established.context entry member).2
    rw [same] at accepted
    exact ⟨doc, signature, rfl, established, (Except.ok.inj accepted).symm⟩

/-- An operation that `VerifyOp` reads from its own token. -/
def Genuine (op : VerifiedOp) : Prop := P.verifyOp op.token = .ok op

theorem genuine_of_verify {token : OpToken} {op : VerifiedOp}
    (accepted : P.verifyOp token = .ok op) : P.Genuine op ∧ op.token = token := by
  obtain ⟨doc, signature, rfl, valid, rfl⟩ := P.verifyOp_ok accepted
  exact ⟨accepted, rfl⟩

variable {P} in
theorem Genuine.valid {op : VerifiedOp} (genuine : P.Genuine op) : OpValid P op.document := by
  obtain ⟨doc, signature, token, valid, rfl⟩ := P.verifyOp_ok genuine
  exact valid

variable {P} in
theorem Genuine.token_inj {first second : VerifiedOp} (genuine : P.Genuine first)
    (other : P.Genuine second) (same : first.token = second.token) : first = second := by
  unfold Genuine at genuine other
  rw [same, other] at genuine
  exact (Except.ok.inj genuine).symm

/-- **What a created token carries.** -/
theorem signOp_ok {identity : Identity} {entropy : Entropy} {spaceID : String} {counter : Nat}
    {hlc : Timestamp} {causal : VersionVector} {mutation : Mutation} {token : OpToken}
    (created : P.signOp identity entropy spaceID counter hlc causal mutation = .ok token) :
    ∃ doc signature, token = .signed doc signature ∧ OpValid P doc ∧ doc.spaceID = spaceID ∧
      doc.actorDeviceID = P.peerID identity.publicKey ∧ doc.counter = counter ∧ doc.hlc = hlc ∧
      doc.causalContext = causal.clone := by
  unfold signOp at created
  obtain ⟨checked, valid, created⟩ := bind_ok created
  have established := P.validateOp_ok rfl valid
  split at created
  · cases created
  · cases created
    exact ⟨_, _, rfl, established, rfl, rfl, rfl, rfl, rfl⟩

theorem signEncryptedOp_ok {identity : Identity} {entropy : Entropy} {spaceID : String}
    {counter : Nat} {hlc : Timestamp} {causal : VersionVector} {key : EpochKey}
    {mutation : Mutation} {token : OpToken}
    (created :
      P.signEncryptedOp identity entropy spaceID counter hlc causal key mutation = .ok token) :
    ∃ payload, P.signOp identity entropy spaceID counter hlc causal
      { mutation with keyClass := key.keyClass, keyEpoch := key.epoch, payload := payload } =
        .ok token := by
  unfold signEncryptedOp at created
  obtain ⟨usable, created⟩ := guard_ok created
  simp only at created
  split at created
  · exact ⟨_, created⟩
  · obtain ⟨envelope, sealed, created⟩ := bind_ok created
    exact ⟨_, created⟩

end Primitives

end Atterm.ConfigSync
