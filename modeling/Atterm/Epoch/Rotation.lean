/-
**Signed rotations of an epoch key.**

A rotation hands a new key of one class to the members of a space: it names the rotation before it
by hash and epoch, and carries one sealed envelope for each recipient. A resolver collects rotations
in any order and selects one branch: at each point the child with the smallest hash.

* `verifyEpochRotation` — the checks on a token;
* `EpochRotationResolver.apply` — one candidate more, and the branch selected again;
* `verifyEpochRotation_ok` — what an accepted rotation satisfies.
-/

import Atterm.Foundation.Descent
import Atterm.Peer.Revocation

namespace Atterm.Epoch

open Atterm.Foundation
open Atterm.Peer (Bytes VerifiedGenesis VerifiedGrant Signed tokenHash)
open Std (ExtTreeMap)

/-- Portable configuration or explicitly enabled secrets. -/
inductive KeyClass where
  | sync
  | vault
  | other (text : String)
deriving DecidableEq, Repr

def KeyClass.valid (keyClass : KeyClass) : Bool := keyClass = .sync ∨ keyClass = .vault

/-- An envelope bound to the grant and wrapping key of one member. -/
structure EpochRotationRecipient where
  peerID : String
  grantSerial : String
  wrappingPublicKey : String
  envelope : String
deriving DecidableEq, Repr

/-- A signed candidate for one key generation. -/
structure EpochRotation where
  v : ℤ
  rotationID : String
  spaceID : String
  keyClass : KeyClass
  previousEpoch : UInt64
  previousRotationHash : String
  epoch : UInt64
  keyCommitment : String
  actorPeerID : String
  actorMembership : String
  recipients : List EpochRotationRecipient
  createdAt : ℤ
deriving DecidableEq, Repr

structure EpochEnvelope where
  v : ℤ
  spaceID : String
  keyClass : KeyClass
  epoch : UInt64
  recipientPeerID : String
  recipientWrappingKey : String
  ephemeralPublicKey : String
deriving DecidableEq, Repr

structure EpochEnvelopeInfo where
  spaceID : String
  keyClass : KeyClass
  epoch : UInt64
  recipientPeerID : String
  recipientWrappingKey : Bytes
  ephemeralWrappingKey : Bytes
deriving DecidableEq

structure VerifiedEpochRotation where
  token : String
  document : EpochRotation
  publicKey : Bytes
  hash : String
deriving DecidableEq

/-- The errors of the package. `authorizer` is what the callback reports. -/
inductive RotationError where
  | invalid (detail : String)
  | envelope
  | denied
  | fork
  | limit
  | authorizer (reason : String)
deriving DecidableEq, Repr

/-- The readers of canonical JSON, beside what the peer documents use. -/
structure Primitives extends Peer.Primitives where
  readRotation : Bytes → Option EpochRotation
  readEnvelope : Bytes → Option EpochEnvelope

def epochRotationVersion : ℤ := 1
def epochRotationTag : String := "akr1"
def maxEpochRotationBytes : ℕ := 1 <<< 20
def maxEpochRotationRecipients : ℕ := 256
def maxEpochRotationCandidates : ℕ := 4096
def epochEnvelopeVersion : ℤ := 1
def epochEnvelopeTag : String := "ake1"
def maxEpochEnvelopeBytes : ℕ := 8 <<< 10

def decodeCanonical (value : String) : Option Bytes :=
  match Base64.decodeStrict value with
  | none => none
  | some decoded => if Base64.encode decoded ≠ value then none else some decoded

def decodeSized (value : String) (size : ℕ) : Option Bytes :=
  match decodeCanonical value with
  | none => none
  | some decoded => if decoded.length ≠ size then none else some decoded

def validPeerID (value : String) : Bool := (decodeSized value 32).isSome

def validateDigest (value : String) : Bool := (decodeSized value 32).isSome

theorem decodeCanonical_encode (bytes : Bytes) : decodeCanonical (Base64.encode bytes) = some bytes := by
  rw [decodeCanonical]
  rw [Base64.decodeStrict_encode]
  simp

theorem decodeSized_encode {bytes : Bytes} {size : ℕ} (length : bytes.length = size) :
    decodeSized (Base64.encode bytes) size = some bytes := by
  rw [decodeSized]
  rw [decodeCanonical_encode]
  simp [length]

theorem encode_of_decodeCanonical {value : String} {bytes : Bytes}
    (read : decodeCanonical value = some bytes) : Base64.encode bytes = value := by
  rw [decodeCanonical] at read
  cases decoded : Base64.decodeStrict value with
  | none =>
    rw [decoded] at read
    cases read
  | some found =>
    rw [decoded] at read
    dsimp only at read
    by_cases same : Base64.encode found = value
    · rw [if_neg (not_not.mpr same)] at read
      exact Option.some.inj read ▸ same
    · rw [if_pos same] at read
      cases read

theorem encode_of_decodeSized {value : String} {size : ℕ} {bytes : Bytes}
    (read : decodeSized value size = some bytes) : Base64.encode bytes = value ∧ bytes.length = size := by
  rw [decodeSized] at read
  cases decoded : decodeCanonical value with
  | none =>
    rw [decoded] at read
    cases read
  | some found =>
    rw [decoded] at read
    dsimp only at read
    split_ifs at read with other
    obtain rfl := Option.some.inj read
    exact ⟨encode_of_decodeCanonical decoded, not_not.mp other⟩

section Verification

variable (P : Primitives)

def validSpaceID (value : String) : Bool := P.uuidValid value

/-- A key of the right size that lies on the curve. -/
def decodeWrappingKey (value : String) : Option Bytes :=
  match decodeSized value Peer.wrappingPublicKeySize with
  | none => none
  | some key => if P.wrappingKeyValid key then some key else none

def parseEpochEnvelope (token : String) : Except RotationError EpochEnvelope :=
  if token.utf8ByteSize = 0 ∨ token.utf8ByteSize > maxEpochEnvelopeBytes then .error .envelope
  else
    match token.toList.splitOn '.' with
    | [kind, payload] =>
      if String.ofList kind ≠ epochEnvelopeTag then .error .envelope
      else
        match (Base64.decodeStrict (String.ofList payload)).bind P.readEnvelope with
        | none => .error .envelope
        | some doc =>
          if doc.v ≠ epochEnvelopeVersion ∨ ¬ validSpaceID P doc.spaceID ∨
              ¬ doc.keyClass.valid ∨ doc.epoch = 0 ∨ ¬ validPeerID doc.recipientPeerID ∨
              (decodeWrappingKey P doc.recipientWrappingKey).isNone ∨
              (decodeWrappingKey P doc.ephemeralPublicKey).isNone then
            .error .envelope
          else .ok doc
    | _ => .error .envelope

def inspectEpochEnvelope (token : String) : Except RotationError EpochEnvelopeInfo := do
  let doc ← parseEpochEnvelope P token
  match decodeSized doc.recipientWrappingKey Peer.wrappingPublicKeySize,
      decodeSized doc.ephemeralPublicKey Peer.wrappingPublicKeySize with
  | some recipient, some ephemeral =>
    .ok ⟨doc.spaceID, doc.keyClass, doc.epoch, doc.recipientPeerID, recipient, ephemeral⟩
  | _, _ => .error .envelope

/-- The recipients stand in the order of their ids, each with an envelope for its own key. -/
def validateRecipients (doc : EpochRotation) :
    String → List EpochRotationRecipient → Except RotationError Unit
  | _, [] => .ok ()
  | previousPeerID, recipient :: rest =>
    if ¬ validPeerID recipient.peerID ∨ ¬ P.uuidValid recipient.grantSerial ∨
        recipient.peerID ≤ previousPeerID then
      .error (.invalid "")
    else
      match decodeWrappingKey P recipient.wrappingPublicKey with
      | none => .error (.invalid "")
      | some wrappingKey =>
        match inspectEpochEnvelope P recipient.envelope with
        | .error _ => .error (.invalid "")
        | .ok info =>
          if info.spaceID ≠ doc.spaceID ∨ info.keyClass ≠ doc.keyClass ∨
              info.epoch ≠ doc.epoch ∨ info.recipientPeerID ≠ recipient.peerID ∨
              info.recipientWrappingKey ≠ wrappingKey then
            .error (.invalid "")
          else validateRecipients doc recipient.peerID rest

def validateEpochRotationDocument (doc : EpochRotation) : Except RotationError Unit :=
  if doc.v ≠ epochRotationVersion ∨ ¬ P.uuidValid doc.rotationID ∨ ¬ validSpaceID P doc.spaceID ∨
      ¬ doc.keyClass.valid ∨ doc.createdAt ≤ 0 ∨ ¬ validPeerID doc.actorPeerID then
    .error (.invalid "")
  else if doc.epoch ≠ doc.previousEpoch + 1 ∨ doc.epoch = 0 then .error (.invalid "")
  else if (if doc.previousEpoch = 0 then doc.previousRotationHash ≠ ""
      else ¬ validateDigest doc.previousRotationHash) then
    .error (.invalid "")
  else if ¬ validateDigest doc.keyCommitment ∨ doc.recipients.length = 0 ∨
      doc.recipients.length > maxEpochRotationRecipients then
    .error (.invalid "")
  else validateRecipients P doc "" doc.recipients

def parseEpochRotation (token : String) : Except RotationError (Signed EpochRotation) :=
  if token.utf8ByteSize = 0 ∨ token.utf8ByteSize > maxEpochRotationBytes then .error (.invalid "")
  else
    match token.toList.splitOn '.' with
    | [kind, payload, signature] =>
      if String.ofList kind ≠ epochRotationTag then .error (.invalid "")
      else
        match decodeCanonical (String.ofList payload) with
        | none => .error (.invalid "")
        | some raw =>
          match decodeSized (String.ofList signature) Peer.signatureSize with
          | none => .error (.invalid "")
          | some sig =>
            match P.readRotation raw with
            | none => .error (.invalid "")
            | some doc => .ok ⟨doc, raw, sig⟩
    | _ => .error (.invalid "")

def canRotateEpoch (grant : VerifiedGrant) : Bool :=
  grant.document.permission = .full && grant.document.canInvite

/-- The actor's membership as of the time the rotation was signed. -/
def rotationActor (doc : EpochRotation) (genesis : VerifiedGenesis) :
    Except RotationError VerifiedGrant :=
  match Peer.verifyGrant P.toPrimitives doc.actorMembership genesis (doc.createdAt * Peer.second) with
  | .error _ => .error .denied
  | .ok actor =>
    if actor.document.subjectPeerID ≠ doc.actorPeerID ∨ actor.document.issuedAt > doc.createdAt ∨
        ¬ canRotateEpoch actor then
      .error .denied
    else .ok actor

def verifyEpochRotation (token : String) (genesis : VerifiedGenesis) :
    Except RotationError VerifiedEpochRotation :=
  match Peer.verifyGenesis P.toPrimitives genesis.token with
  | .error _ => .error (.invalid "genesis")
  | .ok verifiedGenesis => do
      let signed ← parseEpochRotation P token
      let doc := signed.document
      if doc.spaceID ≠ verifiedGenesis.document.spaceID then .error (.invalid "")
      else do
        let actor ← rotationActor P doc verifiedGenesis
        match P.verify actor.publicKey signed.raw signed.signature with
        | .error _ => .error (.invalid "signature")
        | .ok () => do
            validateEpochRotationDocument P doc
            return ⟨token, doc, actor.publicKey, tokenHash P.toPrimitives token⟩

end Verification

/-! ### The resolver -/

/-- The candidates known so far and the branch selected among them. -/
structure EpochRotationResolver where
  genesis : VerifiedGenesis
  keyClass : KeyClass
  byHash : ExtTreeMap String VerifiedEpochRotation
  byID : ExtTreeMap String String
  canonical : List String

structure EpochRotationApplyResult where
  stored : Bool := false
  duplicate : Bool := false
  canonicalChanged : Bool := false
  current : Option VerifiedEpochRotation := none

/-- A call of `Apply`: the token, what the authorizer says at that moment, and the order in which
the map of candidates is walked. -/
structure RotationCall where
  token : String
  authorize : VerifiedEpochRotation → Except String Unit
  walk : List VerifiedEpochRotation → List VerifiedEpochRotation
  walk_perm : ∀ candidates, (walk candidates).Perm candidates

section Resolver

variable (P : Primitives)

def newEpochRotationResolver (genesis : VerifiedGenesis) (keyClass : KeyClass) :
    Except RotationError EpochRotationResolver :=
  match Peer.verifyGenesis P.toPrimitives genesis.token with
  | .error _ => .error (.invalid "")
  | .ok verifiedGenesis =>
    if ¬ keyClass.valid then .error (.invalid "")
    else .ok ⟨verifiedGenesis, keyClass, ∅, ∅, []⟩

/-- The hash a candidate is filed under as a child, if it follows its parent. -/
def filedUnder (byHash : ExtTreeMap String VerifiedEpochRotation)
    (candidate : VerifiedEpochRotation) : Option String :=
  let doc := candidate.document
  if doc.previousEpoch = 0 then
    if doc.previousRotationHash = "" ∧ doc.epoch = 1 then some "" else none
  else
    match byHash[doc.previousRotationHash]? with
    | none => none
    | some parentRotation =>
      if parentRotation.document.epoch ≠ doc.previousEpoch ∨ doc.epoch ≠ doc.previousEpoch + 1 ∨
          doc.createdAt < parentRotation.document.createdAt then none
      else some doc.previousRotationHash

def hashBefore (left right : VerifiedEpochRotation) : Bool := left.hash ≤ right.hash

def winner (byHash : ExtTreeMap String VerifiedEpochRotation)
    (candidates : List VerifiedEpochRotation) (parent : String) : Option String :=
  ((candidates.filter fun candidate => filedUnder byHash candidate = some parent).mergeSort
    hashBefore).head?.map VerifiedEpochRotation.hash

def epochBefore (left right : VerifiedEpochRotation) : Bool :=
  if left.document.epoch ≠ right.document.epoch then left.document.epoch < right.document.epoch
  else left.hash ≤ right.hash

namespace EpochRotationResolver

/-- The branch is followed from the root again. A round of the loop goes to a candidate, so one
round more than there are candidates is given; `none` says that they did not suffice. -/
def recomputeCanonical (r : EpochRotationResolver) (call : RotationCall) :
    Option EpochRotationResolver :=
  (descend (winner r.byHash (call.walk (mapValues r.byHash))) (r.byHash.size + 1) "").map
    fun canonical => { r with canonical := canonical }

def current (r : EpochRotationResolver) : Option VerifiedEpochRotation :=
  r.canonical.getLast?.bind fun hash => r.byHash[hash]?

/-- The resolver with a candidate more, before the branch is selected again. -/
def store (r : EpochRotationResolver) (verified : VerifiedEpochRotation) : EpochRotationResolver :=
  { r with
    byHash := r.byHash.insert verified.hash verified
    byID := r.byID.insert verified.document.rotationID verified.hash }

def accept (r : EpochRotationResolver) (call : RotationCall) (verified : VerifiedEpochRotation) :
    Option (Except RotationError (EpochRotationApplyResult × EpochRotationResolver)) :=
  match r.byID[verified.document.rotationID]? with
  | some existingHash =>
    if existingHash ≠ verified.hash then some (.error .fork)
    else some (.ok ({ duplicate := true, current := r.current }, r))
  | none =>
    if r.byHash.size ≥ maxEpochRotationCandidates then some (.error .limit)
    else
      ((r.store verified).recomputeCanonical call).map fun after =>
        .ok ({ stored := true, canonicalChanged := r.canonical ≠ after.canonical,
               current := after.current }, after)

/-- Verify and authorize a candidate, then store it. A failed call leaves the resolver as it is; a
call whose loop does not end returns nothing. -/
def apply (r : EpochRotationResolver) (call : RotationCall) :
    Option (Except RotationError (EpochRotationApplyResult × EpochRotationResolver)) :=
  match verifyEpochRotation P call.token r.genesis with
  | .error error => some (.error error)
  | .ok verified =>
    if verified.document.keyClass ≠ r.keyClass then some (.error (.invalid ""))
    else
      match call.authorize verified with
      | .error reason => some (.error (.authorizer reason))
      | .ok () => r.accept call verified

/-- Every retained candidate, losing branches too. -/
def tokens (r : EpochRotationResolver)
    (walk : List VerifiedEpochRotation → List VerifiedEpochRotation) : List String :=
  ((walk (mapValues r.byHash)).mergeSort epochBefore).map VerifiedEpochRotation.token

def step (r : EpochRotationResolver) (call : RotationCall) : EpochRotationResolver :=
  match r.apply P call with
  | some (.ok (_, after)) => after
  | _ => r

def applyAll : EpochRotationResolver → List RotationCall → Option EpochRotationResolver
  | r, [] => some r
  | r, call :: rest =>
    match r.apply P call with
    | some (.ok (_, after)) => applyAll after rest
    | _ => none

end EpochRotationResolver

end Resolver

/-! ### Accepted rotations -/

structure Accepted (P : Primitives) (token : String) (rotation : VerifiedEpochRotation) : Prop where
  token_eq : rotation.token = token
  hash_eq : rotation.hash = tokenHash P.toPrimitives token
  hash_ne : rotation.hash ≠ ""
  epoch_eq : rotation.document.epoch.toNat = rotation.document.previousEpoch.toNat + 1
  root : rotation.document.previousEpoch = 0 → rotation.document.previousRotationHash = ""

variable {P : Primitives} {genesis : VerifiedGenesis} {token : String}
  {rotation : VerifiedEpochRotation}

theorem tokenHash_ne_empty (token : String) : tokenHash P.toPrimitives token ≠ "" := by
  intro empty
  have read := Base64.decodeStrict_encode (P.sha256 token.toUTF8.toList)
  have none : Base64.decodeStrict "" = some [] := by decide
  rw [show Base64.encode (P.sha256 token.toUTF8.toList) = "" from empty, none,
    Option.some.injEq] at read
  have length := P.sha256_length token.toUTF8.toList
  rw [← read] at length
  cases length

theorem toNat_epoch {epoch previous : UInt64} (follows : epoch = previous + 1)
    (positive : epoch ≠ 0) : epoch.toNat = previous.toNat + 1 := by
  subst follows
  have nonzero : (previous + 1).toNat ≠ 0 := fun zero => positive (UInt64.toNat_inj.mp zero)
  have bound := previous.toNat_lt
  rw [UInt64.toNat_add] at nonzero ⊢
  rw [show (1 : UInt64).toNat = 1 from rfl] at nonzero ⊢
  omega

theorem validateEpochRotationDocument_ok {doc : EpochRotation}
    (valid : validateEpochRotationDocument P doc = .ok ()) :
    doc.epoch.toNat = doc.previousEpoch.toNat + 1 ∧
      (doc.previousEpoch = 0 → doc.previousRotationHash = "") := by
  obtain ⟨_, valid⟩ := guard_ok valid
  obtain ⟨epochs, valid⟩ := guard_ok valid
  obtain ⟨parent, _⟩ := guard_ok valid
  rw [not_or, not_not] at epochs
  refine ⟨toNat_epoch epochs.1 epochs.2, fun root => ?_⟩
  rw [if_pos root, not_not] at parent
  exact parent

/-- **What an accepted rotation satisfies.** -/
theorem verifyEpochRotation_ok (accepted : verifyEpochRotation P token genesis = .ok rotation) :
    Accepted P token rotation := by
  unfold verifyEpochRotation at accepted
  cases anchored : Peer.verifyGenesis P.toPrimitives genesis.token with
  | error reason =>
    rw [anchored] at accepted
    cases accepted
  | ok verifiedGenesis =>
    rw [anchored] at accepted
    obtain ⟨signed, _, accepted⟩ := bind_ok accepted
    obtain ⟨_, accepted⟩ := guard_ok accepted
    obtain ⟨actor, _, accepted⟩ := bind_ok accepted
    cases checked : P.verify actor.publicKey signed.raw signed.signature with
    | error reason =>
      simp only [checked] at accepted
      cases accepted
    | ok done =>
      simp only [checked] at accepted
      obtain ⟨_, valid, same⟩ := bind_ok accepted
      cases same
      obtain ⟨epochs, root⟩ := validateEpochRotationDocument_ok valid
      exact ⟨rfl, rfl, tokenHash_ne_empty token, epochs, root⟩

end Atterm.Epoch
