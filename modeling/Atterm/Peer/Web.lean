/-
**The verifier of the web client.**

The browser checks the same tokens with code of its own. Its verifier reads the same payloads, so
what reads their JSON and what checks a signature is shared with `Documents`; the envelope, the
encodings and every comparison are its own.

Times are the milliseconds of a `Date`.
-/

import Atterm.Peer.Documents

namespace Atterm.Peer.Web

open Atterm.Foundation

def maxTokenBytes : ℕ := 64 * 1024
def clockSkewSeconds : ℤ := 5 * 60

/-- `Math.floor(now.getTime() / 1000)`. -/
def seconds (now : ℤ) : ℤ := now / 1000

def isSafeInteger (number : ℤ) : Bool := -(2 ^ 53 - 1) ≤ number ∧ number ≤ 2 ^ 53 - 1

/-! ### Texts -/

def inRange (low high char : Char) : Bool := low.toNat ≤ char.toNat ∧ char.toNat ≤ high.toNat

def isHex (char : Char) : Bool := inRange '0' '9' char || inRange 'a' 'f' char || inRange 'A' 'F' char

def isDash (char : Char) : Bool := char = '-'

def matchesClasses : List (Char → Bool) → List Char → Bool
  | [], [] => true
  | cls :: classes, char :: chars => cls char && matchesClasses classes chars
  | _, _ => false

/-- Eight, four, four, four and twelve hexadecimal digits, the first digit of the third and of the
fourth group from given classes. -/
def uuidClasses (third fourth : Char → Bool) : List (Char → Bool) :=
  List.replicate 8 isHex ++ [isDash] ++ List.replicate 4 isHex ++ [isDash] ++
    [third] ++ List.replicate 3 isHex ++ [isDash] ++
    [fourth] ++ List.replicate 3 isHex ++ [isDash] ++ List.replicate 12 isHex

def isUUID (text : String) : Bool :=
  matchesClasses (uuidClasses (inRange '1' '5') (fun char => char ∈ ['8', '9', 'a', 'b', 'A', 'B']))
    text.toList

def bytesToBase64URL (bytes : Bytes) : String := Base64.encode bytes

def base64URLToBytes (value : String) : Except String Bytes :=
  if value.isEmpty ∨ ¬ (value.toList.all fun char => (Base64.sextetOf char).isSome) then
    .error "peer identity: invalid base64url"
  else
    match Base64.decodeLoose value with
    | none => .error "peer identity: invalid base64url"
    | some out =>
      if bytesToBase64URL out ≠ value then .error "peer identity: non-canonical base64url"
      else .ok out

def p256Order : ℕ := 0xffffffff00000000ffffffffffffffffbce6faada7179e84f3b9cac2fc632551
def p256HalfOrder : ℕ := p256Order / 2

def bytesToBigInt (bytes : Bytes) : ℕ := bytes.foldl (fun value byte => value * 256 + byte.toNat) 0

def isP1363LowS (signature : Bytes) : Bool :=
  signature.length = 64 ∧
    0 < bytesToBigInt (signature.take 32) ∧ bytesToBigInt (signature.take 32) < p256Order ∧
    0 < bytesToBigInt (signature.drop 32) ∧ bytesToBigInt (signature.drop 32) ≤ p256HalfOrder

def isPermission (permission : Permission) : Bool :=
  permission = .view ∨ permission = .control ∨ permission = .full

def permissionRank (permission : Permission) : ℕ :=
  if permission = .view then 1 else if permission = .control then 2 else 3

/-! ### Tokens -/

def parseSigned {α : Type} (tag : String) (read : Bytes → Except String α) (token : String) :
    Except String (Signed α) :=
  if token.utf8ByteSize = 0 ∨ token.utf8ByteSize > maxTokenBytes then
    .error "peer document: token size"
  else
    match token.toList.splitOn '.' with
    | [kind, payload, signature] =>
      if String.ofList kind ≠ tag then .error "peer document: token prefix"
      else do
        let raw ← base64URLToBytes (String.ofList payload)
        let sig ← base64URLToBytes (String.ofList signature)
        if ¬ isP1363LowS sig then .error "peer document: invalid signature encoding"
        else
          match read raw with
          | .error _ => .error "peer document: invalid JSON"
          | .ok document => .ok ⟨document, raw, sig⟩
    | _ => .error "peer document: token prefix"

def validateScope (child parent : List String) : Except String Unit :=
  if (child.any fun id => ! isUUID id) ∨ ¬ child.Nodup then
    .error "peer document: invalid session scope"
  else if parent.length > 0 ∧ child.any fun id => ! parent.contains id then
    .error "peer document: session scope broadened"
  else .ok ()

section Verification

variable (P : Primitives)

def verifySignature (publicKey raw signature : Bytes) : Except String Unit :=
  match P.verify publicKey raw signature with
  | .error _ => .error "peer document: invalid signature"
  | .ok () => .ok ()

def peerIDFromPublicKey (publicKey : Bytes) : Except String String :=
  if publicKey.length ≠ 65 ∨ publicKey.head? ≠ some 4 then
    .error "peer identity: invalid P-256 public key"
  else .ok (bytesToBase64URL (P.sha256 publicKey))

def verifyGenesis (token : String) : Except String VerifiedGenesis := do
  let parsed ← parseSigned genesisTag P.readGenesis token
  let doc := parsed.document
  if doc.v ≠ 1 ∨ ¬ isUUID doc.spaceID ∨ ¬ isSafeInteger doc.createdAt ∨ doc.createdAt ≤ 0 then
    .error "peer document: invalid genesis"
  else do
    let publicKey ← base64URLToBytes doc.creatorPublicKey
    let owner ← peerIDFromPublicKey P publicKey
    if owner ≠ doc.creatorPeerID then .error "peer document: genesis peer mismatch"
    else do
      verifySignature P publicKey parsed.raw parsed.signature
      return ⟨token, doc, publicKey, bytesToBase64URL (P.sha256 token.toUTF8.toList)⟩

structure VerifiedGrant where
  token : String
  document : GrantPayload
  publicKey : Bytes
  wrappingPublicKey : Bytes
deriving DecidableEq

structure Issuer where
  publicKey : Bytes
  permission : Permission
  canInvite : Bool
  canSyncSecrets : Bool
  scope : List String
  depth : ℤ
deriving DecidableEq

/-- The creator hands on everything. -/
def genesisIssuer (genesis : VerifiedGenesis) : Issuer where
  publicKey := genesis.publicKey
  permission := .full
  canInvite := true
  canSyncSecrets := true
  scope := []
  depth := -1

def grantIssuer (issuer : VerifiedGrant) : Issuer where
  publicKey := issuer.publicKey
  permission := issuer.document.permission
  canInvite := issuer.document.canInvite
  canSyncSecrets := issuer.document.canSyncSecrets
  scope := issuer.document.allowedSessionIDs
  depth := issuer.document.delegationDepth

/-- The fields of a membership, before its keys are read. -/
def checkFields (grant : GrantPayload) (genesis : VerifiedGenesis) (now : ℤ) : Except String Unit :=
  if grant.v ≠ 1 ∨ ¬ isUUID grant.serial ∨ grant.spaceID ≠ genesis.document.spaceID ∨
      grant.spaceGenesisHash ≠ genesis.hash ∨ ¬ isPermission grant.permission ∨
      ¬ isSafeInteger grant.issuedAt ∨ grant.issuedAt ≤ 0 ∨
      grant.issuedAt > seconds now + clockSkewSeconds ∨
      ¬ isSafeInteger grant.delegationDepth ∨ grant.delegationDepth < 0 ∨
      grant.delegationDepth > 8 then
    .error "peer document: invalid membership"
  else
    match grant.expiresAt with
    | none => .ok ()
    | some expiresAt =>
      if ¬ isSafeInteger expiresAt ∨ expiresAt ≤ grant.issuedAt ∨ seconds now ≥ expiresAt then
        .error "peer document: membership expired"
      else .ok ()

/-- The subject's keys: the identifier is checked, the wrapping key only for its length. -/
def readKeys (grant : GrantPayload) : Except String (Bytes × Bytes) := do
  let publicKey ← base64URLToBytes grant.subjectPublicKey
  let wrappingPublicKey ← base64URLToBytes grant.subjectWrappingPublicKey
  if wrappingPublicKey.length ≠ 65 then .error "peer document: membership key mismatch"
  else do
    let owner ← peerIDFromPublicKey P publicKey
    if owner ≠ grant.subjectPeerID then .error "peer document: membership key mismatch"
    else return (publicKey, wrappingPublicKey)

/-- Whom a grant was issued by, the issuer's membership verified by `verify`. -/
def readIssuer (genesis : VerifiedGenesis) (grant : GrantPayload)
    (verify : String → Except String VerifiedGrant) : Except String Issuer :=
  if grant.issuerPeerID = genesis.document.creatorPeerID then .ok (genesisIssuer genesis)
  else
    match grant.issuerMembership with
    | none => .error "peer document: missing issuer membership"
    | some membership =>
      if membership = "" then .error "peer document: missing issuer membership"
      else do
        let issuer ← verify membership
        if issuer.document.subjectPeerID ≠ grant.issuerPeerID then
          .error "peer document: issuer mismatch"
        else return grantIssuer issuer

def checkIssuer (grant : GrantPayload) (issuer : Issuer) : Except String Unit :=
  if ¬ issuer.canInvite ∨ permissionRank grant.permission > permissionRank issuer.permission ∨
      (grant.canSyncSecrets ∧ ¬ issuer.canSyncSecrets) then
    .error "peer document: membership broadens capabilities"
  else if (if issuer.depth ≥ 0 then grant.delegationDepth ≠ issuer.depth + 1
      else grant.issuerPeerID ≠ grant.subjectPeerID ∧ grant.delegationDepth ≠ 1) then
    .error "peer document: invalid delegation depth"
  else validateScope grant.allowedSessionIDs issuer.scope

/-- One link of a chain, with `remaining` links still allowed. -/
def verifyGrantFrom (genesis : VerifiedGenesis) (now : ℤ) :
    ℕ → String → Except String VerifiedGrant
  | 0, _ => .error "peer document: membership chain too deep"
  | remaining + 1, token => do
      let parsed ← parseSigned membershipTag P.readGrant token
      let grant := parsed.document
      checkFields grant genesis now
      let keys ← readKeys P grant
      validateScope grant.allowedSessionIDs []
      let issuer ← readIssuer genesis grant (verifyGrantFrom genesis now remaining)
      checkIssuer grant issuer
      verifySignature P issuer.publicKey parsed.raw parsed.signature
      return ⟨token, grant, keys.1, keys.2⟩

def verifyGrant (token : String) (genesis : VerifiedGenesis) (now : ℤ) :
    Except String VerifiedGrant :=
  verifyGrantFrom P genesis now chainLimit token

/-- The fields of an invitation against its issuer. The issuer's `canInvite` is not among them. -/
def checkTicket (ticket : CapabilityTicket) (genesis : VerifiedGenesis) (issuer : VerifiedGrant)
    (now : ℤ) : Except String Unit :=
  if ticket.v ≠ 1 ∨ ¬ isUUID ticket.inviteID ∨ ¬ isUUID ticket.batchID ∨
      ticket.spaceID ≠ genesis.document.spaceID ∨ ticket.spaceGenesisHash ≠ genesis.hash ∨
      ticket.redemptionPeerID ≠ ticket.issuerPeerID ∨
      ticket.issuerPeerID ≠ issuer.document.subjectPeerID ∨ ticket.maxUses ≠ 1 ∨
      ¬ isPermission ticket.permission ∨ ¬ isSafeInteger ticket.issuedAt ∨
      ¬ isSafeInteger ticket.expiresAt ∨ ticket.issuedAt ≤ 0 ∨
      ticket.issuedAt > seconds now + clockSkewSeconds ∨ ticket.expiresAt ≤ ticket.issuedAt ∨
      seconds now ≥ ticket.expiresAt then
    .error "peer document: invalid invitation"
  else do
    let secret ← base64URLToBytes ticket.pairingSecret
    if secret.length ≠ 32 ∨
        permissionRank ticket.permission > permissionRank issuer.document.permission ∨
        (ticket.canSyncSecrets ∧ ¬ issuer.document.canSyncSecrets) then
      .error "peer document: invalid invitation"
    else .ok ()

def verifyInvitation (token : String) (genesis : VerifiedGenesis) (now : ℤ) :
    Except String (CapabilityTicket × VerifiedGrant) := do
  let parsed ← parseSigned invitationTag P.readTicket token
  let ticket := parsed.document
  let issuer ← verifyGrant P ticket.issuerMembership genesis now
  checkTicket ticket genesis issuer now
  validateScope ticket.allowedSessionIDs issuer.document.allowedSessionIDs
  verifySignature P issuer.publicKey parsed.raw parsed.signature
  return (ticket, issuer)

end Verification

end Atterm.Peer.Web
