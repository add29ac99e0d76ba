/-
**The peer store.**

One file holds the memberships, the invitations and the denials of a space. Every change reads the
file, applies one operation and writes the file back; reading and writing bring the membership
directory into canonical order, and reading files the denials again.

* `materializeMemberships` — the directory with every embedded issuer, and the local membership;
* `materializeRevocations` — the denials, filed by kind, and the local invitations they reach;
* `load`, `write`, `mutate` — one change of the file.

Encryption, file locks and the fields no operation here reads are left out. Whether the written
state fits and reaches the disk is an input of each call.
-/

import Atterm.Peer.Revocation

namespace Atterm.Peer

open Atterm.Foundation
open Std (ExtTreeMap)

/-- One invitation of the local device. Time zero means "not yet". -/
structure Invitation where
  inviteID : String
  batchID : String
  token : String
  expiresAt : ℤ
  consumedAt : ℤ := 0
  consumedByPeerID : String := ""
  issuedMembership : String := ""
  revokedAt : ℤ := 0
deriving DecidableEq, Repr

structure StoreState where
  genesisToken : String
  localMembership : String
  memberships : List String
  invitations : List Invitation
  revocations : List String
  revokedMembers : ExtTreeMap String ℤ
  revokedGrantSerials : ExtTreeMap String ℤ
  updatedAt : ℤ

inductive StoreError where
  | invalidState
  | inviteInvalid
  | inviteConsumed
  | inviteRevoked
  | membershipFork
  | membershipLimit
  | localMembershipKeyChange
  | verifyMembership (error : DocumentError)
  | verifyLocalMembership (error : DocumentError)
  | verifyRevocationGenesis (error : DocumentError)
  | createRevocationSet (error : DocumentError)
  | verifyRevocation (error : DocumentError)
  | materializeRevocation (error : DocumentError)
  | revocation (error : DocumentError)
  /-- The state was too large, or the file was not written. -/
  | notWritten
deriving DecidableEq, Repr

def maxMembershipCandidates : ℕ := 256

/-- An error of another layer under the operation that met it. -/
def wrap {α : Type} (label : DocumentError → StoreError) :
    Except DocumentError α → Except StoreError α
  | .error error => .error (label error)
  | .ok value => .ok value

section Store

variable (P : Primitives)

/-! ### Memberships -/

/-- The newest issue time wins, then the smaller serial, then the smaller token. -/
def membershipCanonicalAfter (candidate current : VerifiedGrant) : Bool :=
  if candidate.document.issuedAt ≠ current.document.issuedAt then
    candidate.document.issuedAt > current.document.issuedAt
  else if candidate.document.serial ≠ current.document.serial then
    candidate.document.serial < current.document.serial
  else candidate.token < current.token

/-- The order of the directory: issue time, serial, token. -/
def issuedBefore (left right : VerifiedGrant) : Bool :=
  if left.document.issuedAt ≠ right.document.issuedAt then
    left.document.issuedAt < right.document.issuedAt
  else if left.document.serial ≠ right.document.serial then
    left.document.serial < right.document.serial
  else left.token ≤ right.token

/-- The queue of tokens to verify, each adding its issuer's. Every turn takes a token off the queue
or a place in the directory, so `fuel` is what the two have left. -/
def gatherMemberships (genesis : VerifiedGenesis) :
    ℕ → List String → ExtTreeMap String VerifiedGrant → ExtTreeMap String String →
      Except StoreError (ExtTreeMap String VerifiedGrant)
  | _, [], byToken, _ => .ok byToken
  | 0, _ :: _, _, _ => .error .membershipLimit
  | fuel + 1, token :: tokens, byToken, bySerial =>
    if byToken.contains token then gatherMemberships genesis fuel tokens byToken bySerial
    else do
      let membership ← wrap .verifyMembership (verifyGrantAtIssuance P token genesis)
      if (bySerial[membership.document.serial]?).any fun existing => existing ≠ token then
        .error .membershipFork
      else if byToken.size ≥ maxMembershipCandidates then .error .membershipLimit
      else
        gatherMemberships genesis fuel
          (if membership.document.issuerMembership ≠ "" then
            tokens ++ [membership.document.issuerMembership] else tokens)
          (byToken.insert token membership)
          (bySerial.insert membership.document.serial token)

/-- The turns a queue can take. -/
def gatherFuel (tokens : List String) : ℕ := tokens.length + maxMembershipCandidates

/-- Keep the local device's canonical membership, and refuse one with other keys. -/
def canonicalLocal (owner : VerifiedGrant) :
    VerifiedGrant → List VerifiedGrant → Except StoreError VerifiedGrant
  | current, [] => .ok current
  | current, membership :: rest =>
    if membership.document.subjectPeerID ≠ owner.document.subjectPeerID then
      canonicalLocal owner current rest
    else if membership.publicKey ≠ owner.publicKey ∨
        membership.wrappingPublicKey ≠ owner.wrappingPublicKey then
      .error .localMembershipKeyChange
    else
      canonicalLocal owner (if membershipCanonicalAfter membership current then membership
        else current) rest

/-- The tokens the directory is made from. -/
def StoreState.candidates (state : StoreState) : List String :=
  state.memberships ++ [state.localMembership] ++
    (state.invitations.map Invitation.issuedMembership).filter (· ≠ "")

def materializeMemberships (state : StoreState) : Except StoreError StoreState :=
  match verifyGenesis P state.genesisToken with
  | .error _ => .ok { state with memberships := state.memberships.eraseDups }
  | .ok genesis => do
      let byToken ← gatherMemberships P genesis (gatherFuel state.candidates) state.candidates ∅ ∅
      let memberships := (mapValues byToken).mergeSort issuedBefore
      let owner ← wrap .verifyLocalMembership (verifyGrantAtIssuance P state.localMembership genesis)
      let canonical ← canonicalLocal owner owner memberships
      return { state with
        localMembership := canonical.token
        memberships := memberships.map VerifiedGrant.token }

/-! ### Denials -/

def buildRevocationSet (state : StoreState) :
    Except StoreError (VerifiedGenesis × RevocationSet) := do
  let genesis ← wrap .verifyRevocationGenesis (verifyGenesis P state.genesisToken)
  let set ← wrap .createRevocationSet (newRevocationSet P genesis)
  let filled ← state.revocations.foldlM (fun applied token =>
    match applied.apply P token with
    | (.error error, _) => .error (.verifyRevocation error)
    | (.ok _, after) => .ok after) set
  return (genesis, filled)

/-- A denied batch reaches an invitation of it that is not consumed. -/
def Invitation.denied (batchID : String) (createdAt : ℤ) (invite : Invitation) : Invitation :=
  if invite.batchID = batchID ∧ invite.consumedAt = 0 ∧
      (invite.revokedAt = 0 ∨ createdAt < invite.revokedAt) then
    { invite with revokedAt := createdAt }
  else invite

/-- One denial in the store's own maps and invitations. -/
def StoreState.deny (state : StoreState) (doc : Revocation) : StoreState :=
  match doc.kind with
  | .member => { state with revokedMembers := record state.revokedMembers doc.targetID doc.createdAt }
  | .grant =>
    { state with revokedGrantSerials := record state.revokedGrantSerials doc.targetID doc.createdAt }
  | .invitationBatch =>
    if doc.actorMembership ≠ state.localMembership then state
    else
      { state with
        invitations := state.invitations.map (Invitation.denied doc.targetID doc.createdAt) }
  | .other _ => state

def materializeRevocations (state : StoreState) (genesis : VerifiedGenesis) (set : RevocationSet) :
    Except StoreError StoreState :=
  set.tokens.foldlM (fun filed token => do
    let revocation ← wrap .materializeRevocation (verifyRevocation P token genesis)
    return filed.deny revocation.document) state

/-! ### The file -/

def load (disk : StoreState) : Except StoreError StoreState :=
  if disk.genesisToken = "" ∨ disk.localMembership = "" then .error .invalidState
  else do
    let state ← materializeMemberships P disk
    if state.revocations ≠ [] then do
      let (genesis, set) ← buildRevocationSet P state
      materializeRevocations P state genesis set
    else return state

def write (written : Bool) (state : StoreState) : Except StoreError StoreState := do
  let canonical ← materializeMemberships P state
  if ¬ written then .error .notWritten else return canonical

def mutate (written : Bool) (apply : StoreState → Except StoreError StoreState) (disk : StoreState) :
    Except StoreError StoreState := do
  let state ← load P disk
  let changed ← apply state
  write P written changed

/-! ### Operations -/

def addEach (now : ℤ) : List String → List Invitation → List Invitation →
    Except StoreError (List Invitation)
  | _, held, [] => .ok held
  | seen, held, invite :: rest =>
    if invite.inviteID = "" ∨ invite.batchID = "" ∨ invite.token = "" ∨
        invite.expiresAt ≤ unix now then
      .error .inviteInvalid
    else if invite.inviteID ∈ seen then .error .inviteInvalid
    else addEach now (invite.inviteID :: seen) (held ++ [invite]) rest

def addInvitations (invitations : List Invitation) (now : ℤ) (state : StoreState) :
    Except StoreError StoreState := do
  let held ← addEach now (state.invitations.map Invitation.inviteID) state.invitations invitations
  return { state with invitations := held, updatedAt := unix now }

/-- The invitation the loop of a redemption stops at, and what it does to it. -/
def redeemEach (inviteID consumerPeerID issuedMembership : String) (now : ℤ) :
    List Invitation → Except StoreError (List Invitation × String × Bool)
  | [] => .error .inviteInvalid
  | invite :: rest =>
    if invite.inviteID ≠ inviteID then do
      let (others, membership, changed) ←
        redeemEach inviteID consumerPeerID issuedMembership now rest
      return (invite :: others, membership, changed)
    else if invite.consumedAt ≠ 0 then
      if invite.consumedByPeerID ≠ consumerPeerID ∨ invite.issuedMembership = "" then
        .error .inviteConsumed
      else .ok (invite :: rest, invite.issuedMembership, false)
    else if invite.revokedAt ≠ 0 then .error .inviteRevoked
    else if unix now ≥ invite.expiresAt then .error .inviteInvalid
    else
      .ok ({ invite with
        consumedAt := unix now
        consumedByPeerID := consumerPeerID
        issuedMembership := issuedMembership } :: rest, issuedMembership, true)

/-- A redemption: the membership it returns, with the file as it stands afterwards. -/
def redeemInvitation (inviteID consumerPeerID issuedMembership : String) (now : ℤ) (written : Bool)
    (disk : StoreState) : Except StoreError (String × StoreState) :=
  if inviteID = "" ∨ consumerPeerID = "" ∨ issuedMembership = "" then .error .inviteInvalid
  else do
    let state ← load P disk
    let (invitations, membership, changed) ←
      redeemEach inviteID consumerPeerID issuedMembership now state.invitations
    -- a retry by the same peer reads the stored membership and writes nothing
    if changed then do
      let after ← write P written { state with invitations, updatedAt := unix now }
      return (membership, after)
    else return (membership, disk)

/-- An unused invitation of those that match is revoked. -/
def Invitation.revoked (matching : Invitation → Bool) (now : ℤ) (invite : Invitation) : Invitation :=
  if matching invite ∧ invite.consumedAt = 0 ∧ invite.revokedAt = 0 then
    { invite with revokedAt := unix now }
  else invite

def revoke (matching : Invitation → Bool) (now : ℤ) (state : StoreState) :
    Except StoreError StoreState :=
  if ¬ state.invitations.any matching then .error .inviteInvalid
  else
    .ok { state with
      invitations := state.invitations.map (Invitation.revoked matching now)
      updatedAt := unix now }

def revokeInvitation (inviteID : String) (now : ℤ) : StoreState → Except StoreError StoreState :=
  revoke (fun invite => invite.inviteID = inviteID) now

def revokeBatch (batchID : String) (now : ℤ) : StoreState → Except StoreError StoreState :=
  revoke (fun invite => invite.batchID = batchID) now

def applyRevocations (tokens : List String) (now : ℤ) (state : StoreState) :
    Except StoreError StoreState := do
  let (genesis, set) ← buildRevocationSet P state
  let filled ← tokens.foldlM (fun applied token =>
    match applied.apply P token with
    | (.error error, _) => .error (StoreError.revocation error)
    | (.ok _, after) => .ok after) set
  let filed ← materializeRevocations P { state with revocations := filled.tokens } genesis filled
  return { filed with updatedAt := unix now }

def applyMemberships (tokens : List String) (now : ℤ) (state : StoreState) :
    Except StoreError StoreState := do
  let filed ← materializeMemberships P { state with memberships := state.memberships ++ tokens }
  if filed.memberships.any fun token => token ∉ state.memberships then
    return { filed with updatedAt := unix now }
  else return filed

inductive StoreCall where
  | addInvitations (invitations : List Invitation) (now : ℤ)
  | redeemInvitation (inviteID consumerPeerID issuedMembership : String) (now : ℤ)
  | revokeInvitation (inviteID : String) (now : ℤ)
  | revokeBatch (batchID : String) (now : ℤ)
  | applyRevocations (tokens : List String) (now : ℤ)
  | applyMemberships (tokens : List String) (now : ℤ)

/-- The outcome of a call: what a redemption returns, and the file. -/
def StoreCall.run (written : Bool) (disk : StoreState) :
    StoreCall → Except StoreError (Option String × StoreState)
  | addInvitations invitations now => do
      return (none, ← mutate P written (Peer.addInvitations invitations now) disk)
  | redeemInvitation inviteID consumerPeerID issuedMembership now => do
      let (membership, after) ←
        Peer.redeemInvitation P inviteID consumerPeerID issuedMembership now written disk
      return (some membership, after)
  | revokeInvitation inviteID now => do
      return (none, ← mutate P written (Peer.revokeInvitation inviteID now) disk)
  | revokeBatch batchID now => do
      return (none, ← mutate P written (Peer.revokeBatch batchID now) disk)
  | applyRevocations tokens now =>
    if tokens = [] ∨ unix now ≤ 0 then .error .inviteInvalid
    else do return (none, ← mutate P written (Peer.applyRevocations P tokens now) disk)
  | applyMemberships tokens now =>
    if tokens = [] ∨ tokens.length > maxMembershipCandidates ∨ unix now ≤ 0 then
      .error .membershipLimit
    else do return (none, ← mutate P written (Peer.applyMemberships P tokens now) disk)

end Store

end Atterm.Peer
