/-
**The member directory of the web client.**

The web client builds the list of active members from the membership and revocation tokens it holds.
Against the daemon's rules (of the memberships of a device the newest counts, if it is valid now and
not denied) it reads every token as of now, so that one token out of time stops the whole directory,
and it looks away from a revocation dated after its own clock.

* `verifyRevocation`, `activeMemberships` — the client's code;
* `Active` — the members by the daemon's rules;
* `directory_agrees_iff` — exactly when it is the daemon's.
-/

import Atterm.Peer.WebAgreement
import Atterm.Peer.Renewal
import Atterm.Foundation.Registry

namespace Atterm.Peer.Web

open Atterm.Foundation
open Std (ExtTreeMap)

def isDigest (text : String) : Bool :=
  match base64URLToBytes text with
  | .ok bytes => bytes.length = 32
  | .error _ => false

structure VerifiedRevocation where
  token : String
  document : Revocation
  hash : String
deriving DecidableEq

section Directory

variable (P : Primitives)

def revocationFields (doc : Revocation) (genesis : VerifiedGenesis) : Except String Unit :=
  if doc.v ≠ 1 ∨ ¬ isUUID doc.revocationID ∨ doc.spaceID ≠ genesis.document.spaceID ∨
      doc.spaceGenesisHash ≠ genesis.hash ∨ ¬ doc.kind.valid ∨ ¬ isDigest doc.actorPeerID ∨
      ¬ isSafeInteger doc.createdAt ∨ doc.createdAt ≤ 0 ∨
      (if doc.kind = .member then ¬ isDigest doc.targetID else ¬ isUUID doc.targetID) then
    .error "peer document: invalid revocation"
  else .ok ()

def revocationAllowed (kind : RevocationKind) (actor : VerifiedGrant) : Bool :=
  if kind = .invitationBatch then actor.document.canInvite
  else actor.document.permission = .full && actor.document.canInvite

def verifyRevocation (token : String) (genesis : VerifiedGenesis) :
    Except String VerifiedRevocation := do
  let parsed ← parseSigned revocationTag P.readRevocation token
  let doc := parsed.document
  revocationFields doc genesis
  let actor ← verifyGrant P doc.actorMembership genesis (doc.createdAt * 1000)
  if ¬ revocationAllowed doc.kind actor ∨ actor.document.subjectPeerID ≠ doc.actorPeerID ∨
      actor.document.issuedAt > doc.createdAt then
    .error "peer document: revocation denied"
  else do
    verifySignature P actor.publicKey parsed.raw parsed.signature
    return ⟨token, doc, bytesToBase64URL (P.sha256 token.toUTF8.toList)⟩

/-- The newest issue time wins, then the smaller serial, then the smaller token. -/
def canonicalAfter (grant current : VerifiedGrant) : Bool :=
  grant.document.issuedAt > current.document.issuedAt ∨
    (grant.document.issuedAt = current.document.issuedAt ∧
      (grant.document.serial < current.document.serial ∨
        (grant.document.serial = current.document.serial ∧ grant.token < current.token)))

structure Denials where
  members : List String := []
  grants : List String := []

/-- A revocation dated after the clock is skipped. -/
def Denials.add (now : ℤ) (denials : Denials) (revocation : VerifiedRevocation) : Denials :=
  if revocation.document.createdAt > seconds now then denials
  else
    { members := if revocation.document.kind = .member then
        revocation.document.targetID :: denials.members else denials.members
      grants := if revocation.document.kind = .grant then
        revocation.document.targetID :: denials.grants else denials.grants }

def readMembership (genesis : VerifiedGenesis) (now : ℤ) :
    ExtTreeMap String String × ExtTreeMap String VerifiedGrant → String →
      Except String (ExtTreeMap String String × ExtTreeMap String VerifiedGrant) :=
  readStep (fun token => verifyGrant P token genesis now) (fun grant => grant.document.serial)
    VerifiedGrant.token "peer document: membership serial fork"
    (crown canonicalAfter fun grant => grant.document.subjectPeerID)

def readRevocation (genesis : VerifiedGenesis) (now : ℤ) :
    ExtTreeMap String String × Denials → String →
      Except String (ExtTreeMap String String × Denials) :=
  readStep (fun token => verifyRevocation P token genesis)
    (fun revocation => revocation.document.revocationID) VerifiedRevocation.hash
    "peer document: revocation fork" (Denials.add now)

/-- The active members. `collate` is the order of `localeCompare`. -/
def activeMemberships (collate : String → String → Bool) (tokens revocationTokens : List String)
    (genesis : VerifiedGenesis) (now : ℤ) : Except String (List VerifiedGrant) := do
  let (_, byPeer) ← tokens.eraseDups.foldlM (readMembership P genesis now) (∅, ∅)
  let (_, denials) ← revocationTokens.eraseDups.foldlM (readRevocation P genesis now) (∅, {})
  let active := (mapValues byPeer).filter fun grant =>
    grant.document.subjectPeerID ∉ denials.members ∧ grant.document.serial ∉ denials.grants
  return active.mergeSort fun left right =>
    collate left.document.subjectPeerID right.document.subjectPeerID

end Directory

/-! ### The daemon's rules -/

/-- A revocation denies a membership, by its device or by its serial. -/
def Denies (doc : Revocation) (grant : DeviceGrant) : Prop :=
  (doc.kind = .member ∧ doc.targetID = grant.subjectPeerID) ∨
    (doc.kind = .grant ∧ doc.targetID = grant.serial)

/-- Of the memberships of its device among some tokens, the one that counts. -/
structure Canonical (P : Primitives) (genesis : VerifiedGenesis) (tokens : List String)
    (grant : Peer.VerifiedGrant) : Prop where
  listed : grant.token ∈ tokens
  verified : verifyGrantAtIssuance P grant.token genesis = .ok grant
  first : ∀ other : Peer.VerifiedGrant, other.token ∈ tokens →
    verifyGrantAtIssuance P other.token genesis = .ok other →
    other.document.subjectPeerID = grant.document.subjectPeerID →
    membershipCanonicalAfter other grant = false

/-- A revocation among some tokens, of those that satisfy a condition, denies the membership. -/
def DeniedBy (P : Primitives) (genesis : VerifiedGenesis) (revocations : List String)
    (counts : Revocation → Prop) (grant : DeviceGrant) : Prop :=
  ∃ token ∈ revocations, ∃ revocation, Peer.verifyRevocation P token genesis = .ok revocation ∧
    counts revocation.document ∧ Denies revocation.document grant

/-- **The active members**: canonical, valid now, and not denied. -/
structure Active (P : Primitives) (genesis : VerifiedGenesis) (tokens revocations : List String)
    (now : ℤ) (grant : Peer.VerifiedGrant) : Prop where
  canonical : Canonical P genesis tokens grant
  valid : ValidAt P genesis grant.token (instant now)
  undenied : ¬ DeniedBy P genesis revocations (fun _ => True) grant.document

/-- A membership of the web client as the daemon has it. -/
def VerifiedGrant.decoded (grant : VerifiedGrant) : Peer.VerifiedGrant where
  token := grant.token
  document := grant.document.decoded
  publicKey := grant.publicKey
  wrappingPublicKey := grant.wrappingPublicKey

/-- A directory holds exactly the active members, one for each device. -/
structure Agrees (P : Primitives) (genesis : VerifiedGenesis) (tokens revocations : List String)
    (now : ℤ) (result : List VerifiedGrant) : Prop where
  devices : (result.map fun grant => grant.document.subjectPeerID).Nodup
  members : ∀ found, (∃ grant ∈ result, grant.decoded = found) ↔
    Active P genesis tokens revocations now found

/-- **The condition.** The client accepts every membership token as of now and every revocation,
without forks, and no canonical member is denied by later revocations alone. -/
structure DirectoryReadable (P : Primitives) (genesis : VerifiedGenesis)
    (tokens revocations : List String) (now : ℤ) : Prop where
  valid : ∀ token ∈ tokens, ∃ grant, verifyGrant P token genesis now = .ok grant
  read : ∀ token ∈ revocations, ∃ revocation, verifyRevocation P token genesis = .ok revocation
  serials : ∀ first ∈ tokens, ∀ second ∈ tokens, ∀ left right,
    verifyGrantAtIssuance P first genesis = .ok left →
    verifyGrantAtIssuance P second genesis = .ok right →
    left.document.serial = right.document.serial → first = second
  ids : ∀ first ∈ revocations, ∀ second ∈ revocations, ∀ left right,
    Peer.verifyRevocation P first genesis = .ok left →
    Peer.verifyRevocation P second genesis = .ok right →
    left.document.revocationID = right.document.revocationID → tokenHash P first = tokenHash P second
  timely : ∀ grant, Canonical P genesis tokens grant →
    DeniedBy P genesis revocations (fun _ => True) grant.document →
    DeniedBy P genesis revocations (fun doc => doc.createdAt ≤ seconds now) grant.document

/-! ### What both sides read -/

variable {P : Primitives} {genesis : VerifiedGenesis} {now : ℤ}

theorem verifyGrantFrom_token {remaining : ℕ} {token : String} {grant : VerifiedGrant}
    (accepted : verifyGrantFrom P genesis now remaining token = .ok grant) : grant.token = token := by
  cases remaining with
  | zero => cases accepted
  | succ remaining =>
    rw [verifyGrantFrom] at accepted
    obtain ⟨_, _, rest⟩ := bind_ok accepted
    obtain ⟨_, _, rest⟩ := bind_ok rest
    obtain ⟨_, _, rest⟩ := bind_ok rest
    obtain ⟨_, _, rest⟩ := bind_ok rest
    obtain ⟨_, _, rest⟩ := bind_ok rest
    obtain ⟨_, _, rest⟩ := bind_ok rest
    obtain ⟨_, _, same⟩ := bind_ok rest
    cases same
    rfl

theorem verifyGrant_token_ne_empty {token : String} {grant : VerifiedGrant}
    (accepted : verifyGrant P token genesis now = .ok grant) : grant.token ≠ "" := by
  rw [verifyGrantFrom_token accepted]
  rintro rfl
  obtain ⟨signed, issuer, link⟩ := verifyGrantFrom_ok accepted
  exact absurd rfl (not_or.mp (guard_ok link.parsed).1).1

theorem decoded_eq {token : String} {grant : VerifiedGrant} {found : Peer.VerifiedGrant}
    (accepted : verifyGrant P token genesis now = .ok grant)
    (verified : verifyGrantAtIssuance P token genesis = .ok found) : grant.decoded = found := by
  obtain ⟨signed, issuer, link⟩ := verifyGrantFrom_ok accepted
  obtain ⟨again, authority, daemon⟩ :=
    verifyGrantFrom_ok_iff.mp (verifyGrantAtIssuance_ok_iff.mp verified)
  have parsed := daemon.parsed.symm.trans link.parsed
  rw [Except.ok.injEq] at parsed
  have document : found.document = grant.document.decoded := by
    rw [daemon.document_eq, link.document_eq, parsed]
  obtain ⟨key, _, wrapping⟩ := readKeys_ok link.keys
  have publicKey := daemon.publicKey
  rw [document] at publicKey
  have sameKey := publicKey.symm.trans key
  have wrappingKey := (decodeWrappingPublicKey_ok_iff.mp daemon.wrappingPublicKey).1
  rw [document] at wrappingKey
  have sameWrapping := wrappingKey.symm.trans wrapping
  rw [Except.ok.injEq] at sameKey sameWrapping
  obtain ⟨foundToken, foundDocument, foundKey, foundWrapping⟩ := found
  have tokenEq : foundToken = grant.token :=
    daemon.token_eq.trans (verifyGrantFrom_token accepted).symm
  cases tokenEq
  cases document
  cases sameKey
  cases sameWrapping
  rfl

theorem inTime_of_accepted {remaining : ℕ} {token : String} {grant : VerifiedGrant}
    (accepted : verifyGrantFrom P genesis now remaining token = .ok grant) :
    ∀ entry ∈ embeddedChain P genesis remaining token, entry.InTime (instant now) := by
  induction remaining generalizing token grant with
  | zero => cases accepted
  | succ remaining ih =>
    obtain ⟨signed, issuer, link⟩ := verifyGrantFrom_ok accepted
    have own : signed.document.decoded.InTime (instant now) := by
      have fields := link.fields
      rw [link.document_eq] at fields
      refine ⟨?_, ?_⟩
      · rw [unix_instant_skew]
        exact fields.issuedAt_le
      · rw [unix_instant]
        show signed.document.expiresAt.getD 0 = 0 ∨ seconds now < signed.document.expiresAt.getD 0
        cases limited : signed.document.expiresAt with
        | none => exact Or.inl rfl
        | some expiresAt => exact Or.inr (fields.lifetime expiresAt limited).2
    have issued := readIssuer_ok link.issued
    rw [link.document_eq] at issued
    rw [embeddedChain_of_parsed link.parsed,
      show signed.document.decoded.issuerPeerID = signed.document.issuerPeerID from rfl]
    rcases issued with ⟨creator, _⟩ | ⟨delegated, _, below, verified, _⟩
    · rw [if_pos creator]
      exact List.forall_mem_singleton.mpr own
    · rw [if_neg delegated]
      exact List.forall_mem_cons.mpr ⟨own, ih verified⟩

theorem validAt_of_accepted {token : String} {grant : VerifiedGrant} {found : Peer.VerifiedGrant}
    (accepted : verifyGrant P token genesis now = .ok grant)
    (verified : verifyGrantAtIssuance P token genesis = .ok found) :
    ValidAt P genesis token (instant now) :=
  (validAt_iff (verifyGrantAtIssuance_ok_iff.mp verified)).mpr (inTime_of_accepted accepted)

theorem verifyRevocation_ok {token : String} {revocation : VerifiedRevocation}
    (accepted : verifyRevocation P token genesis = .ok revocation) :
    revocation.hash = tokenHash P token ∧ revocation.hash ≠ "" ∧
      ∀ found, Peer.verifyRevocation P token genesis = .ok found →
        found.document = revocation.document := by
  obtain ⟨signed, parsed, rest⟩ := bind_ok accepted
  obtain ⟨_, _, rest⟩ := bind_ok rest
  obtain ⟨actor, _, rest⟩ := bind_ok rest
  obtain ⟨_, rest⟩ := guard_ok rest
  obtain ⟨_, _, same⟩ := bind_ok rest
  cases same
  refine ⟨rfl, Base64.encode_ne_empty ?_, ?_⟩
  · intro none
    have length := P.sha256_length token.toUTF8.toList
    rw [none] at length
    cases length
  · intro found verified
    obtain ⟨_, _, rest⟩ := bind_ok verified
    obtain ⟨again, reparsed, rest⟩ := bind_ok rest
    obtain ⟨_, rest⟩ := guard_ok rest
    obtain ⟨actor, _, rest⟩ := bind_ok rest
    have both := reparsed.symm.trans (parseSigned_ok parsed)
    rw [Except.ok.injEq] at both
    cases checked : P.verify actor.publicKey again.raw again.signature with
    | error reason =>
      rw [checked] at rest
      cases rest
    | ok done =>
      rw [checked, Except.ok.injEq] at rest
      rw [← rest, both]

/-! ### The client's directory -/

theorem canonicalAfter_decoded (left right : VerifiedGrant) :
    canonicalAfter left right = membershipCanonicalAfter left.decoded right.decoded := by
  rw [Bool.eq_iff_iff, membershipCanonicalAfter_iff]
  unfold canonicalAfter
  rw [decide_eq_true_eq]
  rfl

theorem mem_denials (revocations : List VerifiedRevocation) (denials : Denials) (id : String) :
    (id ∈ (revocations.foldl (Denials.add now) denials).members ↔ id ∈ denials.members ∨
      ∃ revocation ∈ revocations, revocation.document.createdAt ≤ seconds now ∧
        revocation.document.kind = .member ∧ revocation.document.targetID = id) ∧
    (id ∈ (revocations.foldl (Denials.add now) denials).grants ↔ id ∈ denials.grants ∨
      ∃ revocation ∈ revocations, revocation.document.createdAt ≤ seconds now ∧
        revocation.document.kind = .grant ∧ revocation.document.targetID = id) := by
  induction revocations generalizing denials with
  | nil => simp
  | cons revocation rest ih =>
    obtain ⟨members, grants⟩ := ih (denials.add now revocation)
    rw [List.foldl_cons, members, grants]
    simp only [List.exists_mem_cons_iff]
    unfold Denials.add
    by_cases later : revocation.document.createdAt > seconds now
    · have skipped : ¬ revocation.document.createdAt ≤ seconds now := not_le.mpr later
      simp only [if_pos later, skipped, false_and, false_or, and_self]
    · have counted : revocation.document.createdAt ≤ seconds now := not_lt.mp later
      simp only [if_neg later, counted, true_and]
      by_cases member : revocation.document.kind = .member <;>
        by_cases grant : revocation.document.kind = .grant <;>
        simp [member, grant, or_assoc, or_left_comm, eq_comm]

/-- **When the client gets a directory**, and what it made it from. -/
theorem activeMemberships_ok_iff {collate : String → String → Bool} {tokens revocations : List String}
    {result : List VerifiedGrant} :
    activeMemberships P collate tokens revocations genesis now = .ok result ↔
      ∃ grants denied,
        List.Forall₂ (fun token grant => verifyGrant P token genesis now = .ok grant)
          tokens.eraseDups grants ∧
        Unforked (fun grant : VerifiedGrant => grant.document.serial) VerifiedGrant.token grants ∧
        List.Forall₂ (fun token revocation => verifyRevocation P token genesis = .ok revocation)
          revocations.eraseDups denied ∧
        Unforked (fun revocation : VerifiedRevocation => revocation.document.revocationID)
          VerifiedRevocation.hash denied ∧
        result = ((mapValues (grants.foldl (crown canonicalAfter fun grant =>
            grant.document.subjectPeerID) (∅ : ExtTreeMap String VerifiedGrant))).filter fun grant =>
          grant.document.subjectPeerID ∉ (denied.foldl (Denials.add now) {}).members ∧
            grant.document.serial ∉ (denied.foldl (Denials.add now) {}).grants).mergeSort
          fun left right => collate left.document.subjectPeerID right.document.subjectPeerID := by
  have memberships : ∀ byPeer, (∃ registry, tokens.eraseDups.foldlM (readMembership P genesis now)
      (∅, ∅) = .ok (registry, byPeer)) ↔ _ := fun byPeer =>
    foldlM_readStep_iff fun token grant accepted => verifyGrant_token_ne_empty accepted
  have denials : ∀ filed, (∃ registry, revocations.eraseDups.foldlM (readRevocation P genesis now)
      (∅, {}) = .ok (registry, filed)) ↔ _ := fun filed =>
    foldlM_readStep_iff fun token revocation accepted => (verifyRevocation_ok accepted).2.1
  unfold activeMemberships
  constructor
  · intro done
    obtain ⟨⟨registry, byPeer⟩, first, done⟩ := bind_ok done
    obtain ⟨⟨registry', filed⟩, second, done⟩ := bind_ok done
    obtain ⟨grants, reads, unforked, rfl⟩ := (memberships byPeer).mp ⟨registry, first⟩
    obtain ⟨denied, reads', unforked', rfl⟩ := (denials filed).mp ⟨registry', second⟩
    cases done
    exact ⟨grants, denied, reads, unforked, reads', unforked', rfl⟩
  · rintro ⟨grants, denied, reads, unforked, reads', unforked', rfl⟩
    obtain ⟨registry, first⟩ := (memberships _).mpr ⟨grants, reads, unforked, rfl⟩
    obtain ⟨registry', second⟩ := (denials _).mpr ⟨denied, reads', unforked', rfl⟩
    exact bind_ok_iff.mpr ⟨_, first, bind_ok_iff.mpr ⟨_, second, rfl⟩⟩

theorem mem_decoded_iff {tokens : List String} {grants : List VerifiedGrant}
    (members : ∀ token ∈ tokens, ∃ grant, verifyGrantAtIssuance P token genesis = .ok grant)
    (reads : List.Forall₂ (fun token grant => verifyGrant P token genesis now = .ok grant)
      tokens.eraseDups grants) (found : Peer.VerifiedGrant) :
    (∃ grant ∈ grants, grant.decoded = found) ↔
      found.token ∈ tokens ∧ verifyGrantAtIssuance P found.token genesis = .ok found := by
  constructor
  · rintro ⟨grant, member, rfl⟩
    obtain ⟨token, listed, accepted⟩ := (mem_of_forall₂ reads).2 grant member
    rw [List.mem_eraseDups] at listed
    obtain ⟨daemon, verified⟩ := members token listed
    have named : grant.decoded.token = token := verifyGrantFrom_token accepted
    rw [named, decoded_eq accepted verified]
    exact ⟨listed, verified⟩
  · rintro ⟨listed, verified⟩
    obtain ⟨grant, member, accepted⟩ :=
      (mem_of_forall₂ reads).1 found.token (List.mem_eraseDups.mpr listed)
    exact ⟨grant, member, decoded_eq accepted verified⟩

theorem eq_of_token_eq {tokens : List String} {grants : List VerifiedGrant}
    (reads : List.Forall₂ (fun token grant => verifyGrant P token genesis now = .ok grant)
      tokens.eraseDups grants) {left right : VerifiedGrant} (leftMember : left ∈ grants)
    (rightMember : right ∈ grants) (same : left.token = right.token) : left = right := by
  obtain ⟨first, _, accepted⟩ := (mem_of_forall₂ reads).2 left leftMember
  obtain ⟨second, _, accepted'⟩ := (mem_of_forall₂ reads).2 right rightMember
  rw [← verifyGrantFrom_token accepted, same, verifyGrantFrom_token accepted', accepted',
    Except.ok.injEq] at accepted
  exact accepted.symm

theorem mem_chosen_iff {tokens : List String} {grants : List VerifiedGrant}
    (reads : List.Forall₂ (fun token grant => verifyGrant P token genesis now = .ok grant)
      tokens.eraseDups grants) (grant : VerifiedGrant) :
    grant ∈ mapValues (grants.foldl (crown canonicalAfter fun grant =>
        grant.document.subjectPeerID) (∅ : ExtTreeMap String VerifiedGrant)) ↔
      grant ∈ grants ∧ ∀ other ∈ grants,
        other.document.subjectPeerID = grant.document.subjectPeerID →
          canonicalAfter other grant = false := by
  refine mem_crowned_iff ?_ ?_ ?_ grant
  · intro left right after
    rw [canonicalAfter_decoded] at after ⊢
    exact membershipCanonicalAfter_asymm _ _ after
  · intro left middle right first second
    rw [canonicalAfter_decoded] at first second ⊢
    exact membershipCanonicalAfter_trans _ _ _ first second
  · intro left leftMember right rightMember different
    rw [canonicalAfter_decoded, canonicalAfter_decoded]
    exact membershipCanonicalAfter_total fun same =>
      different (eq_of_token_eq reads leftMember rightMember same)

theorem denied_iff {revocations : List String} {denied : List VerifiedRevocation}
    (denials : ∀ token ∈ revocations, ∃ revocation,
      Peer.verifyRevocation P token genesis = .ok revocation)
    (reads : List.Forall₂ (fun token revocation => verifyRevocation P token genesis = .ok revocation)
      revocations.eraseDups denied) (grant : DeviceGrant) :
    (grant.subjectPeerID ∈ (denied.foldl (Denials.add now) {}).members ∨
        grant.serial ∈ (denied.foldl (Denials.add now) {}).grants) ↔
      DeniedBy P genesis revocations (fun doc => doc.createdAt ≤ seconds now) grant := by
  rw [(mem_denials denied {} grant.subjectPeerID).1, (mem_denials denied {} grant.serial).2]
  constructor
  · intro found
    obtain ⟨revocation, member, counted, denies⟩ : ∃ revocation ∈ denied,
        revocation.document.createdAt ≤ seconds now ∧ Denies revocation.document grant := by
      rcases found with (none | ⟨revocation, member, counted, denies⟩) |
        (none | ⟨revocation, member, counted, denies⟩)
      · exact absurd none List.not_mem_nil
      · exact ⟨revocation, member, counted, Or.inl denies⟩
      · exact absurd none List.not_mem_nil
      · exact ⟨revocation, member, counted, Or.inr denies⟩
    obtain ⟨token, listed, accepted⟩ := (mem_of_forall₂ reads).2 revocation member
    rw [List.mem_eraseDups] at listed
    obtain ⟨daemon, verified⟩ := denials token listed
    have same := (verifyRevocation_ok accepted).2.2 daemon verified
    exact ⟨token, listed, daemon, verified, same ▸ counted, same ▸ denies⟩
  · rintro ⟨token, listed, daemon, verified, counted, denies⟩
    obtain ⟨revocation, member, accepted⟩ :=
      (mem_of_forall₂ reads).1 token (List.mem_eraseDups.mpr listed)
    rw [(verifyRevocation_ok accepted).2.2 daemon verified] at counted denies
    rcases denies with byDevice | bySerial
    · exact Or.inl (Or.inr ⟨revocation, member, counted, byDevice⟩)
    · exact Or.inr (Or.inr ⟨revocation, member, counted, bySerial⟩)

/-- **What is in the client's directory**, in the daemon's terms: the canonical members that no
revocation up to now denies. -/
theorem mem_active_iff {collate : String → String → Bool} {tokens revocations : List String}
    {result : List VerifiedGrant}
    (members : ∀ token ∈ tokens, ∃ grant, verifyGrantAtIssuance P token genesis = .ok grant)
    (denials : ∀ token ∈ revocations, ∃ revocation,
      Peer.verifyRevocation P token genesis = .ok revocation)
    (done : activeMemberships P collate tokens revocations genesis now = .ok result)
    (found : Peer.VerifiedGrant) :
    (∃ grant ∈ result, grant.decoded = found) ↔ Canonical P genesis tokens found ∧
      ¬ DeniedBy P genesis revocations (fun doc => doc.createdAt ≤ seconds now) found.document := by
  obtain ⟨grants, denied, reads, _, reads', _, rfl⟩ := activeMemberships_ok_iff.mp done
  have held := mem_decoded_iff members reads
  have chosen : ∀ grant ∈ grants, (∀ other ∈ grants,
      other.document.subjectPeerID = grant.document.subjectPeerID →
        canonicalAfter other grant = false) ↔ Canonical P genesis tokens grant.decoded := by
    intro grant member
    obtain ⟨listed, verified⟩ := (held grant.decoded).mp ⟨grant, member, rfl⟩
    constructor
    · refine fun first => ⟨listed, verified, fun other otherListed otherVerified same => ?_⟩
      obtain ⟨web, inside, rfl⟩ := (held other).mpr ⟨otherListed, otherVerified⟩
      rw [← canonicalAfter_decoded]
      exact first web inside same
    · intro canonical other inside same
      obtain ⟨otherListed, otherVerified⟩ := (held other.decoded).mp ⟨other, inside, rfl⟩
      rw [canonicalAfter_decoded]
      exact canonical.first other.decoded otherListed otherVerified same
  have kept : ∀ grant : VerifiedGrant,
      (grant.document.subjectPeerID ∉ (denied.foldl (Denials.add now) {}).members ∧
        grant.document.serial ∉ (denied.foldl (Denials.add now) {}).grants) ↔
      ¬ DeniedBy P genesis revocations (fun doc => doc.createdAt ≤ seconds now)
        grant.decoded.document := by
    intro grant
    rw [← denied_iff denials reads', not_or]
    rfl
  constructor
  · rintro ⟨grant, member, rfl⟩
    rw [List.mem_mergeSort, List.mem_filter, decide_eq_true_eq, mem_chosen_iff reads, kept] at member
    obtain ⟨⟨inside, first⟩, undenied⟩ := member
    exact ⟨(chosen grant inside).mp first, undenied⟩
  · rintro ⟨canonical, undenied⟩
    obtain ⟨grant, inside, rfl⟩ := (held found).mpr ⟨canonical.listed, canonical.verified⟩
    refine ⟨grant, ?_, rfl⟩
    rw [List.mem_mergeSort, List.mem_filter, decide_eq_true_eq, mem_chosen_iff reads, kept]
    exact ⟨⟨inside, (chosen grant inside).mpr canonical⟩, undenied⟩

theorem exists_forall₂ {α β : Type} {related : α → β → Prop} {left : List α}
    (each : ∀ first ∈ left, ∃ second, related first second) :
    ∃ right, List.Forall₂ related left right := by
  induction left with
  | nil => exact ⟨[], .nil⟩
  | cons first rest ih =>
    obtain ⟨second, both⟩ := each first List.mem_cons_self
    obtain ⟨right, pairs⟩ := ih fun other member => each other (List.mem_cons_of_mem _ member)
    exact ⟨second :: right, .cons both pairs⟩

theorem activeMemberships_succeeds_iff {collate : String → String → Bool}
    {tokens revocations : List String}
    (members : ∀ token ∈ tokens, ∃ grant, verifyGrantAtIssuance P token genesis = .ok grant)
    (denials : ∀ token ∈ revocations, ∃ revocation,
      Peer.verifyRevocation P token genesis = .ok revocation) :
    (∃ result, activeMemberships P collate tokens revocations genesis now = .ok result) ↔
      (∀ token ∈ tokens, ∃ grant, verifyGrant P token genesis now = .ok grant) ∧
      (∀ token ∈ revocations, ∃ revocation, verifyRevocation P token genesis = .ok revocation) ∧
      (∀ first ∈ tokens, ∀ second ∈ tokens, ∀ left right,
        verifyGrantAtIssuance P first genesis = .ok left →
        verifyGrantAtIssuance P second genesis = .ok right →
        left.document.serial = right.document.serial → first = second) ∧
      (∀ first ∈ revocations, ∀ second ∈ revocations, ∀ left right,
        Peer.verifyRevocation P first genesis = .ok left →
        Peer.verifyRevocation P second genesis = .ok right →
        left.document.revocationID = right.document.revocationID →
        tokenHash P first = tokenHash P second) := by
  constructor
  · rintro ⟨result, done⟩
    obtain ⟨grants, denied, reads, unforked, reads', unforked', _⟩ :=
      activeMemberships_ok_iff.mp done
    have read : ∀ token ∈ tokens, ∃ grant ∈ grants, verifyGrant P token genesis now = .ok grant :=
      fun token listed => (mem_of_forall₂ reads).1 token (List.mem_eraseDups.mpr listed)
    have read' : ∀ token ∈ revocations, ∃ revocation ∈ denied,
        verifyRevocation P token genesis = .ok revocation :=
      fun token listed => (mem_of_forall₂ reads').1 token (List.mem_eraseDups.mpr listed)
    refine ⟨?_, ?_, ?_, ?_⟩
    · intro token listed
      obtain ⟨grant, _, accepted⟩ := read token listed
      exact ⟨grant, accepted⟩
    · intro token listed
      obtain ⟨revocation, _, accepted⟩ := read' token listed
      exact ⟨revocation, accepted⟩
    · intro first firstListed second secondListed left right verified verified' same
      obtain ⟨web, member, accepted⟩ := read first firstListed
      obtain ⟨web', member', accepted'⟩ := read second secondListed
      rw [← decoded_eq accepted verified, ← decoded_eq accepted' verified'] at same
      rw [← verifyGrantFrom_token accepted, ← verifyGrantFrom_token accepted']
      exact unforked web member web' member' same
    · intro first firstListed second secondListed left right verified verified' same
      obtain ⟨web, member, accepted⟩ := read' first firstListed
      obtain ⟨web', member', accepted'⟩ := read' second secondListed
      obtain ⟨hash, _, document⟩ := verifyRevocation_ok accepted
      obtain ⟨hash', _, document'⟩ := verifyRevocation_ok accepted'
      rw [document left verified, document' right verified'] at same
      rw [← hash, ← hash']
      exact unforked' web member web' member' same
  · rintro ⟨valid, read, serials, ids⟩
    obtain ⟨grants, reads⟩ := exists_forall₂ fun token (listed : token ∈ tokens.eraseDups) =>
      valid token (List.mem_eraseDups.mp listed)
    obtain ⟨denied, reads'⟩ := exists_forall₂ fun token (listed : token ∈ revocations.eraseDups) =>
      read token (List.mem_eraseDups.mp listed)
    refine ⟨_, activeMemberships_ok_iff.mpr ⟨grants, denied, reads, ?_, reads', ?_, rfl⟩⟩
    · intro left leftMember right rightMember same
      have held := mem_decoded_iff members reads
      obtain ⟨listed, verified⟩ := (held left.decoded).mp ⟨left, leftMember, rfl⟩
      obtain ⟨listed', verified'⟩ := (held right.decoded).mp ⟨right, rightMember, rfl⟩
      exact serials _ listed _ listed' _ _ verified verified' same
    · intro left leftMember right rightMember same
      obtain ⟨first, listed, accepted⟩ := (mem_of_forall₂ reads').2 left leftMember
      obtain ⟨second, listed', accepted'⟩ := (mem_of_forall₂ reads').2 right rightMember
      rw [List.mem_eraseDups] at listed listed'
      obtain ⟨daemon, verified⟩ := denials first listed
      obtain ⟨daemon', verified'⟩ := denials second listed'
      obtain ⟨hash, _, document⟩ := verifyRevocation_ok accepted
      obtain ⟨hash', _, document'⟩ := verifyRevocation_ok accepted'
      rw [hash, hash']
      refine ids first listed second listed' daemon daemon' verified verified' ?_
      rw [document daemon verified, document' daemon' verified']
      exact same

/-- **The client's directory is the daemon's** exactly when the condition holds. -/
theorem directory_agrees_iff (P : Primitives) (collate : String → String → Bool)
    (genesis : VerifiedGenesis) (tokens revocations : List String) (now : ℤ)
    (members : ∀ token ∈ tokens, ∃ grant, verifyGrantAtIssuance P token genesis = .ok grant)
    (denials : ∀ token ∈ revocations, ∃ revocation,
      Peer.verifyRevocation P token genesis = .ok revocation) :
    (∃ result, activeMemberships P collate tokens revocations genesis now = .ok result ∧
        Agrees P genesis tokens revocations now result) ↔
      DirectoryReadable P genesis tokens revocations now := by
  have succeeds : (∃ result, activeMemberships P collate tokens revocations genesis now
      = .ok result) ↔ _ := activeMemberships_succeeds_iff members denials
  have inTime : (∀ token ∈ tokens, ∃ grant, verifyGrant P token genesis now = .ok grant) →
      ∀ found, Canonical P genesis tokens found → ValidAt P genesis found.token (instant now) := by
    intro valid found canonical
    obtain ⟨grant, accepted⟩ := valid found.token canonical.listed
    exact validAt_of_accepted accepted canonical.verified
  constructor
  · rintro ⟨result, done, agrees⟩
    obtain ⟨valid, read, serials, ids⟩ := succeeds.mp ⟨result, done⟩
    refine ⟨valid, read, serials, ids, fun found canonical denied => ?_⟩
    by_contra undenied
    have listed := (mem_active_iff members denials done found).mpr ⟨canonical, undenied⟩
    exact ((agrees.members found).mp listed).undenied denied
  · intro readable
    obtain ⟨result, done⟩ :=
      succeeds.mpr ⟨readable.valid, readable.read, readable.serials, readable.ids⟩
    refine ⟨result, done, ?_, fun found => ?_⟩
    · obtain ⟨grants, denied, reads, _, _, _, rfl⟩ := activeMemberships_ok_iff.mp done
      exact ((List.mergeSort_perm _ _).map _).nodup_iff.mpr
        ((nodup_keys_crowned grants).sublist (List.filter_sublist.map _))
    · rw [mem_active_iff members denials done found]
      constructor
      · rintro ⟨canonical, undenied⟩
        exact ⟨canonical, inTime readable.valid found canonical,
          fun denied => undenied (readable.timely found canonical denied)⟩
      · intro active
        refine ⟨active.canonical, fun denied => active.undenied ?_⟩
        obtain ⟨token, listed, revocation, verified, _, denies⟩ := denied
        exact ⟨token, listed, revocation, verified, trivial, denies⟩

/-! ### A membership that ended, and a denial dated ahead -/

/-- The creator's own membership ends in second 9000, that of peer one does not. -/
def lapsing : List GrantPayload :=
  [sampleGrant 0 0,
    { sampleGrant 1 1 with
      serial := "44444444-4444-4444-8444-444444444444"
      expiresAt := none }]

def leaving : Revocation := sampleRevocation "66666666-6666-4666-8666-666666666666" 0 3000

def lapsingPrimitives : Primitives :=
  samplePrimitives sampleGenesis.document lapsing [] [leaving]

def lapsingCreator : Peer.VerifiedGrant :=
  ⟨sampleToken membershipTag 0, lapsing[0].decoded, sampleKey 0, sampleKey 0⟩

def lapsingMember : Peer.VerifiedGrant :=
  ⟨sampleToken membershipTag 1, lapsing[1].decoded, sampleKey 1, sampleKey 1⟩

theorem lapsing_creator_sample : SamplePayload lapsing[0] 0 0 :=
  ⟨⟨0, rfl⟩, rfl, rfl, by decide, by decide, Or.inl rfl⟩

theorem lapsing_creator_verified :
    verifyGrantAtIssuance lapsingPrimitives (sampleToken membershipTag 0) sampleGenesis
      = .ok lapsingCreator :=
  verifyGrantAtIssuance_ok_iff.mpr (sample_root_accepted lapsing_creator_sample rfl
    (by decide) (by decide) (by decide) fun other => absurd rfl other)

theorem lapsing_member_accepted {now : ℤ} (started : 1000 ≤ unix (now + 5 * minute)) :
    Peer.verifyGrant lapsingPrimitives (sampleToken membershipTag 1) sampleGenesis now
      = .ok lapsingMember := by
  have sample : DatedPayload lapsing[1] 1 0 :=
    ⟨⟨1, rfl⟩, by decide, by decide, Or.inl rfl, rfl, rfl, by decide, by decide, Or.inl rfl⟩
  exact dated_root_accepted sample rfl (by decide) started (Or.inl rfl) fun _ => rfl

theorem lapsing_member_verified :
    verifyGrantAtIssuance lapsingPrimitives (sampleToken membershipTag 1) sampleGenesis
      = .ok lapsingMember :=
  verifyGrantAtIssuance_ok_iff.mpr (lapsing_member_accepted (by decide))

theorem lapsing_parsed : parseDocument membershipTag lapsingPrimitives.readGrant
    (sampleToken membershipTag 0) = .ok ⟨lapsing[0], [0], List.replicate 64 1⟩ :=
  parseDocument_signedToken (by decide) (by decide) rfl rfl

theorem lapsed_refused : ¬ ∃ grant, verifyGrant lapsingPrimitives (sampleToken membershipTag 0)
    sampleGenesis 9500000 = .ok grant := by
  rintro ⟨grant, accepted⟩
  have chain : embeddedChain lapsingPrimitives sampleGenesis chainLimit (sampleToken membershipTag 0)
      = [lapsing[0].decoded] := (embeddedChain_of_parsed lapsing_parsed).trans (if_pos rfl)
  have inTime := inTime_of_accepted accepted lapsing[0].decoded (chain ▸ List.mem_cons_self)
  exact absurd inTime (by decide)

theorem lapsing_creator_accepted {now : ℤ} (started : 1000 ≤ seconds now)
    (alive : seconds now < 9000) :
    verifyGrant lapsingPrimitives (sampleToken membershipTag 0) sampleGenesis now
      = .ok ⟨sampleToken membershipTag 0, lapsing[0], sampleKey 0, sampleKey 0⟩ :=
  sample_web_accepted lapsing_creator_sample rfl (by decide) started alive (if_pos rfl)
    (by decide)

theorem leaving_verified : Peer.verifyRevocation lapsingPrimitives (sampleToken revocationTag 0)
    sampleGenesis = .ok ⟨sampleToken revocationTag 0, leaving, sampleKey 0,
      tokenHash lapsingPrimitives (sampleToken revocationTag 0)⟩ :=
  sampleRevocation_verified rfl rfl (by decide) (by decide) (by decide) (by decide)

theorem leaving_accepted : verifyRevocation lapsingPrimitives (sampleToken revocationTag 0)
    sampleGenesis = .ok ⟨sampleToken revocationTag 0, leaving,
      tokenHash lapsingPrimitives (sampleToken revocationTag 0)⟩ := by
  have parsed : parseSigned revocationTag lapsingPrimitives.readRevocation
      (sampleToken revocationTag 0) = .ok ⟨leaving, [0], List.replicate 64 1⟩ :=
    parseSigned_sampleToken (by decide) (by decide) rfl
  have digest : isDigest (samplePeerID 0) := by
    have read : base64URLToBytes (samplePeerID 0) = .ok (sampleDigest (sampleKey 0)) :=
      base64URLToBytes_encode (by decide)
    unfold isDigest
    rw [read]
    rfl
  have fields : revocationFields leaving sampleGenesis = .ok () := by
    refine guard_ok_iff.mpr ⟨?_, rfl⟩
    rw [if_pos (show leaving.kind = .member from rfl)]
    simp only [not_or, not_not, not_le]
    exact ⟨rfl, by decide, rfl, rfl, rfl, digest, by decide, by decide, digest⟩
  refine bind_ok_iff.mpr ⟨_, parsed, bind_ok_iff.mpr ⟨_, fields, bind_ok_iff.mpr ⟨_,
    lapsing_creator_accepted (by decide) (by decide), guard_ok_iff.mpr ⟨?_, rfl⟩⟩⟩⟩
  simp only [not_or, not_not, not_lt, gt_iff_lt]
  exact ⟨rfl, rfl, by decide⟩

theorem lapsing_member_canonical : Canonical lapsingPrimitives sampleGenesis
    [sampleToken membershipTag 0, sampleToken membershipTag 1] lapsingMember := by
  refine ⟨List.mem_cons_of_mem _ List.mem_cons_self, lapsing_member_verified, ?_⟩
  intro other listed verified same
  rcases List.mem_pair.mp listed with named | named
  · rw [named, lapsing_creator_verified, Except.ok.injEq] at verified
    rw [← verified] at same
    exact absurd same (by decide)
  · rw [named, lapsing_member_verified, Except.ok.injEq] at verified
    rw [← verified]
    exact Bool.eq_false_iff.mpr (membershipCanonicalAfter_irrefl _)

theorem lapsing_creator_canonical : Canonical lapsingPrimitives sampleGenesis
    [sampleToken membershipTag 0] lapsingCreator := by
  refine ⟨List.mem_cons_self, lapsing_creator_verified, ?_⟩
  intro other listed verified same
  rw [List.mem_singleton.mp listed, lapsing_creator_verified, Except.ok.injEq] at verified
  rw [← verified]
  exact Bool.eq_false_iff.mpr (membershipCanonicalAfter_irrefl _)

theorem leaving_readable (now : ℤ) (started : 1000 ≤ seconds now) (alive : seconds now < 9000) :
    (∀ token ∈ [sampleToken membershipTag 0],
      ∃ grant, verifyGrant lapsingPrimitives token sampleGenesis now = .ok grant) ∧
    (∀ token ∈ [sampleToken revocationTag 0],
      ∃ revocation, verifyRevocation lapsingPrimitives token sampleGenesis = .ok revocation) := by
  constructor
  · intro token listed
    rw [List.mem_singleton.mp listed]
    exact ⟨_, lapsing_creator_accepted started alive⟩
  · intro token listed
    rw [List.mem_singleton.mp listed]
    exact ⟨_, leaving_accepted⟩

theorem leaving_members : ∀ token ∈ [sampleToken membershipTag 0],
    ∃ grant, verifyGrantAtIssuance lapsingPrimitives token sampleGenesis = .ok grant := by
  intro token listed
  rw [List.mem_singleton.mp listed]
  exact ⟨_, lapsing_creator_verified⟩

theorem leaving_denials : ∀ token ∈ [sampleToken revocationTag 0],
    ∃ revocation, Peer.verifyRevocation lapsingPrimitives token sampleGenesis = .ok revocation := by
  intro token listed
  rw [List.mem_singleton.mp listed]
  exact ⟨_, leaving_verified⟩

theorem eq_of_mem_singleton {α : Type} {item first second : α} (left : first ∈ [item])
    (right : second ∈ [item]) : first = second :=
  (List.mem_singleton.mp left).trans (List.mem_singleton.mp right).symm

theorem directory_agrees_iff_left : ∃ result,
    activeMemberships lapsingPrimitives (fun left right => left ≤ right)
      [sampleToken membershipTag 0] [sampleToken revocationTag 0] sampleGenesis 4000000 = .ok result ∧
    Agrees lapsingPrimitives sampleGenesis [sampleToken membershipTag 0]
      [sampleToken revocationTag 0] 4000000 result := by
  obtain ⟨valid, read⟩ := leaving_readable 4000000 (by decide) (by decide)
  refine (directory_agrees_iff lapsingPrimitives _ sampleGenesis _ _ 4000000 leaving_members
    leaving_denials).mpr ⟨valid, read, ?_, ?_, ?_⟩
  · exact fun first left second right _ _ _ _ _ => eq_of_mem_singleton left right
  · intro first left second right _ _ _ _ _
    rw [eq_of_mem_singleton left right]
  · rintro grant _ ⟨token, listed, revocation, verified, _, denies⟩
    refine ⟨token, listed, revocation, verified, ?_, denies⟩
    rw [List.mem_singleton.mp listed, leaving_verified, Except.ok.injEq] at verified
    rw [← verified]
    show (3000 : ℤ) ≤ seconds 4000000
    decide

/-- **No directory after one membership has ended**, and a member that is denied ahead of the clock:
the creator has left with second 3000, and is listed in second 2000. -/
theorem directory_disagrees :
    ((∀ token ∈ [sampleToken membershipTag 0, sampleToken membershipTag 1],
        ∃ grant, verifyGrantAtIssuance lapsingPrimitives token sampleGenesis = .ok grant) ∧
      Active lapsingPrimitives sampleGenesis
        [sampleToken membershipTag 0, sampleToken membershipTag 1] [] 9500000 lapsingMember ∧
      ¬ ∃ result, activeMemberships lapsingPrimitives (fun left right => left ≤ right)
        [sampleToken membershipTag 0, sampleToken membershipTag 1] [] sampleGenesis 9500000
          = .ok result) ∧
    ((∀ token ∈ [sampleToken membershipTag 0],
        ∃ grant, verifyGrantAtIssuance lapsingPrimitives token sampleGenesis = .ok grant) ∧
      (∀ token ∈ [sampleToken revocationTag 0],
        ∃ revocation, Peer.verifyRevocation lapsingPrimitives token sampleGenesis = .ok revocation) ∧
      ∃ result, activeMemberships lapsingPrimitives (fun left right => left ≤ right)
          [sampleToken membershipTag 0] [sampleToken revocationTag 0] sampleGenesis 2000000
            = .ok result ∧
        ∃ grant ∈ result, ¬ Active lapsingPrimitives sampleGenesis [sampleToken membershipTag 0]
          [sampleToken revocationTag 0] 2000000 grant.decoded) := by
  refine ⟨⟨?_, ⟨lapsing_member_canonical, ⟨_, lapsing_member_accepted (by decide)⟩, ?_⟩, ?_⟩,
    leaving_members, leaving_denials, ?_⟩
  · intro token listed
    rcases List.mem_pair.mp listed with rfl | rfl
    · exact ⟨_, lapsing_creator_verified⟩
    · exact ⟨_, lapsing_member_verified⟩
  · rintro ⟨token, listed, _⟩
    exact absurd listed List.not_mem_nil
  · rintro ⟨result, done⟩
    obtain ⟨grants, _, reads, _⟩ := activeMemberships_ok_iff.mp done
    obtain ⟨grant, _, accepted⟩ := (mem_of_forall₂ reads).1 (sampleToken membershipTag 0)
      (List.mem_eraseDups.mpr List.mem_cons_self)
    exact lapsed_refused ⟨grant, accepted⟩
  · obtain ⟨valid, read⟩ := leaving_readable 2000000 (by decide) (by decide)
    have undenied : ¬ DeniedBy lapsingPrimitives sampleGenesis [sampleToken revocationTag 0]
        (fun doc => doc.createdAt ≤ seconds 2000000) lapsingCreator.document := by
      rintro ⟨token, listed, revocation, verified, early, _⟩
      rw [List.mem_singleton.mp listed, leaving_verified, Except.ok.injEq] at verified
      rw [← verified] at early
      exact absurd early (show ¬ (3000 : ℤ) ≤ seconds 2000000 by decide)
    obtain ⟨result, done⟩ := (activeMemberships_succeeds_iff leaving_members leaving_denials).mpr
      ⟨valid, read, fun first left second right _ _ _ _ _ => eq_of_mem_singleton left right,
        fun first left second right _ _ _ _ _ => eq_of_mem_singleton left right ▸ rfl⟩
    refine ⟨result, done, ?_⟩
    obtain ⟨grant, member, same⟩ := (mem_active_iff leaving_members leaving_denials done
      lapsingCreator).mpr ⟨lapsing_creator_canonical, undenied⟩
    refine ⟨grant, member, fun active => active.undenied ?_⟩
    rw [same]
    exact ⟨_, List.mem_cons_self, _, leaving_verified, trivial, Or.inl ⟨rfl, rfl⟩⟩

end Atterm.Peer.Web
