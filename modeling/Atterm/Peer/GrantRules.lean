/-
**When a membership is accepted.**

One lemma for each check of a membership: the check passes exactly when the stated conditions hold.
The verifier of a chain is then a chain of these conditions, which later modules read in either
direction.

* `validateGrant_ok_iff` — the fields of one grant;
* `checkAuthority_ok_iff` — the authority it was issued under permits it;
* `verifyGrantFrom_ok_iff` — one link with everything below it.
-/

import Atterm.Peer.Documents

namespace Atterm.Peer

open Atterm.Foundation

variable {P : Primitives}

theorem decodeSized_ok_iff {value name : String} {size : ℕ} {bytes : Bytes} :
    decodeSized value size name = .ok bytes ↔
      Base64.decodeStrict value = some bytes ∧ bytes.length = size := by
  unfold decodeSized
  cases read : Base64.decodeStrict value with
  | none => simp
  | some decoded =>
    simp only [ne_eq, ite_not]
    by_cases sized : decoded.length = size
    · rw [if_pos sized, Except.ok.injEq, Option.some.injEq]
      constructor
      · rintro rfl
        exact ⟨rfl, sized⟩
      · exact fun found => found.1
    · rw [if_neg sized]
      constructor
      · intro success
        cases success
      · rintro ⟨same, length⟩
        rw [Option.some.injEq] at same
        exact absurd (same ▸ length) sized

theorem decodeSized_encode (bytes : Bytes) (name : String) :
    decodeSized (Base64.encode bytes) bytes.length name = .ok bytes :=
  decodeSized_ok_iff.mpr ⟨Base64.decodeStrict_encode bytes, rfl⟩

theorem verifyGenesis_token {token : String} {genesis : VerifiedGenesis}
    (anchored : verifyGenesis P token = .ok genesis) : genesis.token = token := by
  unfold verifyGenesis at anchored
  obtain ⟨signed, _, rest⟩ := bind_ok anchored
  obtain ⟨publicKey, _, rest⟩ := bind_ok rest
  obtain ⟨_, _, rest⟩ := bind_ok rest
  cases checked : P.verify publicKey signed.raw signed.signature with
  | error reason =>
    rw [checked] at rest
    cases rest
  | ok done =>
    rw [checked, Except.ok.injEq] at rest
    rw [← rest]

theorem splitOn_signedToken {tag : String} (raw signature : Bytes) (plain : '.' ∉ tag.toList) :
    (signedToken tag raw signature).toList.splitOn '.' =
      [tag.toList, (Base64.encode raw).toList, (Base64.encode signature).toList] :=
  Base64.splitOn_dotted raw signature plain

theorem signedToken_size_ne_zero (tag : String) (raw signature : Bytes) :
    (signedToken tag raw signature).utf8ByteSize ≠ 0 := by
  simp [signedToken]

/-- **What was signed parses**, as long as it fits in a token. -/
theorem parseDocument_signedToken {α : Type} {tag : String} {read : Bytes → Except String α}
    {raw signature : Bytes} {document : α} (plain : '.' ∉ tag.toList)
    (size : (signedToken tag raw signature).utf8ByteSize ≤ maxTokenBytes)
    (length : signature.length = signatureSize) (readable : read raw = .ok document) :
    parseDocument tag read (signedToken tag raw signature) = .ok ⟨document, raw, signature⟩ := by
  have fits : ¬ ((signedToken tag raw signature).utf8ByteSize = 0 ∨
      (signedToken tag raw signature).utf8ByteSize > maxTokenBytes) := by
    rw [not_or]
    exact ⟨signedToken_size_ne_zero tag raw signature, not_lt.mpr size⟩
  have sized : decodeSized (Base64.encode signature) signatureSize "signature" = .ok signature := by
    rw [← length]
    exact decodeSized_encode signature "signature"
  unfold parseDocument
  rw [if_neg fits, splitOn_signedToken raw signature plain]
  simp only [String.ofList_toList, ne_eq, not_true_eq_false, if_false, Base64.decodeStrict_encode,
    sized, readable]
  rfl

theorem decodeWrappingPublicKey_ok_iff {value name : String} {bytes : Bytes} :
    decodeWrappingPublicKey P value name = .ok bytes ↔
      decodeSized value wrappingPublicKeySize name = .ok bytes ∧ P.wrappingKeyValid bytes := by
  unfold decodeWrappingPublicKey
  rw [bind_ok_iff]
  constructor
  · rintro ⟨decoded, read, rest⟩
    obtain ⟨valid, same⟩ := guard_ok rest
    rw [Except.ok.injEq] at same
    subst same
    exact ⟨read, not_not.mp valid⟩
  · rintro ⟨read, valid⟩
    exact ⟨bytes, read, by rw [if_neg (not_not.mpr valid)]⟩

theorem validateDigest_ok_iff {value name : String} :
    validateDigest value name = .ok () ↔
      ∃ bytes, Base64.decodeStrict value = some bytes ∧ bytes.length = 32 := by
  unfold validateDigest
  rw [bind_ok_iff]
  constructor
  · rintro ⟨bytes, read, _⟩
    exact ⟨bytes, decodeSized_ok_iff.mp read⟩
  · rintro ⟨bytes, read⟩
    exact ⟨bytes, decodeSized_ok_iff.mpr read, rfl⟩

theorem validateDigest_toBool_eq_true_iff {value name : String} :
    ¬ (validateDigest value name).toBool = false ↔ validateDigest value name = .ok () := by
  cases validateDigest value name with
  | error error => simp [Except.toBool]
  | ok done => simp [Except.toBool]

theorem validateDigest_peerID (publicKey : Bytes) (name : String) :
    validateDigest (peerID P publicKey) name = .ok () :=
  validateDigest_ok_iff.mpr ⟨_, Base64.decodeStrict_encode _, P.sha256_length publicKey⟩

theorem checkSessionIDs_ok_iff {seen ids : List String} :
    checkSessionIDs P seen ids = .ok () ↔
      (∀ id ∈ ids, P.uuidValid id) ∧ ids.Nodup ∧ ∀ id ∈ ids, id ∉ seen := by
  induction ids generalizing seen with
  | nil => simp [checkSessionIDs]
  | cons id rest ih =>
    rw [checkSessionIDs, guard_ok_iff, guard_ok_iff, ih, not_not]
    simp only [List.forall_mem_cons, List.nodup_cons]
    simp only [List.mem_cons, not_or]
    constructor
    · rintro ⟨valid, fresh, valids, distinct, others⟩
      exact ⟨⟨valid, valids⟩, ⟨fun again => (others id again).1 rfl, distinct⟩, fresh,
        fun other member => (others other member).2⟩
    · rintro ⟨⟨valid, valids⟩, ⟨once, distinct⟩, fresh, others⟩
      refine ⟨valid, fresh, valids, distinct, fun other member => ⟨?_, others other member⟩⟩
      rintro rfl
      exact once member

theorem validateSessionIDs_ok_iff {ids : List String} :
    validateSessionIDs P ids = .ok () ↔ (∀ id ∈ ids, P.uuidValid id) ∧ ids.Nodup := by
  unfold validateSessionIDs
  rw [checkSessionIDs_ok_iff]
  simp

theorem scopeSubset_iff {child parent : List String} :
    scopeSubset child parent ↔ parent = [] ∨ (child ≠ [] ∧ ∀ id ∈ child, id ∈ parent) := by
  unfold scopeSubset
  by_cases all : parent = []
  · simp [all]
  · by_cases none : child = []
    · simp [all, none]
    · simp [all, none]

/-- What `validateGrant` checks of a grant. -/
structure ValidGrant (P : Primitives) (genesis : VerifiedGenesis) (now : ℤ) (publicKey : Bytes)
    (doc : DeviceGrant) : Prop where
  version : doc.v = version
  serial : P.uuidValid doc.serial
  space : doc.spaceID = genesis.document.spaceID
  genesisHash : doc.spaceGenesisHash = genesis.hash
  subject : peerID P publicKey = doc.subjectPeerID
  issuer : validateDigest doc.issuerPeerID "issuer peer id" = .ok ()
  issuedAt_pos : 0 < doc.issuedAt
  issuedAt_le : doc.issuedAt ≤ unix (now + 5 * minute)
  expires_after : doc.expiresAt = 0 ∨ doc.issuedAt < doc.expiresAt
  unexpired : doc.expiresAt = 0 ∨ unix now < doc.expiresAt
  permission : doc.permission.valid
  depth_nonneg : 0 ≤ doc.delegationDepth
  depth_le : doc.delegationDepth ≤ 8
  sessions : validateSessionIDs P doc.allowedSessionIDs = .ok ()

theorem validateGrant_ok_iff {genesis : VerifiedGenesis} {now : ℤ} {publicKey : Bytes}
    {doc : DeviceGrant} :
    validateGrant P doc genesis publicKey now = .ok () ↔ ValidGrant P genesis now publicKey doc := by
  unfold validateGrant
  simp only [guard_ok_iff, not_or, ne_eq, not_not, not_and, not_le, not_lt,
    validateDigest_toBool_eq_true_iff]
  constructor
  · rintro ⟨⟨version, serial, space, hash⟩, ⟨subject, issuer⟩, ⟨positive, soon, order⟩, fresh,
      ⟨permission, low, high⟩, sessions⟩
    refine ⟨version, serial, space, hash, subject, issuer, positive, soon, ?_, ?_, permission, low,
      high, sessions⟩
    · exact or_iff_not_imp_left.mpr order
    · refine or_iff_not_imp_left.mpr fun limited => ?_
      have := fresh limited
      omega
  · intro valid
    refine ⟨⟨valid.version, valid.serial, valid.space, valid.genesisHash⟩,
      ⟨valid.subject, valid.issuer⟩, ⟨valid.issuedAt_pos, valid.issuedAt_le, ?_⟩, ?_,
      ⟨valid.permission, valid.depth_nonneg, valid.depth_le⟩, valid.sessions⟩
    · exact or_iff_not_imp_left.mp valid.expires_after
    · intro limited
      have := valid.unexpired.resolve_left limited
      omega

/-- What `checkAuthority` wants of a grant under the authority it was issued with. -/
structure Authority.Permits (issuer : Authority) (doc : DeviceGrant) : Prop where
  canInvite : issuer.canInvite
  rank : permissionRank doc.permission ≤ permissionRank issuer.permission
  secrets : doc.canSyncSecrets → issuer.canSyncSecrets
  depth : 0 ≤ issuer.depth → doc.delegationDepth = issuer.depth + 1
  childDepth : issuer.depth < 0 → doc.issuerPeerID ≠ doc.subjectPeerID → doc.delegationDepth = 1
  scope : scopeSubset doc.allowedSessionIDs issuer.sessions

theorem checkAuthority_ok_iff {doc : DeviceGrant} {issuer : Authority} :
    checkAuthority doc issuer = .ok () ↔ issuer.Permits doc := by
  unfold checkAuthority
  simp only [guard_ok_iff, not_or, ne_eq, not_not, not_and, not_lt, ge_iff_le, and_true]
  constructor
  · rintro ⟨⟨canInvite, rank, secrets⟩, depth, childDepth, scope⟩
    exact ⟨canInvite, rank, secrets, depth, childDepth, scope⟩
  · intro permits
    exact ⟨⟨permits.canInvite, permits.rank, permits.secrets⟩, permits.depth, permits.childDepth,
      permits.scope⟩

theorem issuerAuthority_ok_iff {genesis : VerifiedGenesis} {doc : DeviceGrant}
    {verify : String → Except DocumentError VerifiedGrant} {authority : Authority} :
    issuerAuthority genesis doc verify = .ok authority ↔
      (doc.issuerPeerID = genesis.document.creatorPeerID ∧ authority = genesis.authority) ∨
      (doc.issuerPeerID ≠ genesis.document.creatorPeerID ∧ doc.issuerMembership ≠ "" ∧
        ∃ issuer, verify doc.issuerMembership = .ok issuer ∧
          issuer.document.subjectPeerID = doc.issuerPeerID ∧ authority = issuer.authority) := by
  unfold issuerAuthority
  by_cases root : doc.issuerPeerID = genesis.document.creatorPeerID
  · rw [if_pos root, Except.ok.injEq]
    constructor
    · rintro rfl
      exact Or.inl ⟨root, rfl⟩
    · rintro (⟨_, rfl⟩ | ⟨other, _⟩)
      · rfl
      · exact absurd root other
  rw [if_neg root]
  by_cases missing : doc.issuerMembership = ""
  · simp [root, missing]
  rw [if_neg missing]
  cases verified : verify doc.issuerMembership with
  | error error => simp [root]
  | ok issuer =>
    simp only [guard_ok_iff, ne_eq, not_not, Except.ok.injEq]
    constructor
    · rintro ⟨named, rfl⟩
      exact Or.inr ⟨root, missing, issuer, rfl, named, rfl⟩
    · rintro (⟨same, _⟩ | ⟨_, _, found, rfl, named, rfl⟩)
      · exact absurd same root
      · exact ⟨named, rfl⟩

structure AcceptedLink (P : Primitives) (genesis : VerifiedGenesis) (now : ℤ)
    (verify : String → Except DocumentError VerifiedGrant) (token : String)
    (signed : Signed GrantPayload) (authority : Authority) (grant : VerifiedGrant) : Prop where
  parsed : parseDocument membershipTag P.readGrant token = .ok signed
  token_eq : grant.token = token
  document_eq : grant.document = signed.document.decoded
  publicKey : decodeSized grant.document.subjectPublicKey publicKeySize "subject public key"
    = .ok grant.publicKey
  wrappingPublicKey : decodeWrappingPublicKey P grant.document.subjectWrappingPublicKey
    "subject wrapping public key" = .ok grant.wrappingPublicKey
  valid : ValidGrant P genesis now grant.publicKey grant.document
  issued : issuerAuthority genesis grant.document verify = .ok authority
  permitted : authority.Permits grant.document
  signature : P.verify authority.publicKey signed.raw signed.signature = .ok ()

/-- **A link is accepted** exactly when its own fields are in order, its issuer is, and the issuer
permits it. -/
theorem verifyGrantFrom_ok_iff {genesis : VerifiedGenesis} {now : ℤ} {remaining : ℕ}
    {token : String} {grant : VerifiedGrant} :
    verifyGrantFrom P genesis now (remaining + 1) token = .ok grant ↔
      ∃ signed authority, AcceptedLink P genesis now (verifyGrantFrom P genesis now remaining) token
        signed authority grant := by
  rw [verifyGrantFrom]
  simp only [bind_ok_iff]
  constructor
  · rintro ⟨signed, parsed, publicKey, key, wrapping, wrap, _, valid, authority, issued, _, permitted,
      last⟩
    rw [validateGrant_ok_iff] at valid
    rw [checkAuthority_ok_iff] at permitted
    cases checked : P.verify authority.publicKey signed.raw signed.signature with
    | error reason =>
      rw [checked] at last
      cases last
    | ok done =>
      rw [checked, Except.ok.injEq] at last
      subst last
      exact ⟨signed, authority, parsed, rfl, rfl, key, wrap, valid, issued, permitted, checked⟩
  · rintro ⟨signed, authority, link⟩
    obtain ⟨parsed, sameToken, sameDocument, key, wrap, valid, issued, permitted, checked⟩ := link
    obtain ⟨_, document, publicKey, wrapping⟩ := grant
    subst sameToken sameDocument
    refine ⟨signed, parsed, publicKey, key, wrapping, wrap, (), validateGrant_ok_iff.mpr valid,
      authority, issued, (), checkAuthority_ok_iff.mpr permitted, ?_⟩
    rw [checked]

end Atterm.Peer
