/-
**What the web client accepts, compared with the daemon.**

The two verifiers read the same payloads. The web client's encodings, texts and times are read the
same way by the daemon or more narrowly, so a membership it accepts fails at the daemon for three
reasons only: the wrapping key of a grant is not a point of the curve, an empty scope stands under a
restricted one, or an invitation comes from a member that may not invite.

* `parseSigned_ok`, `base64URLToBytes_ok`, `isUUID_hyphenated` — texts and envelopes agree;
* `daemon_accepts_iff` — grants and invitations under a genesis the web client verified;
* `web_accepts_widened` — the tokens the web client accepts and the daemon refuses.
-/

import Atterm.Peer.Web
import Atterm.Peer.Attenuation

namespace Atterm.Peer.Web

open Atterm.Foundation

/-! ### Texts and envelopes agree -/

/-- Five groups of hexadecimal digits, the form the UUID library always takes. -/
def Hyphenated (text : String) : Prop :=
  matchesClasses (uuidClasses isHex isHex) text.toList

theorem matchesClasses_mono {narrow wide : List (Char → Bool)}
    (below : List.Forall₂ (fun one other => ∀ char, one char → other char) narrow wide) :
    ∀ {chars : List Char}, matchesClasses narrow chars → matchesClasses wide chars := by
  induction below with
  | nil =>
    intro chars found
    cases chars with
    | nil => rfl
    | cons char chars => cases found
  | cons first _ ih =>
    intro chars found
    cases chars with
    | nil => cases found
    | cons char chars =>
      rw [matchesClasses, Bool.and_eq_true] at found ⊢
      exact ⟨first char found.1, ih found.2⟩

theorem isHex_of_version (char : Char) (digit : inRange '1' '5' char) : isHex char := by
  have wider : inRange '0' '9' char := by
    unfold inRange at digit ⊢
    rw [decide_eq_true_eq] at digit ⊢
    have low : ('0' : Char).toNat ≤ ('1' : Char).toNat := by decide
    have high : ('5' : Char).toNat ≤ ('9' : Char).toNat := by decide
    omega
  unfold isHex
  rw [wider]
  rfl

theorem isHex_of_variant (char : Char) (digit : char ∈ ['8', '9', 'a', 'b', 'A', 'B']) :
    isHex char := by
  simp only [List.mem_cons, List.not_mem_nil, or_false] at digit
  rcases digit with rfl | rfl | rfl | rfl | rfl | rfl <;> rfl

theorem isUUID_hyphenated {text : String} (found : isUUID text) : Hyphenated text := by
  have same : ∀ classes : List (Char → Bool),
      List.Forall₂ (fun one other => ∀ char, one char → other char) classes classes :=
    fun classes => List.forall₂_same.mpr fun _ _ _ => id
  refine matchesClasses_mono ?_ found
  unfold uuidClasses
  refine List.rel_append (List.rel_append (List.rel_append (List.rel_append (List.rel_append
    (List.rel_append (List.rel_append (same _) (.cons isHex_of_version .nil)) (same _)) (same _))
    (.cons ?_ .nil)) (same _)) (same _)) (same _)
  exact fun char digit => isHex_of_variant char (of_decide_eq_true digit)

theorem base64URLToBytes_ok {value : String} {bytes : Bytes}
    (read : base64URLToBytes value = .ok bytes) : Base64.decodeStrict value = some bytes := by
  unfold base64URLToBytes at read
  obtain ⟨_, rest⟩ := guard_ok read
  cases loose : Base64.decodeLoose value with
  | none =>
    rw [loose] at rest
    cases rest
  | some out =>
    rw [loose] at rest
    obtain ⟨canonical, same⟩ := guard_ok rest
    rw [Except.ok.injEq] at same
    subst same
    rw [← not_not.mp canonical]
    exact Base64.decodeStrict_encode out

theorem parseSigned_ok {α : Type} {tag : String} {read : Bytes → Except String α} {token : String}
    {signed : Signed α} (parsed : parseSigned tag read token = .ok signed) :
    parseDocument tag read token = .ok signed := by
  unfold parseSigned at parsed
  obtain ⟨sized, rest⟩ := guard_ok parsed
  have small : ¬ (token.utf8ByteSize = 0 ∨ token.utf8ByteSize > Peer.maxTokenBytes) := sized
  split at rest
  next kind payload signature parts =>
    unfold parseDocument
    rw [if_neg small, parts]
    obtain ⟨tagged, rest⟩ := guard_ok rest
    obtain ⟨raw, rawRead, rest⟩ := bind_ok rest
    obtain ⟨sig, sigRead, rest⟩ := bind_ok rest
    obtain ⟨lowS, rest⟩ := guard_ok rest
    have length : sig.length = signatureSize := by
      rw [not_not] at lowS
      exact (of_decide_eq_true lowS).1
    have sigSized : decodeSized (String.ofList signature) signatureSize "signature" = .ok sig :=
      decodeSized_ok_iff.mpr ⟨base64URLToBytes_ok sigRead, length⟩
    simp only [if_neg tagged, base64URLToBytes_ok rawRead, sigSized]
    cases document : read raw with
    | error reason =>
      rw [document] at rest
      cases rest
    | ok found =>
      rw [document, Except.ok.injEq] at rest
      rw [← rest]
      rfl
  next => cases rest

theorem validateScope_ok {child parent : List String} (passed : validateScope child parent = .ok ()) :
    (∀ id ∈ child, isUUID id) ∧ child.Nodup ∧ (parent = [] ∨ ∀ id ∈ child, id ∈ parent) := by
  unfold validateScope at passed
  obtain ⟨wellFormed, rest⟩ := guard_ok passed
  obtain ⟨inside, _⟩ := guard_ok rest
  simp only [not_or, not_not, List.any_eq_true, Bool.not_eq_true', not_exists, not_and] at wellFormed
  simp only [not_and, gt_iff_lt, List.length_pos_iff, List.any_eq_true, Bool.not_eq_true',
    not_exists] at inside
  refine ⟨fun id member => by simpa using wellFormed.1 id member, wellFormed.2, ?_⟩
  refine or_iff_not_imp_left.mpr fun some id member => ?_
  simpa using inside some id member

/-! ### Times agree -/

/-- A `Date` on the daemon's clock. -/
def instant (now : ℤ) : ℤ := now * 1000000

theorem unix_instant (now : ℤ) : unix (instant now) = seconds now := by
  unfold unix instant seconds second
  omega

theorem unix_instant_skew (now : ℤ) :
    unix (instant now + 5 * minute) = seconds now + clockSkewSeconds := by
  unfold unix instant seconds minute second clockSkewSeconds
  omega

/-! ### Permissions agree -/

theorem isPermission_valid {permission : Permission} (found : isPermission permission) :
    permission.valid ∧ permissionRank permission = Peer.permissionRank permission := by
  cases permission with
  | view => exact ⟨rfl, rfl⟩
  | control => exact ⟨rfl, rfl⟩
  | full => exact ⟨rfl, rfl⟩
  | other text => simp [isPermission] at found

/-! ### One link -/

variable {P : Primitives} {genesis : VerifiedGenesis} {now : ℤ}

theorem verifySignature_ok {publicKey raw signature : Bytes}
    (checked : verifySignature P publicKey raw signature = .ok ()) :
    P.verify publicKey raw signature = .ok () := by
  unfold verifySignature at checked
  cases verified : P.verify publicKey raw signature with
  | error reason =>
    rw [verified] at checked
    cases checked
  | ok done => rfl

theorem peerIDFromPublicKey_ok {publicKey : Bytes} {owner : String}
    (read : peerIDFromPublicKey P publicKey = .ok owner) :
    publicKey.length = 65 ∧ peerID P publicKey = owner := by
  unfold peerIDFromPublicKey at read
  obtain ⟨shaped, same⟩ := guard_ok read
  rw [not_or, not_not] at shaped
  rw [Except.ok.injEq] at same
  exact ⟨shaped.1, same⟩

/-- What the web client has checked of the fields of a membership. -/
structure FieldsOk (genesis : VerifiedGenesis) (now : ℤ) (grant : GrantPayload) : Prop where
  version : grant.v = 1
  serial : isUUID grant.serial
  space : grant.spaceID = genesis.document.spaceID
  genesisHash : grant.spaceGenesisHash = genesis.hash
  permission : isPermission grant.permission
  issuedAt_pos : 0 < grant.issuedAt
  issuedAt_le : grant.issuedAt ≤ seconds now + clockSkewSeconds
  depth_nonneg : 0 ≤ grant.delegationDepth
  depth_le : grant.delegationDepth ≤ 8
  lifetime : ∀ expiresAt, grant.expiresAt = some expiresAt →
    grant.issuedAt < expiresAt ∧ seconds now < expiresAt

theorem checkFields_ok {grant : GrantPayload} (passed : checkFields grant genesis now = .ok ()) :
    FieldsOk genesis now grant := by
  unfold checkFields at passed
  obtain ⟨fields, rest⟩ := guard_ok passed
  simp only [not_or, not_not, not_le, not_lt, gt_iff_lt] at fields
  obtain ⟨version, serial, space, hash, permission, _, positive, soon, _, low, high⟩ := fields
  refine ⟨version, serial, space, hash, permission, positive, soon, low, high, ?_⟩
  intro expiresAt limited
  rw [limited] at rest
  obtain ⟨lifetime, _⟩ := guard_ok rest
  simp only [not_or, not_le, ge_iff_le] at lifetime
  exact lifetime.2

theorem readKeys_ok {grant : GrantPayload} {keys : Bytes × Bytes} (read : readKeys P grant = .ok keys) :
    decodeSized grant.subjectPublicKey publicKeySize "subject public key" = .ok keys.1 ∧
      peerID P keys.1 = grant.subjectPeerID ∧
      decodeSized grant.subjectWrappingPublicKey wrappingPublicKeySize "subject wrapping public key"
        = .ok keys.2 := by
  unfold readKeys at read
  obtain ⟨publicKey, first, rest⟩ := bind_ok read
  obtain ⟨wrapping, second, rest⟩ := bind_ok rest
  obtain ⟨sized, rest⟩ := guard_ok rest
  obtain ⟨owner, known, rest⟩ := bind_ok rest
  obtain ⟨named, same⟩ := guard_ok rest
  cases same
  obtain ⟨length, digest⟩ := peerIDFromPublicKey_ok known
  exact ⟨decodeSized_ok_iff.mpr ⟨base64URLToBytes_ok first, length⟩,
    digest.trans (not_not.mp named),
    decodeSized_ok_iff.mpr ⟨base64URLToBytes_ok second, not_not.mp sized⟩⟩

theorem readIssuer_ok {grant : GrantPayload} {verify : String → Except String VerifiedGrant}
    {issuer : Issuer} (read : readIssuer genesis grant verify = .ok issuer) :
    (grant.issuerPeerID = genesis.document.creatorPeerID ∧ issuer = genesisIssuer genesis) ∨
    (grant.issuerPeerID ≠ genesis.document.creatorPeerID ∧ grant.decoded.issuerMembership ≠ "" ∧
      ∃ found, verify grant.decoded.issuerMembership = .ok found ∧
        found.document.subjectPeerID = grant.issuerPeerID ∧ issuer = grantIssuer found) := by
  unfold readIssuer at read
  by_cases root : grant.issuerPeerID = genesis.document.creatorPeerID
  · rw [if_pos root, Except.ok.injEq] at read
    exact Or.inl ⟨root, read.symm⟩
  rw [if_neg root] at read
  cases embedded : grant.issuerMembership with
  | none =>
    rw [embedded] at read
    cases read
  | some membership =>
    rw [embedded] at read
    obtain ⟨present, rest⟩ := guard_ok read
    obtain ⟨found, verified, rest⟩ := bind_ok rest
    obtain ⟨named, same⟩ := guard_ok rest
    cases same
    have decoded : grant.decoded.issuerMembership = membership := by
      show grant.issuerMembership.getD "" = membership
      rw [embedded]
      rfl
    rw [decoded]
    exact Or.inr ⟨root, present, found, verified, not_not.mp named, rfl⟩

theorem readIssuer_delegated {grant : GrantPayload} {verify : String → Except String VerifiedGrant}
    {membership : String} {issuer : VerifiedGrant}
    (delegated : grant.issuerPeerID ≠ genesis.document.creatorPeerID)
    (embedded : grant.issuerMembership = some membership) (some : membership ≠ "")
    (verified : verify membership = .ok issuer)
    (named : issuer.document.subjectPeerID = grant.issuerPeerID) :
    readIssuer genesis grant verify = .ok (grantIssuer issuer) := by
  unfold readIssuer
  rw [if_neg delegated, embedded]
  exact guard_ok_iff.mpr ⟨some, bind_ok_iff.mpr ⟨_, verified,
    guard_ok_iff.mpr ⟨not_not.mpr named, rfl⟩⟩⟩

/-- What the web client has checked of a membership under its issuer. -/
structure IssuerOk (grant : GrantPayload) (issuer : Issuer) : Prop where
  canInvite : issuer.canInvite
  rank : permissionRank grant.permission ≤ permissionRank issuer.permission
  secrets : grant.canSyncSecrets → issuer.canSyncSecrets
  depth : 0 ≤ issuer.depth → grant.delegationDepth = issuer.depth + 1
  childDepth : issuer.depth < 0 → grant.issuerPeerID ≠ grant.subjectPeerID →
    grant.delegationDepth = 1
  scope : issuer.scope = [] ∨ ∀ id ∈ grant.allowedSessionIDs, id ∈ issuer.scope

theorem checkIssuer_ok {grant : GrantPayload} {issuer : Issuer}
    (passed : checkIssuer grant issuer = .ok ()) : IssuerOk grant issuer := by
  unfold checkIssuer at passed
  obtain ⟨capabilities, rest⟩ := guard_ok passed
  obtain ⟨depth, rest⟩ := guard_ok rest
  simp only [not_or, not_not, not_and, not_lt, gt_iff_lt] at capabilities
  refine ⟨capabilities.1, capabilities.2.1, capabilities.2.2, ?_, ?_, (validateScope_ok rest).2.2⟩
  · intro delegated
    rw [if_pos delegated, not_not] at depth
    exact depth
  · intro root other
    rw [if_neg (by omega), not_and, not_not] at depth
    exact depth other

/-- What the web client leaves unchecked of a grant: its wrapping key is a point of the curve. -/
def WrappingKeyOnCurve (P : Primitives) (grant : DeviceGrant) : Prop :=
  ∀ key, Base64.decodeStrict grant.subjectWrappingPublicKey = some key → P.wrappingKeyValid key

/-- What it leaves unchecked of a link: an empty scope does not stand under a restricted one. -/
def ScopeKept (child issuer : List String) : Prop := issuer ≠ [] → child ≠ []

/-- What the daemon asks of a chain beyond what the web client does. -/
structure DaemonConditions (P : Primitives) (chain : List DeviceGrant) : Prop where
  wrapping : ∀ grant ∈ chain, WrappingKeyOnCurve P grant
  scopes : chain.IsChain fun child issuer =>
    ScopeKept child.allowedSessionIDs issuer.allowedSessionIDs

theorem FieldsOk.valid {grant : GrantPayload} {publicKey : Bytes}
    (uuids : ∀ text, Hyphenated text → P.uuidValid text) (fields : FieldsOk genesis now grant)
    (subject : peerID P publicKey = grant.subjectPeerID)
    (scope : validateScope grant.allowedSessionIDs [] = .ok ())
    (issuer : validateDigest grant.issuerPeerID "issuer peer id" = .ok ()) :
    ValidGrant P genesis (instant now) publicKey grant.decoded where
  version := fields.version
  serial := uuids _ (isUUID_hyphenated fields.serial)
  space := fields.space
  genesisHash := fields.genesisHash
  subject := subject
  issuer := issuer
  issuedAt_pos := fields.issuedAt_pos
  issuedAt_le := by
    rw [unix_instant_skew]
    exact fields.issuedAt_le
  expires_after := by
    show grant.expiresAt.getD 0 = 0 ∨ grant.issuedAt < grant.expiresAt.getD 0
    cases limited : grant.expiresAt with
    | none => exact Or.inl rfl
    | some expiresAt => exact Or.inr (fields.lifetime expiresAt limited).1
  unexpired := by
    show grant.expiresAt.getD 0 = 0 ∨ unix (instant now) < grant.expiresAt.getD 0
    rw [unix_instant]
    cases limited : grant.expiresAt with
    | none => exact Or.inl rfl
    | some expiresAt => exact Or.inr (fields.lifetime expiresAt limited).2
  permission := (isPermission_valid fields.permission).1
  depth_nonneg := fields.depth_nonneg
  depth_le := fields.depth_le
  sessions := by
    obtain ⟨ids, distinct, _⟩ := validateScope_ok scope
    exact validateSessionIDs_ok_iff.mpr ⟨fun id member => uuids id (isUUID_hyphenated (ids id member)),
      distinct⟩

structure WebLink (P : Primitives) (genesis : VerifiedGenesis) (now : ℤ)
    (verify : String → Except String VerifiedGrant) (token : String) (signed : Signed GrantPayload)
    (issuer : Issuer) (grant : VerifiedGrant) : Prop where
  parsed : parseDocument membershipTag P.readGrant token = .ok signed
  document_eq : grant.document = signed.document
  fields : FieldsOk genesis now grant.document
  keys : readKeys P grant.document = .ok (grant.publicKey, grant.wrappingPublicKey)
  scope : validateScope grant.document.allowedSessionIDs [] = .ok ()
  issued : readIssuer genesis grant.document verify = .ok issuer
  permitted : IssuerOk grant.document issuer
  signature : P.verify issuer.publicKey signed.raw signed.signature = .ok ()

theorem verifyGrantFrom_ok {remaining : ℕ} {token : String} {grant : VerifiedGrant}
    (accepted : verifyGrantFrom P genesis now (remaining + 1) token = .ok grant) :
    ∃ signed issuer, WebLink P genesis now (verifyGrantFrom P genesis now remaining) token signed
      issuer grant := by
  rw [verifyGrantFrom] at accepted
  obtain ⟨signed, parsed, rest⟩ := bind_ok accepted
  obtain ⟨_, fields, rest⟩ := bind_ok rest
  obtain ⟨keys, read, rest⟩ := bind_ok rest
  obtain ⟨_, scope, rest⟩ := bind_ok rest
  obtain ⟨issuer, issued, rest⟩ := bind_ok rest
  obtain ⟨_, permitted, rest⟩ := bind_ok rest
  obtain ⟨_, checked, same⟩ := bind_ok rest
  cases same
  exact ⟨signed, issuer, parseSigned_ok parsed, rfl, checkFields_ok fields, read, scope, issued,
    checkIssuer_ok permitted, verifySignature_ok checked⟩

/-- How the daemon treats a token the web client accepted. -/
structure LinkAgreement (P : Primitives) (genesis : VerifiedGenesis) (now : ℤ) (remaining : ℕ)
    (token : String) (grant : VerifiedGrant) (rest : List DeviceGrant) : Prop where
  permission : isPermission grant.document.permission
  subject : peerID P grant.publicKey = grant.document.subjectPeerID
  chain : IssuerChain P genesis token (grant.document.decoded :: rest)
  same : ∀ found, Peer.verifyGrantFrom P genesis (instant now) remaining token = .ok found →
    found.document = grant.document.decoded ∧ found.publicKey = grant.publicKey
  accepts_iff : (∃ found, Peer.verifyGrantFrom P genesis (instant now) remaining token = .ok found) ↔
    DaemonConditions P (grant.document.decoded :: rest)

theorem WebLink.same {remaining : ℕ} {verify : String → Except String VerifiedGrant}
    {token : String} {signed : Signed GrantPayload} {issuer : Issuer} {grant : VerifiedGrant}
    (link : WebLink P genesis now verify token signed issuer grant) {found : Peer.VerifiedGrant}
    (accepted : Peer.verifyGrantFrom P genesis (instant now) (remaining + 1) token = .ok found) :
    found.document = grant.document.decoded ∧ found.publicKey = grant.publicKey := by
  obtain ⟨again, _, daemon⟩ := verifyGrantFrom_ok_iff.mp accepted
  have parsed := daemon.parsed.symm.trans link.parsed
  rw [Except.ok.injEq] at parsed
  have document : found.document = grant.document.decoded := by
    rw [daemon.document_eq, link.document_eq, parsed]
  have key := daemon.publicKey
  rw [document] at key
  have both := key.symm.trans (readKeys_ok link.keys).1
  rw [Except.ok.injEq] at both
  exact ⟨document, both⟩

theorem WebLink.accepts_iff {remaining : ℕ} {verify : String → Except String VerifiedGrant}
    {token : String} {signed : Signed GrantPayload} {issuer : Issuer} {grant : VerifiedGrant}
    (uuids : ∀ text, Hyphenated text → P.uuidValid text)
    (link : WebLink P genesis now verify token signed issuer grant)
    (digest : validateDigest grant.document.issuerPeerID "issuer peer id" = .ok ()) :
    (∃ found, Peer.verifyGrantFrom P genesis (instant now) (remaining + 1) token = .ok found) ↔
      WrappingKeyOnCurve P grant.document.decoded ∧
        ∃ authority, issuerAuthority genesis grant.document.decoded
            (Peer.verifyGrantFrom P genesis (instant now) remaining) = .ok authority ∧
          authority.Permits grant.document.decoded ∧
          P.verify authority.publicKey signed.raw signed.signature = .ok () := by
  obtain ⟨key, subject, wrapping⟩ := readKeys_ok link.keys
  constructor
  · rintro ⟨found, accepted⟩
    obtain ⟨document, _⟩ := link.same accepted
    obtain ⟨again, authority, daemon⟩ := verifyGrantFrom_ok_iff.mp accepted
    have parsed := daemon.parsed.symm.trans link.parsed
    rw [Except.ok.injEq] at parsed
    subst parsed
    refine ⟨?_, authority, document ▸ daemon.issued, document ▸ daemon.permitted,
      daemon.signature⟩
    intro bytes read
    obtain ⟨decoded, onCurve⟩ := decodeWrappingPublicKey_ok_iff.mp daemon.wrappingPublicKey
    rw [document] at decoded
    have both := (decodeSized_ok_iff.mp decoded).1.symm.trans read
    rw [Option.some.injEq] at both
    exact both ▸ onCurve
  · rintro ⟨onCurve, authority, issued, permitted, signature⟩
    refine ⟨⟨token, grant.document.decoded, grant.publicKey, grant.wrappingPublicKey⟩,
      verifyGrantFrom_ok_iff.mpr ⟨signed, authority, link.parsed, rfl, ?_, key, ?_, ?_, issued,
        permitted, signature⟩⟩
    · rw [link.document_eq]
    · refine decodeWrappingPublicKey_ok_iff.mpr ⟨wrapping, ?_⟩
      exact onCurve _ (decodeSized_ok_iff.mp wrapping).1
    · exact link.fields.valid uuids subject link.scope digest

theorem IssuerOk.permits_root {grant : GrantPayload} (permission : isPermission grant.permission)
    (passed : IssuerOk grant (genesisIssuer genesis)) : genesis.authority.Permits grant.decoded where
  canInvite := rfl
  rank := by
    have rank := passed.rank
    rw [(isPermission_valid permission).2] at rank
    exact rank
  secrets := fun _ => rfl
  depth := fun delegated => absurd delegated (show ¬ (0 : ℤ) ≤ -1 by decide)
  childDepth := passed.childDepth
  scope := scopeSubset_iff.mpr (Or.inl rfl)

theorem IssuerOk.permits_iff {grant : GrantPayload} {issuer : VerifiedGrant}
    {found : Peer.VerifiedGrant} (permission : isPermission grant.permission)
    (issuerPermission : isPermission issuer.document.permission)
    (document : found.document = issuer.document.decoded)
    (passed : IssuerOk grant (grantIssuer issuer)) :
    found.authority.Permits grant.decoded ↔
      ScopeKept grant.allowedSessionIDs issuer.document.allowedSessionIDs := by
  have fields : found.authority.permission = issuer.document.permission ∧
      found.authority.canInvite = issuer.document.canInvite ∧
      found.authority.canSyncSecrets = issuer.document.canSyncSecrets ∧
      found.authority.sessions = issuer.document.allowedSessionIDs ∧
      found.authority.depth = issuer.document.delegationDepth := by
    unfold Peer.VerifiedGrant.authority
    rw [document]
    exact ⟨rfl, rfl, rfl, rfl, rfl⟩
  obtain ⟨issuerRank, invites, syncs, sessions, depth⟩ := fields
  constructor
  · intro permits restricted
    have scope := permits.scope
    rw [sessions] at scope
    exact ((scopeSubset_iff.mp scope).resolve_left restricted).1
  · intro kept
    refine ⟨by rw [invites]; exact passed.canInvite, ?_, by rw [syncs]; exact passed.secrets,
      by rw [depth]; exact passed.depth, by rw [depth]; exact passed.childDepth, ?_⟩
    · have rank : permissionRank grant.permission ≤ permissionRank issuer.document.permission :=
        passed.rank
      rw [(isPermission_valid permission).2, (isPermission_valid issuerPermission).2] at rank
      rw [issuerRank]
      exact rank
    · rw [sessions]
      refine scopeSubset_iff.mpr ?_
      rcases passed.scope with all | inside
      · exact Or.inl all
      · by_cases restricted : issuer.document.allowedSessionIDs = []
        · exact Or.inl restricted
        · exact Or.inr ⟨kept restricted, inside⟩

theorem linkAgreement_root {remaining : ℕ} {verify : String → Except String VerifiedGrant}
    {token : String} {signed : Signed GrantPayload} {grant : VerifiedGrant}
    (uuids : ∀ text, Hyphenated text → P.uuidValid text)
    (creator : peerID P genesis.publicKey = genesis.document.creatorPeerID)
    (link : WebLink P genesis now verify token signed (genesisIssuer genesis) grant)
    (root : grant.document.issuerPeerID = genesis.document.creatorPeerID) :
    LinkAgreement P genesis now (remaining + 1) token grant [] where
  permission := link.fields.permission
  subject := (readKeys_ok link.keys).2.1
  chain := by
    rw [link.document_eq] at root ⊢
    exact .root link.parsed root
  same := fun _ accepted => link.same accepted
  accepts_iff := by
    have digest : validateDigest grant.document.issuerPeerID "issuer peer id" = .ok () := by
      rw [root, ← creator]
      exact validateDigest_peerID _ _
    rw [link.accepts_iff uuids digest]
    constructor
    · rintro ⟨onCurve, _⟩
      refine ⟨?_, List.isChain_singleton _⟩
      intro entry member
      rw [List.mem_singleton.mp member]
      exact onCurve
    · intro conditions
      refine ⟨conditions.wrapping _ (List.mem_singleton_self _), genesis.authority,
        issuerAuthority_ok_iff.mpr (Or.inl ⟨root, rfl⟩), ?_, link.signature⟩
      exact link.permitted.permits_root link.fields.permission

theorem linkAgreement_link {remaining : ℕ} {verify : String → Except String VerifiedGrant}
    {token : String} {signed : Signed GrantPayload} {grant issuer : VerifiedGrant}
    {rest : List DeviceGrant} (uuids : ∀ text, Hyphenated text → P.uuidValid text)
    (link : WebLink P genesis now verify token signed (grantIssuer issuer) grant)
    (delegated : grant.document.issuerPeerID ≠ genesis.document.creatorPeerID)
    (embedded : grant.document.decoded.issuerMembership ≠ "")
    (named : issuer.document.subjectPeerID = grant.document.issuerPeerID)
    (below : LinkAgreement P genesis now remaining grant.document.decoded.issuerMembership issuer
      rest) :
    LinkAgreement P genesis now (remaining + 1) token grant (issuer.document.decoded :: rest) where
  permission := link.fields.permission
  subject := (readKeys_ok link.keys).2.1
  chain := by
    have deeper := below.chain
    rw [link.document_eq] at delegated deeper ⊢
    exact .link link.parsed delegated deeper
  same := fun _ accepted => link.same accepted
  accepts_iff := by
    have digest : validateDigest grant.document.issuerPeerID "issuer peer id" = .ok () := by
      rw [← named, ← below.subject]
      exact validateDigest_peerID _ _
    rw [link.accepts_iff uuids digest]
    constructor
    · rintro ⟨onCurve, authority, issued, permitted, _⟩
      rcases issuerAuthority_ok_iff.mp issued with ⟨root, _⟩ | ⟨_, _, found, verified, _, rfl⟩
      · exact absurd root delegated
      obtain ⟨document, _⟩ := below.same found verified
      have conditions := below.accepts_iff.mp ⟨found, verified⟩
      have kept := (link.permitted.permits_iff link.fields.permission below.permission document).mp
        permitted
      refine ⟨?_, List.isChain_cons_cons.mpr ⟨kept, conditions.scopes⟩⟩
      intro entry member
      rcases List.mem_cons.mp member with rfl | older
      · exact onCurve
      · exact conditions.wrapping entry older
    · intro conditions
      obtain ⟨kept, scopes⟩ := List.isChain_cons_cons.mp conditions.scopes
      obtain ⟨found, verified⟩ := below.accepts_iff.mpr
        ⟨fun entry member => conditions.wrapping entry (List.mem_cons_of_mem _ member), scopes⟩
      obtain ⟨document, key⟩ := below.same found verified
      refine ⟨conditions.wrapping _ List.mem_cons_self, found.authority,
        issuerAuthority_ok_iff.mpr (Or.inr ⟨delegated, embedded, found, verified, ?_, rfl⟩), ?_, ?_⟩
      · rw [document]
        exact named
      · exact (link.permitted.permits_iff link.fields.permission below.permission document).mpr kept
      · show P.verify found.publicKey signed.raw signed.signature = .ok ()
        rw [key]
        exact link.signature

theorem daemon_link_iff (uuids : ∀ text, Hyphenated text → P.uuidValid text)
    (creator : peerID P genesis.publicKey = genesis.document.creatorPeerID) {remaining : ℕ}
    {token : String} {grant : VerifiedGrant}
    (accepted : verifyGrantFrom P genesis now remaining token = .ok grant) :
    ∃ rest, LinkAgreement P genesis now remaining token grant rest := by
  induction remaining generalizing token grant with
  | zero => cases accepted
  | succ remaining ih =>
    obtain ⟨signed, issuer, link⟩ := verifyGrantFrom_ok accepted
    rcases readIssuer_ok link.issued with
      ⟨root, rfl⟩ | ⟨delegated, embedded, found, verified, named, rfl⟩
    · exact ⟨[], linkAgreement_root uuids creator link root⟩
    · obtain ⟨rest, below⟩ := ih verified
      exact ⟨_, linkAgreement_link uuids link delegated embedded named below⟩

/-! ### Genesis, memberships and invitations -/

theorem verifyGenesis_ok {token : String}
    (uuids : ∀ text, Hyphenated text → P.uuidValid text)
    (accepted : verifyGenesis P token = .ok genesis) :
    Peer.verifyGenesis P token = .ok genesis ∧
      peerID P genesis.publicKey = genesis.document.creatorPeerID := by
  unfold verifyGenesis at accepted
  obtain ⟨signed, parsed, rest⟩ := bind_ok accepted
  obtain ⟨fields, rest⟩ := guard_ok rest
  obtain ⟨publicKey, read, rest⟩ := bind_ok rest
  obtain ⟨owner, known, rest⟩ := bind_ok rest
  obtain ⟨named, rest⟩ := guard_ok rest
  obtain ⟨_, checked, same⟩ := bind_ok rest
  cases same
  simp only [not_or, not_not, not_le] at fields
  obtain ⟨length, digest⟩ := peerIDFromPublicKey_ok known
  have creator : peerID P publicKey = signed.document.creatorPeerID :=
    digest.trans (not_not.mp named)
  refine ⟨?_, creator⟩
  have key : decodeSized signed.document.creatorPublicKey publicKeySize "creator public key"
      = .ok publicKey := decodeSized_ok_iff.mpr ⟨base64URLToBytes_ok read, length⟩
  have valid : validateGenesis P signed.document publicKey = .ok () := by
    unfold validateGenesis
    rw [guard_ok_iff, guard_ok_iff, not_not]
    refine ⟨?_, creator, ?_⟩
    · simp only [not_or, not_not, not_le]
      exact ⟨fields.1, uuids _ (isUUID_hyphenated fields.2.1), fields.2.2.2⟩
    · rw [← creator]
      exact validateDigest_peerID _ _
  unfold Peer.verifyGenesis
  rw [parseSigned_ok parsed]
  simp only [bind, Except.bind, key, valid, verifySignature_ok checked]
  rfl

/-- Every wrapping key of the chain is on the curve and no restricted scope is dropped. -/
def GrantConditions (P : Primitives) (genesis : VerifiedGenesis) (token : String) : Prop :=
  ∀ chain, IssuerChain P genesis token chain → DaemonConditions P chain

/-- The same of the issuer's chain, and the issuer may invite and its scope is not dropped. -/
def InvitationConditions (P : Primitives) (genesis : VerifiedGenesis) (token : String) : Prop :=
  ∀ signed, parseDocument invitationTag P.readTicket token = .ok signed →
    ∀ issuer rest, IssuerChain P genesis signed.document.issuerMembership (issuer :: rest) →
      DaemonConditions P (issuer :: rest) ∧ issuer.canInvite ∧
        ScopeKept signed.document.allowedSessionIDs issuer.allowedSessionIDs

theorem LinkAgreement.conditions_iff {remaining : ℕ} {token : String} {grant : VerifiedGrant}
    {rest : List DeviceGrant}
    (agreement : LinkAgreement P genesis now remaining token grant rest) :
    (∃ found, Peer.verifyGrantFrom P genesis (instant now) remaining token = .ok found) ↔
      GrantConditions P genesis token := by
  rw [agreement.accepts_iff]
  constructor
  · intro conditions chain embedded
    rw [embedded.unique agreement.chain]
    exact conditions
  · exact fun conditions => conditions _ agreement.chain

theorem validateInvitation_iff {ticket : CapabilityTicket} {issuer : VerifiedGrant}
    {found : Peer.VerifiedGrant} (uuids : ∀ text, Hyphenated text → P.uuidValid text)
    (issuerPermission : isPermission issuer.document.permission)
    (document : found.document = issuer.document.decoded)
    (fields : checkTicket ticket genesis issuer now = .ok ())
    (scope : validateScope ticket.allowedSessionIDs issuer.document.allowedSessionIDs = .ok ()) :
    validateInvitation P ticket genesis found (instant now) = .ok () ↔
      issuer.document.canInvite ∧
        ScopeKept ticket.allowedSessionIDs issuer.document.allowedSessionIDs := by
  unfold checkTicket at fields
  obtain ⟨fields, rest⟩ := guard_ok fields
  obtain ⟨secret, read, rest⟩ := bind_ok rest
  obtain ⟨capabilities, _⟩ := guard_ok rest
  simp only [not_or, not_not, not_le, not_lt, ge_iff_le, gt_iff_lt] at fields
  simp only [not_or, not_not, not_and, not_lt, gt_iff_lt] at capabilities
  obtain ⟨version, inviteID, batchID, space, hash, redemption, named, uses, permission, _, _,
    positive, _, order, alive⟩ := fields
  obtain ⟨length, rank, secrets⟩ := capabilities
  obtain ⟨ids, distinct, inside⟩ := validateScope_ok scope
  have sized : decodeSized ticket.pairingSecret 32 "pairing secret" = .ok secret :=
    decodeSized_ok_iff.mpr ⟨base64URLToBytes_ok read, length⟩
  rw [(isPermission_valid permission).2, (isPermission_valid issuerPermission).2] at rank
  have sessions : validateSessionIDs P ticket.allowedSessionIDs = .ok () :=
    validateSessionIDs_ok_iff.mpr
      ⟨fun id member => uuids id (isUUID_hyphenated (ids id member)), distinct⟩
  unfold validateInvitation
  rw [document, guard_ok_iff, guard_ok_iff, bind_ok_iff]
  simp only [sized, Except.ok.injEq, exists_eq_left', guard_ok_iff, sessions, and_true,
    unix_instant, not_or, not_not, not_and, not_le, not_lt, ge_iff_le, gt_iff_lt]
  constructor
  · rintro ⟨_, ⟨_, _, invites⟩, _, _, _, kept⟩
    exact ⟨invites, fun restricted => ((scopeSubset_iff.mp kept).resolve_left restricted).1⟩
  · rintro ⟨invites, kept⟩
    refine ⟨⟨version, uuids _ (isUUID_hyphenated inviteID), uuids _ (isUUID_hyphenated batchID),
      space, hash⟩, ⟨named, redemption, invites⟩, ⟨uses, positive, order⟩, alive,
      ⟨(isPermission_valid permission).1, rank, secrets⟩, scopeSubset_iff.mpr ?_⟩
    by_cases restricted : issuer.document.allowedSessionIDs = []
    · exact Or.inl restricted
    · exact Or.inr ⟨kept restricted, inside.resolve_left restricted⟩

theorem daemon_invitation_iff (uuids : ∀ text, Hyphenated text → P.uuidValid text)
    (creator : peerID P genesis.publicKey = genesis.document.creatorPeerID) {token : String}
    {accepted : CapabilityTicket × VerifiedGrant}
    (verified : verifyInvitation P token genesis now = .ok accepted) :
    (∃ found, Peer.verifyInvitation P token genesis (instant now) = .ok found) ↔
      InvitationConditions P genesis token := by
  unfold verifyInvitation at verified
  obtain ⟨signed, parsed, rest⟩ := bind_ok verified
  obtain ⟨issuer, member, rest⟩ := bind_ok rest
  obtain ⟨_, fields, rest⟩ := bind_ok rest
  obtain ⟨_, scope, rest⟩ := bind_ok rest
  obtain ⟨_, checked, _⟩ := bind_ok rest
  obtain ⟨below, agreement⟩ := daemon_link_iff uuids creator member
  have read := parseSigned_ok parsed
  constructor
  · rintro ⟨found, daemon⟩
    unfold Peer.verifyInvitation at daemon
    obtain ⟨again, parsedAgain, rest⟩ := bind_ok daemon
    obtain ⟨holder, holds, rest⟩ := bind_ok rest
    obtain ⟨_, valid, _⟩ := bind_ok rest
    have same := parsedAgain.symm.trans read
    rw [Except.ok.injEq] at same
    subst same
    obtain ⟨document, _⟩ := agreement.same holder holds
    have open' := (validateInvitation_iff uuids agreement.permission document fields scope).mp valid
    intro payload reread grant others embedded
    rw [read, Except.ok.injEq] at reread
    subst reread
    have whole := embedded.unique agreement.chain
    rw [List.cons.injEq] at whole
    rw [whole.1, whole.2]
    exact ⟨agreement.accepts_iff.mp ⟨holder, holds⟩, open'⟩
  · intro conditions
    obtain ⟨chain, invites, kept⟩ := conditions signed read _ _ agreement.chain
    obtain ⟨holder, holds⟩ := agreement.accepts_iff.mpr chain
    obtain ⟨document, key⟩ := agreement.same holder holds
    have valid := (validateInvitation_iff uuids agreement.permission document fields scope).mpr
      ⟨invites, kept⟩
    refine ⟨(signed.document, holder), ?_⟩
    have held : Peer.verifyGrant P signed.document.issuerMembership genesis (instant now)
        = .ok holder := holds
    have signature : P.verify holder.publicKey signed.raw signed.signature = .ok () := by
      rw [key]
      exact verifySignature_ok checked
    unfold Peer.verifyInvitation
    rw [read]
    simp only [bind, Except.bind, held, valid, signature]

/-- **The web client against the daemon.** Under a genesis the web client verified, the daemon
accepts what the web client accepts exactly when every wrapping key of the chain is on the curve, no
restricted scope is dropped along it and, for an invitation, the issuer may invite. -/
theorem daemon_accepts_iff (P : Primitives) (uuids : ∀ text, Hyphenated text → P.uuidValid text)
    (genesisToken : String) (genesis : VerifiedGenesis)
    (anchored : verifyGenesis P genesisToken = .ok genesis) :
    Peer.verifyGenesis P genesisToken = .ok genesis ∧
      (∀ now token, (∃ grant, verifyGrant P token genesis now = .ok grant) →
        ((∃ grant, Peer.verifyGrant P token genesis (instant now) = .ok grant) ↔
          GrantConditions P genesis token)) ∧
      (∀ now token, (∃ ticket, verifyInvitation P token genesis now = .ok ticket) →
        ((∃ ticket, Peer.verifyInvitation P token genesis (instant now) = .ok ticket) ↔
          InvitationConditions P genesis token)) := by
  obtain ⟨daemon, creator⟩ := verifyGenesis_ok uuids anchored
  refine ⟨daemon, ?_, ?_⟩
  · rintro now token ⟨grant, accepted⟩
    obtain ⟨rest, agreement⟩ := daemon_link_iff uuids creator accepted
    exact agreement.conditions_iff
  · rintro now token ⟨ticket, accepted⟩
    exact daemon_invitation_iff uuids creator accepted

theorem length_of_matchesClasses {classes : List (Char → Bool)} {chars : List Char}
    (found : matchesClasses classes chars) : chars.length = classes.length := by
  induction classes generalizing chars with
  | nil =>
    cases chars with
    | nil => rfl
    | cons char chars => cases found
  | cons cls classes ih =>
    cases chars with
    | nil => cases found
    | cons char chars =>
      rw [matchesClasses, Bool.and_eq_true] at found
      rw [List.length_cons, List.length_cons, ih found.2]

theorem sample_uuids (genesis : SpaceGenesis) (grants : List GrantPayload)
    (tickets : List CapabilityTicket) (revocations : List Revocation) (text : String)
    (found : Hyphenated text) :
    (samplePrimitives genesis grants tickets revocations).uuidValid text := by
  show decide (text.length = 36) = true
  rw [decide_eq_true_eq, ← String.length_toList, length_of_matchesClasses found]
  rfl

section Sample

variable {document : SpaceGenesis} {grants : List GrantPayload} {tickets : List CapabilityTicket}
  {revocations : List Revocation} {payload : GrantPayload} {index subject : UInt8}

theorem base64URLToBytes_encode {bytes : Bytes} (some : bytes ≠ []) :
    base64URLToBytes (Base64.encode bytes) = .ok bytes := by
  have shaped : ¬ ((Base64.encode bytes).isEmpty ∨
      ¬ ((Base64.encode bytes).toList.all fun char => (Base64.sextetOf char).isSome) = true) := by
    rw [not_or, not_not]
    constructor
    · rw [String.isEmpty_iff]
      intro empty
      have read := Base64.decodeStrict_encode bytes
      rw [empty] at read
      have none : Base64.decodeStrict "" = Option.some [] := by decide
      rw [none, Option.some.injEq] at read
      exact some read.symm
    · rw [List.all_eq_true]
      intro char member
      unfold Base64.encode at member
      rw [String.toList_ofList, List.mem_map] at member
      obtain ⟨number, inside, rfl⟩ := member
      rw [Base64.sextetOf_charOf (Base64.sextets_lt bytes number inside)]
      rfl
  unfold base64URLToBytes
  rw [if_neg shaped, Base64.decodeLoose_encode]
  show (if Base64.encode bytes ≠ Base64.encode bytes then _ else _) = _
  rw [if_neg (not_not.mpr rfl)]

theorem parseSigned_sampleToken {α : Type} {tag : String} {read : Bytes → Except String α}
    {document : α} (plain : '.' ∉ tag.toList)
    (size : (sampleToken tag index).utf8ByteSize ≤ maxTokenBytes)
    (readable : read [index] = .ok document) :
    parseSigned tag read (sampleToken tag index) = .ok ⟨document, [index], List.replicate 64 1⟩ := by
  have fits : ¬ ((sampleToken tag index).utf8ByteSize = 0 ∨
      (sampleToken tag index).utf8ByteSize > maxTokenBytes) := by
    rw [not_or]
    exact ⟨signedToken_size_ne_zero _ _ _, not_lt.mpr size⟩
  have lowS : isP1363LowS (List.replicate 64 1) := by decide
  have first : base64URLToBytes (Base64.encode [index]) = .ok [index] :=
    base64URLToBytes_encode (List.cons_ne_nil _ _)
  have second : base64URLToBytes (Base64.encode (List.replicate 64 1)) = .ok (List.replicate 64 1) :=
    base64URLToBytes_encode (by decide)
  have parts : (sampleToken tag index).toList.splitOn '.' = _ := splitOn_signedToken _ _ plain
  unfold parseSigned
  rw [if_neg fits, parts]
  simp only [String.ofList_toList]
  refine guard_ok_iff.mpr ⟨not_not.mpr rfl, bind_ok_iff.mpr ⟨_, first, bind_ok_iff.mpr ⟨_, second,
    guard_ok_iff.mpr ⟨not_not.mpr lowS, ?_⟩⟩⟩⟩
  rw [readable]

theorem sample_fields (document : SpaceGenesis) (grants : List GrantPayload)
    (tickets : List CapabilityTicket) (revocations : List Revocation) {issuer : UInt8} {now : ℤ}
    (sample : SamplePayload payload subject issuer) (started : 1000 ≤ seconds now)
    (alive : seconds now < 9000) :
    checkFields payload sampleGenesis now = .ok () ∧
      readKeys (samplePrimitives document grants tickets revocations) payload
        = .ok (sampleKey subject, sampleKey subject) ∧
      validateScope payload.allowedSessionIDs [] = .ok () := by
  obtain ⟨depth, base⟩ := sample.base
  have serial : isUUID "33333333-3333-4333-8333-333333333333" := by decide
  have session : isUUID sampleSession := by decide
  have permission : isPermission payload.permission := by
    have valid := sample.permission
    cases named : payload.permission with
    | view => rfl
    | control => rfl
    | full => rfl
    | other text =>
      rw [named] at valid
      cases valid
  have safe : isSafeInteger payload.delegationDepth := by
    have low := sample.depth_nonneg
    have high := sample.depth_le
    unfold isSafeInteger
    rw [decide_eq_true_eq]
    omega
  refine ⟨?_, ?_, ?_⟩
  · have times : payload.v = 1 ∧ payload.serial = "33333333-3333-4333-8333-333333333333" ∧
        payload.spaceID = sampleGenesis.document.spaceID ∧
        payload.spaceGenesisHash = sampleGenesis.hash ∧ payload.issuedAt = 1000 ∧
        payload.expiresAt = some 9000 := by
      rw [base]
      exact ⟨rfl, rfl, rfl, rfl, rfl, rfl⟩
    obtain ⟨version, named, space, hash, issuedAt, expiresAt⟩ := times
    have skewed : 1000 ≤ seconds now + clockSkewSeconds := by
      unfold clockSkewSeconds
      omega
    unfold checkFields
    rw [guard_ok_iff, expiresAt]
    simp only [not_or, not_not, not_le, not_lt, gt_iff_lt]
    rw [named, issuedAt]
    refine ⟨⟨version, serial, space, hash, permission, by decide, by decide, skewed, safe,
      sample.depth_nonneg, sample.depth_le⟩, guard_ok_iff.mpr ⟨?_, rfl⟩⟩
    simp only [not_or, not_not, not_le]
    exact ⟨by decide, by decide, alive⟩
  · have key : base64URLToBytes (Base64.encode (sampleKey subject)) = .ok (sampleKey subject) :=
      base64URLToBytes_encode (List.cons_ne_nil _ _)
    have length : (sampleKey subject).length = 65 := rfl
    have owner : peerIDFromPublicKey (samplePrimitives document grants tickets revocations)
        (sampleKey subject) = .ok (samplePeerID subject) := by
      unfold peerIDFromPublicKey
      rw [if_neg (by simp [sampleKey])]
      rfl
    rw [base]
    exact bind_ok_iff.mpr ⟨_, key, bind_ok_iff.mpr ⟨_, key, guard_ok_iff.mpr ⟨not_not.mpr length,
      bind_ok_iff.mpr ⟨_, owner, guard_ok_iff.mpr ⟨not_not.mpr rfl, rfl⟩⟩⟩⟩⟩
  · rcases sample.sessions with none | one
    · rw [none]; rfl
    · rw [one]
      simp [validateScope, session]

theorem sample_web_accepted {issuer : UInt8} {authority : Issuer} {now : ℤ} {remaining : ℕ}
    (sample : SamplePayload payload subject issuer) (listed : grants[index.toNat]? = some payload)
    (size : (sampleToken membershipTag index).utf8ByteSize ≤ maxTokenBytes)
    (started : 1000 ≤ seconds now) (alive : seconds now < 9000)
    (issued : readIssuer sampleGenesis payload (verifyGrantFrom
      (samplePrimitives document grants tickets revocations) sampleGenesis now remaining)
        = .ok authority)
    (permitted : checkIssuer payload authority = .ok ()) :
    verifyGrantFrom (samplePrimitives document grants tickets revocations) sampleGenesis now
        (remaining + 1) (sampleToken membershipTag index)
      = .ok ⟨sampleToken membershipTag index, payload, sampleKey subject, sampleKey subject⟩ := by
  have readable : (samplePrimitives document grants tickets revocations).readGrant [index]
      = .ok payload := by
    show (grants[index.toNat]?).elim _ _ = _
    rw [listed]
    rfl
  obtain ⟨fields, keys, scope⟩ :=
    sample_fields document grants tickets revocations sample started alive
  have signature : verifySignature (samplePrimitives document grants tickets revocations)
      authority.publicKey [index] (List.replicate 64 1) = .ok () := rfl
  have parsed := parseSigned_sampleToken (by decide) size readable
  rw [verifyGrantFrom]
  exact bind_ok_iff.mpr ⟨_, parsed, bind_ok_iff.mpr ⟨_, fields, bind_ok_iff.mpr ⟨_, keys,
    bind_ok_iff.mpr ⟨_, scope, bind_ok_iff.mpr ⟨_, issued, bind_ok_iff.mpr ⟨_, permitted,
      bind_ok_iff.mpr ⟨_, signature, rfl⟩⟩⟩⟩⟩⟩⟩

end Sample

/-- Peer one is restricted to one session and lets peer two into all of them; peer three may not
invite. -/
def widened : List GrantPayload :=
  [{ sampleGrant 1 1 with allowedSessionIDs := [sampleSession] }, delegate (sampleGrant 2 2) 1 0,
    { sampleGrant 3 1 with canInvite := false }]

/-- An invitation of peer three. -/
def uninvitedTicket : CapabilityTicket where
  v := 1
  inviteID := "44444444-4444-4444-8444-444444444444"
  batchID := "55555555-5555-4555-8555-555555555555"
  spaceID := sampleSpaceID
  redemptionPeerID := samplePeerID 3
  spaceGenesisHash := sampleGenesis.hash
  issuerPeerID := samplePeerID 3
  issuerMembership := sampleToken membershipTag 2
  pairingSecret := Base64.encode (List.replicate 32 7)
  issuedAt := 1500
  expiresAt := 5000
  maxUses := 1
  permission := .view
  allowedSessionIDs := []
  canInvite := false
  canSyncSecrets := false

/-- The sample space with the grants and the ticket above. -/
def widenedPrimitives : Primitives :=
  samplePrimitives sampleGenesis.document widened [uninvitedTicket] []

theorem widened_genesis : verifyGenesis widenedPrimitives (sampleToken genesisTag 0)
    = .ok sampleGenesis := by
  have parsed : parseSigned genesisTag widenedPrimitives.readGenesis (sampleToken genesisTag 0)
      = .ok ⟨sampleGenesis.document, [0], List.replicate 64 1⟩ :=
    parseSigned_sampleToken (by decide) (by decide) rfl
  have fields : ¬ (sampleGenesis.document.v ≠ 1 ∨ ¬ isUUID sampleGenesis.document.spaceID ∨
      ¬ isSafeInteger sampleGenesis.document.createdAt ∨ sampleGenesis.document.createdAt ≤ 0) := by
    decide
  have key : base64URLToBytes sampleGenesis.document.creatorPublicKey = .ok (sampleKey 0) :=
    base64URLToBytes_encode (List.cons_ne_nil _ _)
  have owner : peerIDFromPublicKey widenedPrimitives (sampleKey 0)
      = .ok sampleGenesis.document.creatorPeerID := rfl
  have signature : verifySignature widenedPrimitives (sampleKey 0) [0] (List.replicate 64 1)
      = .ok () := rfl
  refine bind_ok_iff.mpr ⟨_, parsed, guard_ok_iff.mpr ⟨fields, bind_ok_iff.mpr ⟨_, key,
    bind_ok_iff.mpr ⟨_, owner, guard_ok_iff.mpr ⟨not_not.mpr rfl, bind_ok_iff.mpr ⟨_, signature,
      ?_⟩⟩⟩⟩⟩⟩
  rfl

theorem widened_root_accepted {index subject : UInt8} {payload : GrantPayload} {remaining : ℕ}
    (sample : SamplePayload payload subject 0) (listed : widened[index.toNat]? = some payload)
    (size : (sampleToken membershipTag index).utf8ByteSize ≤ maxTokenBytes)
    (permitted : checkIssuer payload (genesisIssuer sampleGenesis) = .ok ()) :
    verifyGrantFrom widenedPrimitives sampleGenesis 2000000 (remaining + 1)
        (sampleToken membershipTag index)
      = .ok ⟨sampleToken membershipTag index, payload, sampleKey subject, sampleKey subject⟩ := by
  have root : payload.issuerPeerID = sampleGenesis.document.creatorPeerID := sample.issuedBy
  exact sample_web_accepted sample listed size (by decide) (by decide) (if_pos root) permitted

theorem widened_accepted : verifyGrant widenedPrimitives (sampleToken membershipTag 1) sampleGenesis
    2000000 = .ok ⟨sampleToken membershipTag 1, widened[1], sampleKey 2, sampleKey 2⟩ := by
  have first : SamplePayload widened[0] 1 0 :=
    ⟨⟨1, rfl⟩, rfl, rfl, by decide, by decide, Or.inr rfl⟩
  have second : SamplePayload widened[1] 2 1 :=
    ⟨⟨2, rfl⟩, rfl, rfl, by decide, by decide, Or.inl rfl⟩
  have session : isUUID sampleSession := by decide
  have issuer : verifyGrantFrom widenedPrimitives sampleGenesis 2000000 8 (sampleToken membershipTag 0)
      = .ok ⟨sampleToken membershipTag 0, widened[0], sampleKey 1, sampleKey 1⟩ :=
    widened_root_accepted first rfl (by decide) (by decide)
  have issued : readIssuer sampleGenesis widened[1] (verifyGrantFrom widenedPrimitives sampleGenesis
      2000000 8) = .ok (grantIssuer ⟨sampleToken membershipTag 0, widened[0], sampleKey 1,
        sampleKey 1⟩) :=
    readIssuer_delegated (by decide) rfl (by decide) issuer rfl
  exact sample_web_accepted second rfl (by decide) (by decide) (by decide) issued
    (by decide)

theorem uninvited_accepted : verifyInvitation widenedPrimitives (sampleToken invitationTag 0)
    sampleGenesis 2000000 = .ok (uninvitedTicket, ⟨sampleToken membershipTag 2, widened[2],
      sampleKey 3, sampleKey 3⟩) := by
  have third : SamplePayload widened[2] 3 0 :=
    ⟨⟨1, rfl⟩, rfl, rfl, by decide, by decide, Or.inl rfl⟩
  have parsed : parseSigned invitationTag widenedPrimitives.readTicket (sampleToken invitationTag 0)
      = .ok ⟨uninvitedTicket, [0], List.replicate 64 1⟩ :=
    parseSigned_sampleToken (by decide) (by decide) rfl
  have issuer : verifyGrant widenedPrimitives uninvitedTicket.issuerMembership sampleGenesis 2000000
      = .ok ⟨sampleToken membershipTag 2, widened[2], sampleKey 3, sampleKey 3⟩ :=
    widened_root_accepted third rfl (by decide) (by decide)
  have secret : base64URLToBytes uninvitedTicket.pairingSecret = .ok (List.replicate 32 7) :=
    base64URLToBytes_encode (by decide)
  have fields : checkTicket uninvitedTicket sampleGenesis ⟨sampleToken membershipTag 2, widened[2],
      sampleKey 3, sampleKey 3⟩ 2000000 = .ok () := by
    have inviteID : isUUID uninvitedTicket.inviteID := by decide
    have batchID : isUUID uninvitedTicket.batchID := by decide
    unfold checkTicket
    rw [guard_ok_iff, secret]
    simp only [not_or, not_not, not_le, not_lt]
    exact ⟨⟨rfl, inviteID, batchID, rfl, rfl, rfl, rfl, rfl, rfl, by decide, by decide, by decide,
      by decide, by decide, by decide⟩, rfl⟩
  have signature : verifySignature widenedPrimitives (sampleKey 3) [0] (List.replicate 64 1)
      = .ok () := rfl
  have scope : validateScope uninvitedTicket.allowedSessionIDs widened[2].allowedSessionIDs
      = .ok () := rfl
  exact bind_ok_iff.mpr ⟨_, parsed, bind_ok_iff.mpr ⟨_, issuer, bind_ok_iff.mpr ⟨_, fields,
    bind_ok_iff.mpr ⟨_, scope, bind_ok_iff.mpr ⟨_, signature, rfl⟩⟩⟩⟩⟩

theorem widened_parsed {index : UInt8} {payload : GrantPayload}
    (listed : widened[index.toNat]? = some payload)
    (size : (sampleToken membershipTag index).utf8ByteSize ≤ maxTokenBytes) :
    parseDocument membershipTag widenedPrimitives.readGrant (sampleToken membershipTag index)
      = .ok ⟨payload, [index], List.replicate 64 1⟩ := by
  refine parseDocument_signedToken (by decide) size rfl ?_
  show (widened[index.toNat]?).elim _ _ = _
  rw [listed]
  rfl

theorem widened_chain : IssuerChain widenedPrimitives sampleGenesis (sampleToken membershipTag 1)
    [widened[1].decoded, widened[0].decoded] :=
  .link (widened_parsed rfl (by decide)) (by decide)
    (.root (widened_parsed rfl (by decide)) rfl)

theorem uninvited_chain : IssuerChain widenedPrimitives sampleGenesis (sampleToken membershipTag 2)
    [widened[2].decoded] :=
  .root (widened_parsed rfl (by decide)) rfl

theorem daemon_accepts_iff_uninvited :
    Peer.verifyGenesis widenedPrimitives (sampleToken genesisTag 0) = .ok sampleGenesis ∧
      ∃ grant, Peer.verifyGrant widenedPrimitives (sampleToken membershipTag 2) sampleGenesis
        (instant 2000000) = .ok grant := by
  have third : SamplePayload widened[2] 3 0 :=
    ⟨⟨1, rfl⟩, rfl, rfl, by decide, by decide, Or.inl rfl⟩
  have accepted : verifyGrant widenedPrimitives (sampleToken membershipTag 2) sampleGenesis 2000000
      = .ok ⟨sampleToken membershipTag 2, widened[2], sampleKey 3, sampleKey 3⟩ :=
    widened_root_accepted third rfl (by decide) (by decide)
  have agreement := daemon_accepts_iff widenedPrimitives (sample_uuids _ _ _ _)
    (sampleToken genesisTag 0) sampleGenesis widened_genesis
  refine ⟨agreement.1, (agreement.2.1 2000000 _ ⟨_, accepted⟩).mpr ?_⟩
  intro chain embedded
  rw [embedded.unique uninvited_chain]
  refine ⟨?_, List.isChain_singleton _⟩
  intro grant member key read
  rw [List.mem_singleton.mp member] at read
  have found : Base64.decodeStrict widened[2].decoded.subjectWrappingPublicKey = some (sampleKey 3) :=
    Base64.decodeStrict_encode (sampleKey 3)
  rw [found, Option.some.injEq] at read
  rw [← read]
  rfl

/-- **The web client accepts** a grant that drops the scope of its issuer and an invitation of a
member that may not invite; the daemon refuses both. -/
theorem web_accepts_widened :
    ∃ P : Primitives, (∀ text, Hyphenated text → P.uuidValid text) ∧
      ∃ genesisToken genesis, verifyGenesis P genesisToken = .ok genesis ∧
        (∃ now token, (∃ grant, verifyGrant P token genesis now = .ok grant) ∧
          ¬ ∃ grant, Peer.verifyGrant P token genesis (instant now) = .ok grant) ∧
        (∃ now token, (∃ ticket, verifyInvitation P token genesis now = .ok ticket) ∧
          ¬ ∃ ticket, Peer.verifyInvitation P token genesis (instant now) = .ok ticket) := by
  refine ⟨widenedPrimitives, sample_uuids _ _ _ _, _, _, widened_genesis,
    ⟨2000000, sampleToken membershipTag 1, ⟨_, widened_accepted⟩, ?_⟩,
    2000000, sampleToken invitationTag 0, ⟨_, uninvited_accepted⟩, ?_⟩
  · intro accepts
    obtain ⟨rest, agreement⟩ := daemon_link_iff (sample_uuids _ _ _ _) rfl widened_accepted
    have conditions := agreement.conditions_iff.mp accepts _ widened_chain
    exact (List.isChain_cons_cons.mp conditions.scopes).1 (List.cons_ne_nil _ _) rfl
  · intro accepts
    have conditions := (daemon_invitation_iff (sample_uuids _ _ _ _) rfl uninvited_accepted).mp accepts
    have parsed : parseDocument invitationTag widenedPrimitives.readTicket
        (sampleToken invitationTag 0) = .ok ⟨uninvitedTicket, [0], List.replicate 64 1⟩ :=
      parseDocument_signedToken (by decide) (by decide) rfl rfl
    exact absurd (conditions _ parsed _ _ uninvited_chain).2.1 (by decide)

end Atterm.Peer.Web
