/-
**Capabilities only narrow along a membership chain.**

A membership token embeds the membership of its issuer, which embeds that of its own, down to a
grant the creator of the space signed. `IssuerChain` is that list, the token's own grant first.

* `Attenuated` — what a chain of narrowing capabilities is;
* `verifyGrant_attenuated_iff` — an accepted token has an attenuated chain exactly when it is not a
  self-membership of the creator at a depth other than zero;
* `self_membership_at_depth_five` — such a self-membership is accepted.
-/

import Atterm.Peer.GrantRules

namespace Atterm.Peer

open Atterm.Foundation

/-- The deepest delegation a grant may carry. -/
def maxDelegationDepth : ℕ := 8

/-- The grants embedded in a token, ending with one the creator issued. -/
inductive IssuerChain (P : Primitives) (genesis : VerifiedGenesis) : String → List DeviceGrant → Prop
  | root {token : String} {signed : Signed GrantPayload}
      (parsed : parseDocument membershipTag P.readGrant token = .ok signed)
      (creator : signed.document.decoded.issuerPeerID = genesis.document.creatorPeerID) :
      IssuerChain P genesis token [signed.document.decoded]
  | link {token : String} {signed : Signed GrantPayload} {rest : List DeviceGrant}
      (parsed : parseDocument membershipTag P.readGrant token = .ok signed)
      (delegated : signed.document.decoded.issuerPeerID ≠ genesis.document.creatorPeerID)
      (below : IssuerChain P genesis signed.document.decoded.issuerMembership rest) :
      IssuerChain P genesis token (signed.document.decoded :: rest)

/-- The sessions a grant reaches; an empty scope reaches all of them. -/
def DeviceGrant.Reaches (grant : DeviceGrant) (session : String) : Prop :=
  grant.allowedSessionIDs = [] ∨ session ∈ grant.allowedSessionIDs

structure Attenuates (child issuer : DeviceGrant) : Prop where
  named : child.issuerPeerID = issuer.subjectPeerID
  canInvite : issuer.canInvite
  rank : permissionRank child.permission ≤ permissionRank issuer.permission
  secrets : child.canSyncSecrets → issuer.canSyncSecrets
  scope : ∀ session, child.Reaches session → issuer.Reaches session

/-- How far the first grant of a chain is from the genesis. The creator's own membership is at the
root, a grant the creator issued to another peer one below it. -/
def position (creator : String) : List DeviceGrant → ℤ
  | [] => 0
  | [root] => if root.subjectPeerID = creator then 0 else 1
  | _ :: issuer :: rest => position creator (issuer :: rest) + 1

/-- The depth of every grant of a chain is its position. -/
def Positioned (creator : String) : List DeviceGrant → Prop
  | [] => True
  | grant :: rest =>
    grant.delegationDepth = position creator (grant :: rest) ∧ Positioned creator rest

/-- A chain of narrowing capabilities that reaches the genesis of its space. -/
structure Attenuated (genesis : VerifiedGenesis) (now : ℤ) (chain : List DeviceGrant) : Prop where
  rooted : ∃ root, chain.getLast? = some root ∧
    root.issuerPeerID = genesis.document.creatorPeerID
  length_le : chain.length ≤ maxDelegationDepth
  sameSpace : ∀ grant ∈ chain,
    grant.spaceID = genesis.document.spaceID ∧ grant.spaceGenesisHash = genesis.hash
  links : chain.IsChain Attenuates
  depths : Positioned genesis.document.creatorPeerID chain
  unexpired : ∀ grant ∈ chain, grant.expiresAt = 0 ∨ unix now < grant.expiresAt

/-- The creator's membership in its own space. -/
def DeviceGrant.SelfOf (grant : DeviceGrant) (genesis : VerifiedGenesis) : Prop :=
  grant.issuerPeerID = genesis.document.creatorPeerID ∧
    grant.subjectPeerID = genesis.document.creatorPeerID

variable {P : Primitives} {genesis : VerifiedGenesis} {now : ℤ}

theorem IssuerChain.unique {token : String} {first second : List DeviceGrant}
    (left : IssuerChain P genesis token first) (right : IssuerChain P genesis token second) :
    first = second := by
  induction left generalizing second with
  | root parsed creator =>
    cases right with
    | root again _ =>
      rw [parsed, Except.ok.injEq] at again
      rw [again]
    | link again delegated _ =>
      rw [parsed, Except.ok.injEq] at again
      exact absurd (again ▸ creator) delegated
  | link parsed delegated below ih =>
    cases right with
    | root again creator =>
      rw [parsed, Except.ok.injEq] at again
      exact absurd creator (again ▸ delegated)
    | link again _ deeper =>
      rw [parsed, Except.ok.injEq] at again
      subst again
      rw [ih deeper]

theorem reaches_of_scopeSubset {child issuer : DeviceGrant}
    (subset : scopeSubset child.allowedSessionIDs issuer.allowedSessionIDs) {session : String}
    (reached : child.Reaches session) : issuer.Reaches session := by
  rcases scopeSubset_iff.mp subset with all | ⟨some, inside⟩
  · exact Or.inl all
  · exact Or.inr (inside session (reached.resolve_left some))

theorem Authority.Permits.attenuates {issuer : VerifiedGrant} {child : DeviceGrant}
    (permits : issuer.authority.Permits child)
    (named : issuer.document.subjectPeerID = child.issuerPeerID) :
    Attenuates child issuer.document where
  named := named.symm
  canInvite := permits.canInvite
  rank := permits.rank
  secrets := permits.secrets
  scope := fun _ => reaches_of_scopeSubset permits.scope

/-- What is known of the chain of an accepted link, apart from the depth of a self-membership. -/
structure ChainBelow (genesis : VerifiedGenesis) (now : ℤ) (grant : DeviceGrant)
    (rest : List DeviceGrant) : Prop where
  rooted : ∃ root, (grant :: rest).getLast? = some root ∧
    root.issuerPeerID = genesis.document.creatorPeerID
  sameSpace : ∀ entry ∈ grant :: rest,
    entry.spaceID = genesis.document.spaceID ∧ entry.spaceGenesisHash = genesis.hash
  links : (grant :: rest).IsChain Attenuates
  unexpired : ∀ entry ∈ grant :: rest, entry.expiresAt = 0 ∨ unix now < entry.expiresAt
  depth_nonneg : 0 ≤ grant.delegationDepth
  depth_le : grant.delegationDepth ≤ maxDelegationDepth
  delegated : ¬ grant.SelfOf genesis →
    Positioned genesis.document.creatorPeerID (grant :: rest) ∧
      position genesis.document.creatorPeerID (grant :: rest) = rest.length + 1
  self : grant.SelfOf genesis → rest = []

theorem chainBelow_root {publicKey : Bytes} {grant : DeviceGrant}
    (valid : ValidGrant P genesis now publicKey grant)
    (creator : grant.issuerPeerID = genesis.document.creatorPeerID)
    (permitted : genesis.authority.Permits grant) : ChainBelow genesis now grant [] where
  rooted := ⟨grant, rfl, creator⟩
  sameSpace := by
    intro entry member
    rw [List.mem_singleton.mp member]
    exact ⟨valid.space, valid.genesisHash⟩
  links := List.isChain_singleton _
  unexpired := by
    intro entry member
    rw [List.mem_singleton.mp member]
    exact valid.unexpired
  depth_nonneg := valid.depth_nonneg
  depth_le := valid.depth_le
  delegated := by
    intro other
    have differs : grant.subjectPeerID ≠ genesis.document.creatorPeerID :=
      fun same => other ⟨creator, same⟩
    have depth : grant.delegationDepth = 1 := by
      refine permitted.childDepth (show (-1 : ℤ) < 0 by decide) fun same => differs ?_
      rw [← same, creator]
    have placed : position genesis.document.creatorPeerID [grant] = 1 := if_neg differs
    exact ⟨⟨by rw [depth, placed], trivial⟩, by rw [placed]; rfl⟩
  self := fun _ => rfl

theorem chainBelow_link {publicKey : Bytes} {grant : DeviceGrant} {issuer : VerifiedGrant}
    {rest : List DeviceGrant} (valid : ValidGrant P genesis now publicKey grant)
    (delegated : grant.issuerPeerID ≠ genesis.document.creatorPeerID)
    (named : issuer.document.subjectPeerID = grant.issuerPeerID)
    (permitted : issuer.authority.Permits grant)
    (below : ChainBelow genesis now issuer.document rest) :
    ChainBelow genesis now grant (issuer.document :: rest) where
  rooted := by
    obtain ⟨root, last, creator⟩ := below.rooted
    exact ⟨root, by rw [List.getLast?_cons_cons, last], creator⟩
  sameSpace := by
    intro entry member
    rcases List.mem_cons.mp member with rfl | older
    · exact ⟨valid.space, valid.genesisHash⟩
    · exact below.sameSpace entry older
  links := List.isChain_cons_cons.mpr ⟨permitted.attenuates named, below.links⟩
  unexpired := by
    intro entry member
    rcases List.mem_cons.mp member with rfl | older
    · exact valid.unexpired
    · exact below.unexpired entry older
  depth_nonneg := valid.depth_nonneg
  depth_le := valid.depth_le
  delegated := by
    intro _
    -- the issuer is not the creator, so its own depth is already known
    have issued : ¬ issuer.document.SelfOf genesis := by
      rintro ⟨_, subject⟩
      exact delegated (named ▸ subject)
    obtain ⟨placed, far⟩ := below.delegated issued
    have deeper : grant.delegationDepth = issuer.document.delegationDepth + 1 :=
      permitted.depth below.depth_nonneg
    refine ⟨⟨?_, placed⟩, ?_⟩
    · rw [deeper, placed.1, position]
    · rw [position, far, List.length_cons]
      push_cast
      ring
  self := fun self => absurd self.1 delegated

theorem verifyGrantFrom_chain {remaining : ℕ} {token : String} {grant : VerifiedGrant}
    (accepted : verifyGrantFrom P genesis now remaining token = .ok grant) :
    ∃ rest, IssuerChain P genesis token (grant.document :: rest) ∧
      ChainBelow genesis now grant.document rest := by
  induction remaining generalizing token grant with
  | zero => cases accepted
  | succ remaining ih =>
    obtain ⟨signed, authority, link⟩ := verifyGrantFrom_ok_iff.mp accepted
    have chained := link.document_eq
    rcases issuerAuthority_ok_iff.mp link.issued with
      ⟨creator, rfl⟩ | ⟨delegated, _, issuer, verified, named, rfl⟩
    · refine ⟨[], ?_, chainBelow_root link.valid creator link.permitted⟩
      rw [chained] at creator ⊢
      exact .root link.parsed creator
    · obtain ⟨rest, embedded, below⟩ := ih verified
      refine ⟨issuer.document :: rest, ?_,
        chainBelow_link link.valid delegated named link.permitted below⟩
      rw [chained] at delegated embedded ⊢
      exact .link link.parsed delegated embedded

/-- **Attenuation.** The chain of an accepted token narrows from the genesis to the token, exactly
when the token is not a membership the creator gave itself at a depth other than zero. -/
theorem verifyGrant_attenuated_iff (P : Primitives) (genesis : VerifiedGenesis) (now : ℤ)
    (token : String) (grant : VerifiedGrant)
    (accepted : verifyGrant P token genesis now = .ok grant) :
    (∃ chain, IssuerChain P genesis token chain ∧ Attenuated genesis now chain) ↔
      ∀ signed, parseDocument membershipTag P.readGrant token = .ok signed →
        signed.document.decoded.SelfOf genesis → signed.document.delegationDepth = 0 := by
  obtain ⟨rest, embedded, below⟩ := verifyGrantFrom_chain accepted
  have payload : ∀ signed, parseDocument membershipTag P.readGrant token = .ok signed →
      grant.document = signed.document.decoded := by
    intro signed parsed
    obtain ⟨found, _, link⟩ := verifyGrantFrom_ok_iff.mp accepted
    have same := link.parsed.symm.trans parsed
    rw [Except.ok.injEq] at same
    rw [link.document_eq, same]
  constructor
  · rintro ⟨chain, again, attenuated⟩ signed parsed self
    have whole := again.unique embedded
    rw [← payload signed parsed] at self
    rw [below.self self] at whole
    have placed := whole ▸ attenuated.depths
    have depth : grant.document.delegationDepth = 0 := by
      rw [placed.1, position, if_pos self.2]
    rw [payload signed parsed] at depth
    exact depth
  · intro condition
    refine ⟨_, embedded, below.rooted, ?_, below.sameSpace, below.links, ?_, below.unexpired⟩
    · by_cases self : grant.document.SelfOf genesis
      · rw [below.self self, List.length_singleton]
        decide
      · obtain ⟨placed, far⟩ := below.delegated self
        have bound := below.depth_le
        rw [placed.1, far] at bound
        rw [List.length_cons]
        exact_mod_cast bound
    · by_cases self : grant.document.SelfOf genesis
      · obtain ⟨signed, _, link⟩ := verifyGrantFrom_ok_iff.mp accepted
        have depth := condition signed link.parsed (link.document_eq ▸ self)
        rw [below.self self]
        refine ⟨?_, trivial⟩
        rw [position, if_pos self.2, link.document_eq]
        exact depth
      · exact (below.delegated self).1

/-! ### A space to look at -/

def sampleDigest (bytes : Bytes) : Bytes := (bytes ++ List.replicate 32 0).take 32

/-- Primitives that read a payload of one byte as an entry of a table and accept one signature. -/
def samplePrimitives (genesis : SpaceGenesis) (grants : List GrantPayload)
    (tickets : List CapabilityTicket) (revocations : List Revocation) : Primitives where
  readGenesis := fun _ => .ok genesis
  readGrant := fun raw => (grants[(raw.headD 0).toNat]?).elim (.error "payload JSON") .ok
  readTicket := fun raw => (tickets[(raw.headD 0).toNat]?).elim (.error "payload JSON") .ok
  readRevocation := fun raw => (revocations[(raw.headD 0).toNat]?).elim (.error "payload JSON") .ok
  uuidValid := fun text => text.length = 36
  sha256 := sampleDigest
  sha256_length := by
    intro bytes
    rw [sampleDigest, List.length_take, List.length_append, List.length_replicate]
    omega
  verify := fun _ _ signature =>
    if signature = List.replicate 64 1 then .ok () else .error "peercrypto: invalid signature"
  wrappingKeyValid := fun key => key.head? = some 4

def sampleKey (peer : UInt8) : Bytes := 4 :: peer :: List.replicate 63 0

def samplePeerID (peer : UInt8) : String := Base64.encode (sampleDigest (sampleKey peer))

/-- The token that carries entry `index` of a table. -/
def sampleToken (tag : String) (index : UInt8) : String :=
  signedToken tag [index] (List.replicate 64 1)

def sampleSpaceID : String := "11111111-1111-4111-8111-111111111111"
def sampleSession : String := "22222222-2222-4222-8222-222222222222"

/-- Peer zero created the space at second 1000. -/
def sampleGenesis : VerifiedGenesis where
  token := sampleToken genesisTag 0
  document := ⟨1, sampleSpaceID, samplePeerID 0, Base64.encode (sampleKey 0), 1000⟩
  publicKey := sampleKey 0
  hash := Base64.encode (sampleDigest (sampleToken genesisTag 0).toUTF8.toList)

/-- The creator's membership of peer `subject`. -/
def sampleGrant (subject : UInt8) (depth : ℤ) : GrantPayload where
  v := 1
  serial := "33333333-3333-4333-8333-333333333333"
  spaceID := sampleSpaceID
  spaceGenesisHash := sampleGenesis.hash
  subjectPeerID := samplePeerID subject
  subjectPublicKey := Base64.encode (sampleKey subject)
  subjectWrappingPublicKey := Base64.encode (sampleKey subject)
  issuerPeerID := samplePeerID 0
  issuerMembership := none
  issuedAt := 1000
  expiresAt := some 9000
  permission := .full
  allowedSessionIDs := []
  canInvite := true
  canSyncSecrets := true
  delegationDepth := depth

/-- A membership that `issuer` signed with its own membership, entry `below` of the table. -/
def delegate (payload : GrantPayload) (issuer below : UInt8) : GrantPayload :=
  { payload with
    issuerPeerID := samplePeerID issuer
    issuerMembership := some (sampleToken membershipTag below) }

/-- Peer one is a member of the space and has let peer two in for one session. -/
def delegated : List GrantPayload :=
  [sampleGrant 1 1,
    { delegate (sampleGrant 2 2) 1 0 with permission := .view, allowedSessionIDs := [sampleSession] }]

section Sample

variable {document : SpaceGenesis} {grants : List GrantPayload} {tickets : List CapabilityTicket}
  {revocations : List Revocation} {payload : GrantPayload} {index subject : UInt8}

/-- An entry that differs from `sampleGrant` in its serial, its times, its capabilities and its
issuer only. -/
structure DatedPayload (payload : GrantPayload) (subject issuer : UInt8) : Prop where
  base : ∃ depth, payload = { sampleGrant subject depth with
    serial := payload.serial
    issuedAt := payload.issuedAt
    expiresAt := payload.expiresAt
    issuerPeerID := payload.issuerPeerID
    issuerMembership := payload.issuerMembership
    permission := payload.permission
    allowedSessionIDs := payload.allowedSessionIDs
    canInvite := payload.canInvite
    canSyncSecrets := payload.canSyncSecrets }
  serial : payload.serial.length = 36
  issued : 0 < payload.issuedAt
  lasting : payload.decoded.expiresAt = 0 ∨ payload.issuedAt < payload.decoded.expiresAt
  issuedBy : payload.issuerPeerID = samplePeerID issuer
  permission : payload.permission.valid
  depth_nonneg : 0 ≤ payload.delegationDepth
  depth_le : payload.delegationDepth ≤ 8
  sessions : payload.allowedSessionIDs = [] ∨ payload.allowedSessionIDs = [sampleSession]

/-- An entry that differs from `sampleGrant` in its capabilities and its issuer only. -/
structure SamplePayload (payload : GrantPayload) (subject issuer : UInt8) : Prop where
  base : ∃ depth, payload = { sampleGrant subject depth with
    issuerPeerID := payload.issuerPeerID
    issuerMembership := payload.issuerMembership
    permission := payload.permission
    allowedSessionIDs := payload.allowedSessionIDs
    canInvite := payload.canInvite
    canSyncSecrets := payload.canSyncSecrets }
  issuedBy : payload.issuerPeerID = samplePeerID issuer
  permission : payload.permission.valid
  depth_nonneg : 0 ≤ payload.delegationDepth
  depth_le : payload.delegationDepth ≤ 8
  sessions : payload.allowedSessionIDs = [] ∨ payload.allowedSessionIDs = [sampleSession]

theorem sample_signature (publicKey raw : Bytes) :
    (samplePrimitives document grants tickets revocations).verify publicKey raw
      (List.replicate 64 1) = .ok () := by
  show (if List.replicate 64 (1 : UInt8) = List.replicate 64 1 then Except.ok ()
    else Except.error "peercrypto: invalid signature") = _
  rw [if_pos rfl]

theorem DatedPayload.valid {issuer : UInt8} (sample : DatedPayload payload subject issuer)
    {now : ℤ} (started : payload.issuedAt ≤ unix (now + 5 * minute))
    (alive : payload.decoded.expiresAt = 0 ∨ unix now < payload.decoded.expiresAt) :
    ValidGrant (samplePrimitives document grants tickets revocations) sampleGenesis now
      (sampleKey subject) payload.decoded := by
  obtain ⟨depth, base⟩ := sample.base
  have session : (samplePrimitives document grants tickets revocations).uuidValid sampleSession := by
    show decide (sampleSession.length = 36) = true
    decide
  have digest := validateDigest_peerID (P := samplePrimitives document grants tickets revocations)
    (sampleKey issuer) "issuer peer id"
  have sessions : validateSessionIDs (samplePrimitives document grants tickets revocations)
      payload.allowedSessionIDs = .ok () := by
    rw [validateSessionIDs_ok_iff]
    rcases sample.sessions with none | one
    · simp [none]
    · simp [one, session]
  refine ⟨?_, decide_eq_true sample.serial, ?_, ?_, ?_, ?_, sample.issued, started, sample.lasting,
    alive, sample.permission, sample.depth_nonneg, sample.depth_le, sessions⟩
  · rw [base]; rfl
  · rw [base]; rfl
  · rw [base]; rfl
  · rw [base]; rfl
  · show validateDigest payload.issuerPeerID "issuer peer id" = .ok ()
    rw [sample.issuedBy]
    exact digest

theorem dated_accepted {issuer : UInt8} {authority : Authority} {now : ℤ} {remaining : ℕ}
    (sample : DatedPayload payload subject issuer) (listed : grants[index.toNat]? = some payload)
    (size : (sampleToken membershipTag index).utf8ByteSize ≤ maxTokenBytes)
    (started : payload.issuedAt ≤ unix (now + 5 * minute))
    (alive : payload.decoded.expiresAt = 0 ∨ unix now < payload.decoded.expiresAt)
    (issued : issuerAuthority sampleGenesis payload.decoded (verifyGrantFrom
      (samplePrimitives document grants tickets revocations) sampleGenesis now remaining)
        = .ok authority)
    (permitted : authority.Permits payload.decoded) :
    verifyGrantFrom (samplePrimitives document grants tickets revocations) sampleGenesis now
        (remaining + 1) (sampleToken membershipTag index)
      = .ok ⟨sampleToken membershipTag index, payload.decoded, sampleKey subject,
          sampleKey subject⟩ := by
  have readable : (samplePrimitives document grants tickets revocations).readGrant [index]
      = .ok payload := by
    show (grants[index.toNat]?).elim _ _ = _
    rw [listed]
    rfl
  have parsed : parseDocument membershipTag
      (samplePrimitives document grants tickets revocations).readGrant
      (sampleToken membershipTag index) = .ok ⟨payload, [index], List.replicate 64 1⟩ :=
    parseDocument_signedToken (by decide) size rfl readable
  obtain ⟨depth, base⟩ := sample.base
  refine verifyGrantFrom_ok_iff.mpr ⟨_, authority, parsed, rfl, rfl, ?_, ?_, sample.valid started alive,
    issued, permitted, rfl⟩
  · rw [base]
    exact decodeSized_encode (sampleKey subject) _
  · rw [base]
    exact decodeWrappingPublicKey_ok_iff.mpr ⟨decodeSized_encode (sampleKey subject) _, rfl⟩

theorem SamplePayload.dated {issuer : UInt8} (sample : SamplePayload payload subject issuer) :
    DatedPayload payload subject issuer ∧ payload.issuedAt = 1000 ∧
      payload.decoded.expiresAt = 9000 := by
  obtain ⟨depth, base⟩ := sample.base
  have serial : payload.serial = "33333333-3333-4333-8333-333333333333" := by rw [base]; rfl
  have issuedAt : payload.issuedAt = 1000 := by rw [base]; rfl
  have expiresAt : payload.expiresAt = some 9000 := by rw [base]; rfl
  have decoded : payload.decoded.expiresAt = 9000 := by
    show payload.expiresAt.getD 0 = 9000
    rw [expiresAt]
    rfl
  refine ⟨⟨⟨depth, ?_⟩, ?_, ?_, Or.inr ?_, sample.issuedBy, sample.permission, sample.depth_nonneg,
    sample.depth_le, sample.sessions⟩, issuedAt, decoded⟩
  · rw [serial, issuedAt, expiresAt]
    exact base
  · rw [serial]
    decide
  · rw [issuedAt]
    decide
  · rw [issuedAt, decoded]
    decide

theorem sample_accepted {issuer : UInt8} {authority : Authority} {now : ℤ} {remaining : ℕ}
    (sample : SamplePayload payload subject issuer) (listed : grants[index.toNat]? = some payload)
    (size : (sampleToken membershipTag index).utf8ByteSize ≤ maxTokenBytes)
    (started : 1000 ≤ unix (now + 5 * minute)) (alive : unix now < 9000)
    (issued : issuerAuthority sampleGenesis payload.decoded (verifyGrantFrom
      (samplePrimitives document grants tickets revocations) sampleGenesis now remaining)
        = .ok authority)
    (permitted : authority.Permits payload.decoded) :
    verifyGrantFrom (samplePrimitives document grants tickets revocations) sampleGenesis now
        (remaining + 1) (sampleToken membershipTag index)
      = .ok ⟨sampleToken membershipTag index, payload.decoded, sampleKey subject,
          sampleKey subject⟩ := by
  obtain ⟨dated, issuedAt, expiresAt⟩ := sample.dated
  exact dated_accepted dated listed size (issuedAt ▸ started) (Or.inr (expiresAt ▸ alive)) issued
    permitted

theorem dated_root_accepted {now : ℤ} {remaining : ℕ} (sample : DatedPayload payload subject 0)
    (listed : grants[index.toNat]? = some payload)
    (size : (sampleToken membershipTag index).utf8ByteSize ≤ maxTokenBytes)
    (started : payload.issuedAt ≤ unix (now + 5 * minute))
    (alive : payload.decoded.expiresAt = 0 ∨ unix now < payload.decoded.expiresAt)
    (depth : payload.issuerPeerID ≠ payload.subjectPeerID → payload.delegationDepth = 1) :
    verifyGrantFrom (samplePrimitives document grants tickets revocations) sampleGenesis now
        (remaining + 1) (sampleToken membershipTag index)
      = .ok ⟨sampleToken membershipTag index, payload.decoded, sampleKey subject,
          sampleKey subject⟩ := by
  refine dated_accepted sample listed size started alive
    (issuerAuthority_ok_iff.mpr (Or.inl ⟨sample.issuedBy, rfl⟩)) ?_
  refine ⟨rfl, ?_, fun _ => rfl, fun delegated => ?_, fun _ => depth, scopeSubset_iff.mpr (Or.inl rfl)⟩
  · show permissionRank payload.permission ≤ 3
    cases payload.permission with
    | view => decide
    | control => decide
    | full => decide
    | other text => exact Nat.zero_le 3
  · exact absurd delegated (show ¬ (0 : ℤ) ≤ -1 by decide)

theorem sample_root_accepted {now : ℤ} {remaining : ℕ} (sample : SamplePayload payload subject 0)
    (listed : grants[index.toNat]? = some payload)
    (size : (sampleToken membershipTag index).utf8ByteSize ≤ maxTokenBytes)
    (started : 1000 ≤ unix (now + 5 * minute)) (alive : unix now < 9000)
    (depth : payload.issuerPeerID ≠ payload.subjectPeerID → payload.delegationDepth = 1) :
    verifyGrantFrom (samplePrimitives document grants tickets revocations) sampleGenesis now
        (remaining + 1) (sampleToken membershipTag index)
      = .ok ⟨sampleToken membershipTag index, payload.decoded, sampleKey subject,
          sampleKey subject⟩ := by
  obtain ⟨dated, issuedAt, expiresAt⟩ := sample.dated
  exact dated_root_accepted dated listed size (issuedAt ▸ started) (Or.inr (expiresAt ▸ alive)) depth

theorem sample_genesis : verifyGenesis
    (samplePrimitives sampleGenesis.document grants tickets revocations) (sampleToken genesisTag 0)
      = .ok sampleGenesis := by
  have parsed : parseDocument genesisTag
      (samplePrimitives sampleGenesis.document grants tickets revocations).readGenesis
      (sampleToken genesisTag 0) = .ok ⟨sampleGenesis.document, [0], List.replicate 64 1⟩ :=
    parseDocument_signedToken (by decide) (by decide) rfl rfl
  have key : decodeSized sampleGenesis.document.creatorPublicKey publicKeySize "creator public key"
      = .ok (sampleKey 0) := decodeSized_encode (sampleKey 0) _
  have valid : validateGenesis (samplePrimitives sampleGenesis.document grants tickets revocations)
      sampleGenesis.document (sampleKey 0) = .ok () := by
    have space : (samplePrimitives sampleGenesis.document grants tickets revocations).uuidValid
        sampleSpaceID := by
      show decide (sampleSpaceID.length = 36) = true
      decide
    refine guard_ok_iff.mpr ⟨?_, guard_ok_iff.mpr ⟨not_not.mpr rfl, ?_⟩⟩
    · simp only [not_or, not_not, not_le]
      exact ⟨rfl, space, by decide⟩
    · exact validateDigest_peerID (P := samplePrimitives sampleGenesis.document grants tickets
        revocations) (sampleKey 0) _
  exact bind_ok_iff.mpr ⟨_, parsed, bind_ok_iff.mpr ⟨_, key, bind_ok_iff.mpr ⟨_, valid, rfl⟩⟩⟩

end Sample

theorem delegated_accepted :
    verifyGrant (samplePrimitives sampleGenesis.document delegated [] []) (sampleToken membershipTag 1)
        sampleGenesis (2000 * second)
      = .ok ⟨sampleToken membershipTag 1, delegated[1].decoded, sampleKey 2, sampleKey 2⟩ := by
  have first : SamplePayload delegated[0] 1 0 :=
    ⟨⟨1, rfl⟩, rfl, rfl, by decide, by decide, Or.inl rfl⟩
  have second : SamplePayload delegated[1] 2 1 :=
    ⟨⟨2, rfl⟩, rfl, rfl, by decide, by decide, Or.inr rfl⟩
  have issuer : verifyGrantFrom (samplePrimitives sampleGenesis.document delegated [] [])
      sampleGenesis (2000 * Peer.second) 8 (sampleToken membershipTag 0)
      = .ok ⟨sampleToken membershipTag 0, delegated[0].decoded, sampleKey 1, sampleKey 1⟩ :=
    sample_root_accepted first rfl (by decide) (by decide) (by decide) (fun _ => rfl)
  refine sample_accepted second rfl (by decide) (by decide) (by decide)
    (issuerAuthority_ok_iff.mpr (Or.inr ⟨by decide, by decide, _, issuer, rfl, rfl⟩))
    ?_
  exact ⟨rfl, by decide, fun _ => rfl, fun _ => rfl,
    fun root => absurd root (show ¬ (1 : ℤ) < 0 by decide), scopeSubset_iff.mpr (Or.inl rfl)⟩

theorem verifyGrant_attenuated_delegated :
    ∃ chain, IssuerChain (samplePrimitives sampleGenesis.document delegated [] []) sampleGenesis
      (sampleToken membershipTag 1) chain ∧ Attenuated sampleGenesis (2000 * second) chain := by
  refine (verifyGrant_attenuated_iff _ _ _ _ _ delegated_accepted).mpr ?_
  intro signed parsed self
  obtain ⟨found, _, link⟩ := verifyGrantFrom_ok_iff.mp delegated_accepted
  have same := link.parsed.symm.trans parsed
  rw [Except.ok.injEq] at same
  rw [← same, ← link.document_eq] at self
  exact absurd self.1 (by decide)

/-- **A self-membership at depth five** is accepted, although its position is the root. -/
theorem self_membership_at_depth_five :
    ∃ P genesis now token grant, verifyGrant P token genesis now = .ok grant ∧
      ¬ ∃ chain, IssuerChain P genesis token chain ∧ Attenuated genesis now chain := by
  have sample : SamplePayload (sampleGrant 0 5) 0 0 :=
    ⟨⟨5, rfl⟩, rfl, rfl, by decide, by decide, Or.inl rfl⟩
  have accepted : verifyGrant (samplePrimitives sampleGenesis.document [sampleGrant 0 5] [] [])
      (sampleToken membershipTag 0) sampleGenesis (2000 * second)
      = .ok ⟨sampleToken membershipTag 0, (sampleGrant 0 5).decoded, sampleKey 0, sampleKey 0⟩ :=
    sample_root_accepted sample rfl (by decide) (by decide) (by decide)
      (fun other => absurd rfl other)
  refine ⟨_, _, _, _, _, accepted, ?_⟩
  rintro ⟨chain, embedded, attenuated⟩
  obtain ⟨signed, _, link⟩ := verifyGrantFrom_ok_iff.mp accepted
  have whole := embedded.unique (.root link.parsed (by rw [← link.document_eq]; rfl))
  rw [← link.document_eq] at whole
  have placed := (whole ▸ attenuated.depths).1
  exact absurd placed (by decide)

end Atterm.Peer
