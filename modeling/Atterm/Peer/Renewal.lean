/-
**Renewing a membership.**

A member with the right to invite signs a fresh grant for another device. The new grant ends with the
chosen period or with the renewer's own grant, and in every directory the newest grant of a device
counts. The two rules meet badly: where the renewer's chain, or the new period, ends before the
access the device had, renewing takes access away.

* `renewMembership` — the renewal as it is signed and checked;
* `Renewed.accessEnd_eq` — how long the new grant lasts;
* `renewal_keeps_access_iff` — exactly when a renewal keeps the access there was.
-/

import Atterm.Peer.Directory
import Atterm.Peer.Validity

namespace Atterm.Peer

open Atterm.Foundation

def hour : ℤ := 60 * minute

def defaultMembershipValidity : ℤ := 90 * 24 * hour
def maxMembershipValidity : ℤ := 365 * 24 * hour

/-- The device that signs, with the JSON it writes: what is read back is what was written. -/
structure Identity (P : Primitives) where
  peerID : String
  marshal : DeviceGrant → Bytes
  sign : Bytes → Except DocumentError Bytes
  read_marshal : ∀ doc payload, P.readGrant (marshal doc) = .ok payload → payload.decoded = doc

def membershipExpiry (now : ℤ) (issuer : VerifiedGrant) (validFor : ℤ) : ℤ :=
  let expiresAt := unix (now + validFor)
  if issuer.document.expiresAt ≠ 0 ∧ issuer.document.expiresAt < expiresAt then
    issuer.document.expiresAt
  else expiresAt

/-- A requested period of zero stands for the default. -/
def renewalValidity (validFor : ℤ) : ℤ :=
  if validFor = 0 then defaultMembershipValidity else validFor

def signDocument {P : Primitives} (identity : Identity P) (doc : DeviceGrant) :
    Except DocumentError String := do
  let signature ← identity.sign (identity.marshal doc)
  return signedToken membershipTag (identity.marshal doc) signature

def renewedGrant (renewer serial : String) (genesis : VerifiedGenesis)
    (issuer subject : VerifiedGrant) (now expiresAt : ℤ) : DeviceGrant where
  v := version
  serial := serial
  spaceID := genesis.document.spaceID
  spaceGenesisHash := genesis.hash
  subjectPeerID := subject.document.subjectPeerID
  subjectPublicKey := subject.document.subjectPublicKey
  subjectWrappingPublicKey := subject.document.subjectWrappingPublicKey
  issuerPeerID := renewer
  issuerMembership := issuer.token
  issuedAt := unix now
  expiresAt := expiresAt
  permission := subject.document.permission
  allowedSessionIDs := subject.document.allowedSessionIDs
  canInvite := subject.document.canInvite
  canSyncSecrets := subject.document.canSyncSecrets
  delegationDepth := issuer.document.delegationDepth + 1

def renewalBroadens (issuer subject : DeviceGrant) : Prop :=
  ¬ issuer.canInvite ∨ issuer.delegationDepth ≥ 8 ∨
    permissionRank subject.permission > permissionRank issuer.permission ∨
    (subject.canSyncSecrets ∧ ¬ issuer.canSyncSecrets) ∨
    ¬ scopeSubset subject.allowedSessionIDs issuer.allowedSessionIDs

instance (issuer subject : DeviceGrant) : Decidable (renewalBroadens issuer subject) :=
  inferInstanceAs (Decidable (_ ∨ _))

/-- The grants a renewal starts from, verified again, or a refusal. -/
def renewalParties (P : Primitives) (renewer : String) (genesis : VerifiedGenesis)
    (issuer subject : VerifiedGrant) (now : ℤ) :
    Except DocumentError (VerifiedGrant × VerifiedGrant) :=
  match verifyGrant P issuer.token genesis now with
  | .error _ => .error (sentinel .renewalDenied)
  | .ok verifiedIssuer =>
    if verifiedIssuer.document.subjectPeerID ≠ renewer then .error (sentinel .renewalDenied)
    else
      match verifyGrant P subject.token genesis now with
      | .error _ => .error (sentinel .renewalDenied)
      | .ok verifiedSubject =>
        if verifiedSubject.document.subjectPeerID = genesis.document.creatorPeerID then
          .error (sentinel .renewalDenied)
        else .ok (verifiedIssuer, verifiedSubject)

/-- `RenewMembership`. The fresh serial is an input. -/
def renewMembership (P : Primitives) (identity : Option (Identity P)) (serial : String)
    (genesis : VerifiedGenesis) (issuer subject : VerifiedGrant) (now validFor : ℤ) :
    Except DocumentError String :=
  match identity with
  | none => .error (sentinel .renewalDenied)
  | some renewer =>
    if renewer.peerID = subject.document.subjectPeerID then .error (sentinel .renewalDenied)
    else do
      let (issuer, subject) ← renewalParties P renewer.peerID genesis issuer subject now
      if renewalBroadens issuer.document subject.document then .error (sentinel .renewalDenied)
      else if renewalValidity validFor < 24 * hour ∨
          renewalValidity validFor > maxMembershipValidity then
        .error (invalid "renewal validity")
      else
        let expiresAt := membershipExpiry now issuer (renewalValidity validFor)
        if expiresAt ≤ unix now then .error (sentinel .renewalDenied)
        else do
          let token ← signDocument renewer
            (renewedGrant renewer.peerID serial genesis issuer subject now expiresAt)
          match verifyGrant P token genesis now with
          | .error error => .error ⟨error.kind, "verify renewed membership: " ++ error.text⟩
          | .ok _ => .ok token

/-! ### What is signed -/

variable {P : Primitives} {genesis : VerifiedGenesis}

theorem parseDocument_signedToken_ok {α : Type} {tag : String} {read : Bytes → Except String α}
    {raw signature : Bytes} {signed : Signed α} (plain : '.' ∉ tag.toList)
    (parsed : parseDocument tag read (signedToken tag raw signature) = .ok signed) :
    read raw = .ok signed.document := by
  unfold parseDocument at parsed
  obtain ⟨_, parsed⟩ := guard_ok parsed
  rw [splitOn_signedToken raw signature plain] at parsed
  obtain ⟨_, parsed⟩ := guard_ok parsed
  rw [String.ofList_toList, Base64.decodeStrict_encode] at parsed
  obtain ⟨_, _, parsed⟩ := bind_ok parsed
  cases found : read raw with
  | error reason =>
    rw [found] at parsed
    cases parsed
  | ok document =>
    rw [found] at parsed
    cases parsed
    rfl

theorem renewalParties_ok {renewer : String} {issuer subject : VerifiedGrant} {now : ℤ}
    {parties : VerifiedGrant × VerifiedGrant}
    (done : renewalParties P renewer genesis issuer subject now = .ok parties) :
    verifyGrant P issuer.token genesis now = .ok parties.1 ∧
      parties.1.document.subjectPeerID = renewer ∧
      verifyGrant P subject.token genesis now = .ok parties.2 ∧
      parties.2.document.subjectPeerID ≠ genesis.document.creatorPeerID := by
  unfold renewalParties at done
  cases verifiedIssuer : verifyGrant P issuer.token genesis now with
  | error error =>
    rw [verifiedIssuer] at done
    cases done
  | ok found =>
    rw [verifiedIssuer] at done
    obtain ⟨named, done⟩ := guard_ok done
    cases verifiedSubject : verifyGrant P subject.token genesis now with
    | error error =>
      rw [verifiedSubject] at done
      cases done
    | ok member =>
      rw [verifiedSubject] at done
      obtain ⟨other, done⟩ := guard_ok done
      cases done
      exact ⟨rfl, not_not.mp named, rfl, other⟩

theorem renewalParties_verified {renewer : String} {issuer subject found again : VerifiedGrant}
    {now : ℤ} (issued : verifyGrant P issuer.token genesis now = .ok found)
    (named : found.document.subjectPeerID = renewer)
    (member : verifyGrant P subject.token genesis now = .ok again)
    (other : again.document.subjectPeerID ≠ genesis.document.creatorPeerID) :
    renewalParties P renewer genesis issuer subject now = .ok (found, again) := by
  unfold renewalParties
  rw [issued]
  refine guard_ok_iff.mpr ⟨not_not.mpr named, ?_⟩
  rw [member]
  exact guard_ok_iff.mpr ⟨other, rfl⟩

theorem renewMembership_signs {renewer : Identity P} {serial token : String}
    {issuer subject found again grant : VerifiedGrant} {now validFor : ℤ}
    (other : renewer.peerID ≠ subject.document.subjectPeerID)
    (parties : renewalParties P renewer.peerID genesis issuer subject now = .ok (found, again))
    (narrow : ¬ renewalBroadens found.document again.document)
    (fits : ¬ (renewalValidity validFor < 24 * hour ∨
      renewalValidity validFor > maxMembershipValidity))
    (lasting : ¬ membershipExpiry now found (renewalValidity validFor) ≤ unix now)
    (signed : signDocument renewer (renewedGrant renewer.peerID serial genesis found again now
      (membershipExpiry now found (renewalValidity validFor))) = .ok token)
    (accepted : verifyGrant P token genesis now = .ok grant) :
    renewMembership P (some renewer) serial genesis issuer subject now validFor = .ok token := by
  unfold renewMembership
  refine guard_ok_iff.mpr ⟨other, bind_ok_iff.mpr ⟨_, parties, guard_ok_iff.mpr ⟨narrow,
    guard_ok_iff.mpr ⟨fits, guard_ok_iff.mpr ⟨lasting, bind_ok_iff.mpr ⟨_, signed, ?_⟩⟩⟩⟩⟩⟩
  rw [accepted]

/-- What a renewal leaves behind: the renewer's verified grant and the accepted new one. -/
structure Renewed (P : Primitives) (genesis : VerifiedGenesis) (serial : String)
    (issuer subject : VerifiedGrant) (now validFor : ℤ) (found grant : VerifiedGrant) : Prop where
  issued : verifyGrant P issuer.token genesis now = .ok found
  other : subject.document.subjectPeerID ≠ genesis.document.creatorPeerID
  accepted : verifyGrant P grant.token genesis now = .ok grant
  lasting : unix now < membershipExpiry now found (renewalValidity validFor)
  document_eq : grant.document = renewedGrant found.document.subjectPeerID serial genesis found
    subject now (membershipExpiry now found (renewalValidity validFor))

/-- **A renewal** signs the renewed grant, and the token is accepted as such. -/
theorem renewMembership_ok {identity : Option (Identity P)} {serial token : String}
    {issuer subject : VerifiedGrant} {now validFor : ℤ}
    (member : verifyGrant P subject.token genesis now = .ok subject)
    (renewed : renewMembership P identity serial genesis issuer subject now validFor = .ok token) :
    ∃ found grant, grant.token = token ∧
      Renewed P genesis serial issuer subject now validFor found grant := by
  unfold renewMembership at renewed
  cases identity with
  | none => cases renewed
  | some renewer =>
    obtain ⟨_, renewed⟩ := guard_ok renewed
    obtain ⟨⟨found, again⟩, parties, renewed⟩ := bind_ok renewed
    obtain ⟨issued, named, same, other⟩ := renewalParties_ok parties
    obtain ⟨_, renewed⟩ := guard_ok renewed
    obtain ⟨_, renewed⟩ := guard_ok renewed
    obtain ⟨lasting, renewed⟩ := guard_ok renewed
    obtain ⟨signedAs, signing, accepted⟩ := bind_ok renewed
    obtain ⟨signature, _, whole⟩ := bind_ok signing
    rw [member, Except.ok.injEq] at same
    have subjectEq : subject = again := same
    subst subjectEq
    cases checked : verifyGrant P signedAs genesis now with
    | error error =>
      rw [checked] at accepted
      cases accepted
    | ok grant =>
      rw [checked] at accepted
      cases accepted
      obtain ⟨signed, authority, link⟩ := verifyGrantFrom_ok_iff.mp checked
      have parsed := link.parsed
      refine ⟨found, grant, link.token_eq, issued, other, ?_, not_le.mp lasting, ?_⟩
      · rw [link.token_eq]
        exact checked
      · cases whole
        rw [link.document_eq, named]
        exact renewer.read_marshal _ _ (parseDocument_signedToken_ok (by decide) parsed)

/-! ### How long the new grant lasts -/

theorem membershipExpiry_eq_min {now validFor : ℤ} (issuer : VerifiedGrant) :
    (membershipExpiry now issuer validFor : WithTop ℤ) =
      min (unix (now + validFor) : WithTop ℤ) issuer.document.expiry := by
  unfold membershipExpiry DeviceGrant.expiry
  by_cases forever : issuer.document.expiresAt = 0
  · simp [forever]
  · by_cases sooner : issuer.document.expiresAt < unix (now + validFor)
    · simp [forever, sooner, sooner.le]
    · simp [forever, sooner, not_lt.mp sooner]

theorem issuer_eq_creator_of_depth {now : ℤ} {token : String} {grant : VerifiedGrant}
    (accepted : verifyGrant P token genesis now = .ok grant)
    (depth : grant.document.delegationDepth = 0) :
    grant.document.issuerPeerID = genesis.document.creatorPeerID := by
  obtain ⟨signed, authority, link⟩ := verifyGrantFrom_ok_iff.mp accepted
  rcases issuerAuthority_ok_iff.mp link.issued with
    ⟨creator, _⟩ | ⟨_, _, issuer, verified, _, same⟩
  · exact creator
  · obtain ⟨_, _, below⟩ := verifyGrantFrom_ok_iff.mp verified
    have deeper := link.permitted.depth
    rw [same] at deeper
    have next := deeper below.valid.depth_nonneg
    have nonneg := below.valid.depth_nonneg
    have own : issuer.authority.depth = issuer.document.delegationDepth := rfl
    omega

/-- **The new grant lasts** for the chosen period, and no longer than the renewer's own chain. -/
theorem Renewed.accessEnd_eq {serial : String} {issuer subject found grant : VerifiedGrant}
    {now validFor : ℤ} (renewed : Renewed P genesis serial issuer subject now validFor found grant) :
    accessEnd (embeddedChain P genesis chainLimit grant.token) =
      min (unix (now + renewalValidity validFor) : WithTop ℤ)
        (accessEnd (embeddedChain P genesis chainLimit issuer.token)) := by
  obtain ⟨signed, authority, link⟩ := verifyGrantFrom_ok_iff.mp renewed.accepted
  obtain ⟨theirs, _, below⟩ := verifyGrantFrom_ok_iff.mp renewed.issued
  have issuedAt : 0 < unix now := by
    have positive := link.valid.issuedAt_pos
    rw [renewed.document_eq] at positive
    exact positive
  have own : grant.document.expiry =
      min (unix (now + renewalValidity validFor) : WithTop ℤ) found.document.expiry := by
    rw [← membershipExpiry_eq_min]
    unfold DeviceGrant.expiry
    rw [renewed.document_eq]
    exact if_neg (issuedAt.trans renewed.lasting).ne'
  have issuerPeerID : grant.document.issuerPeerID = found.document.subjectPeerID := by
    rw [renewed.document_eq]
    rfl
  have issuerMembership : grant.document.issuerMembership = issuer.token := by
    rw [renewed.document_eq]
    exact below.token_eq
  rw [show chainLimit = 8 + 1 from rfl, embeddedChain_of_parsed link.parsed,
    embeddedChain_of_parsed below.parsed, ← link.document_eq, ← below.document_eq]
  by_cases creator : grant.document.issuerPeerID = genesis.document.creatorPeerID
  · -- the creator renews with its own root membership, the only one at depth zero
    have child : grant.document.delegationDepth = 1 := by
      rcases issuerAuthority_ok_iff.mp link.issued with ⟨_, same⟩ | ⟨delegated, _⟩
      · have permitted := link.permitted.childDepth
        rw [same] at permitted
        refine permitted (by decide : (-1 : ℤ) < 0) fun self => renewed.other ?_
        rw [← creator, self, renewed.document_eq]
        rfl
      · exact absurd creator delegated
    have depth : found.document.delegationDepth = 0 := by
      rw [renewed.document_eq] at child
      have next : found.document.delegationDepth + 1 = 1 := child
      omega
    rw [if_pos creator, if_pos (issuer_eq_creator_of_depth renewed.issued depth)]
    show min grant.document.expiry ⊤ = min _ (min found.document.expiry ⊤)
    rw [own, min_top_right, min_top_right]
  · rcases issuerAuthority_ok_iff.mp link.issued with ⟨again, _⟩ | ⟨_, _, lower, verified, _⟩
    · exact absurd again creator
    · rw [issuerMembership] at verified
      have same := embeddedChain_succ verified
      rw [if_neg creator, issuerMembership]
      show min grant.document.expiry (accessEnd (embeddedChain P genesis 8 issuer.token)) = _
      rw [← same, embeddedChain_of_parsed below.parsed, ← below.document_eq, own, min_assoc]
      congr 1
      split_ifs
      · show min _ (min found.document.expiry ⊤) = _
        exact min_eq_right (min_le_left _ _)
      · exact min_eq_right (min_le_left _ _)

/-! ### Access before and after -/

/-- A membership of a device that the store knows, or that comes with the renewer's. -/
structure Known (P : Primitives) (genesis : VerifiedGenesis) (disk : StoreState) (issuer : String)
    (peer : String) (membership : VerifiedGrant) : Prop where
  subject : membership.document.subjectPeerID = peer
  verified : verifyGrantAtIssuance P membership.token genesis = .ok membership
  listed : Listed P genesis (disk.candidates ++ [issuer]) membership.token

/-- A membership goes before one issued at a time under a serial. -/
def Overtakes (membership : VerifiedGrant) (now : ℤ) (serial : String) : Prop :=
  unix now < membership.document.issuedAt ∨
    (membership.document.issuedAt = unix now ∧ membership.document.serial < serial)

instance (membership : VerifiedGrant) (now : ℤ) (serial : String) :
    Decidable (Overtakes membership now serial) :=
  inferInstanceAs (Decidable (_ ∨ _))

/-- **The condition.** The access of the renewed membership ends no later than the new period and
the renewer's own chain. Where the store knows a membership of the device that goes before the new
grant, the first of those has started and lasts as long. -/
structure RenewalLasts (P : Primitives) (genesis : VerifiedGenesis) (disk : StoreState)
    (issuer subject : VerifiedGrant) (serial : String) (now validFor : ℤ) : Prop where
  renewed : (∀ other, Known P genesis disk issuer.token subject.document.subjectPeerID other →
      ¬ Overtakes other now serial) →
    accessEnd (embeddedChain P genesis chainLimit subject.token) ≤
      min (unix (now + renewalValidity validFor) : WithTop ℤ)
        (accessEnd (embeddedChain P genesis chainLimit issuer.token))
  overtaken : ∀ first, Known P genesis disk issuer.token subject.document.subjectPeerID first →
    Overtakes first now serial →
    (∀ other, Known P genesis disk issuer.token subject.document.subjectPeerID other →
      membershipCanonicalAfter other first = false) →
    (∀ entry ∈ embeddedChain P genesis chainLimit first.token,
      entry.issuedAt ≤ unix (now + 5 * minute)) ∧
    accessEnd (embeddedChain P genesis chainLimit subject.token) ≤
      accessEnd (embeddedChain P genesis chainLimit first.token)

theorem Renewed.listed_iff {serial : String} {issuer subject found grant : VerifiedGrant}
    {now validFor : ℤ} (renewed : Renewed P genesis serial issuer subject now validFor found grant)
    (issuance : verifyGrantAtIssuance P grant.token genesis = .ok grant) (tokens : List String)
    (token : String) :
    Listed P genesis (tokens ++ [grant.token]) token ↔
      token = grant.token ∨ Listed P genesis (tokens ++ [issuer.token]) token := by
  have embedded : grant.document.issuerMembership = issuer.token := by
    rw [renewed.document_eq]
    exact verifyGrant_token renewed.issued
  constructor
  · intro listed
    induction listed with
    | here member =>
      rcases List.mem_append.mp member with old | new
      · exact Or.inr (.here (List.mem_append_left _ old))
      · exact Or.inl (List.mem_singleton.mp new)
    | issuer _ verified some ih =>
      rcases ih with rfl | further
      · rw [issuance, Except.ok.injEq] at verified
        subst verified
        rw [embedded]
        exact Or.inr (.here (List.mem_append_right _ List.mem_cons_self))
      · exact Or.inr (.issuer further verified some)
  · have own : Listed P genesis (tokens ++ [grant.token]) grant.token :=
      .here (List.mem_append_right _ List.mem_cons_self)
    rintro (rfl | listed)
    · exact own
    · refine listed.mono fun other member => ?_
      rcases List.mem_append.mp member with old | new
      · exact .here (List.mem_append_left _ old)
      · rw [List.mem_singleton.mp new, ← embedded]
        refine .issuer own issuance fun none => ?_
        rw [embedded] at none
        obtain ⟨signed, authority, link⟩ := verifyGrantFrom_ok_iff.mp (none ▸ renewed.issued)
        exact absurd rfl (not_or.mp (guard_ok link.parsed).1).1

theorem Renewed.overtakes_iff {serial : String} {issuer subject found grant other : VerifiedGrant}
    {now validFor : ℤ} (renewed : Renewed P genesis serial issuer subject now validFor found grant)
    (unforked : other.document.serial = grant.document.serial → other.token = grant.token) :
    membershipCanonicalAfter other grant = true ↔ Overtakes other now serial := by
  have issuedAt : grant.document.issuedAt = unix now := by
    rw [renewed.document_eq]
    rfl
  have named : grant.document.serial = serial := by
    rw [renewed.document_eq]
    rfl
  rw [membershipCanonicalAfter_iff, issuedAt]
  constructor
  · rintro (later | ⟨same, smaller | ⟨serialEq, token⟩⟩)
    · exact Or.inl later
    · exact Or.inr ⟨same, named ▸ smaller⟩
    · exact absurd (unforked serialEq) token.ne
  · rintro (later | ⟨same, smaller⟩)
    · exact Or.inl later
    · exact Or.inr ⟨same, Or.inl (named.symm ▸ smaller)⟩

/-- **After the new grant is applied it counts**, unless a known membership overtakes it; then the
first of those counts. -/
theorem Renewed.canonical {serial : String} {issuer subject found grant : VerifiedGrant}
    {now validFor : ℤ} {disk after : StoreState}
    (renewed : Renewed P genesis serial issuer subject now validFor found grant)
    (store : Applied P genesis (disk.candidates ++ [grant.token]) after) :
    ∃ directory canonical, canonicalPeerMemberships P after genesis = .ok directory ∧
      directory[subject.document.subjectPeerID]? = some canonical ∧
      verifyGrantAtIssuance P canonical.token genesis = .ok canonical ∧
      ((canonical = grant ∧
          ∀ other, Known P genesis disk issuer.token subject.document.subjectPeerID other →
            ¬ Overtakes other now serial) ∨
        (Known P genesis disk issuer.token subject.document.subjectPeerID canonical ∧
          Overtakes canonical now serial ∧
          ∀ other, Known P genesis disk issuer.token subject.document.subjectPeerID other →
            other ≠ canonical → membershipCanonicalAfter canonical other = true)) := by
  have own : Listed P genesis (disk.candidates ++ [grant.token]) grant.token :=
    .here (List.mem_append_right _ List.mem_cons_self)
  have issuance : verifyGrantAtIssuance P grant.token genesis = .ok grant := by
    obtain ⟨again, verified⟩ := store.verified grant.token own
    rw [verified, verifyGrantFrom_same (verifyGrantAtIssuance_ok_iff.mp verified) renewed.accepted]
  have listedIff := renewed.listed_iff issuance disk.candidates
  have inDirectory : ∀ other, other ∈ after.memberships ++ [after.localMembership] ↔
      Listed P genesis (disk.candidates ++ [grant.token]) other := by
    intro other
    rw [← store.tokens, List.mem_append, List.mem_singleton]
    exact or_iff_left_of_imp fun same => same ▸ store.owner
  have subjectPeerID : grant.document.subjectPeerID = subject.document.subjectPeerID := by
    rw [renewed.document_eq]
    rfl
  obtain ⟨directory, built, chosen⟩ := canonicalPeerMemberships_champion
    fun other listed => store.verified other ((inDirectory other).mp listed)
  obtain ⟨canonical, counts, listed, verified, ofDevice, beats⟩ :=
    chosen grant ((inDirectory _).mpr own) issuance
  rw [subjectPeerID] at counts ofDevice beats
  refine ⟨directory, canonical, built, counts, verified, ?_⟩
  -- the memberships of the device in the directory are the known ones and the new one
  have held : ∀ other, Known P genesis disk issuer.token subject.document.subjectPeerID other →
      other.token ∈ after.memberships ++ [after.localMembership] := fun other known =>
    (inDirectory _).mpr ((listedIff _).mpr (Or.inr known.listed))
  have overtakes : ∀ other : VerifiedGrant,
      other.token ∈ after.memberships ++ [after.localMembership] →
      verifyGrantAtIssuance P other.token genesis = .ok other →
      (membershipCanonicalAfter other grant = true ↔ Overtakes other now serial) := by
    intro other inside accepted
    exact renewed.overtakes_iff fun serialEq =>
      store.serials _ _ _ _ ((inDirectory _).mp inside) own accepted issuance serialEq
  by_cases new : canonical = grant
  · subst new
    refine Or.inl ⟨rfl, fun other known ahead => ?_⟩
    have after := (overtakes other (held other known) known.verified).mpr ahead
    by_cases same : other = canonical
    · exact membershipCanonicalAfter_irrefl _ (same ▸ after)
    · have back := beats other (held other known) known.verified known.subject same
      rw [membershipCanonicalAfter_asymm _ _ back] at after
      cases after
  · refine Or.inr ⟨⟨ofDevice, verified, ?_⟩, (overtakes canonical listed verified).mp
      (beats grant ((inDirectory _).mpr own) issuance subjectPeerID (Ne.symm new)),
      fun other known => beats other (held other known) known.verified known.subject⟩
    rcases (listedIff _).mp ((inDirectory _).mp listed) with same | old
    · rw [same, issuance, Except.ok.injEq] at verified
      exact absurd verified.symm new
    · exact old

/-- **A renewal keeps the access there was** exactly when the condition holds. -/
theorem renewal_keeps_access_iff (P : Primitives) (identity : Option (Identity P))
    (serial token : String) (genesis : VerifiedGenesis) (issuer subject : VerifiedGrant)
    (now validFor applyTime : ℤ) (written : Bool) (disk after : StoreState) (answer : Option String)
    (anchored : verifyGenesis P disk.genesisToken = .ok genesis)
    (member : verifyGrant P subject.token genesis now = .ok subject)
    (renewal : renewMembership P identity serial genesis issuer subject now validFor = .ok token)
    (applied : StoreCall.run P written disk (.applyMemberships [token] applyTime)
      = .ok (answer, after)) :
    ∃ directory canonical, canonicalPeerMemberships P after genesis = .ok directory ∧
      directory[subject.document.subjectPeerID]? = some canonical ∧
      ((∀ time, now ≤ time → ValidAt P genesis subject.token time →
          ValidAt P genesis canonical.token time) ↔
        RenewalLasts P genesis disk issuer subject serial now validFor) := by
  obtain ⟨found, grant, rfl, renewed⟩ := renewMembership_ok member renewal
  obtain ⟨directory, canonical, built, counts, verified, outcome⟩ :=
    renewed.canonical (applyMemberships_applied anchored applied)
  refine ⟨directory, canonical, built, counts, ?_⟩
  rw [covers_access_iff member (verifyGrantAtIssuance_ok_iff.mp verified)]
  rcases outcome with ⟨rfl, none⟩ | ⟨known, ahead, first⟩
  · have started : ∀ entry ∈ embeddedChain P genesis chainLimit canonical.token,
        entry.issuedAt ≤ unix (now + 5 * minute) := fun entry inside =>
      ((verifyGrantFrom_at_iff renewed.accepted).mp renewed.accepted entry inside).1
    rw [renewed.accessEnd_eq]
    constructor
    · rintro ⟨_, ordered⟩
      exact ⟨fun _ => ordered, fun other known ahead => absurd ahead (none other known)⟩
    · intro lasts
      exact ⟨started, lasts.renewed none⟩
  · constructor
    · intro covers
      refine ⟨fun none => absurd ahead (none canonical known), fun other also _ best => ?_⟩
      by_cases same : other = canonical
      · rw [same]
        exact covers
      · have worse := first other also same
        rw [best canonical known] at worse
        cases worse
    · intro lasts
      refine lasts.overtaken canonical known ahead fun other also => ?_
      by_cases same : other = canonical
      · exact Bool.eq_false_iff.mpr (same ▸ membershipCanonicalAfter_irrefl canonical)
      · exact membershipCanonicalAfter_asymm _ _ (first other also same)

/-! ### Renewed by a member that leaves sooner -/

/-- Peers one and two are members, peer two for good. Peer one renews peer two. -/
def renewals : List GrantPayload :=
  [sampleGrant 0 0,
    { sampleGrant 1 1 with serial := "44444444-4444-4444-8444-444444444444" },
    { sampleGrant 2 1 with
      serial := "55555555-5555-4555-8555-555555555555"
      expiresAt := none },
    { delegate (sampleGrant 2 2) 1 1 with
      serial := "66666666-6666-4666-8666-666666666666"
      issuedAt := 2000 }]

def renewalPrimitives : Primitives := samplePrimitives sampleGenesis.document renewals [] []

def renewalGrant (index subject : UInt8) (payload : GrantPayload) : VerifiedGrant :=
  ⟨sampleToken membershipTag index, payload.decoded, sampleKey subject, sampleKey subject⟩

def renewalGrants : List VerifiedGrant :=
  [renewalGrant 0 0 renewals[0], renewalGrant 1 1 renewals[1], renewalGrant 2 2 renewals[2],
    renewalGrant 3 2 renewals[3]]

theorem renewal_root_accepted {index subject : UInt8} {payload : GrantPayload} {now : ℤ}
    {remaining : ℕ} (sample : DatedPayload payload subject 0)
    (listed : renewals[index.toNat]? = some payload)
    (size : (sampleToken membershipTag index).utf8ByteSize ≤ maxTokenBytes)
    (started : payload.issuedAt ≤ unix (now + 5 * minute))
    (alive : payload.decoded.expiresAt = 0 ∨ unix now < payload.decoded.expiresAt)
    (depth : payload.issuerPeerID ≠ payload.subjectPeerID → payload.delegationDepth = 1) :
    verifyGrantFrom renewalPrimitives sampleGenesis now (remaining + 1)
      (sampleToken membershipTag index) = .ok (renewalGrant index subject payload) :=
  dated_root_accepted sample listed size started alive depth

theorem renewal_samples : DatedPayload renewals[0] 0 0 ∧ DatedPayload renewals[1] 1 0 ∧
    DatedPayload renewals[2] 2 0 ∧ DatedPayload renewals[3] 2 1 := by
  refine ⟨⟨⟨0, rfl⟩, ?_, ?_, ?_, rfl, ?_, ?_, ?_, Or.inl rfl⟩, ⟨⟨1, rfl⟩, ?_, ?_, ?_, rfl, ?_, ?_, ?_,
    Or.inl rfl⟩, ⟨⟨1, rfl⟩, ?_, ?_, ?_, rfl, ?_, ?_, ?_, Or.inl rfl⟩,
    ⟨⟨2, rfl⟩, ?_, ?_, ?_, rfl, ?_, ?_, ?_, Or.inl rfl⟩⟩ <;> decide

theorem renewal_member_accepted {now : ℤ} {remaining : ℕ} (started : 1000 ≤ unix (now + 5 * minute))
    (alive : unix now < 9000) :
    verifyGrantFrom renewalPrimitives sampleGenesis now (remaining + 1) (sampleToken membershipTag 1)
      = .ok (renewalGrant 1 1 renewals[1]) :=
  renewal_root_accepted renewal_samples.2.1 rfl (by decide) started (Or.inr alive)
    fun _ => rfl

theorem renewal_lasting_accepted {now : ℤ} {remaining : ℕ}
    (started : 1000 ≤ unix (now + 5 * minute)) :
    verifyGrantFrom renewalPrimitives sampleGenesis now (remaining + 1) (sampleToken membershipTag 2)
      = .ok (renewalGrant 2 2 renewals[2]) :=
  renewal_root_accepted renewal_samples.2.2.1 rfl (by decide) started (Or.inl rfl)
    fun _ => rfl

theorem renewal_new_accepted {now : ℤ} {remaining : ℕ} (started : 2000 ≤ unix (now + 5 * minute))
    (alive : unix now < 9000) :
    verifyGrantFrom renewalPrimitives sampleGenesis now (remaining + 1 + 1)
      (sampleToken membershipTag 3) = .ok (renewalGrant 3 2 renewals[3]) := by
  have other : renewals[3].decoded.issuerPeerID ≠ sampleGenesis.document.creatorPeerID := by
    decide
  have embedded : renewals[3].decoded.issuerMembership ≠ "" := by decide
  refine dated_accepted renewal_samples.2.2.2 rfl (by decide) started (Or.inr alive)
    (issuerAuthority_ok_iff.mpr (Or.inr ⟨other, embedded, _,
      renewal_member_accepted (by omega) alive, rfl, rfl⟩)) ?_
  exact ⟨rfl, by decide, fun _ => rfl, fun _ => rfl, fun root => absurd root (by decide),
    scopeSubset_iff.mpr (Or.inl rfl)⟩

theorem renewals_gatherable : Gatherable renewalPrimitives sampleGenesis renewalGrants where
  verified := by
    intro grant member
    rcases List.mem_cons.mp member with rfl | member
    · exact verifyGrantAtIssuance_ok_iff.mpr (renewal_root_accepted renewal_samples.1 rfl
        (by decide) (by decide) (by decide) fun other => absurd rfl other)
    rcases List.mem_cons.mp member with rfl | member
    · exact verifyGrantAtIssuance_ok_iff.mpr (renewal_member_accepted (by decide) (by decide))
    rcases List.mem_pair.mp member with rfl | rfl
    · exact verifyGrantAtIssuance_ok_iff.mpr (renewal_lasting_accepted (by decide))
    · exact verifyGrantAtIssuance_ok_iff.mpr (renewal_new_accepted (by decide) (by decide))
  closed := by
    intro grant member embedded
    rcases List.mem_cons.mp member with rfl | member
    · exact absurd rfl embedded
    rcases List.mem_cons.mp member with rfl | member
    · exact absurd rfl embedded
    rcases List.mem_pair.mp member with rfl | rfl
    · exact absurd rfl embedded
    · exact List.mem_cons_of_mem _ List.mem_cons_self
  serials := by decide
  keys := by decide
  few := by decide

/-- Peer one, who can write the one grant it is asked to sign. -/
def renewer : Identity renewalPrimitives where
  peerID := samplePeerID 1
  marshal := fun doc => if doc = renewals[3].decoded then [3] else [9]
  sign := fun _ => .ok (List.replicate 64 1)
  read_marshal := by
    intro doc payload read
    split_ifs at read with same
    · cases read
      exact same.symm
    · cases read

def renewerStore : StoreState where
  genesisToken := sampleToken genesisTag 0
  localMembership := sampleToken membershipTag 1
  memberships := [sampleToken membershipTag 2]
  invitations := []
  revocations := []
  revokedMembers := ∅
  revokedGrantSerials := ∅
  updatedAt := 1000

theorem renewal_signed : renewMembership renewalPrimitives (some renewer)
    "66666666-6666-4666-8666-666666666666" sampleGenesis (renewalGrant 1 1 renewals[1])
      (renewalGrant 2 2 renewals[2]) (2000 * second) 0 = .ok (sampleToken membershipTag 3) := by
  have parties : renewalParties renewalPrimitives renewer.peerID sampleGenesis
      (renewalGrant 1 1 renewals[1]) (renewalGrant 2 2 renewals[2]) (2000 * second)
        = .ok (renewalGrant 1 1 renewals[1], renewalGrant 2 2 renewals[2]) := by
    have issuer : verifyGrant renewalPrimitives (sampleToken membershipTag 1) sampleGenesis
        (2000 * second) = .ok (renewalGrant 1 1 renewals[1]) :=
      renewal_member_accepted (by decide) (by decide)
    have subject : verifyGrant renewalPrimitives (sampleToken membershipTag 2) sampleGenesis
        (2000 * second) = .ok (renewalGrant 2 2 renewals[2]) := renewal_lasting_accepted (by decide)
    exact renewalParties_verified issuer rfl subject (by decide)
  have expiry : membershipExpiry (2000 * second) (renewalGrant 1 1 renewals[1]) (renewalValidity 0)
      = 9000 := by decide
  have signed : signDocument renewer (renewedGrant renewer.peerID
      "66666666-6666-4666-8666-666666666666" sampleGenesis (renewalGrant 1 1 renewals[1])
      (renewalGrant 2 2 renewals[2]) (2000 * second) 9000) = .ok (sampleToken membershipTag 3) := by
    have same : renewedGrant renewer.peerID "66666666-6666-4666-8666-666666666666" sampleGenesis
        (renewalGrant 1 1 renewals[1]) (renewalGrant 2 2 renewals[2]) (2000 * second) 9000
          = renewals[3].decoded := rfl
    have written : renewer.marshal renewals[3].decoded = [3] := if_pos rfl
    rw [same]
    refine bind_ok_iff.mpr ⟨List.replicate 64 1, rfl, ?_⟩
    rw [written]
    rfl
  have accepted : verifyGrant renewalPrimitives (sampleToken membershipTag 3) sampleGenesis
      (2000 * second) = .ok (renewalGrant 3 2 renewals[3]) :=
    renewal_new_accepted (by decide) (by decide)
  exact renewMembership_signs (by decide) parties (by decide) (by decide)
    (by rw [expiry]; decide) (expiry.symm ▸ signed) accepted

theorem renewer_candidates : ∀ token ∈ renewerStore.candidates ++ [sampleToken membershipTag 1],
    token ∈ renewalGrants.map VerifiedGrant.token := by
  intro token candidate
  rcases List.mem_cons.mp candidate with rfl | candidate
  · exact List.mem_cons_of_mem _ (List.mem_cons_of_mem _ List.mem_cons_self)
  rcases List.mem_pair.mp candidate with rfl | rfl <;>
    exact List.mem_cons_of_mem _ List.mem_cons_self

theorem renewerStore_applies : ∃ after, StoreCall.run renewalPrimitives true renewerStore
    (.applyMemberships [sampleToken membershipTag 3] (2000 * second)) = .ok (none, after) := by
  have holds : Holds renewalPrimitives sampleGenesis renewalGrants renewerStore := by
    refine ⟨sample_genesis, List.mem_cons_of_mem _ List.mem_cons_self, ?_, rfl⟩
    exact fun token candidate => renewer_candidates token (List.mem_append_left _ candidate)
  refine holds.applies renewals_gatherable (by simp) (by decide) (by decide) ?_
  intro token member
  rw [List.mem_singleton.mp member]
  exact List.mem_cons_of_mem _ (List.mem_cons_of_mem _ (List.mem_cons_of_mem _ List.mem_cons_self))

theorem renewal_keeps_access_iff_renewer : ∃ after directory canonical,
    canonicalPeerMemberships renewalPrimitives after sampleGenesis = .ok directory ∧
      directory[samplePeerID 2]? = some canonical ∧
      ((∀ time, 2000 * second ≤ time →
          ValidAt renewalPrimitives sampleGenesis (sampleToken membershipTag 2) time →
          ValidAt renewalPrimitives sampleGenesis canonical.token time) ↔
        RenewalLasts renewalPrimitives sampleGenesis renewerStore (renewalGrant 1 1 renewals[1])
          (renewalGrant 2 2 renewals[2]) "66666666-6666-4666-8666-666666666666" (2000 * second) 0) := by
  obtain ⟨after, applied⟩ := renewerStore_applies
  exact ⟨after, renewal_keeps_access_iff renewalPrimitives (some renewer) _ _ sampleGenesis _
    (renewalGrant 2 2 renewals[2]) _ _ _ _ renewerStore _ _ sample_genesis
    (renewal_lasting_accepted (by decide)) renewal_signed applied⟩

/-- **A renewal that takes access away.** Peer two was a member for good; peer one, whose own
membership ends in second 9000, renews it, and in second 9500 peer two is no longer let in. -/
theorem renewal_shortens_access : ∃ after directory canonical,
    renewMembership renewalPrimitives (some renewer) "66666666-6666-4666-8666-666666666666"
      sampleGenesis (renewalGrant 1 1 renewals[1]) (renewalGrant 2 2 renewals[2]) (2000 * second) 0
        = .ok (sampleToken membershipTag 3) ∧
      StoreCall.run renewalPrimitives true renewerStore
        (.applyMemberships [sampleToken membershipTag 3] (2000 * second)) = .ok (none, after) ∧
      canonicalPeerMemberships renewalPrimitives after sampleGenesis = .ok directory ∧
      directory[samplePeerID 2]? = some canonical ∧
      ValidAt renewalPrimitives sampleGenesis (sampleToken membershipTag 2) (9500 * second) ∧
      ¬ ValidAt renewalPrimitives sampleGenesis canonical.token (9500 * second) := by
  obtain ⟨after, applied⟩ := renewerStore_applies
  have member : verifyGrant renewalPrimitives (renewalGrant 2 2 renewals[2]).token sampleGenesis
      (2000 * second) = .ok (renewalGrant 2 2 renewals[2]) := renewal_lasting_accepted (by decide)
  have accepted : verifyGrant renewalPrimitives (sampleToken membershipTag 3) sampleGenesis
      (2000 * second) = .ok (renewalGrant 3 2 renewals[3]) :=
    renewal_new_accepted (by decide) (by decide)
  obtain ⟨found, grant, token, renewed⟩ := renewMembership_ok member renewal_signed
  have new : grant = renewalGrant 3 2 renewals[3] :=
    verifyGrantFrom_same (token ▸ renewed.accepted) accepted
  have store : Applied renewalPrimitives sampleGenesis (renewerStore.candidates ++ [grant.token])
      after := token.symm ▸ applyMemberships_applied sample_genesis applied
  obtain ⟨directory, canonical, built, counts, _, outcome⟩ := renewed.canonical store
  have none : ∀ other ∈ renewalGrants,
      ¬ Overtakes other (2000 * second) "66666666-6666-4666-8666-666666666666" := by
    decide
  have last : canonical = renewalGrant 3 2 renewals[3] := by
    rcases outcome with ⟨same, _⟩ | ⟨known, ahead, _⟩
    · exact same.trans new
    · have inside := renewals_gatherable.listed renewer_candidates known.listed
      obtain ⟨other, member, same⟩ := List.mem_map.mp inside
      have verified := renewals_gatherable.verified other member
      rw [same, known.verified, Except.ok.injEq] at verified
      exact absurd (verified ▸ ahead) (none other member)
  refine ⟨after, directory, canonical, renewal_signed, applied, built, counts,
    ⟨_, renewal_lasting_accepted (by decide)⟩, ?_⟩
  rintro ⟨still, valid⟩
  rw [last] at valid
  have same := verifyGrantFrom_same accepted valid
  obtain ⟨signed, authority, link⟩ := verifyGrantFrom_ok_iff.mp valid
  have alive := link.valid.unexpired
  rw [← same] at alive
  exact absurd alive (by decide)

end Atterm.Peer
