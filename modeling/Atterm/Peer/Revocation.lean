/-
**Signed denials.**

A revocation denies a peer, a membership or a batch of invitations for good. A `RevocationSet`
collects the verified ones of a space and keeps, for each denied identity, the earliest time it was
denied at.

* `verifyRevocation` — who may deny what;
* `RevocationSet.apply` — one denial, with the duplicate, the fork and the limit;
* `collected` — the set that holds a list of verified denials.
-/

import Atterm.Peer.GrantRules
import Atterm.Foundation.Earliest
import Atterm.Foundation.TreeMapFold

namespace Atterm.Peer

open Atterm.Foundation
open Std (ExtTreeMap)

def maxRevocationCandidates : ℕ := 4096

def RevocationKind.valid (kind : RevocationKind) : Bool :=
  kind = .member ∨ kind = .grant ∨ kind = .invitationBatch

/-- A revocation with the exact token and its stable hash. -/
structure VerifiedRevocation where
  token : String
  document : Revocation
  publicKey : Bytes
  hash : String
deriving DecidableEq

def canRevoke (kind : RevocationKind) (actor : VerifiedGrant) : Bool :=
  if kind = .invitationBatch then actor.document.canInvite
  else actor.document.permission = .full ∧ actor.document.canInvite

section Verification

variable (P : Primitives)

def validateRevocation (doc : Revocation) : Except DocumentError Unit :=
  if doc.v ≠ version ∨ ¬ P.uuidValid doc.revocationID ∨ ¬ P.uuidValid doc.spaceID ∨
      (validateDigest doc.spaceGenesisHash "revocation genesis hash").toBool = false ∨
      ¬ doc.kind.valid ∨ (validateDigest doc.actorPeerID "revocation actor").toBool = false ∨
      doc.actorMembership = "" ∨ doc.createdAt ≤ 0 then
    .error (sentinel .invalidDocument)
  else
    match doc.kind with
    | .member =>
      if (validateDigest doc.targetID "revoked member").toBool = false then
        .error (sentinel .invalidDocument)
      else .ok ()
    | .grant => if ¬ P.uuidValid doc.targetID then .error (sentinel .invalidDocument) else .ok ()
    | .invitationBatch =>
      if ¬ P.uuidValid doc.targetID then .error (sentinel .invalidDocument) else .ok ()
    | .other _ => .error (sentinel .invalidDocument)

/-- The actor's membership as of the time the denial was signed. -/
def revocationActor (doc : Revocation) (genesis : VerifiedGenesis) :
    Except DocumentError VerifiedGrant :=
  match verifyGrant P doc.actorMembership genesis (doc.createdAt * second) with
  | .error _ => .error (sentinel .revocationDenied)
  | .ok actor =>
    if actor.document.subjectPeerID ≠ doc.actorPeerID ∨ actor.document.issuedAt > doc.createdAt ∨
        ¬ canRevoke doc.kind actor then
      .error (sentinel .revocationDenied)
    else .ok actor

def anchorGenesis (genesis : VerifiedGenesis) (failure : DocumentError) :
    Except DocumentError VerifiedGenesis :=
  match verifyGenesis P genesis.token with
  | .error _ => .error failure
  | .ok verified => .ok verified

def verifyRevocation (token : String) (genesis : VerifiedGenesis) :
    Except DocumentError VerifiedRevocation := do
  let verifiedGenesis ← anchorGenesis P genesis (invalid "revocation genesis")
  let signed ← parseDocument revocationTag P.readRevocation token
  let doc := signed.document
  if (validateRevocation P doc).toBool = false ∨ doc.spaceID ≠ verifiedGenesis.document.spaceID ∨
      doc.spaceGenesisHash ≠ verifiedGenesis.hash then
    .error (sentinel .invalidDocument)
  else do
    let actor ← revocationActor P doc verifiedGenesis
    match P.verify actor.publicKey signed.raw signed.signature with
    | .error _ => .error (invalid "revocation signature")
    | .ok () => .ok ⟨token, doc, actor.publicKey, tokenHash P token⟩

/-- A grow-only set of verified denials. -/
structure RevocationSet where
  genesis : VerifiedGenesis
  byHash : ExtTreeMap String VerifiedRevocation
  byID : ExtTreeMap String String
  members : ExtTreeMap String ℤ
  grants : ExtTreeMap String ℤ
  batches : ExtTreeMap String ℤ

/-- What `Apply` reports. -/
structure RevocationApplyResult where
  stored : Bool := false
  duplicate : Bool := false
deriving DecidableEq, Repr

def newRevocationSet (genesis : VerifiedGenesis) : Except DocumentError RevocationSet := do
  let verifiedGenesis ← anchorGenesis P genesis (sentinel .invalidDocument)
  return ⟨verifiedGenesis, ∅, ∅, ∅, ∅, ∅⟩

def revokedBatchKey (issuerPeerID batchID : String) : String := issuerPeerID ++ ":" ++ batchID

namespace RevocationSet

/-- `materializeLocked`: the map of the denied kind takes the earlier time. -/
def materialize (set : RevocationSet) (doc : Revocation) : RevocationSet :=
  match doc.kind with
  | .member => { set with members := record set.members doc.targetID doc.createdAt }
  | .grant => { set with grants := record set.grants doc.targetID doc.createdAt }
  | .invitationBatch =>
    { set with
      batches := record set.batches (revokedBatchKey doc.actorPeerID doc.targetID) doc.createdAt }
  | .other _ => set

/-- Verify and materialize one denial. -/
def apply (set : RevocationSet) (token : String) :
    Except DocumentError RevocationApplyResult × RevocationSet :=
  match verifyRevocation P token set.genesis with
  | .error error => (.error error, set)
  | .ok verified =>
    match set.byID[verified.document.revocationID]? with
    | some existingHash =>
      if existingHash ≠ verified.hash then (.error (sentinel .revocationFork), set)
      else (.ok { duplicate := true }, set)
    | none =>
      if set.byHash.size ≥ maxRevocationCandidates then
        (.error (sentinel .revocationLimit), set)
      else
        (.ok { stored := true },
          { set with
            byHash := set.byHash.insert verified.hash verified
            byID := set.byID.insert verified.document.revocationID verified.hash
            }.materialize verified.document)

/-- One call of `Apply` after another, errors reported and skipped. -/
def applyAll (set : RevocationSet) (tokens : List String) : RevocationSet :=
  tokens.foldl (fun applied token => (apply P applied token).2) set

/-- Creation time first, hash second. -/
def createdBefore (left right : VerifiedRevocation) : Bool :=
  if left.document.createdAt ≠ right.document.createdAt then
    left.document.createdAt < right.document.createdAt
  else left.hash ≤ right.hash

/-- The retained tokens in stable order. -/
def tokens (set : RevocationSet) : List String :=
  ((mapValues set.byHash).mergeSort createdBefore).map VerifiedRevocation.token

def memberRevoked (set : RevocationSet) (peerID : String) : Option ℤ := set.members[peerID]?
def grantRevoked (set : RevocationSet) (serial : String) : Option ℤ := set.grants[serial]?

def invitationBatchRevoked (set : RevocationSet) (issuerPeerID batchID : String) : Option ℤ :=
  set.batches[revokedBatchKey issuerPeerID batchID]?

end RevocationSet

end Verification

/-! ### What a list of denials leaves -/

variable {P : Primitives} {genesis : VerifiedGenesis}

/-- The entry a denial adds to the map of its kind. -/
def memberEntry (doc : Revocation) : Option (String × ℤ) :=
  if doc.kind = .member then some (doc.targetID, doc.createdAt) else none

def grantEntry (doc : Revocation) : Option (String × ℤ) :=
  if doc.kind = .grant then some (doc.targetID, doc.createdAt) else none

def batchEntry (doc : Revocation) : Option (String × ℤ) :=
  if doc.kind = .invitationBatch then
    some (revokedBatchKey doc.actorPeerID doc.targetID, doc.createdAt)
  else none

def documents (stored : List VerifiedRevocation) : List Revocation :=
  stored.map VerifiedRevocation.document

/-- The set that holds exactly the listed denials. -/
def collected (genesis : VerifiedGenesis) (stored : List VerifiedRevocation) : RevocationSet where
  genesis := genesis
  byHash := insertAll ∅ (stored.map fun verified => (verified.hash, verified))
  byID := insertAll ∅ (stored.map fun verified => (verified.document.revocationID, verified.hash))
  members := recordAll ∅ ((documents stored).filterMap memberEntry)
  grants := recordAll ∅ ((documents stored).filterMap grantEntry)
  batches := recordAll ∅ ((documents stored).filterMap batchEntry)

theorem collected_concat (stored : List VerifiedRevocation) (verified : VerifiedRevocation) :
    collected genesis (stored ++ [verified]) =
      { collected genesis stored with
        byHash := (collected genesis stored).byHash.insert verified.hash verified
        byID := (collected genesis stored).byID.insert verified.document.revocationID verified.hash
        }.materialize verified.document := by
  unfold collected RevocationSet.materialize documents
  simp only [List.map_append, List.map_cons, List.map_nil, List.filterMap_append, insertAll_append,
    recordAll_append]
  cases kind : verified.document.kind <;>
    simp [memberEntry, grantEntry, batchEntry, kind, insertAll, recordAll]

theorem collected_byID_of_mem {stored : List VerifiedRevocation} {verified : VerifiedRevocation}
    (ids : (stored.map fun verified => verified.document.revocationID).Nodup)
    (member : verified ∈ stored) :
    (collected genesis stored).byID[verified.document.revocationID]? = some verified.hash := by
  refine getElem?_insertAll_of_mem ∅ ?_ (List.mem_map.mpr ⟨verified, member, rfl⟩)
  rw [List.map_map]
  exact ids

theorem collected_byID_of_fresh {stored : List VerifiedRevocation} {id : String}
    (fresh : ∀ verified ∈ stored, verified.document.revocationID ≠ id) :
    (collected genesis stored).byID[id]? = none := by
  have absent : id ∉ (stored.map fun verified =>
      (verified.document.revocationID, verified.hash)).map Prod.fst := by
    rw [List.map_map]
    intro member
    obtain ⟨verified, inside, same⟩ := List.mem_map.mp member
    exact fresh verified inside same
  show (insertAll ∅ _)[id]? = none
  rw [getElem?_insertAll_of_notMem ∅ absent]
  exact ExtTreeMap.getElem?_empty

/-- **One denial** is added to what was collected, or was there already. -/
theorem RevocationSet.apply_collected {stored : List VerifiedRevocation} {token : String}
    {verified : VerifiedRevocation} (accepted : verifyRevocation P token genesis = .ok verified)
    (ids : (stored.map fun verified => verified.document.revocationID).Nodup)
    (few : verified ∉ stored → stored.length < maxRevocationCandidates)
    (own : ∀ other ∈ stored, other.document.revocationID = verified.document.revocationID →
      other = verified) :
    RevocationSet.apply P (collected genesis stored) token =
      if verified ∈ stored then (.ok { duplicate := true }, collected genesis stored)
      else (.ok { stored := true }, collected genesis (stored ++ [verified])) := by
  unfold RevocationSet.apply
  have anchored : (collected genesis stored).genesis = genesis := rfl
  rw [anchored, accepted]
  by_cases known : verified ∈ stored
  · simp only [collected_byID_of_mem ids known, if_pos known, ne_eq, not_true_eq_false, if_false]
  · have fresh : ∀ other ∈ stored,
        other.document.revocationID ≠ verified.document.revocationID :=
      fun other member same => known (own other member same ▸ member)
    have room : ¬ (collected genesis stored).byHash.size ≥ maxRevocationCandidates := by
      have size := size_insertAll_le (∅ : ExtTreeMap String VerifiedRevocation)
        (stored.map fun verified => (verified.hash, verified))
      rw [ExtTreeMap.size_empty, Nat.zero_add, List.length_map] at size
      have bound := few known
      show ¬ (insertAll ∅ (stored.map fun verified => (verified.hash, verified))).size ≥ _
      omega
    simp only [collected_byID_of_fresh fresh, if_neg room, if_neg known]
    rw [collected_concat]
    rfl

/-! ### Runs -/

/-- Verified denials of one space with ids of their own, few enough to be retained. -/
structure DenialTokens (P : Primitives) (genesis : VerifiedGenesis) (tokens : List String) : Prop where
  verified : ∀ token ∈ tokens, ∃ verified, verifyRevocation P token genesis = .ok verified
  ids : ∀ first ∈ tokens, ∀ second ∈ tokens, ∀ left right,
    verifyRevocation P first genesis = .ok left → verifyRevocation P second genesis = .ok right →
    left.document.revocationID = right.document.revocationID → first = second
  few : tokens.toFinset.card ≤ maxRevocationCandidates

def Carried (P : Primitives) (genesis : VerifiedGenesis) (tokens : List String) :
    Set VerifiedRevocation :=
  {verified | ∃ token ∈ tokens, verifyRevocation P token genesis = .ok verified}

theorem verifyRevocation_token {token : String} {verified : VerifiedRevocation}
    (accepted : verifyRevocation P token genesis = .ok verified) :
    verified.token = token ∧ verified.hash = tokenHash P token := by
  unfold verifyRevocation at accepted
  obtain ⟨_, _, rest⟩ := bind_ok accepted
  obtain ⟨signed, _, rest⟩ := bind_ok rest
  obtain ⟨_, rest⟩ := guard_ok rest
  obtain ⟨actor, _, rest⟩ := bind_ok rest
  cases checked : P.verify actor.publicKey signed.raw signed.signature with
  | error reason =>
    rw [checked] at rest
    cases rest
  | ok done =>
    rw [checked, Except.ok.injEq] at rest
    rw [← rest]
    exact ⟨rfl, rfl⟩

theorem verifyRevocation_createdAt {token : String} {verified : VerifiedRevocation}
    (accepted : verifyRevocation P token genesis = .ok verified) : 0 < verified.document.createdAt := by
  unfold verifyRevocation at accepted
  obtain ⟨_, _, rest⟩ := bind_ok accepted
  obtain ⟨signed, _, rest⟩ := bind_ok rest
  obtain ⟨fields, rest⟩ := guard_ok rest
  obtain ⟨actor, _, rest⟩ := bind_ok rest
  have valid : validateRevocation P signed.document = .ok () := by
    rw [not_or] at fields
    cases checked : validateRevocation P signed.document with
    | error error =>
      rw [checked] at fields
      exact absurd rfl fields.1
    | ok done => rfl
  have positive : 0 < signed.document.createdAt := by
    unfold validateRevocation at valid
    have passed := (guard_ok valid).1
    simp only [not_or, not_le] at passed
    exact passed.2.2.2.2.2.2.2
  cases checked : P.verify actor.publicKey signed.raw signed.signature with
  | error reason =>
    rw [checked] at rest
    cases rest
  | ok done =>
    rw [checked, Except.ok.injEq] at rest
    rw [← rest]
    exact positive

/-- A list of stored denials that stands for the tokens applied so far. -/
structure StandsFor (P : Primitives) (genesis : VerifiedGenesis) (applied : List String)
    (stored : List VerifiedRevocation) : Prop where
  mem_iff : ∀ verified, verified ∈ stored ↔ verified ∈ Carried P genesis applied
  tokens : (stored.map VerifiedRevocation.token).Nodup

theorem StandsFor.ids {tokens applied : List String} {stored : List VerifiedRevocation}
    (denials : DenialTokens P genesis tokens) (inside : applied ⊆ tokens)
    (stands : StandsFor P genesis applied stored) :
    (stored.map fun verified => verified.document.revocationID).Nodup := by
  refine List.Nodup.map_on ?_ stands.tokens.of_map
  intro left leftMember right rightMember same
  obtain ⟨first, firstMember, leftAccepted⟩ := (stands.mem_iff left).mp leftMember
  obtain ⟨second, secondMember, rightAccepted⟩ := (stands.mem_iff right).mp rightMember
  have one := denials.ids first (inside firstMember) second (inside secondMember) left right
    leftAccepted rightAccepted same
  rw [one, rightAccepted, Except.ok.injEq] at leftAccepted
  exact leftAccepted.symm

theorem StandsFor.length_lt {tokens applied : List String} {stored : List VerifiedRevocation}
    {verified : VerifiedRevocation} (denials : DenialTokens P genesis tokens)
    (inside : applied ⊆ tokens) (stands : StandsFor P genesis applied stored)
    (carried : verified ∈ Carried P genesis tokens) (fresh : verified ∉ stored) :
    stored.length < maxRevocationCandidates := by
  have token : ∀ other ∈ Carried P genesis tokens, other.token ∈ tokens := by
    rintro other ⟨token, member, accepted⟩
    rw [(verifyRevocation_token accepted).1]
    exact member
  have distinct : ((verified :: stored).map VerifiedRevocation.token).Nodup := by
    rw [List.map_cons, List.nodup_cons]
    refine ⟨?_, stands.tokens⟩
    intro member
    obtain ⟨other, known, same⟩ := List.mem_map.mp member
    obtain ⟨_, _, accepted⟩ := carried
    obtain ⟨_, _, again⟩ := (stands.mem_iff other).mp known
    rw [(verifyRevocation_token accepted).1, (verifyRevocation_token again).1] at same
    rw [same, accepted, Except.ok.injEq] at again
    exact fresh (again ▸ known)
  have subset : ((verified :: stored).map VerifiedRevocation.token).toFinset ⊆ tokens.toFinset := by
    intro found member
    rw [List.mem_toFinset, List.map_cons, List.mem_cons] at member
    rw [List.mem_toFinset]
    rcases member with rfl | older
    · exact token verified carried
    · obtain ⟨other, known, rfl⟩ := List.mem_map.mp older
      obtain ⟨source, member, accepted⟩ := (stands.mem_iff other).mp known
      exact token other ⟨source, inside member, accepted⟩
  have count := Finset.card_le_card subset
  rw [List.toFinset_card_of_nodup distinct, List.length_map, List.length_cons] at count
  have bound := denials.few
  omega

theorem apply_step {tokens applied : List String} {stored : List VerifiedRevocation} {token : String}
    (denials : DenialTokens P genesis tokens) (inside : applied ⊆ tokens) (member : token ∈ tokens)
    (stands : StandsFor P genesis applied stored) :
    ∃ result after, RevocationSet.apply P (collected genesis stored) token =
        (.ok result, collected genesis after) ∧ StandsFor P genesis (applied ++ [token]) after := by
  obtain ⟨verified, accepted⟩ := denials.verified token member
  have own : ∀ other ∈ stored, other.document.revocationID = verified.document.revocationID →
      other = verified := by
    intro other known same
    obtain ⟨source, earlier, again⟩ := (stands.mem_iff other).mp known
    have one := denials.ids source (inside earlier) token member other verified again accepted same
    rw [one, accepted, Except.ok.injEq] at again
    exact again.symm
  have step := RevocationSet.apply_collected accepted (stands.ids denials inside)
    (fun fresh => stands.length_lt denials inside ⟨token, member, accepted⟩ fresh) own
  have carried : ∀ other, other ∈ Carried P genesis (applied ++ [token]) ↔
      other ∈ Carried P genesis applied ∨ other = verified := by
    intro other
    constructor
    · rintro ⟨source, listed, again⟩
      rcases List.mem_append.mp listed with old | new
      · exact Or.inl ⟨source, old, again⟩
      · rw [List.mem_singleton.mp new, accepted, Except.ok.injEq] at again
        exact Or.inr again.symm
    · rintro (⟨source, old, again⟩ | rfl)
      · exact ⟨source, List.mem_append_left _ old, again⟩
      · exact ⟨token, List.mem_append_right _ (List.mem_singleton_self _), accepted⟩
  by_cases known : verified ∈ stored
  · rw [if_pos known] at step
    refine ⟨_, stored, step, ?_, stands.tokens⟩
    intro other
    rw [carried, stands.mem_iff]
    constructor
    · exact Or.inl
    · rintro (old | rfl)
      · exact old
      · exact (stands.mem_iff _).mp known
  · rw [if_neg known] at step
    refine ⟨_, stored ++ [verified], step, ?_, ?_⟩
    · intro other
      rw [List.mem_append, List.mem_singleton, stands.mem_iff, carried]
    · rw [List.map_append, List.map_singleton, List.nodup_append]
      refine ⟨stands.tokens, List.nodup_singleton _, ?_⟩
      intro old listed new same
      rw [List.mem_singleton.mp same]
      rintro rfl
      obtain ⟨other, inStored, tokenSame⟩ := List.mem_map.mp listed
      obtain ⟨source, earlier, again⟩ := (stands.mem_iff other).mp inStored
      rw [(verifyRevocation_token again).1, (verifyRevocation_token accepted).1] at tokenSame
      rw [tokenSame, accepted, Except.ok.injEq] at again
      exact known (again ▸ inStored)

/-- **A run** collects exactly the denials of its tokens. -/
theorem applyAll_collected {tokens order : List String} (denials : DenialTokens P genesis tokens)
    (inside : order ⊆ tokens) :
    ∃ stored, RevocationSet.applyAll P (collected genesis []) order = collected genesis stored ∧
      StandsFor P genesis order stored := by
  induction order using List.reverseRecOn with
  | nil =>
    refine ⟨[], rfl, fun verified => ?_, List.nodup_nil⟩
    constructor
    · intro member
      cases member
    · rintro ⟨token, listed, _⟩
      cases listed
  | append_singleton before token ih =>
    rw [List.append_subset] at inside
    obtain ⟨stored, collectedSoFar, stands⟩ := ih inside.1
    obtain ⟨result, after, step, next⟩ := apply_step denials inside.1
      (inside.2 (List.mem_singleton_self token)) stands
    refine ⟨after, ?_, next⟩
    unfold RevocationSet.applyAll at collectedSoFar ⊢
    rw [List.foldl_append, collectedSoFar]
    show (RevocationSet.apply P (collected genesis stored) token).2 = _
    rw [step]

end Atterm.Peer
