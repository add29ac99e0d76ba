/-
**Denials do not depend on the order they arrive in.**

A `RevocationSet` files each denial under the identity it denies and keeps the earliest time; the
peer store files the retained denials once more, in its own maps and in the invitations of the local
device. Both are folds of `keepEarlier`, so they depend on which denials arrived and on nothing else.

* `fileAll_eq` — the store after a list of denials, field by field;
* `fileAll_congr` — two lists with the same denials leave the same store;
* `revocations_order_independent` — order, repetition, earliest times and monotonicity.
-/

import Atterm.Peer.Store
import Atterm.Peer.Attenuation

namespace Atterm.Peer

open Atterm.Foundation
open Std (ExtTreeMap)

/-! ### The store after a list of denials -/

def StoreState.fileAll (state : StoreState) (docs : List Revocation) : StoreState :=
  docs.foldl StoreState.deny state

def Invitation.revokedTime (invite : Invitation) : Option ℤ :=
  if invite.revokedAt = 0 then none else some invite.revokedAt

/-- The times at which some denials reach the invitations of a batch the local device issued. -/
def batchTimes (owner batchID : String) (docs : List Revocation) : List ℤ :=
  (docs.filter fun doc => doc.kind = .invitationBatch ∧ doc.actorMembership = owner ∧
    doc.targetID = batchID).map Revocation.createdAt

def Invitation.deniedAll (times : List ℤ) (invite : Invitation) : Invitation :=
  times.foldl (fun invite time => invite.denied invite.batchID time) invite

theorem Invitation.denied_batchID (batchID : String) (time : ℤ) (invite : Invitation) :
    (invite.denied batchID time).batchID = invite.batchID := by
  unfold Invitation.denied
  split_ifs <;> rfl

theorem Invitation.denied_of_ne {batchID : String} {invite : Invitation} (time : ℤ)
    (other : invite.batchID ≠ batchID) : invite.denied batchID time = invite := by
  unfold Invitation.denied
  rw [if_neg fun all => other all.1]

theorem StoreState.deny_eq (state : StoreState) (doc : Revocation) :
    state.deny doc =
      { state with
        revokedMembers := recordAll state.revokedMembers (memberEntry doc).toList
        revokedGrantSerials := recordAll state.revokedGrantSerials (grantEntry doc).toList
        invitations := state.invitations.map fun invite =>
          invite.deniedAll (batchTimes state.localMembership invite.batchID [doc]) } := by
  have none : ∀ invitations : List Invitation, doc.kind ≠ .invitationBatch →
      (invitations.map fun invite => invite.deniedAll
        (batchTimes state.localMembership invite.batchID [doc])) = invitations := by
    intro invitations other
    simp [batchTimes, other, Invitation.deniedAll]
  unfold StoreState.deny memberEntry grantEntry
  cases kind : doc.kind with
  | member =>
    rw [none _ (by rw [kind]; decide)]
    rfl
  | grant =>
    rw [none _ (by rw [kind]; decide)]
    rfl
  | other text =>
    rw [none _ (by rw [kind]; simp)]
    simp [recordAll]
  | invitationBatch =>
    by_cases own : doc.actorMembership = state.localMembership
    · have each : ∀ invite : Invitation, invite.deniedAll
          (batchTimes state.localMembership invite.batchID [doc])
          = invite.denied doc.targetID doc.createdAt := by
        intro invite
        by_cases same : invite.batchID = doc.targetID
        · simp [batchTimes, kind, own, same, Invitation.deniedAll]
        · rw [Invitation.denied_of_ne _ same]
          simp [batchTimes, Ne.symm same, Invitation.deniedAll]
      simp [own, each, recordAll]
    · simp [own, batchTimes, Invitation.deniedAll, recordAll]

theorem Invitation.deniedAll_batchID (times : List ℤ) (invite : Invitation) :
    (invite.deniedAll times).batchID = invite.batchID := by
  induction times generalizing invite with
  | nil => rfl
  | cons time rest ih =>
    show ((invite.denied invite.batchID time).deniedAll rest).batchID = _
    rw [ih, Invitation.denied_batchID]

/-- **A list of denials, field by field.** -/
theorem StoreState.fileAll_eq (state : StoreState) (docs : List Revocation) :
    state.fileAll docs =
      { state with
        revokedMembers := recordAll state.revokedMembers (docs.filterMap memberEntry)
        revokedGrantSerials := recordAll state.revokedGrantSerials (docs.filterMap grantEntry)
        invitations := state.invitations.map fun invite =>
          invite.deniedAll (batchTimes state.localMembership invite.batchID docs) } := by
  induction docs using List.reverseRecOn with
  | nil => simp [StoreState.fileAll, recordAll, batchTimes, Invitation.deniedAll]
  | append_singleton before doc ih =>
    have step : state.fileAll (before ++ [doc]) = (state.fileAll before).deny doc :=
      List.foldl_append
    rw [step, ih, StoreState.deny_eq]
    have times : ∀ invite : Invitation,
        (invite.deniedAll (batchTimes state.localMembership invite.batchID before)).deniedAll
          (batchTimes state.localMembership invite.batchID [doc])
        = invite.deniedAll (batchTimes state.localMembership invite.batchID (before ++ [doc])) := by
      intro invite
      unfold batchTimes
      rw [List.filter_append, List.map_append]
      exact List.foldl_append.symm
    simp only [List.filterMap_append, recordAll_append, List.map_map, Function.comp_def,
      Invitation.deniedAll_batchID, times, List.filterMap_cons, List.filterMap_nil]
    cases memberEntry doc <;> cases grantEntry doc <;> rfl

theorem Invitation.denied_of_consumed {invite : Invitation} (consumed : invite.consumedAt ≠ 0)
    (batchID : String) (time : ℤ) : invite.denied batchID time = invite := by
  unfold Invitation.denied
  rw [if_neg fun all => consumed all.2.1]

theorem Invitation.denied_shape (invite : Invitation) (batchID : String) (time : ℤ) :
    ∃ revokedAt, invite.denied batchID time = { invite with revokedAt } := by
  unfold Invitation.denied
  split_ifs
  · exact ⟨time, rfl⟩
  · exact ⟨invite.revokedAt, rfl⟩

theorem Invitation.deniedAll_shape (invite : Invitation) (times : List ℤ) :
    ∃ revokedAt, invite.deniedAll times = { invite with revokedAt } := by
  induction times generalizing invite with
  | nil => exact ⟨invite.revokedAt, rfl⟩
  | cons time rest ih =>
    obtain ⟨first, shape⟩ := invite.denied_shape invite.batchID time
    obtain ⟨last, tail⟩ := ih { invite with revokedAt := first }
    refine ⟨last, ?_⟩
    show (invite.denied invite.batchID time).deniedAll rest = _
    rw [shape, tail]

theorem Invitation.denied_open {invite : Invitation} {time : ℤ} (unused : invite.consumedAt = 0)
    (some : time ≠ 0) :
    (invite.denied invite.batchID time).revokedTime = keepEarlier invite.revokedTime time := by
  unfold Invitation.denied Invitation.revokedTime
  by_cases before : invite.revokedAt = 0
  · simp [unused, before, some, keepEarlier]
  · by_cases earlier : time < invite.revokedAt
    · simp [unused, before, some, earlier, keepEarlier]
    · simp [before, earlier, keepEarlier]

theorem Invitation.deniedAll_open {invite : Invitation} {times : List ℤ}
    (unused : invite.consumedAt = 0) (some : ∀ time ∈ times, time ≠ 0) :
    (invite.deniedAll times).revokedTime = times.foldl keepEarlier invite.revokedTime := by
  induction times generalizing invite with
  | nil => rfl
  | cons time rest ih =>
    have still : (invite.denied invite.batchID time).consumedAt = 0 := by
      obtain ⟨revokedAt, shape⟩ := invite.denied_shape invite.batchID time
      rw [shape]
      exact unused
    have later := ih still fun other member => some other (List.mem_cons_of_mem _ member)
    rw [List.foldl_cons, ← Invitation.denied_open unused (some time List.mem_cons_self), ← later]
    rfl

theorem Invitation.deniedAll_of_consumed {invite : Invitation} (consumed : invite.consumedAt ≠ 0)
    (times : List ℤ) : invite.deniedAll times = invite := by
  induction times with
  | nil => rfl
  | cons time rest ih =>
    show (invite.denied invite.batchID time).deniedAll rest = invite
    rw [Invitation.denied_of_consumed consumed, ih]

theorem Invitation.revokedAt_of_revokedTime {left right : Invitation}
    (same : left.revokedTime = right.revokedTime) : left.revokedAt = right.revokedAt := by
  unfold Invitation.revokedTime at same
  split_ifs at same with none none' none'
  · rw [none, none']
  · exact Option.some.inj same

theorem Invitation.deniedAll_congr (invite : Invitation) {first second : List ℤ}
    (some : ∀ time ∈ first, time ≠ 0) (same : ∀ time, time ∈ first ↔ time ∈ second) :
    invite.deniedAll first = invite.deniedAll second := by
  by_cases unused : invite.consumedAt = 0
  · have times : (invite.deniedAll first).revokedTime = (invite.deniedAll second).revokedTime := by
      rw [Invitation.deniedAll_open unused some, Invitation.deniedAll_open unused
        fun time member => some time ((same time).mpr member)]
      exact foldl_keepEarlier_congr _ same
    have revoked := Invitation.revokedAt_of_revokedTime times
    obtain ⟨left, leftShape⟩ := invite.deniedAll_shape first
    obtain ⟨right, rightShape⟩ := invite.deniedAll_shape second
    rw [leftShape, rightShape] at revoked
    have equal : left = right := revoked
    rw [leftShape, rightShape, equal]
  · rw [Invitation.deniedAll_of_consumed unused, Invitation.deniedAll_of_consumed unused]

theorem mem_batchTimes (owner batchID : String) (docs : List Revocation) (time : ℤ) :
    time ∈ batchTimes owner batchID docs ↔ ∃ doc ∈ docs, doc.kind = .invitationBatch ∧
      doc.actorMembership = owner ∧ doc.targetID = batchID ∧ doc.createdAt = time := by
  unfold batchTimes
  rw [List.mem_map]
  constructor
  · rintro ⟨doc, member, rfl⟩
    rw [List.mem_filter, decide_eq_true_eq] at member
    exact ⟨doc, member.1, member.2.1, member.2.2.1, member.2.2.2, rfl⟩
  · rintro ⟨doc, member, kind, actor, target, rfl⟩
    exact ⟨doc, List.mem_filter.mpr ⟨member, decide_eq_true ⟨kind, actor, target⟩⟩, rfl⟩

/-- **Which denials, not in which order.** -/
theorem StoreState.fileAll_congr (state : StoreState) {first second : List Revocation}
    (signed : ∀ doc ∈ first, doc.createdAt ≠ 0) (same : ∀ doc, doc ∈ first ↔ doc ∈ second) :
    state.fileAll first = state.fileAll second := by
  have entries : ∀ entry : Revocation → Option (String × ℤ), ∀ found,
      found ∈ first.filterMap entry ↔ found ∈ second.filterMap entry := by
    intro entry found
    simp only [List.mem_filterMap, same]
  have invitations : ∀ invite : Invitation,
      invite.deniedAll (batchTimes state.localMembership invite.batchID first) =
        invite.deniedAll (batchTimes state.localMembership invite.batchID second) := by
    intro invite
    refine invite.deniedAll_congr ?_ fun time => ?_
    · intro time member
      obtain ⟨doc, listed, _, _, _, rfl⟩ := (mem_batchTimes _ _ _ _).mp member
      exact signed doc listed
    · simp only [mem_batchTimes, same]
  rw [StoreState.fileAll_eq, StoreState.fileAll_eq, recordAll_congr _ (entries memberEntry),
    recordAll_congr _ (entries grantEntry)]
  simp only [invitations]

theorem StoreState.fileAll_again (state : StoreState) {first second : List Revocation}
    (signed : ∀ doc ∈ second, doc.createdAt ≠ 0) (more : first ⊆ second) :
    (state.fileAll first).fileAll second = state.fileAll second := by
  have appended : (state.fileAll first).fileAll second = state.fileAll (first ++ second) :=
    List.foldl_append.symm
  rw [appended]
  refine state.fileAll_congr ?_ fun doc => ?_
  · intro doc member
    rcases List.mem_append.mp member with old | new
    · exact signed doc (more old)
    · exact signed doc new
  · rw [List.mem_append]
    constructor
    · rintro (old | new)
      · exact more old
      · exact new
    · exact Or.inr

/-! ### Filing what a set retains -/

variable {P : Primitives} {genesis : VerifiedGenesis}

theorem materialize_fold (state : StoreState) {verified : List VerifiedRevocation}
    (accepted : ∀ found ∈ verified, verifyRevocation P found.token genesis = .ok found) :
    (verified.map VerifiedRevocation.token).foldlM (fun filed token => do
        let revocation ← wrap .materializeRevocation (verifyRevocation P token genesis)
        return filed.deny revocation.document) state
      = Except.ok (state.fileAll (documents verified)) := by
  induction verified generalizing state with
  | nil => rfl
  | cons first rest ih =>
    have step := accepted first List.mem_cons_self
    rw [List.map_cons, List.foldlM_cons, step]
    exact ih _ fun found member => accepted found (List.mem_cons_of_mem _ member)

theorem materialize_fold_ok {tokens : List String} {state filed : StoreState}
    (done : tokens.foldlM (fun filed token => do
        let revocation ← wrap .materializeRevocation (verifyRevocation P token genesis)
        return filed.deny revocation.document) state = Except.ok filed) :
    ∃ docs : List Revocation, filed = state.fileAll docs ∧ ∀ doc ∈ docs, 0 < doc.createdAt := by
  induction tokens generalizing state with
  | nil =>
    cases done
    exact ⟨[], rfl, by simp⟩
  | cons token rest ih =>
    rw [List.foldlM_cons] at done
    obtain ⟨middle, first, later⟩ := bind_ok done
    obtain ⟨revocation, checked, same⟩ := bind_ok first
    cases same
    cases verified : verifyRevocation P token genesis with
    | error error =>
      rw [verified] at checked
      cases checked
    | ok found =>
      rw [verified] at checked
      cases checked
      obtain ⟨docs, whole, positive⟩ := ih later
      refine ⟨revocation.document :: docs, whole, ?_⟩
      intro doc member
      rcases List.mem_cons.mp member with rfl | older
      · exact verifyRevocation_createdAt verified
      · exact positive doc older

theorem mem_mapValues_byHash {stored : List VerifiedRevocation}
    (hashes : (stored.map VerifiedRevocation.hash).Nodup) (found : VerifiedRevocation) :
    found ∈ mapValues (collected genesis stored).byHash ↔ found ∈ stored := by
  rw [mem_mapValues_iff]
  constructor
  · rintro ⟨key, held⟩
    rcases mem_of_getElem?_insertAll ∅ held with listed | empty
    · obtain ⟨other, member, same⟩ := List.mem_map.mp listed
      rw [Prod.mk.injEq] at same
      exact same.2 ▸ member
    · rw [ExtTreeMap.getElem?_empty] at empty
      cases empty
  · intro member
    refine ⟨found.hash, getElem?_insertAll_of_mem ∅ ?_ (List.mem_map.mpr ⟨found, member, rfl⟩)⟩
    rw [List.map_map]
    exact hashes

/-- **The store files exactly the denials of the tokens applied.** -/
theorem materializeRevocations_collected {applied : List String} {stored : List VerifiedRevocation}
    (stands : StandsFor P genesis applied stored)
    (hashes : (stored.map VerifiedRevocation.hash).Nodup) (state : StoreState) :
    materializeRevocations P state genesis (collected genesis stored)
      = .ok (state.fileAll (documents stored)) := by
  have member : ∀ found, found ∈ (mapValues (collected genesis stored).byHash).mergeSort
      RevocationSet.createdBefore ↔ found ∈ stored := by
    intro found
    rw [List.mem_mergeSort, mem_mapValues_byHash hashes]
  have accepted : ∀ found ∈ stored, verifyRevocation P found.token genesis = .ok found := by
    intro found listed
    obtain ⟨token, _, verified⟩ := (stands.mem_iff found).mp listed
    rw [(verifyRevocation_token verified).1]
    exact verified
  have filed := materialize_fold state fun found listed => accepted found ((member found).mp listed)
  refine filed.trans (congrArg Except.ok (state.fileAll_congr ?_ fun doc => ?_))
  · intro doc listed
    obtain ⟨found, inside, rfl⟩ := List.mem_map.mp listed
    exact (verifyRevocation_createdAt (accepted found ((member found).mp inside))).ne'
  · simp only [documents, List.mem_map, member]

theorem StandsFor.mem_congr {first second : List String} {left right : List VerifiedRevocation}
    (leftStands : StandsFor P genesis first left) (rightStands : StandsFor P genesis second right)
    (same : ∀ token, token ∈ first ↔ token ∈ second) (found : VerifiedRevocation) :
    found ∈ left ↔ found ∈ right := by
  rw [leftStands.mem_iff, rightStands.mem_iff]
  constructor
  · rintro ⟨token, listed, accepted⟩
    exact ⟨token, (same token).mp listed, accepted⟩
  · rintro ⟨token, listed, accepted⟩
    exact ⟨token, (same token).mpr listed, accepted⟩

/-! ### Order independence -/

def DenialTimes (P : Primitives) (genesis : VerifiedGenesis) (tokens : List String)
    (entry : Revocation → Option (String × ℤ)) (key : String) : Set ℤ :=
  {time | ∃ found ∈ Carried P genesis tokens, entry found.document = some (key, time)}

/-- A set denies what its tokens deny, each from the earliest time on. -/
structure DeniesEarliest (P : Primitives) (genesis : VerifiedGenesis) (tokens : List String)
    (set : RevocationSet) : Prop where
  members : ∀ peerID time, set.memberRevoked peerID = some time ↔
    IsLeast (DenialTimes P genesis tokens memberEntry peerID) time
  grants : ∀ serial time, set.grantRevoked serial = some time ↔
    IsLeast (DenialTimes P genesis tokens grantEntry serial) time
  batches : ∀ issuerPeerID batchID time, set.invitationBatchRevoked issuerPeerID batchID = some time ↔
    IsLeast (DenialTimes P genesis tokens batchEntry (revokedBatchKey issuerPeerID batchID)) time

/-- The times at which some tokens deny the batch of a local invitation. -/
def LocalBatchTimes (P : Primitives) (genesis : VerifiedGenesis) (tokens : List String)
    (owner batchID : String) : Set ℤ :=
  {time | ∃ found ∈ Carried P genesis tokens, found.document.kind = .invitationBatch ∧
    found.document.actorMembership = owner ∧ found.document.targetID = batchID ∧
    found.document.createdAt = time}

structure InvitationFiled (times : Set ℤ) (old new : Invitation) : Prop where
  shape : ∃ revokedAt, new = { old with revokedAt }
  consumed : old.consumedAt ≠ 0 → new = old
  unused : old.consumedAt = 0 → ∀ time, new.revokedTime = some time ↔
    IsLeast {found | old.revokedTime = some found ∨ found ∈ times} time

/-- A store denies what it denied and what the tokens deny, each from the earliest time on. -/
structure FiledEarliest (P : Primitives) (genesis : VerifiedGenesis) (tokens : List String)
    (before after : StoreState) : Prop where
  members : ∀ peerID time, after.revokedMembers[peerID]? = some time ↔
    IsLeast {found | before.revokedMembers[peerID]? = some found ∨
      found ∈ DenialTimes P genesis tokens memberEntry peerID} time
  grants : ∀ serial time, after.revokedGrantSerials[serial]? = some time ↔
    IsLeast {found | before.revokedGrantSerials[serial]? = some found ∨
      found ∈ DenialTimes P genesis tokens grantEntry serial} time
  invitations : List.Forall₂ (fun old new => InvitationFiled
    (LocalBatchTimes P genesis tokens before.localMembership old.batchID) old new)
    before.invitations after.invitations

/-- No denial of a set is lost or becomes later. -/
structure DenialsKept (before after : RevocationSet) : Prop where
  members : ∀ peerID time, before.memberRevoked peerID = some time →
    ∃ kept ≤ time, after.memberRevoked peerID = some kept
  grants : ∀ serial time, before.grantRevoked serial = some time →
    ∃ kept ≤ time, after.grantRevoked serial = some kept
  batches : ∀ issuerPeerID batchID time, before.invitationBatchRevoked issuerPeerID batchID = some time →
    ∃ kept ≤ time, after.invitationBatchRevoked issuerPeerID batchID = some kept

/-- No denial of a store is lost or becomes later. -/
structure StoreDenialsKept (before after : StoreState) : Prop where
  members : ∀ (peerID : String) time, before.revokedMembers[peerID]? = some time →
    ∃ kept ≤ time, after.revokedMembers[peerID]? = some kept
  grants : ∀ (serial : String) time, before.revokedGrantSerials[serial]? = some time →
    ∃ kept ≤ time, after.revokedGrantSerials[serial]? = some kept
  invitations : List.Forall₂ (fun old new => ∀ time, old.revokedTime = some time →
    ∃ kept ≤ time, new.revokedTime = some kept) before.invitations after.invitations

theorem isLeast_recorded {tokens : List String} {stored : List VerifiedRevocation}
    (stands : StandsFor P genesis tokens stored) (map : ExtTreeMap String ℤ)
    (entry : Revocation → Option (String × ℤ)) (key : String) (time : ℤ) :
    (recordAll map ((documents stored).filterMap entry))[key]? = some time ↔
      IsLeast {found | map[key]? = some found ∨ found ∈ DenialTimes P genesis tokens entry key}
        time := by
  have times : {found | map[key]? = some found ∨ (key, found) ∈ (documents stored).filterMap entry} =
      {found | map[key]? = some found ∨ found ∈ DenialTimes P genesis tokens entry key} := by
    ext found
    show _ ∨ _ ↔ _ ∨ ∃ verified ∈ Carried P genesis tokens, _
    simp only [documents, List.mem_filterMap, List.mem_map, exists_exists_and_eq_and,
      stands.mem_iff]
  rw [getElem?_recordAll_eq_some_iff, times]

theorem collected_deniesEarliest {tokens : List String} {stored : List VerifiedRevocation}
    (stands : StandsFor P genesis tokens stored) :
    DeniesEarliest P genesis tokens (collected genesis stored) := by
  have empty : ∀ (entry : Revocation → Option (String × ℤ)) (key : String) (time : ℤ),
      (recordAll (∅ : ExtTreeMap String ℤ) ((documents stored).filterMap entry))[key]? = some time ↔
        IsLeast (DenialTimes P genesis tokens entry key) time := by
    intro entry key time
    rw [isLeast_recorded stands]
    have times : {found | (∅ : ExtTreeMap String ℤ)[key]? = some found ∨
        found ∈ DenialTimes P genesis tokens entry key} = DenialTimes P genesis tokens entry key := by
      ext found
      show _ ∨ _ ↔ _
      rw [ExtTreeMap.getElem?_empty]
      simp
    rw [times]
  exact ⟨empty memberEntry, empty grantEntry, fun issuer batch => empty batchEntry _⟩

theorem fileAll_filedEarliest {tokens : List String} {stored : List VerifiedRevocation}
    (stands : StandsFor P genesis tokens stored) (state : StoreState) :
    FiledEarliest P genesis tokens state (state.fileAll (documents stored)) := by
  rw [StoreState.fileAll_eq]
  refine ⟨isLeast_recorded stands _ memberEntry, isLeast_recorded stands _ grantEntry, ?_⟩
  refine List.forall₂_map_right_iff.mpr (List.forall₂_same.mpr fun invite _ => ?_)
  have signed : ∀ time ∈ batchTimes state.localMembership invite.batchID (documents stored),
      time ≠ 0 := by
    intro time member
    obtain ⟨doc, listed, _, _, _, rfl⟩ := (mem_batchTimes _ _ _ _).mp member
    obtain ⟨found, inside, rfl⟩ := List.mem_map.mp listed
    obtain ⟨_, _, accepted⟩ := (stands.mem_iff found).mp inside
    exact (verifyRevocation_createdAt accepted).ne'
  have times : ∀ time, time ∈ batchTimes state.localMembership invite.batchID (documents stored) ↔
      time ∈ LocalBatchTimes P genesis tokens state.localMembership invite.batchID := by
    intro time
    rw [mem_batchTimes]
    show _ ↔ ∃ found ∈ Carried P genesis tokens, _
    simp only [documents, List.mem_map, exists_exists_and_eq_and, stands.mem_iff]
  refine ⟨invite.deniedAll_shape _, fun consumed => Invitation.deniedAll_of_consumed consumed _, ?_⟩
  intro unused time
  rw [Invitation.deniedAll_open unused signed, foldl_keepEarlier_eq_some_iff]
  simp only [times]

theorem RevocationSet.apply_kept (set : RevocationSet) (token : String) :
    DenialsKept set (set.apply P token).2 := by
  have refl : DenialsKept set set :=
    ⟨fun _ time held => ⟨time, le_rfl, held⟩, fun _ time held => ⟨time, le_rfl, held⟩,
      fun _ _ time held => ⟨time, le_rfl, held⟩⟩
  have one : ∀ (map : ExtTreeMap String ℤ) (key other : String) (at' time : ℤ),
      map[other]? = some time → ∃ kept ≤ time, (record map key at')[other]? = some kept :=
    fun map key other at' time held => recordAll_mono map [(key, at')] held
  unfold RevocationSet.apply
  cases verifyRevocation P token set.genesis with
  | error error => exact refl
  | ok verified =>
    dsimp only
    cases set.byID[verified.document.revocationID]? with
    | some existing =>
      dsimp only
      split_ifs
      · exact refl
      · exact refl
    | none =>
      dsimp only
      split_ifs
      · exact refl
      · unfold RevocationSet.materialize
        cases verified.document.kind with
        | member => exact ⟨fun _ time held => one _ _ _ _ time held, refl.grants, refl.batches⟩
        | grant => exact ⟨refl.members, fun _ time held => one _ _ _ _ time held, refl.batches⟩
        | invitationBatch =>
          exact ⟨refl.members, refl.grants, fun _ _ time held => one _ _ _ _ time held⟩
        | other text => exact ⟨refl.members, refl.grants, refl.batches⟩

theorem materializeRevocations_kept {state filed : StoreState} {set : RevocationSet}
    (done : materializeRevocations P state genesis set = .ok filed) :
    StoreDenialsKept state filed := by
  obtain ⟨docs, rfl, positive⟩ := materialize_fold_ok done
  rw [StoreState.fileAll_eq]
  refine ⟨fun _ _ held => recordAll_mono _ _ held, fun _ _ held => recordAll_mono _ _ held, ?_⟩
  refine List.forall₂_map_right_iff.mpr (List.forall₂_same.mpr fun invite _ time held => ?_)
  by_cases unused : invite.consumedAt = 0
  · rw [Invitation.deniedAll_open unused]
    · exact foldl_keepEarlier_mono _ held
    · intro found member
      obtain ⟨doc, listed, _, _, _, rfl⟩ := (mem_batchTimes _ _ _ _).mp member
      exact (positive doc listed).ne'
  · rw [Invitation.deniedAll_of_consumed unused]
    exact ⟨time, le_rfl, held⟩

theorem anchorGenesis_ok_iff {genesis verified : VerifiedGenesis} {failure : DocumentError} :
    anchorGenesis P genesis failure = .ok verified ↔ verifyGenesis P genesis.token = .ok verified := by
  unfold anchorGenesis
  cases verifyGenesis P genesis.token <;> simp

theorem revocationActor_ok {doc : Revocation} {genesis : VerifiedGenesis} {actor : VerifiedGrant}
    (member : verifyGrant P doc.actorMembership genesis (doc.createdAt * second) = .ok actor)
    (own : actor.document.subjectPeerID = doc.actorPeerID)
    (started : actor.document.issuedAt ≤ doc.createdAt) (allowed : canRevoke doc.kind actor) :
    revocationActor P doc genesis = .ok actor := by
  unfold revocationActor
  rw [member]
  refine guard_ok_iff.mpr ⟨?_, rfl⟩
  simp only [not_or, not_not, not_lt, gt_iff_lt]
  exact ⟨own, started, allowed⟩

theorem newRevocationSet_ok {genesis : VerifiedGenesis} {set : RevocationSet}
    (opened : newRevocationSet P genesis = .ok set) :
    set = collected set.genesis [] ∧
      ∀ token, verifyRevocation P token set.genesis = verifyRevocation P token genesis := by
  unfold newRevocationSet at opened
  obtain ⟨verified, anchored, same⟩ := bind_ok opened
  cases same
  refine ⟨rfl, fun token => ?_⟩
  have sameToken : verified.token = genesis.token :=
    verifyGenesis_token (anchorGenesis_ok_iff.mp anchored)
  unfold verifyRevocation anchorGenesis
  rw [sameToken]

def HashesApart (P : Primitives) (tokens : List String) : Prop :=
  ∀ first ∈ tokens, ∀ second ∈ tokens, tokenHash P first = tokenHash P second → first = second

theorem StandsFor.hashes {tokens applied : List String} {stored : List VerifiedRevocation}
    (apart : HashesApart P tokens) (inside : applied ⊆ tokens)
    (stands : StandsFor P genesis applied stored) :
    (stored.map VerifiedRevocation.hash).Nodup := by
  refine List.Nodup.map_on ?_ stands.tokens.of_map
  intro left leftMember right rightMember same
  obtain ⟨first, firstMember, leftAccepted⟩ := (stands.mem_iff left).mp leftMember
  obtain ⟨second, secondMember, rightAccepted⟩ := (stands.mem_iff right).mp rightMember
  rw [(verifyRevocation_token leftAccepted).2, (verifyRevocation_token rightAccepted).2] at same
  have one := apart first (inside firstMember) second (inside secondMember) same
  rw [one, rightAccepted, Except.ok.injEq] at leftAccepted
  exact leftAccepted.symm

/-- **Denials do not depend on the order they arrive in.** Every call succeeds, the set denies each
identity from the earliest time its tokens give, in any order and with any repetition; the store
files the same denials; and no later call takes a denial back. -/
theorem revocations_order_independent (P : Primitives) (genesis : VerifiedGenesis)
    (set : RevocationSet) (opened : newRevocationSet P genesis = .ok set) (tokens : List String)
    (denials : DenialTokens P set.genesis tokens) :
    (∀ order, (∀ token, token ∈ order ↔ token ∈ tokens) →
      (∀ before token after, order = before ++ token :: after →
        ∃ result, ((set.applyAll P before).apply P token).1 = .ok result) ∧
      DeniesEarliest P set.genesis tokens (set.applyAll P order)) ∧
    (∀ first second, (∀ token, token ∈ first ↔ token ∈ tokens) →
      (∀ token, token ∈ second ↔ token ∈ tokens) →
      (set.applyAll P first).members = (set.applyAll P second).members ∧
        (set.applyAll P first).grants = (set.applyAll P second).grants ∧
        (set.applyAll P first).batches = (set.applyAll P second).batches) ∧
    (HashesApart P tokens → ∀ order, (∀ token, token ∈ order ↔ token ∈ tokens) → ∀ state,
      ∃ filed, materializeRevocations P state genesis (set.applyAll P order) = .ok filed ∧
        FiledEarliest P set.genesis tokens state filed ∧
        (∀ other, (∀ token, token ∈ other ↔ token ∈ tokens) →
          materializeRevocations P state genesis (set.applyAll P other) = .ok filed) ∧
        ∀ before after, order = before ++ after →
          ∃ half, materializeRevocations P state genesis (set.applyAll P before) = .ok half ∧
            materializeRevocations P half genesis (set.applyAll P order) = .ok filed) ∧
    (∀ (reached : RevocationSet) token, DenialsKept reached (reached.apply P token).2) ∧
    (∀ state reached filed, materializeRevocations P state genesis reached = .ok filed →
      StoreDenialsKept state filed) := by
  obtain ⟨fresh, sameVerifier⟩ := newRevocationSet_ok opened
  have runs : ∀ order, order ⊆ tokens → ∃ stored,
      set.applyAll P order = collected set.genesis stored ∧
        StandsFor P set.genesis order stored := by
    intro order inside
    rw [fresh]
    exact applyAll_collected denials inside
  have carried : ∀ {order stored}, (∀ token, token ∈ order ↔ token ∈ tokens) →
      StandsFor P set.genesis order stored → StandsFor P set.genesis tokens stored := by
    intro order stored same stands
    refine ⟨fun found => ?_, stands.tokens⟩
    rw [stands.mem_iff]
    simp only [Carried, same]
  have filing : ∀ {applied stored}, applied ⊆ tokens → HashesApart P tokens →
      StandsFor P set.genesis applied stored → ∀ state,
      materializeRevocations P state genesis (collected set.genesis stored)
        = .ok (state.fileAll (documents stored)) := by
    intro applied stored inside apart stands state
    rw [← materializeRevocations_collected stands (stands.hashes apart inside) state]
    unfold materializeRevocations
    simp only [sameVerifier]
  have signed : ∀ {applied stored}, StandsFor P set.genesis applied stored →
      ∀ doc ∈ documents stored, doc.createdAt ≠ 0 := by
    intro applied stored stands doc member
    obtain ⟨found, listed, rfl⟩ := List.mem_map.mp member
    obtain ⟨_, _, accepted⟩ := (stands.mem_iff found).mp listed
    exact (verifyRevocation_createdAt accepted).ne'
  refine ⟨?_, ?_, ?_, fun reached token => reached.apply_kept token,
    fun _ _ _ done => materializeRevocations_kept done⟩
  · intro order same
    obtain ⟨stored, reached, stands⟩ := runs order fun token member => (same token).mp member
    refine ⟨?_, ?_⟩
    · rintro before token after rfl
      have earlier : before ⊆ tokens := fun found member =>
        (same found).mp (List.mem_append_left _ member)
      have listed : token ∈ tokens :=
        (same token).mp (List.mem_append_right _ List.mem_cons_self)
      obtain ⟨soFar, collectedSoFar, stood⟩ := runs before earlier
      obtain ⟨result, _, step, _⟩ := apply_step denials earlier listed stood
      exact ⟨result, by rw [collectedSoFar, step]⟩
    · rw [reached]
      exact collected_deniesEarliest (carried same stands)
  · intro first second same same'
    obtain ⟨left, leftReached, leftStands⟩ := runs first fun token member => (same token).mp member
    obtain ⟨right, rightReached, rightStands⟩ :=
      runs second fun token member => (same' token).mp member
    have members := leftStands.mem_congr rightStands fun token =>
      (same token).trans (same' token).symm
    have entries : ∀ entry : Revocation → Option (String × ℤ), ∀ found,
        found ∈ (documents left).filterMap entry ↔ found ∈ (documents right).filterMap entry := by
      intro entry found
      simp only [documents, List.mem_filterMap, List.mem_map, members]
    rw [leftReached, rightReached]
    exact ⟨recordAll_congr _ (entries memberEntry), recordAll_congr _ (entries grantEntry),
      recordAll_congr _ (entries batchEntry)⟩
  · intro apart order same state
    have inside : order ⊆ tokens := fun token member => (same token).mp member
    obtain ⟨stored, reached, stands⟩ := runs order inside
    refine ⟨state.fileAll (documents stored), ?_, fileAll_filedEarliest (carried same stands) state,
      ?_, ?_⟩
    · rw [reached]
      exact filing inside apart stands state
    · intro other same'
      have inside' : other ⊆ tokens := fun token member => (same' token).mp member
      obtain ⟨stored', reached', stands'⟩ := runs other inside'
      have members := stands'.mem_congr stands fun token => (same' token).trans (same token).symm
      rw [reached', filing inside' apart stands' state]
      refine congrArg Except.ok (state.fileAll_congr (signed stands') fun doc => ?_)
      simp only [documents, List.mem_map, members]
    · rintro before after rfl
      have part : before ⊆ tokens := fun token member => inside (List.mem_append_left _ member)
      obtain ⟨early, reachedEarly, standsEarly⟩ := runs before part
      refine ⟨state.fileAll (documents early), ?_, ?_⟩
      · rw [reachedEarly]
        exact filing part apart standsEarly state
      · rw [reached, filing inside apart stands]
        refine congrArg Except.ok (state.fileAll_again (signed stands) ?_)
        intro doc member
        obtain ⟨found, listed, rfl⟩ := List.mem_map.mp member
        obtain ⟨token, old, accepted⟩ := (standsEarly.mem_iff found).mp listed
        exact List.mem_map.mpr ⟨found, (stands.mem_iff found).mpr
          ⟨token, List.mem_append_left _ old, accepted⟩, rfl⟩

/-! ### Two denials of one peer -/

def sampleRevocation (revocationID : String) (target : UInt8) (createdAt : ℤ) : Revocation where
  v := 1
  revocationID := revocationID
  spaceID := sampleSpaceID
  spaceGenesisHash := sampleGenesis.hash
  kind := .member
  targetID := samplePeerID target
  actorPeerID := samplePeerID 0
  actorMembership := sampleToken membershipTag 0
  createdAt := createdAt

section Sample

variable {grants : List GrantPayload} {revocations : List Revocation} {index target : UInt8}
  {revocationID : String} {createdAt : ℤ}

theorem sampleRevocation_valid (id : revocationID.length = 36) (positive : 0 < createdAt) :
    validateRevocation (samplePrimitives sampleGenesis.document grants [] revocations)
      (sampleRevocation revocationID target createdAt) = .ok () := by
  have space : sampleSpaceID.length = 36 := by decide
  have digest : ∀ bytes name, validateDigest (Base64.encode (sampleDigest bytes)) name = .ok () := by
    intro bytes name
    exact validateDigest_ok_iff.mpr ⟨_, Base64.decodeStrict_encode _,
      (samplePrimitives sampleGenesis.document [] [] []).sha256_length bytes⟩
  refine guard_ok_iff.mpr ⟨?_, guard_ok_iff.mpr ⟨?_, rfl⟩⟩
  · simp only [not_or, not_not, not_le, validateDigest_toBool_eq_true_iff]
    exact ⟨rfl, decide_eq_true id, decide_eq_true space, digest _ _, rfl, digest _ _,
      (by decide : sampleToken membershipTag 0 ≠ ""), positive⟩
  · rw [validateDigest_toBool_eq_true_iff]
    exact digest _ _

theorem sample_anchored (failure : DocumentError) :
    anchorGenesis (samplePrimitives sampleGenesis.document grants [] revocations) sampleGenesis
      failure = .ok sampleGenesis :=
  anchorGenesis_ok_iff.mpr sample_genesis

theorem sampleRevocation_verified
    (founder : grants[0]? = some (sampleGrant 0 0))
    (listed : revocations[index.toNat]? = some (sampleRevocation revocationID target createdAt))
    (size : (sampleToken revocationTag index).utf8ByteSize ≤ maxTokenBytes)
    (id : revocationID.length = 36) (started : 1000 ≤ createdAt) (alive : createdAt < 9000) :
    verifyRevocation (samplePrimitives sampleGenesis.document grants [] revocations)
        (sampleToken revocationTag index) sampleGenesis
      = .ok ⟨sampleToken revocationTag index, sampleRevocation revocationID target createdAt,
          sampleKey 0, tokenHash (samplePrimitives sampleGenesis.document grants [] revocations)
            (sampleToken revocationTag index)⟩ := by
  have readable : (samplePrimitives sampleGenesis.document grants [] revocations).readRevocation
      [index] = .ok (sampleRevocation revocationID target createdAt) := by
    show (revocations[index.toNat]?).elim _ _ = _
    rw [listed]
    rfl
  have parsed : parseDocument revocationTag
      (samplePrimitives sampleGenesis.document grants [] revocations).readRevocation
      (sampleToken revocationTag index)
      = .ok ⟨sampleRevocation revocationID target createdAt, [index], List.replicate 64 1⟩ :=
    parseDocument_signedToken (by decide) size rfl readable
  have valid : validateRevocation (samplePrimitives sampleGenesis.document grants [] revocations)
      (sampleRevocation revocationID target createdAt) = .ok () :=
    sampleRevocation_valid id (by omega)
  have own : SamplePayload (sampleGrant 0 0) 0 0 :=
    ⟨⟨0, rfl⟩, rfl, rfl, by decide, by decide, Or.inl rfl⟩
  have member : verifyGrant (samplePrimitives sampleGenesis.document grants [] revocations)
      (sampleToken membershipTag 0) sampleGenesis (createdAt * second)
      = .ok ⟨sampleToken membershipTag 0, (sampleGrant 0 0).decoded, sampleKey 0, sampleKey 0⟩ := by
    refine sample_root_accepted own founder (by decide) ?_ ?_ fun other => absurd rfl other
    · unfold unix minute second
      omega
    · unfold unix second
      omega
  have actor : revocationActor (samplePrimitives sampleGenesis.document grants [] revocations)
      (sampleRevocation revocationID target createdAt) sampleGenesis
      = .ok ⟨sampleToken membershipTag 0, (sampleGrant 0 0).decoded, sampleKey 0, sampleKey 0⟩ :=
    revocationActor_ok member rfl started rfl
  refine bind_ok_iff.mpr ⟨_, sample_anchored _, bind_ok_iff.mpr ⟨_, parsed, guard_ok_iff.mpr ⟨?_,
    bind_ok_iff.mpr ⟨_, actor, rfl⟩⟩⟩⟩
  simp only [valid, not_or, not_not]
  exact ⟨by decide, rfl, rfl⟩

end Sample

/-- Peer one is denied twice, the second time from an earlier second on. -/
def deniedTwice : List Revocation :=
  [sampleRevocation "66666666-6666-4666-8666-666666666666" 1 3000,
    sampleRevocation "77777777-7777-4777-8777-777777777777" 1 2000]

def deniedPrimitives : Primitives :=
  samplePrimitives sampleGenesis.document [sampleGrant 0 0] [] deniedTwice

theorem deniedTwice_verified :
    (∃ found, verifyRevocation deniedPrimitives (sampleToken revocationTag 0) sampleGenesis
        = .ok found ∧ found.document = deniedTwice[0]) ∧
      ∃ found, verifyRevocation deniedPrimitives (sampleToken revocationTag 1) sampleGenesis
        = .ok found ∧ found.document = deniedTwice[1] :=
  ⟨⟨_, sampleRevocation_verified rfl rfl (by decide) (by decide) (by decide)
      (by decide), rfl⟩,
    ⟨_, sampleRevocation_verified rfl rfl (by decide) (by decide) (by decide)
      (by decide), rfl⟩⟩

theorem deniedTwice_tokens : DenialTokens deniedPrimitives sampleGenesis
    [sampleToken revocationTag 0, sampleToken revocationTag 1] := by
  obtain ⟨⟨first, accepted, doc⟩, second, accepted', doc'⟩ := deniedTwice_verified
  have apart : deniedTwice[0].revocationID ≠ deniedTwice[1].revocationID := by decide
  refine ⟨?_, ?_, (List.toFinset_card_le _).trans (by decide)⟩
  · intro token member
    rcases List.mem_pair.mp member with rfl | rfl
    · exact ⟨first, accepted⟩
    · exact ⟨second, accepted'⟩
  · intro one oneMember other otherMember left right leftAccepted rightAccepted same
    rcases List.mem_pair.mp oneMember with rfl | rfl <;>
      rcases List.mem_pair.mp otherMember with rfl | rfl
    · rfl
    · rw [accepted, Except.ok.injEq] at leftAccepted
      rw [accepted', Except.ok.injEq] at rightAccepted
      rw [← leftAccepted, ← rightAccepted, doc, doc'] at same
      exact absurd same apart
    · rw [accepted', Except.ok.injEq] at leftAccepted
      rw [accepted, Except.ok.injEq] at rightAccepted
      rw [← leftAccepted, ← rightAccepted, doc, doc'] at same
      exact absurd same.symm apart
    · rfl

theorem revocations_order_independent_deniedTwice :
    (RevocationSet.applyAll deniedPrimitives ⟨sampleGenesis, ∅, ∅, ∅, ∅, ∅⟩
      [sampleToken revocationTag 0, sampleToken revocationTag 1, sampleToken revocationTag 0]
      ).memberRevoked (samplePeerID 1) = some 2000 := by
  have opened : newRevocationSet deniedPrimitives sampleGenesis
      = .ok ⟨sampleGenesis, ∅, ∅, ∅, ∅, ∅⟩ := bind_ok_iff.mpr ⟨_, sample_anchored _, rfl⟩
  obtain ⟨runs, _⟩ := revocations_order_independent deniedPrimitives sampleGenesis _ opened _
    deniedTwice_tokens
  have order : ∀ token, token ∈ [sampleToken revocationTag 0, sampleToken revocationTag 1,
      sampleToken revocationTag 0] ↔
        token ∈ [sampleToken revocationTag 0, sampleToken revocationTag 1] := by
    intro token
    simp only [List.mem_cons, List.not_mem_nil, or_false]
    constructor
    · rintro (first | second | again)
      · exact Or.inl first
      · exact Or.inr second
      · exact Or.inl again
    · rintro (first | second)
      · exact Or.inl first
      · exact Or.inr (Or.inl second)
  refine ((runs _ order).2.members (samplePeerID 1) 2000).mpr ?_
  obtain ⟨⟨first, accepted, doc⟩, second, accepted', doc'⟩ := deniedTwice_verified
  refine ⟨⟨second, ⟨_, by simp, accepted'⟩, by rw [doc']; rfl⟩, ?_⟩
  rintro time ⟨found, ⟨token, member, again⟩, entry⟩
  rcases List.mem_pair.mp member with rfl | rfl
  · rw [accepted, Except.ok.injEq] at again
    rw [← again, doc] at entry
    cases entry
    decide
  · rw [accepted', Except.ok.injEq] at again
    rw [← again, doc'] at entry
    cases entry
    exact le_rfl

end Atterm.Peer
