/-
**Snapshots.**

A snapshot is a signed compaction boundary: the winning operation of every record, the operations of
other schemas and the vector they stand for. `VerifySnapshot` scans the embedded operations twice,
each pass with its own checks; `InstallSnapshot` makes the result the base of an empty replica.

* `verifySnapshot_ok` — what an accepted snapshot satisfies;
* `installSnapshot_cases` — installing fails and changes nothing, or puts the base in place;
* `signSnapshot_cases` — signing changes at most the clock, and the document it signs.
-/

import Atterm.ConfigSync.Replica

namespace Atterm.ConfigSync

open Std (ExtTreeMap)
open Atterm.Foundation

def snapshotVersion : Int := 1

def maxSnapshotTokenBytes : Nat := 32 <<< 20

def maxSnapshotOps : Nat := 100000

/-- The exact signed token and its independently verified embedded operations. -/
structure VerifiedSnapshot where
  token : SnapshotToken
  document : Snapshot
  recordOps : List VerifiedOp
  retainedOps : List VerifiedOp
deriving DecidableEq

/-- The order of the operations inside a snapshot. -/
def snapshotOpLess (a b : VerifiedOp) : Bool :=
  if a.document.collection ≠ b.document.collection then
    decide (a.document.collection < b.document.collection)
  else if a.document.recordID ≠ b.document.recordID then
    decide (a.document.recordID < b.document.recordID)
  else if a.document.actorDeviceID ≠ b.document.actorDeviceID then
    decide (a.document.actorDeviceID < b.document.actorDeviceID)
  else decide (a.document.counter < b.document.counter)

/-- The operations of a map's values in snapshot order. -/
def snapshotSort (ops : List VerifiedOp) : List VerifiedOp :=
  ops.insertionSort fun a b => snapshotOpLess b a = false

namespace Primitives

variable (P : Primitives)

/-- The checks on a vector that a caller or a peer supplies. -/
def validateAntiEntropyVector (vector : VersionVector) : Except SyncError Unit :=
  if maxCausalActors < vector.size then .error .invalidAntiEntropy
  else if (vector.toList.all fun entry => P.validPeerID entry.1 && entry.2 != 0) = false then
    .error .invalidAntiEntropy
  else .ok ()

def validateSnapshotHeader (doc : Snapshot) (publicKey : Bytes) : Except SyncError Unit :=
  if doc.v ≠ snapshotVersion ∨ P.uuidValid doc.snapshotID = false ∨
      P.validSpaceID doc.spaceID = false ∨ doc.schemaVersion = 0 ∨
      doc.createdHLC.physicalMS ≤ 0 then
    .error (.invalidSnapshot "header")
  else if P.peerID publicKey ≠ doc.creatorDeviceID ∨ P.validPeerID doc.creatorDeviceID = false then
    .error (.invalidSnapshot "creator identity")
  else if maxCausalActors < doc.coverVector.size ∨
      maxSnapshotOps < doc.recordOps.length + doc.retainedOps.length then
    .error (.invalidSnapshot "vector or operation count")
  else if (doc.coverVector.toList.all fun entry =>
      P.validPeerID entry.1 && entry.2 != 0) = false then
    .error (.invalidSnapshot "cover vector")
  else .ok ()

/-- Verify one embedded operation against the snapshot that carries it. -/
def verifySnapshotOp (token : OpToken) (snapshot : Snapshot) (seen : List String) :
    Except SyncError VerifiedOp :=
  match P.verifyOp token with
  | .error _ => .error (.invalidSnapshot "embedded operation")
  | .ok op =>
    if op.document.spaceID ≠ snapshot.spaceID ∨
        snapshot.coverVector.get op.document.actorDeviceID < op.document.counter ∨
        snapshot.coverVector.covers op.document.causalContext = false then
      .error (.invalidSnapshot "uncovered operation")
    else if op.document.opID ∈ seen then .error (.invalidSnapshot "duplicate operation")
    else .ok op

/-- The pass over `RecordOps`. It also returns the operation identifiers met so far. -/
def verifyRecordOps (doc : Snapshot) : List OpToken → List String → List RecordKey →
    Option VerifiedOp → Except SyncError (List VerifiedOp × List String)
  | [], seenOps, _, _ => .ok ([], seenOps)
  | embedded :: rest, seenOps, seenRecords, previous =>
    P.verifySnapshotOp embedded doc seenOps >>= fun op =>
    if op.document.schemaVersion ≠ doc.schemaVersion then
      .error (.invalidSnapshot "record schema")
    else if compareTimestamp op.document.hlc doc.createdHLC = .gt then
      .error (.invalidSnapshot "record newer than snapshot")
    else if op.document.key ∈ seenRecords then
      .error (.invalidSnapshot "duplicate materialized record")
    else if previous.any (fun before => !snapshotOpLess before op) then
      .error (.invalidSnapshot "record operation order")
    else
      verifyRecordOps doc rest (op.document.opID :: seenOps) (op.document.key :: seenRecords)
        (some op) >>= fun scanned => .ok (op :: scanned.1, scanned.2)

/-- The pass over `RetainedOps`. -/
def verifyRetainedOps (doc : Snapshot) : List OpToken → List String → Option VerifiedOp →
    Except SyncError (List VerifiedOp)
  | [], _, _ => .ok []
  | embedded :: rest, seenOps, previous =>
    P.verifySnapshotOp embedded doc seenOps >>= fun op =>
    if op.document.schemaVersion = doc.schemaVersion then
      .error (.invalidSnapshot "retained current-schema operation")
    else if compareTimestamp op.document.hlc doc.createdHLC = .gt then
      .error (.invalidSnapshot "retained operation newer than snapshot")
    else if previous.any (fun before => !snapshotOpLess before op) then
      .error (.invalidSnapshot "retained operation order")
    else
      verifyRetainedOps doc rest (op.document.opID :: seenOps) (some op) >>= fun scanned =>
      .ok (op :: scanned)

/-- Validate the outer signature, the vector, the ordering and every embedded operation. -/
def verifySnapshot (token : SnapshotToken) : Except SyncError VerifiedSnapshot :=
  if P.snapshotTokenBytes token = 0 ∨ maxSnapshotTokenBytes < P.snapshotTokenBytes token then
    .error (.invalidSnapshot "token size")
  else match token with
    | .malformed what => .error (.invalidSnapshot what)
    | .signed doc signature =>
      if doc.creatorPublicKey.length ≠ publicKeySize then
        .error (.invalidSnapshot "creator public key")
      else
        P.validateSnapshotHeader doc doc.creatorPublicKey >>= fun _ =>
        if P.snapshotVerify doc.creatorPublicKey doc signature = false then
          .error (.invalidSnapshot "signature")
        else
          P.verifyRecordOps doc doc.recordOps [] [] none >>= fun records =>
          P.verifyRetainedOps doc doc.retainedOps records.2 none >>= fun retained =>
          .ok { token := token, document := doc, recordOps := records.1, retainedOps := retained }

end Primitives

namespace Replica

/-- A tombstone every active replica has acknowledged. -/
def prunable (stable : VersionVector) (op : VerifiedOp) : Bool :=
  decide (op.document.kind = .delete) &&
    decide (op.document.counter ≤ stable.get op.document.actorDeviceID)

/-- How many tombstones of the view a stable vector covers. -/
def prunableTombstones (r : Replica) (stable : VersionVector) : Nat :=
  ((mapValues r.view).filter (prunable stable)).length

/-- The operations of other schemas, those of the installed snapshot included. -/
def retainedByID (r : Replica) : ExtTreeMap String VerifiedOp :=
  insertAll r.retained (r.ops.toList.filter fun entry =>
    entry.2.document.schemaVersion ≠ r.supportedSchemaVersion)

/-- The winners that a snapshot keeps. -/
def keptRecordOps (r : Replica) (stable : Option VersionVector) : List VerifiedOp :=
  (mapValues r.view).filter fun op => !prunable (stable.getD ∅) op

/-- The document that compacts the replica, without its timestamp. -/
def snapshotDocument (P : Primitives) (r : Replica) (identity : Identity) (entropy : Entropy)
    (stable : Option VersionVector) (createdHLC : Timestamp) : Snapshot where
  v := snapshotVersion
  snapshotID := entropy.uuid
  spaceID := r.spaceID
  schemaVersion := r.supportedSchemaVersion
  creatorDeviceID := P.peerID identity.publicKey
  creatorPublicKey := identity.publicKey
  createdHLC := createdHLC
  coverVector := r.vector.clone
  recordOps := (snapshotSort (r.keptRecordOps stable)).map VerifiedOp.token
  retainedOps := (snapshotSort (mapValues r.retainedByID)).map VerifiedOp.token

/-- Compact a complete replica state into a signed token; tombstones that `stable` covers are left
out. Returns the token and how many were left out. -/
def signSnapshot (P : Primitives) (r : Replica) (wall : Int) (identity : Identity)
    (entropy : Entropy) (stable : Option VersionVector) :
    Except SyncError (SnapshotToken × Nat) × Replica :=
  if r.vector.covers r.maxCounters = false then (.error .incompleteHistory, r)
  else if (stable.any fun vector =>
      !(P.validateAntiEntropyVector vector).isOk || !r.vector.covers vector) then
    (.error (.invalidSnapshot "stable vector"), r)
  else
    let (createdHLC, clock) := r.clock.tick wall
    let doc := r.snapshotDocument P identity entropy stable createdHLC
    match P.snapshotSign identity entropy.signature doc with
    | none => (.error .signing, { r with clock := clock })
    | some signature =>
      (.ok (.signed doc signature, r.prunableTombstones (stable.getD ∅)), { r with clock := clock })

def install (r : Replica) (verified : VerifiedSnapshot) : Replica :=
  { r with
    compactedVector := verified.document.coverVector.clone
    vector := verified.document.coverVector.clone
    maxCounters := verified.document.coverVector.clone
    view := insertAll r.view (verified.recordOps.map fun op => (op.document.key, op))
    retained := insertAll r.retained (verified.retainedOps.map fun op => (op.document.opID, op))
    compactedPayloadIDs := insertAll r.compactedPayloadIDs
      ((verified.recordOps ++ verified.retainedOps).map fun op =>
        (op.document.opID, op.payloadID)) }

/-- Replace the empty replica's compaction base. -/
def installSnapshot (P : Primitives) (r : Replica) (wall : Int) (token : SnapshotToken) :
    Except SyncError Unit × Replica :=
  match P.verifySnapshot token with
  | .error error => (.error error, r)
  | .ok verified =>
    if verified.document.spaceID ≠ r.spaceID ∨
        verified.document.schemaVersion ≠ r.supportedSchemaVersion then
      (.error (.invalidSnapshot "space or schema"), r)
    else if r.ops.size ≠ 0 ∨ r.view.size ≠ 0 ∨ r.vector.size ≠ 0 ∨
        r.compactedVector.size ≠ 0 then
      (.error .replicaNotEmpty, r)
    else
      match r.clock.observe wall verified.document.createdHLC with
      | (.error error, clock) => (.error error, { r with clock := clock })
      | (.ok _, clock) => (.ok (), { r with clock := clock }.install verified)

end Replica

/-! ### What an accepted snapshot satisfies -/

/-- What `VerifySnapshot` has checked of every operation a snapshot carries. -/
structure Embedded (P : Primitives) (doc : Snapshot) (op : VerifiedOp) : Prop where
  genuine : P.Genuine op
  space : op.document.spaceID = doc.spaceID
  covered : op.document.counter ≤ doc.coverVector.get op.document.actorDeviceID
  context : doc.coverVector.covers op.document.causalContext = true
  time : op.document.hlc ≤ doc.createdHLC

/-- What `VerifySnapshot` has checked of a snapshot. -/
structure SnapshotValid (P : Primitives) (verified : VerifiedSnapshot) : Prop where
  schema : verified.document.schemaVersion ≠ 0
  created : 0 < verified.document.createdHLC.physicalMS
  cover : ∀ entry ∈ verified.document.coverVector.toList,
    P.validPeerID entry.1 = true ∧ entry.2 ≠ 0
  coverSize : verified.document.coverVector.size ≤ maxCausalActors
  recordTokens : verified.recordOps.map VerifiedOp.token = verified.document.recordOps
  retainedTokens : verified.retainedOps.map VerifiedOp.token = verified.document.retainedOps
  record : ∀ op ∈ verified.recordOps, Embedded P verified.document op ∧
    op.document.schemaVersion = verified.document.schemaVersion
  retained : ∀ op ∈ verified.retainedOps, Embedded P verified.document op ∧
    op.document.schemaVersion ≠ verified.document.schemaVersion
  recordKeys : (verified.recordOps.map fun op => op.document.key).Nodup
  retainedIDs : (verified.retainedOps.map fun op => op.document.opID).Nodup

namespace Primitives

variable {P : Primitives}

theorem verifySnapshotOp_ok {token : OpToken} {doc : Snapshot} {seen : List String}
    {op : VerifiedOp} (accepted : P.verifySnapshotOp token doc seen = .ok op)
    (early : ¬ compareTimestamp op.document.hlc doc.createdHLC = .gt) :
    op.token = token ∧ Embedded P doc op ∧ op.document.opID ∉ seen := by
  unfold verifySnapshotOp at accepted
  cases verified : P.verifyOp token with
  | error error =>
    rw [verified] at accepted
    cases accepted
  | ok read =>
    rw [verified] at accepted
    obtain ⟨checked, accepted⟩ := guard_ok accepted
    obtain ⟨unseen, accepted⟩ := guard_ok accepted
    cases accepted
    obtain ⟨genuine, same⟩ := P.genuine_of_verify verified
    push Not at checked
    refine ⟨same, ⟨genuine, checked.1, checked.2.1, by simpa using checked.2.2, ?_⟩, unseen⟩
    rw [compareTimestamp_eq_gt_iff] at early
    exact not_lt.mp early

theorem verifyRecordOps_ok {doc : Snapshot} {tokens : List OpToken} {seenOps : List String}
    {seenRecords : List RecordKey} {previous : Option VerifiedOp} {ops : List VerifiedOp}
    {seen : List String}
    (accepted : P.verifyRecordOps doc tokens seenOps seenRecords previous = .ok (ops, seen)) :
    ops.map VerifiedOp.token = tokens ∧
      (∀ op ∈ ops, Embedded P doc op ∧ op.document.schemaVersion = doc.schemaVersion) ∧
      (∀ op ∈ ops, op.document.key ∉ seenRecords) ∧
      (ops.map fun op => op.document.key).Nodup := by
  induction tokens generalizing seenOps seenRecords previous ops seen with
  | nil =>
    cases accepted
    simp
  | cons embedded rest ih =>
    unfold verifyRecordOps at accepted
    obtain ⟨op, read, accepted⟩ := bind_ok accepted
    obtain ⟨schema, accepted⟩ := guard_ok accepted
    obtain ⟨early, accepted⟩ := guard_ok accepted
    obtain ⟨newRecord, accepted⟩ := guard_ok accepted
    obtain ⟨ordered, accepted⟩ := guard_ok accepted
    obtain ⟨⟨others, met⟩, scanned, accepted⟩ := bind_ok accepted
    cases accepted
    obtain ⟨token, valid, -⟩ := verifySnapshotOp_ok read early
    obtain ⟨tokens, each, fresh, distinct⟩ := ih scanned
    refine ⟨by rw [List.map_cons, token, tokens], ?_, ?_, ?_⟩
    · rw [List.forall_mem_cons]
      exact ⟨⟨valid, not_not.mp schema⟩, each⟩
    · rw [List.forall_mem_cons]
      refine ⟨newRecord, fun other member => ?_⟩
      exact fun met => fresh other member (List.mem_cons_of_mem _ met)
    · rw [List.map_cons, List.nodup_cons]
      refine ⟨fun repeated => ?_, distinct⟩
      obtain ⟨other, member, same⟩ := List.mem_map.mp repeated
      exact fresh other member (same ▸ List.mem_cons_self)

theorem verifyRetainedOps_ok {doc : Snapshot} {tokens : List OpToken} {seenOps : List String}
    {previous : Option VerifiedOp} {ops : List VerifiedOp}
    (accepted : P.verifyRetainedOps doc tokens seenOps previous = .ok ops) :
    ops.map VerifiedOp.token = tokens ∧
      (∀ op ∈ ops, Embedded P doc op ∧ op.document.schemaVersion ≠ doc.schemaVersion) ∧
      (∀ op ∈ ops, op.document.opID ∉ seenOps) ∧
      (ops.map fun op => op.document.opID).Nodup := by
  induction tokens generalizing seenOps previous ops with
  | nil =>
    cases accepted
    simp
  | cons embedded rest ih =>
    unfold verifyRetainedOps at accepted
    obtain ⟨op, read, accepted⟩ := bind_ok accepted
    obtain ⟨schema, accepted⟩ := guard_ok accepted
    obtain ⟨early, accepted⟩ := guard_ok accepted
    obtain ⟨ordered, accepted⟩ := guard_ok accepted
    obtain ⟨others, scanned, accepted⟩ := bind_ok accepted
    cases accepted
    obtain ⟨token, valid, unseen⟩ := verifySnapshotOp_ok read early
    obtain ⟨tokens, each, fresh, distinct⟩ := ih scanned
    refine ⟨by rw [List.map_cons, token, tokens], ?_, ?_, ?_⟩
    · rw [List.forall_mem_cons]
      exact ⟨⟨valid, schema⟩, each⟩
    · rw [List.forall_mem_cons]
      refine ⟨unseen, fun other member => ?_⟩
      exact fun met => fresh other member (List.mem_cons_of_mem _ met)
    · rw [List.map_cons, List.nodup_cons]
      refine ⟨fun repeated => ?_, distinct⟩
      obtain ⟨other, member, same⟩ := List.mem_map.mp repeated
      exact fresh other member (same ▸ List.mem_cons_self)

theorem validateSnapshotHeader_ok {doc : Snapshot} {publicKey : Bytes}
    (valid : P.validateSnapshotHeader doc publicKey = .ok ()) :
    doc.schemaVersion ≠ 0 ∧ 0 < doc.createdHLC.physicalMS ∧
      doc.coverVector.size ≤ maxCausalActors ∧
      ∀ entry ∈ doc.coverVector.toList, P.validPeerID entry.1 = true ∧ entry.2 ≠ 0 := by
  unfold validateSnapshotHeader at valid
  obtain ⟨header, valid⟩ := guard_ok valid
  obtain ⟨creator, valid⟩ := guard_ok valid
  obtain ⟨sizes, valid⟩ := guard_ok valid
  obtain ⟨cover, -⟩ := guard_ok valid
  push Not at header sizes
  refine ⟨header.2.2.2.1, header.2.2.2.2, sizes.1, fun entry member => ?_⟩
  rw [Bool.not_eq_false, List.all_eq_true] at cover
  simpa using cover entry member

/-- **What an accepted snapshot satisfies.** -/
theorem verifySnapshot_ok {token : SnapshotToken} {verified : VerifiedSnapshot}
    (accepted : P.verifySnapshot token = .ok verified) :
    verified.token = token ∧ (∃ signature, token = .signed verified.document signature) ∧
      SnapshotValid P verified := by
  unfold verifySnapshot at accepted
  obtain ⟨size, accepted⟩ := guard_ok accepted
  cases token with
  | malformed what => cases accepted
  | signed doc signature =>
    obtain ⟨key, accepted⟩ := guard_ok accepted
    obtain ⟨checked, header, accepted⟩ := bind_ok accepted
    obtain ⟨signed, accepted⟩ := guard_ok accepted
    obtain ⟨⟨records, seen⟩, recordPass, accepted⟩ := bind_ok accepted
    obtain ⟨retained, retainedPass, accepted⟩ := bind_ok accepted
    cases accepted
    obtain ⟨schema, created, coverSize, cover⟩ := validateSnapshotHeader_ok header
    obtain ⟨recordTokens, record, -, recordKeys⟩ := verifyRecordOps_ok recordPass
    obtain ⟨retainedTokens, kept, -, retainedIDs⟩ := verifyRetainedOps_ok retainedPass
    exact ⟨rfl, ⟨signature, rfl⟩, ⟨schema, created, cover, coverSize, recordTokens,
      retainedTokens, record, kept, recordKeys, retainedIDs⟩⟩

end Primitives

theorem SnapshotValid.clone_cover {P : Primitives} {verified : VerifiedSnapshot}
    (valid : SnapshotValid P verified) :
    verified.document.coverVector.clone = verified.document.coverVector :=
  VersionVector.clone_eq_self fun entry member => (valid.cover entry member).2

namespace Replica

variable {P : Primitives} {r : Replica}

/-! ### What the two snapshot calls can do -/

/-- A snapshot that `InstallSnapshot` puts in place at a wall reading. -/
structure Installable (P : Primitives) (r : Replica) (wall : Int) (token : SnapshotToken)
    (verified : VerifiedSnapshot) : Prop where
  read : P.verifySnapshot token = .ok verified
  space : verified.document.spaceID = r.spaceID
  schema : verified.document.schemaVersion = r.supportedSchemaVersion
  ops : r.ops = ∅
  view : r.view = ∅
  vector : r.vector = ∅
  compactedVector : r.compactedVector = ∅
  accepted : r.clock.Accepts wall verified.document.createdHLC

/-- **What `InstallSnapshot` can do**: fail and change nothing, or install. -/
theorem installSnapshot_cases (P : Primitives) (r : Replica) (wall : Int)
    (token : SnapshotToken) :
    (∃ error, r.installSnapshot P wall token = (.error error, r)) ∨
      ∃ verified, Installable P r wall token verified ∧ r.installSnapshot P wall token =
        (.ok (), (r.absorb wall verified.document.createdHLC).install verified) := by
  unfold installSnapshot
  cases accepted : P.verifySnapshot token with
  | error error => exact Or.inl ⟨error, rfl⟩
  | ok verified =>
    simp only
    split_ifs with foreign occupied
    · exact Or.inl ⟨_, rfl⟩
    · exact Or.inl ⟨_, rfl⟩
    · push Not at foreign occupied
      rcases r.clock.observe_spec wall verified.document.createdHLC with
        ⟨-, error, observed⟩ | ⟨timely, observed⟩
      · exact Or.inl ⟨error, by rw [observed]⟩
      · refine Or.inr ⟨verified, ⟨accepted, foreign.1, foreign.2, ?_, ?_, ?_, ?_, timely⟩, ?_⟩
        · exact ExtTreeMap.eq_empty_iff_size_eq_zero.mpr occupied.1
        · exact ExtTreeMap.eq_empty_iff_size_eq_zero.mpr occupied.2.1
        · exact ExtTreeMap.eq_empty_iff_size_eq_zero.mpr occupied.2.2.1
        · exact ExtTreeMap.eq_empty_iff_size_eq_zero.mpr occupied.2.2.2
        · rw [observed]
          rfl

/-- **What signing a snapshot can do.** -/
theorem signSnapshot_cases (P : Primitives) (r : Replica) (wall : Int) (identity : Identity)
    (entropy : Entropy) (stable : Option VersionVector) :
    (∃ error, r.signSnapshot P wall identity entropy stable = (.error error, r)) ∨
      (∃ error, r.signSnapshot P wall identity entropy stable = (.error error, r.ticked wall)) ∨
      ∃ signature, r.vector.covers r.maxCounters = true ∧
        (∀ vector, stable = some vector → r.vector.covers vector = true) ∧
        r.signSnapshot P wall identity entropy stable =
          (.ok (.signed (r.snapshotDocument P identity entropy stable (r.clock.tick wall).1)
            signature, r.prunableTombstones (stable.getD ∅)), r.ticked wall) := by
  unfold signSnapshot
  split_ifs with gaps unstable
  · exact Or.inl ⟨_, rfl⟩
  · exact Or.inl ⟨_, rfl⟩
  · simp only
    split
    · exact Or.inr (Or.inl ⟨_, rfl⟩)
    · rename_i signature signed
      refine Or.inr (Or.inr ⟨signature, by simpa using gaps, fun vector given => ?_, rfl⟩)
      subst given
      simp only [Option.any_some, Bool.or_eq_true, not_or, Bool.not_eq_true',
        Bool.not_eq_false] at unstable
      exact unstable.2

end Replica

end Atterm.ConfigSync
