/-
**The representation invariant of the replica.**

The replica keeps several maps about one set of operations. `Invariant` says how they agree, with
`base` the snapshot installed last. One lemma for each primitive effect (a clock step, a stored
operation, an installed snapshot) carries it through every call:

* `invariant_run` — every reachable replica satisfies the invariant;
* `reachable_replica_consistent` — what this says about the vector, the counters, the stored
  operations and the view, and that a failed `Apply` changes nothing.
-/

import Atterm.Foundation.Runs
import Atterm.ConfigSync.Snapshot

namespace Atterm.ConfigSync

open Std (ExtTreeMap)
open Atterm.Foundation

namespace Replica

def Stores (r : Replica) (op : VerifiedOp) : Prop := r.ops[op.document.opID]? = some op

/-- An operation of the actor with this counter is in the canonical set. -/
def StoresCounter (r : Replica) (actor : String) (counter : Nat) : Prop :=
  ∃ op, r.Stores op ∧ op.document.actorDeviceID = actor ∧ op.document.counter = counter

/-- The replica has the operation of this counter, stored or compacted. -/
def Knows (r : Replica) (actor : String) (counter : Nat) : Prop :=
  counter ≤ r.compactedVector.get actor ∨ counter ∈ r.seen actor

/-- How the maps of a replica agree; `base` is the snapshot installed last. -/
structure Invariant (P : Primitives) (base : Option VerifiedSnapshot) (r : Replica) : Prop where
  ops : ∀ opID op, r.ops[opID]? = some op → P.Genuine op ∧ op.document.opID = opID ∧
    op.document.spaceID = r.spaceID ∧
    r.compactedVector.get op.document.actorDeviceID < op.document.counter
  seen : ∀ actor counter, counter ∈ r.seen actor ↔ r.StoresCounter actor counter
  frontier : ∀ actor, IsFrontier (r.Knows actor) (r.vector.get actor)
  greatest : ∀ actor, IsGreatest {n | n = r.compactedVector.get actor ∨ n ∈ r.seen actor}
    (r.maxCounters.get actor)
  view : ∀ key op, r.view[key]? = some op → P.Genuine op ∧ op.document.key = key ∧
    op.document.schemaVersion = r.supportedSchemaVersion ∧
    (r.Stores op ∨ ∃ snapshot, base = some snapshot ∧ op ∈ snapshot.recordOps)
  retained : ∀ opID op, r.retained[opID]? = some op → P.Genuine op ∧ op.document.opID = opID ∧
    op.document.schemaVersion ≠ r.supportedSchemaVersion ∧
    ∃ snapshot, base = some snapshot ∧ op ∈ snapshot.retainedOps
  installed : ∀ snapshot, base = some snapshot → P.verifySnapshot snapshot.token = .ok snapshot ∧
    snapshot.document.spaceID = r.spaceID ∧
    snapshot.document.schemaVersion = r.supportedSchemaVersion
  compacted : r.compactedVector = (base.map fun snapshot => snapshot.document.coverVector).getD ∅

variable {P : Primitives} {r : Replica} {base : Option VerifiedSnapshot}

/-! ### The primitive effects -/

theorem seen_empty (spaceID : String) (schema : Nat) (clock : Clock) (actor : String) :
    (empty spaceID schema clock).seen actor = ∅ := by
  simp [seen, empty]

theorem invariant_empty (P : Primitives) (spaceID : String) (schema : Nat) (clock : Clock) :
    Invariant P none (empty spaceID schema clock) where
  ops := by
    intro opID op held
    simp [empty] at held
  seen := by
    intro actor counter
    rw [seen_empty]
    refine ⟨fun member => absurd member (Finset.notMem_empty _), ?_⟩
    rintro ⟨op, stored, -⟩
    simp [Stores, empty] at stored
  frontier := by
    intro actor
    refine ⟨fun n positive bound => ?_, ?_⟩
    · simp [empty] at bound
      omega
    · rw [Knows, seen_empty]
      simp [empty]
  greatest := by
    intro actor
    rw [seen_empty]
    simp [empty]
  view := by
    intro key op held
    simp [empty] at held
  retained := by
    intro opID op held
    simp [empty] at held
  installed := by simp
  compacted := rfl

theorem Invariant.withClock (invariant : Invariant P base r) (clock : Clock) :
    Invariant P base { r with clock := clock } :=
  ⟨invariant.ops, invariant.seen, invariant.frontier, invariant.greatest, invariant.view,
    invariant.retained, invariant.installed, invariant.compacted⟩

theorem stores_store_of_stores {op known : VerifiedOp} (absent : r.ops[op.document.opID]? = none)
    (stored : r.Stores known) : (r.store op).2.Stores known := by
  rw [Stores, store_ops, ExtTreeMap.getElem?_insert, if_neg]
  · exact stored
  · rw [Std.compare_eq_iff_eq]
    intro same
    rw [Stores, ← same, absent] at stored
    cases stored

theorem stores_store_self (op : VerifiedOp) : (r.store op).2.Stores op := by
  rw [Stores, store_ops, ExtTreeMap.getElem?_insert_self]

theorem stores_store_iff {op : VerifiedOp} (absent : r.ops[op.document.opID]? = none)
    (other : VerifiedOp) : (r.store op).2.Stores other ↔ other = op ∨ r.Stores other := by
  constructor
  · intro stored
    rw [Stores, store_ops, ExtTreeMap.getElem?_insert] at stored
    split_ifs at stored with same
    · exact Or.inl (Option.some.inj stored).symm
    · exact Or.inr stored
  · rintro (rfl | stored)
    · exact stores_store_self _
    · exact stores_store_of_stores absent stored

theorem storesCounter_store_iff {op : VerifiedOp} (absent : r.ops[op.document.opID]? = none)
    (actor : String) (counter : Nat) :
    (r.store op).2.StoresCounter actor counter ↔
      (op.document.actorDeviceID = actor ∧ op.document.counter = counter) ∨
        r.StoresCounter actor counter := by
  constructor
  · rintro ⟨other, stored, rfl, rfl⟩
    rw [Stores, store_ops, ExtTreeMap.getElem?_insert] at stored
    split_ifs at stored with same
    · cases stored
      exact Or.inl ⟨rfl, rfl⟩
    · exact Or.inr ⟨other, stored, rfl, rfl⟩
  · rintro (⟨rfl, rfl⟩ | ⟨other, stored, rfl, rfl⟩)
    · exact ⟨op, stores_store_self op, rfl, rfl⟩
    · exact ⟨other, stores_store_of_stores absent stored, rfl, rfl⟩

theorem Invariant.store (invariant : Invariant P base r) {op : VerifiedOp}
    (genuine : P.Genuine op) (space : op.document.spaceID = r.spaceID)
    (uncompacted : r.compactedVector.get op.document.actorDeviceID < op.document.counter)
    (absent : r.ops[op.document.opID]? = none) : Invariant P base (r.store op).2 where
  ops := by
    intro opID other held
    rw [store_ops, ExtTreeMap.getElem?_insert] at held
    rw [store_spaceID, store_compactedVector]
    split_ifs at held with same
    · cases held
      exact ⟨genuine, Std.compare_eq_iff_eq.mp same, space, uncompacted⟩
    · exact invariant.ops opID other held
  seen := by
    intro actor counter
    rw [storesCounter_store_iff absent, store_seen, ← invariant.seen]
    split_ifs with same
    · rw [Finset.mem_insert]
      simp [same, eq_comm]
    · simp [same]
  frontier := by
    intro actor
    have held := invariant.frontier actor
    unfold Knows at held ⊢
    rw [store_get_vector, store_seen, store_compactedVector]
    split_ifs with same
    · exact isFrontier_advance _ held
    · exact held
  greatest := by
    intro actor
    rw [store_get_maxCounters, store_seen, store_compactedVector]
    split_ifs with same
    · obtain ⟨attained, bound⟩ := invariant.greatest actor
      refine ⟨?_, ?_⟩
      · rcases max_choice (r.maxCounters.get actor) op.document.counter with old | new
        · rw [old]
          rcases attained with equal | held
          · exact Or.inl equal
          · exact Or.inr (Finset.mem_insert_of_mem held)
        · rw [new]
          exact Or.inr (Finset.mem_insert_self _ _)
      · rintro n (equal | held)
        · exact le_max_of_le_left (bound (Or.inl equal))
        · rcases Finset.mem_insert.mp held with rfl | old
          · exact le_max_right _ _
          · exact le_max_of_le_left (bound (Or.inr old))
    · exact invariant.greatest actor
  view := by
    intro key other held
    have old : r.view[key]? = some other → P.Genuine other ∧ other.document.key = key ∧
        other.document.schemaVersion = r.supportedSchemaVersion ∧
        ((r.store op).2.Stores other ∨ ∃ snapshot, base = some snapshot ∧
          other ∈ snapshot.recordOps) := by
      intro before
      obtain ⟨real, name, schema, source⟩ := invariant.view key other before
      exact ⟨real, name, schema, source.imp_left (stores_store_of_stores absent)⟩
    have new : other = op → op.document.schemaVersion = r.supportedSchemaVersion →
        op.document.key = key → P.Genuine other ∧ other.document.key = key ∧
        other.document.schemaVersion = r.supportedSchemaVersion ∧
        ((r.store op).2.Stores other ∨ ∃ snapshot, base = some snapshot ∧
          other ∈ snapshot.recordOps) := by
      rintro rfl schema name
      exact ⟨genuine, name, schema, Or.inl (stores_store_self _)⟩
    rw [store_view] at held
    rw [store_supportedSchemaVersion]
    split_ifs at held with competes
    · unfold contest at held
      split at held
      · exact new (Option.some.inj held).symm competes.1 competes.2
      · rename_i current before
        split_ifs at held
        · exact new (Option.some.inj held).symm competes.1 competes.2
        · cases held
          exact old before
    · exact old held
  retained := by
    intro opID other held
    rw [store_retained] at held
    rw [store_supportedSchemaVersion]
    exact invariant.retained opID other held
  installed := by
    intro snapshot given
    rw [store_spaceID, store_supportedSchemaVersion]
    exact invariant.installed snapshot given
  compacted := by
    rw [store_compactedVector]
    exact invariant.compacted

theorem Invariant.seen_eq_empty (invariant : Invariant P base r) (empty : r.ops = ∅)
    (actor : String) : r.seen actor = ∅ := by
  refine Finset.eq_empty_of_forall_notMem fun counter member => ?_
  obtain ⟨op, stored, -⟩ := (invariant.seen actor counter).mp member
  rw [Stores, empty] at stored
  simp at stored

theorem Invariant.retained_eq_empty (invariant : Invariant P base r)
    (empty : r.compactedVector = ∅) : r.retained = ∅ := by
  refine ExtTreeMap.ext_getElem? fun opID => ?_
  rw [ExtTreeMap.getElem?_empty, Option.eq_none_iff_forall_ne_some]
  intro op held
  obtain ⟨genuine, -, -, snapshot, rfl, member⟩ := invariant.retained opID op held
  obtain ⟨-, -, valid⟩ := Primitives.verifySnapshot_ok (invariant.installed snapshot rfl).1
  have covered := (valid.retained op member).1.covered
  have cover : snapshot.document.coverVector = ∅ := by
    rw [← empty, invariant.compacted]
    rfl
  rw [cover, VersionVector.get_empty] at covered
  have positive := genuine.valid.counter
  omega

theorem Invariant.install (invariant : Invariant P base r) {wall : Int} {token : SnapshotToken}
    {snapshot : VerifiedSnapshot} (installable : Installable P r wall token snapshot) :
    Invariant P (some snapshot) (r.install snapshot) := by
  obtain ⟨same, -, valid⟩ := Primitives.verifySnapshot_ok installable.read
  have unseen : ∀ actor, (r.install snapshot).seen actor = ∅ :=
    invariant.seen_eq_empty installable.ops
  refine ⟨?_, ?_, ?_, ?_, ?_, ?_, ?_, ?_⟩
  · intro opID op held
    rw [Replica.install, installable.ops] at held
    simp at held
  · intro actor counter
    rw [unseen]
    refine ⟨fun member => absurd member (Finset.notMem_empty _), ?_⟩
    rintro ⟨op, stored, -⟩
    rw [Stores, Replica.install, installable.ops] at stored
    simp at stored
  · intro actor
    refine ⟨fun n _ bound => Or.inl bound, ?_⟩
    rw [Knows, unseen]
    simp [Replica.install]
  · intro actor
    rw [unseen]
    simp [Replica.install]
  · intro key op held
    rw [Replica.install, installable.view] at held
    rcases mem_of_getElem?_insertAll _ held with member | before
    · obtain ⟨other, inside, pair⟩ := List.mem_map.mp member
      cases pair
      obtain ⟨embedded, schema⟩ := valid.record op inside
      exact ⟨embedded.genuine, rfl, schema.trans installable.schema,
        Or.inr ⟨snapshot, rfl, inside⟩⟩
    · simp at before
  · intro opID op held
    rw [Replica.install, invariant.retained_eq_empty installable.compactedVector] at held
    rcases mem_of_getElem?_insertAll _ held with member | before
    · obtain ⟨other, inside, pair⟩ := List.mem_map.mp member
      cases pair
      obtain ⟨embedded, schema⟩ := valid.retained op inside
      exact ⟨embedded.genuine, rfl, fun equal => schema (equal.trans installable.schema.symm),
        snapshot, rfl, inside⟩
    · simp at before
  · rintro other given
    cases given
    refine ⟨?_, installable.space, installable.schema⟩
    rw [same]
    exact installable.read
  · exact valid.clone_cover

/-! ### What a replica knows -/

theorem knows_store_iff (op : VerifiedOp) (actor : String) (counter : Nat) :
    (r.store op).2.Knows actor counter ↔
      (op.document.actorDeviceID = actor ∧ op.document.counter = counter) ∨
        r.Knows actor counter := by
  unfold Knows
  rw [store_compactedVector, store_seen]
  split_ifs with same
  · rw [Finset.mem_insert]
    simp only [same, true_and, eq_comm]
    tauto
  · simp [same]

theorem knows_stored_iff (wall : Int) (op : VerifiedOp) (actor : String) (counter : Nat) :
    (r.stored wall op).Knows actor counter ↔
      (op.document.actorDeviceID = actor ∧ op.document.counter = counter) ∨
        r.Knows actor counter := by
  rw [Replica.stored, knows_store_iff]
  rfl

theorem stores_stored_iff {wall : Int} {token : OpToken} {op : VerifiedOp}
    (fresh : Fresh P r wall token op) (other : VerifiedOp) :
    (r.stored wall op).Stores other ↔ other = op ∨ r.Stores other := by
  have absent : (r.absorb wall op.document.hlc).ops[op.document.opID]? = none := fresh.absent
  rw [Replica.stored, stores_store_iff absent]
  rfl

theorem Invariant.unknown_iff (invariant : Invariant P base r) {op : VerifiedOp}
    (valid : OpValid P op.document) :
    (r.compactedVector.get op.document.actorDeviceID < op.document.counter ∧
        r.ops[op.document.opID]? = none) ↔
      ¬ r.Knows op.document.actorDeviceID op.document.counter := by
  unfold Knows
  rw [not_or, not_le, and_congr_right_iff]
  rintro -
  rw [invariant.seen]
  constructor
  · rintro absent ⟨other, stored, actor, counter⟩
    obtain ⟨genuine, -⟩ := invariant.ops _ _ stored
    rw [Stores, genuine.valid.opID, actor, counter, ← valid.opID, absent] at stored
    cases stored
  · intro unstored
    rw [Option.eq_none_iff_forall_ne_some]
    intro other held
    obtain ⟨genuine, name, -⟩ := invariant.ops _ _ held
    have same := genuine.valid.opID
    rw [name, valid.opID] at same
    obtain ⟨actor, counter⟩ := opIDFor_inj same
    exact unstored ⟨other, by rw [Stores, name]; exact held, actor.symm, counter.symm⟩

/-- **Which tokens are stored**: those of the space with an unknown counter and an acceptable
timestamp. -/
theorem Invariant.fresh_iff (invariant : Invariant P base r) (wall : Int) (token : OpToken)
    (op : VerifiedOp) :
    Fresh P r wall token op ↔ P.verifyOp token = .ok op ∧ op.document.spaceID = r.spaceID ∧
      ¬ r.Knows op.document.actorDeviceID op.document.counter ∧
      r.clock.Accepts wall op.document.hlc := by
  constructor
  · intro fresh
    have valid := (P.genuine_of_verify fresh.verified).1.valid
    exact ⟨fresh.verified, fresh.space,
      (invariant.unknown_iff valid).mp ⟨fresh.uncompacted, fresh.absent⟩, fresh.accepted⟩
  · rintro ⟨verified, space, unknown, accepted⟩
    have valid := (P.genuine_of_verify verified).1.valid
    obtain ⟨uncompacted, absent⟩ := (invariant.unknown_iff valid).mpr unknown
    exact ⟨verified, space, uncompacted, absent, accepted⟩

theorem Invariant.get_vector_eq {other : Replica} {source : Option VerifiedSnapshot}
    (invariant : Invariant P base r) (second : Invariant P source other) {actor : String}
    (same : ∀ counter, 0 < counter → (r.Knows actor counter ↔ other.Knows actor counter)) :
    r.vector.get actor = other.vector.get actor :=
  ((invariant.frontier actor).congr same).unique (second.frontier actor)

theorem Invariant.knows_of_le_vector (invariant : Invariant P base r) {actor : String}
    {counter : Nat} (positive : 0 < counter) (covered : counter ≤ r.vector.get actor) :
    r.Knows actor counter :=
  (invariant.frontier actor).contiguous counter positive covered

theorem Invariant.le_vector_of_knows (invariant : Invariant P base r)
    (complete : r.vector.covers r.maxCounters = true) {actor : String} {counter : Nat}
    (known : r.Knows actor counter) : counter ≤ r.vector.get actor := by
  refine le_trans ?_ ((VersionVector.covers_iff _ _).mp complete actor)
  obtain ⟨-, bound⟩ := invariant.greatest actor
  rcases known with covered | held
  · exact covered.trans (bound (Or.inl rfl))
  · exact bound (Or.inr held)

/-! ### Every reachable replica -/

theorem Invariant.stored (invariant : Invariant P base r) {wall : Int} {token : OpToken}
    {op : VerifiedOp} (fresh : Fresh P r wall token op) : Invariant P base (r.stored wall op) :=
  (invariant.withClock _).store (P.genuine_of_verify fresh.verified).1 fresh.space
    fresh.uncompacted fresh.absent

theorem Invariant.apply (invariant : Invariant P base r) (wall : Int) (token : OpToken) :
    Invariant P base (r.apply P wall token).2 := by
  rcases apply_cases P r wall token with ⟨error, same⟩ | ⟨op, result, -, -, -, -, same⟩ |
    ⟨op, fresh, same⟩
  · rw [same]
    exact invariant
  · rw [same]
    exact invariant
  · rw [same]
    exact invariant.stored fresh

theorem Invariant.write (invariant : Invariant P base r) {walls : Walls} {identity : Identity}
    {result : Except SyncError VerifiedOp × Replica}
    (outcome : WriteOutcome P r walls identity result) : Invariant P base result.2 := by
  cases outcome with
  | refused error => exact invariant
  | failed error => exact invariant.withClock _
  | known op written has => exact invariant.withClock _
  | stored op written fresh =>
    exact Invariant.stored (invariant.withClock (r.clock.tick walls.tick).2) fresh

end Replica

/-- The calls that change a replica, and the exchange of its clock by the persistence layer. -/
inductive ReplicaEvent where
  | apply (wall : Int) (token : OpToken)
  | append (walls : Walls) (identity : Identity) (entropy : Entropy) (mutation : Mutation)
  | appendAtCounter (walls : Walls) (identity : Identity) (entropy : Entropy) (counter : Nat)
      (mutation : Mutation)
  | appendEncrypted (walls : Walls) (identity : Identity) (entropy : Entropy) (key : EpochKey)
      (mutation : Mutation)
  | signSnapshot (wall : Int) (identity : Identity) (entropy : Entropy)
      (stable : Option VersionVector)
  | installSnapshot (wall : Int) (token : SnapshotToken)
  | useClock (clock : Clock)

/-- A replica with the snapshot it was given last. -/
structure Tracked where
  replica : Replica
  base : Option VerifiedSnapshot

namespace Tracked

def step (P : Primitives) (s : Tracked) : ReplicaEvent → Tracked
  | .apply wall token => { s with replica := (s.replica.apply P wall token).2 }
  | .append walls identity entropy mutation =>
    { s with replica := (s.replica.append P walls identity entropy mutation).2 }
  | .appendAtCounter walls identity entropy counter mutation =>
    { s with replica := (s.replica.appendAtCounter P walls identity entropy counter mutation).2 }
  | .appendEncrypted walls identity entropy key mutation =>
    { s with replica := (s.replica.appendEncrypted P walls identity entropy key mutation).2 }
  | .signSnapshot wall identity entropy stable =>
    { s with replica := (s.replica.signSnapshot P wall identity entropy stable).2 }
  | .installSnapshot wall token =>
    match s.replica.installSnapshot P wall token with
    | (.error _, replica) => { s with replica := replica }
    | (.ok _, replica) => ⟨replica, (P.verifySnapshot token).toOption⟩
  | .useClock clock => { s with replica := { s.replica with clock := clock } }

theorem invariant_step {P : Primitives} (s : Tracked) (event : ReplicaEvent)
    (invariant : s.replica.Invariant P s.base) :
    (s.step P event).replica.Invariant P (s.step P event).base := by
  cases event with
  | apply wall token => exact invariant.apply wall token
  | append walls identity entropy mutation =>
    exact invariant.write (Replica.append_outcome P _ walls identity entropy mutation)
  | appendAtCounter walls identity entropy counter mutation =>
    exact invariant.write
      (Replica.appendAtCounter_outcome P _ walls identity entropy counter mutation)
  | appendEncrypted walls identity entropy key mutation =>
    exact invariant.write
      (Replica.appendEncrypted_outcome P _ walls identity entropy key mutation)
  | signSnapshot wall identity entropy stable =>
    simp only [step]
    rcases s.replica.signSnapshot_cases P wall identity entropy stable with
      ⟨error, same⟩ | ⟨error, same⟩ | ⟨signature, -, -, same⟩
    · rw [same]
      exact invariant
    · rw [same]
      exact invariant.withClock _
    · rw [same]
      exact invariant.withClock _
  | installSnapshot wall token =>
    simp only [step]
    rcases s.replica.installSnapshot_cases P wall token with
      ⟨error, same⟩ | ⟨snapshot, installable, same⟩
    · rw [same]
      exact invariant
    · rw [same, installable.read]
      exact (invariant.install installable).withClock _
  | useClock clock => exact invariant.withClock clock

/-- **Every reachable replica satisfies the representation invariant.** -/
theorem invariant_run {P : Primitives} {spaceID : String} {schema : Nat} {clock : Clock}
    {fresh : Replica} (created : newReplica P spaceID schema clock = .ok fresh)
    (events : List ReplicaEvent) :
    (run (step P) ⟨fresh, none⟩ events).replica.Invariant P
      (run (step P) ⟨fresh, none⟩ events).base := by
  obtain ⟨-, same⟩ := guard_ok created
  cases same
  exact run_invariant (fun s : Tracked => s.replica.Invariant P s.base) invariant_step
    (Replica.invariant_empty P spaceID schema clock) events

/-- **The maps of a reachable replica agree, and a failed `Apply` leaves all of them alone.** The
vector ends the longest prefix of stored or compacted counters, `maxCounters` is the largest such
counter, stored operations lie above the compacted ones, the view holds only stored operations and
those of the installed snapshot. -/
theorem reachable_replica_consistent {P : Primitives} {spaceID : String} {schema : Nat}
    {clock : Clock} {fresh : Replica} (created : newReplica P spaceID schema clock = .ok fresh)
    {events : List ReplicaEvent} {r : Replica} {base : Option VerifiedSnapshot}
    (reached : run (step P) ⟨fresh, none⟩ events = ⟨r, base⟩) :
    (∀ actor, IsGreatest {n | ∀ m, 1 ≤ m → m ≤ n →
        r.StoresCounter actor m ∨ m ≤ r.compactedVector.get actor} (r.vector.get actor)) ∧
      (∀ actor, IsGreatest {n | r.StoresCounter actor n ∨ n ≤ r.compactedVector.get actor}
        (r.maxCounters.get actor)) ∧
      (∀ (opID : String) (op : VerifiedOp), r.ops[opID]? = some op → op.document.opID = opID ∧
        r.compactedVector.get op.document.actorDeviceID < op.document.counter) ∧
      (∀ (key : RecordKey) (op : VerifiedOp), r.view[key]? = some op → r.Stores op ∨
        ∃ snapshot, base = some snapshot ∧ op ∈ snapshot.recordOps) ∧
      ∀ wall token error, (r.apply P wall token).1 = .error error →
        (r.apply P wall token).2 = r := by
  have invariant := invariant_run created events
  rw [reached] at invariant
  refine ⟨fun actor => ?_, fun actor => ?_, fun opID op held => ?_, fun key op held => ?_,
    fun wall token error failed => Replica.apply_error failed⟩
  · refine isFrontier_iff_isGreatest.mp ((invariant.frontier actor).congr fun n _ => ?_)
    rw [Replica.Knows, invariant.seen, or_comm]
  · obtain ⟨attained, bound⟩ := invariant.greatest actor
    refine ⟨?_, ?_⟩
    · rcases attained with equal | held
      · exact Or.inr equal.le
      · exact Or.inl ((invariant.seen actor _).mp held)
    · rintro n (held | covered)
      · exact bound (Or.inr ((invariant.seen actor n).mpr held))
      · exact covered.trans (bound (Or.inl rfl))
  · obtain ⟨-, name, -, above⟩ := invariant.ops opID op held
    exact ⟨name, above⟩
  · exact (invariant.view key op held).2.2.2

/-- A replica that has written one record refuses an unreadable token and stays as it is. -/
theorem reachable_replica_consistent_after_write :
    let start : Tracked := ⟨.empty "space" 1 (Clock.new 300000), none⟩
    let write : ReplicaEvent :=
      .append ⟨5, 5⟩ (.plain 1) ⟨[], [], ""⟩ ⟨0, "hosts", "h", .set, .sync, 1, [7]⟩
    let r := (run (step .plain) start [write]).replica
    newReplica .plain "space" 1 (Clock.new 300000) = .ok start.replica ∧ r.vector.get "a" = 1 ∧
      (r.apply .plain 6 (.malformed "token prefix")).2 = r := by
  have created : newReplica .plain "space" 1 (Clock.new 300000) =
    .ok (.empty "space" 1 (Clock.new 300000)) := rfl
  exact ⟨created, by decide, (reachable_replica_consistent created rfl).2.2.2.2 6 _ _ rfl⟩

end Tracked

end Atterm.ConfigSync
