/-
**What a mutation of the durable replica does.**

The work of every call on the loaded copy is a sequence of a few kinds of steps (`Progress`).
Invariants of whole runs are proved once for these steps:

* `Progress.loaded` — each step keeps the copy equal to what its state would load.
-/

import Atterm.ConfigSync.DurableLoad

namespace Atterm.ConfigSync

open Std (ExtTreeMap)
open Atterm.Foundation

/-! ### The steps of a working copy -/

/-- The copy a call works on: a replica and the file contents to be. -/
structure Copy where
  replica : Replica
  state : DurableState

def Replica.based (r : Replica) (snapshot : VerifiedSnapshot) (clock : Clock) : Replica :=
  { (Replica.empty r.spaceID r.supportedSchemaVersion ⟨0, ⟨0, 0⟩⟩).install snapshot with
    clock := clock }

def DurableState.based (state : DurableState) (r : Replica) (token : SnapshotToken) :
    DurableState :=
  { emptyState r.spaceID r.supportedSchemaVersion with
    localBootstrapComplete := state.localBootstrapComplete
    snapshot := some token }

def DurableState.keep (state : DurableState) (op : VerifiedOp) : DurableState :=
  { state with ops := state.ops ++ [op.token] }

/-- What a call brings to its work: the wall readings, the tokens it was given, the snapshots to
adopt and to rebase on, the identity that signs, whether it signs operations, and the stable vector
it prunes by. -/
structure Inputs where
  readings : List Int := []
  tokens : List OpToken := []
  snapshots : List SnapshotToken := []
  bases : List SnapshotToken := []
  identities : List Identity := []
  writes : Bool := false
  stable : Option VersionVector := none

/-- One step of the work of a call, with the number of times it reads the wall clock. -/
inductive Progress (P : Primitives) (inputs : Inputs) : ℕ → Copy → Copy → Prop where
  /-- A timestamp was issued and nothing came of it. -/
  | tick (r : Replica) (s : DurableState) (wall : Int) (read : wall ∈ inputs.readings) :
      Progress P inputs 1 ⟨r, s⟩ ⟨r.ticked wall, s⟩
  /-- An operation of another device, or one sent back, was stored. -/
  | deliver (r : Replica) (s : DurableState) (wall : Int) (op : VerifiedOp)
      (read : wall ∈ inputs.readings) (given : op.token ∈ inputs.tokens)
      (fresh : Replica.Fresh P r wall op.token op) :
      Progress P inputs 1 ⟨r, s⟩ ⟨r.stored wall op, s.keep op⟩
  /-- A local operation was written. -/
  | write (r : Replica) (s : DurableState) (walls : Walls) (identity : Identity) (op : VerifiedOp)
      (tick : walls.tick ∈ inputs.readings) (apply : walls.apply ∈ inputs.readings)
      (signer : identity ∈ inputs.identities) (writes : inputs.writes = true)
      (written : Replica.Written P r walls identity op)
      (fresh : Replica.Fresh P (r.ticked walls.tick) walls.apply op.token op) :
      Progress P inputs 2 ⟨r, s⟩ ⟨(r.ticked walls.tick).stored walls.apply op, s.keep op⟩
  /-- The initial records were marked as appended. -/
  | bootstrapped (r : Replica) (s : DurableState) :
      Progress P inputs 0 ⟨r, s⟩ ⟨r, { s with localBootstrapComplete := true }⟩
  /-- An empty replica adopted a snapshot. -/
  | adopt (r : Replica) (s : DurableState) (wall : Int) (token : SnapshotToken)
      (snapshot : VerifiedSnapshot) (read : wall ∈ inputs.readings)
      (given : token ∈ inputs.snapshots) (keeps : inputs.writes = false)
      (unbased : s.snapshot = none) (bare : s.ops = [])
      (installable : Replica.Installable P r wall token snapshot) :
      Progress P inputs 1 ⟨r, s⟩
        ⟨(r.absorb wall snapshot.document.createdHLC).install snapshot,
          { s with snapshot := some token }⟩
  /-- A received snapshot that covers the vector replaced everything. -/
  | rebase (r : Replica) (s : DurableState) (token : SnapshotToken) (snapshot : VerifiedSnapshot)
      (given : token ∈ inputs.bases) (keeps : inputs.writes = false)
      (verified : P.verifySnapshot token = .ok snapshot)
      (space : snapshot.document.spaceID = r.spaceID)
      (schema : snapshot.document.schemaVersion = r.supportedSchemaVersion)
      (covers : snapshot.document.coverVector.covers r.vectorCopy = true) :
      Progress P inputs 0 ⟨r, s⟩
        ⟨r.based snapshot (r.clock.restore snapshot.document.createdHLC).2, s.based r token⟩
  /-- A snapshot of the copy itself replaced everything. -/
  | compact (r : Replica) (s : DurableState) (wall : Int) (identity : Identity)
      (entropy : Entropy) (signature : Bytes) (snapshot : VerifiedSnapshot)
      (read : wall ∈ inputs.readings) (signer : identity ∈ inputs.identities)
      (keeps : inputs.writes = false) (complete : r.vector.covers r.maxCounters = true)
      (known : ∀ vector, inputs.stable = some vector → r.vector.covers vector = true)
      (verified : P.verifySnapshot (.signed (r.snapshotDocument P identity entropy inputs.stable
        (r.clock.tick wall).1) signature) = .ok snapshot) :
      Progress P inputs 1 ⟨r, s⟩
        ⟨r.based snapshot (r.clock.tick wall).2, s.based r (.signed (r.snapshotDocument P identity
          entropy inputs.stable (r.clock.tick wall).1) signature)⟩

/-- The steps of one call, which read the wall clock at most so many times. -/
inductive Steps (P : Primitives) (inputs : Inputs) : ℕ → Copy → Copy → Prop where
  | refl {n : ℕ} {c : Copy} : Steps P inputs n c c
  | tail {n m : ℕ} {c middle next : Copy} (before : Steps P inputs n c middle)
      (step : Progress P inputs m middle next) : Steps P inputs (n + m) c next

/-- The copy holds what its state would load. -/
def Copy.Loaded (P : Primitives) (c : Copy) : Prop :=
  load P c.replica.spaceID c.replica.supportedSchemaVersion c.state = some c.replica.unclocked

section Steps

variable {P : Primitives} {inputs : Inputs} {c next : Copy} {n : ℕ}

theorem Copy.Loaded.invariant (loaded : c.Loaded P) :
    c.replica.Invariant P (baseOf P c.state) :=
  (load_invariant loaded).withClock c.replica.clock

theorem load_keep {spaceID : String} {schema : Nat} {state : DurableState} {r : Replica}
    {op : VerifiedOp} (loaded : load P spaceID schema state = some r.unclocked)
    (verified : P.verifyOp op.token = .ok op) (unknown : r.recognize op = .ok none) :
    load P spaceID schema (state.keep op) = some (r.unclocked.store op).2 := by
  obtain ⟨base, found, rest⟩ := Option.bind_eq_some_iff.mp loaded
  have same : r.unclocked.recognize op = .ok none := unknown
  rw [load, DurableState.keep, found, Option.bind_some, loadOps_append, rest, Option.bind_some,
    loadOps, verified]
  simp only [same, if_true]
  rfl

theorem load_based {r : Replica} {state : DurableState} {token : SnapshotToken}
    {snapshot : VerifiedSnapshot} (verified : P.verifySnapshot token = .ok snapshot)
    (space : snapshot.document.spaceID = r.spaceID)
    (schema : snapshot.document.schemaVersion = r.supportedSchemaVersion) (clock : Clock) :
    load P r.spaceID r.supportedSchemaVersion (state.based r token) =
      some (r.based snapshot clock).unclocked := by
  rw [load, DurableState.based, loadSnapshot, verified]
  simp only
  rw [if_pos ⟨space, schema⟩]
  rfl

/-- **Each step keeps the copy equal to what its state would load.** -/
theorem Progress.loaded (step : Progress P inputs n c next) (loaded : c.Loaded P) :
    next.Loaded P ∧ next.replica.spaceID = c.replica.spaceID ∧
      next.replica.supportedSchemaVersion = c.replica.supportedSchemaVersion := by
  cases step with
  | tick r s wall read => exact ⟨loaded, rfl, rfl⟩
  | deliver r s wall op read given fresh =>
    have unknown := (Replica.recognize_ok_none_iff op).mpr
      ⟨fresh.space, fresh.uncompacted, fresh.absent⟩
    refine ⟨?_, by simp [Replica.stored, Replica.absorb], by simp [Replica.stored, Replica.absorb]⟩
    simp only [Copy.Loaded, stored_unclocked]
    simp only [Replica.stored, Replica.store_spaceID, Replica.store_supportedSchemaVersion]
    exact load_keep loaded fresh.verified unknown
  | write r s walls identity op tick apply signer writes written fresh =>
    have unknown := (Replica.recognize_ok_none_iff op).mpr
      ⟨fresh.space, fresh.uncompacted, fresh.absent⟩
    refine ⟨?_, by simp [Replica.stored, Replica.absorb, Replica.ticked],
      by simp [Replica.stored, Replica.absorb, Replica.ticked]⟩
    simp only [Copy.Loaded, stored_unclocked]
    simp only [Replica.stored, Replica.store_spaceID, Replica.store_supportedSchemaVersion]
    exact load_keep loaded fresh.verified unknown
  | bootstrapped r s => exact ⟨loaded, rfl, rfl⟩
  | adopt r s wall token snapshot read given keeps unbased bare installable =>
    refine ⟨?_, rfl, rfl⟩
    have before : r.unclocked = Replica.empty r.spaceID r.supportedSchemaVersion ⟨0, ⟨0, 0⟩⟩ := by
      have found := loaded
      rw [Copy.Loaded, load, unbased, bare] at found
      exact (Option.some.inj found).symm
    simp only [Copy.Loaded, load, loadSnapshot, bare, installable.read]
    have matching : snapshot.document.spaceID = r.spaceID ∧
      snapshot.document.schemaVersion = r.supportedSchemaVersion :=
        ⟨installable.space, installable.schema⟩
    have same : ((r.absorb wall snapshot.document.createdHLC).install snapshot).unclocked =
        r.unclocked.install snapshot := rfl
    rw [same, before]
    simp only [Replica.install, Replica.absorb, matching, and_self, if_true]
    rfl
  | rebase r s token snapshot given keeps verified space schema covers =>
    exact ⟨load_based verified space schema _, rfl, rfl⟩
  | compact r s wall identity entropy signature snapshot read signer keeps complete known verified =>
    have document : snapshot.document =
        r.snapshotDocument P identity entropy inputs.stable (r.clock.tick wall).1 :=
      (loaded.invariant.snapshot_ops verified).1
    refine ⟨load_based verified ?_ ?_ _, rfl, rfl⟩
    · rw [document]
      rfl
    · rw [document]
      rfl

theorem Steps.mono {m : ℕ} (steps : Steps P inputs n c next) (bound : n ≤ m) :
    Steps P inputs m c next := by
  induction steps generalizing m with
  | refl => exact .refl
  | @tail n k c middle next before step ih =>
    have split : m - k + k = m := by omega
    rw [← split]
    exact .tail (ih (by omega)) step

theorem Steps.single {m : ℕ} (step : Progress P inputs n c next) (bound : n ≤ m) :
    Steps P inputs m c next := by
  have one : Steps P inputs (0 + n) c next := .tail .refl step
  exact one.mono (by omega)

theorem Steps.trans {m : ℕ} {middle : Copy} (first : Steps P inputs n c middle)
    (second : Steps P inputs m middle next) : Steps P inputs (n + m) c next := by
  induction second with
  | refl => exact first.mono (by omega)
  | tail before step ih =>
    rw [← Nat.add_assoc]
    exact .tail (ih first) step

theorem Steps.loaded (steps : Steps P inputs n c next) (loaded : c.Loaded P) :
    next.Loaded P ∧ next.replica.spaceID = c.replica.spaceID ∧
      next.replica.supportedSchemaVersion = c.replica.supportedSchemaVersion := by
  induction steps with
  | refl => exact ⟨loaded, rfl, rfl⟩
  | tail before step ih =>
    obtain ⟨middle, space, schema⟩ := ih loaded
    obtain ⟨after, sameSpace, sameSchema⟩ := step.loaded middle
    exact ⟨after, sameSpace.trans space, sameSchema.trans schema⟩

/-! ### The work of each call is a sequence of steps -/

/-- A work goes by steps from every loaded copy, with at most so many readings of the wall clock,
and reports a clean file only if it did nothing. -/
structure Follows {α : Type} (P : Primitives) (inputs : Inputs) (n : ℕ) (work : Work α) : Prop where
  failed : ∀ r s error after, (Copy.mk r s).Loaded P → work r s = (.error error, after) →
    ∃ next, Steps P inputs n ⟨r, s⟩ ⟨after, next⟩
  done : ∀ r s value dirty next after, (Copy.mk r s).Loaded P →
    work r s = (.ok (value, dirty, next), after) →
    Steps P inputs n ⟨r, s⟩ ⟨after, next⟩ ∧ (dirty = false → next = s ∧ after = r)

variable {r after : Replica} {s : DurableState} {env : Environment}

theorem not_has_of_written {base : Option VerifiedSnapshot} (invariant : r.Invariant P base)
    {walls : Walls} {identity : Identity} {op : VerifiedOp}
    (written : Replica.Written P r walls identity op) : ¬ (r.ticked walls.tick).Has op := by
  have unknown : ¬ r.Knows op.document.actorDeviceID op.document.counter := by
    rw [written.counter]
    exact (invariant.frontier _).stops
  obtain ⟨uncompacted, absent⟩ := (invariant.unknown_iff written.genuine.valid).mpr unknown
  rintro (compacted | ⟨existing, held, -⟩)
  · exact absurd compacted (not_le.mpr uncompacted)
  · have none : (r.ticked walls.tick).ops[op.document.opID]? = none := absent
    rw [none] at held
    cases held

theorem write_steps {walls : Walls} {identity : Identity}
    {result : Except SyncError VerifiedOp} (loaded : (Copy.mk r s).Loaded P)
    (outcome : Replica.WriteOutcome P r walls identity (result, after))
    (tick : walls.tick ∈ inputs.readings) (apply : walls.apply ∈ inputs.readings)
    (signer : identity ∈ inputs.identities) (writes : inputs.writes = true) :
    (∀ error, result = .error error → Steps P inputs 2 ⟨r, s⟩ ⟨after, s⟩) ∧
      ∀ op, result = .ok op → Steps P inputs 2 ⟨r, s⟩ ⟨after, s.keep op⟩ := by
  cases outcome with
  | refused error => exact ⟨fun _ _ => .refl, fun _ success => by cases success⟩
  | failed error =>
    exact ⟨fun _ _ => .single (.tick r s walls.tick tick) (by decide), fun _ success => by cases success⟩
  | known op written has => exact absurd has (not_has_of_written loaded.invariant written)
  | stored op written fresh =>
    refine ⟨fun _ failure => (by cases failure), fun other success => ?_⟩
    cases success
    exact .single (.write r s walls identity op tick apply signer writes written fresh) le_rfl

theorem applyWork_follows (token : OpToken) (read : env.wall 0 ∈ inputs.readings)
    (given : token ∈ inputs.tokens) : Follows P inputs 1 (applyWork P env token) := by
  refine ⟨?_, ?_⟩
  · intro r s error after loaded ran
    unfold applyWork at ran
    rcases Replica.apply_cases P r (env.wall 0) token with
      ⟨reason, same⟩ | ⟨op, result, -, -, -, unstored, same⟩ | ⟨op, fresh, same⟩
    · rw [same] at ran
      cases ran
      exact ⟨s, .refl⟩
    · rw [same] at ran
      simp [unstored] at ran
    · rw [same] at ran
      simp at ran
  · intro r s value dirty next after loaded ran
    unfold applyWork at ran
    rcases Replica.apply_cases P r (env.wall 0) token with
      ⟨reason, same⟩ | ⟨op, result, -, -, -, unstored, same⟩ | ⟨op, fresh, same⟩
    · rw [same] at ran
      cases ran
    · rw [same] at ran
      simp only [unstored, Bool.false_eq_true, if_false, Prod.mk.injEq, Except.ok.injEq] at ran
      obtain ⟨⟨-, -, rfl⟩, rfl⟩ := ran
      exact ⟨.refl, fun _ => ⟨rfl, rfl⟩⟩
    · rw [same] at ran
      simp only [Replica.store_stored, if_true, Prod.mk.injEq, Except.ok.injEq] at ran
      obtain ⟨⟨-, rfl, rfl⟩, rfl⟩ := ran
      obtain ⟨-, rfl⟩ := P.genuine_of_verify fresh.verified
      exact ⟨.single (.deliver r s (env.wall 0) op read given fresh) le_rfl, fun clean => by cases clean⟩

theorem keepCreated_follows {walls : Walls} {identity : Identity}
    {write : Replica → Except SyncError VerifiedOp × Replica}
    (outcome : ∀ r, Replica.WriteOutcome P r walls identity (write r))
    (tick : walls.tick ∈ inputs.readings) (apply : walls.apply ∈ inputs.readings)
    (signer : identity ∈ inputs.identities) (writes : inputs.writes = true) :
    Follows P inputs 2 fun r s => keepCreated s (write r) := by
  refine ⟨?_, ?_⟩
  · intro r s error after loaded ran
    obtain ⟨failed, -⟩ := write_steps loaded (outcome r) tick apply signer writes
    cases result : write r with
    | mk value replica =>
      rw [result] at ran failed
      cases value with
      | error reason =>
        cases ran
        exact ⟨s, failed _ rfl⟩
      | ok op => cases ran
  · intro r s value dirty next after loaded ran
    obtain ⟨-, done⟩ := write_steps loaded (outcome r) tick apply signer writes
    cases result : write r with
    | mk value replica =>
      rw [result] at ran done
      cases value with
      | error reason => cases ran
      | ok op =>
        cases ran
        exact ⟨done _ rfl, fun clean => by cases clean⟩

theorem appendWork_follows (identity : Identity) (entropy : Entropy) (mutation : Mutation)
    (tick : env.wall 0 ∈ inputs.readings) (apply : env.wall 1 ∈ inputs.readings)
    (signer : identity ∈ inputs.identities) (writes : inputs.writes = true) :
    Follows P inputs 2 (appendWork P env identity entropy mutation) :=
  keepCreated_follows (fun r => Replica.append_outcome P r ⟨env.wall 0, env.wall 1⟩ identity entropy
    mutation) tick apply signer writes

theorem appendEncryptedWork_follows (identity : Identity) (entropy : Entropy) (key : EpochKey)
    (mutation : Mutation) (tick : env.wall 0 ∈ inputs.readings)
    (apply : env.wall 1 ∈ inputs.readings) (signer : identity ∈ inputs.identities)
    (writes : inputs.writes = true) :
    Follows P inputs 2 (appendEncryptedWork P env identity entropy key mutation) :=
  keepCreated_follows (fun r => Replica.appendEncrypted_outcome P r ⟨env.wall 0, env.wall 1⟩
    identity entropy key mutation) tick apply signer writes

theorem appendEach_steps {identity : Identity} (signer : identity ∈ inputs.identities)
    (writes : inputs.writes = true) {items : List EncryptedMutation} {index : Nat}
    (readings : ∀ position, index ≤ position → position < index + items.length →
      env.wall (2 * position) ∈ inputs.readings ∧ env.wall (2 * position + 1) ∈ inputs.readings)
    (loaded : (Copy.mk r s).Loaded P) :
    (∀ error after, appendEach P env identity index items r s = (.error error, after) →
        ∃ next, Steps P inputs (2 * items.length) ⟨r, s⟩ ⟨after, next⟩) ∧
      ∀ operations next after,
        appendEach P env identity index items r s = (.ok (operations, next), after) →
        Steps P inputs (2 * items.length) ⟨r, s⟩ ⟨after, next⟩ ∧ (items = [] → next = s ∧ after = r) := by
  induction items generalizing index r s with
  | nil =>
    refine ⟨fun error after ran => (by cases ran), fun operations next after ran => ?_⟩
    cases ran
    exact ⟨.refl, fun _ => ⟨rfl, rfl⟩⟩
  | cons item rest ih =>
    obtain ⟨tick, apply⟩ := readings index le_rfl (by simp)
    have outcome := Replica.appendEncrypted_outcome P r
      ⟨env.wall (2 * index), env.wall (2 * index + 1)⟩ identity item.entropy item.key
      item.mutation
    have later : ∀ position, index + 1 ≤ position → position < index + 1 + rest.length →
        env.wall (2 * position) ∈ inputs.readings ∧
          env.wall (2 * position + 1) ∈ inputs.readings := by
      intro position lower upper
      refine readings position (by omega) ?_
      rw [List.length_cons]
      omega
    rw [appendEach]
    cases result : r.appendEncrypted P ⟨env.wall (2 * index), env.wall (2 * index + 1)⟩ identity
        item.entropy item.key item.mutation with
    | mk value middle =>
      rw [result] at outcome
      obtain ⟨failed, done⟩ := write_steps loaded outcome tick apply signer writes
      cases value with
      | error reason =>
        refine ⟨fun error after ran => ?_, fun operations next after ran => by cases ran⟩
        cases ran
        exact ⟨s, (failed _ rfl).mono (by simp)⟩
      | ok op =>
        have first := done op rfl
        obtain ⟨restFailed, restDone⟩ := ih later (first.loaded loaded).1
        simp only
        cases remaining : appendEach P env identity (index + 1) rest middle
            { s with ops := s.ops ++ [op.token] } with
        | mk value last =>
          cases value with
          | error reason =>
            refine ⟨fun error after ran => ?_, fun operations next after ran => by
              cases ran⟩
            cases ran
            obtain ⟨next, steps⟩ := restFailed reason last remaining
            exact ⟨next, (first.trans steps).mono (by simp; omega)⟩
          | ok pair =>
            refine ⟨fun error after ran => (by cases ran), fun operations next after ran => ?_⟩
            cases ran
            obtain ⟨steps, -⟩ := restDone pair.1 pair.2 last remaining
            exact ⟨(first.trans steps).mono (by simp; omega), fun empty => by cases empty⟩

theorem appendEncryptedBatchWork_follows {identity : Identity} {items : List EncryptedMutation}
    (signer : identity ∈ inputs.identities) (writes : inputs.writes = true)
    (readings : ∀ position, position < items.length →
      env.wall (2 * position) ∈ inputs.readings ∧ env.wall (2 * position + 1) ∈ inputs.readings) :
    Follows P inputs (2 * items.length) (appendEncryptedBatchWork P env identity items) := by
  have bounded : ∀ position, 0 ≤ position → position < 0 + items.length →
      env.wall (2 * position) ∈ inputs.readings ∧ env.wall (2 * position + 1) ∈ inputs.readings :=
    fun position _ upper => readings position (by omega)
  refine ⟨?_, ?_⟩
  · intro r s error after loaded ran
    obtain ⟨failed, -⟩ := appendEach_steps signer writes bounded loaded
    unfold appendEncryptedBatchWork at ran
    split at ran
    · rename_i reason last result
      cases ran
      exact failed _ _ result
    · cases ran
  · intro r s value dirty next after loaded ran
    obtain ⟨-, done⟩ := appendEach_steps signer writes bounded loaded
    unfold appendEncryptedBatchWork at ran
    split at ran
    · cases ran
    · rename_i operations state last result
      cases ran
      obtain ⟨steps, empty⟩ := done _ _ _ result
      exact ⟨steps, fun clean => empty (by simpa using clean)⟩

theorem bootstrapEncryptedWork_follows {identity : Identity} {items : List EncryptedMutation}
    (signer : identity ∈ inputs.identities) (writes : inputs.writes = true)
    (readings : ∀ position, position < items.length →
      env.wall (2 * position) ∈ inputs.readings ∧ env.wall (2 * position + 1) ∈ inputs.readings) :
    Follows P inputs (2 * items.length) (bootstrapEncryptedWork P env identity items) := by
  have bounded : ∀ position, 0 ≤ position → position < 0 + items.length →
      env.wall (2 * position) ∈ inputs.readings ∧ env.wall (2 * position + 1) ∈ inputs.readings :=
    fun position _ upper => readings position (by omega)
  refine ⟨?_, ?_⟩
  · intro r s error after loaded ran
    obtain ⟨failed, -⟩ := appendEach_steps signer writes bounded loaded
    unfold bootstrapEncryptedWork at ran
    split_ifs at ran with complete
    · cases ran
    · split at ran
      · rename_i reason last result
        cases ran
        exact failed _ _ result
      · cases ran
  · intro r s value dirty next after loaded ran
    obtain ⟨-, done⟩ := appendEach_steps signer writes bounded loaded
    unfold bootstrapEncryptedWork at ran
    split_ifs at ran with complete
    · cases ran
      exact ⟨.refl, fun _ => ⟨rfl, rfl⟩⟩
    · split at ran
      · cases ran
      · rename_i operations state last result
        cases ran
        obtain ⟨steps, -⟩ := done _ _ _ result
        exact ⟨steps.tail (.bootstrapped _ _), fun clean => by cases clean⟩

theorem adoptSnapshotWork_follows (token : SnapshotToken) (read : env.wall 0 ∈ inputs.readings)
    (given : token ∈ inputs.snapshots) (keeps : inputs.writes = false) :
    Follows P inputs 1 (adoptSnapshotWork P env token) := by
  refine ⟨?_, ?_⟩
  · intro r s error after loaded ran
    unfold adoptSnapshotWork at ran
    split_ifs at ran with same occupied
    · cases ran
    · cases ran
      exact ⟨s, .refl⟩
    · rcases r.installSnapshot_cases P (env.wall 0) token with
        ⟨reason, failed⟩ | ⟨snapshot, installable, done⟩
      · rw [failed] at ran
        cases ran
        exact ⟨s, .refl⟩
      · rw [done] at ran
        cases ran
  · intro r s value dirty next after loaded ran
    unfold adoptSnapshotWork at ran
    split_ifs at ran with same occupied
    · cases ran
      exact ⟨.refl, fun _ => ⟨rfl, rfl⟩⟩
    · cases ran
    · rcases r.installSnapshot_cases P (env.wall 0) token with
        ⟨reason, failed⟩ | ⟨snapshot, installable, done⟩
      · rw [failed] at ran
        cases ran
      · rw [done] at ran
        cases ran
        push Not at occupied
        exact ⟨.single (.adopt r s (env.wall 0) token snapshot read given keeps occupied.1 occupied.2
          installable) le_rfl, fun clean => by cases clean⟩

theorem rebaseOn_cases (P : Primitives) (env : Environment) (token : SnapshotToken) (r : Replica)
    (s : DurableState) :
    (∃ error, rebaseOn P env token r s = (.error error, r)) ∨
      ∃ snapshot, P.verifySnapshot token = .ok snapshot ∧
        snapshot.document.spaceID = r.spaceID ∧
        snapshot.document.schemaVersion = r.supportedSchemaVersion ∧
        rebaseOn P env token r s = (.ok (s.based r token),
          r.based snapshot (r.clock.restore snapshot.document.createdHLC).2) := by
  rcases buildReplica_spec P r.spaceID r.supportedSchemaVersion r.clock env.rebuild
    (s.based r token) with ⟨error, failed⟩ | ⟨rebuilt, built, loaded, clock⟩
  · refine Or.inl ⟨error, ?_⟩
    unfold rebaseOn
    rw [← DurableState.based]
    dsimp only
    rw [failed]
  · right
    rw [load, DurableState.based, loadSnapshot] at loaded
    split at loaded
    · cases loaded
    · rename_i snapshot verified
      split_ifs at loaded with matching
      · refine ⟨snapshot, verified, matching.1, matching.2, ?_⟩
        have positive := (Primitives.verifySnapshot_ok verified).2.2.created
        have time : fileHLC P (s.based r token) = snapshot.document.createdHLC := by
          rw [fileHLC, DurableState.based, snapshotHLC, verified]
          rfl
        rw [restored, time, if_pos positive] at clock
        unfold rebaseOn
        rw [← DurableState.based]
        dsimp only
        rw [built]
        have same := Option.some.inj loaded
        refine Prod.ext rfl ?_
        simp only
        calc rebuilt = { rebuilt.unclocked with clock := rebuilt.clock } := rfl
          _ = r.based snapshot (r.clock.restore snapshot.document.createdHLC).2 := by
            rw [← same, clock]
            rfl
      · cases loaded

theorem rebaseSnapshotWork_follows (token : SnapshotToken) (given : token ∈ inputs.bases)
    (keeps : inputs.writes = false) :
    Follows P inputs 0 (rebaseSnapshotWork P env token) := by
  refine ⟨?_, ?_⟩
  · intro r s error after loaded ran
    unfold rebaseSnapshotWork at ran
    split_ifs at ran with same
    · cases ran
    · split at ran
      · cases ran
        exact ⟨s, .refl⟩
      · split_ifs at ran with foreign uncovered
        · cases ran
          exact ⟨s, .refl⟩
        · cases ran
          exact ⟨s, .refl⟩
        · rcases rebaseOn_cases P env token r s with ⟨reason, failed⟩ | ⟨snapshot, -, -, -, done⟩
          · rw [failed] at ran
            cases ran
            exact ⟨s, .refl⟩
          · rw [done] at ran
            cases ran
  · intro r s value dirty next after loaded ran
    unfold rebaseSnapshotWork at ran
    split_ifs at ran with same
    · cases ran
      exact ⟨.refl, fun _ => ⟨rfl, rfl⟩⟩
    · split at ran
      · cases ran
      · rename_i verified read
        split_ifs at ran with foreign uncovered
        · cases ran
        · cases ran
        · rcases rebaseOn_cases P env token r s with
            ⟨reason, failed⟩ | ⟨snapshot, accepted, space, schema, done⟩
          · rw [failed] at ran
            cases ran
          · rw [done] at ran
            cases ran
            rw [read] at accepted
            cases accepted
            exact ⟨.single (.rebase r s token verified given keeps read space schema
              (by simpa using uncovered)) le_rfl, fun clean => by cases clean⟩

theorem compactOn_steps {identity : Identity} (entropy : Entropy)
    (signer : identity ∈ inputs.identities) (read : env.wall 0 ∈ inputs.readings)
    (keeps : inputs.writes = false) (r : Replica) (s : DurableState) :
    (∀ error after, compactOn P env identity entropy inputs.stable r s = (.error error, after) →
        Steps P inputs 1 ⟨r, s⟩ ⟨after, s⟩) ∧
      ∀ token pruned next after,
        compactOn P env identity entropy inputs.stable r s = (.ok (token, pruned, next), after) →
        Steps P inputs 1 ⟨r, s⟩ ⟨after, next⟩ := by
  unfold compactOn
  rcases r.signSnapshot_cases P (env.wall 0) identity entropy inputs.stable with
    ⟨reason, failed⟩ | ⟨reason, failed⟩ | ⟨signature, complete, known, signed⟩
  · rw [failed]
    refine ⟨fun error after ran => ?_, fun token pruned next after ran => by cases ran⟩
    cases ran
    exact .refl
  · rw [failed]
    refine ⟨fun error after ran => ?_, fun token pruned next after ran => by cases ran⟩
    cases ran
    exact .single (.tick r s (env.wall 0) read) le_rfl
  · rw [signed]
    simp only
    rcases rebaseOn_cases P env (.signed (r.snapshotDocument P identity entropy inputs.stable
      (r.clock.tick (env.wall 0)).1) signature) (r.ticked (env.wall 0)) s with
      ⟨reason, failed⟩ | ⟨snapshot, verified, -, -, done⟩
    · rw [failed]
      refine ⟨fun error after ran => ?_, fun token pruned next after ran => by cases ran⟩
      cases ran
      exact .single (.tick r s (env.wall 0) read) le_rfl
    · rw [done]
      refine ⟨fun error after ran => (by cases ran), fun token pruned next after ran => ?_⟩
      cases ran
      -- the snapshot carries the timestamp just issued, so restoring it moves nothing
      have document : snapshot.document = r.snapshotDocument P identity entropy inputs.stable
          (r.clock.tick (env.wall 0)).1 := by
        obtain ⟨-, ⟨mark, same⟩, -⟩ := Primitives.verifySnapshot_ok verified
        exact (SnapshotToken.signed.inj same).1.symm
      have still : ((r.ticked (env.wall 0)).clock.restore snapshot.document.createdHLC).2 =
          (r.clock.tick (env.wall 0)).2 := by
        refine Clock.restore_of_le _ ?_
        rw [document]
        exact le_rfl
      rw [still]
      exact .single (.compact r s (env.wall 0) identity entropy signature snapshot read signer keeps
        complete known verified) le_rfl

theorem compactWork_follows {identity : Identity} (entropy : Entropy)
    (signer : identity ∈ inputs.identities) (read : env.wall 0 ∈ inputs.readings)
    (keeps : inputs.writes = false) (whole : inputs.stable = none) : Follows P inputs 1 (compactWork P env identity entropy) := by
  refine ⟨?_, ?_⟩
  · intro r s error after loaded ran
    obtain ⟨failed, -⟩ := compactOn_steps entropy signer read keeps r s
    rw [whole] at failed
    unfold compactWork at ran
    split at ran
    · rename_i reason last result
      cases ran
      exact ⟨s, failed _ _ result⟩
    · cases ran
  · intro r s value dirty next after loaded ran
    obtain ⟨-, done⟩ := compactOn_steps entropy signer read keeps r s
    rw [whole] at done
    unfold compactWork at ran
    split at ran
    · cases ran
    · rename_i token pruned state last result
      cases ran
      exact ⟨done _ _ _ _ result, fun clean => by cases clean⟩

theorem compactForBoundsWork_follows {identity : Identity} (entropy : Entropy)
    (maxTailOps maxTailBytes : Int) {stable : VersionVector}
    (signer : identity ∈ inputs.identities) (read : env.wall 0 ∈ inputs.readings)
    (keeps : inputs.writes = false) (pruning : inputs.stable = some stable.clone) :
    Follows P inputs 1
      (compactForBoundsWork P env identity entropy maxTailOps maxTailBytes stable) := by
  refine ⟨?_, ?_⟩
  · intro r s error after loaded ran
    obtain ⟨failed, -⟩ := compactOn_steps entropy signer read keeps r s
    rw [pruning] at failed
    unfold compactForBoundsWork at ran
    split_ifs at ran with idle
    · cases ran
    · split at ran
      · rename_i reason last result
        cases ran
        exact ⟨s, failed _ _ result⟩
      · cases ran
  · intro r s value dirty next after loaded ran
    obtain ⟨-, done⟩ := compactOn_steps entropy signer read keeps r s
    rw [pruning] at done
    unfold compactForBoundsWork at ran
    split_ifs at ran with idle
    · cases ran
      exact ⟨.refl, fun _ => ⟨rfl, rfl⟩⟩
    · split at ran
      · cases ran
      · rename_i token pruned state last result
        cases ran
        exact ⟨done _ _ _ _ result, fun clean => by cases clean⟩

end Steps

end Atterm.ConfigSync
