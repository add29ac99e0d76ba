/-
**Rebasing on a received snapshot.**

`RebaseSnapshot` accepts a snapshot that covers the contiguous vector and then drops the whole tail.
The tail may also hold operations above a counter gap, which the vector does not report: these
survive exactly when the snapshot covers the largest stored counters.

* `reopened_holds_file` — what a replica that is opened again holds;
* `rebase_keeps_iff` — when a rebase keeps every stored operation;
* `rebase_drops_above_gap` — an operation above a gap that a rebase drops.
-/

import Atterm.ConfigSync.DurableRuns

namespace Atterm.ConfigSync

open Atterm.Foundation

/-! ### The vector never decreases -/

theorem Replica.vector_le_stored (r : Replica) (wall : Int) (op : VerifiedOp) (actor : String) :
    r.vector.get actor ≤ (r.stored wall op).vector.get actor := by
  rw [Replica.stored, Replica.store_get_vector]
  split_ifs
  · exact le_advance _ _ _
  · exact le_rfl

theorem Progress.vector_le {P : Primitives} {inputs : Inputs} {c next : Copy}
    {n : ℕ} (step : Progress P inputs n c next) (actor : String) :
    c.replica.vector.get actor ≤ next.replica.vector.get actor := by
  cases step with
  | tick r s wall read => exact le_rfl
  | deliver r s wall op read given fresh => exact r.vector_le_stored wall op actor
  | write r s walls identity op tick apply signer writes written fresh =>
    exact (r.ticked walls.tick).vector_le_stored walls.apply op actor
  | bootstrapped r s => exact le_rfl
  | adopt r s wall token snapshot read given keeps unbased bare installable =>
    simp [installable.vector]
  | rebase r s token snapshot given keeps verified space schema covers =>
    have reported := (VersionVector.covers_iff _ _).mp covers actor
    simpa [Replica.vectorCopy, Replica.based, Replica.install] using reported
  | compact r s wall identity entropy signature snapshot read signer keeps complete known verified =>
    obtain ⟨-, ⟨mark, same⟩, -⟩ := Primitives.verifySnapshot_ok verified
    have document := (SnapshotToken.signed.inj same).1
    simp [Replica.based, Replica.install, ← document, Replica.snapshotDocument]

theorem Steps.vector_le {P : Primitives} {inputs : Inputs} {c next : Copy}
    {n : ℕ} (steps : Steps P inputs n c next) (actor : String) :
    c.replica.vector.get actor ≤ next.replica.vector.get actor := by
  induction steps with
  | refl => exact le_rfl
  | tail before step ih => exact ih.trans (step.vector_le actor)

namespace DurableReplica

variable {P : Primitives} {d : DurableReplica}

/-- The handle never reports more than the file holds. -/
def Behind (P : Primitives) (d : DurableReplica) : Prop :=
  ∀ r, load P d.spaceID d.schema d.contents = some r → ∀ actor,
    d.replica.vector.get actor ≤ r.vector.get actor

theorem behind_step (sound : Sound P d) (behind : Behind P d) (event : DurableEvent) :
    Behind P (d.step P event) ∧
      ∀ actor, d.replica.vector.get actor ≤ (d.step P event).replica.vector.get actor := by
  have effect := step_effect sound event
  generalize d.step P event = after at effect ⊢
  cases effect with
  | idle => exact ⟨behind, fun _ => le_rfl⟩
  | worked r last after start steps commit =>
    have before : ∀ actor, d.replica.vector.get actor ≤ r.vector.get actor :=
      behind r.unclocked start.loaded
    have ahead : ∀ actor, d.replica.vector.get actor ≤ last.replica.vector.get actor :=
      fun actor => (before actor).trans (steps.vector_le actor)
    obtain ⟨-, loaded, -⟩ := start.last sound steps
    -- the file holds what the work ended with, or is as before
    have filed : ∀ held, load P d.spaceID d.schema last.state = some held → ∀ actor,
        last.replica.vector.get actor ≤ held.vector.get actor := by
      intro held found actor
      rw [loaded] at found
      cases found
      exact le_rfl
    cases commit with
    | dropped => exact ⟨behind, fun _ => le_rfl⟩
    | unsynced => exact ⟨fun held found actor => (ahead actor).trans (filed held found actor),
        fun _ => le_rfl⟩
    | kept => exact ⟨filed, ahead⟩
    | clean same =>
      subst same
      exact ⟨filed, ahead⟩
  | reopened r start =>
    refine ⟨fun held found actor => ?_, behind r.unclocked start.loaded⟩
    have same := start.loaded
    rw [show load P d.spaceID d.schema d.contents = some held from found] at same
    cases same
    exact le_rfl

/-- **The vector of a durable replica never decreases.** -/
theorem vector_le_run (sound : Sound P d) (behind : Behind P d) (events : List DurableEvent)
    (actor : String) :
    d.replica.vector.get actor ≤ (run (step P) d events).replica.vector.get actor := by
  induction events generalizing d with
  | nil => exact le_rfl
  | cons event rest ih =>
    obtain ⟨next, larger⟩ := behind_step sound behind event
    exact (larger actor).trans (ih (sound_step sound event) next)

theorem behind_run (sound : Sound P d) (behind : Behind P d) (events : List DurableEvent) :
    Behind P (run (step P) d events) :=
  (run_invariant (fun d => Sound P d ∧ Behind P d)
    (fun _ event held => ⟨sound_step held.1 event, (behind_step held.1 held.2 event).1⟩)
    ⟨sound, behind⟩ events).2

theorem behind_open {spaceID : String} {schema : Nat} {clock : Clock} {replay : Nat → Int}
    (opened : openDurableReplica P spaceID schema clock none replay = .ok d) : Behind P d := by
  intro held found actor
  have handle := (sound_open opened).handle
  obtain ⟨-, opened⟩ := guard_ok opened
  obtain ⟨state, read, opened⟩ := bind_ok opened
  cases read
  split at opened
  · cases opened
  · cases opened
    rw [show load P spaceID schema (emptyState spaceID schema) = some held from found] at handle
    cases handle
    exact le_rfl

def Holds (P : Primitives) (d : DurableReplica) (op : VerifiedOp) : Prop :=
  op.token ∈ d.contents.ops ∧ P.Genuine op

/-- **The file of a replica can always be loaded, and a replica that is opened on it again holds what the
file holds.** After every run, with writes and directory syncs that fail, crashes and restarts, it stores
exactly the operations of the file, reports at least what the handle reported, and its clock is past the
timestamps of the file. -/
theorem reopened_holds_file {spaceID : String} {schema : Nat} {clock : Clock} {replay : Nat → Int}
    {start : DurableReplica} (opened : openDurableReplica P spaceID schema clock none replay = .ok start)
    (events : List DurableEvent) (reached : run (step P) start events = d) :
    (∃ r, load P d.spaceID d.schema d.contents = some r ∧ r.Invariant P (baseOf P d.contents)) ∧
      ∀ (later : Clock) readings again,
        openDurableReplica P d.spaceID d.schema later d.file readings = .ok again →
        (∀ op, again.replica.Stores op ↔ d.Holds P op) ∧
        (∀ actor, d.replica.vectorCopy.get actor ≤ again.replica.vectorCopy.get actor) ∧
        (0 < (fileHLC P d.contents).physicalMS → fileHLC P d.contents ≤ again.clock.last) := by
  have sound := sound_run (sound_open opened) events
  have behind := behind_run (sound_open opened) (behind_open opened) events
  rw [reached] at sound behind
  obtain ⟨held, whole⟩ := sound.file
  refine ⟨⟨held, whole, load_invariant whole⟩, fun later readings again reopened => ?_⟩
  obtain ⟨-, reopened⟩ := guard_ok reopened
  obtain ⟨state, read, reopened⟩ := bind_ok reopened
  rw [readState_contents sound.header] at read
  cases read
  rcases buildReplica_spec P d.spaceID d.schema later readings d.contents with
    ⟨error, failed⟩ | ⟨r, built, loaded, restored_eq⟩
  · rw [failed] at reopened
    cases reopened
  · rw [built] at reopened
    cases reopened
    refine ⟨fun op => load_stores_iff loaded op, fun actor => ?_, fun valid => ?_⟩
    · have ahead : d.replica.vector.get actor ≤ r.vector.get actor := behind r.unclocked loaded actor
      simpa [Replica.vectorCopy] using ahead
    · dsimp only
      rw [restored_eq, restored, if_pos valid]
      exact later.persisted_le_restore valid

/-! ### When a rebase keeps every stored operation -/

theorem rebaseSnapshot_ok (sound : Sound P d) {env : Environment} {token : SnapshotToken}
    {result : Unit × DurableAck} (success : (d.rebaseSnapshot P env token).1 = .ok result) :
    (d.contents.snapshot = some token ∧ (d.rebaseSnapshot P env token).2.contents = d.contents) ∨
      (d.contents.snapshot ≠ some token ∧ (d.rebaseSnapshot P env token).2.contents.ops = [] ∧
        ∃ (snapshot : VerifiedSnapshot) (r : Replica), P.verifySnapshot token = .ok snapshot ∧
          load P d.spaceID d.schema d.contents = some r.unclocked ∧
          ∀ actor, r.vector.get actor ≤ snapshot.document.coverVector.get actor) := by
  obtain ⟨value, ack⟩ := result
  obtain ⟨r, dirty, next, after, start, ran, same⟩ := mutate_ok sound success
  rw [rebaseSnapshot, same]
  unfold rebaseSnapshotWork at ran
  split_ifs at ran with installed
  · cases ran
    exact Or.inl ⟨installed, rfl⟩
  · refine Or.inr ⟨installed, ?_⟩
    split at ran
    · cases ran
    · rename_i verified read
      split_ifs at ran with foreign uncovered
      · cases ran
      · cases ran
      · rcases rebaseOn_cases P env token r d.contents with
          ⟨reason, failed⟩ | ⟨snapshot, -, -, -, done⟩
        · rw [failed] at ran
          cases ran
        · rw [done] at ran
          cases ran
          refine ⟨rfl, verified, r, read, start.loaded, fun actor => ?_⟩
          rw [Bool.not_eq_false, VersionVector.covers_iff] at uncovered
          simpa [Replica.vectorCopy] using uncovered actor

/-- **A rebase keeps every stored operation exactly when the snapshot is the installed one or covers
the largest stored counters.** -/
theorem rebaseSnapshot_keeps_iff (sound : Sound P d) {env : Environment} {token : SnapshotToken}
    {snapshot : VerifiedSnapshot} {result : Unit × DurableAck}
    (success : (d.rebaseSnapshot P env token).1 = .ok result)
    (read : P.verifySnapshot token = .ok snapshot) :
    (∀ op, d.Holds P op → (d.rebaseSnapshot P env token).2.Holds P op ∨
        op.document.counter ≤ snapshot.document.coverVector.get op.document.actorDeviceID) ↔
      d.contents.snapshot = some token ∨
        snapshot.document.coverVector.covers (d.fileReplica P).maxCounters = true := by
  have loaded := sound.load_contents
  have invariant := load_invariant loaded
  have stores := load_stores_iff loaded
  rcases rebaseSnapshot_ok sound success with ⟨installed, same⟩ | ⟨other, bare, verified, replayed,
    accepted, found, covers⟩
  · refine ⟨fun _ => Or.inl installed, fun _ op held => Or.inl ?_⟩
    exact ⟨by rw [same]; exact held.1, held.2⟩
  · rw [read] at accepted
    cases accepted
    rw [found] at loaded
    have same := Option.some.inj loaded
    rw [← same] at invariant stores ⊢
    rw [VersionVector.covers_iff]
    constructor
    · intro keeps
      refine Or.inr fun actor => ?_
      obtain ⟨attained, -⟩ := invariant.greatest actor
      rcases attained with compacted | seen
      · rw [compacted]
        refine le_trans ?_ (covers actor)
        exact (invariant.frontier actor).le_of_contiguous fun n _ bound => Or.inl bound
      · obtain ⟨op, stored, name, counter⟩ := (invariant.seen _ _).mp seen
        rcases keeps op ((stores op).mp stored) with kept | covered
        · exact absurd kept.1 (by rw [bare]; exact List.not_mem_nil)
        · rw [name, counter] at covered
          exact covered
    · rintro (installed | complete) op held
      · exact absurd installed other
      · have stored := (stores op).mpr held
        have seen := (invariant.seen _ _).mpr ⟨op, stored, rfl, rfl⟩
        obtain ⟨-, bound⟩ := invariant.greatest op.document.actorDeviceID
        exact Or.inr ((bound (Or.inr seen)).trans (complete _))

/-- **What rebasing loses.** For every reachable durable replica and every successful rebase, every
stored operation is still stored or covered afterwards exactly when the snapshot was already
installed or covers `maxCounters`; and in every run the vector of the durable replica never
decreases. -/
theorem rebase_keeps_iff {spaceID : String} {schema : Nat} {clock : Clock} {replay : Nat → Int}
    {start : DurableReplica} (opened : openDurableReplica P spaceID schema clock none replay = .ok start)
    (events : List DurableEvent) (reached : run (step P) start events = d) :
    (∀ env token snapshot result, (d.rebaseSnapshot P env token).1 = .ok result →
      P.verifySnapshot token = .ok snapshot →
      ((∀ op, d.Holds P op → (d.rebaseSnapshot P env token).2.Holds P op ∨
          op.document.counter ≤ snapshot.document.coverVector.get op.document.actorDeviceID) ↔
        d.contents.snapshot = some token ∨
          snapshot.document.coverVector.covers (d.fileReplica P).maxCounters = true)) ∧
      ∀ later actor, d.replica.vectorCopy.get actor ≤
        (run (step P) d later).replica.vectorCopy.get actor := by
  have sound := sound_run (sound_open opened) events
  have behind := behind_run (sound_open opened) (behind_open opened) events
  rw [reached] at sound behind
  refine ⟨fun env token snapshot result success read => rebaseSnapshot_keeps_iff sound success read,
    fun later actor => ?_⟩
  simpa [Replica.vectorCopy] using vector_le_run sound behind later actor

/-! ### An operation above a gap -/

/-- The first two writes of a device; the second has seen the first. -/
def firstWrite : SyncOp := .plain 1 1 ⟨5, 0⟩ "h" .set ∅

def secondWrite : SyncOp := .plain 1 2 ⟨7, 0⟩ "k" .set (.ofEntries [("a", 1)])

/-- What the device compacted between the two. -/
def middleSnapshot : SnapshotToken :=
  .signed (.plain 1 ⟨6, 0⟩ (.ofEntries [("a", 1)]) [firstWrite]) []

def lastSnapshot : SnapshotToken :=
  .signed (.plain 1 ⟨8, 0⟩ (.ofEntries [("a", 2)]) [firstWrite, secondWrite]) []

/-- A call on a working disk at a fixed time. -/
def calmEnvironment : Environment where
  replay _ := 10
  rebuild _ := 10
  wall _ := 10

def blankHandle : DurableReplica :=
  ⟨"space", 1, Clock.new 300000, none, emptyState "space" 1, .empty "space" 1 (Clock.new 300000)⟩

theorem open_blankHandle : openDurableReplica .plain "space" 1 (Clock.new 300000) none
    calmEnvironment.replay = .ok blankHandle := rfl

/-- A device that received the second write before the first. -/
def gapHandle : DurableReplica :=
  run (step .plain) blankHandle [.apply calmEnvironment (.signed secondWrite [])]

/-- **A rebase drops an operation above a gap**: the second write is stored, the snapshot covers
the first only, the rebase succeeds, and the second write is neither stored nor covered. -/
theorem rebase_drops_above_gap :
    openDurableReplica .plain "space" 1 (Clock.new 300000) none calmEnvironment.replay =
        .ok blankHandle ∧
      gapHandle = run (step .plain) blankHandle
        [.apply calmEnvironment (.signed secondWrite [])] ∧
      (gapHandle.rebaseSnapshot .plain calmEnvironment middleSnapshot).1 =
        .ok ((), ⟨"space", .ofEntries [("a", 1)]⟩) ∧
      .signed secondWrite [] ∈ gapHandle.contents.ops ∧
      .signed secondWrite [] ∉
        (gapHandle.rebaseSnapshot .plain calmEnvironment middleSnapshot).2.contents.ops ∧
      ¬ secondWrite.counter ≤ (VersionVector.ofEntries [("a", 1)]).get secondWrite.actorDeviceID :=
  ⟨open_blankHandle, rfl, by decide +kernel, by decide +kernel, by decide +kernel,
    by decide +kernel⟩

theorem reopened_holds_file_gap :
    (∃ r, load .plain gapHandle.spaceID gapHandle.schema gapHandle.contents = some r ∧
      r.Invariant .plain (baseOf .plain gapHandle.contents)) ∧
      ∀ later readings again,
        openDurableReplica .plain gapHandle.spaceID gapHandle.schema later gapHandle.file readings =
          .ok again →
        (∀ op, again.replica.Stores op ↔ gapHandle.Holds .plain op) ∧
        (∀ actor, gapHandle.replica.vectorCopy.get actor ≤ again.replica.vectorCopy.get actor) ∧
        (0 < (fileHLC .plain gapHandle.contents).physicalMS →
          fileHLC .plain gapHandle.contents ≤ again.clock.last) :=
  reopened_holds_file open_blankHandle [.apply calmEnvironment (.signed secondWrite [])] rfl

theorem rebase_keeps_when_covered :
    (∃ result, (gapHandle.rebaseSnapshot .plain calmEnvironment lastSnapshot).1 = .ok result) ∧
      ∀ op, gapHandle.Holds .plain op →
        (gapHandle.rebaseSnapshot .plain calmEnvironment lastSnapshot).2.Holds .plain op ∨
        op.document.counter ≤ (VersionVector.ofEntries [("a", 2)]).get op.document.actorDeviceID := by
  have success : (gapHandle.rebaseSnapshot .plain calmEnvironment lastSnapshot).1 =
      .ok ((), ⟨"space", .ofEntries [("a", 2)]⟩) := by decide +kernel
  obtain ⟨snapshot, read, cover⟩ : ∃ snapshot, Primitives.plain.verifySnapshot lastSnapshot =
      .ok snapshot ∧ snapshot.document.coverVector = .ofEntries [("a", 2)] :=
    ⟨⟨lastSnapshot, .plain 1 ⟨8, 0⟩ (.ofEntries [("a", 2)]) [firstWrite, secondWrite],
      [⟨.signed firstWrite [], firstWrite, [1, 0]⟩, ⟨.signed secondWrite [], secondWrite, [2, 0]⟩],
      []⟩, by decide +kernel, rfl⟩
  have keeps := (rebase_keeps_iff open_blankHandle _ rfl).1 calmEnvironment lastSnapshot snapshot _
    success read
  rw [cover] at keeps
  exact ⟨⟨_, success⟩, keeps.mpr (Or.inr (by decide))⟩

end DurableReplica

end Atterm.ConfigSync
