/-
**The clock of a durable replica.**

The clock a handle shares with its copies has always reached every timestamp of the file
(`CaughtUp`), so that replaying the file moves it only after a restart.

* `restored_last` — what a replay does to the clock;
* `caughtUp_open`, `caughtUp_step` — every reachable clock has caught up with its file;
* `mutate_clock` — a call leaves the clock where its work on the loaded file leaves it.
-/

import Atterm.ConfigSync.DurableRuns

namespace Atterm.ConfigSync

open Atterm.Foundation

section Steps

variable {P : Primitives}

theorem fileHLC_keep {state : DurableState} {op : VerifiedOp}
    (verified : P.verifyOp op.token = .ok op) :
    fileHLC P (state.keep op) = max (fileHLC P state) op.document.hlc := by
  rw [fileHLC, DurableState.keep, latestHLC_append, latestHLC, verified]
  rfl

theorem fileHLC_based {state : DurableState} {r : Replica} {token : SnapshotToken}
    {snapshot : VerifiedSnapshot} (verified : P.verifySnapshot token = .ok snapshot) :
    fileHLC P (state.based r token) = snapshot.document.createdHLC := by
  rw [fileHLC, DurableState.based, snapshotHLC, verified]
  rfl

/-- The clock has reached every timestamp of the file. -/
def Copy.CaughtUp (P : Primitives) (c : Copy) : Prop := fileHLC P c.state ≤ c.replica.clock.last

/-- **Each step keeps the clock ahead of the file, and moves it only up.** -/
theorem Progress.caughtUp {inputs : Inputs} {c next : Copy} {n : ℕ}
    (step : Progress P inputs n c next) (caught : c.CaughtUp P) :
    next.CaughtUp P ∧ c.replica.clock.last ≤ next.replica.clock.last ∧
      next.replica.clock.maxFutureSkew = c.replica.clock.maxFutureSkew := by
  unfold Copy.CaughtUp at *
  cases step with
  | tick r s wall read =>
    have later : r.clock.last ≤ (r.ticked wall).clock.last := (r.clock.lt_tick wall).le
    exact ⟨caught.trans later, later, rfl⟩
  | deliver r s wall op read given fresh =>
    have later : r.clock.last < (r.stored wall op).clock.last := by
      rw [Replica.stored, Replica.store_clock]
      exact r.clock.last_lt_absorbed wall op.document.hlc
    have above : op.document.hlc < (r.stored wall op).clock.last := by
      rw [Replica.stored, Replica.store_clock]
      exact r.clock.remote_lt_absorbed wall op.document.hlc
    rw [fileHLC_keep fresh.verified]
    exact ⟨max_le (caught.trans later.le) above.le, later.le, by simp [Replica.stored, Replica.absorb]⟩
  | write r s walls identity op tick apply signer writes written fresh =>
    have ticked : r.clock.last < (r.ticked walls.tick).clock.last := r.clock.lt_tick walls.tick
    have later : (r.ticked walls.tick).clock.last <
        ((r.ticked walls.tick).stored walls.apply op).clock.last := by
      rw [Replica.stored, Replica.store_clock]
      exact (r.ticked walls.tick).clock.last_lt_absorbed walls.apply op.document.hlc
    have above : op.document.hlc < ((r.ticked walls.tick).stored walls.apply op).clock.last := by
      rw [Replica.stored, Replica.store_clock]
      exact (r.ticked walls.tick).clock.remote_lt_absorbed walls.apply op.document.hlc
    rw [fileHLC_keep fresh.verified]
    have total := (ticked.trans later).le
    exact ⟨max_le (caught.trans total) above.le, total,
      by simp [Replica.stored, Replica.absorb, Replica.ticked]⟩
  | bootstrapped r s => exact ⟨caught, le_rfl, rfl⟩
  | adopt r s wall token snapshot read given keeps unbased bare installable =>
    refine ⟨?_, (r.clock.last_lt_absorbed wall snapshot.document.createdHLC).le, rfl⟩
    rw [fileHLC, snapshotHLC, installable.read, bare]
    exact (r.clock.remote_lt_absorbed wall snapshot.document.createdHLC).le
  | rebase r s token snapshot given keeps verified space schema covers =>
    have positive := (Primitives.verifySnapshot_ok verified).2.2.created
    rw [fileHLC_based verified]
    exact ⟨r.clock.persisted_le_restore positive, r.clock.le_restore _,
      r.clock.restore_maxFutureSkew _⟩
  | compact r s wall identity entropy signature snapshot read signer keeps complete known verified =>
    obtain ⟨-, ⟨mark, same⟩, -⟩ := Primitives.verifySnapshot_ok verified
    have document := (SnapshotToken.signed.inj same).1
    refine ⟨?_, (r.clock.lt_tick wall).le, rfl⟩
    rw [fileHLC_based verified, ← document]
    exact le_rfl

theorem Steps.caughtUp {inputs : Inputs} {c next : Copy} {n : ℕ}
    (steps : Steps P inputs n c next) (caught : c.CaughtUp P) :
    next.CaughtUp P ∧ c.replica.clock.last ≤ next.replica.clock.last ∧
      next.replica.clock.maxFutureSkew = c.replica.clock.maxFutureSkew := by
  induction steps with
  | refl => exact ⟨caught, le_rfl, rfl⟩
  | tail before step ih =>
    obtain ⟨middle, up, skew⟩ := ih caught
    obtain ⟨after, further, same⟩ := step.caughtUp middle
    exact ⟨after, up.trans further, same.trans skew⟩

end Steps

/-! ### The clock after a replay -/

section Restored

variable {P : Primitives} {clock : Clock} {state : DurableState}

theorem latestHLC_eq_or_pos {hlc : Timestamp} (initial : hlc = ⟨0, 0⟩ ∨ 0 < hlc.physicalMS)
    (tokens : List OpToken) :
    latestHLC P hlc tokens = ⟨0, 0⟩ ∨ 0 < (latestHLC P hlc tokens).physicalMS := by
  induction tokens generalizing hlc with
  | nil => exact initial
  | cons token rest ih =>
    rw [latestHLC]
    split
    · exact ih initial
    · rename_i op verified
      have positive := (P.genuine_of_verify verified).1.valid.hlc
      refine ih (Or.inr (lt_of_lt_of_le positive ?_))
      exact Timestamp.physicalMS_le_of_le (le_max_right _ _)

theorem fileHLC_eq_or_pos (P : Primitives) (state : DurableState) :
    fileHLC P state = ⟨0, 0⟩ ∨ 0 < (fileHLC P state).physicalMS := by
  refine latestHLC_eq_or_pos ?_ state.ops
  unfold snapshotHLC
  split
  · exact Or.inl rfl
  · split
    · exact Or.inl rfl
    · rename_i verified
      exact Or.inr (Primitives.verifySnapshot_ok verified).2.2.created

theorem zero_le_fileHLC (P : Primitives) (state : DurableState) : ⟨0, 0⟩ ≤ fileHLC P state := by
  rcases fileHLC_eq_or_pos P state with zero | positive
  · rw [zero]
  · exact (Timestamp.le_iff _ _).mpr (Or.inl positive)

/-- **Replaying a file moves the clock up to the timestamps of the file and no further.** -/
theorem restored_last (low : ⟨0, 0⟩ ≤ clock.last) :
    (restored P clock state).last = max clock.last (fileHLC P state) := by
  unfold restored
  split_ifs with positive
  · unfold Clock.restore
    rw [if_neg (by omega)]
    split_ifs with above
    · exact (max_eq_right ((compareTimestamp_eq_gt_iff _ _).mp above).le).symm
    · rw [compareTimestamp_eq_gt_iff] at above
      exact (max_eq_left (not_lt.mp above)).symm
  · rcases fileHLC_eq_or_pos P state with zero | more
    · rw [zero, max_eq_left low]
    · exact absurd more positive

@[simp] theorem restored_maxFutureSkew :
    (restored P clock state).maxFutureSkew = clock.maxFutureSkew := by
  unfold restored
  split_ifs
  · exact clock.restore_maxFutureSkew _
  · rfl

theorem restored_of_le (caught : fileHLC P state ≤ clock.last) :
    restored P clock state = clock := by
  refine Clock.ext restored_maxFutureSkew ?_
  rw [restored_last ((zero_le_fileHLC P state).trans caught), max_eq_left caught]

end Restored

/-! ### The clock along a run -/

namespace DurableReplica

variable {P : Primitives} {d : DurableReplica}

/-- The clock has reached every timestamp of the file. -/
def CaughtUp (P : Primitives) (d : DurableReplica) : Prop := fileHLC P d.contents ≤ d.clock.last

theorem Start.caughtUp {r : Replica} (start : Start P d d.clock r) (caught : CaughtUp P d) :
    r.clock = d.clock ∧ (Copy.mk r d.contents).CaughtUp P := by
  have same : r.clock = d.clock := start.clock.trans (restored_of_le caught)
  refine ⟨same, ?_⟩
  rw [Copy.CaughtUp, same]
  exact caught

theorem caughtUp_step (sound : Sound P d) (caught : CaughtUp P d) (event : DurableEvent) :
    CaughtUp P (d.step P event) ∧
      (d.step P event).clock.maxFutureSkew = d.clock.maxFutureSkew := by
  have effect := step_effect sound event
  generalize d.step P event = after at effect ⊢
  cases effect with
  | idle => exact ⟨caught, rfl⟩
  | worked r last after start steps commit =>
    obtain ⟨same, copy⟩ := start.caughtUp caught
    obtain ⟨filed, later, skew⟩ := steps.caughtUp copy
    rw [same] at later skew
    cases commit with
    | dropped => exact ⟨caught.trans later, skew⟩
    | unsynced => exact ⟨filed, skew⟩
    | kept => exact ⟨filed, skew⟩
    | clean same =>
      subst same
      exact ⟨filed, skew⟩
  | reopened r start =>
    refine ⟨?_, ?_⟩
    · change fileHLC P d.contents ≤ r.clock.last
      rw [start.clock, restored_last le_rfl]
      exact le_max_right _ _
    · change r.clock.maxFutureSkew = d.clock.maxFutureSkew
      rw [start.clock, restored_maxFutureSkew]

theorem caughtUp_open {spaceID : String} {schema : Nat} {skew : Int} {replay : Nat → Int}
    (opened : openDurableReplica P spaceID schema (.new skew) none replay = .ok d) :
    CaughtUp P d ∧ d.clock = .new skew := by
  obtain ⟨-, opened⟩ := guard_ok opened
  obtain ⟨state, read, opened⟩ := bind_ok opened
  cases read
  rcases buildReplica_spec P spaceID schema (.new skew) replay (emptyState spaceID schema) with
    ⟨error, failed⟩ | ⟨r, built, -, clock⟩
  · rw [failed] at opened
    cases opened
  · rw [built] at opened
    cases opened
    have still : restored P (.new skew) (emptyState spaceID schema) = .new skew :=
      restored_of_le le_rfl
    rw [still] at clock
    refine ⟨?_, clock⟩
    change fileHLC P (emptyState spaceID schema) ≤ r.clock.last
    rw [clock]
    exact le_rfl

/-- **A call leaves the clock where its work on the loaded file leaves it.** -/
theorem mutate_clock {α : Type} (sound : Sound P d) (env : Environment) (work : Work α) :
    (d.mutate P env work).2.clock = d.clock ∨
      ∃ r, Start P d d.clock r ∧
        (d.mutate P env work).2.clock = (work r d.contents).2.clock := by
  unfold mutate
  split_ifs with inaccessible
  · exact Or.inl rfl
  · rw [readState_contents sound.header]
    simp only
    rcases buildReplica_spec P d.spaceID d.schema d.clock env.replay d.contents with
      ⟨error, failed⟩ | ⟨r, built, loaded, clock⟩
    · rw [failed]
      exact Or.inl rfl
    · rw [built]
      simp only
      refine Or.inr ⟨r, ⟨loaded, clock⟩, ?_⟩
      cases ran : work r d.contents with
      | mk result after =>
        cases result with
        | error error => rfl
        | ok value =>
          simp only
          split_ifs
          · rfl
          · split <;> rfl

end DurableReplica

end Atterm.ConfigSync
