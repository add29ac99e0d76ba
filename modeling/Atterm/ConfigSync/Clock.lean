/-
**The hybrid logical clock.**

A `Clock` keeps the greatest timestamp it has issued or absorbed. The wall clock is not part of the
state: every operation that reads it takes the reading, in milliseconds, as an argument, so a run
may use any readings, in particular ones that move backwards.

* `lt_tick` — a local timestamp is above everything the clock has seen;
* `observe_spec` — an accepted remote timestamp is within the skew bound and ends strictly below
  the clock; a rejected one leaves the clock alone;
* `le_restore`, `restore_last_eq` — restoring only ever moves the clock up, and no further than the
  persisted value.
-/

import Mathlib

namespace Atterm.ConfigSync

/-- The errors of the package, each with the detail its text carries. -/
inductive SyncError where
  /-- `ErrClockSkew`: the remote timestamp, the wall reading and the limit. -/
  | clockSkew (remote wall limit : Int)
  | invalidTimestamp
  /-- `ErrInvalidOp`, with what was wrong. -/
  | invalidOp (what : String)
  | counterFork (actor : String) (counter : Nat)
  | counterRollback (actor : String) (got want : Nat)
  | wrongSpace
  | replicaNotEmpty
  | snapshotNotCovered
  | incompleteHistory
  /-- `ErrInvalidSnapshot`, with what was wrong. -/
  | invalidSnapshot (what : String)
  /-- `ErrInvalidEpochKey`, with what was wrong when the text names it. -/
  | invalidEpochKey (what : String)
  /-- The private key refused to sign. -/
  | signing
  /-- `ErrDurableStoreInvalid`, with what was wrong. -/
  | durableStoreInvalid (what : String)
  /-- A failure of the operating system while the store is read or replaced. -/
  | storage (what : String)
  | invalidAntiEntropy
  | antiEntropyOrder
  | antiEntropyLimit
deriving DecidableEq, Repr

/-- A hybrid logical clock value. -/
@[ext]
structure Timestamp where
  physicalMS : Int
  logical : Nat
deriving DecidableEq, Repr

/-- `math.MaxUint32`, the greatest logical counter. -/
def maxLogical : Nat := 2 ^ 32 - 1

def compareTimestamp (a b : Timestamp) : Ordering :=
  if a.physicalMS < b.physicalMS then .lt
  else if a.physicalMS > b.physicalMS then .gt
  else if a.logical < b.logical then .lt
  else if a.logical > b.logical then .gt
  else .eq

/-- One logical step, carrying into the physical part when the counter is exhausted. -/
def incrementLogical (ts : Timestamp) : Timestamp :=
  if ts.logical = maxLogical then ⟨ts.physicalMS + 1, 0⟩ else ⟨ts.physicalMS, ts.logical + 1⟩

/-! ### The order of timestamps -/

namespace Timestamp

def pair (ts : Timestamp) : ℤ ×ₗ ℕ := toLex (ts.physicalMS, ts.logical)

theorem pair_injective : Function.Injective pair := by
  intro first second same
  have fields := congrArg ofLex same
  simp only [pair, ofLex_toLex, Prod.mk.injEq] at fields
  exact Timestamp.ext fields.1 fields.2

/-- The order of `CompareTimestamp`: physical part first, then logical. -/
instance : LinearOrder Timestamp := LinearOrder.lift' pair pair_injective

theorem lt_iff (a b : Timestamp) :
    a < b ↔ a.physicalMS < b.physicalMS ∨ a.physicalMS = b.physicalMS ∧ a.logical < b.logical :=
  Prod.Lex.toLex_lt_toLex

theorem le_iff (a b : Timestamp) :
    a ≤ b ↔ a.physicalMS < b.physicalMS ∨ a.physicalMS = b.physicalMS ∧ a.logical ≤ b.logical :=
  Prod.Lex.toLex_le_toLex

theorem physicalMS_le_of_le {a b : Timestamp} (bound : a ≤ b) : a.physicalMS ≤ b.physicalMS := by
  rcases (le_iff a b).mp bound with less | ⟨same, -⟩
  · exact less.le
  · exact same.le

end Timestamp

theorem compareTimestamp_eq_gt_iff (a b : Timestamp) : compareTimestamp a b = .gt ↔ b < a := by
  rw [Timestamp.lt_iff]
  unfold compareTimestamp
  split_ifs <;> simp <;> omega

theorem compareTimestamp_eq_eq_iff (a b : Timestamp) : compareTimestamp a b = .eq ↔ a = b := by
  rw [Timestamp.ext_iff]
  unfold compareTimestamp
  split_ifs <;> simp <;> omega

theorem lt_incrementLogical (ts : Timestamp) : ts < incrementLogical ts := by
  rw [Timestamp.lt_iff]
  unfold incrementLogical
  split_ifs <;> simp

/-! ### The clock -/

/-- One HLC together with the bound it puts on timestamps received from other devices. -/
@[ext]
structure Clock where
  /-- `maxFutureSkew`, in milliseconds. -/
  maxFutureSkew : Int
  last : Timestamp
deriving DecidableEq, Repr

namespace Clock

/-- `NewClockWithSource`: a negative bound is read as zero. -/
def new (maxFutureSkew : Int) : Clock := ⟨max maxFutureSkew 0, ⟨0, 0⟩⟩

def tick (c : Clock) (wall : Int) : Timestamp × Clock :=
  let last := if wall > c.last.physicalMS then ⟨wall, 0⟩ else incrementLogical c.last
  (last, { c with last })

/-- The clock value that absorbs `remote` when the wall clock reads `wall`. -/
def absorbed (c : Clock) (wall : Int) (remote : Timestamp) : Timestamp :=
  let physical := max (max wall c.last.physicalMS) remote.physicalMS
  if physical = c.last.physicalMS ∧ physical = remote.physicalMS then
    incrementLogical ⟨physical, max c.last.logical remote.logical⟩
  else if physical = c.last.physicalMS then incrementLogical ⟨physical, c.last.logical⟩
  else if physical = remote.physicalMS then incrementLogical ⟨physical, remote.logical⟩
  else ⟨physical, 0⟩

/-- Validate and incorporate a timestamp received from another device. -/
def observe (c : Clock) (wall : Int) (remote : Timestamp) : Except SyncError Timestamp × Clock :=
  if remote.physicalMS ≤ 0 then (.error .invalidTimestamp, c)
  else if remote.physicalMS > wall + c.maxFutureSkew then
    (.error (.clockSkew remote.physicalMS wall c.maxFutureSkew), c)
  else
    let last := c.absorbed wall remote
    (.ok last, { c with last })

/-- Advance the clock from trusted durable local state, without a skew check. -/
def restore (c : Clock) (persisted : Timestamp) : Except SyncError Unit × Clock :=
  if persisted.physicalMS ≤ 0 then (.error .invalidTimestamp, c)
  else if compareTimestamp persisted c.last = .gt then (.ok (), { c with last := persisted })
  else (.ok (), c)

/-- The timestamps `Observe` lets in at a wall reading. -/
def Accepts (c : Clock) (wall : Int) (remote : Timestamp) : Prop :=
  0 < remote.physicalMS ∧ remote.physicalMS ≤ wall + c.maxFutureSkew

/-! ### What one clock step does -/

@[simp] theorem tick_maxFutureSkew (c : Clock) (wall : Int) :
    (c.tick wall).2.maxFutureSkew = c.maxFutureSkew := rfl

/-- **A local timestamp is above everything the clock has seen.** -/
theorem lt_tick (c : Clock) (wall : Int) : c.last < (c.tick wall).1 := by
  unfold tick
  split_ifs with ahead
  · exact (Timestamp.lt_iff _ _).mpr (Or.inl ahead)
  · exact lt_incrementLogical _

theorem last_lt_absorbed (c : Clock) (wall : Int) (remote : Timestamp) :
    c.last < c.absorbed wall remote := by
  have above : c.last.physicalMS ≤ max (max wall c.last.physicalMS) remote.physicalMS :=
    le_max_of_le_left (le_max_right _ _)
  unfold absorbed
  simp only
  split_ifs with both own theirs
  · refine lt_of_le_of_lt ?_ (lt_incrementLogical _)
    exact (Timestamp.le_iff _ _).mpr (Or.inr ⟨both.1.symm, le_max_left _ _⟩)
  · refine lt_of_le_of_lt ?_ (lt_incrementLogical _)
    exact (Timestamp.le_iff _ _).mpr (Or.inr ⟨own.symm, le_rfl⟩)
  · refine lt_of_le_of_lt ?_ (lt_incrementLogical _)
    exact (Timestamp.le_iff _ _).mpr (Or.inl (lt_of_le_of_ne above (Ne.symm own)))
  · exact (Timestamp.lt_iff _ _).mpr (Or.inl (lt_of_le_of_ne above (Ne.symm own)))

theorem remote_lt_absorbed (c : Clock) (wall : Int) (remote : Timestamp) :
    remote < c.absorbed wall remote := by
  have above : remote.physicalMS ≤ max (max wall c.last.physicalMS) remote.physicalMS :=
    le_max_right _ _
  unfold absorbed
  simp only
  split_ifs with both own theirs
  · refine lt_of_le_of_lt ?_ (lt_incrementLogical _)
    exact (Timestamp.le_iff _ _).mpr (Or.inr ⟨both.2.symm, le_max_right _ _⟩)
  · have behind : remote.physicalMS ≠ max (max wall c.last.physicalMS) remote.physicalMS :=
      fun same => both ⟨own, same.symm⟩
    refine lt_of_le_of_lt ?_ (lt_incrementLogical _)
    exact (Timestamp.le_iff _ _).mpr (Or.inl (lt_of_le_of_ne above behind))
  · refine lt_of_le_of_lt ?_ (lt_incrementLogical _)
    exact (Timestamp.le_iff _ _).mpr (Or.inr ⟨theirs.symm, le_rfl⟩)
  · exact (Timestamp.lt_iff _ _).mpr (Or.inl (lt_of_le_of_ne above (Ne.symm theirs)))

/-- **`Observe` either rejects and leaves the clock alone, or absorbs an accepted timestamp.** -/
theorem observe_spec (c : Clock) (wall : Int) (remote : Timestamp) :
    (¬ c.Accepts wall remote ∧ ∃ error, c.observe wall remote = (.error error, c)) ∨
      (c.Accepts wall remote ∧ c.observe wall remote =
        (.ok (c.absorbed wall remote), { c with last := c.absorbed wall remote })) := by
  unfold observe Accepts
  split_ifs with invalid skewed
  · exact Or.inl ⟨by omega, _, rfl⟩
  · exact Or.inl ⟨by omega, _, rfl⟩
  · exact Or.inr ⟨by omega, rfl⟩

theorem le_restore (c : Clock) (persisted : Timestamp) : c.last ≤ (c.restore persisted).2.last := by
  unfold restore
  split_ifs with invalid above
  · exact le_rfl
  · exact ((compareTimestamp_eq_gt_iff _ _).mp above).le
  · exact le_rfl

theorem persisted_le_restore (c : Clock) {persisted : Timestamp} (valid : 0 < persisted.physicalMS) :
    persisted ≤ (c.restore persisted).2.last := by
  unfold restore
  rw [if_neg (by omega)]
  split_ifs with above
  · exact le_rfl
  · rw [compareTimestamp_eq_gt_iff] at above
    exact not_lt.mp above

theorem restore_of_le (c : Clock) {persisted : Timestamp} (passed : persisted ≤ c.last) :
    (c.restore persisted).2 = c := by
  unfold restore
  split_ifs with invalid above
  · rfl
  · exact absurd ((compareTimestamp_eq_gt_iff _ _).mp above) (not_lt.mpr passed)
  · rfl

theorem restore_last_eq (c : Clock) (persisted : Timestamp) :
    (c.restore persisted).2.last = c.last ∨ (c.restore persisted).2.last = persisted := by
  unfold restore
  split_ifs
  · exact Or.inl rfl
  · exact Or.inr rfl
  · exact Or.inl rfl

@[simp] theorem restore_maxFutureSkew (c : Clock) (persisted : Timestamp) :
    (c.restore persisted).2.maxFutureSkew = c.maxFutureSkew := by
  unfold restore
  split_ifs <;> rfl

theorem restore_ok (c : Clock) {persisted : Timestamp} (valid : 0 < persisted.physicalMS) :
    (c.restore persisted).1 = .ok () := by
  unfold restore
  rw [if_neg (by omega)]
  split_ifs <;> rfl

/-! ### Runs of a clock -/

/-- The calls on a clock, each with the reading of the wall clock. -/
inductive Call where
  | tick (wall : Int)
  | observe (wall : Int) (remote : Timestamp)
  | restore (persisted : Timestamp)

def call (c : Clock) : Call → Clock
  | .tick wall => (c.tick wall).2
  | .observe wall remote => (c.observe wall remote).2
  | .restore persisted => (c.restore persisted).2

def met (c : Clock) : Call → List Timestamp
  | .tick wall => [(c.tick wall).1]
  | .observe wall remote =>
    match (c.observe wall remote).1 with
    | .ok absorbed => [remote, absorbed]
    | .error _ => []
  | .restore persisted =>
    match (c.restore persisted).1 with
    | .ok _ => [persisted]
    | .error _ => []

end Clock

end Atterm.ConfigSync
