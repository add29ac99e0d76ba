/-
**The future-skew bound of the durable clock.**

`Apply` and `AdoptSnapshot` hand a received timestamp to `Observe`, which refuses one beyond the
wall clock plus the skew bound. `RebaseSnapshot` rebuilds the replica from the received snapshot and
restores the clock from it, without that check.

* `Progress.within` — each step other than a rebase moves the clock by at most one logical step
  beyond the bound;
* `clock_within_skew` — what such a run absorbs, and how far its clock gets;
* `rebase_absorbs_future` — a rebase that moves the clock beyond the bound.
-/

import Atterm.ConfigSync.DurableClock
import Atterm.ConfigSync.Rebase

namespace Atterm.ConfigSync

open Atterm.Foundation

/-! ### The bound of a timestamp -/

/-- At most the bound, or less than `n` logical steps into the next millisecond. -/
def Timestamp.Within (bound : Int) (n : ℕ) (ts : Timestamp) : Prop :=
  ts.physicalMS ≤ bound ∨ ts.physicalMS = bound + 1 ∧ ts.logical < n

namespace Timestamp

variable {bound : Int} {n : ℕ} {ts : Timestamp}

theorem Within.of_le {other : Timestamp} (within : ts.Within bound n) (below : other ≤ ts) :
    other.Within bound n := by
  unfold Within at *
  rcases (le_iff _ _).mp below with less | ⟨same, logical⟩
  · rcases within with low | ⟨edge, -⟩
    · exact Or.inl (by omega)
    · exact Or.inl (by omega)
  · rcases within with low | ⟨edge, count⟩
    · exact Or.inl (by omega)
    · exact Or.inr ⟨by omega, by omega⟩

theorem Within.mono {m : ℕ} {larger : Int} (within : ts.Within bound n) (wider : bound ≤ larger)
    (more : n ≤ m) : ts.Within larger m := by
  unfold Within at *
  rcases within with low | ⟨edge, count⟩
  · exact Or.inl (by omega)
  · by_cases same : bound = larger
    · exact Or.inr ⟨by omega, by omega⟩
    · exact Or.inl (by omega)

theorem Within.increment (within : ts.Within bound n) (room : n < 2 ^ 32) :
    (incrementLogical ts).Within bound (n + 1) := by
  unfold Within at *
  unfold incrementLogical maxLogical
  rcases within with low | ⟨edge, count⟩
  · split_ifs with full
    · by_cases same : ts.physicalMS = bound
      · exact Or.inr ⟨by simp [same], Nat.succ_pos n⟩
      · exact Or.inl (by simp only; omega)
    · exact Or.inl low
  · rw [if_neg (by omega)]
    exact Or.inr ⟨edge, by simp only; omega⟩

theorem Within.physicalMS_le (within : ts.Within bound n) : ts.physicalMS ≤ bound + 1 := by
  unfold Within at within
  omega

end Timestamp

namespace Clock

variable {c : Clock} {bound wall : Int} {n : ℕ}

theorem tick_within (within : c.last.Within bound n) (read : wall ≤ bound) (room : n < 2 ^ 32) :
    (c.tick wall).1.Within bound (n + 1) := by
  unfold tick
  simp only
  split_ifs with ahead
  · exact Or.inl read
  · exact within.increment room

theorem absorbed_within {remote : Timestamp} (within : c.last.Within bound n) (read : wall ≤ bound)
    (accepted : remote.physicalMS ≤ bound) (room : n < 2 ^ 32) :
    (c.absorbed wall remote).Within bound (n + 1) := by
  -- a timestamp of the received millisecond is within the bound whatever its logical part
  have low : ∀ logical, (incrementLogical ⟨remote.physicalMS, logical⟩).Within bound (n + 1) :=
    fun logical => Timestamp.Within.increment (Or.inl accepted) room
  unfold absorbed
  simp only
  split_ifs with both own theirs
  · rw [both.2]
    exact low _
  · rw [own]
    exact within.increment room
  · rw [theirs]
    exact low _
  · refine Or.inl ?_
    simp only
    omega

end Clock

/-! ### The bound along a run -/

/-- The bound lets in what `Observe` lets in at these wall readings. -/
def Inputs.Bounded (inputs : Inputs) (skew bound : Int) : Prop :=
  ∀ wall ∈ inputs.readings, wall + skew ≤ bound

section Steps

variable {P : Primitives} {inputs : Inputs} {c next : Copy} {m n : ℕ} {bound : Int}

/-- **A step other than a rebase moves the clock at most one logical step per clock call.** -/
theorem Progress.within (step : Progress P inputs m c next) (unbased : inputs.bases = [])
    (skew : 0 ≤ c.replica.clock.maxFutureSkew)
    (read : inputs.Bounded c.replica.clock.maxFutureSkew bound)
    (within : c.replica.clock.last.Within bound n) (room : n + m ≤ 2 ^ 32) :
    next.replica.clock.last.Within bound (n + m) := by
  have low : ∀ wall ∈ inputs.readings, wall ≤ bound := by
    intro wall member
    have accepted := read wall member
    omega
  cases step with
  | tick r s wall member => exact Clock.tick_within within (low wall member) (by omega)
  | deliver r s wall op member given fresh =>
    rw [Replica.stored, Replica.store_clock]
    exact Clock.absorbed_within within (low wall member)
      (fresh.accepted.2.trans (read wall member)) (by omega)
  | write r s walls identity op tick apply signer writes written fresh =>
    have ticked : (r.ticked walls.tick).clock.last.Within bound (n + 1) :=
      Clock.tick_within within (low _ tick) (by omega)
    rw [Replica.stored, Replica.store_clock]
    exact Clock.absorbed_within ticked (low _ apply)
      (fresh.accepted.2.trans (read _ apply)) (by omega)
  | bootstrapped r s => exact within
  | adopt r s wall token snapshot member given keeps unbased bare installable =>
    exact Clock.absorbed_within within (low wall member)
      (installable.accepted.2.trans (read wall member)) (by omega)
  | rebase r s token snapshot given keeps verified space schema covers =>
    rw [unbased] at given
    cases given
  | compact r s wall identity entropy signature snapshot member signer keeps complete known verified =>
    exact Clock.tick_within within (low wall member) (by omega)

theorem Steps.within (steps : Steps P inputs m c next) (unbased : inputs.bases = [])
    (skew : 0 ≤ c.replica.clock.maxFutureSkew) (caught : c.CaughtUp P)
    (read : inputs.Bounded c.replica.clock.maxFutureSkew bound)
    (within : c.replica.clock.last.Within bound n) (room : n + m ≤ 2 ^ 32) :
    next.replica.clock.last.Within bound (n + m) := by
  induction steps with
  | refl => exact within.mono le_rfl (by omega)
  | tail before step ih =>
    obtain ⟨-, -, same⟩ := before.caughtUp caught
    rw [← Nat.add_assoc]
    refine step.within unbased ?_ ?_ (ih skew caught read within (by omega)) (by omega)
    · rw [same]
      exact skew
    · rw [same]
      exact read

end Steps

/-- The timestamp an event receives from the network, with the wall reading at that time. -/
def DurableEvent.received (P : Primitives) :
    DurableEvent → Option (Int × Timestamp)
  | .apply env token =>
    (P.verifyOp token).toOption.map fun op => (env.wall 0, op.document.hlc)
  | .adoptSnapshot env token =>
    (P.verifySnapshot token).toOption.map fun snapshot =>
      (env.wall 0, snapshot.document.createdHLC)
  | .rebaseSnapshot env token =>
    (P.verifySnapshot token).toOption.map fun snapshot =>
      (env.wall 0, snapshot.document.createdHLC)
  | _ => none

namespace DurableReplica

variable {P : Primitives} {d : DurableReplica}

/-- The rebase gets past its checks: the snapshot is another one, of this space and schema, and
covers the vector of the file. -/
structure Rebases (P : Primitives) (d : DurableReplica) (token : SnapshotToken)
    (snapshot : VerifiedSnapshot) : Prop where
  read : P.verifySnapshot token = .ok snapshot
  other : d.contents.snapshot ≠ some token
  space : snapshot.document.spaceID = d.spaceID
  schema : snapshot.document.schemaVersion = d.schema
  covers : snapshot.document.coverVector.covers (d.fileReplica P).vectorCopy = true

/-- A rebase that gets past its checks has a snapshot whose creation time the clock has passed or
that `Observe` would let in. -/
def Timely (P : Primitives) (d : DurableReplica) : DurableEvent → Prop
  | .rebaseSnapshot env token => ∀ snapshot, d.Rebases P token snapshot →
      snapshot.document.createdHLC ≤ d.clock.last ∨
        snapshot.document.createdHLC.physicalMS ≤ env.wall 0 + d.clock.maxFutureSkew
  | _ => True

theorem rebaseSnapshot_clock (sound : Sound P d) (caught : CaughtUp P d) (env : Environment)
    (token : SnapshotToken) :
    (d.rebaseSnapshot P env token).2.clock = d.clock ∨
      ∃ snapshot, d.Rebases P token snapshot ∧ (d.rebaseSnapshot P env token).2.clock =
        (d.clock.restore snapshot.document.createdHLC).2 := by
  rcases mutate_clock sound env (rebaseSnapshotWork P env token) with same | ⟨r, start, moved⟩
  · exact Or.inl same
  · obtain ⟨still, -⟩ := start.caughtUp caught
    obtain ⟨space, schema⟩ := load_header start.loaded
    have sameSpace : r.spaceID = d.spaceID := space
    have sameSchema : r.supportedSchemaVersion = d.schema := schema
    have file : d.fileReplica P = r.unclocked := by
      rw [fileReplica, start.loaded]
      rfl
    rw [rebaseSnapshot, moved]
    unfold rebaseSnapshotWork
    split_ifs with installed
    · exact Or.inl still
    · split
      · exact Or.inl still
      · rename_i snapshot read
        split_ifs with foreign uncovered
        · exact Or.inl still
        · exact Or.inl still
        · push Not at foreign
          rcases rebaseOn_cases P env token r d.contents with
            ⟨reason, failed⟩ | ⟨verified, accepted, -, -, done⟩
          · rw [failed]
            exact Or.inl still
          · rw [read] at accepted
            cases accepted
            refine Or.inr ⟨snapshot, ⟨read, installed, foreign.1.trans sameSpace,
              foreign.2.trans sameSchema, ?_⟩, ?_⟩
            · have covered : snapshot.document.coverVector.covers r.vectorCopy = true := by
                simpa using uncovered
              rw [file]
              exact covered
            · rw [done, ← still]
              rfl

/-- The clock steps of a run: the clock calls of the events that move the clock. -/
def clockSteps (P : Primitives) : DurableReplica → List DurableEvent → ℕ
  | _, [] => 0
  | d, event :: rest =>
    (if (d.step P event).clock = d.clock then 0 else event.clockCalls) +
      clockSteps P (d.step P event) rest

theorem within_step_of_unbased (sound : Sound P d) (caught : CaughtUp P d) {event : DurableEvent}
    (unbased : event.inputs.bases = []) (skew : 0 ≤ d.clock.maxFutureSkew) {bound : Int} {n : ℕ}
    (read : event.inputs.Bounded d.clock.maxFutureSkew bound)
    (within : d.clock.last.Within bound n) (room : n + event.clockCalls ≤ 2 ^ 32) :
    (d.step P event).clock.last.Within bound (n + event.clockCalls) := by
  have effect := step_effect sound event
  generalize d.step P event = after at effect ⊢
  cases effect with
  | idle => exact within.mono le_rfl (by omega)
  | worked r last after start steps commit =>
    obtain ⟨same, copy⟩ := start.caughtUp caught
    have moved : last.replica.clock.last.Within bound (n + event.clockCalls) := by
      rw [← same] at skew read within
      exact steps.within unbased skew copy read within room
    cases commit <;> exact moved
  | reopened r start =>
    have back : r.clock.last ≤ d.clock.last := by
      rw [start.clock, restored_last le_rfl, max_eq_right (zero_le_fileHLC P d.contents)]
      exact caught
    exact (within.of_le back).mono le_rfl (by omega)

theorem within_step (sound : Sound P d) (caught : CaughtUp P d) {event : DurableEvent}
    (timely : d.Timely P event) (skew : 0 ≤ d.clock.maxFutureSkew) {bound : Int} {n : ℕ}
    (read : event.inputs.Bounded d.clock.maxFutureSkew bound)
    (within : d.clock.last.Within bound n) (room : n + event.clockCalls ≤ 2 ^ 32) :
    (d.step P event).clock.last.Within bound (n + event.clockCalls) := by
  cases event with
  | rebaseSnapshot env token =>
    rcases rebaseSnapshot_clock sound caught env token with same | ⟨snapshot, rebases, moved⟩
    · rw [step, same]
      exact within
    · rw [step, moved]
      rcases d.clock.restore_last_eq snapshot.document.createdHLC with still | replaced
      · rw [still]
        exact within
      · rw [replaced]
        rcases timely snapshot rebases with passed | accepted
        · exact within.of_le passed
        · exact Or.inl (accepted.trans (read _ (by simp [DurableEvent.inputs])))
  | _ => exact within_step_of_unbased sound caught rfl skew read within room

/-- **A run whose rebases are timely leaves the bound by less than its clock steps.** -/
theorem within_run (sound : Sound P d) (caught : CaughtUp P d) {events : List DurableEvent}
    (timely : Meets (step P) (Timely P) d events) {skew : Int} (kept : d.clock.maxFutureSkew = skew)
    (natural : 0 ≤ skew) {bound : Int} {n : ℕ} (read : ∀ event ∈ events, event.inputs.Bounded skew bound)
    (within : d.clock.last.Within bound n) (room : n + clockSteps P d events ≤ 2 ^ 32) :
    (run (step P) d events).clock.last.Within bound (n + clockSteps P d events) := by
  induction events generalizing d n with
  | nil => exact within
  | cons event rest ih =>
    obtain ⟨first, later⟩ := timely
    obtain ⟨next, same⟩ := caughtUp_step sound caught event
    have here := read event List.mem_cons_self
    have there : ∀ other ∈ rest, other.inputs.Bounded skew bound :=
      fun other member => read other (List.mem_cons_of_mem _ member)
    rw [clockSteps] at room ⊢
    rw [← Nat.add_assoc] at room ⊢
    refine ih (sound_step sound event) next later (same.trans kept) there ?_ room
    split_ifs at room ⊢ with still
    · rw [still]
      exact within
    · subst kept
      exact within_step sound caught first natural here within (by omega)

/-- **A timely event that receives a timestamp beyond the bound leaves the clock alone.** -/
theorem step_clock_of_future (sound : Sound P d) (caught : CaughtUp P d) {event : DurableEvent}
    (timely : d.Timely P event) {wall : Int} {ts : Timestamp}
    (received : event.received P = some (wall, ts))
    (future : wall + d.clock.maxFutureSkew < ts.physicalMS) :
    (d.step P event).clock = d.clock := by
  cases event with
  | apply env token =>
    rw [DurableEvent.received] at received
    cases read : P.verifyOp token with
    | error error => simp [read, Except.toOption] at received
    | ok op =>
      simp only [read, Except.toOption, Option.map_some, Option.some.injEq,
        Prod.mk.injEq] at received
      obtain ⟨rfl, rfl⟩ := received
      rcases mutate_clock sound env (applyWork P env token) with same | ⟨r, start, moved⟩
      · exact same
      · obtain ⟨still, -⟩ := start.caughtUp caught
        rw [step, apply, moved, applyWork]
        rcases Replica.apply_cases P r (env.wall 0) token with
          ⟨reason, same⟩ | ⟨known, result, -, -, -, unstored, same⟩ | ⟨known, fresh, -⟩
        · rw [same]
          exact still
        · rw [same]
          simp only [unstored]
          exact still
        · -- `Observe` would have refused it
          have agree := fresh.verified
          rw [read] at agree
          cases agree
          have accepted := fresh.accepted.2
          rw [still] at accepted
          omega
  | adoptSnapshot env token =>
    rw [DurableEvent.received] at received
    cases read : P.verifySnapshot token with
    | error error => simp [read, Except.toOption] at received
    | ok snapshot =>
      simp only [read, Except.toOption, Option.map_some, Option.some.injEq,
        Prod.mk.injEq] at received
      obtain ⟨rfl, rfl⟩ := received
      rcases mutate_clock sound env (adoptSnapshotWork P env token) with same | ⟨r, start, moved⟩
      · exact same
      · obtain ⟨still, -⟩ := start.caughtUp caught
        rw [step, adoptSnapshot, moved, adoptSnapshotWork]
        split_ifs
        · exact still
        · exact still
        · rcases r.installSnapshot_cases P (env.wall 0) token with
            ⟨reason, same⟩ | ⟨known, installable, -⟩
          · rw [same]
            exact still
          · have agree := installable.read
            rw [read] at agree
            cases agree
            have accepted := installable.accepted.2
            rw [still] at accepted
            omega
  | rebaseSnapshot env token =>
    rw [DurableEvent.received] at received
    rcases rebaseSnapshot_clock sound caught env token with same | ⟨snapshot, rebases, moved⟩
    · exact same
    · rw [rebases.read] at received
      simp only [Except.toOption, Option.map_some, Option.some.injEq, Prod.mk.injEq] at received
      obtain ⟨rfl, rfl⟩ := received
      rcases timely snapshot rebases with passed | accepted
      · rw [step, moved]
        exact d.clock.restore_of_le passed
      · omega
  | _ => cases received

/-- The largest wall reading of a run, counted from the epoch. -/
def largestReading (events : List DurableEvent) : Int :=
  (events.flatMap fun event => event.inputs.readings).foldl max 0

theorem le_foldl_max {readings : List Int} {first wall : Int}
    (member : wall = first ∨ wall ∈ readings) : wall ≤ readings.foldl max first := by
  induction readings generalizing first wall with
  | nil =>
    rcases member with rfl | member
    · exact le_rfl
    · cases member
  | cons reading rest ih =>
    rw [List.foldl_cons]
    have start : max first reading ≤ rest.foldl max (max first reading) := ih (Or.inl rfl)
    rcases member with rfl | member
    · exact (le_max_left _ _).trans start
    · rcases List.mem_cons.mp member with rfl | later
      · exact (le_max_right _ _).trans start
      · exact ih (Or.inr later)

theorem bounded_largestReading (events : List DurableEvent) (skew : Int) :
    ∀ event ∈ events, event.inputs.Bounded skew (largestReading events + skew) := by
  intro event member wall read
  have bound : wall ≤ largestReading events :=
    le_foldl_max (Or.inr (List.mem_flatMap.mpr ⟨event, member, read⟩))
  omega

/-- **The future-skew bound.** In every run whose rebases are timely, an event that receives a
timestamp beyond the wall clock plus the skew bound leaves the clock alone, and within fewer than
`2 ^ 32` clock steps the clock stays within one millisecond of the largest reading plus the skew
bound. -/
theorem clock_within_skew {spaceID : String} {schema : Nat} {skew : Int} {replay : Nat → Int}
    (opened : openDurableReplica P spaceID schema (.new skew) none replay = .ok d)
    (events : List DurableEvent) (timely : Meets (step P) (Timely P) d events) :
    (∀ earlier event later, events = earlier ++ event :: later → ∀ wall ts,
        event.received P = some (wall, ts) → wall + max skew 0 < ts.physicalMS →
        ((run (step P) d earlier).step P event).clock = (run (step P) d earlier).clock) ∧
      (clockSteps P d events < 2 ^ 32 →
        (run (step P) d events).clock.last.physicalMS ≤
          largestReading events + max skew 0 + 1) := by
  have sound := sound_open opened
  obtain ⟨caught, clock⟩ := caughtUp_open opened
  have kept : d.clock.maxFutureSkew = max skew 0 := by
    rw [clock]
    rfl
  refine ⟨?_, fun room => ?_⟩
  · intro earlier event later split wall ts received future
    rw [split, meets_append] at timely
    have reached : Sound P (run (step P) d earlier) ∧ CaughtUp P (run (step P) d earlier) ∧
        (run (step P) d earlier).clock.maxFutureSkew = max skew 0 := by
      refine run_invariant (fun d => Sound P d ∧ CaughtUp P d ∧
        d.clock.maxFutureSkew = max skew 0) ?_ ⟨sound, caught, kept⟩ earlier
      rintro d event ⟨sound, caught, kept⟩
      obtain ⟨next, same⟩ := caughtUp_step sound caught event
      exact ⟨sound_step sound event, next, same.trans kept⟩
    obtain ⟨soundThen, caughtThen, skewThen⟩ := reached
    exact step_clock_of_future soundThen caughtThen timely.2.1 received (by rw [skewThen]; exact future)
  · have low : d.clock.last.Within (largestReading events + max skew 0) 0 := by
      have positive : 0 ≤ largestReading events := le_foldl_max (Or.inl rfl)
      rw [clock]
      refine Or.inl ?_
      simp only [Clock.new]
      omega
    exact (within_run sound caught timely kept (le_max_right _ _)
      (bounded_largestReading events _) low (by omega)).physicalMS_le

/-! ### A rebase beyond the bound -/

/-- A snapshot from eleven days ahead. -/
def futureSnapshot : SnapshotToken :=
  .signed (.plain 1 ⟨1000000000, 0⟩ (.ofEntries [("a", 1)]) [firstWrite]) []

/-- **A rebase absorbs a timestamp beyond the bound**: at the reading `10`, with five minutes of
skew allowed, the clock moves to the creation time of the received snapshot. -/
theorem rebase_absorbs_future :
    openDurableReplica .plain "space" 1 (.new 300000) none calmEnvironment.replay =
        .ok blankHandle ∧
      (DurableEvent.rebaseSnapshot calmEnvironment futureSnapshot).received .plain =
        some (10, ⟨1000000000, 0⟩) ∧
      (10 : Int) + max 300000 0 < 1000000000 ∧
      (blankHandle.step .plain (.rebaseSnapshot calmEnvironment futureSnapshot)).clock.last =
        ⟨1000000000, 0⟩ ∧
      (blankHandle.step .plain (.rebaseSnapshot calmEnvironment futureSnapshot)).clock ≠
        blankHandle.clock ∧
      clockSteps .plain blankHandle [.rebaseSnapshot calmEnvironment futureSnapshot] < 2 ^ 32 ∧
      largestReading [.rebaseSnapshot calmEnvironment futureSnapshot] + max 300000 0 + 1 <
        (run (step .plain) blankHandle
          [.rebaseSnapshot calmEnvironment futureSnapshot]).clock.last.physicalMS :=
  ⟨open_blankHandle, by decide, by decide, by decide, by decide,
    by decide, by decide⟩

theorem clock_within_skew_middleSnapshot :
    (run (step .plain) blankHandle [.rebaseSnapshot calmEnvironment middleSnapshot,
      .apply calmEnvironment (.signed (.plain 1 2 ⟨1000000000, 0⟩ "k" .set
        (.ofEntries [("a", 1)])) [])]).clock.last.physicalMS ≤ 10 + max 300000 0 + 1 := by
  have timely : Meets (step .plain) (Timely .plain) blankHandle
      [.rebaseSnapshot calmEnvironment middleSnapshot, .apply calmEnvironment (.signed (.plain 1 2
        ⟨1000000000, 0⟩ "k" .set (.ofEntries [("a", 1)])) [])] := by
    refine ⟨fun snapshot rebases => Or.inr ?_, trivial, trivial⟩
    have read := rebases.read
    have known : Primitives.plain.verifySnapshot middleSnapshot = .ok
        ⟨middleSnapshot, .plain 1 ⟨6, 0⟩ (.ofEntries [("a", 1)]) [firstWrite],
          [⟨.signed firstWrite [], firstWrite, [1, 0]⟩], []⟩ := by decide
    rw [known] at read
    cases read
    decide
  exact (clock_within_skew open_blankHandle _ timely).2 (by decide +kernel)

end DurableReplica

end Atterm.ConfigSync
