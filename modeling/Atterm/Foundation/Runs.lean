/-
**Runs of a state machine.**

A machine is a function from a state and an event to the next state, a run folds it over a list of
events. `Meets` says that every event of a run satisfies a condition in the state it is taken from.

* `run_invariant` — what every step preserves holds after every run;
* `run_invariant_of_meets` — the same for the steps that meet a condition;
* `meets_congr` — which conditions the same runs meet.
-/

import Mathlib

namespace Atterm.Foundation

variable {State Event : Type*} (step : State → Event → State)

def run (state : State) (events : List Event) : State := events.foldl step state

@[simp] theorem run_nil (state : State) : run step state [] = state := rfl

@[simp] theorem run_cons (state : State) (event : Event) (events : List Event) :
    run step state (event :: events) = run step (step state event) events := rfl

theorem run_append (state : State) (first second : List Event) :
    run step state (first ++ second) = run step (run step state first) second :=
  List.foldl_append

/-- Every event of the run satisfies the condition in the state it is taken from. -/
def Meets (condition : State → Event → Prop) : State → List Event → Prop
  | _, [] => True
  | state, event :: rest => condition state event ∧ Meets condition (step state event) rest

instance decidableMeets {condition : State → Event → Prop} [∀ s e, Decidable (condition s e)] :
    (state : State) → (events : List Event) → Decidable (Meets step condition state events)
  | _, [] => inferInstanceAs (Decidable True)
  | state, event :: rest =>
    have : Decidable (Meets step condition (step state event) rest) :=
      decidableMeets (step state event) rest
    inferInstanceAs (Decidable (condition state event ∧
      Meets step condition (step state event) rest))

theorem meets_append {condition : State → Event → Prop} {state : State}
    {first second : List Event} : Meets step condition state (first ++ second) ↔
      Meets step condition state first ∧ Meets step condition (run step state first) second := by
  induction first generalizing state with
  | nil => simp [Meets]
  | cons event rest ih => simp [Meets, ih, and_assoc]

theorem Meets.mono {condition weaker : State → Event → Prop}
    (weakens : ∀ state event, condition state event → weaker state event) {state : State}
    {events : List Event} (meets : Meets step condition state events) :
    Meets step weaker state events := by
  induction events generalizing state with
  | nil => trivial
  | cons event rest ih => exact ⟨weakens state event meets.1, ih meets.2⟩

variable {step}

/-- **What the steps that meet a condition preserve holds after every run that meets it.** -/
theorem run_invariant_of_meets {condition : State → Event → Prop} (invariant : State → Prop)
    (preserves : ∀ state event, invariant state → condition state event →
      invariant (step state event))
    {state : State} {events : List Event} (initial : invariant state)
    (meets : Meets step condition state events) : invariant (run step state events) := by
  induction events generalizing state with
  | nil => exact initial
  | cons event rest ih => exact ih (preserves state event initial meets.1) meets.2

/-- **What every step preserves holds after every run.** -/
theorem run_invariant (invariant : State → Prop)
    (preserves : ∀ state event, invariant state → invariant (step state event))
    {state : State} (initial : invariant state) (events : List Event) :
    invariant (run step state events) := by
  induction events generalizing state with
  | nil => exact initial
  | cons event rest ih => exact ih (preserves state event initial)

theorem meets_congr {condition other : State → Event → Prop} (invariant : State → Prop)
    (preserves : ∀ state event, invariant state → condition state event →
      invariant (step state event))
    (same : ∀ state event, invariant state → (condition state event ↔ other state event))
    {state : State} (initial : invariant state) (events : List Event) :
    Meets step condition state events ↔ Meets step other state events := by
  induction events generalizing state with
  | nil => exact Iff.rfl
  | cons event rest ih =>
    constructor
    · rintro ⟨meets, later⟩
      exact ⟨(same state event initial).mp meets, (ih (preserves state event initial meets)).mp later⟩
    · rintro ⟨other_meets, later⟩
      have meets := (same state event initial).mpr other_meets
      exact ⟨meets, (ih (preserves state event initial meets)).mpr later⟩

/-- **What every event brings closer is reached**, by some number of events. -/
theorem exists_reached {event : Event} (invariant goal : State → Prop) (distance : State → ℕ)
    (preserves : ∀ state, invariant state → invariant (step state event))
    (closer : ∀ state, invariant state → ¬goal state → distance (step state event) < distance state)
    {state : State} (initial : invariant state) :
    ∃ count, goal (run step state (List.replicate count event)) := by
  induction far : distance state using Nat.strong_induction_on generalizing state with
  | _ far_off ih =>
    by_cases reached : goal state
    · exact ⟨0, reached⟩
    · obtain ⟨count, later⟩ := ih (distance (step state event))
        (far ▸ closer state initial reached) (preserves state initial) rfl
      exact ⟨count + 1, later⟩

/-- **A property that the steps of a condition keep, and that every other step breaks, holds all
along exactly the runs that meet the condition.** -/
theorem sound_iff_meets {condition : State → Event → Prop} {sound : State → Prop}
    (invariant : State → Prop)
    (preserves : ∀ state event, invariant state → condition state event →
      invariant (step state event))
    (holds : ∀ state, invariant state → sound state)
    (breaks : ∀ state event, invariant state → ¬condition state event → ¬sound (step state event))
    {state : State} (initial : invariant state) (events : List Event) :
    (∀ first, first <+: events → sound (run step state first)) ↔
      Meets step condition state events := by
  induction events generalizing state with
  | nil =>
    refine iff_of_true (fun first before => ?_) trivial
    rw [List.prefix_nil.mp before]
    exact holds state initial
  | cons event rest ih =>
    constructor
    · intro sound
      have meets : condition state event := by
        by_contra careless
        exact breaks state event initial careless (sound [event] ⟨rest, rfl⟩)
      refine ⟨meets, (ih (preserves state event initial meets)).mp fun first before => ?_⟩
      exact sound (event :: first) (List.cons_prefix_cons.mpr ⟨rfl, before⟩)
    · rintro ⟨meets, later⟩ first before
      cases first with
      | nil => exact holds state initial
      | cons other first =>
        obtain ⟨rfl, inside⟩ := List.cons_prefix_cons.mp before
        exact (ih (preserves state other initial meets)).mpr later first inside

/-- **A run that is not doomed at its end meets a condition that every other step dooms it by breaking.** -/
theorem meets_of_spared {condition : State → Event → Prop} (doomed : State → Prop)
    (dooms : ∀ state event, ¬condition state event → doomed (step state event))
    (stays : ∀ state event, doomed state → doomed (step state event)) {state : State} {events : List Event}
    (spared : ¬doomed (run step state events)) : Meets step condition state events := by
  induction events generalizing state with
  | nil => trivial
  | cons event rest ih =>
    refine ⟨?_, ih spared⟩
    by_contra careless
    exact spared (run_invariant doomed stays (dooms state event careless) rest)

/-- **What is passed in comes out in order, once each, all along exactly the runs that meet the
condition**, if it says of each event whether that holds of the event itself. -/
theorem passes_iff_meets {Value : Type*} {condition : State → Event → Prop}
    (out : State → List Value) (passes : Event → List Value)
    (exact : ∀ state event,
      condition state event ↔ out (step state event) = out state ++ passes event)
    (state : State) (events : List Event) :
    (∀ first, first <+: events → out (run step state first) = out state ++ first.flatMap passes) ↔
      Meets step condition state events := by
  induction events generalizing state with
  | nil =>
    refine iff_of_true (fun first before => ?_) trivial
    rw [List.prefix_nil.mp before, run_nil, List.flatMap_nil, List.append_nil]
  | cons event rest ih =>
    constructor
    · intro keeps
      have now := keeps [event] ⟨rest, rfl⟩
      rw [run_cons, run_nil, List.flatMap_singleton] at now
      refine ⟨(exact state event).mpr now, (ih (step state event)).mp fun first before => ?_⟩
      have later := keeps (event :: first) (List.cons_prefix_cons.mpr ⟨rfl, before⟩)
      rw [run_cons, List.flatMap_cons, ← List.append_assoc, ← now] at later
      exact later
    · rintro ⟨meets, later⟩ first before
      cases first with
      | nil => rw [run_nil, List.flatMap_nil, List.append_nil]
      | cons other first =>
        obtain ⟨rfl, inside⟩ := List.cons_prefix_cons.mp before
        rw [run_cons, (ih (step state other)).mpr later first inside,
          (exact state other).mp meets, List.append_assoc, List.flatMap_cons]

end Atterm.Foundation
