/-
**Two machines in lockstep.**

A machine with outputs answers every event. Two machines whose answers agree on related states, and
whose states stay related, answer every run alike.

* `trace_eq_of_simulation` — related states give the same outputs.
-/

import Mathlib

namespace Atterm.Foundation

variable {State State' Event Output : Type*}

def trace (step : State → Event → Output × State) : State → List Event → List Output × State
  | state, [] => ([], state)
  | state, event :: rest =>
    let taken := step state event
    let later := trace step taken.2 rest
    (taken.1 :: later.1, later.2)

/-- **Lockstep.** Related states that answer alike and stay related give the same outputs. -/
theorem trace_eq_of_simulation {step : State → Event → Output × State}
    {step' : State' → Event → Output × State'} (related : State → State' → Prop)
    (allowed : Event → Prop)
    (simulates : ∀ state state' event, related state state' → allowed event →
      (step state event).1 = (step' state' event).1 ∧
        related (step state event).2 (step' state' event).2)
    {state : State} {state' : State'} (initial : related state state') {events : List Event}
    (all : ∀ event ∈ events, allowed event) :
    (trace step state events).1 = (trace step' state' events).1 ∧
      related (trace step state events).2 (trace step' state' events).2 := by
  induction events generalizing state state' with
  | nil => exact ⟨rfl, initial⟩
  | cons event rest ih =>
    obtain ⟨same, after⟩ := simulates state state' event initial (all event List.mem_cons_self)
    obtain ⟨later, last⟩ := ih after fun other listed => all other (List.mem_cons_of_mem _ listed)
    exact ⟨by simp only [trace, same, later], last⟩

end Atterm.Foundation
