/-
**Loops that either leave or go round again.**

A pass of a loop looks at the state and leaves with a result, or goes on with another state. Nothing
forces such a loop to end.

* `loop`, `Ends` — the loop with a bound on its passes, and that some bound is enough;
* `ends_of_leaves`, `ends_iff_of_again` — one pass;
* `ends_iff` — a loop whose passes spend something bounded, or stand still, ends exactly if it never
  comes to a state where it stands still.
-/

import Mathlib

namespace Atterm.Foundation

variable {State Result : Type*} (pass : State → Result ⊕ State)

/-- The result that the loop leaves with, unless the passes run out before. -/
def loop : ℕ → State → Option Result
  | 0, _ => none
  | passes + 1, state =>
    match pass state with
    | .inl result => some result
    | .inr next => loop passes next

/-- The loop leaves after finitely many passes. -/
def Ends (state : State) : Prop := ∃ passes, (loop pass passes state).isSome

def Again (state next : State) : Prop := pass state = .inr next

variable {pass} {state next : State}

theorem ends_of_leaves {result : Result} (leaves : pass state = .inl result) : Ends pass state :=
  ⟨1, by rw [loop, leaves]; rfl⟩

theorem ends_iff_of_again (again : Again pass state next) : Ends pass state ↔ Ends pass next := by
  constructor
  · rintro ⟨_ | passes, left⟩
    · cases left
    · rw [loop, again] at left
      exact ⟨passes, left⟩
  · rintro ⟨passes, left⟩
    refine ⟨passes + 1, ?_⟩
    rw [loop, again]
    exact left

theorem ends_iff_of_reached (reached : Relation.ReflTransGen (Again pass) state next) :
    Ends pass state ↔ Ends pass next := by
  induction reached with
  | refl => exact Iff.rfl
  | tail _ again ih => exact ih.trans (ends_iff_of_again again)

theorem not_ends_of_stands {Stands : State → Prop}
    (stays : ∀ state, Stands state → ∃ next, Again pass state next ∧ Stands next)
    (stands : Stands state) : ¬ Ends pass state := by
  rintro ⟨passes, left⟩
  induction passes generalizing state with
  | zero => cases left
  | succ passes ih =>
    obtain ⟨next, again, stands⟩ := stays state stands
    rw [loop, again] at left
    exact ih stands left

/-- **A loop that spends something bounded with every pass ends, unless it comes to stand still.** -/
theorem ends_iff {Stands : State → Prop} (spent : State → ℕ) (bound : ℕ)
    (stays : ∀ state, Stands state → ∃ next, Again pass state next ∧ Stands next)
    (spends : ∀ state next, ¬ Stands state → Again pass state next →
      spent state < spent next ∧ spent next ≤ bound) :
    Ends pass state ↔
      ∀ reached, Relation.ReflTransGen (Again pass) state reached → ¬ Stands reached := by
  constructor
  · intro ends reached path stands
    exact not_ends_of_stands stays stands ((ends_iff_of_reached path).mp ends)
  · intro never
    -- the induction is on what is left to spend
    induction left : bound - spent state using Nat.strong_induction_on generalizing state with
    | _ left ih =>
      cases passed : pass state with
      | inl result => exact ends_of_leaves passed
      | inr next =>
        obtain ⟨more, bounded⟩ := spends state next (never state .refl) passed
        refine (ends_iff_of_again passed).mpr (ih (bound - spent next) (by omega) ?_ rfl)
        exact fun reached path => never reached (path.head passed)

end Atterm.Foundation
