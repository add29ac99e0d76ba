/-
**Peeling guarded computations.**

A Go function of the form "return an error if a check fails, else go on" becomes a chain of
`if check then .error e else rest` and of matches on the result of a fallible call. Each lemma here
removes one link of such a chain from a successful result.
-/

import Mathlib

namespace Atterm.Foundation

universe u v

variable {ε : Type u} {α β : Type v}

theorem guard_ok {check : Prop} [Decidable check] {error : ε} {rest : Except ε α} {value : α}
    (success : (if check then .error error else rest) = .ok value) :
    ¬ check ∧ rest = .ok value := by
  by_cases failed : check
  · rw [if_pos failed] at success
    cases success
  · rw [if_neg failed] at success
    exact ⟨failed, success⟩

theorem guard_ok_iff {check : Prop} [Decidable check] {error : ε} {rest : Except ε α} {value : α} :
    (if check then .error error else rest) = .ok value ↔ ¬ check ∧ rest = .ok value := by
  constructor
  · exact guard_ok
  · rintro ⟨passed, success⟩
    rw [if_neg passed, success]

theorem bind_ok {first : Except ε α} {next : α → Except ε β} {value : β}
    (success : first >>= next = .ok value) :
    ∃ middle, first = .ok middle ∧ next middle = .ok value := by
  cases first with
  | error error => cases success
  | ok middle => exact ⟨middle, rfl, success⟩

theorem bind_ok_iff {first : Except ε α} {next : α → Except ε β} {value : β} :
    first >>= next = .ok value ↔ ∃ middle, first = .ok middle ∧ next middle = .ok value := by
  constructor
  · exact bind_ok
  · rintro ⟨middle, success, rest⟩
    rw [success]
    exact rest

end Atterm.Foundation
