/-
**Contiguous frontiers.**

A receiver of numbered messages acknowledges the greatest number up to which it has everything.
`advance` is the loop that moves this number over messages that had arrived early; its fuel is the
number of messages held, and `advance_stops` shows that it never runs out.

* `isFrontier_iff_isGreatest` — the frontier is the greatest fully known prefix;
* `IsFrontier.unique` — what is known determines it;
* `isFrontier_advance` — one more message and one run of the loop restore it.
-/

import Mathlib

namespace Atterm.Foundation

/-- `n` ends the prefix `1, …, n` of known numbers. -/
structure IsFrontier (known : ℕ → Prop) (n : ℕ) : Prop where
  contiguous : ∀ m, 0 < m → m ≤ n → known m
  stops : ¬ known (n + 1)

variable {known other : ℕ → Prop} {n w : ℕ}

/-- **The frontier is the greatest fully known prefix.** -/
theorem isFrontier_iff_isGreatest :
    IsFrontier known n ↔ IsGreatest {w | ∀ m, 0 < m → m ≤ w → known m} n := by
  constructor
  · rintro ⟨contiguous, stops⟩
    refine ⟨contiguous, fun w reached => ?_⟩
    by_contra above
    exact stops (reached (n + 1) n.succ_pos (by omega))
  · rintro ⟨contiguous, greatest⟩
    refine ⟨contiguous, fun next => ?_⟩
    have longer : n + 1 ∈ {w | ∀ m, 0 < m → m ≤ w → known m} := by
      intro m positive bound
      rcases Nat.lt_or_eq_of_le bound with below | rfl
      · exact contiguous m positive (by omega)
      · exact next
    exact absurd (greatest longer) (by omega)

theorem IsFrontier.unique (first : IsFrontier known n) (second : IsFrontier known w) : n = w := by
  rw [isFrontier_iff_isGreatest] at first second
  exact first.unique second

theorem IsFrontier.congr (frontier : IsFrontier known n)
    (same : ∀ m, 0 < m → (known m ↔ other m)) : IsFrontier other n :=
  ⟨fun m positive bound => (same m positive).mp (frontier.contiguous m positive bound),
    fun next => frontier.stops ((same _ n.succ_pos).mpr next)⟩

theorem IsFrontier.le_of_contiguous (frontier : IsFrontier known n)
    (reached : ∀ m, 0 < m → m ≤ w → known m) : w ≤ n :=
  (isFrontier_iff_isGreatest.mp frontier).2 reached

/-- Step over every number that is present, at most `fuel` times. -/
def advance (seen : Finset ℕ) : ℕ → ℕ → ℕ
  | 0, n => n
  | fuel + 1, n => if n + 1 ∈ seen then advance seen fuel (n + 1) else n

theorem le_advance (seen : Finset ℕ) (fuel n : ℕ) : n ≤ advance seen fuel n := by
  induction fuel generalizing n with
  | zero => exact le_rfl
  | succ fuel ih =>
    unfold advance
    split_ifs with present
    · exact (Nat.le_succ n).trans (ih (n + 1))
    · exact le_rfl

theorem mem_of_lt_advance (seen : Finset ℕ) (fuel n : ℕ) {m : ℕ} (above : n < m)
    (below : m ≤ advance seen fuel n) : m ∈ seen := by
  induction fuel generalizing n with
  | zero => exact absurd below (by unfold advance; omega)
  | succ fuel ih =>
    unfold advance at below
    split_ifs at below with present
    · rcases Nat.lt_or_eq_of_le (Nat.succ_le_of_lt above) with further | same
      · exact ih (n + 1) further below
      · exact same ▸ present
    · omega

theorem advance_stops (seen : Finset ℕ) (fuel n : ℕ)
    (enough : (seen.filter (n < ·)).card ≤ fuel) : advance seen fuel n + 1 ∉ seen := by
  induction fuel generalizing n with
  | zero =>
    intro present
    have empty := Finset.card_eq_zero.mp (Nat.le_zero.mp enough)
    have member : n + 1 ∈ seen.filter (n < ·) := Finset.mem_filter.mpr ⟨present, n.lt_succ_self⟩
    rw [empty] at member
    exact absurd member (Finset.notMem_empty _)
  | succ fuel ih =>
    unfold advance
    split_ifs with present
    · refine ih (n + 1) ?_
      have smaller : seen.filter (n + 1 < ·) ⊂ seen.filter (n < ·) := by
        refine Finset.ssubset_iff_of_subset ?_ |>.mpr ⟨n + 1, ?_, ?_⟩
        · intro m member
          rw [Finset.mem_filter] at member ⊢
          exact ⟨member.1, by omega⟩
        · exact Finset.mem_filter.mpr ⟨present, n.lt_succ_self⟩
        · simp
      have := Finset.card_lt_card smaller
      omega
    · exact present

/-- **One more message and one run of the loop restore the frontier.** The numbers up to `base` are
known without being held. -/
theorem isFrontier_advance {base : ℕ} {seen : Finset ℕ} (number : ℕ)
    (frontier : IsFrontier (fun m => m ≤ base ∨ m ∈ seen) n) :
    IsFrontier (fun m => m ≤ base ∨ m ∈ insert number seen)
      (advance (insert number seen) (insert number seen).card n) := by
  have above : base ≤ n := frontier.le_of_contiguous fun m _ bound => Or.inl bound
  have reached := le_advance (insert number seen) (insert number seen).card n
  refine ⟨fun m positive bound => ?_, ?_⟩
  · by_cases old : m ≤ n
    · rcases frontier.contiguous m positive old with covered | held
      · exact Or.inl covered
      · exact Or.inr (Finset.mem_insert_of_mem held)
    · exact Or.inr (mem_of_lt_advance _ _ _ (not_le.mp old) bound)
  · rintro (covered | held)
    · omega
    · exact advance_stops _ _ _ (Finset.card_filter_le _ _) held

end Atterm.Foundation
