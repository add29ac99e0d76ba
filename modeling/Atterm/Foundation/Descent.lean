/-
**Descending by a choice at each node.**

A loop starts at a node, chooses the next one and goes on from there until there is nothing left to
choose.

* `descend` — the loop, with a bound on its rounds;
* `Descends` — the path it takes, which does not depend on the bound;
* `exists_descends` — a loop whose choices climb in rank and stay in a finite set comes to an end,
  after at most as many rounds as the set has elements.
-/

import Mathlib

namespace Atterm.Foundation

variable {κ : Type*} (next : κ → Option κ)

/-- The nodes chosen from a node on, or nothing if the rounds run out. -/
def descend : ℕ → κ → Option (List κ)
  | 0, _ => none
  | rounds + 1, node =>
    match next node with
    | none => some []
    | some chosen => (descend rounds chosen).map (chosen :: ·)

/-- The path from a node to where nothing is left to choose. -/
inductive Descends : κ → List κ → Prop
  | leaf {node : κ} (ends : next node = none) : Descends node []
  | step {node chosen : κ} {rest : List κ} (goes : next node = some chosen)
      (below : Descends chosen rest) : Descends node (chosen :: rest)

variable {next}

theorem Descends.unique {node : κ} {first second : List κ} (left : Descends next node first)
    (right : Descends next node second) : first = second := by
  induction left generalizing second with
  | leaf ends =>
    cases right with
    | leaf _ => rfl
    | step goes _ => rw [ends] at goes; cases goes
  | step goes _ ih =>
    cases right with
    | leaf ends => rw [ends] at goes; cases goes
    | step again below =>
      rw [goes, Option.some.injEq] at again
      cases again
      rw [ih below]

theorem descend_of_descends {node : κ} {path : List κ} (descends : Descends next node path)
    {rounds : ℕ} (enough : path.length < rounds) : descend next rounds node = some path := by
  induction descends generalizing rounds with
  | leaf ends =>
    obtain ⟨rounds, rfl⟩ := Nat.exists_eq_add_one_of_ne_zero (Nat.ne_zero_of_lt enough)
    rw [descend, ends]
  | step goes _ ih =>
    obtain ⟨rounds, rfl⟩ := Nat.exists_eq_add_one_of_ne_zero (Nat.ne_zero_of_lt enough)
    rw [descend, goes]
    show (descend next rounds _).map _ = _
    rw [ih (Nat.lt_of_succ_lt_succ enough)]
    rfl

/-- **A loop that climbs in a finite set ends.** -/
theorem exists_descends {nodes : Finset κ} {rank : κ → ℕ}
    (climbs : ∀ node chosen, next node = some chosen → chosen ∈ nodes ∧ rank node < rank chosen)
    (node : κ) : ∃ path, Descends next node path ∧ path.length ≤ nodes.card := by
  -- the nodes above the current one bound what is left of the path
  suffices bounded : ∀ above node, (nodes.filter fun other => rank node < rank other).card = above →
      ∃ path, Descends next node path ∧ path.length ≤ above by
    obtain ⟨path, descends, short⟩ := bounded _ node rfl
    exact ⟨path, descends, short.trans (Finset.card_filter_le _ _)⟩
  intro above
  induction above using Nat.strong_induction_on with
  | _ above ih =>
    intro node count
    cases goes : next node with
    | none => exact ⟨[], .leaf goes, Nat.zero_le _⟩
    | some chosen =>
      obtain ⟨member, higher⟩ := climbs node chosen goes
      have fewer : (nodes.filter fun other => rank chosen < rank other).card < above := by
        rw [← count]
        refine Finset.card_lt_card (Finset.ssubset_iff_of_subset ?_ |>.mpr ⟨chosen, ?_, ?_⟩)
        · intro other inside
          rw [Finset.mem_filter] at inside ⊢
          exact ⟨inside.1, higher.trans inside.2⟩
        · exact Finset.mem_filter.mpr ⟨member, higher⟩
        · exact fun inside => absurd (Finset.mem_filter.mp inside).2 (lt_irrefl _)
      obtain ⟨rest, below, short⟩ := ih _ fewer chosen rfl
      exact ⟨chosen :: rest, .step goes below, by rw [List.length_cons]; omega⟩

/-! ### Sorted options -/

section Sorted

variable {α : Type*} {before : α → α → Bool}

theorem head?_mergeSort (trans : ∀ first second third, before first second → before second third →
      before first third) (total : ∀ first second, before first second || before second first)
    {options : List α} {chosen : α} (first : (options.mergeSort before).head? = some chosen) :
    chosen ∈ options ∧ ∀ other ∈ options, before chosen other := by
  obtain ⟨rest, sorted⟩ := List.head?_eq_some_iff.mp first
  have ordered := List.pairwise_mergeSort trans total options
  rw [sorted, List.pairwise_cons] at ordered
  have member : ∀ other, other ∈ options ↔ other = chosen ∨ other ∈ rest := by
    intro other
    have same : other ∈ options.mergeSort before ↔ other ∈ options := List.mem_mergeSort
    rw [← same, sorted, List.mem_cons]
  refine ⟨(member chosen).mpr (Or.inl rfl), fun other listed => ?_⟩
  rcases (member other).mp listed with rfl | later
  · simpa using total other other
  · exact ordered.1 other later

theorem mergeSort_congr (trans : ∀ first second third, before first second → before second third →
      before first third) (total : ∀ first second, before first second || before second first)
    {left right : List α} (apart : ∀ first ∈ left, ∀ second ∈ left, before first second →
      before second first → first = second) (same : left.Perm right) :
    left.mergeSort before = right.mergeSort before := by
  have perm : (left.mergeSort before).Perm (right.mergeSort before) :=
    (List.mergeSort_perm _ _).trans (same.trans (List.mergeSort_perm _ _).symm)
  refine perm.eq_of_pairwise ?_ (List.pairwise_mergeSort trans total left)
    (List.pairwise_mergeSort trans total right)
  intro first second listed listed' forth back
  have inside : second ∈ left := same.mem_iff.mpr (List.mem_mergeSort.mp listed')
  exact apart first (List.mem_mergeSort.mp listed) second inside forth back

end Sorted

end Atterm.Foundation
