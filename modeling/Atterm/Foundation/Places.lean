/-
**Tokens in places.**

Every place holds a list of tokens. `Placed` says that a token is in one place at most, and once.

* `Placed.shrink` — places that lose tokens;
* `Placed.transfer` — tokens that go from one place to another;
* `Placed.deposit` — a fresh token.
-/

import Mathlib

namespace Atterm.Foundation

variable {Place Token : Type*} {held held' : Place → List Token}

/-- **Every token is in one place, once.** -/
structure Placed (held : Place → List Token) : Prop where
  once : ∀ p, (held p).Nodup
  apart : ∀ p q, p ≠ q → (held p).Disjoint (held q)

namespace Placed

theorem empty : Placed fun _ : Place => ([] : List Token) where
  once _ := List.nodup_nil
  apart _ _ _ := List.disjoint_nil_left _

theorem shrink (placed : Placed held) (fewer : ∀ p, (held' p).Subperm (held p)) : Placed held' where
  once p := by
    obtain ⟨_, same, sub⟩ := fewer p
    exact same.nodup_iff.mp ((placed.once p).sublist sub)
  apart p q other := fun _ one two =>
    placed.apart p q other ((fewer p).subset one) ((fewer q).subset two)

theorem eq_of_mem (placed : Placed held) {p q : Place} {token : Token} (one : token ∈ held p)
    (two : token ∈ held q) : p = q := by
  by_contra other
  exact placed.apart p q other one two

/-- **What one place loses another may gain.** -/
theorem transfer (placed : Placed held) {a b : Place} (other : a ≠ b)
    (moved : (held' a ++ held' b).Subperm (held a ++ held b))
    (others : ∀ p, p ≠ a → p ≠ b → held' p = held p) : Placed held' := by
  have both : (held' a ++ held' b).Nodup := by
    obtain ⟨_, same, sub⟩ := moved
    refine same.nodup_iff.mp (List.Nodup.sublist sub ?_)
    exact (placed.once a).append (placed.once b) (placed.apart a b other)
  have away : ∀ p, p ≠ a → p ≠ b → ∀ token ∈ held' p, token ∉ held' a ++ held' b :=
    fun p first second token listed found => by
      rw [others p first second] at listed
      rcases List.mem_append.mp (moved.subset found) with found | found
      · exact placed.apart p a first listed found
      · exact placed.apart p b second listed found
  refine ⟨fun p => ?_, fun p q distinct token one two => ?_⟩
  · by_cases first : p = a
    · exact first ▸ (List.nodup_append.mp both).1
    · by_cases second : p = b
      · exact second ▸ (List.nodup_append.mp both).2.1
      · exact others p first second ▸ placed.once p
  · have inside : ∀ r, r = a ∨ r = b → token ∈ held' r → token ∈ held' a ++ held' b :=
      fun r either listed => either.elim
        (fun same => List.mem_append_left _ (same ▸ listed))
        (fun same => List.mem_append_right _ (same ▸ listed))
    by_cases p_in : p = a ∨ p = b
    · by_cases q_in : q = a ∨ q = b
      · rcases p_in with rfl | rfl <;> rcases q_in with rfl | rfl
        · exact distinct rfl
        · exact List.disjoint_of_nodup_append both one two
        · exact List.disjoint_of_nodup_append both two one
        · exact distinct rfl
      · exact away q (not_or.mp q_in).1 (not_or.mp q_in).2 token two (inside p p_in one)
    · by_cases q_in : q = a ∨ q = b
      · exact away p (not_or.mp p_in).1 (not_or.mp p_in).2 token one (inside q q_in two)
      · rw [others p (not_or.mp p_in).1 (not_or.mp p_in).2] at one
        rw [others q (not_or.mp q_in).1 (not_or.mp q_in).2] at two
        exact placed.apart p q distinct one two

/-- **A fresh token may be put anywhere.** -/
theorem deposit (placed : Placed held) {a : Place} {token : Token} (fresh : ∀ p, token ∉ held p)
    (added : (held' a).Perm (token :: held a)) (others : ∀ p, p ≠ a → held' p = held p) :
    Placed held' := by
  have mem : ∀ p x, x ∈ held' p → x ∈ held p ∨ p = a ∧ x = token := fun p x listed => by
    by_cases same : p = a
    · subst same
      rcases List.mem_cons.mp (added.subset listed) with rfl | old
      · exact .inr ⟨rfl, rfl⟩
      · exact .inl old
    · exact .inl (others p same ▸ listed)
  refine ⟨fun p => ?_, fun p q distinct x one two => ?_⟩
  · by_cases same : p = a
    · subst same
      exact added.nodup_iff.mpr (List.nodup_cons.mpr ⟨fresh p, placed.once p⟩)
    · exact others p same ▸ placed.once p
  · rcases mem p x one with one | ⟨rfl, rfl⟩
    · rcases mem q x two with two | ⟨rfl, rfl⟩
      · exact placed.apart p q distinct one two
      · exact fresh p one
    · rcases mem q x two with two | ⟨rfl, -⟩
      · exact fresh q two
      · exact distinct rfl

end Placed

end Atterm.Foundation
