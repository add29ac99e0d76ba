/-
**Where two tests first succeed.**

Two tests on the members of a list succeed first at the same place exactly if no member tells them apart
before one on which both succeed. The values found there are then the same, and where all values differ
that is the only way to find the same one.

* `findIdx?_eq_iff` — the places;
* `findIdx?_eq_of_found_eq` — the places from the values found there.
-/

import Mathlib

namespace Atterm.Foundation

variable {α β : Type*}

theorem findIdx?_eq_iff (p q : α → Bool) (l : List α) :
    l.findIdx? p = l.findIdx? q ↔ ∀ before m behind, l = before ++ m :: behind → p m ≠ q m →
      ∃ b ∈ before, p b = true ∧ q b = true := by
  induction l with
  | nil => simp
  | cons x l ih =>
    rw [List.findIdx?_cons, List.findIdx?_cons]
    by_cases agree : p x = q x
    · cases first : q x with
      | true =>
        rw [first] at agree
        refine iff_of_true (by rw [agree, if_pos rfl, if_pos rfl]) ?_
        intro before m behind split differ
        rcases List.cons_eq_append_iff.mp split with ⟨rfl, here⟩ | ⟨before, rfl, _⟩
        · cases here
          exact absurd (agree.trans first.symm) differ
        · exact ⟨x, List.mem_cons_self, agree, first⟩
      | false =>
        rw [first] at agree
        simp only [agree, Bool.false_eq_true, if_false, (Option.map_injective Nat.succ_injective).eq_iff,
          ih]
        constructor
        · intro rest before m behind split differ
          rcases List.cons_eq_append_iff.mp split with ⟨rfl, here⟩ | ⟨before, rfl, inner⟩
          · cases here
            exact absurd (agree.trans first.symm) differ
          · obtain ⟨b, inside, both⟩ := rest before m behind inner differ
            exact ⟨b, List.mem_cons_of_mem _ inside, both⟩
        · intro whole before m behind split differ
          obtain ⟨b, inside, one, other⟩ :=
            whole (x :: before) m behind (by rw [split, List.cons_append]) differ
          rcases List.mem_cons.mp inside with rfl | inside
          · rw [first] at other
            cases other
          · exact ⟨b, inside, one, other⟩
    · refine iff_of_false ?_ ?_
      · cases one : p x <;> cases other : q x <;> simp_all
      · intro whole
        obtain ⟨b, inside, _⟩ := whole [] x l rfl agree
        cases inside

theorem found_eq_of_findIdx?_eq {p q : α → Bool} {l : List α} (same : l.findIdx? p = l.findIdx? q) :
    l.find? p = l.find? q := by
  rw [List.find?_eq_bind_findIdx?_getElem?, List.find?_eq_bind_findIdx?_getElem?, same]

theorem found_mem (p : α → Bool) (v : α → β) (d : β) (l : List α) :
    ((l.find? p).map v).getD d = d ∨ ∃ a ∈ l, p a = true ∧ ((l.find? p).map v).getD d = v a := by
  cases found : l.find? p with
  | none => exact .inl rfl
  | some a => exact .inr ⟨a, List.mem_of_find?_eq_some found, List.find?_some found, rfl⟩

theorem head_value_ne {p q : α → Bool} {v : α → β} {d : β} {x : α} {l : List α}
    (apart : (d :: ((x :: l).filter (fun a => p a || q a)).map v).Nodup) (hit : p x = true) :
    ((l.find? q).map v).getD d ≠ v x := by
  rw [List.filter_cons_of_pos (by rw [hit, Bool.true_or]), List.map_cons, List.nodup_cons,
    List.nodup_cons, List.mem_cons, not_or] at apart
  obtain ⟨⟨other, _⟩, new, _⟩ := apart
  rcases found_mem q v d l with none | ⟨a, inside, hits, found⟩
  · rwa [none]
  · rw [found]
    intro same
    exact new (same ▸ List.mem_map_of_mem (List.mem_filter.mpr ⟨inside, by rw [hits, Bool.or_true]⟩))

theorem findIdx?_eq_of_found_eq {p q : α → Bool} {v : α → β} {d : β} (l : List α)
    (apart : (d :: (l.filter (fun a => p a || q a)).map v).Nodup)
    (same : ((l.find? p).map v).getD d = ((l.find? q).map v).getD d) :
    l.findIdx? p = l.findIdx? q := by
  induction l with
  | nil => rfl
  | cons x l ih =>
    rw [List.findIdx?_cons, List.findIdx?_cons]
    rw [List.find?_cons, List.find?_cons] at same
    cases one : p x <;> cases other : q x <;> simp only [one, other] at same ⊢
    · have rest : (d :: (l.filter (fun a => p a || q a)).map v).Nodup := by
        rwa [List.filter_cons_of_neg (by rw [one, other]; decide)] at apart
      rw [if_neg Bool.false_ne_true, if_neg Bool.false_ne_true, ih rest same]
    · simp only [Bool.or_comm (p _)] at apart
      exact absurd same (head_value_ne apart other)
    · exact absurd same.symm (head_value_ne apart one)
    · rfl

end Atterm.Foundation
