/-
**Sums over the entries of a map.**

A counter beside a map holds a sum over the values of the map. Each change of the map changes the sum by what
the changed key held before and holds after; in a map of maps the rows are such values, and a row that
becomes empty is taken out.

* `tally`, `weight` — the sum, and what one key contributes to it;
* `tally_insert`, `tally_erase` — how a change of the map moves the sum;
* `tally_update` — and how a change of one weight moves it.
-/

import Atterm.Foundation.TreeMapFold

set_option linter.unusedSectionVars false

namespace Atterm.Foundation.Tally

open Std (ExtTreeMap TransCmp LawfulEqCmp)

variable {α β : Type*} {cmp : α → α → Ordering} [TransCmp cmp] [LawfulEqCmp cmp]

def tally (f : β → ℤ) (map : ExtTreeMap α β cmp) : ℤ := ((mapValues map).map f).sum

/-- What the value of a key weighs; a missing one weighs nothing. -/
def weight (f : β → ℤ) (map : ExtTreeMap α β cmp) (key : α) : ℤ := (map[key]?.map f).getD 0

section Sums

variable {f : β → ℤ} {map : ExtTreeMap α β cmp} {key : α} {value : β}

theorem weight_of_some (held : map[key]? = some value) : weight f map key = f value := by
  rw [weight, held]
  rfl

theorem weight_of_none (absent : map[key]? = none) : weight f map key = 0 := by
  rw [weight, absent]
  rfl

@[simp] theorem tally_empty : tally f (∅ : ExtTreeMap α β cmp) = 0 := by
  have none : (mapValues (∅ : ExtTreeMap α β cmp)) = [] := by
    refine List.eq_nil_iff_forall_not_mem.mpr fun value listed => ?_
    obtain ⟨key, held⟩ := (mem_mapValues_iff _ _).mp listed
    rw [ExtTreeMap.getElem?_empty] at held
    cases held
  rw [tally, none]
  rfl

theorem toList_perm (held : map[key]? = some value) :
    map.toList.Perm ((key, value) :: (map.erase key).toList) := by
  have distinct {m : ExtTreeMap α β cmp} : m.toList.Nodup := List.Nodup.of_map Prod.fst (nodup_keys_toList m)
  have absent : (key, value) ∉ (map.erase key).toList := by
    rw [ExtTreeMap.mem_toList_iff_getElem?_eq_some, ExtTreeMap.getElem?_erase_self]
    exact nofun
  refine (List.perm_ext_iff_of_nodup distinct (List.nodup_cons.mpr ⟨absent, distinct⟩)).mpr ?_
  rintro ⟨other, found⟩
  rw [List.mem_cons, ExtTreeMap.mem_toList_iff_getElem?_eq_some, ExtTreeMap.mem_toList_iff_getElem?_eq_some,
    Prod.mk.injEq]
  by_cases same : other = key
  · subst same
    rw [ExtTreeMap.getElem?_erase_self, held, Option.some.injEq]
    simp [eq_comm]
  · rw [getElem?_erase_of_ne _ same]
    simp [same]

theorem erase_of_none (absent : map[key]? = none) : map.erase key = map := by
  refine ExtTreeMap.ext_getElem? fun other => ?_
  by_cases same : other = key
  · rw [same, ExtTreeMap.getElem?_erase_self, absent]
  · exact getElem?_erase_of_ne _ same

/-- **What is taken out no longer counts.** -/
theorem tally_erase (f : β → ℤ) (map : ExtTreeMap α β cmp) (key : α) :
    tally f (map.erase key) = tally f map - weight f map key := by
  cases held : map[key]? with
  | none => rw [erase_of_none held, weight_of_none held, sub_zero]
  | some value =>
    have sum := (((toList_perm held).map Prod.snd).map f).sum_eq
    rw [List.map_cons, List.map_cons, List.sum_cons] at sum
    rw [weight_of_some held, tally, tally, mapValues, mapValues, sum]
    ring

/-- **A new value counts in place of the old one.** -/
theorem tally_insert (f : β → ℤ) (map : ExtTreeMap α β cmp) (key : α) (value : β) :
    tally f (map.insert key value) = tally f map - weight f map key + f value := by
  have same : (map.insert key value).erase key = map.erase key := by
    refine ExtTreeMap.ext_getElem? fun other => ?_
    by_cases here : other = key
    · rw [here, ExtTreeMap.getElem?_erase_self, ExtTreeMap.getElem?_erase_self]
    · rw [getElem?_erase_of_ne _ here, getElem?_erase_of_ne _ here, getElem?_insert_of_ne _ _ here]
  have rest := tally_erase f (map.insert key value) key
  rw [same, tally_erase, weight_of_some ExtTreeMap.getElem?_insert_self] at rest
  linarith

/-! ### Other weights -/

theorem tally_congr {g : β → ℤ} (same : ∀ (key : α) (value : β), map[key]? = some value → g value = f value) :
    tally g map = tally f map := by
  refine congrArg List.sum (List.map_congr_left fun value listed => ?_)
  obtain ⟨key, held⟩ := (mem_mapValues_iff _ _).mp listed
  exact same key value held

theorem tally_update {g : β → ℤ} (held : map[key]? = some value)
    (others : ∀ (other : α) (value : β), other ≠ key → map[other]? = some value → g value = f value) :
    tally g map = tally f map - f value + g value := by
  have rest : tally g (map.erase key) = tally f (map.erase key) := by
    refine tally_congr fun other value found => ?_
    have apart : other ≠ key := by
      rintro rfl
      rw [ExtTreeMap.getElem?_erase_self] at found
      cases found
    rw [getElem?_erase_of_ne _ apart] at found
    exact others other value apart found
  rw [tally_erase, tally_erase, weight_of_some held, weight_of_some held] at rest
  linarith

/-! ### Values that weigh something -/

theorem tally_nonneg (positive : ∀ value, 0 ≤ f value) (map : ExtTreeMap α β cmp) : 0 ≤ tally f map := by
  refine List.sum_nonneg fun summand listed => ?_
  obtain ⟨value, _, rfl⟩ := List.mem_map.mp listed
  exact positive value

theorem weight_le_tally (positive : ∀ value, 0 ≤ f value) (map : ExtTreeMap α β cmp) (key : α) :
    weight f map key ≤ tally f map := by
  have rest := tally_nonneg positive (map.erase key)
  rw [tally_erase] at rest
  linarith

theorem exists_of_ne_empty (inhabited : map ≠ ∅) :
    ∃ (key : α) (value : β), map[key]? = some value := by
  by_contra none
  push Not at none
  refine inhabited (ExtTreeMap.ext_getElem? fun key => ?_)
  rw [ExtTreeMap.getElem?_empty]
  exact Option.eq_none_iff_forall_ne_some.mpr (none key)

end Sums

/-! ### Maps of maps -/

section Rows

variable {γ : Type*} {cmp' : γ → γ → Ordering} [TransCmp cmp'] [LawfulEqCmp cmp']

def row (map : ExtTreeMap α (ExtTreeMap γ β cmp') cmp) (key : α) : ExtTreeMap γ β cmp' :=
  (map[key]?).getD ∅

/-- A row is written, or taken out if it is empty. -/
def put (map : ExtTreeMap α (ExtTreeMap γ β cmp') cmp) (key : α) (new : ExtTreeMap γ β cmp') :
    ExtTreeMap α (ExtTreeMap γ β cmp') cmp :=
  if new.isEmpty then map.erase key else map.insert key new

variable {map : ExtTreeMap α (ExtTreeMap γ β cmp') cmp} {key other : α} {new : ExtTreeMap γ β cmp'}

theorem row_of_some (held : map[key]? = some new) : row map key = new := by
  rw [row, held]
  rfl

@[simp] theorem row_insert_self (map : ExtTreeMap α (ExtTreeMap γ β cmp') cmp) (key : α)
    (new : ExtTreeMap γ β cmp') : row (map.insert key new) key = new :=
  row_of_some ExtTreeMap.getElem?_insert_self

theorem row_insert_of_ne (apart : other ≠ key) : row (map.insert key new) other = row map other := by
  rw [row, getElem?_insert_of_ne _ _ apart, row]

theorem getElem?_put_of_ne (apart : other ≠ key) : (put map key new)[other]? = map[other]? := by
  rw [put]
  split_ifs
  · exact getElem?_erase_of_ne _ apart
  · exact getElem?_insert_of_ne _ _ apart

@[simp] theorem row_put_self (map : ExtTreeMap α (ExtTreeMap γ β cmp') cmp) (key : α)
    (new : ExtTreeMap γ β cmp') : row (put map key new) key = new := by
  rw [row, put]
  split_ifs with empty
  · rw [ExtTreeMap.getElem?_erase_self]
    exact (ExtTreeMap.isEmpty_iff.mp empty).symm
  · rw [ExtTreeMap.getElem?_insert_self]
    rfl

theorem row_put_of_ne (apart : other ≠ key) : row (put map key new) other = row map other := by
  rw [row, getElem?_put_of_ne apart, row]

theorem getElem?_of_row {value : β} {k : γ} (held : (row map key)[k]? = some value) :
    map[key]? = some (row map key) := by
  cases found : map[key]? with
  | none =>
    rw [row, found, Option.getD_none, ExtTreeMap.getElem?_empty] at held
    cases held
  | some new => rw [row_of_some found]

theorem weight_tally (f : β → ℤ) (map : ExtTreeMap α (ExtTreeMap γ β cmp') cmp) (key : α) :
    weight (tally f) map key = tally f (row map key) := by
  cases held : map[key]? with
  | none =>
    rw [weight_of_none held, row, held]
    exact tally_empty.symm
  | some new => rw [weight_of_some held, row_of_some held]

/-- **A new row counts in place of the old one.** -/
theorem tally_insert_row (f : β → ℤ) (map : ExtTreeMap α (ExtTreeMap γ β cmp') cmp) (key : α)
    (new : ExtTreeMap γ β cmp') : tally (tally f) (map.insert key new) =
      tally (tally f) map - tally f (row map key) + tally f new := by
  rw [tally_insert, weight_tally]

theorem tally_put (f : β → ℤ) (map : ExtTreeMap α (ExtTreeMap γ β cmp') cmp) (key : α)
    (new : ExtTreeMap γ β cmp') :
    tally (tally f) (put map key new) = tally (tally f) map - tally f (row map key) + tally f new := by
  rw [put]
  split_ifs with empty
  · rw [tally_erase, weight_tally, ExtTreeMap.isEmpty_iff.mp empty, tally_empty, add_zero]
  · rw [tally_insert, weight_tally]

def Rows (map : ExtTreeMap α (ExtTreeMap γ β cmp') cmp) : Prop := ∀ key : α, map[key]? ≠ some ∅

theorem rows_empty : Rows (∅ : ExtTreeMap α (ExtTreeMap γ β cmp') cmp) := by
  intro key held
  rw [ExtTreeMap.getElem?_empty] at held
  cases held

/-- **Writing a row leaves no empty one.** -/
theorem Rows.put (rows : ∀ other : α, other ≠ key → map[other]? ≠ some ∅) : Rows (put map key new) := by
  intro other held
  by_cases here : other = key
  · subst here
    rw [Tally.put] at held
    split_ifs at held with empty
    · rw [ExtTreeMap.getElem?_erase_self] at held
      cases held
    · rw [ExtTreeMap.getElem?_insert_self, Option.some.injEq] at held
      exact empty (ExtTreeMap.isEmpty_iff.mpr held)
  · rw [getElem?_put_of_ne here] at held
    exact rows other here held

theorem Rows.insert (rows : Rows map) (inhabited : new ≠ ∅) : Rows (map.insert key new) := by
  intro other held
  by_cases here : other = key
  · rw [here, ExtTreeMap.getElem?_insert_self, Option.some.injEq] at held
    exact inhabited held
  · rw [getElem?_insert_of_ne _ _ here] at held
    exact rows other held

theorem ne_empty_of_some {value : β} {k : γ} (held : new[k]? = some value) : new ≠ ∅ := by
  rintro rfl
  rw [ExtTreeMap.getElem?_empty] at held
  cases held

end Rows

end Atterm.Foundation.Tally
