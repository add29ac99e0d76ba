/-
**Lists of records with ids.**

A map that is filled from a list holds the last record of each id. Putting a record into the list replaces
that one, or appends the record where its id is new.

* `lastWith`, `put` — the last record of an id, and the list with a record put in;
* `lastWith_put`, `lastWith_putAll`, `lastWith_putDiffering` — what is found behind one record, behind many
  with distinct ids, and behind those of them that differ;
* `keys_prefix_putAll` — no id is lost.
-/

import Mathlib

namespace Atterm.Foundation

section

variable {α κ : Type*} [DecidableEq κ] (key : α → κ)

def lastWith (id : κ) : List α → Option α
  | [] => none
  | x :: xs => (lastWith id xs).or (if key x = id then some x else none)

/-- The list with the last record of the id replaced, if there is one. -/
def replaceLast (a : α) : List α → Option (List α)
  | [] => none
  | x :: xs => ((replaceLast a xs).map (x :: ·)).or (if key x = key a then some (a :: xs) else none)

def put (xs : List α) (a : α) : List α := (replaceLast key a xs).getD (xs ++ [a])

variable {key}

theorem lastWith_append (id : κ) (xs ys : List α) :
    lastWith key id (xs ++ ys) = (lastWith key id ys).or (lastWith key id xs) := by
  induction xs with
  | nil => simp [lastWith]
  | cons x xs ih => rw [List.cons_append, lastWith, lastWith, ih, Option.or_assoc]

theorem lastWith_eq_none_iff (id : κ) (xs : List α) :
    lastWith key id xs = none ↔ ∀ x ∈ xs, key x ≠ id := by
  induction xs with
  | nil => simp [lastWith]
  | cons x xs ih =>
    rw [lastWith, Option.or_eq_none_iff, ih, List.forall_mem_cons, and_comm]
    exact and_congr_left fun _ => by by_cases same : key x = id <;> simp [same]

theorem lastWith_mem {id : κ} {xs : List α} {x : α} (found : lastWith key id xs = some x) :
    x ∈ xs ∧ key x = id := by
  induction xs with
  | nil => cases found
  | cons y xs ih =>
    rw [lastWith, Option.or_eq_some_iff] at found
    rcases found with later | ⟨_, here⟩
    · exact ⟨List.mem_cons_of_mem _ (ih later).1, (ih later).2⟩
    · split at here
      · next same =>
          cases here
          exact ⟨List.mem_cons_self, same⟩
      · cases here

theorem lastWith_of_mem {xs : List α} (distinct : (xs.map key).Nodup) {x : α} (inside : x ∈ xs) :
    lastWith key (key x) xs = some x := by
  induction xs with
  | nil => cases inside
  | cons y xs ih =>
    rw [List.map_cons, List.nodup_cons] at distinct
    rw [lastWith]
    rcases List.mem_cons.mp inside with rfl | later
    · have none : lastWith key (key x) xs = none :=
        (lastWith_eq_none_iff _ _).mpr fun z listed same =>
          distinct.1 (List.mem_map.mpr ⟨z, listed, same⟩)
      rw [none, if_pos rfl, Option.none_or]
    · rw [ih distinct.2 later, Option.some_or]

theorem lastWith_forall₂ {R : α → α → Prop} (sameKey : ∀ x y, R x y → key y = key x) {xs ys : List α}
    (related : List.Forall₂ R xs ys) (id : κ) :
    (lastWith key id xs = none ∧ lastWith key id ys = none) ∨
      ∃ x y, lastWith key id xs = some x ∧ lastWith key id ys = some y ∧ R x y := by
  induction related with
  | nil => exact .inl ⟨rfl, rfl⟩
  | @cons x y xs ys first _ ih =>
    rw [lastWith, lastWith, sameKey x y first]
    rcases ih with ⟨none, none'⟩ | ⟨a, b, found, found', related⟩
    · rw [none, none', Option.none_or, Option.none_or]
      split_ifs
      · exact .inr ⟨x, y, rfl, rfl, first⟩
      · exact .inl ⟨rfl, rfl⟩
    · rw [found, found', Option.some_or, Option.some_or]
      exact .inr ⟨a, b, rfl, rfl, related⟩

theorem replaceLast_eq_none_iff (a : α) (xs : List α) :
    replaceLast key a xs = none ↔ lastWith key (key a) xs = none := by
  induction xs with
  | nil => simp [replaceLast, lastWith]
  | cons x xs ih =>
    rw [replaceLast, lastWith, Option.or_eq_none_iff, Option.or_eq_none_iff, Option.map_eq_none_iff, ih]
    by_cases same : key x = key a <;> simp [same]

theorem lastWith_replaceLast {a : α} {xs ys : List α} (replaced : replaceLast key a xs = some ys) (id : κ) :
    lastWith key id ys = if id = key a then some a else lastWith key id xs := by
  induction xs generalizing ys with
  | nil => cases replaced
  | cons x xs ih =>
    rw [replaceLast, Option.or_eq_some_iff] at replaced
    rcases replaced with later | ⟨none, here⟩
    · obtain ⟨rest, inner, rfl⟩ := Option.map_eq_some_iff.mp later
      rw [lastWith, ih inner, lastWith]
      by_cases same : id = key a <;> simp [same]
    · rw [Option.map_eq_none_iff, replaceLast_eq_none_iff] at none
      split at here
      · next equal =>
          cases here
          rw [lastWith, lastWith]
          by_cases same : id = key a
          · rw [if_pos same, if_pos same.symm, same, none, Option.none_or]
          · rw [if_neg same, if_neg (Ne.symm same), if_neg (equal ▸ Ne.symm same)]
      · cases here

/-- **What is found behind a record that was put in.** -/
theorem lastWith_put (xs : List α) (a : α) (id : κ) :
    lastWith key id (put key xs a) = if id = key a then some a else lastWith key id xs := by
  rw [put]
  cases replaced : replaceLast key a xs with
  | some ys => exact lastWith_replaceLast replaced id
  | none =>
    rw [Option.getD_none, lastWith_append, lastWith, lastWith]
    by_cases same : id = key a
    · simp [same]
    · simp [same, Ne.symm same]

theorem keys_replaceLast {a : α} {xs ys : List α} (replaced : replaceLast key a xs = some ys) :
    ys.map key = xs.map key := by
  induction xs generalizing ys with
  | nil => cases replaced
  | cons x xs ih =>
    rw [replaceLast, Option.or_eq_some_iff] at replaced
    rcases replaced with later | ⟨_, here⟩
    · obtain ⟨rest, inner, rfl⟩ := Option.map_eq_some_iff.mp later
      rw [List.map_cons, List.map_cons, ih inner]
    · split at here
      · next equal =>
          cases here
          rw [List.map_cons, List.map_cons, equal]
      · cases here

theorem keys_prefix_put (xs : List α) (a : α) : xs.map key <+: (put key xs a).map key := by
  rw [put]
  cases replaced : replaceLast key a xs with
  | some ys => rw [Option.getD_some, keys_replaceLast replaced]
  | none =>
    rw [Option.getD_none, List.map_append]
    exact List.prefix_append _ _

theorem keys_prefix_putAll (xs as : List α) : xs.map key <+: (as.foldl (put key) xs).map key := by
  induction as generalizing xs with
  | nil => exact List.prefix_refl _
  | cons a as ih => exact (keys_prefix_put xs a).trans (ih (put key xs a))

/-- **What is found behind records with distinct ids.** -/
theorem lastWith_putAll (xs : List α) {as : List α} (distinct : (as.map key).Nodup) (id : κ) :
    lastWith key id (as.foldl (put key) xs) = (lastWith key id as).or (lastWith key id xs) := by
  induction as generalizing xs with
  | nil => rfl
  | cons a as ih =>
    rw [List.map_cons, List.nodup_cons] at distinct
    rw [List.foldl_cons, ih _ distinct.2, lastWith_put, lastWith, Option.or_assoc]
    by_cases same : id = key a
    · simp [same]
    · simp [same, Ne.symm same]

theorem lastWith_putDiffering [DecidableEq α] (xs : List α) {as : List α} (distinct : (as.map key).Nodup)
    {a : α} (listed : a ∈ as) :
    lastWith key (key a)
        ((as.filter fun a => lastWith key (key a) xs ≠ some a).foldl (put key) xs) = some a := by
  have fewer : ((as.filter fun a => lastWith key (key a) xs ≠ some a).map key).Nodup :=
    distinct.sublist (List.filter_sublist.map key)
  rw [lastWith_putAll xs fewer]
  by_cases held : lastWith key (key a) xs = some a
  · have absent : lastWith key (key a) (as.filter fun a => lastWith key (key a) xs ≠ some a) = none := by
      rw [lastWith_eq_none_iff]
      intro b inside same
      obtain ⟨of, differs⟩ := List.mem_filter.mp inside
      cases List.inj_on_of_nodup_map distinct of listed same
      exact of_decide_eq_true differs held
    rw [absent, held, Option.none_or]
  · rw [lastWith_of_mem fewer (List.mem_filter.mpr ⟨listed, decide_eq_true held⟩), Option.some_or]

/-! ### Places -/

theorem getElem?_replaceLast {a : α} {xs ys : List α} (replaced : replaceLast key a xs = some ys)
    {i : ℕ} {x : α} (at_i : xs[i]? = some x) :
    ys[i]? = some x ∨ ys[i]? = some a ∧ lastWith key (key a) xs = some x := by
  induction xs generalizing ys i with
  | nil => cases replaced
  | cons y xs ih =>
    rw [replaceLast, Option.or_eq_some_iff] at replaced
    rcases replaced with later | ⟨none, here⟩
    · obtain ⟨rest, inner, rfl⟩ := Option.map_eq_some_iff.mp later
      cases i with
      | zero => exact .inl at_i
      | succ i =>
        rw [lastWith]
        rcases ih inner at_i with same | ⟨put, found⟩
        · exact .inl same
        · exact .inr ⟨put, by rw [found, Option.some_or]⟩
    · rw [Option.map_eq_none_iff, replaceLast_eq_none_iff] at none
      split at here
      · next equal =>
          cases here
          cases i with
          | zero =>
            cases at_i
            exact .inr ⟨rfl, by rw [lastWith, none, if_pos equal, Option.none_or]⟩
          | succ i => exact .inl at_i
      · cases here

variable (key) in
theorem getElem?_put {xs : List α} {i : ℕ} {x : α} (at_i : xs[i]? = some x) (a : α) :
    (put key xs a)[i]? = some x ∨ (put key xs a)[i]? = some a ∧ lastWith key (key a) xs = some x := by
  rw [put]
  cases replaced : replaceLast key a xs with
  | some ys => exact getElem?_replaceLast replaced at_i
  | none =>
    obtain ⟨inside, _⟩ := List.getElem?_eq_some_iff.mp at_i
    rw [Option.getD_none, List.getElem?_append_left inside]
    exact .inl at_i

theorem replaceLast_place {a : α} {xs ys : List α} (replaced : replaceLast key a xs = some ys) {x : α}
    (found : lastWith key (key a) xs = some x) : ∃ i : ℕ, xs[i]? = some x ∧ ys[i]? = some a := by
  induction xs generalizing ys with
  | nil => cases replaced
  | cons y xs ih =>
    rw [replaceLast, Option.or_eq_some_iff] at replaced
    rcases replaced with later | ⟨none, here⟩
    · obtain ⟨rest, inner, rfl⟩ := Option.map_eq_some_iff.mp later
      have there : lastWith key (key a) xs ≠ none := fun absent => by
        rw [← replaceLast_eq_none_iff, inner] at absent
        cases absent
      obtain ⟨z, last⟩ := Option.ne_none_iff_exists'.mp there
      rw [lastWith, last, Option.some_or] at found
      cases found
      obtain ⟨i, at_i, put⟩ := ih inner last
      exact ⟨i + 1, at_i, put⟩
    · rw [Option.map_eq_none_iff, replaceLast_eq_none_iff] at none
      split at here
      · next equal =>
          cases here
          rw [lastWith, none, if_pos equal, Option.none_or] at found
          cases found
          exact ⟨0, rfl, rfl⟩
      · cases here

theorem put_place {xs : List α} {a x : α} (found : lastWith key (key a) xs = some x) :
    ∃ i : ℕ, xs[i]? = some x ∧ (put key xs a)[i]? = some a := by
  rw [put]
  cases replaced : replaceLast key a xs with
  | some ys => exact replaceLast_place replaced found
  | none =>
    rw [replaceLast_eq_none_iff, found] at replaced
    cases replaced

theorem getElem?_putAll {xs as : List α} (distinct : (as.map key).Nodup) {i : ℕ} {x : α}
    (at_i : xs[i]? = some x) :
    (as.foldl (put key) xs)[i]? = some x ∨
      ∃ a ∈ as, (as.foldl (put key) xs)[i]? = some a ∧ lastWith key (key a) xs = some x := by
  induction as generalizing xs x with
  | nil => exact .inl at_i
  | cons b as ih =>
    rw [List.map_cons, List.nodup_cons] at distinct
    have fresh : ∀ a ∈ as, key a ≠ key b := fun a listed same =>
      distinct.1 (List.mem_map.mpr ⟨a, listed, same⟩)
    rw [List.foldl_cons]
    rcases getElem?_put key at_i b with same | ⟨replaced, found⟩
    · rcases ih distinct.2 same with same | ⟨a, listed, put, found⟩
      · exact .inl same
      · rw [lastWith_put, if_neg (fresh a listed)] at found
        exact .inr ⟨a, List.mem_cons_of_mem _ listed, put, found⟩
    · rcases ih distinct.2 replaced with same | ⟨a, listed, _, again⟩
      · exact .inr ⟨b, List.mem_cons_self, same, found⟩
      · have taken := (lastWith_mem again).2
        exact absurd taken.symm (fresh a listed)

theorem getElem?_replaceLast_back {a : α} {xs ys : List α} (replaced : replaceLast key a xs = some ys) {i : ℕ}
    {y : α} (at_i : ys[i]? = some y) : xs[i]? = some y ∨ y = a := by
  induction xs generalizing ys i with
  | nil => cases replaced
  | cons x xs ih =>
    rw [replaceLast, Option.or_eq_some_iff] at replaced
    rcases replaced with later | ⟨_, here⟩
    · obtain ⟨rest, inner, rfl⟩ := Option.map_eq_some_iff.mp later
      cases i with
      | zero => exact .inl at_i
      | succ i => exact ih inner at_i
    · split at here
      · cases here
        cases i with
        | zero => exact .inr (Option.some.inj at_i).symm
        | succ i => exact .inl at_i
      · cases here

theorem getElem?_put_back {xs : List α} {a y : α} {i : ℕ} (at_i : (put key xs a)[i]? = some y) :
    xs[i]? = some y ∨ y = a := by
  rw [put] at at_i
  cases replaced : replaceLast key a xs with
  | some ys =>
    rw [replaced] at at_i
    exact getElem?_replaceLast_back replaced at_i
  | none =>
    rw [replaced, Option.getD_none, List.getElem?_append] at at_i
    split_ifs at at_i with inside
    · exact .inl at_i
    · exact .inr (List.mem_singleton.mp (List.mem_of_getElem? at_i))

/-- **Each record with an id that was there has the place of the one it replaces.** -/
theorem putAll_place {xs as : List α} (distinct : (as.map key).Nodup) {a x : α} (listed : a ∈ as)
    (found : lastWith key (key a) xs = some x) :
    ∃ i : ℕ, xs[i]? = some x ∧ (as.foldl (put key) xs)[i]? = some a := by
  induction as generalizing xs with
  | nil => cases listed
  | cons b as ih =>
    rw [List.map_cons, List.nodup_cons] at distinct
    rw [List.foldl_cons]
    rcases List.mem_cons.mp listed with rfl | later
    · obtain ⟨i, at_i, replaced⟩ := put_place found
      refine ⟨i, at_i, ?_⟩
      rcases getElem?_putAll distinct.2 replaced with same | ⟨c, of, _, taken⟩
      · exact same
      · exact absurd (List.mem_map.mpr ⟨c, of, (lastWith_mem taken).2.symm⟩) distinct.1
    · have other : key a ≠ key b := fun same => distinct.1 (List.mem_map.mpr ⟨a, later, same⟩)
      obtain ⟨i, at_i, put⟩ := ih distinct.2 later (by rwa [lastWith_put, if_neg other])
      refine ⟨i, ?_, put⟩
      rcases getElem?_put_back at_i with same | rfl
      · exact same
      · exact absurd (lastWith_mem found).2.symm other

end

end Atterm.Foundation
