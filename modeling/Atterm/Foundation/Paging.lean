/-
**Reading a list page by page while it changes.**

The items of a list stand in the order of their keys. A page is what follows a cursor, which is the key of
the last item of the page before; the list may be another one for each page, so that items come and go.

* `page`, `next` — a page, and the cursor after it;
* `Walk`, `walked` — the pages from one cursor to the end, and the items on them;
* `drop_findIdx` — a page may be found by looking for its first item.
-/

import Mathlib

namespace Atterm.Foundation.Paging

variable {α κ : Type*} [LinearOrder κ] (key : α → κ)

/-- The lists stand in the order of distinct keys. -/
def Sorted (items : List α) : Prop := items.Pairwise fun one other => key one < key other

/-- What follows a cursor; everything follows none. -/
def Beyond (after : Option κ) (a : α) : Prop := ∀ cursor ∈ after, cursor < key a

instance (after : Option κ) (a : α) : Decidable (Beyond key after a) :=
  inferInstanceAs (Decidable (∀ cursor ∈ after, cursor < key a))

def rest (after : Option κ) (items : List α) : List α := items.filter fun a => Beyond key after a

def page (limit : ℕ) (after : Option κ) (items : List α) : List α := (rest key after items).take limit

/-- The cursor for the next page, if something is left for it. -/
def next (limit : ℕ) (after : Option κ) (items : List α) : Option κ :=
  if limit < (rest key after items).length then (page key limit after items).getLast?.map key else none

/-- From a cursor to the end, with a list for each page. -/
inductive Walk (limit : ℕ) : Option κ → List (List α) → Prop
  | done (after : Option κ) (items : List α) (ended : next key limit after items = none) :
      Walk limit after [items]
  | turn (after : Option κ) (items : List α) (cursor : κ) (later : List (List α))
      (goes : next key limit after items = some cursor) (walk : Walk limit (some cursor) later) :
      Walk limit after (items :: later)

def walked (limit : ℕ) : Option κ → List (List α) → List α
  | _, [] => []
  | after, items :: later =>
    page key limit after items ++ walked limit (next key limit after items) later

variable {key} {limit : ℕ} {after : Option κ} {items : List α}

theorem mem_rest {a : α} : a ∈ rest key after items ↔ a ∈ items ∧ Beyond key after a := by
  rw [rest, List.mem_filter, decide_eq_true_iff]

theorem page_subset {a : α} (inside : a ∈ page key limit after items) : a ∈ items ∧ Beyond key after a :=
  mem_rest.mp (List.mem_of_mem_take inside)

theorem Sorted.page (sorted : Sorted key items) : Sorted key (page key limit after items) :=
  (sorted.filter _).sublist (List.take_sublist _ _)

theorem drop_findIdx (sorted : Sorted key items) :
    items.drop (items.findIdx fun a => Beyond key after a) = rest key after items := by
  induction items with
  | nil => rfl
  | cons a items ih =>
    rw [Sorted, List.pairwise_cons] at sorted
    rw [rest, List.findIdx_cons, List.filter_cons]
    by_cases beyond : Beyond key after a
    · have all : ∀ b ∈ items, Beyond key after b := fun b inside cursor held =>
        (beyond cursor held).trans (sorted.1 b inside)
      rw [decide_eq_true beyond, cond_true, List.drop_zero, if_pos rfl,
        List.filter_eq_self.mpr fun b inside => decide_eq_true (all b inside)]
    · rw [decide_eq_false beyond, cond_false, List.drop_succ_cons, if_neg Bool.false_ne_true]
      exact ih sorted.2

theorem next_mem {cursor : κ} (goes : next key limit after items = some cursor) :
    ∃ a ∈ page key limit after items, key a = cursor := by
  rw [next] at goes
  split_ifs at goes with more
  obtain ⟨a, last, same⟩ := Option.map_eq_some_iff.mp goes
  exact ⟨a, List.mem_of_getLast? last, same⟩

/-- **What is not yet on the page is beyond its cursor.** -/
theorem beyond_next (sorted : Sorted key items) (positive : 0 < limit) {a : α} (inside : a ∈ items)
    (beyond : Beyond key after a) (absent : a ∉ page key limit after items) :
    ∃ cursor, next key limit after items = some cursor ∧ cursor < key a := by
  have left : a ∈ rest key after items := mem_rest.mpr ⟨inside, beyond⟩
  rw [← List.take_append_drop limit (rest key after items), List.mem_append] at left
  have dropped := left.resolve_left absent
  have more : limit < (rest key after items).length := by
    by_contra short
    rw [List.drop_eq_nil_of_le (by omega)] at dropped
    cases dropped
  have some : page key limit after items ≠ [] := by
    rw [page, ne_eq, List.take_eq_nil_iff, not_or]
    exact ⟨by omega, List.ne_nil_of_mem (mem_rest.mpr ⟨inside, beyond⟩)⟩
  refine ⟨key ((page key limit after items).getLast some), ?_, ?_⟩
  · rw [next, if_pos more, List.getLast?_eq_some_getLast some]
    rfl
  · have apart : Sorted key (rest key after items) := sorted.filter _
    rw [Sorted, ← List.take_append_drop limit (rest key after items)] at apart
    exact (List.pairwise_append.mp apart).2.2 _ (List.getLast_mem some) a dropped

theorem le_next (sorted : Sorted key items) {cursor : κ} (goes : next key limit after items = some cursor)
    {a : α} (inside : a ∈ page key limit after items) : key a ≤ cursor := by
  rw [next] at goes
  split_ifs at goes with more
  obtain ⟨b, last, rfl⟩ := Option.map_eq_some_iff.mp goes
  obtain ⟨init, split⟩ := List.getLast?_eq_some_iff.mp last
  have apart : Sorted key (page key limit after items) := sorted.page
  rw [Sorted, split] at apart
  rw [split, List.mem_append, List.mem_singleton] at inside
  rcases inside with earlier | rfl
  · exact ((List.pairwise_append.mp apart).2.2 a earlier b (List.mem_singleton_self b)).le
  · exact le_rfl

/-- **The pages of a walk continue one another.** -/
theorem walked_sorted {lists : List (List α)} (walk : Walk key limit after lists)
    (sorted : ∀ items ∈ lists, Sorted key items) :
    Sorted key (walked key limit after lists) ∧ ∀ a ∈ walked key limit after lists, Beyond key after a := by
  induction walk with
  | done after items ended =>
    rw [walked, walked, List.append_nil]
    exact ⟨(sorted items List.mem_cons_self).page, fun a inside => (page_subset inside).2⟩
  | turn after items cursor later goes walk ih =>
    obtain ⟨rests, behind⟩ := ih fun list listed => sorted list (List.mem_cons_of_mem _ listed)
    have first := sorted items List.mem_cons_self
    rw [walked, goes]
    refine ⟨List.pairwise_append.mpr ⟨first.page, rests, fun a on b later => ?_⟩, fun a on => ?_⟩
    · exact (le_next first goes on).trans_lt (behind b later cursor rfl)
    · rcases List.mem_append.mp on with here | there
      · exact (page_subset here).2
      · obtain ⟨b, on, same⟩ := next_mem goes
        have past := (page_subset on).2
        exact fun old held => (past old held).trans (same ▸ behind a there cursor rfl)

/-- **What stays in the lists is read.** -/
theorem mem_walked {lists : List (List α)} (walk : Walk key limit after lists)
    (sorted : ∀ items ∈ lists, Sorted key items) (positive : 0 < limit) {a : α}
    (stays : ∀ items ∈ lists, a ∈ items) (beyond : Beyond key after a) :
    a ∈ walked key limit after lists := by
  induction walk with
  | done after items ended =>
    by_contra absent
    rw [walked, walked, List.append_nil] at absent
    obtain ⟨cursor, goes, _⟩ := beyond_next (sorted items List.mem_cons_self) positive
      (stays items List.mem_cons_self) beyond absent
    rw [ended] at goes
    cases goes
  | turn after items cursor later goes walk ih =>
    rw [walked, goes, List.mem_append]
    by_cases on : a ∈ page key limit after items
    · exact .inl on
    · obtain ⟨cursor', goes', past⟩ := beyond_next (sorted items List.mem_cons_self) positive
        (stays items List.mem_cons_self) beyond on
      rw [goes, Option.some.injEq] at goes'
      refine .inr (ih (fun list listed => sorted list (List.mem_cons_of_mem _ listed))
        (fun list listed => stays list (List.mem_cons_of_mem _ listed)) ?_)
      rintro _ ⟨⟩
      exact goes' ▸ past

theorem exists_of_mem_walked {lists : List (List α)} {a : α} (on : a ∈ walked key limit after lists) :
    ∃ items ∈ lists, a ∈ items := by
  induction lists generalizing after with
  | nil => cases on
  | cons items later ih =>
    rw [walked, List.mem_append] at on
    rcases on with here | there
    · exact ⟨items, List.mem_cons_self, (page_subset here).1⟩
    · obtain ⟨list, listed, inside⟩ := ih there
      exact ⟨list, List.mem_cons_of_mem _ listed, inside⟩

theorem Sorted.filter_eq_singleton (sorted : Sorted key items) {a : α} (inside : a ∈ items)
    {picked : α → Bool} (here : picked a = true) (only : ∀ b ∈ items, picked b = true → b = a) :
    items.filter picked = [a] := by
  have apart : (items.filter picked).Nodup :=
    (sorted.imp fun {one other} before same => (same ▸ before).ne rfl).filter _
  have all : ∀ b ∈ items.filter picked, b = a := fun b listed =>
    only b (List.mem_filter.mp listed).1 (List.mem_filter.mp listed).2
  have some : 0 < (items.filter picked).length :=
    List.length_pos_of_mem (List.mem_filter.mpr ⟨inside, here⟩)
  have repeated := List.eq_replicate_length.mpr all
  rw [repeated, List.nodup_replicate] at apart
  have one : (items.filter picked).length = 1 := by omega
  rw [repeated, one, List.replicate_one]

end Atterm.Foundation.Paging
