/-
**Keeping the earliest time.**

`keepEarlier` is a cell that holds the earliest time it was given. `record` is a map of such cells
and `recordAll` files a list of entries in one. What a cell holds is the least of its times, so
neither the order nor the repetition of the entries matters.

* `foldl_keepEarlier_eq_some_iff` — a cell holds the least of its times;
* `getElem?_recordAll` — every key of a map is such a cell;
* `getElem?_recordAll_eq_some_iff`, `recordAll_congr` — the same for a map.
-/

import Mathlib

namespace Atterm.Foundation

open Std (ExtTreeMap TransCmp LawfulEqCmp)

section Cell

variable {τ : Type*} [LinearOrder τ]

def keepEarlier (held : Option τ) (time : τ) : Option τ :=
  match held with
  | none => some time
  | some existing => if time < existing then some time else some existing

theorem keepEarlier_isLeast (held : Option τ) (time : τ) :
    ∃ kept, keepEarlier held time = some kept ∧
      IsLeast {found | held = some found ∨ found = time} kept := by
  cases held with
  | none =>
    refine ⟨time, rfl, Or.inr rfl, ?_⟩
    rintro found (old | rfl)
    · cases old
    · exact le_rfl
  | some existing =>
    by_cases earlier : time < existing
    · refine ⟨time, if_pos earlier, Or.inr rfl, ?_⟩
      rintro found (old | rfl)
      · cases old
        exact earlier.le
      · exact le_rfl
    · refine ⟨existing, if_neg earlier, Or.inl rfl, ?_⟩
      rintro found (old | rfl)
      · cases old
        exact le_rfl
      · exact not_lt.mp earlier

/-- **A cell holds the least of its times.** -/
theorem foldl_keepEarlier_eq_some_iff (held : Option τ) (times : List τ) (time : τ) :
    times.foldl keepEarlier held = some time ↔
      IsLeast {found | held = some found ∨ found ∈ times} time := by
  induction times generalizing held with
  | nil =>
    constructor
    · intro kept
      refine ⟨Or.inl kept, ?_⟩
      rintro found (old | listed)
      · rw [show held = some time from kept, Option.some.injEq] at old
        exact old.le
      · cases listed
    · rintro ⟨kept | listed, _⟩
      · exact kept
      · cases listed
  | cons first rest ih =>
    obtain ⟨kept, holds, member, least⟩ := keepEarlier_isLeast held first
    rw [List.foldl_cons, ih, holds]
    -- the time that was kept bounds both of those it stands for
    have member' : held = some kept ∨ kept = first := member
    have bounds : ∀ found, (held = some found ∨ found = first) → kept ≤ found :=
      fun found old => least old
    constructor
    · rintro ⟨inside, lower⟩
      have low : time ≤ kept := lower (Or.inl rfl)
      refine ⟨?_, ?_⟩
      · rcases inside with same | later
        · rw [Option.some.injEq] at same
          subst same
          rcases member' with before | rfl
          · exact Or.inl before
          · exact Or.inr List.mem_cons_self
        · exact Or.inr (List.mem_cons_of_mem _ later)
      · rintro found (old | listed)
        · exact low.trans (bounds found (Or.inl old))
        · rcases List.mem_cons.mp listed with rfl | later
          · exact low.trans (bounds found (Or.inr rfl))
          · exact lower (Or.inr later)
    · rintro ⟨inside, lower⟩
      have low : time ≤ kept := by
        rcases member' with before | rfl
        · exact lower (Or.inl before)
        · exact lower (Or.inr List.mem_cons_self)
      refine ⟨?_, ?_⟩
      · rcases inside with old | listed
        · exact Or.inl (congrArg some (le_antisymm (bounds time (Or.inl old)) low))
        · rcases List.mem_cons.mp listed with rfl | later
          · exact Or.inl (congrArg some (le_antisymm (bounds _ (Or.inr rfl)) low))
          · exact Or.inr later
      · rintro found (same | later)
        · rw [Option.some.injEq] at same
          exact same ▸ low
        · exact lower (Or.inr (List.mem_cons_of_mem _ later))

theorem foldl_keepEarlier_congr (held : Option τ) {first second : List τ}
    (same : ∀ time, time ∈ first ↔ time ∈ second) :
    first.foldl keepEarlier held = second.foldl keepEarlier held := by
  refine Option.ext fun time => ?_
  have times : {found | held = some found ∨ found ∈ first} =
      {found | held = some found ∨ found ∈ second} := by
    ext found
    show _ ∨ _ ↔ _ ∨ _
    rw [same]
  rw [foldl_keepEarlier_eq_some_iff, foldl_keepEarlier_eq_some_iff, times]

theorem foldl_keepEarlier_mono {held : Option τ} (times : List τ) {time : τ}
    (holds : held = some time) : ∃ kept ≤ time, times.foldl keepEarlier held = some kept := by
  induction times generalizing held time with
  | nil => exact ⟨time, le_rfl, holds⟩
  | cons first rest ih =>
    obtain ⟨middle, found, _, least⟩ := keepEarlier_isLeast held first
    obtain ⟨kept, lower, last⟩ := ih found
    exact ⟨kept, lower.trans (least (Or.inl holds)), last⟩

end Cell

section Entries

variable {α τ : Type*} [DecidableEq α]

def timesOf (entries : List (α × τ)) (key : α) : List τ :=
  (entries.filter fun entry => entry.1 = key).map Prod.snd

theorem mem_timesOf (entries : List (α × τ)) (key : α) (time : τ) :
    time ∈ timesOf entries key ↔ (key, time) ∈ entries := by
  unfold timesOf
  rw [List.mem_map]
  constructor
  · rintro ⟨⟨found, filed⟩, member, rfl⟩
    rw [List.mem_filter, decide_eq_true_eq] at member
    rw [← member.2]
    exact member.1
  · intro member
    exact ⟨(key, time), List.mem_filter.mpr ⟨member, decide_eq_true rfl⟩, rfl⟩

end Entries

section Map

variable {α τ : Type*} [LinearOrder τ] {cmp : α → α → Ordering} [TransCmp cmp]

/-- File a time under a key unless the key holds one that is not later. -/
def record (map : ExtTreeMap α τ cmp) (key : α) (time : τ) : ExtTreeMap α τ cmp :=
  match map[key]? with
  | none => map.insert key time
  | some existing => if time < existing then map.insert key time else map

def recordAll (map : ExtTreeMap α τ cmp) (entries : List (α × τ)) : ExtTreeMap α τ cmp :=
  entries.foldl (fun filled entry => record filled entry.1 entry.2) map

theorem recordAll_append (map : ExtTreeMap α τ cmp) (first second : List (α × τ)) :
    recordAll map (first ++ second) = recordAll (recordAll map first) second :=
  List.foldl_append

variable [LawfulEqCmp cmp] [DecidableEq α]

theorem getElem?_record (map : ExtTreeMap α τ cmp) (key other : α) (time : τ) :
    (record map key time)[other]? =
      if key = other then keepEarlier map[other]? time else map[other]? := by
  have insert : (map.insert key time)[other]? = if key = other then some time else map[other]? := by
    rw [ExtTreeMap.getElem?_insert]
    by_cases same : key = other
    · rw [if_pos same, if_pos (LawfulEqCmp.compare_eq_iff_eq.mpr same)]
    · rw [if_neg same, if_neg fun equal => same (LawfulEqCmp.compare_eq_iff_eq.mp equal)]
  unfold record
  cases held : map[key]? with
  | none =>
    show (map.insert key time)[other]? = _
    rw [insert]
    by_cases same : key = other
    · rw [if_pos same, if_pos same, ← same, held]
      rfl
    · rw [if_neg same, if_neg same]
  | some existing =>
    show (if time < existing then map.insert key time else map)[other]? = _
    by_cases same : key = other
    · subst same
      rw [if_pos rfl, held]
      by_cases earlier : time < existing
      · rw [if_pos earlier, insert, if_pos rfl]
        exact (if_pos earlier).symm
      · rw [if_neg earlier, held]
        exact (if_neg earlier).symm
    · rw [if_neg same]
      by_cases earlier : time < existing
      · rw [if_pos earlier, insert, if_neg same]
      · rw [if_neg earlier]

/-- **Every key is a cell** of its own. -/
theorem getElem?_recordAll (map : ExtTreeMap α τ cmp) (entries : List (α × τ)) (key : α) :
    (recordAll map entries)[key]? = (timesOf entries key).foldl keepEarlier map[key]? := by
  induction entries generalizing map with
  | nil => rfl
  | cons entry rest ih =>
    show (recordAll (record map entry.1 entry.2) rest)[key]? = _
    rw [ih, getElem?_record]
    by_cases same : entry.1 = key
    · rw [if_pos same]
      have times : timesOf (entry :: rest) key = entry.2 :: timesOf rest key := by
        simp [timesOf, same]
      rw [times, List.foldl_cons]
    · rw [if_neg same]
      have times : timesOf (entry :: rest) key = timesOf rest key := by
        simp [timesOf, same]
      rw [times]

theorem getElem?_recordAll_eq_some_iff (map : ExtTreeMap α τ cmp) (entries : List (α × τ)) (key : α)
    (time : τ) : (recordAll map entries)[key]? = some time ↔
      IsLeast {found | map[key]? = some found ∨ (key, found) ∈ entries} time := by
  rw [getElem?_recordAll, foldl_keepEarlier_eq_some_iff]
  have times : {found | map[key]? = some found ∨ found ∈ timesOf entries key} =
      {found | map[key]? = some found ∨ (key, found) ∈ entries} := by
    ext found
    show _ ∨ _ ↔ _ ∨ _
    rw [mem_timesOf]
  rw [times]

/-- **Neither order nor repetition matters.** -/
theorem recordAll_congr (map : ExtTreeMap α τ cmp) {first second : List (α × τ)}
    (same : ∀ entry, entry ∈ first ↔ entry ∈ second) : recordAll map first = recordAll map second := by
  refine ExtTreeMap.ext_getElem? fun key => ?_
  rw [getElem?_recordAll, getElem?_recordAll]
  refine foldl_keepEarlier_congr _ fun time => ?_
  rw [mem_timesOf, mem_timesOf, same]

theorem recordAll_mono (map : ExtTreeMap α τ cmp) (entries : List (α × τ)) {key : α} {time : τ}
    (held : map[key]? = some time) :
    ∃ kept ≤ time, (recordAll map entries)[key]? = some kept := by
  rw [getElem?_recordAll]
  exact foldl_keepEarlier_mono _ held

end Map

end Atterm.Foundation
