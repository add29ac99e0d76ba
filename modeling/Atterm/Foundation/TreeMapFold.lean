/-
**Filling a map from a list.**

`insertAll` writes the entries of a list into a map, later entries over earlier ones, and
`mapValues` reads the values of a map back as a list.

* `getElem?_insertAll_of_mem` — with distinct keys every entry is found afterwards;
* `getElem?_insertAll_of_notMem` — the other keys keep what they had;
* `mem_mapValues_iff` — a value is listed exactly when some key holds it.
-/

import Mathlib

namespace Atterm.Foundation

open Std (ExtTreeMap TransCmp LawfulEqCmp)

variable {α β : Type*} {cmp : α → α → Ordering} [TransCmp cmp]

def insertAll (map : ExtTreeMap α β cmp) (entries : List (α × β)) : ExtTreeMap α β cmp :=
  entries.foldl (fun filled entry => filled.insert entry.1 entry.2) map

def mapValues (map : ExtTreeMap α β cmp) : List β := map.toList.map Prod.snd

theorem insertAll_append (map : ExtTreeMap α β cmp) (first second : List (α × β)) :
    insertAll map (first ++ second) = insertAll (insertAll map first) second :=
  List.foldl_append

theorem size_insertAll_le (map : ExtTreeMap α β cmp) (entries : List (α × β)) :
    (insertAll map entries).size ≤ map.size + entries.length := by
  induction entries generalizing map with
  | nil => exact le_rfl
  | cons entry rest ih =>
    have first := ExtTreeMap.size_insert_le (t := map) (k := entry.1) (v := entry.2)
    have later := ih (map.insert entry.1 entry.2)
    show (insertAll (map.insert entry.1 entry.2) rest).size ≤ _
    rw [List.length_cons]
    omega

variable [LawfulEqCmp cmp]

theorem getElem?_insert_of_ne (map : ExtTreeMap α β cmp) {key other : α} (value : β)
    (apart : other ≠ key) : (map.insert key value)[other]? = map[other]? := by
  rw [ExtTreeMap.getElem?_insert, if_neg fun equal => apart (LawfulEqCmp.compare_eq_iff_eq.mp equal).symm]

theorem getElem?_erase_of_ne (map : ExtTreeMap α β cmp) {key other : α} (apart : other ≠ key) :
    (map.erase key)[other]? = map[other]? := by
  rw [ExtTreeMap.getElem?_erase, if_neg fun equal => apart (LawfulEqCmp.compare_eq_iff_eq.mp equal).symm]

theorem mem_mapValues_iff (map : ExtTreeMap α β cmp) (value : β) :
    value ∈ mapValues map ↔ ∃ key : α, map[key]? = some value := by
  unfold mapValues
  rw [List.mem_map]
  constructor
  · rintro ⟨⟨key, held⟩, member, rfl⟩
    exact ⟨key, ExtTreeMap.mem_toList_iff_getElem?_eq_some.mp member⟩
  · rintro ⟨key, held⟩
    exact ⟨(key, value), ExtTreeMap.mem_toList_iff_getElem?_eq_some.mpr held, rfl⟩

theorem getElem?_insertAll_of_notMem (map : ExtTreeMap α β cmp) {entries : List (α × β)} {key : α}
    (absent : key ∉ entries.map Prod.fst) : (insertAll map entries)[key]? = map[key]? := by
  induction entries generalizing map with
  | nil => rfl
  | cons entry rest ih =>
    rw [List.map_cons, List.mem_cons, not_or] at absent
    calc (insertAll map (entry :: rest))[key]?
        = (map.insert entry.1 entry.2)[key]? := ih _ absent.2
      _ = map[key]? := by
        rw [ExtTreeMap.getElem?_insert, if_neg]
        rw [LawfulEqCmp.compare_eq_iff_eq]
        exact fun same => absent.1 same.symm

theorem getElem?_insertAll_of_mem (map : ExtTreeMap α β cmp) {entries : List (α × β)} {key : α}
    {value : β} (distinct : (entries.map Prod.fst).Nodup) (member : (key, value) ∈ entries) :
    (insertAll map entries)[key]? = some value := by
  induction entries generalizing map with
  | nil => cases member
  | cons entry rest ih =>
    rw [List.map_cons, List.nodup_cons] at distinct
    rcases List.mem_cons.mp member with rfl | later
    · calc (insertAll map ((key, value) :: rest))[key]?
          = (map.insert key value)[key]? := getElem?_insertAll_of_notMem _ distinct.1
        _ = some value := ExtTreeMap.getElem?_insert_self
    · exact ih _ distinct.2 later

theorem mem_of_getElem?_insertAll (map : ExtTreeMap α β cmp) {entries : List (α × β)} {key : α}
    {value : β} (held : (insertAll map entries)[key]? = some value) :
    (key, value) ∈ entries ∨ map[key]? = some value := by
  induction entries generalizing map with
  | nil => exact Or.inr held
  | cons entry rest ih =>
    rcases ih _ held with later | here
    · exact Or.inl (List.mem_cons_of_mem _ later)
    · rw [ExtTreeMap.getElem?_insert] at here
      split_ifs at here with same
      · rw [LawfulEqCmp.compare_eq_iff_eq] at same
        subst same
        cases here
        exact Or.inl List.mem_cons_self
      · exact Or.inr here

theorem nodup_keys_toList (map : ExtTreeMap α β cmp) : (map.toList.map Prod.fst).Nodup := by
  have distinct := ExtTreeMap.distinct_keys_toList (t := map)
  rw [List.Nodup, List.pairwise_map]
  refine distinct.imp fun different same => different ?_
  rw [LawfulEqCmp.compare_eq_iff_eq]
  exact same

theorem mapValues_insertAll_perm {key : β → α} {values : List β} (distinct : (values.map key).Nodup) :
    (mapValues (insertAll (∅ : ExtTreeMap α β cmp) (values.map fun value => (key value, value)))).Perm
      values := by
  set filed := insertAll (∅ : ExtTreeMap α β cmp) (values.map fun value => (key value, value))
  have keys : (values.map fun value => (key value, value)).map Prod.fst = values.map key := by
    rw [List.map_map]
    rfl
  have held {k : α} {value : β} : filed[k]? = some value ↔ value ∈ values ∧ key value = k := by
    constructor
    · intro found
      rcases mem_of_getElem?_insertAll ∅ found with listed | old
      · obtain ⟨_, inside, same⟩ := List.mem_map.mp listed
        cases same
        exact ⟨inside, rfl⟩
      · rw [ExtTreeMap.getElem?_empty] at old
        cases old
    · rintro ⟨inside, rfl⟩
      exact getElem?_insertAll_of_mem ∅ (keys ▸ distinct) (List.mem_map_of_mem inside)
  have named : (mapValues filed).map key = filed.toList.map Prod.fst := by
    rw [mapValues, List.map_map]
    refine List.map_congr_left fun slot listed => ?_
    exact (held.mp (ExtTreeMap.mem_toList_iff_getElem?_eq_some.mp listed)).2
  have apart : (mapValues filed).Nodup := List.Nodup.of_map key (named ▸ nodup_keys_toList filed)
  refine (List.perm_ext_iff_of_nodup apart distinct.of_map).mpr fun value => ?_
  rw [mem_mapValues_iff]
  exact ⟨fun ⟨_, found⟩ => (held.mp found).1, fun inside => ⟨key value, held.mpr ⟨inside, rfl⟩⟩⟩

end Atterm.Foundation
