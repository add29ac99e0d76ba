/-
**The members of a JSON object by name.**

Where the names of an object are distinct, its content is what each name holds, whatever the order of the
members. Reading an object into a map and writing a map as an object keep that content.

* `Json.member?` — what a name holds;
* `getElem?_insertAll_lookup`, `member?_mapJson` — the same for the map that is read, and for the object
  that is written;
* `decodeMap_obj_of_each`, `decodeMap_mapJson` — reading a map member by member, and what was written.
-/

import Atterm.Foundation.JsonFields

namespace Atterm.Foundation

open Std (ExtTreeMap)

def Json.member? (name : String) : Json → Option Json
  | .obj members => members.lookup name
  | _ => none

section

variable {α β : Type*}

theorem lookup_eq_some_iff {members : List (String × α)} (distinct : (members.map Prod.fst).Nodup)
    (name : String) (value : α) : members.lookup name = some value ↔ (name, value) ∈ members := by
  induction members with
  | nil => simp
  | cons member rest ih =>
    rw [List.map_cons, List.nodup_cons] at distinct
    rw [List.lookup_cons]
    by_cases here : name = member.1
    · subst here
      have only : ∀ v, (member.1, v) ∉ rest := fun v inside =>
        distinct.1 (List.mem_map.mpr ⟨_, inside, rfl⟩)
      simp only [beq_self_eq_true, List.mem_cons, only, or_false]
      constructor
      · rintro ⟨⟩
        rfl
      · intro same
        rw [← same]
    · have other : (name == member.1) = false := beq_false_of_ne here
      rw [other, ih distinct.2, List.mem_cons]
      exact ⟨.inr, fun listed => listed.resolve_left fun same => here (congrArg Prod.fst same)⟩

theorem lookup_eq_none_iff (members : List (String × α)) (name : String) :
    members.lookup name = none ↔ name ∉ members.map Prod.fst := by
  induction members with
  | nil => simp
  | cons member rest ih =>
    rw [List.lookup_cons, List.map_cons, List.mem_cons, not_or]
    by_cases here : name = member.1
    · simp [here]
    · rw [beq_false_of_ne here, ih]
      simp [here]

theorem lookup_map (write : α → β) (members : List (String × α)) (name : String) :
    (members.map fun member => (member.1, write member.2)).lookup name =
      (members.lookup name).map write := by
  induction members with
  | nil => rfl
  | cons member rest ih =>
    rw [List.map_cons, List.lookup_cons, List.lookup_cons, ih]
    cases name == member.1 <;> rfl

theorem getElem?_insertAll_lookup {members : List (String × α)}
    (distinct : (members.map Prod.fst).Nodup) (name : String) :
    (insertAll (∅ : ExtTreeMap String α) members)[name]? = members.lookup name := by
  cases held : members.lookup name with
  | none =>
    rw [getElem?_insertAll_of_notMem _ ((lookup_eq_none_iff _ _).mp held)]
    rfl
  | some value =>
    exact getElem?_insertAll_of_mem _ distinct ((lookup_eq_some_iff distinct _ _).mp held)

theorem member?_mapJson (encode : α → Json) (map : ExtTreeMap String α) (name : String) :
    (mapJson encode map).member? name = map[name]?.map encode := by
  rw [mapJson, Json.member?, lookup_map]
  congr 1
  rw [← getElem?_insertAll_lookup (nodup_keys_toList map), insertAll_toList]

variable {decode : Json → Option α} {zero : α}

theorem decodeMap_obj_of_each {members : List (String × Json)} {read : Json → α}
    (each : ∀ member ∈ members, keepNull decode zero member.2 = some (read member.2)) :
    decodeMap decode zero (.obj members) =
      some (insertAll ∅ (members.map fun member => (member.1, read member.2))) := by
  have all : (members.map id).mapM (fun member =>
      (keepNull decode zero member.2).map fun value => (member.1, value)) =
        some (members.map fun member => (member.1, read member.2)) := by
    refine mapM_map fun member inside => ?_
    rw [id, each member inside]
    rfl
  rw [List.map_id] at all
  rw [decodeMap, all, Option.map_some]

theorem decodeMap_mapJson {encode : α → Json} (map : ExtTreeMap String α)
    (each : ∀ value, keepNull decode zero (encode value) = some value) :
    decodeMap decode zero (mapJson encode map) = some map := by
  have read : (map.toList.map fun entry => (entry.1, encode entry.2)).mapM (fun member =>
      (keepNull decode zero member.2).map fun value => (member.1, value)) =
        some (map.toList.map id) := by
    refine mapM_map fun entry _ => ?_
    rw [each entry.2]
    rfl
  rw [mapJson, decodeMap, read, List.map_id, Option.map_some, insertAll_toList]

end

end Atterm.Foundation
