/-
**Reading typed values from JSON.**

`encoding/json` fills a struct member by member: a member is matched to its field without regard to
case, a later member overwrites an earlier one, `null` leaves a field as it was, and a strict decoder
refuses a member that matches no field.

* `knownFields`, `fieldValues`, `readField` — the members of an object and a field;
* `decodeText`, `decodeBool`, `decodeInt`, `decodeNat`, `decodeList`, `decodeMap` — the values of a field;
* `decodeInt_int`, `decodeNat_nat`, `decodeList_arr`, `decodeMap_obj` — what is written is read back.
-/

import Atterm.Foundation.Json
import Atterm.Foundation.TreeMapFold

namespace Atterm.Foundation

open Std (ExtTreeMap)

/-! ### Fields -/

/-- The smallest rune that differs in case only; two runes beyond ASCII fold to letters. -/
def foldRune (char : Char) : Char :=
  if 'A' ≤ char ∧ char ≤ 'Z' then Char.ofNat (char.toNat + 32)
  else if char = '\u017f' then 's'
  else if char = '\u212a' then 'k'
  else char

def foldName (name : String) : List Char := name.toList.map foldRune

def knownFields (names : List String) (members : List (String × Json)) : Bool :=
  members.all fun member => names.any fun name => foldName name = foldName member.1

def fieldValues (name : String) (members : List (String × Json)) : List Json :=
  (members.filter fun member => foldName name = foldName member.1).map Prod.snd

section

variable {α : Type*}

/-- A value that is `null` leaves what was there. -/
def keepNull (decode : Json → Option α) (held : α) : Json → Option α
  | .null => some held
  | value => decode value

def readField (decode : Json → Option α) (zero : α) (name : String) (members : List (String × Json)) :
    Option α :=
  (fieldValues name members).foldlM (keepNull decode) zero

/-! ### Values -/

def decodeText : Json → Option String
  | .str text => some text
  | _ => none

def decodeBool : Json → Option Bool
  | .bool value => some value
  | _ => none

/-- A number that is an integer literal between the bounds of its type. -/
def decodeInt (low high : ℤ) : Json → Option ℤ
  | .num literal => (parseInt literal).bind fun value =>
    if low ≤ value ∧ value ≤ high then some value else none
  | _ => none

def decodeNat (bits : ℕ) : Json → Option ℕ
  | .num literal => (parseNat literal).bind fun value =>
    if value < 2 ^ bits then some value else none
  | _ => none

/-- A slice; an element that is `null` is the zero value. -/
def decodeList (decode : Json → Option α) (zero : α) : Json → Option (List α)
  | .arr elems => elems.mapM (keepNull decode zero)
  | _ => none

/-- A map; a value that is `null` is the zero value, and a later member overwrites an earlier one. -/
def decodeMap (decode : Json → Option α) (zero : α) : Json → Option (ExtTreeMap String α)
  | .obj members => (members.mapM fun member =>
    (keepNull decode zero member.2).map fun value => (member.1, value)).map (insertAll ∅)
  | _ => none

/-- A map is written in the order of its keys. -/
def mapJson (encode : α → Json) (map : ExtTreeMap String α) : Json :=
  .obj (map.toList.map fun entry => (entry.1, encode entry.2))

def Json.nat (value : ℕ) : Json := .num (natLiteral value)

theorem Json.nat_valid (value : ℕ) : (Json.nat value).Valid := by
  rw [Json.nat, Json.Valid]
  exact ⟨isNumber_intLiteral (value : ℤ), natLiteral_runes value⟩

theorem decodeInt_int {low high value : ℤ} (above : low ≤ value) (below : value ≤ high) :
    decodeInt low high (.int value) = some value := by
  rw [Json.int, decodeInt, parseInt_intLiteral]
  exact if_pos ⟨above, below⟩

theorem decodeNat_nat {bits value : ℕ} (below : value < 2 ^ bits) :
    decodeNat bits (.nat value) = some value := by
  rw [Json.nat, decodeNat, parseNat_natLiteral]
  exact if_pos below

variable {decode : Json → Option α} {encode : α → Json} {zero : α}

theorem decodeInt_range {low high value : ℤ} {json : Json}
    (decoded : decodeInt low high json = some value) : low ≤ value ∧ value ≤ high := by
  cases json with
  | num literal =>
    obtain ⟨read, -, within⟩ := Option.bind_eq_some_iff.mp decoded
    split_ifs at within with range
    cases within
    exact range
  | null | bool _ | str _ | arr _ | obj _ => cases decoded

theorem keepNull_cases {held read : α} {value : Json} (decoded : keepNull decode held value = some read) :
    read = held ∨ decode value = some read := by
  cases value with
  | null => exact Or.inl (Option.some.inj decoded).symm
  | bool _ | num _ | str _ | arr _ | obj _ => exact Or.inr decoded

/-- The encoder of a type writes no `null`, and the decoder reads what it writes. -/
structure Reads (decode : Json → Option α) (encode : α → Json) (value : α) : Prop where
  decodes : decode (encode value) = some value
  present : encode value ≠ .null
  valid : (encode value).Valid

theorem keepNull_of_present {held : α} {value : Json} (present : value ≠ .null) :
    keepNull decode held value = decode value := by
  cases value with
  | null => exact absurd rfl present
  | bool _ => rfl
  | num _ => rfl
  | str _ => rfl
  | arr _ => rfl
  | obj _ => rfl

theorem Reads.keeps {value held : α} (reads : Reads decode encode value) :
    keepNull decode held (encode value) = some value :=
  (keepNull_of_present reads.present).trans reads.decodes

theorem reads_text (text : String) : Reads decodeText .str text where
  decodes := rfl
  present same := by cases same
  valid := by
    rw [Json.Valid.eq_def]
    trivial

theorem reads_int {value : ℤ} (range : -2 ^ 63 ≤ value ∧ value ≤ 2 ^ 63 - 1) :
    Reads (decodeInt (-2 ^ 63) (2 ^ 63 - 1)) Json.int value where
  decodes := decodeInt_int range.1 range.2
  present same := nomatch same
  valid := Json.int_valid value

theorem reads_nat {bits value : ℕ} (below : value < 2 ^ bits) : Reads (decodeNat bits) Json.nat value where
  decodes := decodeNat_nat below
  present same := nomatch same
  valid := Json.nat_valid value

/-! ### Members that are named once -/

theorem fieldValues_of_mem {members : List (String × Json)} {name : String} {value : Json}
    (distinct : (members.map fun member => foldName member.1).Nodup)
    (inside : (name, value) ∈ members) : fieldValues name members = [value] := by
  induction members with
  | nil => cases inside
  | cons member rest ih =>
    rw [List.map_cons, List.nodup_cons] at distinct
    have elsewhere {other : String × Json} (listed : other ∈ rest) :
        foldName member.1 ≠ foldName other.1 := fun same =>
      distinct.1 (same ▸ List.mem_map_of_mem (f := fun member => foldName member.1) listed)
    rcases List.mem_cons.mp inside with same | listed
    · subst same
      have none : (rest.filter fun member => foldName name = foldName member.1) = [] :=
        List.filter_eq_nil_iff.mpr fun other listed => by simpa using elsewhere listed
      rw [fieldValues, List.filter_cons, none, if_pos (decide_eq_true rfl)]
      rfl
    · have apart : ¬ foldName name = foldName member.1 := fun same => elsewhere listed same.symm
      rw [fieldValues, List.filter_cons, decide_eq_false apart]
      exact ih distinct.2 listed

theorem readField_of_mem {members : List (String × Json)} {name : String} {value : α}
    (distinct : (members.map fun member => foldName member.1).Nodup)
    (inside : (name, encode value) ∈ members) (reads : Reads decode encode value) :
    readField decode zero name members = some value := by
  rw [readField, fieldValues_of_mem distinct inside, List.foldlM_cons, reads.keeps]
  rfl

theorem readField_of_missing {members : List (String × Json)} {name : String}
    (missing : ∀ member ∈ members, foldName name ≠ foldName member.1) :
    readField decode zero name members = some zero := by
  have none : fieldValues name members = [] := by
    rw [fieldValues, List.filter_eq_nil_iff.mpr]
    · rfl
    · intro member inside
      simpa using missing member inside
  rw [readField, none]
  rfl

theorem knownFields_of_subset {names : List String} {members : List (String × Json)}
    (subset : ∀ member ∈ members, member.1 ∈ names) : knownFields names members = true := by
  rw [knownFields, List.all_eq_true]
  intro member inside
  exact List.any_eq_true.mpr ⟨member.1, subset member inside, decide_eq_true rfl⟩

theorem knownFields_of_names {names : List String} {members : List (String × Json)}
    (same : members.map Prod.fst = names) : knownFields names members = true :=
  knownFields_of_subset fun _ inside => same ▸ List.mem_map_of_mem inside

theorem mapM_map {β γ : Type*} {write : α → β} {read : β → Option γ} {result : α → γ}
    {values : List α} (each : ∀ value ∈ values, read (write value) = some (result value)) :
    (values.map write).mapM read = some (values.map result) := by
  induction values with
  | nil => rfl
  | cons value rest ih =>
    obtain ⟨first, later⟩ := List.forall_mem_cons.mp each
    rw [List.map_cons, List.mapM_cons, first, ih later]
    rfl

theorem elemsValid_iff {elems : List Json} : ElemsValid elems ↔ ∀ value ∈ elems, value.Valid := by
  induction elems with
  | nil => simp [ElemsValid]
  | cons value rest ih => rw [ElemsValid, ih, List.forall_mem_cons]

theorem membersValid_iff {members : List (String × Json)} :
    MembersValid members ↔ ∀ member ∈ members, member.2.Valid := by
  induction members with
  | nil => simp [MembersValid]
  | cons member rest ih => rw [MembersValid, ih, List.forall_mem_cons]

/-- **A slice that is written is read back.** -/
theorem decodeList_arr {values : List α} (each : ∀ value ∈ values, Reads decode encode value) :
    decodeList decode zero (.arr (values.map encode)) = some values := by
  have read : (values.map encode).mapM (keepNull decode zero) = some (values.map id) :=
    mapM_map fun value inside => (each value inside).keeps
  rw [decodeList, read, List.map_id]

theorem arr_valid {values : List α} (each : ∀ value ∈ values, Reads decode encode value) :
    (Json.arr (values.map encode)).Valid := by
  rw [Json.Valid, elemsValid_iff, List.forall_mem_map]
  exact fun value inside => (each value inside).valid

theorem insertAll_toList (map : ExtTreeMap String α) : insertAll ∅ map.toList = map := by
  refine ExtTreeMap.ext_getElem? fun key => ?_
  cases held : map[key]? with
  | none =>
    rw [getElem?_insertAll_of_notMem]
    · rfl
    · intro listed
      obtain ⟨⟨key, value⟩, inside, rfl⟩ := List.mem_map.mp listed
      rw [ExtTreeMap.mem_toList_iff_getElem?_eq_some.mp inside] at held
      cases held
  | some value =>
    exact getElem?_insertAll_of_mem ∅ (nodup_keys_toList map)
      (ExtTreeMap.mem_toList_iff_getElem?_eq_some.mpr held)

/-- **A map that is written is read back.** -/
theorem decodeMap_obj {map : ExtTreeMap String α}
    (each : ∀ entry ∈ map.toList, Reads decode encode entry.2) :
    decodeMap decode zero (mapJson encode map) = some map := by
  have read : (map.toList.map fun entry => (entry.1, encode entry.2)).mapM (fun member =>
      (keepNull decode zero member.2).map fun value => (member.1, value)) =
        some (map.toList.map id) := by
    refine mapM_map fun entry inside => ?_
    rw [(each entry inside).keeps]
    rfl
  rw [mapJson, decodeMap, read, List.map_id, Option.map_some, insertAll_toList]

theorem mapJson_valid {map : ExtTreeMap String α}
    (each : ∀ entry ∈ map.toList, Reads decode encode entry.2) : (mapJson encode map).Valid := by
  rw [mapJson, Json.Valid, membersValid_iff, List.forall_mem_map]
  exact fun entry inside => (each entry inside).valid

end

end Atterm.Foundation
