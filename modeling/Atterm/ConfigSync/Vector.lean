/-
**Version vectors.**

`VersionVector` is the Go map from device to the greatest contiguous operation counter. A missing
entry and a zero counter are the same thing, so every reader goes through `get`, and two vectors
are compared through it:

* `covers_iff` — `Covers` is the componentwise order;
* `compare_exact` — `Compare` tells the four cases of that order apart;
* `clone_eq_clone_iff` — the zero-free copies `Vector()` hands out are equal exactly when every
  component agrees.
-/

import Mathlib

namespace Atterm.ConfigSync

open Std (ExtTreeMap)

/-- The greatest contiguous operation counter stored for each device. -/
abbrev VersionVector := ExtTreeMap String Nat

/-- The causal relation of one version vector to another. -/
inductive VectorRelation where
  | equal
  | before
  | after
  | concurrent
deriving DecidableEq, Repr

namespace VersionVector

/-- The counter recorded for an actor, zero when the map has no entry. -/
def get (vector : VersionVector) (actor : String) : Nat := vector.getD actor 0

def ofEntries (entries : List (String × Nat)) : VersionVector :=
  entries.foldl (fun vector entry => vector.insert entry.1 entry.2) ∅

/-- An independent copy with zero entries normalized away. -/
def clone (vector : VersionVector) : VersionVector := vector.filter fun _ counter => counter != 0

/-- `vector` includes all operations summarized by `other`. -/
def covers (vector other : VersionVector) : Bool :=
  other.toList.all fun entry => decide (entry.2 ≤ vector.get entry.1)

/-- The causal relation of `vector` to `other`, found by one pass over each map. -/
def compare (vector other : VersionVector) : VectorRelation :=
  let greater := vector.toList.any fun entry => decide (other.get entry.1 < entry.2)
  let smaller := vector.toList.any (fun entry => decide (entry.2 < other.get entry.1)) ||
    other.toList.any fun entry => !vector.contains entry.1 && decide (0 < entry.2)
  match greater, smaller with
  | true, true => .concurrent
  | true, false => .after
  | false, true => .before
  | false, false => .equal

/-! ### Reading a vector -/

@[simp] theorem get_empty (actor : String) : get (∅ : VersionVector) actor = 0 := by
  simp [get]

theorem get_eq_getD (vector : VersionVector) (actor : String) :
    vector.get actor = (vector[actor]?).getD 0 :=
  ExtTreeMap.getD_eq_getD_getElem?

@[simp] theorem get_insert (vector : VersionVector) (actor other : String) (counter : Nat) :
    get (vector.insert actor counter) other =
      if actor = other then counter else vector.get other := by
  simp [get, ExtTreeMap.getD_insert]

theorem getElem?_clone (vector : VersionVector) (actor : String) :
    vector.clone[actor]? = if vector.get actor = 0 then none else some (vector.get actor) := by
  rw [get_eq_getD, clone, ExtTreeMap.getElem?_filter']
  cases entry : vector[actor]? with
  | none => simp
  | some counter => by_cases zero : counter = 0 <;> simp [zero]

@[simp] theorem get_clone (vector : VersionVector) (actor : String) :
    vector.clone.get actor = vector.get actor := by
  rw [get_eq_getD, getElem?_clone]
  split <;> simp_all

/-- **Two zero-free copies agree exactly when every component does.** -/
theorem clone_eq_clone_iff (first second : VersionVector) :
    first.clone = second.clone ↔ ∀ actor, first.get actor = second.get actor := by
  constructor
  · intro same actor
    rw [← get_clone first, same, get_clone]
  · intro same
    refine ExtTreeMap.ext_getElem? fun actor => ?_
    rw [getElem?_clone, getElem?_clone, same actor]

@[simp] theorem clone_clone (vector : VersionVector) : vector.clone.clone = vector.clone :=
  (clone_eq_clone_iff _ _).mpr fun actor => get_clone vector actor

theorem mem_toList_iff (vector : VersionVector) (entry : String × Nat) :
    entry ∈ vector.toList ↔ vector[entry.1]? = some entry.2 :=
  ExtTreeMap.mem_toList_iff_getElem?_eq_some

theorem getElem?_of_get_pos {vector : VersionVector} {actor : String}
    (positive : 0 < vector.get actor) : vector[actor]? = some (vector.get actor) := by
  rw [get_eq_getD] at positive ⊢
  cases entry : vector[actor]? with
  | none => rw [entry] at positive; exact absurd positive (lt_irrefl _)
  | some counter => rfl

/-! ### The componentwise order -/

/-- **`Covers` is the componentwise order.** -/
theorem covers_iff (vector other : VersionVector) :
    vector.covers other = true ↔ ∀ actor, other.get actor ≤ vector.get actor := by
  unfold covers
  rw [List.all_eq_true]
  constructor
  · intro every actor
    by_cases positive : 0 < other.get actor
    · have entry := (mem_toList_iff other (actor, other.get actor)).mpr
        (getElem?_of_get_pos positive)
      simpa using every _ entry
    · omega
  · intro every entry member
    have stored := (mem_toList_iff other entry).mp member
    have bound := every entry.1
    rw [get_eq_getD other, stored] at bound
    simpa using bound

theorem covers_refl (vector : VersionVector) : vector.covers vector = true :=
  (covers_iff _ _).mpr fun _ => le_rfl

theorem covers_empty (vector : VersionVector) : vector.covers ∅ = true :=
  (covers_iff _ _).mpr fun _ => by simp

theorem any_above_eq_false_iff (vector other : VersionVector) :
    (vector.toList.any fun entry => decide (other.get entry.1 < entry.2)) = false ↔
      other.covers vector = true := by
  unfold covers
  simp [List.any_eq_false, List.all_eq_true]

theorem any_below_eq_false_iff (vector other : VersionVector) :
    (vector.toList.any (fun entry => decide (entry.2 < other.get entry.1)) ||
        other.toList.any fun entry => !vector.contains entry.1 && decide (0 < entry.2)) = false ↔
      vector.covers other = true := by
  rw [covers_iff, Bool.or_eq_false_iff, List.any_eq_false, List.any_eq_false]
  constructor
  · rintro ⟨present, absent⟩ actor
    cases entry : vector[actor]? with
    | some counter =>
      have bound := present (actor, counter) ((mem_toList_iff _ _).mpr entry)
      rw [get_eq_getD vector, entry]
      simpa using bound
    | none =>
      by_cases positive : 0 < other.get actor
      · have member := (mem_toList_iff other (actor, other.get actor)).mpr
          (getElem?_of_get_pos positive)
        have missing : vector.contains actor = false := by
          rw [← ExtTreeMap.isSome_getElem?_eq_contains, entry]
          rfl
        have refuted := absent _ member
        rw [missing] at refuted
        simp [positive] at refuted
      · omega
  · intro every
    refine ⟨fun entry member => ?_, fun entry member => ?_⟩
    · have stored := (mem_toList_iff _ _).mp member
      have bound := every entry.1
      rw [get_eq_getD vector, stored] at bound
      simpa using bound
    · have stored := (mem_toList_iff _ _).mp member
      have bound := every entry.1
      rw [get_eq_getD other, stored] at bound
      by_cases missing : vector.contains entry.1 = true
      · simp [missing]
      · have none : vector[entry.1]? = none := by
          rw [← ExtTreeMap.isSome_getElem?_eq_contains] at missing
          simpa using missing
        rw [get_eq_getD vector, none] at bound
        have zero : entry.2 = 0 := by simpa using bound
        simp [zero]

theorem compare_eq (vector other : VersionVector) : vector.compare other =
    if other.covers vector then if vector.covers other then .equal else .before
    else if vector.covers other then .after else .concurrent := by
  have above := any_above_eq_false_iff vector other
  have below := any_below_eq_false_iff vector other
  unfold compare
  simp only
  generalize (vector.toList.any fun entry => decide (other.get entry.1 < entry.2)) = greater at above ⊢
  generalize (vector.toList.any (fun entry => decide (entry.2 < other.get entry.1)) ||
    other.toList.any fun entry => !vector.contains entry.1 && decide (0 < entry.2)) = smaller at below ⊢
  cases greater with
  | false =>
    rw [if_pos (above.mp rfl)]
    cases smaller with
    | false => rw [if_pos (below.mp rfl)]
    | true => rw [if_neg (mt below.mpr (by decide))]
  | true =>
    rw [if_neg (mt above.mpr (by decide))]
    cases smaller with
    | false => rw [if_pos (below.mp rfl)]
    | true => rw [if_neg (mt below.mpr (by decide))]

/-- **`Compare` is exact**: it tells whether every component agrees, one vector is below the other in the
componentwise order, or each has a component of its own that is greater, whatever zeros the maps hold. -/
theorem compare_exact (vector other : VersionVector) :
    (vector.compare other = .equal ↔ ∀ actor, vector.get actor = other.get actor) ∧
    (vector.compare other = .before ↔ (∀ actor, vector.get actor ≤ other.get actor) ∧
      ∃ actor, vector.get actor < other.get actor) ∧
    (vector.compare other = .after ↔ (∀ actor, other.get actor ≤ vector.get actor) ∧
      ∃ actor, other.get actor < vector.get actor) ∧
    (vector.compare other = .concurrent ↔ (∃ actor, vector.get actor < other.get actor) ∧
      ∃ actor, other.get actor < vector.get actor) := by
  have upper := covers_iff other vector
  have lower := covers_iff vector other
  have not_upper : ¬other.covers vector = true ↔ ∃ actor, other.get actor < vector.get actor := by
    rw [upper]
    push Not
    rfl
  have not_lower : ¬vector.covers other = true ↔ ∃ actor, vector.get actor < other.get actor := by
    rw [lower]
    push Not
    rfl
  have same : (∀ actor, vector.get actor = other.get actor) ↔
      other.covers vector = true ∧ vector.covers other = true := by
    rw [upper, lower, ← forall_and]
    exact forall_congr' fun actor => le_antisymm_iff
  rw [same, ← not_upper, ← not_lower, ← upper, ← lower, compare_eq]
  split_ifs with one two two <;> simp_all

end VersionVector

end Atterm.ConfigSync
