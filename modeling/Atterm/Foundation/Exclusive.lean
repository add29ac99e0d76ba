/-
**Entries of a shared table, each claimed by one party.**

Parties enter keys into a table and remove them by key. The table is `Exclusive` when every claimed key
has an entry and no key is claimed twice, by one party or by two: then what one party removes is nobody
else's.

* `Exclusive.keep`, `Exclusive.enter`, `Exclusive.release` — what keeps a table exclusive;
* `Exclusive.release_other` — a removed entry is no other claim.
-/

import Mathlib

namespace Atterm.Foundation

variable {Key Value Party : Type*} [DecidableEq Key] [DecidableEq Party]

omit [DecidableEq Key] [DecidableEq Party] in
/-- Every claimed key has an entry, and no key is claimed twice. -/
structure Exclusive (table : Key → Option Value) (claims : Party → List Key) : Prop where
  present : ∀ party, ∀ key ∈ claims party, table key ≠ none
  nodup : ∀ party, (claims party).Nodup
  apart : ∀ party other, party ≠ other → ∀ key ∈ claims party, key ∉ claims other

namespace Exclusive

variable {table : Key → Option Value} {claims : Party → List Key} {party : Party} {key : Key}
  {kept : List Key}

omit [DecidableEq Key] [DecidableEq Party] in
theorem empty (table : Key → Option Value) : Exclusive table fun _ : Party => [] where
  present := fun _ _ inside => absurd inside List.not_mem_nil
  nodup := fun _ => List.nodup_nil
  apart := fun _ _ _ _ inside => absurd inside List.not_mem_nil

omit [DecidableEq Key] in
theorem apart_update (exclusive : Exclusive table claims)
    (free : ∀ other, other ≠ party → ∀ key ∈ kept, key ∉ claims other) (one other : Party)
    (distinct : one ≠ other) :
    ∀ key ∈ Function.update claims party kept one, key ∉ Function.update claims party kept other := by
  intro key inside both
  by_cases first : one = party
  · subst first
    rw [Function.update_self] at inside
    rw [Function.update_of_ne distinct.symm] at both
    exact free other distinct.symm key inside both
  · rw [Function.update_of_ne first] at inside
    by_cases second : other = party
    · subst second
      rw [Function.update_self] at both
      exact free one distinct key both inside
    · rw [Function.update_of_ne second] at both
      exact exclusive.apart one other distinct key inside both

omit [DecidableEq Key] in
theorem nodup_update (exclusive : Exclusive table claims) (nodup : kept.Nodup) (other : Party) :
    (Function.update claims party kept other).Nodup := by
  by_cases same : other = party
  · subst same
    rw [Function.update_self]
    exact nodup
  · rw [Function.update_of_ne same]
    exact exclusive.nodup other

omit [DecidableEq Key] in
/-- **Giving claims up.** -/
theorem keep (exclusive : Exclusive table claims) (keeps : kept ⊆ claims party)
    (nodup : kept.Nodup) : Exclusive table (Function.update claims party kept) where
  present := by
    intro other key inside
    by_cases same : other = party
    · subst same
      rw [Function.update_self] at inside
      exact exclusive.present other key (keeps inside)
    · rw [Function.update_of_ne same] at inside
      exact exclusive.present other key inside
  nodup := exclusive.nodup_update nodup
  apart := exclusive.apart_update fun other distinct key inside =>
    exclusive.apart party other distinct.symm key (keeps inside)

/-- **Entering a key that the table does not have.** -/
theorem enter (exclusive : Exclusive table claims) (absent : table key = none)
    (keeps : kept ⊆ key :: claims party) (nodup : kept.Nodup) (value : Value) :
    Exclusive (Function.update table key (some value)) (Function.update claims party kept) where
  present := by
    intro other found inside
    by_cases same : found = key
    · rw [same, Function.update_self]
      exact Option.some_ne_none value
    · rw [Function.update_of_ne same]
      by_cases mine : other = party
      · subst mine
        rw [Function.update_self] at inside
        exact exclusive.present other found ((List.mem_cons.mp (keeps inside)).resolve_left same)
      · rw [Function.update_of_ne mine] at inside
        exact exclusive.present other found inside
  nodup := exclusive.nodup_update nodup
  apart := by
    refine exclusive.apart_update fun other distinct found inside claimed => ?_
    rcases List.mem_cons.mp (keeps inside) with rfl | mine
    · exact exclusive.present other found claimed absent
    · exact exclusive.apart party other distinct.symm found mine claimed

/-- **Removing an own entry.** -/
theorem release (exclusive : Exclusive table claims) (mine : key ∈ claims party)
    (keeps : kept ⊆ claims party) (gone : key ∉ kept) (nodup : kept.Nodup) :
    Exclusive (Function.update table key none) (Function.update claims party kept) where
  present := by
    intro other found inside
    have apart : found ≠ key := by
      rintro rfl
      by_cases same : other = party
      · subst same
        rw [Function.update_self] at inside
        exact gone inside
      · rw [Function.update_of_ne same] at inside
        exact exclusive.apart party other (Ne.symm same) found mine inside
    rw [Function.update_of_ne apart]
    exact (exclusive.keep keeps nodup).present other found inside
  nodup := exclusive.nodup_update nodup
  apart := (exclusive.keep keeps nodup).apart

omit [DecidableEq Party] in
/-- **A removed entry is no claim of another party.** -/
theorem release_other (exclusive : Exclusive table claims) (mine : key ∈ claims party)
    {other : Party} (distinct : other ≠ party) {found : Key} (claimed : found ∈ claims other) :
    Function.update table key none found = table found := by
  refine Function.update_of_ne ?_ _ _
  rintro rfl
  exact exclusive.apart party other distinct.symm found mine claimed

end Exclusive

end Atterm.Foundation
