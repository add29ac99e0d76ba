/-
**Resources that are started and closed.**

Resources are numbered in the order in which they are started; closing one is remembered for ever. A
ledger is `Settled` for a set of holders when every resource that nobody holds has been closed: what
is not held does not leak.

* `Settled.release`, `Settled.begin` — closing what is let go, and holding what is started, keep it.
-/

import Mathlib

namespace Atterm.Foundation

/-- How many resources were started, and which of them were closed. -/
structure Ledger where
  started : ℕ
  closed : List ℕ
deriving DecidableEq, Repr

namespace Ledger

def empty : Ledger := ⟨0, []⟩

/-- Starts the next resource, whose number is `started`. -/
def begin (l : Ledger) : Ledger := { l with started := l.started + 1 }

/-- Closes a resource; closing it again changes nothing. -/
def release (l : Ledger) (id : ℕ) : Ledger := { l with closed := id :: l.closed }

def release? (l : Ledger) : Option ℕ → Ledger
  | none => l
  | some id => l.release id

def Settled (l : Ledger) (held : Set ℕ) : Prop := ∀ id < l.started, id ∈ held ∨ id ∈ l.closed

/-- Only resources that were started are held or closed. -/
def Known (l : Ledger) (held : Set ℕ) : Prop := ∀ id, id ∈ held ∨ id ∈ l.closed → id < l.started

variable {l : Ledger} {held kept : Set ℕ}

theorem settled_empty : empty.Settled held := fun _ below => absurd below (Nat.not_lt_zero _)

theorem known_empty : empty.Known ∅ := by
  rintro id (inside | inside)
  · exact absurd inside (Set.notMem_empty id)
  · exact absurd inside List.not_mem_nil

theorem Settled.mono (settled : l.Settled held) (keeps : held ⊆ kept) : l.Settled kept :=
  fun id below => (settled id below).imp_left (@keeps id)

theorem Known.anti (known : l.Known held) (keeps : kept ⊆ held) : l.Known kept :=
  fun id inside => known id (inside.imp_left (@keeps id))

/-- **Closing what is let go keeps a ledger settled.** -/
theorem Settled.release {id : ℕ} (settled : l.Settled held) (keeps : held ⊆ insert id kept) :
    (l.release id).Settled kept := by
  intro other below
  rcases settled other below with inside | closed
  · rcases keeps inside with rfl | inside
    · exact Or.inr List.mem_cons_self
    · exact Or.inl inside
  · exact Or.inr (List.mem_cons_of_mem id closed)

theorem Known.release {id : ℕ} (known : l.Known held) (mine : id ∈ held) (keeps : kept ⊆ held) :
    (l.release id).Known kept := by
  rintro other (inside | closed)
  · exact known other (Or.inl (keeps inside))
  · rcases List.mem_cons.mp closed with rfl | closed
    · exact known other (Or.inl mine)
    · exact known other (Or.inr closed)

theorem Settled.release? {id : Option ℕ} (settled : l.Settled held)
    (keeps : held ⊆ {other | id = some other} ∪ kept) : (l.release? id).Settled kept := by
  cases id with
  | none => exact settled.mono fun other inside => (keeps inside).resolve_left (by simp)
  | some id =>
    refine Settled.release settled fun other inside => ?_
    exact (keeps inside).imp_left fun same => (Option.some.inj same).symm

theorem Known.release? {id : Option ℕ} (known : l.Known held) (mine : ∀ other ∈ id, other ∈ held)
    (keeps : kept ⊆ held) : (l.release? id).Known kept := by
  cases id with
  | none => exact known.anti keeps
  | some id => exact Known.release known (mine id rfl) keeps

/-- **Holding what is started keeps a ledger settled.** -/
theorem Settled.begin (settled : l.Settled held) (keeps : insert l.started held ⊆ kept) :
    l.begin.Settled kept := by
  intro id below
  rcases Nat.lt_succ_iff_lt_or_eq.mp below with below | rfl
  · exact (settled id below).imp_left fun inside => keeps (Set.mem_insert_of_mem _ inside)
  · exact Or.inl (keeps (Set.mem_insert _ _))

theorem Known.begin (known : l.Known held) (keeps : kept ⊆ insert l.started held) :
    l.begin.Known kept := by
  rintro id (inside | closed)
  · rcases keeps inside with rfl | inside
    · exact Nat.lt_succ_self _
    · exact (known id (Or.inl inside)).trans (Nat.lt_succ_self _)
  · exact (known id (Or.inr closed)).trans (Nat.lt_succ_self _)

end Ledger

end Atterm.Foundation
