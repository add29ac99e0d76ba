/-
**The unfolding of a graph of named references.**

The nodes of a graph name the nodes that they need; a name may lead nowhere. The unfolding of some names
lists the nodes they lead to, each behind the unfolding of its own names. A node that is met again on the
way to itself has no unfolding.

* `Refers`, `Unfolds` — the graph, and an unfolding from a path of nodes;
* `Unfolds.found`, `Unfolds.named` — an unfolding has what is named, and nothing else;
* `Unfolds.ordered` — every node is behind those that it needs.
-/

import Mathlib

namespace Atterm.Foundation

variable {Node Name Key : Type*}

section

variable (find : Name → Option Node) (names : Node → List Name) (key : Node → Key)

def Refers (a b : Node) : Prop := ∃ name ∈ names a, find name = some b

/-- The nodes that some names lead to, from a path of nodes that none of them is on. -/
inductive Unfolds : List Node → List Name → List Node → Prop
  | nil (path : List Node) : Unfolds path [] []
  | cons {path : List Node} {name : Name} {rest : List Name} {node : Node} {needed later : List Node}
      (leads : find name = some node) (fresh : key node ∉ path.map key)
      (below : Unfolds (path ++ [node]) (names node) needed) (beside : Unfolds path rest later) :
      Unfolds path (name :: rest) (needed ++ node :: later)

end

namespace Unfolds

variable {find : Name → Option Node} {names : Node → List Name} {key : Node → Key}
  {path : List Node} {todo : List Name} {order : List Node}

theorem found (unfolds : Unfolds find names key path todo order) :
    ∀ name ∈ todo, ∃ node ∈ order, find name = some node := by
  induction unfolds with
  | nil path => exact fun name inside => (by cases inside)
  | @cons path name rest node needed later leads fresh below beside _ ih =>
    refine List.forall_mem_cons.mpr ⟨⟨node, ?_, leads⟩, fun other inside => ?_⟩
    · exact List.mem_append_right needed List.mem_cons_self
    · obtain ⟨found, among, leads⟩ := ih other inside
      exact ⟨found, List.mem_append_right needed (List.mem_cons_of_mem node among), leads⟩

theorem named (unfolds : Unfolds find names key path todo order) :
    ∀ node ∈ order, ∃ name, find name = some node := by
  induction unfolds with
  | nil path => exact fun node inside => (by cases inside)
  | @cons path name rest node needed later leads fresh below beside ih_below ih_beside =>
    intro other inside
    rcases List.mem_append.mp inside with inside | inside
    · exact ih_below other inside
    · rcases List.mem_cons.mp inside with rfl | inside
      · exact ⟨name, leads⟩
      · exact ih_beside other inside

/-- **Every node is behind the nodes that it needs.** -/
theorem ordered (unfolds : Unfolds find names key path todo order) :
    ∀ before node after, order = before ++ node :: after →
      ∀ name ∈ names node, ∃ required ∈ before, find name = some required := by
  induction unfolds with
  | nil path => exact fun before node after same => (by cases before <;> cases same)
  | @cons path name rest node needed later leads fresh below beside ih_below ih_beside =>
    intro before other after same name inside
    -- the node is among those that are needed, is the one that is named, or is behind that
    rcases List.append_eq_append_iff.mp same with ⟨between, rfl, split⟩ | ⟨between, rfl, split⟩
    · cases between with
      | nil =>
        obtain ⟨rfl, rfl⟩ := List.cons.inj split
        rw [List.append_nil]
        exact below.found name inside
      | cons first between =>
        obtain ⟨rfl, rfl⟩ := List.cons.inj split
        obtain ⟨required, among, leads⟩ := ih_beside between other after rfl name inside
        exact ⟨required, List.mem_append_right needed (List.mem_cons_of_mem node among), leads⟩
    · cases between with
      | nil =>
        obtain ⟨rfl, rfl⟩ := List.cons.inj split
        obtain ⟨required, among, leads⟩ := below.found name inside
        rw [List.append_nil] at among
        exact ⟨required, among, leads⟩
      | cons first between =>
        obtain ⟨rfl, rfl⟩ := List.cons.inj split
        exact ih_below before other between rfl name inside

/-- **A walk that begins with one of the names meets neither the path nor any node again.** -/
theorem nodup_of_walk (unfolds : Unfolds find names key path todo order)
    (nodup : (path.map key).Nodup) : ∀ name ∈ todo, ∀ first walk, find name = some first →
      List.IsChain (Refers find names) (first :: walk) → ((path ++ first :: walk).map key).Nodup := by
  induction unfolds with
  | nil path => exact fun name inside => (by cases inside)
  | @cons path name rest node needed later leads fresh below beside ih_below ih_beside =>
    refine List.forall_mem_cons.mpr ⟨fun first walk leads' chain => ?_, ih_beside nodup⟩
    obtain rfl : node = first := Option.some.inj (leads.symm.trans leads')
    have nodup' : ((path ++ [node]).map key).Nodup := by
      rw [List.map_append, List.map_singleton, List.nodup_append_comm]
      exact List.nodup_cons.mpr ⟨fresh, nodup⟩
    cases walk with
    | nil => exact nodup'
    | cons second walk =>
      obtain ⟨⟨next, among, leads''⟩, chain⟩ := List.isChain_cons_cons.mp chain
      have longer := ih_below nodup' next among second walk leads'' chain
      rwa [List.append_assoc] at longer

end Unfolds

end Atterm.Foundation
