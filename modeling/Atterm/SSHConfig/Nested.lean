/-
**The files of an ssh_config as they are nested.**

The parser splices included files into one stream of lines. Where no file includes itself and the nesting
stays within the limit, the same reading gives a tree that keeps which file a line is in.

* `Tree`, `readTree` — the nested files, and how they are read;
* `flatten_leaves` — the stream has the leaves of the tree.
-/

import Atterm.SSHConfig.Parse

namespace Atterm.SSHConfig

attribute [local instance] path_lawful

/-! ### The nested files -/

/-- What is left of a file: a line before the rest, or an included file before the rest. -/
inductive Tree where
  | done
  | line (l : RawLine) (rest : Tree)
  | file (included rest : Tree)
deriving DecidableEq, Repr

def Tree.append : Tree → Tree → Tree
  | .done, behind => behind
  | .line l rest, behind => .line l (rest.append behind)
  | .file included rest, behind => .file included (rest.append behind)

def Tree.leaves : Tree → List RawLine
  | .done => []
  | .line l rest => l :: rest.leaves
  | .file included rest => included.leaves ++ rest.leaves

@[simp] theorem Tree.leaves_append (first second : Tree) :
    (first.append second).leaves = first.leaves ++ second.leaves := by
  induction first with
  | done => rfl
  | line l rest ih => simp [Tree.append, Tree.leaves, ih]
  | file included rest _ ih => simp [Tree.append, Tree.leaves, ih]

/-- Reading a file as a tree, with the paths that are being included; `none` for a cycle, for an `Include`
at the limit, and for a file that cannot be scanned to its end. -/
abbrev ReadTree := List (List Char) → Reader → Option Tree

def treesInOrder {α : Type} (reading : α → Option Tree) : List α → Option Tree
  | [] => some .done
  | a :: rest => do
      let first ← reading a
      let behind ← treesInOrder reading rest
      some (first.append behind)

/-- A file that cannot be opened contributes nothing. -/
def pathTree (opener : Opener) (sub : ReadTree) (visited : List (List Char)) (p : List Char) :
    Option Tree :=
  if p ∈ visited then none
  else
    match opener.openFile p with
    | .error _ => some .done
    | .ok file => (sub (p :: visited) file).map fun included => .file included .done

/-- A pattern that cannot be expanded contributes nothing. -/
def patternTree (base : List Char) (opener : Opener) (sub : ReadTree) (visited : List (List Char))
    (pat : List Char) : Option Tree :=
  match resolveIncludePaths pat base opener with
  | .error _ => some .done
  | .ok paths => treesInOrder (pathTree opener sub visited) paths

def lineTree (base : List Char) (opener : Opener) (sub : Option ReadTree) (visited : List (List Char))
    (line : List Char) : Option Tree :=
  match splitKeyValue line with
  | none => some .done
  | some (key, rest) =>
    if key ≠ kwInclude then some (.line ⟨key, rest⟩ .done)
    else
      match sub with
      | none => none
      | some sub => treesInOrder (patternTree base opener sub visited) (splitFields rest)

def fileTree (base : List Char) (opener : Opener) (sub : Option ReadTree) : ReadTree :=
  fun visited r =>
    match (scan r).2 with
    | some _ => none
    | none => treesInOrder (lineTree base opener sub visited) (scan r).1

def readTree (base : List Char) (opener : Opener) : ℕ → ReadTree
  | 0 => fileTree base opener none
  | levels + 1 => fileTree base opener (some (readTree base opener levels))

/-! ### The stream has the leaves of the tree -/

theorem Outcome.andThen_ok {first second : Outcome} {lines behind : List RawLine}
    (one : first.lines = .ok lines) (other : second.lines = .ok behind) :
    (first.andThen second).lines = .ok (lines ++ behind) := by
  rw [Outcome.andThen, one, other]
  rfl

theorem inOrder_leaves {α : Type} {reading : α → Outcome} {tree : α → Option Tree}
    (agree : ∀ a t, tree a = some t → (reading a).lines = .ok t.leaves) (l : List α) (t : Tree)
    (read : treesInOrder tree l = some t) : (inOrder reading l).lines = .ok t.leaves := by
  induction l generalizing t with
  | nil =>
    cases read
    rfl
  | cons a rest ih =>
    simp only [treesInOrder, Option.bind_eq_bind, Option.bind_eq_some_iff, Option.some.injEq] at read
    obtain ⟨first, one, behind, others, rfl⟩ := read
    rw [inOrder, Tree.leaves_append]
    exact Outcome.andThen_ok (agree a first one) (ih behind others)

/-- Two readings of a file that agree wherever there is a tree. -/
def Agree (flat : Flatten) (tree : ReadTree) : Prop :=
  ∀ visited r t, tree visited r = some t → (flat visited r).lines = .ok t.leaves

section Agreement

variable {base : List Char} {opener : Opener}

theorem splicePath_leaves {flat : Flatten} {tree : ReadTree} (agree : Agree flat tree)
    (visited : List (List Char)) (p : List Char) (t : Tree)
    (read : pathTree opener tree visited p = some t) :
    (splicePath opener flat visited p).lines = .ok t.leaves := by
  rw [pathTree] at read
  rw [splicePath]
  split at read
  · cases read
  · next new =>
      rw [if_neg new]
      cases found : opener.openFile p with
      | error err =>
        rw [found] at read
        cases read
        rfl
      | ok file =>
        rw [found] at read
        obtain ⟨included, inner, rfl⟩ := Option.map_eq_some_iff.mp read
        rw [Tree.leaves, Tree.leaves, List.append_nil]
        exact agree _ _ _ inner

theorem splicePattern_leaves {flat : Flatten} {tree : ReadTree} (agree : Agree flat tree)
    (visited : List (List Char)) (pat : List Char) (t : Tree)
    (read : patternTree base opener tree visited pat = some t) :
    (splicePattern base opener flat visited pat).lines = .ok t.leaves := by
  rw [patternTree] at read
  rw [splicePattern]
  cases expanded : resolveIncludePaths pat base opener with
  | error err =>
    rw [expanded] at read
    cases read
    rfl
  | ok paths =>
    rw [expanded] at read
    exact inOrder_leaves (splicePath_leaves agree visited) paths t read

theorem readLine_leaves {flat : Option Flatten} {tree : Option ReadTree}
    (agree : ∀ sub, tree = some sub → ∃ flatSub, flat = some flatSub ∧ Agree flatSub sub)
    (visited : List (List Char)) (line : List Char) (t : Tree)
    (read : lineTree base opener tree visited line = some t) :
    (readLine base opener flat visited line).lines = .ok t.leaves := by
  rw [lineTree] at read
  rw [readLine]
  cases keyed : splitKeyValue line with
  | none =>
    rw [keyed] at read
    cases read
    rfl
  | some pair =>
    obtain ⟨key, rest⟩ := pair
    rw [keyed] at read
    by_cases plain : key ≠ kwInclude
    · simp only [if_pos plain] at read ⊢
      cases read
      rfl
    · simp only [if_neg plain] at read ⊢
      cases below : tree with
      | none =>
        rw [below] at read
        cases read
      | some sub =>
        obtain ⟨flatSub, rfl, same⟩ := agree sub below
        rw [below] at read
        exact inOrder_leaves (splicePattern_leaves same visited) _ t read

theorem readFile_leaves {flat : Option Flatten} {tree : Option ReadTree}
    (agree : ∀ sub, tree = some sub → ∃ flatSub, flat = some flatSub ∧ Agree flatSub sub) :
    Agree (readFile base opener flat) (fileTree base opener tree) := by
  intro visited r t read
  rw [fileTree] at read
  split at read
  · cases read
  · next ended =>
      rw [readFile, ended, ← List.append_nil t.leaves]
      exact Outcome.andThen_ok (inOrder_leaves (readLine_leaves agree visited) _ t read) rfl

theorem flatten_leaves (levels : ℕ) : Agree (flatten base opener levels) (readTree base opener levels) := by
  induction levels with
  | zero => exact readFile_leaves (fun _ none => by cases none)
  | succ levels ih =>
    refine readFile_leaves fun sub same => ?_
    cases same
    exact ⟨_, rfl, ih⟩

end Agreement

end Atterm.SSHConfig
