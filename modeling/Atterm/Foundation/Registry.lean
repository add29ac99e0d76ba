/-
**Reading tokens into a registry.**

A loop reads one token after another, files what it read, and registers a key of it. A key that
comes again with another value is a fork and stops the loop. So the loop succeeds exactly when every
token is read and no two of them disagree about a key, and then the result is a plain fold.

* `foldlM_readStep_iff` — when such a loop succeeds, and with what.
-/

import Atterm.Foundation.Guard

namespace Atterm.Foundation

open Std (ExtTreeMap TransCmp LawfulEqCmp)

section Registry

variable {ε τ α κ σ : Type} {cmp : κ → κ → Ordering} [TransCmp cmp]
  (read : τ → Except ε α) (key : α → κ) (value : α → String) (fork : ε) (file : σ → α → σ)

/-- One token. An empty value does not count as registered. -/
def readStep (state : ExtTreeMap κ String cmp × σ) (token : τ) :
    Except ε (ExtTreeMap κ String cmp × σ) := do
  let item ← read token
  if (state.1[key item]?).any fun held => held ≠ "" ∧ held ≠ value item then .error fork
  else return (state.1.insert (key item) (value item), file state.2 item)

def Unforked (items : List α) : Prop :=
  ∀ first ∈ items, ∀ second ∈ items, key first = key second → value first = value second

structure Registers (items : List α) (registry : ExtTreeMap κ String cmp) : Prop where
  held : ∀ item ∈ items, registry[key item]? = some (value item)
  known : ∀ (found : κ) (text : String), registry[found]? = some text →
    ∃ item ∈ items, key item = found ∧ value item = text

variable {read key value fork file}

theorem registers_empty : Registers key value [] (∅ : ExtTreeMap κ String cmp) where
  held := fun item member => absurd member List.not_mem_nil
  known := fun found text held => by
    rw [ExtTreeMap.getElem?_empty] at held
    cases held

theorem Registers.fork_iff {items : List α} {registry : ExtTreeMap κ String cmp} {item : α}
    (registers : Registers key value items registry) (nonempty : ∀ other ∈ items, value other ≠ "") :
    (registry[key item]?).any (fun held => decide (held ≠ "" ∧ held ≠ value item)) = true ↔
      ∃ other ∈ items, key other = key item ∧ value other ≠ value item := by
  rw [Option.any_eq_true]
  constructor
  · rintro ⟨held, found, differs⟩
    obtain ⟨other, member, named, rfl⟩ := registers.known _ _ found
    exact ⟨other, member, named, (of_decide_eq_true differs).2⟩
  · rintro ⟨other, member, named, differs⟩
    refine ⟨value other, ?_, decide_eq_true ⟨nonempty other member, differs⟩⟩
    rw [← named]
    exact registers.held other member

theorem Registers.readStep_ok_iff {items : List α} {registry : ExtTreeMap κ String cmp} {start : σ}
    {token : τ} {next : ExtTreeMap κ String cmp × σ} (registers : Registers key value items registry)
    (nonempty : ∀ other ∈ items, value other ≠ "") :
    readStep read key value fork file (registry, start) token = .ok next ↔
      ∃ item, read token = .ok item ∧
        (∀ other ∈ items, key other = key item → value other = value item) ∧
        next = (registry.insert (key item) (value item), file start item) := by
  unfold readStep
  simp only [bind_ok_iff, guard_ok_iff, registers.fork_iff nonempty, not_exists, not_and, not_not]
  constructor
  · rintro ⟨item, found, agrees, same⟩
    cases same
    exact ⟨item, found, agrees, rfl⟩
  · rintro ⟨item, found, agrees, rfl⟩
    exact ⟨item, found, agrees, rfl⟩

variable [LawfulEqCmp cmp]

theorem Registers.insert {items : List α} {registry : ExtTreeMap κ String cmp} {item : α}
    (registers : Registers key value items registry)
    (agrees : ∀ other ∈ items, key other = key item → value other = value item) :
    Registers key value (items ++ [item]) (registry.insert (key item) (value item)) where
  held := by
    intro other member
    rw [ExtTreeMap.getElem?_insert]
    rcases List.mem_append.mp member with old | new
    · by_cases same : key other = key item
      · rw [if_pos (LawfulEqCmp.compare_eq_iff_eq.mpr same.symm), agrees other old same]
      · rw [if_neg fun equal => same (LawfulEqCmp.compare_eq_iff_eq.mp equal).symm]
        exact registers.held other old
    · rw [List.mem_singleton.mp new, if_pos (LawfulEqCmp.compare_eq_iff_eq.mpr rfl)]
  known := by
    intro found text held
    rw [ExtTreeMap.getElem?_insert] at held
    split_ifs at held with same
    · exact ⟨item, List.mem_append_right _ List.mem_cons_self,
        LawfulEqCmp.compare_eq_iff_eq.mp same, Option.some.inj held⟩
    · obtain ⟨other, member, named, valued⟩ := registers.known found text held
      exact ⟨other, List.mem_append_left _ member, named, valued⟩

theorem Unforked.concat {items : List α} {item : α} (agreed : Unforked key value items)
    (agrees : ∀ other ∈ items, key other = key item → value other = value item) :
    Unforked key value (items ++ [item]) := by
  intro first firstMember second secondMember same
  rcases List.mem_append.mp firstMember with old | new <;>
    rcases List.mem_append.mp secondMember with old' | new'
  · exact agreed first old second old' same
  · rw [List.mem_singleton.mp new'] at same ⊢
    exact agrees first old same
  · rw [List.mem_singleton.mp new] at same ⊢
    exact (agrees second old' same.symm).symm
  · rw [List.mem_singleton.mp new, List.mem_singleton.mp new']

theorem foldlM_readStep_iff_of_registers
    (nonempty : ∀ token item, read token = .ok item → value item ≠ "") {tokens : List τ}
    {before : List α} {registry : ExtTreeMap κ String cmp} {start result : σ}
    (registers : Registers key value before registry) (early : ∀ other ∈ before, value other ≠ "")
    (agreed : Unforked key value before) :
    (∃ after, tokens.foldlM (readStep read key value fork file) (registry, start)
        = .ok (after, result)) ↔
      ∃ items, List.Forall₂ (fun token item => read token = .ok item) tokens items ∧
        Unforked key value (before ++ items) ∧ result = items.foldl file start := by
  induction tokens generalizing before registry start with
  | nil =>
    constructor
    · rintro ⟨after, done⟩
      cases done
      exact ⟨[], .nil, by rwa [List.append_nil], rfl⟩
    · rintro ⟨items, reads, _, same⟩
      cases reads
      exact ⟨registry, by rw [same]; rfl⟩
  | cons token rest ih =>
    -- the step, then the loop over the rest with one item more read
    have step : ∀ item, read token = .ok item →
        (∀ other ∈ before, key other = key item → value other = value item) →
        ((∃ after, rest.foldlM (readStep read key value fork file)
            (registry.insert (key item) (value item), file start item) = .ok (after, result)) ↔
          ∃ items, List.Forall₂ (fun token item => read token = .ok item) rest items ∧
            Unforked key value (before ++ item :: items) ∧
            result = items.foldl file (file start item)) := by
      intro item found agrees
      have later : ∀ other ∈ before ++ [item], value other ≠ "" := by
        intro other member
        rcases List.mem_append.mp member with old | new
        · exact early other old
        · rw [List.mem_singleton.mp new]
          exact nonempty token item found
      have iff := @ih (before ++ [item]) _ (file start item) (registers.insert agrees) later
        (agreed.concat agrees)
      simpa only [List.append_assoc, List.singleton_append] using iff
    rw [List.foldlM_cons]
    constructor
    · rintro ⟨after, done⟩
      obtain ⟨next, stepped, finished⟩ := bind_ok done
      obtain ⟨item, found, agrees, rfl⟩ := (registers.readStep_ok_iff early).mp stepped
      obtain ⟨items, reads, unforked, same⟩ := (step item found agrees).mp ⟨after, finished⟩
      exact ⟨item :: items, .cons found reads, unforked, same⟩
    · rintro ⟨items, reads, unforked, same⟩
      cases reads with
      | cons found reads =>
        rename_i item items
        have agrees : ∀ other ∈ before, key other = key item → value other = value item :=
          fun other member => unforked other (List.mem_append_left _ member) item
            (List.mem_append_right _ List.mem_cons_self)
        obtain ⟨after, finished⟩ := (step item found agrees).mpr ⟨items, reads, unforked, same⟩
        exact ⟨after, bind_ok_iff.mpr
          ⟨_, (registers.readStep_ok_iff early).mpr ⟨item, found, agrees, rfl⟩, finished⟩⟩

/-- **The loop succeeds** exactly when every token is read and no two items disagree about a key,
and then it files the items one after the other. -/
theorem foldlM_readStep_iff (nonempty : ∀ token item, read token = .ok item → value item ≠ "")
    {tokens : List τ} {start result : σ} :
    (∃ after, tokens.foldlM (readStep read key value fork file)
        ((∅ : ExtTreeMap κ String cmp), start) = .ok (after, result)) ↔
      ∃ items, List.Forall₂ (fun token item => read token = .ok item) tokens items ∧
        Unforked key value items ∧ result = items.foldl file start :=
  foldlM_readStep_iff_of_registers nonempty registers_empty
    (fun _ member => absurd member List.not_mem_nil) fun _ member => absurd member List.not_mem_nil

end Registry

theorem mem_of_forall₂ {α β : Type} {related : α → β → Prop} {left : List α} {right : List β}
    (pairs : List.Forall₂ related left right) :
    (∀ first ∈ left, ∃ second ∈ right, related first second) ∧
      ∀ second ∈ right, ∃ first ∈ left, related first second := by
  induction pairs with
  | nil => simp
  | cons both _ ih =>
    refine ⟨fun first member => ?_, fun second member => ?_⟩
    · rcases List.mem_cons.mp member with rfl | later
      · exact ⟨_, List.mem_cons_self, both⟩
      · obtain ⟨second, inside, pair⟩ := ih.1 first later
        exact ⟨second, List.mem_cons_of_mem _ inside, pair⟩
    · rcases List.mem_cons.mp member with rfl | later
      · exact ⟨_, List.mem_cons_self, both⟩
      · obtain ⟨first, inside, pair⟩ := ih.2 second later
        exact ⟨first, List.mem_cons_of_mem _ inside, pair⟩

end Atterm.Foundation
