/-
**Items that are sent part by part.**

Items wait in lanes, and a part of the first item of a lane is sent at a time, so that lanes can
overtake each other in the middle of an item. The items of a channel all wait in one lane, and the
other end of a channel takes one item at a time.

* `Cutting.follow`, `Cutting.Fits` — which part a channel expects, and the parts that it can take;
* `Cutting.Lined` — what the lanes keep, whatever overtakes what;
* `Lined.fits` — the part that is sent fits, unless an item of its channel was dropped half-way.
-/

import Mathlib

namespace Atterm.Foundation

structure Portion (α : Type*) where
  item : α
  index : ℕ

/-- How many parts an item has, and the channel on which they are put together again. An item that is
not cut has no channel. -/
structure Cutting (α κ : Type*) where
  channel : α → Option κ
  length : α → ℕ

namespace Cutting

variable {α κ ι : Type*} (cut : Cutting α κ)

def finished (part : Portion α) : Option α :=
  if part.index + 1 = cut.length part.item then some part.item else none

/-- What is left of a lane after a part of its first item. -/
def remaining (part : Portion α) (rest : List (Portion α)) : List (Portion α) :=
  if part.index + 1 < cut.length part.item then ⟨part.item, part.index + 1⟩ :: rest else rest

/-- A part that is not the first is what its channel expects; for a first part it expects nothing. -/
def Fits (expected : κ → Option (Portion α)) (part : Portion α) : Prop :=
  ∀ c ∈ cut.channel part.item, expected c = if part.index = 0 then none else some part

def follow [DecidableEq κ] (expected : κ → Option (Portion α)) (part : Portion α) : κ → Option (Portion α) :=
  match cut.channel part.item with
  | none => expected
  | some c =>
    Function.update expected c
      (if part.index + 1 < cut.length part.item then some ⟨part.item, part.index + 1⟩ else none)

variable {cut}

theorem follow_of_none [DecidableEq κ] {part : Portion α} (whole : cut.channel part.item = none)
    (expected : κ → Option (Portion α)) : cut.follow expected part = expected := by
  rw [follow, whole]

theorem follow_self [DecidableEq κ] {part : Portion α} {c : κ} (channel : cut.channel part.item = some c)
    (expected : κ → Option (Portion α)) : cut.follow expected part c =
      if part.index + 1 < cut.length part.item then some ⟨part.item, part.index + 1⟩ else none := by
  rw [follow, channel]
  exact Function.update_self _ _ _

theorem follow_of_ne [DecidableEq κ] {part : Portion α} {c : κ} (other : cut.channel part.item ≠ some c)
    (expected : κ → Option (Portion α)) : cut.follow expected part c = expected c := by
  cases channel : cut.channel part.item with
  | none => rw [follow_of_none channel]
  | some own =>
    have differs : c ≠ own := fun same => other (same ▸ channel)
    rw [follow, channel]
    exact Function.update_of_ne differs _ _

/-- What the lanes keep. The items of a channel wait in its home lane; only the first item of a lane
can have begun; a channel expects the next part of the item that has begun, or of one that was dropped
after it had. -/
structure Lined (cut : Cutting α κ) (home : κ → ι) (lane : ι → List (Portion α))
    (expected : κ → Option (Portion α)) (broken : κ → Prop) : Prop where
  homes : ∀ i, ∀ part ∈ lane i, ∀ c ∈ cut.channel part.item, home c = i
  fresh : ∀ i, ∀ part ∈ (lane i).tail, part.index = 0
  expects : ∀ i, ∀ part ∈ lane i, ∀ c ∈ cut.channel part.item, 0 < part.index →
    expected c = some part
  known : ∀ c part, expected c = some part → 0 < part.index ∧ cut.channel part.item = some c ∧
    (broken c ∨ part ∈ lane (home c))
  stuck : ∀ c, broken c → expected c ≠ none ∧
    ∀ i, ∀ part ∈ lane i, c ∈ cut.channel part.item → part.index = 0

namespace Lined

variable {home : κ → ι} {lane after : ι → List (Portion α)} {expected : κ → Option (Portion α)}
  {broken : κ → Prop} {part : Portion α} {rest : List (Portion α)} {i : ι}

theorem empty (cut : Cutting α κ) (home : κ → ι) :
    cut.Lined home (fun _ => []) (fun _ => none) fun _ => False where
  homes := fun _ _ inside => absurd inside List.not_mem_nil
  fresh := fun _ _ inside => absurd inside List.not_mem_nil
  expects := fun _ _ inside => absurd inside List.not_mem_nil
  known := fun _ _ expects => absurd expects (by simp)
  stuck := fun _ lost => absurd lost id

theorem enter [DecidableEq ι] (lined : cut.Lined home lane expected broken) (item : α)
    (at_home : ∀ c ∈ cut.channel item, home c = i) :
    cut.Lined home (Function.update lane i (lane i ++ [⟨item, 0⟩])) expected broken := by
  have split : ∀ j, ∀ part ∈ Function.update lane i (lane i ++ [⟨item, 0⟩]) j,
      part ∈ lane j ∨ (j = i ∧ part = ⟨item, 0⟩) := by
    intro j part inside
    by_cases here : j = i
    · subst here
      rw [Function.update_self, List.mem_append, List.mem_singleton] at inside
      exact inside.imp id fun new => ⟨rfl, new⟩
    · rw [Function.update_of_ne here] at inside
      exact Or.inl inside
  refine ⟨?_, ?_, ?_, ?_, ?_⟩
  · intro j part inside c channel
    rcases split j part inside with old | ⟨rfl, rfl⟩
    · exact lined.homes j part old c channel
    · exact at_home c channel
  · intro j part inside
    by_cases here : j = i
    · subst here
      rw [Function.update_self] at inside
      cases waiting : lane j with
      | nil =>
        rw [waiting] at inside
        exact absurd inside List.not_mem_nil
      | cons first others =>
        rw [waiting, List.cons_append, List.tail_cons, List.mem_append,
          List.mem_singleton] at inside
        rcases inside with old | rfl
        · exact lined.fresh j part (by rw [waiting]; exact old)
        · rfl
    · rw [Function.update_of_ne here] at inside
      exact lined.fresh j part inside
  · intro j part inside c channel begun
    rcases split j part inside with old | ⟨_, rfl⟩
    · exact lined.expects j part old c channel begun
    · exact absurd begun (lt_irrefl 0)
  · intro c part expects
    obtain ⟨begun, channel, lost | waiting⟩ := lined.known c part expects
    · exact ⟨begun, channel, Or.inl lost⟩
    · refine ⟨begun, channel, Or.inr ?_⟩
      by_cases here : home c = i
      · rw [here, Function.update_self]
        exact List.mem_append_left _ (here ▸ waiting)
      · rw [Function.update_of_ne here]
        exact waiting
  · intro c lost
    refine ⟨(lined.stuck c lost).1, fun j part inside channel => ?_⟩
    rcases split j part inside with old | ⟨_, rfl⟩
    · exact (lined.stuck c lost).2 j part old channel
    · rfl

theorem eq_head_of_begun (lined : cut.Lined home lane expected broken) (first : lane i = part :: rest)
    {c : κ} (channel : c ∈ cut.channel part.item) {j : ι} {other : Portion α} (inside : other ∈ lane j)
    (shared : c ∈ cut.channel other.item) (begun : 0 < other.index) : other = part := by
  have here : i = j := by
    rw [← lined.homes j other inside c shared]
    exact (lined.homes i part (first ▸ List.mem_cons_self) c channel).symm
  subst here
  rw [first] at inside
  rcases List.mem_cons.mp inside with same | behind
  · exact same
  · exact absurd (lined.fresh i other (by rw [first]; exact behind)) begun.ne'

/-- **What is sent fits.** The next part of the first item of a lane is what its channel expects. -/
theorem fits (lined : cut.Lined home lane expected broken) (first : lane i = part :: rest)
    (intact : ∀ c ∈ cut.channel part.item, ¬broken c) : cut.Fits expected part := by
  intro c channel
  by_cases begun : part.index = 0
  · rw [if_pos begun]
    by_contra occupied
    obtain ⟨other, expects⟩ := Option.ne_none_iff_exists'.mp occupied
    obtain ⟨index, shared, lost | waiting⟩ := lined.known c other expects
    · exact intact c channel lost
    · have same := lined.eq_head_of_begun first channel waiting shared index
      exact absurd begun (same ▸ index.ne')
  · rw [if_neg begun]
    exact lined.expects i part (first ▸ List.mem_cons_self) c channel (Nat.pos_of_ne_zero begun)

/-- **What is sent after a loss does not fit.** -/
theorem clash (lined : cut.Lined home lane expected broken) (inside : part ∈ lane i) {c : κ}
    (channel : c ∈ cut.channel part.item) (lost : broken c) :
    part.index = 0 ∧ ∃ other, expected c = some other ∧ 0 < other.index := by
  obtain ⟨occupied, fresh⟩ := lined.stuck c lost
  obtain ⟨other, expects⟩ := Option.ne_none_iff_exists'.mp occupied
  exact ⟨fresh i part inside channel, other, expects, (lined.known c other expects).1⟩

theorem mem_remaining {other : Portion α} (inside : other ∈ cut.remaining part rest) :
    (part.index + 1 < cut.length part.item ∧ other = ⟨part.item, part.index + 1⟩) ∨
      other ∈ rest := by
  unfold remaining at inside
  by_cases more : part.index + 1 < cut.length part.item
  · rw [if_pos more] at inside
    exact (List.mem_cons.mp inside).imp (fun same => ⟨more, same⟩) id
  · rw [if_neg more] at inside
    exact Or.inr inside

theorem tail_remaining {other : Portion α} (inside : other ∈ (cut.remaining part rest).tail) :
    other ∈ rest := by
  unfold remaining at inside
  by_cases more : part.index + 1 < cut.length part.item
  · rw [if_pos more] at inside
    exact inside
  · rw [if_neg more] at inside
    exact List.mem_of_mem_tail inside

theorem mem_remaining_of_mem {other : Portion α} (inside : other ∈ rest) :
    other ∈ cut.remaining part rest := by
  unfold remaining
  by_cases more : part.index + 1 < cut.length part.item
  · rw [if_pos more]
    exact List.mem_cons_of_mem _ inside
  · rw [if_neg more]
    exact inside

section Move

variable [DecidableEq ι]

theorem mem_update {items : List (Portion α)} {j : ι} {other : Portion α}
    (inside : other ∈ Function.update lane i items j) :
    (j = i ∧ other ∈ items) ∨ (j ≠ i ∧ other ∈ lane j) := by
  by_cases here : j = i
  · subst here
    rw [Function.update_self] at inside
    exact Or.inl ⟨rfl, inside⟩
  · rw [Function.update_of_ne here] at inside
    exact Or.inr ⟨here, inside⟩

/-- **A part is sent.** -/
theorem send [DecidableEq κ] (lined : cut.Lined home lane expected broken) (first : lane i = part :: rest)
    (intact : ∀ c ∈ cut.channel part.item, ¬broken c) :
    cut.Lined home (Function.update lane i (cut.remaining part rest)) (cut.follow expected part)
      broken := by
  have head : part ∈ lane i := first ▸ List.mem_cons_self
  have behind : ∀ other ∈ rest, other ∈ lane i ∧ other.index = 0 := by
    intro other inside
    exact ⟨first ▸ List.mem_cons_of_mem _ inside, lined.fresh i other (by rw [first]; exact inside)⟩
  refine ⟨?_, ?_, ?_, ?_, ?_⟩
  · intro j other inside c channel
    rcases mem_update inside with ⟨rfl, here⟩ | ⟨_, there⟩
    · rcases mem_remaining here with ⟨_, rfl⟩ | later
      · exact lined.homes j part head c channel
      · exact lined.homes j other (behind other later).1 c channel
    · exact lined.homes j other there c channel
  · intro j other inside
    by_cases here : j = i
    · subst here
      rw [Function.update_self] at inside
      exact (behind other (tail_remaining inside)).2
    · rw [Function.update_of_ne here] at inside
      exact lined.fresh j other inside
  · intro j other inside c channel begun
    rcases mem_update inside with ⟨rfl, here⟩ | ⟨away, there⟩
    · rcases mem_remaining here with ⟨more, rfl⟩ | later
      · have own : cut.channel part.item = some c := channel
        exact (follow_self own expected).trans (if_pos more)
      · exact absurd (behind other later).2 begun.ne'
    · have differs : cut.channel part.item ≠ some c := by
        intro own
        exact away ((lined.homes j other there c channel).symm.trans (lined.homes i part head c own))
      rw [follow_of_ne differs]
      exact lined.expects j other there c channel begun
  · intro c other expects
    by_cases own : cut.channel part.item = some c
    · rw [follow_self own] at expects
      by_cases more : part.index + 1 < cut.length part.item
      · rw [if_pos more] at expects
        obtain rfl := Option.some.inj expects
        refine ⟨Nat.succ_pos _, own, Or.inr ?_⟩
        rw [lined.homes i part head c own, Function.update_self, remaining, if_pos more]
        exact List.mem_cons_self
      · rw [if_neg more] at expects
        cases expects
    · rw [follow_of_ne own] at expects
      obtain ⟨begun, channel, lost | waiting⟩ := lined.known c other expects
      · exact ⟨begun, channel, Or.inl lost⟩
      · refine ⟨begun, channel, Or.inr ?_⟩
        by_cases here : home c = i
        · rw [here, first] at waiting
          rw [here, Function.update_self]
          rcases List.mem_cons.mp waiting with rfl | later
          · exact absurd channel own
          · exact mem_remaining_of_mem later
        · rw [Function.update_of_ne here]
          exact waiting
  · intro c lost
    have differs : cut.channel part.item ≠ some c := fun own => intact c own lost
    obtain ⟨occupied, fresh⟩ := lined.stuck c lost
    rw [follow_of_ne differs]
    refine ⟨occupied, fun j other inside channel => ?_⟩
    rcases mem_update inside with ⟨rfl, here⟩ | ⟨_, there⟩
    · rcases mem_remaining here with ⟨_, rfl⟩ | later
      · exact absurd channel differs
      · exact (behind other later).2
    · exact fresh j other there channel

/-- **The first item of a lane is dropped**, and breaks its channel if it had begun. -/
theorem drop (lined : cut.Lined home lane expected broken) (first : lane i = part :: rest) :
    cut.Lined home (Function.update lane i rest) expected
      fun c => broken c ∨ (c ∈ cut.channel part.item ∧ 0 < part.index) := by
  have head : part ∈ lane i := first ▸ List.mem_cons_self
  have behind : ∀ other ∈ rest, other ∈ lane i ∧ other.index = 0 := by
    intro other inside
    exact ⟨first ▸ List.mem_cons_of_mem _ inside, lined.fresh i other (by rw [first]; exact inside)⟩
  have old : ∀ {j other}, other ∈ Function.update lane i rest j → other ∈ lane j := by
    intro j other inside
    rcases mem_update inside with ⟨rfl, here⟩ | ⟨_, there⟩
    · exact (behind other here).1
    · exact there
  refine ⟨fun j other inside => lined.homes j other (old inside), ?_,
    fun j other inside => lined.expects j other (old inside), ?_, ?_⟩
  · intro j other inside
    by_cases here : j = i
    · subst here
      rw [Function.update_self] at inside
      exact (behind other (List.mem_of_mem_tail inside)).2
    · rw [Function.update_of_ne here] at inside
      exact lined.fresh j other inside
  · intro c other expects
    obtain ⟨begun, channel, lost | waiting⟩ := lined.known c other expects
    · exact ⟨begun, channel, Or.inl (Or.inl lost)⟩
    · refine ⟨begun, channel, ?_⟩
      by_cases here : home c = i
      · rw [here, first] at waiting
        rcases List.mem_cons.mp waiting with rfl | later
        · exact Or.inl (Or.inr ⟨channel, begun⟩)
        · exact absurd (behind other later).2 begun.ne'
      · rw [Function.update_of_ne here]
        exact Or.inr waiting
  · rintro c (lost | ⟨own, begun⟩)
    · exact ⟨(lined.stuck c lost).1, fun j other inside => (lined.stuck c lost).2 j other (old inside)⟩
    · have expects := lined.expects i part head c own begun
      refine ⟨by rw [expects]; exact Option.some_ne_none part, fun j other inside channel => ?_⟩
      rcases mem_update inside with ⟨rfl, here⟩ | ⟨away, there⟩
      · exact (behind other here).2
      · exact absurd ((lined.homes j other there c channel).symm.trans
          (lined.homes i part head c own)) away

end Move

theorem clear (lined : cut.Lined home lane expected broken) :
    cut.Lined home (fun _ => []) expected
      fun c => broken c ∨ ∃ i, ∃ part ∈ lane i, c ∈ cut.channel part.item ∧ 0 < part.index where
  homes := fun _ _ inside => absurd inside List.not_mem_nil
  fresh := fun _ _ inside => absurd inside List.not_mem_nil
  expects := fun _ _ inside => absurd inside List.not_mem_nil
  known := by
    intro c part expects
    obtain ⟨begun, channel, lost | waiting⟩ := lined.known c part expects
    · exact ⟨begun, channel, Or.inl (Or.inl lost)⟩
    · exact ⟨begun, channel, Or.inl (Or.inr ⟨home c, part, waiting, channel, begun⟩)⟩
  stuck := by
    rintro c (lost | ⟨i, part, inside, channel, begun⟩)
    · exact ⟨(lined.stuck c lost).1, fun _ _ inside => absurd inside List.not_mem_nil⟩
    · have expects := lined.expects i part inside c channel begun
      exact ⟨by rw [expects]; exact Option.some_ne_none part,
        fun _ _ inside => absurd inside List.not_mem_nil⟩

end Lined

end Cutting

end Atterm.Foundation
