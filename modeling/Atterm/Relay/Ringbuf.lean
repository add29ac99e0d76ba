/-
**The scrollback ring, and what of it an attaching client is sent.**

A ring keeps the output chunks of a session within a budget of bytes; the newest chunk stays even if it
is over the budget. A replay of the chunks behind a cursor is capped to their newest bytes.

* `Buffer`, `Buffer.push`, `Buffer.since` — the ring;
* `Buffer.Ordered`, `Buffer.since_eq` — what is behind a cursor when the chunks are in order;
* `capReplayTail`, `capReplayTail_small` — the cap, and that all but a single chunk stays under it.
-/

import Mathlib

namespace Atterm.Relay

/-- One OUT frame's bytes paired with its seq. -/
structure Chunk where
  seq : ℕ
  data : List UInt8
deriving DecidableEq, Repr

def replayBytes (chunks : List Chunk) : ℕ := (chunks.map fun c => c.data.length).sum

@[simp] theorem replayBytes_nil : replayBytes [] = 0 := rfl

@[simp] theorem replayBytes_cons (c : Chunk) (rest : List Chunk) :
    replayBytes (c :: rest) = c.data.length + replayBytes rest := rfl

@[simp] theorem replayBytes_append (first second : List Chunk) :
    replayBytes (first ++ second) = replayBytes first + replayBytes second := by
  rw [replayBytes, List.map_append, List.sum_append]
  rfl

theorem replayBytes_suffix {kept chunks : List Chunk} (suffix : kept <:+ chunks) :
    replayBytes kept ≤ replayBytes chunks := by
  obtain ⟨dropped, rfl⟩ := suffix
  rw [replayBytes_append]
  exact Nat.le_add_left _ _

def Blank (chunks : List Chunk) : Prop := ∀ c ∈ chunks, c.data = []

instance (chunks : List Chunk) : Decidable (Blank chunks) :=
  inferInstanceAs (Decidable (∀ c ∈ chunks, c.data = []))

theorem exists_last_of_not_blank {chunks : List Chunk} (some_byte : ¬ Blank chunks) :
    ∃ before last blanks, chunks = before ++ last :: blanks ∧ last.data ≠ [] ∧ Blank blanks := by
  induction chunks with
  | nil => exact absurd (fun _ inside => by cases inside) some_byte
  | cons c rest ih =>
    by_cases blank : Blank rest
    · refine ⟨[], c, rest, rfl, fun empty => some_byte ?_, blank⟩
      exact List.forall_mem_cons.mpr ⟨empty, blank⟩
    · obtain ⟨before, last, blanks, rfl, full, blank⟩ := ih blank
      exact ⟨c :: before, last, blanks, rfl, full, blank⟩

/-! ### The ring -/

/-- The loop of `Push`: the oldest chunks go until the rest is within the budget. -/
def evict (maxBytes : ℕ) : ℕ → List Chunk → ℕ × List Chunk
  | bytes, c :: next :: rest =>
    if maxBytes < bytes then evict maxBytes (bytes - c.data.length) (next :: rest)
    else (bytes, c :: next :: rest)
  | bytes, chunks => (bytes, chunks)

theorem evict_counted {maxBytes bytes : ℕ} {chunks : List Chunk}
    (counted : bytes = replayBytes chunks) :
    (evict maxBytes bytes chunks).1 = replayBytes (evict maxBytes bytes chunks).2 := by
  induction bytes, chunks using evict.induct maxBytes with
  | case1 bytes c next rest exceeded ih =>
    rw [evict, if_pos exceeded]
    refine ih ?_
    rw [counted, replayBytes_cons]
    omega
  | case2 bytes c next rest within =>
    rw [evict, if_neg within]
    exact counted
  | case3 bytes chunks short =>
    rw [evict.eq_2 _ _ _ short]
    exact counted

theorem evict_within {maxBytes bytes : ℕ} {chunks : List Chunk} :
    (evict maxBytes bytes chunks).1 ≤ maxBytes ∨ (evict maxBytes bytes chunks).2.length ≤ 1 := by
  induction bytes, chunks using evict.induct maxBytes with
  | case1 bytes c next rest exceeded ih =>
    rw [evict, if_pos exceeded]
    exact ih
  | case2 bytes c next rest within =>
    rw [evict, if_neg within]
    exact Or.inl (Nat.le_of_not_lt within)
  | case3 bytes chunks short =>
    rw [evict.eq_2 _ _ _ short]
    refine Or.inr ?_
    match chunks with
    | [] => exact Nat.zero_le _
    | [_] => exact le_rfl
    | c :: next :: rest => exact absurd rfl (short c next rest)

/-- A byte-budgeted FIFO of chunks. -/
structure Buffer (maxBytes : ℕ) where
  chunks : List Chunk
  bytes : ℕ
  counted : bytes = replayBytes chunks
  within : bytes ≤ maxBytes ∨ chunks.length ≤ 1

namespace Buffer

variable {maxBytes : ℕ}

def new : Buffer maxBytes := ⟨[], 0, rfl, Or.inl (Nat.zero_le _)⟩

def push (b : Buffer maxBytes) (c : Chunk) : Buffer maxBytes where
  chunks := (evict maxBytes (b.bytes + c.data.length) (b.chunks ++ [c])).2
  bytes := (evict maxBytes (b.bytes + c.data.length) (b.chunks ++ [c])).1
  counted := evict_counted (by rw [b.counted, replayBytes_append, replayBytes_cons, replayBytes_nil,
    Nat.add_zero])
  within := evict_within

/-- The chunks from the first one that is newer than the cursor on. -/
def since (b : Buffer maxBytes) (sinceSeq : ℕ) : List Chunk :=
  b.chunks.dropWhile fun c => c.seq ≤ sinceSeq

def oldestSeq (b : Buffer maxBytes) : ℕ :=
  match b.chunks with
  | [] => 0
  | c :: _ => c.seq

variable {b : Buffer maxBytes} {sinceSeq : ℕ}

theorem since_suffix : b.since sinceSeq <:+ b.chunks := List.dropWhile_suffix _

def Ordered (b : Buffer maxBytes) : Prop := b.chunks.Pairwise fun first second => first.seq < second.seq

theorem since_eq (ordered : b.Ordered) {before after : List Chunk} {c : Chunk}
    (split : b.chunks = before ++ c :: after) : b.since c.seq = after := by
  rw [Ordered, split, List.pairwise_append, List.pairwise_cons] at ordered
  rw [since, split, List.dropWhile_append_of_pos, List.dropWhile_cons_of_pos]
  · cases after with
    | nil => rfl
    | cons next rest =>
      refine List.dropWhile_cons_of_neg ?_
      have newer := ordered.2.1.1 next List.mem_cons_self
      simpa using newer
  · exact decide_eq_true le_rfl
  · intro older inside
    exact decide_eq_true (ordered.2.2 older inside c List.mem_cons_self).le

end Buffer

/-! ### The cap -/

def replayTailCapBytes : ℕ := 512 * 1024

/-- The walk of `capReplayTail` from the newest chunk: the bytes and chunks kept, and whether the walk
is over. -/
def capStep (c : Chunk) (walk : ℕ × List Chunk × Bool) : ℕ × List Chunk × Bool :=
  if walk.2.2 = true then walk
  else if replayTailCapBytes < walk.1 + c.data.length ∧ walk.2.1 ≠ [] then (walk.1, walk.2.1, true)
  else (walk.1 + c.data.length, c :: walk.2.1,
    decide (replayTailCapBytes ≤ walk.1 + c.data.length))

def capWalk (chunks : List Chunk) : ℕ × List Chunk × Bool := chunks.foldr capStep (0, [], false)

/-- The newest chunks of a replay, and whether any was left out or is over the cap. -/
def capReplayTail (chunks : List Chunk) : List Chunk × Bool :=
  ((capWalk chunks).2.1,
    decide ((capWalk chunks).2.1.length < chunks.length) ||
      decide (replayTailCapBytes < (capWalk chunks).1))

variable {c : Chunk} {chunks : List Chunk}

theorem capWalk_cons : capWalk (c :: chunks) = capStep c (capWalk chunks) := rfl

theorem capStep_cases (c : Chunk) (walk : ℕ × List Chunk × Bool) :
    (capStep c walk = (walk.1, walk.2.1, true) ∧ (walk.2.2 = true ∨ walk.2.1 ≠ [])) ∨
      (walk.2.2 = false ∧ capStep c walk = (walk.1 + c.data.length, c :: walk.2.1,
          decide (replayTailCapBytes ≤ walk.1 + c.data.length)) ∧
        (walk.1 + c.data.length ≤ replayTailCapBytes ∨ walk.2.1 = [])) := by
  rw [capStep]
  by_cases done : walk.2.2 = true
  · rw [if_pos done]
    exact Or.inl ⟨Prod.ext rfl (Prod.ext rfl done), Or.inl done⟩
  · rw [if_neg done]
    by_cases full : replayTailCapBytes < walk.1 + c.data.length ∧ walk.2.1 ≠ []
    · rw [if_pos full]
      exact Or.inl ⟨rfl, Or.inr full.2⟩
    · rw [if_neg full]
      rw [not_and_or, not_not, Nat.not_lt] at full
      exact Or.inr ⟨Bool.eq_false_of_not_eq_true done, rfl, full⟩

theorem capWalk_kept : (capWalk chunks).1 = replayBytes (capWalk chunks).2.1 ∧
    (capWalk chunks).2.1 <:+ chunks ∧ ((capWalk chunks).2.2 = false → (capWalk chunks).2.1 = chunks) := by
  induction chunks with
  | nil => exact ⟨rfl, List.suffix_rfl, fun _ => rfl⟩
  | cons c rest ih =>
    obtain ⟨counted, suffix, whole⟩ := ih
    rw [capWalk_cons]
    rcases capStep_cases c (capWalk rest) with ⟨dropped, -⟩ | ⟨going, kept, -⟩
    · rw [dropped]
      exact ⟨counted, suffix.trans (List.suffix_cons c rest), fun going => by cases going⟩
    · rw [kept, whole going]
      refine ⟨?_, List.suffix_rfl, fun _ => rfl⟩
      rw [counted, whole going, replayBytes_cons]
      exact Nat.add_comm _ _

theorem capWalk_small : (capWalk chunks).1 ≤ replayTailCapBytes ∨ (capWalk chunks).2.1.length = 1 := by
  induction chunks with
  | nil => exact Or.inl (Nat.zero_le _)
  | cons c rest ih =>
    rw [capWalk_cons]
    rcases capStep_cases c (capWalk rest) with ⟨dropped, -⟩ | ⟨-, kept, small | single⟩
    · rw [dropped]
      exact ih
    · rw [kept]
      exact Or.inl small
    · rw [kept, single]
      exact Or.inr rfl

theorem capWalk_ne_nil (done : (capWalk chunks).2.2 = true) : (capWalk chunks).2.1 ≠ [] := by
  induction chunks with
  | nil => cases done
  | cons c rest ih =>
    rw [capWalk_cons] at done ⊢
    rcases capStep_cases c (capWalk rest) with ⟨dropped, before | some_chunk⟩ | ⟨-, kept, -⟩
    · rw [dropped]
      exact ih before
    · rw [dropped]
      exact some_chunk
    · rw [kept]
      exact List.cons_ne_nil c _

theorem capWalk_suffix_cons : (capWalk chunks).2.1 <:+ (capWalk (c :: chunks)).2.1 := by
  rw [capWalk_cons]
  rcases capStep_cases c (capWalk chunks) with ⟨dropped, -⟩ | ⟨-, kept, -⟩
  · rw [dropped]
  · rw [kept]
    exact List.suffix_cons c _

theorem capWalk_suffix_append (before : List Chunk) :
    (capWalk chunks).2.1 <:+ (capWalk (before ++ chunks)).2.1 := by
  induction before with
  | nil => exact List.suffix_rfl
  | cons c rest ih => exact ih.trans capWalk_suffix_cons

theorem capWalk_blank (blank : Blank chunks) : capWalk chunks = (0, chunks, false) := by
  induction chunks with
  | nil => rfl
  | cons c rest ih =>
    obtain ⟨empty, blank⟩ := List.forall_mem_cons.mp blank
    rw [capWalk_cons, ih blank, capStep, empty, if_neg Bool.false_ne_true]
    exact if_neg fun full => Nat.not_lt_zero _ full.1

theorem capReplayTail_suffix : (capReplayTail chunks).1 <:+ chunks := capWalk_kept.2.1

theorem capReplayTail_eq_nil : (capReplayTail chunks).1 = [] ↔ chunks = [] := by
  constructor
  · intro nothing
    have going : (capWalk chunks).2.2 = false := by
      refine Bool.eq_false_of_not_eq_true fun done => ?_
      exact capWalk_ne_nil done nothing
    rw [← capWalk_kept.2.2 going]
    exact nothing
  · rintro rfl
    rfl

theorem capReplayTail_small : replayBytes (capReplayTail chunks).1 ≤ replayTailCapBytes ∨
    (capReplayTail chunks).1.length = 1 := by
  have small := @capWalk_small chunks
  rw [capWalk_kept.1] at small
  exact small

/-- **A last chunk with a byte that fits under the cap is kept, with the empty chunks after it.** -/
theorem capReplayTail_keeps {before blanks : List Chunk} (fits : c.data.length ≤ replayTailCapBytes)
    (blank : Blank blanks) : c :: blanks <:+ (capReplayTail (before ++ c :: blanks)).1 := by
  have kept : (capWalk (c :: blanks)).2.1 = c :: blanks := by
    rw [capWalk_cons, capWalk_blank blank, capStep, if_neg Bool.false_ne_true, if_neg]
    rw [Nat.zero_add]
    exact fun full => absurd fits (Nat.not_le_of_lt full.1)
  have suffix := @capWalk_suffix_append (c :: blanks) before
  rw [kept] at suffix
  exact suffix

theorem capReplayTail_drops {before blanks : List Chunk} (large : replayTailCapBytes < c.data.length)
    (blank : Blank blanks) (newer : blanks ≠ []) :
    (capReplayTail (before ++ c :: blanks)).1 = blanks := by
  have dropped : capWalk (c :: blanks) = (0, blanks, true) := by
    rw [capWalk_cons, capWalk_blank blank, capStep, if_neg Bool.false_ne_true]
    refine if_pos ⟨?_, newer⟩
    rw [Nat.zero_add]
    exact large
  have walked : capWalk (before ++ c :: blanks) = (0, blanks, true) := by
    induction before with
    | nil => exact dropped
    | cons older rest ih =>
      rw [List.cons_append, capWalk_cons, ih]
      exact if_pos rfl
  rw [capReplayTail, walked]

end Atterm.Relay
