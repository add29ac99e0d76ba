/-
**A ring after any history of pushes.**

The abstract ring is the list of all chunks that were ever pushed. What the ring of the code holds of it
is the longest end that is within the budget, or the newest chunk alone; what `Since` and `TailBytes`
answer are the chunks behind a cursor and the last bytes of that end.

* `Buffer.content`, `Buffer.tailBytes`, `tailBytes_eq` — the last bytes of its content;
* `Buffer.Holds`, `Buffer.pushAll_holds` — what it holds of a history;
* `Buffer.after`, `Buffer.after_refines` — a ring of some size after its pushes, what it holds and what
  it answers, for chunks in the order of their seqs.
-/

import Atterm.Relay.Ringbuf

namespace Atterm.Relay

/-- The budget of the ring that `New` makes. -/
def budget (maxBytes : ℤ) : ℕ := if maxBytes ≤ 0 then 4 * 1024 * 1024 else maxBytes.toNat

def contentOf (chunks : List Chunk) : List UInt8 := chunks.flatMap Chunk.data

@[simp] theorem contentOf_cons (c : Chunk) (rest : List Chunk) :
    contentOf (c :: rest) = c.data ++ contentOf rest := rfl

@[simp] theorem contentOf_append (first second : List Chunk) :
    contentOf (first ++ second) = contentOf first ++ contentOf second := List.flatMap_append

@[simp] theorem length_contentOf (chunks : List Chunk) : (contentOf chunks).length = replayBytes chunks :=
  List.length_flatMap

/-! ### The last bytes -/

/-- The walk of `TailBytes` from the newest chunk: the bytes collected so far and the chunks they are
in. -/
def tailStep (n : ℕ) (c : Chunk) (walk : ℕ × List Chunk) : ℕ × List Chunk :=
  if n ≤ walk.1 then walk else (walk.1 + c.data.length, c :: walk.2)

def tailWalk (n : ℕ) (chunks : List Chunk) : ℕ × List Chunk := chunks.foldr (tailStep n) (0, [])

/-- The bytes of the chunks of a walk, less those of the first one that are too many. -/
def cropped (n : ℕ) : ℕ × List Chunk → List UInt8
  | (_, []) => []
  | (collected, first :: rest) =>
    if n < collected then first.data.drop (collected - n) ++ contentOf rest
    else contentOf (first :: rest)

namespace Buffer

variable {maxBytes : ℕ}

def content (b : Buffer maxBytes) : List UInt8 := contentOf b.chunks

def tailBytes (b : Buffer maxBytes) (n : ℤ) : List UInt8 :=
  if n ≤ 0 then []
  else if b.chunks = [] then []
  else cropped n.toNat (tailWalk n.toNat b.chunks)

end Buffer

/-- The walk has collected the bytes of an end of the chunks. Before its oldest chunk there were too few,
and it goes on until there are enough. -/
structure Walked (n : ℕ) (chunks : List Chunk) (walk : ℕ × List Chunk) : Prop where
  counted : walk.1 = replayBytes walk.2
  ending : walk.2 <:+ chunks
  needed : ∀ first rest, walk.2 = first :: rest → replayBytes rest < n
  enough : n ≤ walk.1 ∨ walk.2 = chunks

theorem tailWalk_walked (n : ℕ) (chunks : List Chunk) : Walked n chunks (tailWalk n chunks) := by
  induction chunks with
  | nil => exact ⟨rfl, List.suffix_rfl, fun first rest same => (by cases same), Or.inr rfl⟩
  | cons c rest ih =>
    have unfolded : tailWalk n (c :: rest) = tailStep n c (tailWalk n rest) := rfl
    rw [unfolded, tailStep]
    by_cases enough : n ≤ (tailWalk n rest).1
    · rw [if_pos enough]
      exact ⟨ih.counted, ih.ending.trans (List.suffix_cons c rest), ih.needed, Or.inl enough⟩
    · rw [if_neg enough]
      have whole : (tailWalk n rest).2 = rest := ih.enough.resolve_left enough
      have counted := ih.counted
      rw [whole] at counted
      rw [whole, counted]
      refine ⟨Nat.add_comm _ _, List.suffix_rfl, fun first older same => ?_, Or.inr rfl⟩
      obtain ⟨rfl, rfl⟩ := List.cons.inj same
      rw [← counted]
      exact Nat.lt_of_not_le enough

theorem rtake_append {older kept : List UInt8} {n : ℕ} (enough : n ≤ kept.length) :
    (older ++ kept).rtake n = kept.rtake n := by
  have cut : (older ++ kept).length - n = older.length + (kept.length - n) := by
    rw [List.length_append]
    omega
  rw [List.rtake, cut, List.drop_length_add_append]
  rfl

theorem cropped_eq {n : ℕ} {chunks : List Chunk} {walk : ℕ × List Chunk} (walked : Walked n chunks walk) :
    cropped n walk = (contentOf chunks).rtake n := by
  obtain ⟨collected, kept⟩ := walk
  obtain ⟨counted, ⟨older, rfl⟩, needed, enough⟩ := walked
  have sized : (contentOf kept).length = collected := by
    rw [length_contentOf]
    exact counted.symm
  have same : (contentOf (older ++ kept)).rtake n = (contentOf kept).rtake n := by
    rcases enough with enough | whole
    · rw [contentOf_append]
      exact rtake_append (sized ▸ enough)
    · exact congrArg (fun chunks => (contentOf chunks).rtake n) whole.symm
  rw [same]
  cases kept with
  | nil => exact (List.rtake_nil n).symm
  | cons first rest =>
    rw [cropped, List.rtake, sized]
    by_cases many : n < collected
    · rw [if_pos many, contentOf_cons, List.drop_append_of_le_length]
      -- the bytes that are too many are all in the first chunk
      have few := needed first rest rfl
      rw [length_contentOf, replayBytes_cons] at sized
      omega
    · rw [if_neg many, Nat.sub_eq_zero_of_le (Nat.le_of_not_lt many), List.drop_zero]

namespace Buffer

variable {maxBytes : ℕ}

/-- **`TailBytes` returns the last bytes of the content.** -/
theorem tailBytes_eq (b : Buffer maxBytes) (n : ℤ) : b.tailBytes n = b.content.rtake n.toNat := by
  rw [tailBytes]
  by_cases none : n ≤ 0
  · rw [if_pos none, Int.toNat_of_nonpos none, List.rtake_zero]
  · rw [if_neg none]
    by_cases empty : b.chunks = []
    · rw [if_pos empty, content, empty]
      exact (List.rtake_nil _).symm
    · rw [if_neg empty]
      exact cropped_eq (tailWalk_walked _ _)

theorem length_tailBytes (b : Buffer maxBytes) (n : ℤ) :
    (b.tailBytes n).length = min n.toNat b.bytes := by
  rw [tailBytes_eq, List.rtake, List.length_drop, content, length_contentOf, b.counted]
  omega

theorem since_eq_filter {b : Buffer maxBytes} (ordered : b.Ordered) (sinceSeq : ℕ) :
    b.since sinceSeq = b.chunks.filter fun c => sinceSeq < c.seq := by
  rw [Ordered] at ordered
  rw [since]
  generalize b.chunks = chunks at ordered ⊢
  induction chunks with
  | nil => rfl
  | cons c rest ih =>
    obtain ⟨newer, ordered⟩ := List.pairwise_cons.mp ordered
    by_cases behind : c.seq ≤ sinceSeq
    · rw [List.dropWhile_cons_of_pos (by simpa using behind), ih ordered, List.filter_cons_of_neg]
      simpa using behind
    · rw [List.dropWhile_cons_of_neg (by simpa using behind), eq_comm, List.filter_eq_self]
      intro d inside
      rcases List.mem_cons.mp inside with rfl | inside
      · exact decide_eq_true (Nat.lt_of_not_le behind)
      · exact decide_eq_true ((Nat.lt_of_not_le behind).trans (newer d inside))

/-! ### A history -/

def pushAll (b : Buffer maxBytes) (pushes : List Chunk) : Buffer maxBytes := pushes.foldl push b

end Buffer

theorem evict_longest {maxBytes bytes : ℕ} {chunks : List Chunk} (counted : bytes = replayBytes chunks) :
    (evict maxBytes bytes chunks).2 <:+ chunks ∧
      ∀ ending, ending <:+ chunks → (evict maxBytes bytes chunks).2.length < ending.length →
        maxBytes < replayBytes ending := by
  induction bytes, chunks using evict.induct maxBytes with
  | case1 bytes c next rest exceeded ih =>
    rw [evict, if_pos exceeded]
    have counted' : bytes - c.data.length = replayBytes (next :: rest) := by
      rw [counted, replayBytes_cons]
      omega
    obtain ⟨kept, longest⟩ := ih counted'
    refine ⟨kept.trans (List.suffix_cons c _), fun ending ends longer => ?_⟩
    rcases List.suffix_cons_iff.mp ends with rfl | ends
    · exact counted ▸ exceeded
    · exact longest ending ends longer
  | case2 bytes c next rest within =>
    rw [evict, if_neg within]
    exact ⟨List.suffix_rfl, fun ending ends longer => absurd ends.length_le (Nat.not_le_of_lt longer)⟩
  | case3 bytes chunks short =>
    rw [evict.eq_2 _ _ _ short]
    exact ⟨List.suffix_rfl, fun ending ends longer => absurd ends.length_le (Nat.not_le_of_lt longer)⟩

namespace Buffer

variable {maxBytes : ℕ}

/-- What a ring holds of the chunks that were pushed: an end of them, and none that is longer is within
the budget. -/
structure Holds (b : Buffer maxBytes) (pushes : List Chunk) : Prop where
  ending : b.chunks <:+ pushes
  longest : ∀ longer, longer <:+ pushes → b.chunks.length < longer.length → maxBytes < replayBytes longer

theorem Holds.push {b : Buffer maxBytes} {pushes : List Chunk} (holds : b.Holds pushes) (c : Chunk) :
    (b.push c).Holds (pushes ++ [c]) := by
  have counted : b.bytes + c.data.length = replayBytes (b.chunks ++ [c]) := by
    rw [b.counted, replayBytes_append, replayBytes_cons, replayBytes_nil, Nat.add_zero]
  obtain ⟨kept, longest⟩ := @evict_longest maxBytes _ _ counted
  obtain ⟨evicted, whole⟩ := holds.ending
  refine ⟨kept.trans ⟨evicted, by rw [← List.append_assoc, whole]⟩, fun longer ends long => ?_⟩
  rcases List.suffix_concat_iff.mp ends with rfl | ⟨older, rfl, ends'⟩
  · exact absurd long (Nat.not_lt_zero _)
  · by_cases held : older.length ≤ b.chunks.length
    · refine longest _ ?_ long
      obtain ⟨before, same⟩ := List.suffix_of_suffix_length_le ends' holds.ending held
      exact ⟨before, by rw [← List.append_assoc, same]⟩
    · -- what was evicted before does not fit with one more chunk either
      have large := holds.longest older ends' (Nat.lt_of_not_le held)
      rw [replayBytes_append]
      exact large.trans_le (Nat.le_add_right _ _)

theorem pushAll_holds (pushes : List Chunk) : ((new : Buffer maxBytes).pushAll pushes).Holds pushes := by
  induction pushes using List.reverseRecOn with
  | nil => exact ⟨List.suffix_rfl, fun longer ends long => absurd ends.length_le (Nat.not_le_of_lt long)⟩
  | append_singleton pushes c ih =>
    rw [pushAll, List.foldl_concat]
    exact ih.push c

/-- The ring of some size after a series of pushes. -/
def after (maxBytes : ℤ) (pushes : List Chunk) : Buffer (budget maxBytes) := new.pushAll pushes

/-- **The ring of the code refines the history of its pushes.** -/
theorem after_refines (maxBytes : ℤ) (pushes : List Chunk)
    (increasing : pushes.Pairwise fun first second => first.seq < second.seq) :
    (after maxBytes pushes).Holds pushes ∧
    (after maxBytes pushes).bytes = ((after maxBytes pushes).chunks.map fun c => c.data.length).sum ∧
    ((after maxBytes pushes).bytes ≤ budget maxBytes ∨ (after maxBytes pushes).chunks.length = 1) ∧
    (∀ sinceSeq, (after maxBytes pushes).since sinceSeq =
      (after maxBytes pushes).chunks.filter fun c => sinceSeq < c.seq) ∧
    ∀ n : ℤ, (after maxBytes pushes).tailBytes n = (after maxBytes pushes).content.rtake n.toNat ∧
      ((after maxBytes pushes).tailBytes n).length = min n.toNat (after maxBytes pushes).bytes := by
  have holds : (after maxBytes pushes).Holds pushes := pushAll_holds pushes
  refine ⟨holds, counted _, ?_, since_eq_filter (increasing.sublist holds.ending.sublist), fun n => ?_⟩
  · rcases (after maxBytes pushes).within with within | short
    · exact Or.inl within
    · rcases Nat.le_one_iff_eq_zero_or_eq_one.mp short with empty | single
      · rw [(after maxBytes pushes).counted, List.length_eq_zero_iff.mp empty]
        exact Or.inl (Nat.zero_le _)
      · exact Or.inr single
  · exact ⟨tailBytes_eq _ n, length_tailBytes _ n⟩

theorem after_refines_small :
    (after 3 [⟨1, [1, 2, 3, 4]⟩, ⟨4, []⟩, ⟨5, [6, 7]⟩]).tailBytes 1 = [7] ∧
      (after 3 [⟨1, [1, 2, 3, 4]⟩, ⟨4, []⟩, ⟨5, [6, 7]⟩]).since 1 = [⟨4, []⟩, ⟨5, [6, 7]⟩] := by
  obtain ⟨-, -, -, since, tail⟩ :=
    after_refines 3 [⟨1, [1, 2, 3, 4]⟩, ⟨4, []⟩, ⟨5, [6, 7]⟩] (by decide)
  refine ⟨(tail 1).1.trans (by decide), (since 1).trans (by decide)⟩

end Buffer

end Atterm.Relay
