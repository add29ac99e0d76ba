/-
**Marked sequences in a stream that comes in chunks.**

A sequence begins with an introducer of fixed width. A function reads the body behind it: it finds the
end and the event that the sequence carries, if any, or it asks for more input. A scan of the stream
leaves a rest to go on from: the sequence that it waits for, or the last `keep` elements, with which
the next introducer may have begun.

* `scan_append` — where a scan can be taken up again from its rest;
* `feed_eq` — a stream that comes in chunks has the events of the whole stream.
-/

import Mathlib

namespace Atterm.Foundation

/-- `opens` looks at the first `width` elements, `body` at what follows them. -/
structure Grammar (α Event : Type*) where
  width : ℕ
  opens : List α → Bool
  body : List α → Option (Option Event × ℕ)

namespace Grammar

variable {α Event : Type*}

/-- Neither the introducer nor a body that was read depends on what comes later. -/
structure Lawful (g : Grammar α Event) : Prop where
  positive : 0 < g.width
  opens_length : ∀ l, g.opens l = true → g.width ≤ l.length
  opens_append : ∀ l m, g.width ≤ l.length → g.opens (l ++ m) = g.opens l
  body_length : ∀ l event size, g.body l = some (event, size) → size ≤ l.length
  body_append : ∀ l m event size, g.body l = some (event, size) → g.body (l ++ m) = some (event, size)

variable (g : Grammar α Event) (keep : ℕ)

def scan (l : List α) : List Event × List α :=
  if l.length ≤ keep then ([], l)
  else if g.opens l then
    match g.body (l.drop g.width) with
    | none => ([], l)
    | some (event, size) =>
      if 0 < g.width + size then
        let later := scan (l.drop (g.width + size))
        (event.toList ++ later.1, later.2)
      else ([], l)
  else scan l.tail
termination_by l.length
decreasing_by
  · rw [List.length_drop]
    omega
  · rw [List.length_tail]
    omega

def index : List α → Option ℕ
  | [] => none
  | a :: rest => if g.opens (a :: rest) then some 0 else (index rest).map (· + 1)

/-- An introducer begins in the first part and ends in the second. -/
def Straddles (l m : List α) : Prop :=
  ∃ i, i < l.length ∧ l.length < i + g.width ∧ g.opens ((l ++ m).drop i) = true

/-- Every chunk can be read from the rest of what came before: no introducer begins there outside of
a sequence that is waited for. -/
def Resumes : List α → List (List α) → Prop
  | _, [] => True
  | l, chunk :: chunks =>
    (g.width ≤ keep + 1 ∨ g.opens (g.scan keep l).2 = true ∨ ¬g.Straddles l chunk) ∧
      Resumes (l ++ chunk) chunks

def feed : List α → List (List α) → List Event × List α
  | rest, [] => ([], rest)
  | rest, chunk :: chunks =>
    let now := g.scan keep (rest ++ chunk)
    let later := feed now.2 chunks
    (now.1 ++ later.1, later.2)

variable {g keep} {l m : List α}

theorem scan_small (small : l.length ≤ keep) : g.scan keep l = ([], l) := by
  rw [scan, if_pos small]

theorem scan_waits (large : keep < l.length) (opens : g.opens l = true)
    (open_ended : g.body (l.drop g.width) = none) : g.scan keep l = ([], l) := by
  rw [scan, if_neg (not_le.mpr large), if_pos opens, open_ended]

theorem scan_reads (lawful : g.Lawful) (large : keep < l.length) (opens : g.opens l = true)
    {event : Option Event} {size : ℕ} (read : g.body (l.drop g.width) = some (event, size)) :
    g.scan keep l = (event.toList ++ (g.scan keep (l.drop (g.width + size))).1,
      (g.scan keep (l.drop (g.width + size))).2) := by
  have advances : 0 < g.width + size := Nat.add_pos_left lawful.positive size
  rw [scan, if_neg (not_le.mpr large), if_pos opens, read]
  exact if_pos advances

theorem scan_skips (large : keep < l.length) (plain : g.opens l = false) :
    g.scan keep l = g.scan keep l.tail := by
  rw [scan, if_neg (not_le.mpr large), plain, if_neg Bool.false_ne_true]

theorem scan_of_index_none (keep : ℕ) (absent : g.index l = none) :
    g.scan keep l = ([], l.drop (l.length - keep)) := by
  induction l with
  | nil => rw [scan_small (Nat.zero_le keep), List.drop_nil]
  | cons a rest ih =>
    rw [index] at absent
    split_ifs at absent with opens
    rcases Nat.lt_or_ge keep (a :: rest).length with large | small
    · rw [scan_skips large (Bool.not_eq_true _ ▸ opens), List.tail_cons,
        ih (Option.map_eq_none_iff.mp absent)]
      rw [List.length_cons] at large ⊢
      rw [show rest.length + 1 - keep = (rest.length - keep) + 1 by omega, List.drop_succ_cons]
    · rw [scan_small small, Nat.sub_eq_zero_of_le small, List.drop_zero]

theorem scan_of_index_some (lawful : g.Lawful) (kept : keep < g.width) {idx : ℕ}
    (found : g.index l = some idx) :
    g.scan keep l = g.scan keep (l.drop idx) ∧ g.opens (l.drop idx) = true := by
  induction l generalizing idx with
  | nil => simp [index] at found
  | cons a rest ih =>
    rw [index] at found
    split_ifs at found with opens
    · cases found
      exact ⟨rfl, opens⟩
    · obtain ⟨later, foundLater, same⟩ := Option.map_eq_some_iff.mp found
      subst same
      obtain ⟨scans, opensLater⟩ := ih foundLater
      rw [List.drop_succ_cons]
      refine ⟨?_, opensLater⟩
      have whole := lawful.opens_length _ opensLater
      have large : keep < (a :: rest).length := by
        rw [List.length_drop] at whole
        rw [List.length_cons]
        omega
      rw [scan_skips large (Bool.not_eq_true _ ▸ opens)]
      exact scans

theorem scan_induction (keep : ℕ) (lawful : g.Lawful) {motive : List α → Prop}
    (small : ∀ l, l.length ≤ keep → motive l)
    (waits : ∀ l, keep < l.length → g.opens l = true → g.body (l.drop g.width) = none → motive l)
    (reads : ∀ l event size, keep < l.length → g.opens l = true →
      g.body (l.drop g.width) = some (event, size) → motive (l.drop (g.width + size)) → motive l)
    (skips : ∀ l, keep < l.length → g.opens l = false → motive l.tail → motive l) (l : List α) :
    motive l := by
  induction long : l.length using Nat.strong_induction_on generalizing l with
  | _ length ih =>
    subst long
    rcases Nat.lt_or_ge keep l.length with large | short
    · cases opens : g.opens l with
      | false =>
        refine skips l large opens (ih l.tail.length ?_ l.tail rfl)
        rw [List.length_tail]
        omega
      | true =>
        cases read : g.body (l.drop g.width) with
        | none => exact waits l large opens read
        | some result =>
          obtain ⟨event, size⟩ := result
          refine reads l event size large opens read (ih (l.drop _).length ?_ _ rfl)
          have positive := lawful.positive
          rw [List.length_drop]
          omega
    · exact small l short

theorem scan_suffix (lawful : g.Lawful) (keep : ℕ) (l : List α) : (g.scan keep l).2 <:+ l := by
  induction l using scan_induction keep lawful with
  | small l small =>
    rw [scan_small small]
  | waits l large opens waits =>
    rw [scan_waits large opens waits]
  | reads l event size large opens read ih =>
    rw [scan_reads lawful large opens read]
    exact ih.trans (List.drop_suffix _ l)
  | skips l large plain ih =>
    rw [scan_skips large plain]
    exact ih.trans (List.tail_suffix l)

theorem straddles_of_drop (n : ℕ) (straddles : g.Straddles (l.drop n) m) : g.Straddles l m := by
  obtain ⟨i, inside, across, opens⟩ := straddles
  rw [List.length_drop] at inside across
  have within : n ≤ l.length := by omega
  refine ⟨n + i, by omega, by omega, ?_⟩
  rw [← List.drop_append_of_le_length within, List.drop_drop] at opens
  exact opens

/-- **Taking a scan up again**: its rest and what comes next have the events and the rest of the whole,
unless an introducer has begun that was not kept. -/
theorem scan_append (keep : ℕ) (lawful : g.Lawful) (l m : List α)
    (kept : g.width ≤ keep + 1 ∨ g.opens (g.scan keep l).2 = true ∨ ¬g.Straddles l m) :
    g.scan keep (l ++ m) =
      ((g.scan keep l).1 ++ (g.scan keep ((g.scan keep l).2 ++ m)).1,
        (g.scan keep ((g.scan keep l).2 ++ m)).2) := by
  induction l using scan_induction keep lawful with
  | small l small => rw [scan_small small, List.nil_append]
  | waits l large opens waits => rw [scan_waits large opens waits, List.nil_append]
  | reads l event size large opens read ih =>
    have whole := lawful.opens_length l opens
    have fits := lawful.body_length _ _ _ read
    rw [List.length_drop] at fits
    have opensMore : g.opens (l ++ m) = true := by rw [lawful.opens_append l m whole, opens]
    have readMore : g.body ((l ++ m).drop g.width) = some (event, size) := by
      rw [List.drop_append_of_le_length whole]
      exact lawful.body_append _ _ _ _ read
    have largeMore : keep < (l ++ m).length := by
      rw [List.length_append]
      omega
    rw [scan_reads lawful large opens read] at kept ⊢
    rw [scan_reads lawful largeMore opensMore readMore,
      List.drop_append_of_le_length (by omega), ih ?_, List.append_assoc]
    exact kept.imp_right fun kept => kept.imp_right fun straight straddles =>
      straight (straddles_of_drop _ straddles)
  | skips l large plain ih =>
    have keptLater : g.width ≤ keep + 1 ∨ g.opens (g.scan keep l.tail).2 = true ∨
        ¬g.Straddles l.tail m := by
      rw [scan_skips large plain] at kept
      refine kept.imp_right fun kept => kept.imp_right fun straight straddles => straight ?_
      rw [← List.drop_one] at straddles
      exact straddles_of_drop 1 straddles
    by_cases opensMore : g.opens (l ++ m) = true
    · -- an introducer that is too short yet to be seen, which `kept` rules out
      have short : l.length < g.width := by
        by_contra whole
        rw [lawful.opens_append l m (not_lt.mp whole), plain] at opensMore
        exact Bool.false_ne_true opensMore
      rcases kept with enough | opens | straight
      · omega
      · have within := (scan_suffix lawful keep l).length_le
        have whole := lawful.opens_length _ opens
        omega
      · exact absurd ⟨0, by omega, by omega, opensMore⟩ straight
    · rw [Bool.not_eq_true] at opensMore
      have nonempty : l ≠ [] := List.ne_nil_of_length_pos (by omega)
      have largeMore : keep < (l ++ m).length := by
        rw [List.length_append]
        omega
      rw [scan_skips largeMore opensMore, List.tail_append_of_ne_nil nonempty, ih keptLater,
        scan_skips large plain]

theorem scan_rest (lawful : g.Lawful) (keep : ℕ) (l : List α) :
    g.scan keep (g.scan keep l).2 = ([], (g.scan keep l).2) := by
  induction l using scan_induction keep lawful with
  | small l small => rw [scan_small small, scan_small small]
  | waits l large opens waits => rw [scan_waits large opens waits, scan_waits large opens waits]
  | reads l event size large opens read ih =>
    rw [scan_reads lawful large opens read]
    exact ih
  | skips l large plain ih =>
    rw [scan_skips large plain]
    exact ih

theorem scan_rest_waits (lawful : g.Lawful) (l : List α) (long : keep < (g.scan keep l).2.length) :
    g.opens (g.scan keep l).2 = true ∧ g.body ((g.scan keep l).2.drop g.width) = none := by
  induction l using scan_induction keep lawful with
  | small l small =>
    rw [scan_small small] at long
    exact absurd long (not_lt.mpr small)
  | waits l large opens waits =>
    rw [scan_waits large opens waits]
    exact ⟨opens, waits⟩
  | reads l event size large opens read ih =>
    rw [scan_reads lawful large opens read] at long ⊢
    exact ih long
  | skips l large plain ih =>
    rw [scan_skips large plain] at long ⊢
    exact ih long

/-- **A stream that comes in chunks has the events of the whole stream.** -/
theorem feed_eq (lawful : g.Lawful) (chunks : List (List α)) (l : List α)
    (resumes : g.Resumes keep l chunks) :
    g.scan keep (l ++ chunks.flatten) =
      ((g.scan keep l).1 ++ (g.feed keep (g.scan keep l).2 chunks).1,
        (g.feed keep (g.scan keep l).2 chunks).2) := by
  induction chunks generalizing l with
  | nil => simp [feed]
  | cons chunk chunks ih =>
    have later := ih (l ++ chunk) resumes.2
    rw [scan_append keep lawful l chunk resumes.1, List.append_assoc] at later
    rw [List.flatten_cons, later, feed, List.append_assoc]

end Grammar

end Atterm.Foundation
