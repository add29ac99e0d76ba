/-
**Stripping escape sequences from the output of a terminal.**

`ANSIStreamStripper` reads the output chunk by chunk and carries its state from one to the next.
`StripANSI` is one call of it. Only the first call looks for the orphaned tail of a CSI sequence, and
it looks no further than its own chunk.

* `stripAll_started` — a stripper that has started does not see where chunks end;
* `stripAll_eq_iff` — the chunks come out as the whole stream exactly if the first of them that is not
  empty holds the orphaned tail of the stream.
-/

import Mathlib

namespace Atterm.Terminal

inductive AnsiStripState where
  | text
  | afterESC
  | csi
  | osc
  | oscEscape
  | string
  | stringEscape
deriving DecidableEq, Repr

structure ANSIStreamStripper where
  state : AnsiStripState
  started : Bool
  utf8Continuations : ℕ
deriving DecidableEq, Repr

def isDigit (c : UInt8) : Bool := 0x30 ≤ c && c ≤ 0x39

def utf8ContinuationCount (c : UInt8) : ℕ :=
  if 0xc2 ≤ c ∧ c ≤ 0xdf then 1
  else if 0xe0 ≤ c ∧ c ≤ 0xef then 2
  else if 0xf0 ≤ c ∧ c ≤ 0xf4 then 3
  else 0

/-- A byte of the run that may be the tail of a CSI sequence. -/
def isParameter (c : UInt8) : Bool := isDigit c || c == 0x3b

def isFinal (c : UInt8) : Bool := 0x40 ≤ c && c ≤ 0x7e

def stripLeadingCSITail (b : List UInt8) : List UInt8 :=
  let run := b.takeWhile isParameter
  if !run.any isDigit then b
  else match b.drop run.length with
    | [] => b
    | c :: rest => if isFinal c then rest else b

namespace ANSIStreamStripper

def new : ANSIStreamStripper := ⟨.text, false, 0⟩

/-- A byte of plain text, or the start of a sequence. -/
def readText (s : ANSIStreamStripper) (c : UInt8) : ANSIStreamStripper × List UInt8 :=
  if c = 0x1b then ({ s with state := .afterESC }, [])
  else if c = 0x9b then ({ s with state := .csi }, [])
  else if c = 0x9d then ({ s with state := .osc }, [])
  else if c = 0x90 ∨ c = 0x98 ∨ c = 0x9e ∨ c = 0x9f then ({ s with state := .string }, [])
  else if c = 0x9c then (s, [])
  else ({ s with utf8Continuations := utf8ContinuationCount c }, [c])

def after (state : AnsiStripState) (c : UInt8) : AnsiStripState :=
  match state with
  | .text => .text
  | .afterESC =>
    if c = 0x5b then .csi
    else if c = 0x5d then .osc
    else if c = 0x50 ∨ c = 0x58 ∨ c = 0x5e ∨ c = 0x5f then .string
    else .text
  | .csi => if isFinal c then .text else if c = 0x1b then .afterESC else .csi
  | .osc => if c = 0x07 ∨ c = 0x9c then .text else if c = 0x1b then .oscEscape else .osc
  | .oscEscape => if c = 0x5c then .text else .osc
  | .string => if c = 0x9c then .text else if c = 0x1b then .stringEscape else .string
  | .stringEscape => if c = 0x5c then .text else .string

/-- One round of the loop: the stripper after the byte, and what it lets out. -/
def read (s : ANSIStreamStripper) (c : UInt8) : ANSIStreamStripper × List UInt8 :=
  match s.state with
  | .text =>
    if s.utf8Continuations ≠ 0 ∧ c &&& 0xc0 = 0x80 then
      ({ s with utf8Continuations := s.utf8Continuations - 1 }, [c])
    else ({ s with utf8Continuations := 0 } : ANSIStreamStripper).readText c
  | state => ({ s with state := after state c }, [])

/-- The loop over the bytes of a chunk. -/
def readAll (s : ANSIStreamStripper) : List UInt8 → ANSIStreamStripper × List UInt8
  | [] => (s, [])
  | c :: rest =>
    let later := (s.read c).1.readAll rest
    (later.1, (s.read c).2 ++ later.2)

/-- `Strip`: the stripper after the call, and the visible bytes of the chunk. -/
def strip (s : ANSIStreamStripper) (b : List UInt8) : ANSIStreamStripper × List UInt8 :=
  if b = [] then (s, [])
  else if s.started then s.readAll b
  else ({ s with started := true } : ANSIStreamStripper).readAll (stripLeadingCSITail b)

/-- What the chunks of a stream come out as. -/
def stripAll (s : ANSIStreamStripper) : List (List UInt8) → List UInt8
  | [] => []
  | chunk :: chunks => (s.strip chunk).2 ++ (s.strip chunk).1.stripAll chunks

end ANSIStreamStripper

def stripANSI (b : List UInt8) : List UInt8 := (ANSIStreamStripper.new.strip b).2

/-- The length of the orphaned tail of a CSI sequence with which a stream begins. -/
def orphanLength (b : List UInt8) : ℕ := b.length - (stripLeadingCSITail b).length

def firstChunk (chunks : List (List UInt8)) : List UInt8 := (chunks.find? (· ≠ [])).getD []

/-! ### The orphaned tail -/

section Orphan

variable {f m : List UInt8}

theorem stripLeadingCSITail_append (behind : f.takeWhile isParameter ≠ f) (m : List UInt8) :
    stripLeadingCSITail (f ++ m) = stripLeadingCSITail f ++ m := by
  have shorter : (f.takeWhile isParameter).length < f.length :=
    lt_of_le_of_ne (List.takeWhile_prefix _).length_le fun same =>
      behind ((List.takeWhile_prefix _).eq_of_length same)
  have run : (f ++ m).takeWhile isParameter = f.takeWhile isParameter := by
    rw [List.takeWhile_append, if_neg (ne_of_lt shorter)]
  rw [stripLeadingCSITail, stripLeadingCSITail, run]
  rw [List.drop_append_of_le_length shorter.le]
  split_ifs with digits
  · rfl
  · cases next : f.drop (f.takeWhile isParameter).length with
    | nil =>
      rw [List.drop_eq_nil_iff] at next
      exact absurd next (not_le.mpr shorter)
    | cons c rest =>
      simp only [List.cons_append]
      split_ifs <;> rfl

theorem stripLeadingCSITail_run (run : f.takeWhile isParameter = f) : stripLeadingCSITail f = f := by
  simp [stripLeadingCSITail, run]

theorem stripLeadingCSITail_cases (b : List UInt8) :
    stripLeadingCSITail b = b ∨ ∃ c rest, b = b.takeWhile isParameter ++ c :: rest ∧
      isFinal c = true ∧ stripLeadingCSITail b = rest := by
  rw [stripLeadingCSITail]
  split_ifs with digits
  · exact Or.inl rfl
  · cases next : b.drop (b.takeWhile isParameter).length with
    | nil => exact Or.inl rfl
    | cons c rest =>
      by_cases final : isFinal c = true
      · refine Or.inr ⟨c, rest, ?_, final, if_pos final⟩
        rw [← next, List.prefix_iff_eq_append.mp (List.takeWhile_prefix isParameter)]
      · exact Or.inl (if_neg final)

end Orphan

/-! ### Chunks -/

namespace ANSIStreamStripper

variable {s : ANSIStreamStripper}

theorem readAll_append (s : ANSIStreamStripper) (l m : List UInt8) :
    s.readAll (l ++ m) =
      (((s.readAll l).1.readAll m).1, (s.readAll l).2 ++ ((s.readAll l).1.readAll m).2) := by
  induction l generalizing s with
  | nil => rfl
  | cons c rest ih => simp [readAll, ih]

theorem read_started (s : ANSIStreamStripper) (c : UInt8) : (s.read c).1.started = s.started := by
  rw [read]
  cases s.state with
  | text =>
    simp only [readText]
    split_ifs <;> rfl
  | _ => rfl

theorem readAll_started (s : ANSIStreamStripper) (l : List UInt8) :
    (s.readAll l).1.started = s.started := by
  induction l generalizing s with
  | nil => rfl
  | cons c rest ih =>
    rw [readAll, ih]
    exact read_started s c

theorem strip_started (started : s.started = true) (b : List UInt8) : s.strip b = s.readAll b := by
  cases b with
  | nil => rfl
  | cons c rest => rw [strip, if_neg (List.cons_ne_nil c rest), if_pos started]

theorem stripAll_started (started : s.started = true) (chunks : List (List UInt8)) :
    s.stripAll chunks = (s.readAll chunks.flatten).2 := by
  induction chunks generalizing s with
  | nil => rfl
  | cons chunk chunks ih =>
    have startedLater : (s.readAll chunk).1.started = true := by rw [readAll_started, started]
    rw [stripAll, strip_started started, ih startedLater, List.flatten_cons, readAll_append]

theorem stripAll_nil (s : ANSIStreamStripper) (chunks : List (List UInt8)) :
    s.stripAll ([] :: chunks) = s.stripAll chunks := rfl

theorem read_plain {started : Bool} {c : UInt8} (low : 0x30 ≤ c) (high : c ≤ 0x7e) :
    read ⟨.text, started, 0⟩ c = (⟨.text, started, 0⟩, [c]) := by
  rw [UInt8.le_iff_toNat_le] at low high
  have apart : ∀ other : UInt8, other.toNat < 48 ∨ 126 < other.toNat → c ≠ other := by
    rintro other outside rfl
    rcases outside with below | above
    · exact absurd low (not_le.mpr below)
    · exact absurd high (not_le.mpr above)
  have single : utf8ContinuationCount c = 0 := by
    simp only [utf8ContinuationCount, UInt8.le_iff_toNat_le]
    rw [if_neg, if_neg, if_neg]
    all_goals
      simp at high ⊢
      omega
  have noString : ¬(c = 0x90 ∨ c = 0x98 ∨ c = 0x9e ∨ c = 0x9f) := by
    rintro (same | same | same | same)
    all_goals exact apart _ (by decide) same
  simp [read, readText, single, noString, apart 0x1b (by decide), apart 0x9b (by decide),
    apart 0x9d (by decide), apart 0x9c (by decide)]

theorem readAll_plain {started : Bool} {l : List UInt8} (ascii : ∀ c ∈ l, 0x30 ≤ c ∧ c ≤ 0x7e) :
    readAll ⟨.text, started, 0⟩ l = (⟨.text, started, 0⟩, l) := by
  induction l with
  | nil => rfl
  | cons c rest ih =>
    obtain ⟨low, high⟩ := ascii c List.mem_cons_self
    rw [readAll, read_plain low high,
      ih fun other inside => ascii other (List.mem_cons_of_mem c inside)]
    rfl

theorem readAll_orphan (started : Bool) (b : List UInt8) {c : UInt8} (final : isFinal c = true) :
    readAll ⟨.text, started, 0⟩ (b.takeWhile isParameter ++ [c]) =
      (⟨.text, started, 0⟩, b.takeWhile isParameter ++ [c]) := by
  refine readAll_plain fun other inside => ?_
  rcases List.mem_append.mp inside with parameter | same
  · have parameter := List.mem_takeWhile_imp parameter
    simp only [isParameter, isDigit, Bool.or_eq_true, Bool.and_eq_true, decide_eq_true_eq,
      beq_iff_eq] at parameter
    rcases parameter with ⟨low, high⟩ | rfl
    · exact ⟨low, UInt8.le_trans high (by decide)⟩
    · exact ⟨by decide, by decide⟩
  · rw [List.mem_singleton.mp same]
    simp only [isFinal, Bool.and_eq_true, decide_eq_true_eq] at final
    exact ⟨UInt8.le_trans (by decide) final.1, final.2⟩

theorem stripAll_new {first : List UInt8} (nonempty : first ≠ []) (rest : List (List UInt8)) :
    new.stripAll (first :: rest) =
      (readAll ⟨.text, true, 0⟩ (stripLeadingCSITail first ++ rest.flatten)).2 := by
  have opens : new.strip first = readAll ⟨.text, true, 0⟩ (stripLeadingCSITail first) := by
    rw [strip, if_neg nonempty]
    rfl
  have started := readAll_started ⟨.text, true, 0⟩ (stripLeadingCSITail first)
  rw [stripAll, opens, stripAll_started started, readAll_append]

end ANSIStreamStripper

open ANSIStreamStripper

theorem stripANSI_eq {b : List UInt8} (nonempty : b ≠ []) :
    stripANSI b = (readAll ⟨.text, true, 0⟩ (stripLeadingCSITail b)).2 := by
  rw [stripANSI, strip, if_neg nonempty]
  rfl

/-- **The first chunk and the rest**: they come out as the whole exactly if the chunk holds the whole
orphaned tail. -/
theorem stripAll_cons_iff {first : List UInt8} (nonempty : first ≠ []) (rest : List (List UInt8)) :
    new.stripAll (first :: rest) = stripANSI (first :: rest).flatten ↔
      orphanLength (first :: rest).flatten ≤ first.length := by
  have whole : (first :: rest).flatten = first ++ rest.flatten := List.flatten_cons
  have something : first ++ rest.flatten ≠ [] := by simp [nonempty]
  rw [whole, stripAll_new nonempty, stripANSI_eq something, orphanLength]
  by_cases run : first.takeWhile isParameter = first
  · rw [stripLeadingCSITail_run run]
    rcases stripLeadingCSITail_cases (first ++ rest.flatten) with same | ⟨c, later, split, final, cut⟩
    · rw [same]
      exact iff_of_true rfl (by omega)
    · -- the parameters and the final byte are let out when they are not seen as one
      have visible := readAll_orphan true (first ++ rest.flatten) final
      have longer : first.length ≤ ((first ++ rest.flatten).takeWhile isParameter).length := by
        rw [List.takeWhile_append, if_pos (congrArg List.length run), List.length_append]
        exact Nat.le_add_right _ _
      have lengths : (first ++ rest.flatten).length =
          ((first ++ rest.flatten).takeWhile isParameter).length + (later.length + 1) :=
        (congrArg List.length split).trans List.length_append
      refine iff_of_false (fun same => ?_) ?_
      · rw [cut, split, List.append_cons, readAll_append, visible] at same
        have shorter := congrArg List.length same
        simp only [List.length_append, List.length_singleton] at shorter
        omega
      · rw [cut]
        omega
  · rw [stripLeadingCSITail_append run, List.length_append, List.length_append]
    exact iff_of_true rfl (by omega)

/-- **The chunks come out as the whole stream** exactly if the first one that is not empty holds the
orphaned tail of the stream. -/
theorem stripAll_eq_iff (chunks : List (List UInt8)) :
    new.stripAll chunks = stripANSI chunks.flatten ↔
      orphanLength chunks.flatten ≤ (firstChunk chunks).length := by
  induction chunks with
  | nil => decide
  | cons chunk chunks ih =>
    by_cases empty : chunk = []
    · subst empty
      rw [stripAll_nil, List.flatten_cons, List.nil_append, ih]
      rfl
    · have first : firstChunk (chunk :: chunks) = chunk := by simp [firstChunk, empty]
      rw [first]
      exact stripAll_cons_iff empty chunks

/-- A colour sequence whose start was missed is cut behind its first parameter. -/
theorem orphan_is_cut :
    new.stripAll [[0x33, 0x31], [0x6d, 0x78]] ≠ stripANSI [0x33, 0x31, 0x6d, 0x78] := by
  decide

end Atterm.Terminal
