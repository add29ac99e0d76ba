/-
**Reading a number of bytes from a connection.**

The bytes of a connection arrive in reads of any size, and end with an error. Reading a number of bytes
takes as many reads as it needs and leaves the rest of the last one.

* `readFull`, `readFull_append` — it reads the first bytes, however they are split;
* `readFull_some`, `readFull_none` — what was read, and when the connection ended before.
-/

import Mathlib

namespace Atterm.Foundation

variable {Byte : Type*}

/-- The next bytes, and the reads that are left behind them. -/
def readFull : ℕ → List (List Byte) → Option (List Byte × List (List Byte))
  | n, [] => if n = 0 then some ([], []) else none
  | n, arrived :: later =>
    if n ≤ arrived.length then some (arrived.take n, arrived.drop n :: later)
    else (readFull (n - arrived.length) later).map fun read => (arrived ++ read.1, read.2)

/-- **The first bytes are read, and the others are left.** -/
theorem readFull_append {reads : List (List Byte)} {bytes rest : List Byte}
    (stream : reads.flatten = bytes ++ rest) :
    ∃ left, readFull bytes.length reads = some (bytes, left) ∧ left.flatten = rest := by
  induction reads generalizing bytes with
  | nil =>
    obtain ⟨rfl, rfl⟩ := List.append_eq_nil_iff.mp stream.symm
    exact ⟨[], rfl, rfl⟩
  | cons arrived later ih =>
    rw [readFull]
    by_cases enough : bytes.length ≤ arrived.length
    · rw [if_pos enough]
      obtain ⟨more, rfl⟩ : bytes <+: arrived :=
        List.prefix_of_prefix_length_le ⟨rest, stream.symm⟩ ⟨later.flatten, rfl⟩ enough
      rw [List.flatten_cons, List.append_assoc] at stream
      refine ⟨more :: later, ?_, List.append_cancel_left stream⟩
      rw [List.take_left, List.drop_left]
    · rw [if_neg enough]
      obtain ⟨more, rfl⟩ : arrived <+: bytes :=
        List.prefix_of_prefix_length_le ⟨later.flatten, rfl⟩ ⟨rest, stream.symm⟩
          (Nat.le_of_not_le enough)
      rw [List.flatten_cons, List.append_assoc] at stream
      obtain ⟨left, reads, same⟩ := ih (List.append_cancel_left stream)
      refine ⟨left, ?_, same⟩
      rw [List.length_append, Nat.add_sub_cancel_left, reads]
      rfl

theorem readFull_none {reads : List (List Byte)} {n : ℕ} (short : reads.flatten.length < n) :
    readFull n reads = none := by
  induction reads generalizing n with
  | nil => exact if_neg (Nat.ne_of_gt short)
  | cons arrived later ih =>
    rw [List.flatten_cons, List.length_append] at short
    rw [readFull, if_neg (by omega), ih (by omega)]
    rfl

theorem readFull_some {reads left : List (List Byte)} {n : ℕ} {bytes : List Byte}
    (read : readFull n reads = some (bytes, left)) :
    reads.flatten = bytes ++ left.flatten ∧ bytes.length = n := by
  by_cases short : reads.flatten.length < n
  · rw [readFull_none short] at read
    cases read
  · have taken : (reads.flatten.take n).length = n := by
      rw [List.length_take]
      omega
    obtain ⟨left', read', same⟩ := readFull_append (List.take_append_drop n reads.flatten).symm
    rw [taken, read] at read'
    cases read'
    exact ⟨by rw [same, List.take_append_drop], taken⟩

end Atterm.Foundation
