/-
**Big-endian numbers of a fixed width.**

* `ofBigEndian_bigEndian` — reading back what was written;
* `bigEndian_ofBigEndian` — writing back what was read;
* `framed_append_inj`, `flatMap_framed_inj` — a length before what it counts keeps fields apart.
-/

import Mathlib

namespace Atterm.Foundation

/-- The last `width` octets of a number, the most significant first. -/
def bigEndian : ℕ → ℕ → List UInt8
  | 0, _ => []
  | width + 1, number => bigEndian width (number / 256) ++ [UInt8.ofNat number]

def ofBigEndian (octets : List UInt8) : ℕ :=
  octets.foldl (fun number octet => number * 256 + octet.toNat) 0

@[simp] theorem length_bigEndian (width number : ℕ) : (bigEndian width number).length = width := by
  induction width generalizing number with
  | zero => rfl
  | succ width ih => simp [bigEndian, ih]

theorem ofBigEndian_concat (octets : List UInt8) (octet : UInt8) :
    ofBigEndian (octets ++ [octet]) = ofBigEndian octets * 256 + octet.toNat := by
  simp [ofBigEndian, List.foldl_append]

/-- **What was written is read back**, up to the width. -/
theorem ofBigEndian_bigEndian_mod (width number : ℕ) :
    ofBigEndian (bigEndian width number) = number % 256 ^ width := by
  induction width generalizing number with
  | zero => simp [bigEndian, ofBigEndian, Nat.mod_one]
  | succ width ih =>
    rw [bigEndian, ofBigEndian_concat, ih, pow_succ', Nat.mod_mul]
    simp only [UInt8.toNat_ofNat']
    ring

theorem ofBigEndian_bigEndian {width number : ℕ} (fits : number < 256 ^ width) :
    ofBigEndian (bigEndian width number) = number := by
  rw [ofBigEndian_bigEndian_mod, Nat.mod_eq_of_lt fits]

theorem ofBigEndian_lt (octets : List UInt8) : ofBigEndian octets < 256 ^ octets.length := by
  induction octets using List.reverseRecOn with
  | nil => simp [ofBigEndian]
  | append_singleton octets octet ih =>
    have small := octet.toNat_lt
    rw [ofBigEndian_concat, List.length_append, List.length_singleton, pow_succ]
    omega

/-- **What was read is written back.** -/
theorem bigEndian_ofBigEndian (octets : List UInt8) :
    bigEndian octets.length (ofBigEndian octets) = octets := by
  induction octets using List.reverseRecOn with
  | nil => rfl
  | append_singleton octets octet ih =>
    have small := octet.toNat_lt
    have high : (ofBigEndian octets * 256 + octet.toNat) / 256 = ofBigEndian octets := by omega
    have low : UInt8.ofNat (ofBigEndian octets * 256 + octet.toNat) = octet := by
      apply UInt8.toNat_inj.mp
      rw [UInt8.toNat_ofNat']
      omega
    rw [List.length_append, List.length_singleton, bigEndian, ofBigEndian_concat, high, ih, low]

theorem bigEndian_add (front width number : ℕ) : bigEndian (front + width) number =
    bigEndian front (number / 256 ^ width) ++ bigEndian width number := by
  induction width generalizing number with
  | zero => simp [bigEndian]
  | succ width ih =>
    rw [← Nat.add_assoc, bigEndian, ih, Nat.div_div_eq_div_mul, ← pow_succ', bigEndian,
      List.append_assoc]

theorem bigEndian_mod (width number : ℕ) :
    bigEndian width (number % 256 ^ width) = bigEndian width number := by
  rw [← ofBigEndian_bigEndian_mod]
  have written := bigEndian_ofBigEndian (bigEndian width number)
  rwa [length_bigEndian] at written

theorem bigEndian_inj {width first second : ℕ} (one : first < 256 ^ width)
    (other : second < 256 ^ width) : bigEndian width first = bigEndian width second ↔
      first = second := by
  refine ⟨fun same => ?_, fun same => by rw [same]⟩
  rw [← ofBigEndian_bigEndian one, same, ofBigEndian_bigEndian other]

/-! ### Fields of a message -/

def numberAt (octets : List UInt8) (start stop : ℕ) : ℕ := ofBigEndian (octets.extract start stop)

theorem extract_skip {head rest : List UInt8} {width : ℕ} (length : head.length = width)
    (start stop : ℕ) : (head ++ rest).extract (width + start) (width + stop) =
      rest.extract start stop := by
  subst length
  rw [List.extract_eq_take_drop, List.extract_eq_take_drop, List.drop_length_add_append,
    Nat.add_sub_add_left]

theorem extract_head {head rest : List UInt8} {width : ℕ} (length : head.length = width) :
    (head ++ rest).extract 0 width = head := by
  subst length
  rw [List.extract_eq_take_drop, List.drop_zero, Nat.sub_zero, List.take_left]

theorem drop_skip {head rest : List UInt8} {width : ℕ} (length : head.length = width) (count : ℕ) :
    (head ++ rest).drop (width + count) = rest.drop count := by
  subst length
  exact List.drop_length_add_append count

theorem numberAt_skip {head rest : List UInt8} {width : ℕ} (length : head.length = width)
    (start stop : ℕ) : numberAt (head ++ rest) (width + start) (width + stop) =
      numberAt rest start stop := by
  rw [numberAt, extract_skip length, numberAt]

theorem numberAt_head {rest : List UInt8} {width number : ℕ} (fits : number < 256 ^ width) :
    numberAt (bigEndian width number ++ rest) 0 width = number := by
  rw [numberAt, extract_head (length_bigEndian width number), ofBigEndian_bigEndian fits]

theorem numberAt_lt (octets : List UInt8) (start stop : ℕ) :
    numberAt octets start stop < 256 ^ (stop - start) := by
  refine (ofBigEndian_lt _).trans_le (Nat.pow_le_pow_right (by decide) ?_)
  rw [List.extract_eq_take_drop, List.length_take]
  exact min_le_left _ _

/-! ### Lengths before what they count -/

/-- Octets behind their number, which takes `width` octets itself. -/
def framed (width : ℕ) (octets : List UInt8) : List UInt8 := bigEndian width octets.length ++ octets

/-- **A framed field is told apart from what follows it.** -/
theorem framed_append_inj {width : ℕ} {first second more rest : List UInt8}
    (one : first.length < 256 ^ width) (other : second.length < 256 ^ width) :
    framed width first ++ more = framed width second ++ rest ↔ first = second ∧ more = rest := by
  refine ⟨fun same => ?_, fun ⟨fields, ends⟩ => by rw [fields, ends]⟩
  rw [framed, framed, List.append_assoc, List.append_assoc] at same
  obtain ⟨lengths, same⟩ := List.append_inj same (by rw [length_bigEndian, length_bigEndian])
  exact List.append_inj same ((bigEndian_inj one other).mp lengths)

theorem flatMap_framed_inj {width : ℕ} {fields others : List (List UInt8)}
    (one : ∀ field ∈ fields, field.length < 256 ^ width)
    (other : ∀ field ∈ others, field.length < 256 ^ width) (count : fields.length = others.length)
    (same : fields.flatMap (framed width) = others.flatMap (framed width)) : fields = others := by
  induction fields generalizing others with
  | nil => exact (List.length_eq_zero_iff.mp count.symm).symm
  | cons field fields ih =>
    obtain ⟨first, rest, rfl⟩ := List.exists_cons_of_length_eq_add_one count.symm
    rw [List.flatMap_cons, List.flatMap_cons,
      framed_append_inj (one field List.mem_cons_self) (other first List.mem_cons_self)] at same
    rw [same.1, ih (fun f inside => one f (List.mem_cons_of_mem _ inside))
      (fun f inside => other f (List.mem_cons_of_mem _ inside)) (Nat.succ.inj count) same.2]

end Atterm.Foundation
