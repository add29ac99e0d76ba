/-
**Unpadded base64 over the URL alphabet.**

Four characters carry three bytes, and a last group of two or three characters carries one or two
bytes with some bits left over. A strict decoder wants those bits to be zero and, as the standard
library documents it, skips line breaks; a loose one drops them.

* `decodeStrict_encode` — what was encoded decodes to itself, whatever reading it came from.
-/

import Mathlib

namespace Atterm.Foundation.Base64

def sextetOf (char : Char) : Option ℕ :=
  if 'A'.toNat ≤ char.toNat ∧ char.toNat ≤ 'Z'.toNat then some (char.toNat - 'A'.toNat)
  else if 'a'.toNat ≤ char.toNat ∧ char.toNat ≤ 'z'.toNat then some (char.toNat - 'a'.toNat + 26)
  else if '0'.toNat ≤ char.toNat ∧ char.toNat ≤ '9'.toNat then some (char.toNat - '0'.toNat + 52)
  else if char = '-' then some 62
  else if char = '_' then some 63
  else none

def charOf (sextet : ℕ) : Char :=
  if sextet < 26 then Char.ofNat (sextet + 'A'.toNat)
  else if sextet < 52 then Char.ofNat (sextet - 26 + 'a'.toNat)
  else if sextet < 62 then Char.ofNat (sextet - 52 + '0'.toNat)
  else if sextet = 62 then '-'
  else '_'

/-- The bytes of a text, with the bits left over in the last group dropped. -/
def looseBytes : List ℕ → Option (List UInt8)
  | a :: b :: c :: d :: rest =>
    (looseBytes rest).map fun bytes =>
      UInt8.ofNat (a * 4 + b / 16) :: UInt8.ofNat (b % 16 * 16 + c / 4)
        :: UInt8.ofNat (c % 4 * 64 + d) :: bytes
  | [a, b, c] => some [UInt8.ofNat (a * 4 + b / 16), UInt8.ofNat (b % 16 * 16 + c / 4)]
  | [a, b] => some [UInt8.ofNat (a * 4 + b / 16)]
  | [_] => none
  | [] => some []

/-- The bytes of a text, refused when the bits left over in the last group are not zero. -/
def strictBytes : List ℕ → Option (List UInt8)
  | a :: b :: c :: d :: rest =>
    (strictBytes rest).map fun bytes =>
      UInt8.ofNat (a * 4 + b / 16) :: UInt8.ofNat (b % 16 * 16 + c / 4)
        :: UInt8.ofNat (c % 4 * 64 + d) :: bytes
  | [a, b, c] =>
    if c % 4 = 0 then
      some [UInt8.ofNat (a * 4 + b / 16), UInt8.ofNat (b % 16 * 16 + c / 4)]
    else none
  | [a, b] => if b % 16 = 0 then some [UInt8.ofNat (a * 4 + b / 16)] else none
  | [_] => none
  | [] => some []

/-- The numbers that carry the given bytes. -/
def sextets : List UInt8 → List ℕ
  | x :: y :: z :: rest =>
    x.toNat / 4 :: (x.toNat % 4 * 16 + y.toNat / 16) :: (y.toNat % 16 * 4 + z.toNat / 64)
      :: z.toNat % 64 :: sextets rest
  | [x, y] => [x.toNat / 4, x.toNat % 4 * 16 + y.toNat / 16, y.toNat % 16 * 4]
  | [x] => [x.toNat / 4, x.toNat % 4 * 16]
  | [] => []

def encode (bytes : List UInt8) : String := String.ofList ((sextets bytes).map charOf)

def decodeLoose (text : String) : Option (List UInt8) :=
  (text.toList.mapM sextetOf).bind looseBytes

/-- The strict reading of a text, line breaks skipped. -/
def decodeStrict (text : String) : Option (List UInt8) :=
  ((text.toList.filter fun char => char ≠ '\r' ∧ char ≠ '\n').mapM sextetOf).bind strictBytes

/-- The loose reading of a text, line breaks skipped. -/
def decodeRawURL (text : String) : Option (List UInt8) :=
  ((text.toList.filter fun char => char ≠ '\r' ∧ char ≠ '\n').mapM sextetOf).bind looseBytes

theorem sextetOf_charOf {sextet : ℕ} (small : sextet < 64) :
    sextetOf (charOf sextet) = some sextet := by
  have checked : ∀ sextet < 64, sextetOf (charOf sextet) = some sextet := by decide
  exact checked sextet small

theorem charOf_ne_break {sextet : ℕ} (small : sextet < 64) :
    charOf sextet ≠ '\r' ∧ charOf sextet ≠ '\n' ∧ charOf sextet ≠ '.' := by
  have checked : ∀ sextet < 64,
      charOf sextet ≠ '\r' ∧ charOf sextet ≠ '\n' ∧ charOf sextet ≠ '.' := by decide
  exact checked sextet small

theorem mapM_sextetOf_map_charOf {numbers : List ℕ} (small : ∀ number ∈ numbers, number < 64) :
    (numbers.map charOf).mapM sextetOf = some numbers := by
  induction numbers with
  | nil => rfl
  | cons number rest ih =>
    have first := sextetOf_charOf (small number (by simp))
    have later := ih fun entry member => small entry (List.mem_cons_of_mem _ member)
    rw [List.map_cons, List.mapM_cons, first, later]
    rfl

theorem sextets_lt (bytes : List UInt8) : ∀ number ∈ sextets bytes, number < 64 := by
  induction bytes using sextets.induct with
  | case1 x y z rest ih =>
    have bx := x.toNat_lt
    have by' := y.toNat_lt
    have bz := z.toNat_lt
    intro number member
    simp only [sextets, List.mem_cons] at member
    rcases member with rfl | rfl | rfl | rfl | later
    · omega
    · omega
    · omega
    · omega
    · exact ih number later
  | case2 x y =>
    have bx := x.toNat_lt
    have by' := y.toNat_lt
    simp only [sextets, List.mem_cons, List.not_mem_nil, or_false]
    rintro number (rfl | rfl | rfl) <;> omega
  | case3 x =>
    have bx := x.toNat_lt
    simp only [sextets, List.mem_cons, List.not_mem_nil, or_false]
    rintro number (rfl | rfl) <;> omega
  | case4 => simp [sextets]

theorem strictBytes_sextets (bytes : List UInt8) : strictBytes (sextets bytes) = some bytes := by
  have whole : ∀ (byte : UInt8) (number : ℕ), number = byte.toNat → UInt8.ofNat number = byte := by
    rintro byte _ rfl
    exact UInt8.ofNat_toNat
  induction bytes using sextets.induct with
  | case1 x y z rest ih =>
    have bx := x.toNat_lt
    have by' := y.toNat_lt
    have bz := z.toNat_lt
    rw [sextets, strictBytes, ih, Option.map_some]
    rw [whole x _ (by omega), whole y _ (by omega), whole z _ (by omega)]
  | case2 x y =>
    have bx := x.toNat_lt
    have by' := y.toNat_lt
    rw [sextets, strictBytes, if_pos (by omega), whole x _ (by omega), whole y _ (by omega)]
  | case3 x =>
    have bx := x.toNat_lt
    rw [sextets, strictBytes, if_pos (by omega), whole x _ (by omega)]
  | case4 => rfl

/-- **What was encoded decodes to itself**, also for a decoder that wants the left-over bits to be
zero. -/
theorem decodeStrict_encode (bytes : List UInt8) : decodeStrict (encode bytes) = some bytes := by
  have small := sextets_lt bytes
  have kept : ((sextets bytes).map charOf).filter (fun char => char ≠ '\r' ∧ char ≠ '\n')
      = (sextets bytes).map charOf := by
    rw [List.filter_eq_self]
    intro char member
    obtain ⟨number, inside, rfl⟩ := List.mem_map.mp member
    have char := charOf_ne_break (small number inside)
    exact decide_eq_true ⟨char.1, char.2.1⟩
  unfold decodeStrict encode
  rw [String.toList_ofList, kept, mapM_sextetOf_map_charOf small, Option.bind_some,
    strictBytes_sextets]

theorem dot_notMem_encode (bytes : List UInt8) : '.' ∉ (encode bytes).toList := by
  unfold encode
  rw [String.toList_ofList, List.mem_map]
  rintro ⟨number, member, dot⟩
  exact (charOf_ne_break (sextets_lt bytes number member)).2.2 dot

theorem splitOn_dotted {tag : String} (raw signature : List UInt8) (plain : '.' ∉ tag.toList) :
    (tag ++ "." ++ encode raw ++ "." ++ encode signature).toList.splitOn '.' =
      [tag.toList, (encode raw).toList, (encode signature).toList] := by
  have shape : (tag ++ "." ++ encode raw ++ "." ++ encode signature).toList =
      tag.toList ++ '.' :: ((encode raw).toList ++ '.' :: (encode signature).toList) := by
    simp
  rw [shape, List.splitOn_append_cons_of_beq _ _ (by rfl),
    List.splitOn_append_cons_of_beq _ _ (by rfl), List.splitOn_eq_singleton plain,
    List.splitOn_eq_singleton (dot_notMem_encode raw),
    List.splitOn_eq_singleton (dot_notMem_encode signature)]
  rfl

theorem looseBytes_of_strictBytes {numbers : List ℕ} {bytes : List UInt8}
    (read : strictBytes numbers = some bytes) : looseBytes numbers = some bytes := by
  induction numbers using strictBytes.induct generalizing bytes with
  | case1 a b c d rest ih =>
    rw [strictBytes, Option.map_eq_some_iff] at read
    obtain ⟨tail, later, rfl⟩ := read
    rw [looseBytes, ih later, Option.map_some]
  | case2 a b c zero =>
    rw [strictBytes, if_pos zero] at read
    exact read
  | case3 a b c left =>
    rw [strictBytes, if_neg left] at read
    cases read
  | case4 a b zero =>
    rw [strictBytes, if_pos zero] at read
    exact read
  | case5 a b left =>
    rw [strictBytes, if_neg left] at read
    cases read
  | case6 a => cases read
  | case7 => exact read

theorem decodeLoose_encode (bytes : List UInt8) : decodeLoose (encode bytes) = some bytes := by
  unfold decodeLoose encode
  rw [String.toList_ofList, mapM_sextetOf_map_charOf (sextets_lt bytes), Option.bind_some]
  exact looseBytes_of_strictBytes (strictBytes_sextets bytes)

theorem decodeRawURL_encode (bytes : List UInt8) : decodeRawURL (encode bytes) = some bytes := by
  obtain ⟨numbers, chars, read⟩ := Option.bind_eq_some_iff.mp (decodeStrict_encode bytes)
  rw [decodeRawURL, chars, Option.bind_some]
  exact looseBytes_of_strictBytes read

theorem encode_ne_empty {bytes : List UInt8} (some : bytes ≠ []) : encode bytes ≠ "" := by
  intro empty
  have read := decodeRawURL_encode bytes
  rw [empty] at read
  exact some (Option.some.inj read).symm

end Atterm.Foundation.Base64
