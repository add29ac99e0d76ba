/-
**The size of JSON texts.**

A character is escaped into at most six bytes for each of its own, a plain character into itself. An
object takes its braces and, for each member, the quoted name, the value and two more bytes.

* `Json.bytes_length` — the bytes of a document, counted on its characters;
* `quotedText_size`, `quotedText_size_of_plain` — strings;
* `natLiteral_size` — numbers.
-/

import Atterm.Foundation.Base64Std
import Atterm.Foundation.JsonFields

namespace Atterm.Foundation

open Std (ExtTreeMap)
open String (utf8Len)

theorem flatMap_utf8_length (text : List Char) :
    (text.flatMap String.utf8EncodeChar).length = utf8Len text := by
  induction text with
  | nil => rfl
  | cons char rest ih =>
    rw [List.flatMap_cons, List.length_append, String.length_utf8EncodeChar, ih,
      String.utf8Len_cons, Nat.add_comm]

theorem Json.bytes_length (value : Json) : value.bytes.length = utf8Len value.text :=
  flatMap_utf8_length value.text

theorem utf8Len_toList (text : String) : utf8Len text.toList = text.utf8ByteSize := by
  rw [← String.utf8ByteSize_ofList, String.ofList_toList]

/-! ### Strings -/

theorem utf8Len_of_ascii {text : List Char} (ascii : ∀ char ∈ text, char.utf8Size = 1) :
    utf8Len text = text.length := by
  induction text with
  | nil => rfl
  | cons char rest ih =>
    obtain ⟨first, later⟩ := List.forall_mem_cons.mp ascii
    rw [String.utf8Len_cons, ih later, first, List.length_cons]

theorem hexRune_size (digit : ℕ) (small : digit < 16) : (hexRune digit).utf8Size = 1 := by
  have checked : ∀ digit < 16, (hexRune digit).utf8Size = 1 := by decide
  exact checked digit small

theorem unicodeRunes_size (code : ℕ) : utf8Len (unicodeRunes code) = 6 := by
  have digit (value : ℕ) : (hexRune (value % 16)).utf8Size = 1 :=
    hexRune_size _ (Nat.mod_lt _ (by decide))
  rw [unicodeRunes, utf8Len_of_ascii]
  · rfl
  · simp only [List.forall_mem_cons, digit, true_and]
    refine ⟨rfl, rfl, ?_⟩
    intro char none
    cases none

theorem escapeRune_size (char : Char) : utf8Len (escapeRune char) ≤ 6 * char.utf8Size := by
  have some_byte := char.utf8Size_pos
  have pair (first second : Char) : utf8Len [first, second] = first.utf8Size + second.utf8Size := by
    simp [Nat.add_comm]
  rw [escapeRune]
  split_ifs with quote
  · rw [pair]
    have mark : '\\'.utf8Size = 1 := rfl
    omega
  · exact le_trans (by decide) (Nat.mul_le_mul_left 6 some_byte)
  · exact le_trans (by decide) (Nat.mul_le_mul_left 6 some_byte)
  · exact le_trans (by decide) (Nat.mul_le_mul_left 6 some_byte)
  · exact le_trans (by decide) (Nat.mul_le_mul_left 6 some_byte)
  · exact le_trans (by decide) (Nat.mul_le_mul_left 6 some_byte)
  · rw [unicodeRunes_size]
    omega
  · rw [String.utf8Len_cons, String.utf8Len_nil]
    omega

theorem escaped_size (text : List Char) : utf8Len (text.flatMap escapeRune) ≤ 6 * utf8Len text := by
  induction text with
  | nil => exact le_rfl
  | cons char rest ih =>
    have one := escapeRune_size char
    rw [List.flatMap_cons, String.utf8Len_append, String.utf8Len_cons]
    omega

theorem quotedText_utf8Len (text : String) :
    utf8Len (quotedText text) = utf8Len (text.toList.flatMap escapeRune) + 2 := by
  rw [quotedText, String.utf8Len_cons, String.utf8Len_append]
  rfl

/-- **A string takes at most six bytes for each of its own.** -/
theorem quotedText_size (text : String) : utf8Len (quotedText text) ≤ 6 * text.utf8ByteSize + 2 := by
  rw [quotedText_utf8Len, ← utf8Len_toList]
  exact Nat.add_le_add_right (escaped_size text.toList) 2

def PlainRune (char : Char) : Prop := escapeRune char = [char] ∧ char.utf8Size = 1

theorem quotedText_size_of_plain {text : String} (plain : ∀ char ∈ text.toList, PlainRune char) :
    utf8Len (quotedText text) = text.toList.length + 2 := by
  have same : text.toList.flatMap escapeRune = text.toList := by
    have kept : text.toList.flatMap escapeRune = text.toList.flatMap fun char => [char] :=
      List.flatMap_congr fun char inside => (plain char inside).1
    rw [kept, List.flatMap_singleton']
  rw [quotedText_utf8Len, same, utf8Len_of_ascii fun char inside => (plain char inside).2]

theorem charOf_ascii {sextet : ℕ} (small : sextet < 64) : (Base64.charOf sextet).utf8Size = 1 := by
  have checked : ∀ sextet < 64, (Base64.charOf sextet).utf8Size = 1 := by decide
  exact checked sextet small

theorem encode_size (bytes : List UInt8) :
    (Base64.encode bytes).utf8ByteSize = (4 * bytes.length + 2) / 3 := by
  rw [← utf8Len_toList, utf8Len_of_ascii, Base64.encode_length]
  intro char inside
  rw [Base64.encode, String.toList_ofList] at inside
  obtain ⟨sextet, listed, rfl⟩ := List.mem_map.mp inside
  exact charOf_ascii (Base64.sextets_lt bytes sextet listed)

theorem stdChar_plain {sextet : ℕ} (small : sextet < 64) :
    escapeRune (Base64.stdChar (Base64.charOf sextet)) = [Base64.stdChar (Base64.charOf sextet)] ∧
      (Base64.stdChar (Base64.charOf sextet)).utf8Size = 1 := by
  have checked : ∀ sextet < 64,
      escapeRune (Base64.stdChar (Base64.charOf sextet)) = [Base64.stdChar (Base64.charOf sextet)] ∧
        (Base64.stdChar (Base64.charOf sextet)).utf8Size = 1 := by decide
  exact checked sextet small

theorem quoted_encodeStd_size (bytes : List UInt8) :
    utf8Len (quotedText (Base64.encodeStd bytes)) = (bytes.length + 2) / 3 * 4 + 2 := by
  rw [quotedText_size_of_plain, Base64.encodeStd_length]
  intro char inside
  rw [Base64.encodeStd, String.toList_ofList] at inside
  rcases List.mem_append.mp inside with inside | inside
  · obtain ⟨sextet, listed, rfl⟩ := List.mem_map.mp inside
    exact stdChar_plain (Base64.sextets_lt bytes sextet listed)
  · rw [List.eq_of_mem_replicate inside]
    exact ⟨by decide, by decide⟩

/-! ### Numbers -/

theorem isDigit_ascii {char : Char} (digit : char.isDigit = true) : char.utf8Size = 1 := by
  rw [Char.utf8Size_eq_one_iff]
  simp only [Char.isDigit, Bool.and_eq_true, decide_eq_true_eq] at digit
  have nine : ('9').val ≤ 127 := by decide
  exact UInt32.le_trans digit.2 nine

theorem natLiteral_size {value digits : ℕ} (some_digit : 0 < digits) (below : value < 10 ^ digits) :
    utf8Len (Json.nat value).text ≤ digits := by
  rw [Json.nat, Json.text, utf8Len_of_ascii fun char inside => isDigit_ascii (natLiteral_isDigit inside)]
  exact (Nat.length_toDigits_le_iff (by decide) some_digit).mpr below

theorem natLiteral_size_of_uint64 {value : ℕ} (below : value < 2 ^ 64) :
    utf8Len (Json.nat value).text ≤ 20 :=
  natLiteral_size (by decide) (lt_trans below (by decide))

/-! ### Objects -/

/-- The bytes a member takes, with its colon and comma. -/
def memberSize (member : String × Json) : ℕ :=
  utf8Len (quotedText member.1) + utf8Len member.2.text + 2

theorem membersText_size (members : List (String × Json)) :
    utf8Len (membersText members) ≤ (members.map memberSize).sum := by
  induction members with
  | nil => exact le_rfl
  | cons member rest ih =>
    obtain ⟨name, value⟩ := member
    rw [List.map_cons, List.sum_cons]
    have member : memberSize (name, value) = utf8Len (quotedText name) + utf8Len value.text + 2 := rfl
    have colon : ':'.utf8Size = 1 := rfl
    have comma : ','.utf8Size = 1 := rfl
    cases rest with
    | nil =>
      rw [membersText, String.utf8Len_append, String.utf8Len_cons, List.map_nil, List.sum_nil]
      omega
    | cons next more =>
      rw [membersText, String.utf8Len_append, String.utf8Len_append, String.utf8Len_cons,
        String.utf8Len_cons]
      omega

theorem obj_size (members : List (String × Json)) :
    utf8Len (Json.obj members).text ≤ (members.map memberSize).sum + 2 := by
  have inside := membersText_size members
  have marks : '{'.utf8Size = 1 ∧ utf8Len ['}'] = 1 := ⟨rfl, rfl⟩
  rw [Json.text, String.utf8Len_cons, String.utf8Len_append]
  omega

/-- **A map of numbers takes a bounded number of bytes for each entry.** -/
theorem mapJson_size {map : ExtTreeMap String ℕ} {bytes : ℕ}
    (keys : ∀ entry ∈ map.toList, entry.1.utf8ByteSize ≤ bytes)
    (values : ∀ entry ∈ map.toList, entry.2 < 2 ^ 64) :
    utf8Len (mapJson Json.nat map).text ≤ map.size * (6 * bytes + 24) + 2 := by
  refine le_trans (obj_size _) (Nat.add_le_add_right ?_ 2)
  rw [← ExtTreeMap.length_toList, List.map_map]
  have each : ∀ size ∈ map.toList.map (memberSize ∘ fun entry => (entry.1, Json.nat entry.2)),
      size ≤ 6 * bytes + 24 := by
    intro size listed
    obtain ⟨entry, inside, rfl⟩ := List.mem_map.mp listed
    have key := quotedText_size entry.1
    have value := natLiteral_size_of_uint64 (values entry inside)
    have short := keys entry inside
    simp only [Function.comp_apply, memberSize]
    omega
  have total := List.sum_le_card_nsmul _ _ each
  rwa [List.length_map, smul_eq_mul] at total

end Atterm.Foundation
