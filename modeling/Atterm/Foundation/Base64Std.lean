/-
**Padded base64 over the standard alphabet.**

The two last characters of the alphabet differ from those of the URL alphabet, and a text is padded to
groups of four characters.

* `sextets_length`, `encodeStd_length` — the length of a text;
* `decodeStd_encodeStd` — what was encoded decodes to itself, for a strict decoder and a loose one.
-/

import Atterm.Foundation.Base64

namespace Atterm.Foundation.Base64

/-- A character of the URL alphabet in the standard one. -/
def stdChar (char : Char) : Char := if char = '-' then '+' else if char = '_' then '/' else char

def stdSextetOf (char : Char) : Option ℕ :=
  if char = '+' then some 62
  else if char = '/' then some 63
  else if char = '-' ∨ char = '_' then none
  else sextetOf char

def padding (length : ℕ) : List Char := List.replicate ((3 - length % 3) % 3) '='

def encodeStd (bytes : List UInt8) : String :=
  String.ofList ((sextets bytes).map (fun sextet => stdChar (charOf sextet)) ++ padding bytes.length)

/-- The text without its padding. -/
def unpadded (chars : List Char) : List Char := (chars.reverse.dropWhile fun char => char = '=').reverse

/-- The bytes of a padded text, line breaks skipped. -/
def decodeStd (strict : Bool) (text : String) : Option (List UInt8) :=
  let chars := text.toList.filter fun char => char ≠ '\r' ∧ char ≠ '\n'
  if chars.length % 4 = 0 ∧ chars.length ≤ (unpadded chars).length + 2 then
    ((unpadded chars).mapM stdSextetOf).bind (if strict then strictBytes else looseBytes)
  else none

theorem sextets_length (bytes : List UInt8) : (sextets bytes).length = (4 * bytes.length + 2) / 3 := by
  induction bytes using sextets.induct with
  | case1 x y z rest ih =>
    rw [sextets]
    simp only [List.length_cons, ih]
    omega
  | case2 x y => simp [sextets]
  | case3 x => simp [sextets]
  | case4 => rfl

theorem encode_length (bytes : List UInt8) : (encode bytes).toList.length = (4 * bytes.length + 2) / 3 := by
  rw [encode, String.toList_ofList, List.length_map, sextets_length]

theorem encodeStd_length (bytes : List UInt8) :
    (encodeStd bytes).toList.length = (bytes.length + 2) / 3 * 4 := by
  rw [encodeStd, String.toList_ofList, List.length_append, List.length_map, sextets_length, padding,
    List.length_replicate]
  omega

theorem stdSextetOf_stdChar {sextet : ℕ} (small : sextet < 64) :
    stdSextetOf (stdChar (charOf sextet)) = some sextet := by
  have checked : ∀ sextet < 64, stdSextetOf (stdChar (charOf sextet)) = some sextet := by decide
  exact checked sextet small

theorem stdChar_ne_mark {sextet : ℕ} (small : sextet < 64) :
    stdChar (charOf sextet) ≠ '\r' ∧ stdChar (charOf sextet) ≠ '\n' ∧
      stdChar (charOf sextet) ≠ '=' := by
  have checked : ∀ sextet < 64, stdChar (charOf sextet) ≠ '\r' ∧ stdChar (charOf sextet) ≠ '\n' ∧
      stdChar (charOf sextet) ≠ '=' := by decide
  exact checked sextet small

theorem mapM_stdSextetOf {numbers : List ℕ} (small : ∀ number ∈ numbers, number < 64) :
    (numbers.map fun sextet => stdChar (charOf sextet)).mapM stdSextetOf = some numbers := by
  induction numbers with
  | nil => rfl
  | cons number rest ih =>
    obtain ⟨first, later⟩ := List.forall_mem_cons.mp small
    rw [List.map_cons, List.mapM_cons, stdSextetOf_stdChar first, ih later]
    rfl

theorem unpadded_append {body : List Char} (plain : '=' ∉ body) (count : ℕ) :
    unpadded (body ++ List.replicate count '=') = body := by
  have marks : ∀ char ∈ List.replicate count '=', decide (char = '=') = true := by
    intro char inside
    exact decide_eq_true (List.eq_of_mem_replicate inside)
  rw [unpadded, List.reverse_append, List.reverse_replicate, List.dropWhile_append_of_pos marks]
  cases last : body.reverse with
  | nil =>
    rw [List.reverse_eq_nil_iff] at last
    rw [last]
    rfl
  | cons char rest =>
    have other : char ≠ '=' := by
      rintro rfl
      exact plain (List.mem_reverse.mp (last ▸ List.mem_cons_self))
    rw [List.dropWhile_cons_of_neg (by simpa using other), ← last, List.reverse_reverse]

/-- **What was encoded decodes to itself.** -/
theorem decodeStd_encodeStd (strict : Bool) (bytes : List UInt8) :
    decodeStd strict (encodeStd bytes) = some bytes := by
  have small := sextets_lt bytes
  have kept : (encodeStd bytes).toList.filter (fun char => char ≠ '\r' ∧ char ≠ '\n') =
      (encodeStd bytes).toList := by
    rw [List.filter_eq_self, encodeStd, String.toList_ofList]
    intro char inside
    rcases List.mem_append.mp inside with inside | inside
    · obtain ⟨number, listed, rfl⟩ := List.mem_map.mp inside
      have char := stdChar_ne_mark (small number listed)
      exact decide_eq_true ⟨char.1, char.2.1⟩
    · rw [List.eq_of_mem_replicate inside]
      decide
  have body : unpadded (encodeStd bytes).toList =
      (sextets bytes).map fun sextet => stdChar (charOf sextet) := by
    rw [encodeStd, String.toList_ofList, padding]
    refine unpadded_append ?_ _
    intro inside
    obtain ⟨number, listed, same⟩ := List.mem_map.mp inside
    exact (stdChar_ne_mark (small number listed)).2.2 same
  rw [decodeStd, kept, body, mapM_stdSextetOf small, encodeStd_length, List.length_map, sextets_length,
    if_pos (by omega)]
  cases strict with
  | true => exact strictBytes_sextets bytes
  | false => exact looseBytes_of_strictBytes (strictBytes_sextets bytes)

end Atterm.Foundation.Base64
