/-
**Texts that are written field by field are documents.**

An object that is put together from the texts of its fields is the text of a document; so the reader of
documents reads it.

* `jsonString_eq`, `jsonInt_eq`, `jsonObject_eq` — texts, numbers and objects.
-/

import Atterm.Foundation.JsonFields
import Atterm.Foundation.JsonText

namespace Atterm.Foundation

def runesUtf8 (runes : List Char) : List UInt8 := runes.flatMap String.utf8EncodeChar

@[simp] theorem runesUtf8_append (first second : List Char) :
    runesUtf8 (first ++ second) = runesUtf8 first ++ runesUtf8 second := List.flatMap_append

@[simp] theorem runesUtf8_cons (char : Char) (rest : List Char) :
    runesUtf8 (char :: rest) = String.utf8EncodeChar char ++ runesUtf8 rest := rfl

@[simp] theorem runesUtf8_nil : runesUtf8 [] = [] := rfl

theorem hexDigit_eq {digit : ℕ} (small : digit < 16) :
    String.utf8EncodeChar (hexRune digit) = [hexDigit digit] := by
  have checked : ∀ digit < 16, String.utf8EncodeChar (hexRune digit) = [hexDigit digit] := by decide
  exact checked digit small

theorem unicodeEscape_eq (code : ℕ) : runesUtf8 (unicodeRunes code) = unicodeEscape code := by
  have digit (part : ℕ) : String.utf8EncodeChar (hexRune (part % 16)) = [hexDigit (part % 16)] :=
    hexDigit_eq (Nat.mod_lt part (by decide))
  rw [unicodeRunes, unicodeEscape]
  simp only [runesUtf8_cons, runesUtf8_nil, digit]
  rfl

def namedEscapes : List Char := ['"', '\\', '\x08', '\x0c', '\n', '\r', '\t']

theorem escapeChar_eq (char : Char) : runesUtf8 (escapeRune char) = escapeChar char := by
  by_cases named : char ∈ namedEscapes
  · rw [namedEscapes] at named
    simp only [List.mem_cons, List.not_mem_nil, or_false] at named
    rcases named with rfl | rfl | rfl | rfl | rfl | rfl | rfl <;> rfl
  · have apart (other : Char) (code : ℕ) (coded : other.toNat = code) (inside : other ∈ namedEscapes) :
        char ≠ other ∧ char.toNat ≠ code := by
      have different : char ≠ other := fun same => named (same ▸ inside)
      exact ⟨different, fun same => different (Char.toNat_inj.mp (same.trans coded.symm))⟩
    obtain ⟨quote, quote'⟩ := apart '"' 0x22 rfl (by decide)
    obtain ⟨slash, slash'⟩ := apart '\\' 0x5c rfl (by decide)
    obtain ⟨back, back'⟩ := apart '\x08' 0x08 rfl (by decide)
    obtain ⟨feed, feed'⟩ := apart '\x0c' 0x0c rfl (by decide)
    obtain ⟨line, line'⟩ := apart '\n' 0x0a rfl (by decide)
    obtain ⟨return_, return'⟩ := apart '\r' 0x0d rfl (by decide)
    obtain ⟨tab, tab'⟩ := apart '\t' 0x09 rfl (by decide)
    rw [escapeRune, if_neg (not_or.mpr ⟨quote, slash⟩), if_neg back, if_neg feed, if_neg line,
      if_neg return_, if_neg tab, escapeChar, if_neg (not_or.mpr ⟨quote', slash'⟩), if_neg back',
      if_neg feed', if_neg line', if_neg return', if_neg tab']
    split
    · exact unicodeEscape_eq char.toNat
    · exact List.append_nil _

theorem jsonString_eq (text : String) : runesUtf8 (quotedText text) = jsonString text := by
  have escaped : runesUtf8 (text.toList.flatMap escapeRune) = text.toList.flatMap escapeChar := by
    rw [runesUtf8, List.flatMap_assoc]
    exact congrArg (text.toList.flatMap ·) (funext escapeChar_eq)
  rw [quotedText, jsonString, runesUtf8_cons, runesUtf8_append, escaped]
  rfl

theorem jsonInt_eq (value : Int64) : runesUtf8 (intLiteral value.toInt) = jsonInt value := by
  rw [jsonInt, utf8]
  generalize value.toInt = number
  refine congrArg runesUtf8 ?_
  cases number with
  | ofNat number =>
    show natLiteral number = (Nat.repr number).toList
    rw [Nat.repr, String.toList_ofList]
    rfl
  | negSucc number =>
    show '-' :: natLiteral (number + 1) = ("-" ++ Nat.repr (number + 1)).toList
    rw [String.toList_append, Nat.repr, String.toList_ofList (l := Nat.toDigits 10 (number + 1))]
    rfl

theorem membersUtf8_eq (members : List (String × Json)) : runesUtf8 (membersText members) =
    List.intercalate [0x2c] (members.map fun member =>
      jsonString member.1 ++ 0x3a :: member.2.bytes) := by
  induction members with
  | nil => rfl
  | cons member rest ih =>
    obtain ⟨name, value⟩ := member
    have whole : runesUtf8 (quotedText name ++ ':' :: value.text) =
        jsonString name ++ 0x3a :: value.bytes := by
      rw [runesUtf8_append, jsonString_eq]
      rfl
    cases rest with
    | nil =>
      rw [membersText, whole]
      exact (List.append_nil _).symm
    | cons next rest =>
      rw [membersText, List.map_cons, runesUtf8_append, runesUtf8_cons, ih, whole]
      rfl

theorem jsonObject_eq (members : List (String × Json)) :
    jsonObject (members.map fun member => (member.1, member.2.bytes)) = (Json.obj members).bytes := by
  show _ = runesUtf8 (Json.obj members).text
  rw [Json.text, runesUtf8_cons, runesUtf8_append, membersUtf8_eq, jsonObject, List.map_map]
  rfl

end Atterm.Foundation
