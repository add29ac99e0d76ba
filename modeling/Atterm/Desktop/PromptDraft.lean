/-
**The draft of a prompt.**

A terminal reports what is typed in pieces, and a tracker keeps the line that is being edited: its characters,
the cursor, and whether they are to be trusted. A piece that begins with the start of a bracketed paste is a
paste as a whole; in another one the edit sequences and the characters are taken in turn. What the tracker
does not know costs it the trust until the next Enter.

* `PromptDraftTracker.insert`, `applyEdit`, `key` — what a piece consists of;
* `PromptDraftTracker.feed`, `snapshot` — the tracker;
* `findEdit_eq_some_iff`, `first_cons` — what a string begins with.
-/

import Atterm.Foundation.Utf16

namespace Atterm.Desktop

open Atterm.Foundation

def esc : UInt16 := 0x1b

/-- `'\x1b[200~'` -/
def bracketedPasteStart : JsString := [esc, 0x5b, 0x32, 0x30, 0x30, 0x7e]

/-- `'\x1b[201~'` -/
def bracketedPasteEnd : JsString := [esc, 0x5b, 0x32, 0x30, 0x31, 0x7e]

inductive EditAction where
  | left
  | right
  | home
  | lineEnd
  | delete
deriving DecidableEq, Repr

/-- `\x1b[D`, `\x1b[C`, `\x1b[H`, `\x1b[1~`, `\x1b[F`, `\x1b[4~` and `\x1b[3~`. -/
def editSequences : List (JsString × EditAction) :=
  [([esc, 0x5b, 0x44], .left), ([esc, 0x5b, 0x43], .right), ([esc, 0x5b, 0x48], .home),
    ([esc, 0x5b, 0x31, 0x7e], .home), ([esc, 0x5b, 0x46], .lineEnd), ([esc, 0x5b, 0x34, 0x7e], .lineEnd),
    ([esc, 0x5b, 0x33, 0x7e], .delete)]

def findEdit (data : JsString) : Option (JsString × EditAction) :=
  editSequences.find? fun edit => edit.1.isPrefixOf data

/-- `Array.from(data)[0]` of a string that is not empty. -/
def first (data : JsString) : JsString := (codePoints data).headD []

def isEnter (u : UInt16) : Bool := u == 0x0d || u == 0x0a

/-- `/\s/` of a code unit. -/
def isWhite (u : UInt16) : Bool :=
  (0x09 ≤ u && u ≤ 0x0d) || (0x2000 ≤ u && u ≤ 0x200a) ||
    [0x20, 0xa0, 0x1680, 0x2028, 0x2029, 0x202f, 0x205f, 0x3000, 0xfeff].contains u

/-- What the tracker does not take for text. A character outside the basic plane is none of it. -/
def isControl (char : JsString) : Bool :=
  match char with
  | [] => true
  | [u] => u < 0x20 || u == 0x7f
  | _ => false

structure PromptDraftSnapshot where
  text : JsString
  trusted : Bool
deriving DecidableEq, Repr

structure PromptDraftTracker where
  chars : List JsString
  cursor : ℕ
  trusted : Bool
deriving DecidableEq, Repr

/-- The cursor behind the characters before it that satisfy a test. -/
def backWhile (chars : List JsString) (test : JsString → Bool) : ℕ → ℕ
  | 0 => 0
  | cursor + 1 => if test (chars.getD cursor []) then backWhile chars test cursor else cursor + 1

namespace PromptDraftTracker

/-- `createPromptDraftTracker`, and `reset`. -/
def fresh : PromptDraftTracker := ⟨[], 0, true⟩

variable (t : PromptDraftTracker)

def snapshot : PromptDraftSnapshot := ⟨t.chars.flatten, t.trusted && t.cursor == t.chars.length⟩

def insert (value : JsString) : PromptDraftTracker :=
  { t with
    chars := t.chars.take t.cursor ++ codePoints value ++ t.chars.drop t.cursor
    cursor := t.cursor + (codePoints value).length }

def applyEdit : EditAction → PromptDraftTracker
  | .left => { t with cursor := t.cursor - 1 }
  | .right => { t with cursor := min t.chars.length (t.cursor + 1) }
  | .home => { t with cursor := 0 }
  | .lineEnd => { t with cursor := t.chars.length }
  | .delete => if t.cursor < t.chars.length then { t with chars := t.chars.eraseIdx t.cursor } else t

def backspace : PromptDraftTracker :=
  if 0 < t.cursor then { t with chars := t.chars.eraseIdx (t.cursor - 1), cursor := t.cursor - 1 } else t

def clearBefore : PromptDraftTracker := { t with chars := t.chars.drop t.cursor, cursor := 0 }

def deletePreviousWord : PromptDraftTracker :=
  let gap := backWhile t.chars (fun char => char.any isWhite) t.cursor
  let word := backWhile t.chars (fun char => !char.any isWhite) gap
  { t with chars := t.chars.take word ++ t.chars.drop t.cursor, cursor := word }

/-- A character that is no Enter; an unknown control is none that the tracker takes. -/
def key (char : JsString) : Option PromptDraftTracker :=
  if char = [0x7f] ∨ char = [0x08] then some t.backspace
  else if char = [0x15] then some t.clearBefore
  else if char = [0x17] then some t.deletePreviousWord
  else if isControl char then none
  else some (t.insert char)

/-- The loop of `feed`; every round takes something off the piece. -/
def typed : ℕ → PromptDraftTracker → JsString → PromptDraftTracker
  | 0, t, _ => t
  | rounds + 1, t, data =>
    if data = [] then t
    else
      match findEdit data with
      | some edit => typed rounds (t.applyEdit edit.2) (data.drop edit.1.length)
      | none =>
        let char := first data
        let rest := data.drop char.length
        if char = [0x0d] ∨ char = [0x0a] then typed rounds fresh rest
        else
          match t.key char with
          | some t => typed rounds t rest
          | none => { t with trusted := false }

/-- What stands between the brackets of a paste. -/
def pasted (data : JsString) : JsString :=
  (data.drop bracketedPasteStart.length).take
    (data.length - bracketedPasteStart.length - bracketedPasteEnd.length)

/-- A piece that is given to a trusted tracker. -/
def accept (data : JsString) : PromptDraftTracker :=
  if bracketedPasteStart.isPrefixOf data then
    if bracketedPasteEnd.isSuffixOf data then t.insert (pasted data) else { t with trusted := false }
  else typed data.length t data

/-- `data.slice(lastEnter + 1)`, if there is an Enter. -/
def afterEnter (data : JsString) : Option JsString :=
  if data.any isEnter then some (data.reverse.takeWhile fun u => !isEnter u).reverse else none

def feed (data : JsString) : PromptDraftTracker :=
  if data = [] then t
  else if t.trusted then t.accept data
  else
    match afterEnter data with
    | none => t
    | some rest => fresh.accept rest

end PromptDraftTracker

/-! ### What a string begins with -/

theorem editSequences_apart {edit other : JsString × EditAction} (listed : edit ∈ editSequences)
    (listed' : other ∈ editSequences) (begins : edit.1 <+: other.1) : edit = other := by
  have all : (editSequences.all fun edit => editSequences.all fun other =>
      !edit.1.isPrefixOf other.1 || edit == other) = true := by decide
  have here := List.all_eq_true.mp (List.all_eq_true.mp all edit listed) other listed'
  rw [List.isPrefixOf_iff_prefix.mpr begins] at here
  exact beq_iff_eq.mp here

theorem editSequences_brackets {edit : JsString × EditAction} (listed : edit ∈ editSequences)
    (rest : JsString) : ¬ edit.1 <+: bracketedPasteStart ++ rest ∧ ¬ edit.1 <+: bracketedPasteEnd ++ rest := by
  have all : (editSequences.all fun edit => edit.1.length ≤ 6 && !edit.1.isPrefixOf bracketedPasteStart &&
      !edit.1.isPrefixOf bracketedPasteEnd) = true := by decide
  have here := List.all_eq_true.mp all edit listed
  rw [Bool.and_eq_true, Bool.and_eq_true, Bool.not_eq_true', Bool.not_eq_true', decide_eq_true_iff] at here
  obtain ⟨⟨short, start⟩, stop⟩ := here
  constructor
  · intro begins
    have within := List.prefix_of_prefix_length_le begins (List.prefix_append _ rest) short
    rw [List.isPrefixOf_iff_prefix.mpr within] at start
    cases start
  · intro begins
    have within := List.prefix_of_prefix_length_le begins (List.prefix_append _ rest) short
    rw [List.isPrefixOf_iff_prefix.mpr within] at stop
    cases stop

theorem editSequences_head {edit : JsString × EditAction} (listed : edit ∈ editSequences) :
    ∃ tail, edit.1 = esc :: tail := by
  have all : (editSequences.all fun edit => edit.1.head? == some esc) = true := by decide
  have here := beq_iff_eq.mp (List.all_eq_true.mp all edit listed)
  exact ⟨edit.1.tail, List.eq_cons_of_mem_head? here⟩

theorem editSequences_quiet {edit : JsString × EditAction} (listed : edit ∈ editSequences) {u : UInt16}
    (inside : u ∈ edit.1) : isEnter u = false := by
  have all : (editSequences.all fun edit => edit.1.all fun u => !isEnter u) = true := by decide
  have here := List.all_eq_true.mp (List.all_eq_true.mp all edit listed) u inside
  exact (Bool.not_eq_true' _).mp here

/-- **The edit sequence that a string begins with is the only one.** -/
theorem findEdit_eq_some_iff {data : JsString} {edit : JsString × EditAction} :
    findEdit data = some edit ↔ edit ∈ editSequences ∧ edit.1 <+: data := by
  let begun : JsString × EditAction → Bool := fun edit => edit.1.isPrefixOf data
  constructor
  · intro found
    have begins : edit.1.isPrefixOf data = true := List.find?_some (p := begun) found
    exact ⟨List.mem_of_find?_eq_some found, List.isPrefixOf_iff_prefix.mp begins⟩
  · rintro ⟨listed, begins⟩
    have some : (editSequences.find? begun).isSome := List.find?_isSome.mpr
      ⟨edit, listed, List.isPrefixOf_iff_prefix.mpr begins⟩
    obtain ⟨other, found⟩ := Option.isSome_iff_exists.mp some
    have listed' := List.mem_of_find?_eq_some found
    have hit : other.1.isPrefixOf data = true := List.find?_some (p := begun) found
    have begins' := List.isPrefixOf_iff_prefix.mp hit
    rw [findEdit, found]
    rcases List.prefix_or_prefix_of_prefix begins begins' with shorter | longer
    · rw [editSequences_apart listed listed' shorter]
    · rw [editSequences_apart listed' listed longer]

/-- **The character that a string begins with** is a surrogate pair or one unit. -/
theorem first_cons (u : UInt16) (rest : JsString) :
    (∃ v tail, rest = v :: tail ∧ isHighSurrogate u = true ∧ isLowSurrogate v = true ∧
      first (u :: rest) = [u, v]) ∨
    ((∀ v ∈ rest.head?, ¬ (isHighSurrogate u = true ∧ isLowSurrogate v = true)) ∧ first (u :: rest) = [u]) := by
  cases rest with
  | nil => exact .inr ⟨nofun, rfl⟩
  | cons v tail =>
    rw [first, codePoints]
    by_cases pair : isHighSurrogate u && isLowSurrogate v
    · rw [if_pos pair]
      rw [Bool.and_eq_true] at pair
      exact .inl ⟨v, tail, rfl, pair.1, pair.2, rfl⟩
    · rw [if_neg pair]
      rw [Bool.and_eq_true] at pair
      refine .inr ⟨?_, rfl⟩
      rintro w ⟨⟩
      exact pair

theorem first_prefix (u : UInt16) (rest : JsString) : first (u :: rest) <+: u :: rest := by
  rcases first_cons u rest with ⟨v, tail, rfl, _, _, same⟩ | ⟨_, same⟩
  · exact ⟨tail, by rw [same]; rfl⟩
  · exact ⟨rest, by rw [same]; rfl⟩

end Atterm.Desktop
