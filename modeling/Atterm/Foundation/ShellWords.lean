/-
**How a shell reads arguments.**

The POSIX shell splits a text at blanks that are not quoted, and expands what is not quoted. A text is read
here as arguments and nothing else: an operator, a comment, or a `$` or backquote that is active is an
error, and for every character of a word it is noted whether it was quoted.

* `arguments` — the words of a text;
* `Word.Literal` — a word that stands for itself;
* `scan_ordinary`, `scan_single` — how unquoted and single-quoted texts are read.
-/

import Atterm.Foundation.Utf16

namespace Atterm.Foundation.Shell

structure Symbol where
  char : UInt16
  quoted : Bool
deriving DecidableEq, Repr

abbrev Word := List Symbol

def Word.value (w : Word) : JsString := w.map Symbol.char

inductive Trouble where
  | unterminated
  | operator
  | comment
  | substitution
deriving DecidableEq, Repr

def isBlank (c : UInt16) : Bool := c == unit ' ' || c == unit '\t'

/-- The characters of operators; a newline ends a command. -/
def isOperator (c : UInt16) : Bool := ['|', '&', ';', '<', '>', '(', ')', '\n'].any (unit · == c)

/-- What starts a parameter expansion, an arithmetic expansion or a command substitution. -/
def substitutes (c : UInt16) : Bool := c == unit '$' || c == unit '`'

/-- What an unquoted word is expanded for: patterns of pathnames, and the tilde. Braces are expanded by
some shells. A `=` or a `%` means something to a shell in assignments and within parameter expansions only. -/
def expands (c : UInt16) : Bool := ['*', '?', '[', ']', '~', '{', '}'].any (unit · == c)

/-- **A word that stands for itself**: what is not quoted is not expanded. -/
def Word.Literal (w : Word) : Prop := ∀ s ∈ w, s.quoted = false → expands s.char = false

/-- Where in a text the reading stands; behind a backslash it is known whether a word has begun. -/
inductive Mode where
  | between
  | bare
  | escaped (begun : Bool)
  | single
  | double
  | doubleEscaped
deriving DecidableEq, Repr

/-- More symbols at the start of the word that is being read; there is always one. -/
def extend (symbols : Word) : List Word → List Word
  | [] => []
  | w :: words => (symbols ++ w) :: words

/-- A character outside of quotes; `next` reads what follows. -/
def bareChar (c : UInt16) (begun : Bool) (next : Mode → Except Trouble (List Word)) :
    Except Trouble (List Word) :=
  if isBlank c then if begun then (next .between).map ([] :: ·) else next .between
  else if isOperator c then .error .operator
  else if c = unit '#' ∧ begun = false then .error .comment
  else if substitutes c then .error .substitution
  else if c = unit '\\' then next (.escaped begun)
  else if c = unit '\'' then next .single
  else if c = unit '"' then next .double
  else (next .bare).map (extend [⟨c, false⟩])

def doubleChar (c : UInt16) (next : Mode → Except Trouble (List Word)) : Except Trouble (List Word) :=
  if substitutes c then .error .substitution
  else if c = unit '\\' then next .doubleEscaped
  else if c = unit '"' then next .bare
  else (next .double).map (extend [⟨c, true⟩])

/-- A character behind a backslash; with a newline it is as if both were not there. -/
def escapedChar (c : UInt16) (begun : Bool) (next : Mode → Except Trouble (List Word)) :
    Except Trouble (List Word) :=
  if c = unit '\n' then next (if begun then .bare else .between)
  else (next .bare).map (extend [⟨c, true⟩])

/-- In double quotes a backslash stays before a character that has no need of it. -/
def doubleEscapedChar (c : UInt16) (next : Mode → Except Trouble (List Word)) :
    Except Trouble (List Word) :=
  if c = unit '\n' then next .double
  else if substitutes c ∨ c = unit '"' ∨ c = unit '\\' then (next .double).map (extend [⟨c, true⟩])
  else (next .double).map (extend [⟨unit '\\', true⟩, ⟨c, true⟩])

def scan : Mode → JsString → Except Trouble (List Word)
  | .between, [] => .ok []
  | .bare, [] => .ok [[]]
  | _, [] => .error .unterminated
  | .between, c :: rest => bareChar c false fun mode => scan mode rest
  | .bare, c :: rest => bareChar c true fun mode => scan mode rest
  | .escaped begun, c :: rest => escapedChar c begun fun mode => scan mode rest
  | .single, c :: rest =>
    if c = unit '\'' then scan .bare rest else (scan .single rest).map (extend [⟨c, true⟩])
  | .double, c :: rest => doubleChar c fun mode => scan mode rest
  | .doubleEscaped, c :: rest => doubleEscapedChar c fun mode => scan mode rest

def arguments (text : JsString) : Except Trouble (List Word) := scan .between text

/-! ### Joining what is read -/

@[simp] theorem extend_nil (words : List Word) : extend [] words = words := by
  cases words <;> rfl

@[simp] theorem extend_extend (first second : Word) (words : List Word) :
    extend first (extend second words) = extend (first ++ second) words := by
  cases words with
  | nil => rfl
  | cons w words => simp [extend]

theorem map_extend_nil (read : Except Trouble (List Word)) : read.map (extend []) = read := by
  cases read with
  | error e => rfl
  | ok words => exact congrArg Except.ok (extend_nil words)

theorem map_extend (first second : Word) (read : Except Trouble (List Word)) :
    (read.map (extend second)).map (extend first) = read.map (extend (first ++ second)) := by
  cases read with
  | error e => rfl
  | ok words => exact congrArg Except.ok (extend_extend first second words)

/-- A character that is just taken into the word. -/
def Ordinary (c : UInt16) : Prop :=
  isBlank c = false ∧ isOperator c = false ∧ c ≠ unit '#' ∧ substitutes c = false ∧ c ≠ unit '\\' ∧
    c ≠ unit '\'' ∧ c ≠ unit '"'

/-- **Unquoted text** is taken as it is. -/
theorem scan_ordinary {text : JsString} (ordinary : ∀ c ∈ text, Ordinary c) (rest : JsString) :
    scan .bare (text ++ rest) = (scan .bare rest).map (extend (text.map fun c => ⟨c, false⟩)) := by
  induction text with
  | nil => exact (map_extend_nil _).symm
  | cons c text ih =>
    obtain ⟨blank, operator, hash, substitutes, backslash, quote, doubleQuote⟩ :=
      ordinary c List.mem_cons_self
    have read := ih fun d inside => ordinary d (List.mem_cons_of_mem c inside)
    rw [List.cons_append, scan, bareChar]
    simp only [blank, operator, hash, substitutes, backslash, quote, doubleQuote, false_and, if_false,
      Bool.false_eq_true]
    rw [read, map_extend]
    rfl

/-- **Single-quoted text** is taken as it is, up to the next quote. -/
theorem scan_single {text : JsString} (plain : unit '\'' ∉ text) (rest : JsString) :
    scan .single (text ++ unit '\'' :: rest) =
      (scan .bare rest).map (extend (text.map fun c => ⟨c, true⟩)) := by
  induction text with
  | nil =>
    rw [List.nil_append, scan, if_pos rfl]
    exact (map_extend_nil _).symm
  | cons c text ih =>
    rw [List.mem_cons, not_or] at plain
    rw [List.cons_append, scan, if_neg (Ne.symm plain.1), ih plain.2, map_extend]
    rfl

theorem scan_quote (rest : JsString) : scan .bare (unit '\'' :: rest) = scan .single rest := rfl

theorem scan_escaped_quote (rest : JsString) :
    scan .bare (unit '\\' :: unit '\'' :: rest) = (scan .bare rest).map (extend [⟨unit '\'', true⟩]) :=
  rfl

/-- **A word begins** with what is neither a blank nor a comment. -/
theorem scan_between {c : UInt16} (blank : isBlank c = false) (hash : c ≠ unit '#')
    (backslash : c ≠ unit '\\') (rest : JsString) : scan .between (c :: rest) = scan .bare (c :: rest) := by
  rw [scan, scan, bareChar, bareChar]
  simp only [blank, hash, backslash, false_and, if_false, Bool.false_eq_true]

/-- A text that is read as one word, whatever follows it. -/
structure ReadsAs (text : JsString) (word : Word) : Prop where
  begins : ∀ rest, scan .between (text ++ rest) = (scan .bare rest).map (extend word)

theorem ReadsAs.arguments {text : JsString} {word : Word} (reads : ReadsAs text word) :
    arguments text = .ok [word] := by
  have all := reads.begins []
  rw [List.append_nil] at all
  rw [Shell.arguments, all]
  show Except.ok (extend word [[]]) = Except.ok [word]
  rw [extend, List.append_nil]

/-- **Texts that are words are read with blanks between them.** -/
theorem arguments_join {texts : List JsString} {words : List Word}
    (reads : List.Forall₂ ReadsAs texts words) :
    arguments ([unit ' '].intercalate texts) = .ok words := by
  induction reads with
  | nil => rfl
  | @cons text word texts words first others ih =>
    cases others with
    | nil =>
      rw [List.intercalate_singleton]
      exact first.arguments
    | @cons next read texts words second others =>
      rw [List.intercalate_cons_cons, List.append_assoc, arguments, first.begins,
        List.singleton_append, scan]
      show (((arguments _).map ([] :: ·)).map (extend word)) = _
      rw [ih]
      show Except.ok (extend word ([] :: read :: words)) = _
      rw [extend, List.append_nil]

end Atterm.Foundation.Shell
