/-
**Quoting a file name for the shell.**

The path of a pasted file is put on the command line of a local session. What consists of safe characters
only stays as it is, everything else goes into single quotes.

* `posixShellQuote` — the quoting;
* `readsAs_posixShellQuote` — what a shell reads of it;
* `posixShellQuote_exact` — one word, which is the string and stands for itself.
-/

import Atterm.Foundation.ShellWords

namespace Atterm.Desktop

open Atterm.Foundation Atterm.Foundation.Shell

/-- The characters of the pattern `SAFE`. -/
def isSafe (c : UInt16) : Bool :=
  (unit 'A' ≤ c && c ≤ unit 'Z') || (unit 'a' ≤ c && c ≤ unit 'z') || (unit '0' ≤ c && c ≤ unit '9') ||
    ['_', '@', '%', '+', '=', ':', ',', '.', '/', '-'].any (unit · == c)

def safe (s : JsString) : Bool := s != [] && s.all isSafe

/-- The string with `'\\''` for every single quote. -/
def escapeQuotes (s : JsString) : JsString :=
  s.flatMap fun c => if c = unit '\'' then units "'\\''" else [c]

def posixShellQuote (s : JsString) : JsString :=
  if s = [] then units "''"
  else if safe s then s
  else units "'" ++ escapeQuotes s ++ units "'"

/-- The paths of pasted files, as `dispatchPastedFile` pastes them. -/
def pastedPaths (paths : List JsString) : JsString := (units " ").intercalate (paths.map posixShellQuote)

/-- The symbols that a shell reads of a quoted string. -/
def symbolsOf (s : JsString) : Word :=
  if safe s then s.map fun c => ⟨c, false⟩ else s.map fun c => ⟨c, true⟩

/-- **A safe character means nothing to a shell.** -/
theorem ordinary_of_isSafe {c : UInt16} (safe : isSafe c = true) :
    Ordinary c ∧ expands c = false := by
  have other : ∀ d, isSafe d = false → c ≠ d := by
    rintro d outside rfl
    exact Bool.false_ne_true (outside.symm.trans safe)
  have none : ∀ chars : List Char, chars.all (fun d => !isSafe (unit d)) = true →
      chars.any (unit · == c) = false := by
    intro chars outside
    rw [List.any_eq_false]
    intro d listed same
    have apart := List.all_eq_true.mp outside d listed
    exact other _ (Bool.not_eq_true' _ ▸ apart) (beq_iff_eq.mp same).symm
  have blank : isBlank c = false := by
    rw [isBlank, beq_false_of_ne (other _ (by decide)), beq_false_of_ne (other _ (by decide))]
    rfl
  have starts : substitutes c = false := by
    rw [substitutes, beq_false_of_ne (other _ (by decide)), beq_false_of_ne (other _ (by decide))]
    rfl
  have operator : isOperator c = false :=
    none ['|', '&', ';', '<', '>', '(', ')', '\n'] (by decide)
  have pattern : expands c = false := none ['*', '?', '[', ']', '~', '{', '}'] (by decide)
  refine ⟨⟨blank, operator, other _ (by decide), starts, ?_⟩, pattern⟩
  exact ⟨other _ (by decide), other _ (by decide), other _ (by decide)⟩

theorem scan_escapeQuotes (s rest : JsString) : scan .single (escapeQuotes s ++ units "'" ++ rest) =
    (scan .bare rest).map (extend (s.map fun c => ⟨c, true⟩)) := by
  induction s with
  | nil => exact scan_single List.not_mem_nil rest
  | cons c s ih =>
    rw [escapeQuotes, List.flatMap_cons, ← escapeQuotes]
    by_cases quote : c = unit '\''
    · -- the quotes are closed, the character is read behind a backslash, and they are opened again
      rw [if_pos quote, quote]
      show scan .bare (unit '\\' :: unit '\'' :: unit '\'' :: (escapeQuotes s ++ units "'" ++ rest)) = _
      rw [scan_escaped_quote, scan_quote, ih, map_extend]
      rfl
    · rw [if_neg quote]
      show scan .single (c :: (escapeQuotes s ++ units "'" ++ rest)) = _
      rw [scan, if_neg quote, ih, map_extend]
      rfl

/-- **What a shell reads of a quoted string.** -/
theorem readsAs_posixShellQuote (s : JsString) : ReadsAs (posixShellQuote s) (symbolsOf s) where
  begins rest := by
    rw [posixShellQuote, symbolsOf]
    split_ifs with empty plain plain
    · rw [empty] at plain
      cases plain
    · rw [empty]
      exact (map_extend_nil (scan .bare rest)).symm
    · have ordinary : ∀ c ∈ s, isSafe c = true := by
        rw [safe, Bool.and_eq_true] at plain
        exact List.all_eq_true.mp plain.2
      obtain ⟨c, more, split⟩ := List.exists_cons_of_ne_nil empty
      obtain ⟨blank, _, hash, _, backslash, _⟩ :=
        (ordinary_of_isSafe (ordinary c (split ▸ List.mem_cons_self))).1
      rw [← scan_ordinary fun d inside => (ordinary_of_isSafe (ordinary d inside)).1, split,
        List.cons_append, scan_between blank hash backslash]
    · show scan .between (unit '\'' :: (escapeQuotes s ++ units "'" ++ rest)) = _
      rw [scan_between (by decide) (by decide) (by decide), scan_quote, scan_escapeQuotes]

theorem value_symbolsOf (s : JsString) : (symbolsOf s).value = s := by
  rw [symbolsOf, Word.value]
  split_ifs <;> simp [Function.comp_def]

theorem literal_symbolsOf (s : JsString) : (symbolsOf s).Literal := by
  rw [symbolsOf]
  split_ifs with plain
  · intro symbol inside _
    obtain ⟨c, listed, rfl⟩ := List.mem_map.mp inside
    rw [safe, Bool.and_eq_true] at plain
    exact (ordinary_of_isSafe (List.all_eq_true.mp plain.2 c listed)).2
  · intro symbol inside bare
    obtain ⟨c, _, rfl⟩ := List.mem_map.mp inside
    cases bare

/-- **The quoting is exact**: read as an argument, a quoted string is one word, and the word is the string
and stands for itself. -/
theorem posixShellQuote_exact (s : JsString) :
    ∃ word, arguments (posixShellQuote s) = .ok [word] ∧ word.value = s ∧ word.Literal :=
  ⟨symbolsOf s, (readsAs_posixShellQuote s).arguments, value_symbolsOf s, literal_symbolsOf s⟩

example : posixShellQuote (units "it's $HOME") = units "'it'\\''s $HOME'" := by decide

/-- **Each pasted path is one argument**, whatever the paths are. -/
theorem pastedPaths_exact (paths : List JsString) :
    ∃ words, arguments (pastedPaths paths) = .ok words ∧ words.map Word.value = paths ∧
      ∀ word ∈ words, word.Literal := by
  refine ⟨paths.map symbolsOf, arguments_join ?_, ?_, ?_⟩
  · rw [List.forall₂_map_left_iff, List.forall₂_map_right_iff]
    exact List.forall₂_same.mpr fun s _ => readsAs_posixShellQuote s
  · rw [List.map_map]
    exact (List.map_congr_left fun s _ => value_symbolsOf s).trans (List.map_id _)
  · intro word listed
    obtain ⟨s, _, rfl⟩ := List.mem_map.mp listed
    exact literal_symbolsOf s

end Atterm.Desktop
