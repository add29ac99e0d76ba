/-
**A draft does not depend on how its input is cut.**

While a tracker is trusted, its draft is what is read of the input behind the last Enter: edit sequences,
characters and pastes, each of them whole. A paste may hold an Enter, but what follows it in the paste ends
with a bracket that is nothing by itself; so two ways of cutting an input, if both are trusted in the end, go
back to the same Enter.

* `Token`, `Reads` — one thing that is read, and a string that is read to its end;
* `Reads.unique`, `Reads.append` — there is one way, and it goes on where a string ends;
* `trusted_draft_unique` — two ways of cutting an input.
-/

import Atterm.Desktop.PromptDraft

namespace Atterm.Desktop

open Atterm.Foundation
open PromptDraftTracker

/-! ### What is read of a string -/

/-- One thing is read: an edit sequence, a character that is no Enter, or a paste without escape characters. -/
inductive Token : PromptDraftTracker → JsString → PromptDraftTracker → JsString → Prop
  | edit (t : PromptDraftTracker) (edit : JsString × EditAction) (rest : JsString)
      (listed : edit ∈ editSequences) : Token t (edit.1 ++ rest) (t.applyEdit edit.2) rest
  | key (t t' : PromptDraftTracker) (char rest : JsString) (filled : char ≠ []) (begins : first (char ++ rest) = char)
      (plain : ∀ u ∈ char, isEnter u = false) (pressed : t.key char = some t') : Token t (char ++ rest) t' rest
  | paste (t : PromptDraftTracker) (content rest : JsString) (clean : esc ∉ content) :
      Token t (bracketedPasteStart ++ content ++ bracketedPasteEnd ++ rest) (t.insert content) rest

inductive Reads : PromptDraftTracker → JsString → PromptDraftTracker → Prop
  | done (t : PromptDraftTracker) : Reads t [] t
  | next {t t₁ t₂ : PromptDraftTracker} {data rest : JsString} (token : Token t data t₁ rest)
      (reads : Reads t₁ rest t₂) : Reads t data t₂

theorem key_esc (t : PromptDraftTracker) : t.key [esc] = none := by
  rw [key, if_neg (by decide), if_neg (by decide), if_neg (by decide), if_pos (by decide)]

theorem first_esc (rest : JsString) : first (esc :: rest) = [esc] := by
  rcases first_cons esc rest with ⟨v, tail, _, high, _⟩ | ⟨_, same⟩
  · exact absurd high (by decide)
  · exact same

theorem Token.key_head {t t' : PromptDraftTracker} {char rest : JsString} (filled : char ≠ [])
    (begins : first (char ++ rest) = char) (pressed : t.key char = some t') :
    ∃ u tail, char = u :: tail ∧ u ≠ esc := by
  cases char with
  | nil => exact absurd rfl filled
  | cons u tail =>
    refine ⟨u, tail, rfl, ?_⟩
    rintro rfl
    rw [List.cons_append, first_esc] at begins
    rw [← begins, key_esc] at pressed
    cases pressed

/-- No surrogate pair is cut where a string goes on. -/
def Whole (data more : JsString) : Prop :=
  (data.getLast?.any isHighSurrogate && more.head?.any isLowSurrogate) = false

instance (data more : JsString) : Decidable (Whole data more) := inferInstanceAs (Decidable (_ = false))

theorem whole_nil (more : JsString) : Whole [] more := rfl

theorem Whole.tail {char rest more : JsString} (whole : Whole (char ++ rest) more) : Whole rest more := by
  cases rest with
  | nil => exact whole_nil more
  | cons u rest =>
    rw [Whole, List.getLast?_append_of_ne_nil _ (List.cons_ne_nil u rest)] at whole
    exact whole

theorem first_append {u : UInt16} {rest more : JsString} (whole : Whole (u :: rest) more) :
    first (u :: (rest ++ more)) = first (u :: rest) := by
  cases rest with
  | nil =>
    rcases first_cons u more with ⟨v, tail, rfl, high, low, _⟩ | ⟨_, same⟩
    · have cut : (isHighSurrogate u && isLowSurrogate v) = false := whole
      rw [high, low] at cut
      cases cut
    · exact same
  | cons v tail =>
    rw [List.cons_append, first, first, codePoints, codePoints]
    split_ifs <;> rfl

/-- **What is read first does not depend on what follows.** -/
theorem Token.append {t t' : PromptDraftTracker} {data rest : JsString} (token : Token t data t' rest)
    (more : JsString) (whole : Whole data more) : Token t (data ++ more) t' (rest ++ more) := by
  cases token with
  | edit edit rest listed =>
    rw [List.append_assoc]
    exact .edit t edit _ listed
  | key t' char rest filled begins plain pressed =>
    rw [List.append_assoc]
    refine .key t t' char _ filled ?_ plain pressed
    cases char with
    | nil => exact absurd rfl filled
    | cons u tail =>
      rw [List.cons_append] at begins whole
      rw [List.cons_append, ← List.append_assoc, first_append whole, begins]
  | paste content rest clean =>
    rw [List.append_assoc]
    exact .paste t content _ clean

theorem Token.begins {t t' : PromptDraftTracker} {data rest : JsString} (token : Token t data t' rest) :
    ∃ char, data = char ++ rest := by
  cases token with
  | edit edit rest _ => exact ⟨edit.1, rfl⟩
  | key _ char _ _ _ _ _ => exact ⟨char, rfl⟩
  | paste content rest _ => exact ⟨_, rfl⟩

/-- **Readings are put together** where no surrogate pair is cut. -/
theorem Reads.append {t t₁ t₂ : PromptDraftTracker} {data more : JsString} (reads : Reads t data t₁)
    (goes : Reads t₁ more t₂) (whole : Whole data more) : Reads t (data ++ more) t₂ := by
  induction reads with
  | done t => exact goes
  | @next t t' t₁ data rest token reads ih =>
    obtain ⟨char, same⟩ := token.begins
    exact .next (token.append more whole) (ih goes (Whole.tail (same ▸ whole)))

theorem content_unique {content content' rest rest' : JsString} (clean : esc ∉ content)
    (clean' : esc ∉ content') (same : content ++ esc :: rest = content' ++ esc :: rest') :
    content = content' ∧ rest = rest' := by
  have before (content rest : JsString) (clean : esc ∉ content) :
      (content ++ esc :: rest).takeWhile (· != esc) = content := by
    rw [List.takeWhile_append_of_pos fun u inside => bne_iff_ne.mpr (ne_of_mem_of_not_mem inside clean)]
    simp
  have contents : content = content' := by
    rw [← before content rest clean, same, before content' rest' clean']
  subst contents
  exact ⟨rfl, (List.cons.inj (List.append_cancel_left same)).2⟩

theorem Token.of_plain {t t' : PromptDraftTracker} {u : UInt16} {data rest : JsString} (plain : u ≠ esc)
    (token : Token t (u :: data) t' rest) :
    u :: data = first (u :: data) ++ rest ∧ t.key (first (u :: data)) = some t' ∧
      ∀ v ∈ first (u :: data), isEnter v = false := by
  generalize shape : u :: data = whole at token
  cases token with
  | edit edit rest listed =>
    obtain ⟨tail, begins⟩ := editSequences_head listed
    rw [begins] at shape
    exact absurd (List.cons.inj shape).1 plain
  | key t' char rest filled begins quiet pressed =>
    rw [begins]
    exact ⟨rfl, pressed, quiet⟩
  | paste content rest clean => exact absurd (List.cons.inj shape).1 plain

theorem Token.of_esc {t t' : PromptDraftTracker} {data rest : JsString}
    (token : Token t (esc :: data) t' rest) :
    (∃ edit ∈ editSequences, esc :: data = edit.1 ++ rest ∧ t' = t.applyEdit edit.2) ∨
      ∃ content, esc ∉ content ∧ t' = t.insert content ∧
        esc :: data = bracketedPasteStart ++ content ++ bracketedPasteEnd ++ rest := by
  generalize shape : esc :: data = whole at token
  cases token with
  | edit edit rest listed => exact .inl ⟨edit, listed, rfl, rfl⟩
  | key t' char rest filled begins quiet pressed =>
    obtain ⟨u, tail, rfl, plain⟩ := Token.key_head filled begins pressed
    exact absurd (List.cons.inj shape).1.symm plain
  | paste content rest clean => exact .inr ⟨content, clean, rfl, rfl⟩

theorem Token.cons {t t' : PromptDraftTracker} {data rest : JsString} (token : Token t data t' rest) :
    ∃ u tail, data = u :: tail := by
  cases token with
  | edit edit rest listed =>
    obtain ⟨tail, begins⟩ := editSequences_head listed
    exact ⟨esc, tail ++ rest, by rw [begins]; rfl⟩
  | key t' char rest filled begins quiet pressed =>
    obtain ⟨u, tail, rfl, _⟩ := Token.key_head filled begins pressed
    exact ⟨u, tail ++ rest, rfl⟩
  | paste content rest clean => exact ⟨esc, _, rfl⟩

/-- **One thing is read in one way.** -/
theorem Token.unique {t t₁ t₂ : PromptDraftTracker} {data rest₁ rest₂ : JsString}
    (one : Token t data t₁ rest₁) (two : Token t data t₂ rest₂) : t₁ = t₂ ∧ rest₁ = rest₂ := by
  obtain ⟨u, tail, rfl⟩ := one.cons
  by_cases head : u = esc
  · subst head
    rcases one.of_esc with ⟨edit, listed, shape, rfl⟩ | ⟨content, clean, rfl, shape⟩ <;>
      rcases two.of_esc with ⟨other, listed', shape', rfl⟩ | ⟨content', clean', rfl, shape'⟩
    · have same : edit = other := by
        rcases List.prefix_or_prefix_of_prefix ⟨rest₁, shape.symm⟩ ⟨rest₂, shape'.symm⟩ with shorter | longer
        · exact editSequences_apart listed listed' shorter
        · exact (editSequences_apart listed' listed longer).symm
      subst same
      exact ⟨rfl, List.append_cancel_left (shape.symm.trans shape')⟩
    · refine absurd ?_ (editSequences_brackets listed (content' ++ bracketedPasteEnd ++ rest₂)).1
      exact ⟨rest₁, by rw [← shape, shape', List.append_assoc, List.append_assoc, List.append_assoc]⟩
    · refine absurd ?_ (editSequences_brackets listed' (content ++ bracketedPasteEnd ++ rest₁)).1
      exact ⟨rest₂, by rw [← shape', shape, List.append_assoc, List.append_assoc, List.append_assoc]⟩
    · rw [shape, List.append_assoc, List.append_assoc, List.append_assoc, List.append_assoc] at shape'
      obtain ⟨rfl, same⟩ := content_unique clean clean' (List.append_cancel_left shape')
      have ends : bracketedPasteEnd.tail ++ rest₁ = bracketedPasteEnd.tail ++ rest₂ := same
      exact ⟨rfl, List.append_cancel_left ends⟩
  · obtain ⟨shape, pressed, _⟩ := one.of_plain head
    obtain ⟨shape', pressed', _⟩ := two.of_plain head
    rw [pressed, Option.some.injEq] at pressed'
    exact ⟨pressed', List.append_cancel_left (shape.symm.trans shape')⟩

/-- **A string is read in one way.** -/
theorem Reads.unique {t t₁ t₂ : PromptDraftTracker} {data : JsString} (one : Reads t data t₁)
    (two : Reads t data t₂) : t₁ = t₂ := by
  induction one with
  | done t =>
    cases two with
    | done => rfl
    | next token _ =>
      obtain ⟨u, tail, none⟩ := token.cons
      cases none
  | next token reads ih =>
    cases two with
    | done =>
      obtain ⟨u, tail, none⟩ := token.cons
      cases none
    | next token' reads' =>
      obtain ⟨rfl, rfl⟩ := token.unique token'
      exact ih reads'

/-! ### What stands behind an Enter -/

/-- **The end of a paste is not read by itself.** -/
theorem not_reads_end {t t' : PromptDraftTracker} {content rest : JsString} (clean : esc ∉ content) :
    ¬ Reads t (content ++ bracketedPasteEnd ++ rest) t' := by
  intro reads
  generalize shape : content ++ bracketedPasteEnd ++ rest = data at reads
  induction reads generalizing content with
  | done t =>
    have ended := (List.append_eq_nil_iff.mp (List.append_eq_nil_iff.mp shape).1).2
    cases ended
  | @next t t₁ t₂ data left token reads ih =>
    cases content with
    | nil =>
      rw [List.nil_append] at shape
      rw [← shape] at token
      rcases token.of_esc with ⟨edit, listed, begins, _⟩ | ⟨content, _, _, begins⟩
      · exact (editSequences_brackets listed rest).2 ⟨left, begins.symm⟩
      · cases begins
    | cons u content =>
      rw [List.mem_cons, not_or] at clean
      have shape' : u :: (content ++ bracketedPasteEnd ++ rest) = data := shape
      rw [← shape'] at token
      obtain ⟨begins, _, _⟩ := token.of_plain (Ne.symm clean.1)
      rcases first_cons u (content ++ bracketedPasteEnd ++ rest) with
        ⟨v, tail, pair, _, low, same⟩ | ⟨_, same⟩
      · rw [same] at begins
        cases content with
        | nil =>
          obtain rfl := (List.cons.inj pair).1
          exact absurd low (by decide)
        | cons w content =>
          refine ih (fun inside => clean.2 (List.mem_cons_of_mem _ inside)) ?_
          exact (List.cons.inj (List.cons.inj begins).2).2
      · rw [same] at begins
        exact ih clean.2 (List.cons.inj begins).2

theorem bracketedPasteEnd_quiet {u : UInt16} (inside : u ∈ bracketedPasteEnd) : isEnter u = false := by
  have all : (bracketedPasteEnd.all fun u => !isEnter u) = true := by decide
  exact (Bool.not_eq_true' _).mp (List.all_eq_true.mp all u inside)

theorem split_enter {before data head rest : JsString} {e : UInt16} (last : before.getLast? = some e)
    (enter : isEnter e = true) (shape : before ++ data = head ++ rest)
    (ends : ∀ u ∈ head.getLast?, isEnter u = false) :
    (∃ more, before = head ++ more ∧ rest = more ++ data ∧ more.getLast? = some e) ∨
      ∃ more, head = before ++ more ∧ data = more ++ rest := by
  rcases List.append_eq_append_iff.mp shape with ⟨more, begins, goes⟩ | ⟨more, begins, goes⟩
  · exact .inr ⟨more, begins, goes⟩
  · refine .inl ⟨more, begins, goes, ?_⟩
    cases more with
    | nil =>
      rw [List.append_nil] at begins
      rw [begins] at last
      rw [ends e last] at enter
      cases enter
    | cons u more =>
      rw [begins, List.getLast?_append_of_ne_nil _ (List.cons_ne_nil u more)] at last
      exact last

theorem split_paste {content before more : JsString} {e : UInt16} (clean : esc ∉ content)
    (last : before.getLast? = some e) (enter : isEnter e = true)
    (shape : bracketedPasteStart ++ content ++ bracketedPasteEnd = before ++ more) :
    ∃ left, esc ∉ left ∧ more = left ++ bracketedPasteEnd := by
  rcases List.append_eq_append_iff.mp shape with ⟨left, begins, goes⟩ | ⟨left, begins, goes⟩
  · refine ⟨[], List.not_mem_nil, ?_⟩
    cases left with
    | nil => exact goes.symm
    | cons u left =>
      rw [begins, List.getLast?_append_of_ne_nil _ (List.cons_ne_nil u left)] at last
      have quiet := bracketedPasteEnd_quiet (goes ▸ List.mem_append_left _ (List.mem_of_getLast? last))
      rw [quiet] at enter
      cases enter
  · refine ⟨left, fun inside => ?_, goes⟩
    cases before with
    | nil => cases last
    | cons u before =>
      -- The bracket's own escape character stands first, before what is left.
      have behind : bracketedPasteStart.tail ++ content = before ++ left := (List.cons.inj begins).2
      have among : esc ∈ bracketedPasteStart.tail ++ content := behind ▸ List.mem_append_right _ inside
      rcases List.mem_append.mp among with bracket | content
      · exact absurd bracket (by decide)
      · exact clean content

/-- **What is read from before an Enter is not read from behind it.** Only a paste holds the Enter, and its
end is left over. -/
theorem Reads.not_behind {t t₁ t' t₂ : PromptDraftTracker} {before data : JsString} {e : UInt16}
    (reads : Reads t (before ++ data) t₁) (last : before.getLast? = some e) (enter : isEnter e = true) :
    ¬ Reads t' data t₂ := by
  generalize shape : before ++ data = whole at reads
  induction reads generalizing before with
  | done t =>
    obtain ⟨rfl, _⟩ := List.append_eq_nil_iff.mp shape
    cases last
  | @next t t₁ _ whole rest token reads ih =>
    have inside : e ∈ before := List.mem_of_getLast? last
    have quiet {char : JsString} (begins : whole = char ++ rest) (plain : ∀ u ∈ char, isEnter u = false) :
        ¬ Reads t' data t₂ := by
      rcases split_enter last enter (shape.trans begins) fun u last => plain u (List.mem_of_getLast? last)
        with ⟨more, _, goes, last'⟩ | ⟨more, within, _⟩
      · exact ih last' goes.symm
      · have none := plain e (within ▸ List.mem_append_left _ inside)
        rw [none] at enter
        cases enter
    cases token with
    | edit edit rest listed => exact quiet rfl fun u inside => editSequences_quiet listed inside
    | key t' char rest filled begins plain pressed => exact quiet rfl plain
    | paste content rest clean =>
      have ends : ∀ u ∈ (bracketedPasteStart ++ content ++ bracketedPasteEnd).getLast?, isEnter u = false := by
        intro u last
        rw [List.getLast?_append_of_ne_nil _ (by decide)] at last
        exact bracketedPasteEnd_quiet (List.mem_of_getLast? last)
      rcases split_enter last enter shape ends with ⟨more, _, goes, last'⟩ | ⟨more, within, rfl⟩
      · exact ih last' goes.symm
      · obtain ⟨left, clean', rfl⟩ := split_paste clean last enter within
        exact not_reads_end clean'

/-! ### What the tracker does is a reading -/

/-- A tracker stands behind the last Enter of what it was fed, and has read what follows. -/
def Behind (consumed : JsString) (t : PromptDraftTracker) : Prop :=
  ∃ before data, consumed = before ++ data ∧ (before = [] ∨ ∃ e ∈ before.getLast?, isEnter e = true) ∧
    Reads fresh data t

theorem surrogate_plain {u : UInt16} (half : isHighSurrogate u = true ∨ isLowSurrogate u = true) :
    isEnter u = false ∧ u ≠ esc := by
  constructor
  · rw [← Bool.not_eq_true]
    intro enter
    rw [isEnter, Bool.or_eq_true, beq_iff_eq, beq_iff_eq] at enter
    rcases enter with rfl | rfl
    · exact absurd half (by decide)
    · exact absurd half (by decide)
  · rintro rfl
    exact absurd half (by decide)

theorem first_quiet {u : UInt16} {tail : JsString}
    (plain : ¬ (first (u :: tail) = [0x0d] ∨ first (u :: tail) = [0x0a])) :
    first (u :: tail) ≠ [] ∧ ∀ v ∈ first (u :: tail), isEnter v = false := by
  rcases first_cons u tail with ⟨v, rest, _, high, low, same⟩ | ⟨_, same⟩
  · rw [same]
    refine ⟨List.cons_ne_nil _ _, fun w inside => ?_⟩
    rcases List.mem_pair.mp inside with rfl | rfl
    · exact (surrogate_plain (.inl high)).1
    · exact (surrogate_plain (.inr low)).1
  · rw [same] at plain ⊢
    refine ⟨List.cons_ne_nil _ _, fun w inside => ?_⟩
    obtain rfl := List.mem_singleton.mp inside
    rw [isEnter, Bool.or_eq_false_iff, beq_eq_false_iff_ne, beq_eq_false_iff_ne]
    exact ⟨fun enter => plain (.inl (congrArg ([·]) enter)), fun enter => plain (.inr (congrArg ([·]) enter))⟩

/-- **One round of the loop**: something is read, an Enter is passed, or the trust is lost. -/
theorem typed_cases (n : ℕ) (t : PromptDraftTracker) (u : UInt16) (tail : JsString) :
    (∃ t' rest, Token t (u :: tail) t' rest ∧ rest.length ≤ tail.length ∧
        typed (n + 1) t (u :: tail) = typed n t' rest) ∨
      (isEnter u = true ∧ typed (n + 1) t (u :: tail) = typed n fresh tail) ∨
      (typed (n + 1) t (u :: tail)).trusted = false := by
  rw [typed, if_neg (List.cons_ne_nil u tail)]
  cases found : findEdit (u :: tail) with
  | some edit =>
    obtain ⟨listed, rest, begins⟩ := findEdit_eq_some_iff.mp found
    obtain ⟨more, shape⟩ := editSequences_head listed
    have left : (u :: tail).drop edit.1.length = rest := by
      rw [← begins, List.drop_left]
    refine .inl ⟨t.applyEdit edit.2, rest, begins ▸ .edit t edit rest listed, ?_, ?_⟩
    · have lengths := congrArg List.length begins
      rw [shape, List.length_append, List.length_cons, List.length_cons] at lengths
      omega
    · dsimp only
      rw [left]
  | none =>
    dsimp only
    obtain ⟨rest, begins⟩ := first_prefix u tail
    have left : (u :: tail).drop (first (u :: tail)).length = rest := by
      have dropped : (first (u :: tail) ++ rest).drop (first (u :: tail)).length = rest := List.drop_left
      rwa [begins] at dropped
    by_cases enter : first (u :: tail) = [0x0d] ∨ first (u :: tail) = [0x0a]
    · rw [if_pos enter, left]
      rcases enter with same | same
      · rw [same] at begins
        obtain ⟨rfl, rfl⟩ := List.cons.inj begins
        exact .inr (.inl ⟨rfl, rfl⟩)
      · rw [same] at begins
        obtain ⟨rfl, rfl⟩ := List.cons.inj begins
        exact .inr (.inl ⟨rfl, rfl⟩)
    · rw [if_neg enter, left]
      cases pressed : t.key (first (u :: tail)) with
      | none => exact .inr (.inr rfl)
      | some t' =>
        obtain ⟨filled, quiet⟩ := first_quiet enter
        refine .inl ⟨t', rest, ?_, ?_, rfl⟩
        · have token := Token.key t t' (first (u :: tail)) rest filled (by rw [begins]) quiet pressed
          rwa [begins] at token
        · have lengths := congrArg List.length begins
          have some := List.length_pos_iff.mpr filled
          rw [List.length_append, List.length_cons] at lengths
          omega

/-- **The loop reads the piece**, or what of it stands behind an Enter. -/
theorem typed_reads {n : ℕ} {t : PromptDraftTracker} {data : JsString} (enough : data.length ≤ n)
    (trusted : (typed n t data).trusted = true) :
    Reads t data (typed n t data) ∨ ∃ before e rest, data = before ++ e :: rest ∧ isEnter e = true ∧
      Reads fresh rest (typed n t data) := by
  induction n generalizing t data with
  | zero =>
    obtain rfl := List.eq_nil_of_length_eq_zero (Nat.le_zero.mp enough)
    exact .inl (.done t)
  | succ n ih =>
    cases data with
    | nil => exact .inl (.done t)
    | cons u tail =>
      rw [List.length_cons] at enough
      rcases typed_cases n t u tail with ⟨t', rest, token, shorter, goes⟩ | ⟨enter, goes⟩ | lost
      · rw [goes] at trusted ⊢
        rcases ih (by omega) trusted with reads | ⟨before, e, behind, rfl, enter, reads⟩
        · exact .inl (.next token reads)
        · obtain ⟨char, shape⟩ := token.begins
          exact .inr ⟨char ++ before, e, behind, by rw [shape, List.append_assoc], enter, reads⟩
      · rw [goes] at trusted ⊢
        rcases ih (by omega) trusted with reads | ⟨before, e, behind, rfl, enter', reads⟩
        · exact .inr ⟨[], u, tail, rfl, enter, reads⟩
        · exact .inr ⟨u :: before, e, behind, rfl, enter', reads⟩
      · rw [lost] at trusted
        cases trusted

def pasteOf (t : PromptDraftTracker) (data : JsString) : Option JsString :=
  (if t.trusted then some data else afterEnter data).bind fun data =>
    if bracketedPasteStart.isPrefixOf data && bracketedPasteEnd.isSuffixOf data then some (pasted data)
    else none

theorem pasted_eq {data : JsString} (start : bracketedPasteStart <+: data) (stop : bracketedPasteEnd <:+ data) :
    data = bracketedPasteStart ++ pasted data ++ bracketedPasteEnd := by
  obtain ⟨rest, rfl⟩ := start
  have ends : bracketedPasteEnd <:+ rest := by
    rcases List.suffix_or_suffix_of_suffix stop (List.suffix_append _ rest) with apart | ⟨shared, overlap⟩
    · exact apart
    · -- The brackets share no part, since each has one escape character and it stands first.
      cases shared with
      | nil => exact overlap ▸ List.suffix_refl rest
      | cons u shared =>
        obtain ⟨before, whole⟩ := stop
        rw [← overlap, ← List.append_assoc] at whole
        have split : before ++ u :: shared = bracketedPasteStart := List.append_cancel_right whole
        obtain rfl : u = esc := (List.cons.inj overlap).1
        cases before with
        | nil =>
          have begins : bracketedPasteStart <+: bracketedPasteEnd := ⟨rest, by rw [← split]; exact overlap⟩
          exact absurd begins (by decide)
        | cons v before =>
          have inside : before ++ esc :: shared = bracketedPasteStart.tail := congrArg List.tail split
          have among : esc ∈ bracketedPasteStart.tail :=
            inside ▸ List.mem_append_right _ List.mem_cons_self
          exact absurd among (by decide)
  obtain ⟨content, rfl⟩ := ends
  have length : (bracketedPasteStart ++ (content ++ bracketedPasteEnd)).length - bracketedPasteStart.length -
      bracketedPasteEnd.length = content.length := by
    rw [List.length_append, List.length_append]
    omega
  rw [pasted, length, List.drop_left, List.take_left, List.append_assoc]

/-- **A piece is read**, or what of it stands behind an Enter, if a paste has no escape characters in it. -/
theorem accept_reads {t : PromptDraftTracker} {data : JsString}
    (clean : bracketedPasteStart <+: data → bracketedPasteEnd <:+ data → esc ∉ pasted data)
    (trusted : (t.accept data).trusted = true) :
    Reads t data (t.accept data) ∨ ∃ before e rest, data = before ++ e :: rest ∧ isEnter e = true ∧
      Reads fresh rest (t.accept data) := by
  rw [accept] at trusted ⊢
  split_ifs with start stop
  · rw [List.isPrefixOf_iff_prefix] at start
    rw [List.isSuffixOf_iff_suffix] at stop
    have token := Token.paste t (pasted data) [] (clean start stop)
    rw [List.append_nil, ← pasted_eq start stop] at token
    exact .inl (.next token (.done _))
  · rw [if_pos start, if_neg stop] at trusted
    cases trusted
  · rw [if_neg start] at trusted
    exact typed_reads le_rfl trusted

theorem afterEnter_eq_some {data rest : JsString} (found : afterEnter data = some rest) :
    ∃ before e, data = before ++ e :: rest ∧ isEnter e = true := by
  rw [afterEnter] at found
  split_ifs at found with some
  cases found
  have halves := List.takeWhile_append_dropWhile (p := fun u => !isEnter u) (l := data.reverse)
  have head := List.head?_dropWhile_not (fun u => !isEnter u) data.reverse
  cases shape : data.reverse.dropWhile fun u => !isEnter u with
  | nil =>
    rw [List.dropWhile_eq_nil_iff] at shape
    obtain ⟨u, inside, enter⟩ := List.any_eq_true.mp some
    have quiet := shape u (List.mem_reverse.mpr inside)
    rw [enter] at quiet
    cases quiet
  | cons e before =>
    rw [shape] at head halves
    refine ⟨before.reverse, e, ?_, (Bool.not_eq_false' _).mp head⟩
    have back := congrArg List.reverse halves
    rw [List.reverse_reverse, List.reverse_append, List.reverse_cons, List.append_assoc] at back
    exact back.symm

/-- **Each piece is read**, unless a paste has an escape character in it or a surrogate pair is cut. -/
theorem feed_behind {consumed data : JsString} {t : PromptDraftTracker}
    (behind : t.trusted = true → Behind consumed t) (clean : ∀ content ∈ pasteOf t data, esc ∉ content)
    (whole : t.trusted = true → Whole consumed data) (trusted : (t.feed data).trusted = true) :
    Behind (consumed ++ data) (t.feed data) := by
  rw [feed] at trusted ⊢
  by_cases empty : data = []
  · rw [if_pos empty] at trusted ⊢
    rw [empty, List.append_nil]
    exact behind trusted
  · rw [if_neg empty] at trusted ⊢
    by_cases on : t.trusted = true
    · rw [if_pos on] at trusted ⊢
      rw [pasteOf, if_pos on, Option.bind_some] at clean
      have safe (start : bracketedPasteStart <+: data) (stop : bracketedPasteEnd <:+ data) :
          esc ∉ pasted data := by
        refine clean _ (if_pos ?_)
        rw [List.isPrefixOf_iff_prefix.mpr start, List.isSuffixOf_iff_suffix.mpr stop]
        rfl
      obtain ⟨before, held, rfl, enter, reads⟩ := behind on
      rcases accept_reads safe trusted with goes | ⟨passed, e, rest, rfl, enter', goes⟩
      · exact ⟨before, held ++ data, List.append_assoc _ _ _, enter, reads.append goes (whole on).tail⟩
      · refine ⟨before ++ held ++ passed ++ [e], rest, ?_, .inr ⟨e, ?_, enter'⟩, goes⟩
        · simp only [List.append_assoc, List.cons_append, List.nil_append]
        · exact List.getLast?_concat
    · rw [if_neg on] at trusted ⊢
      cases found : afterEnter data with
      | none =>
        rw [found] at trusted
        exact absurd trusted on
      | some rest =>
        rw [found] at trusted
        dsimp only at trusted ⊢
        rw [pasteOf, if_neg on, found, Option.bind_some] at clean
        have safe (start : bracketedPasteStart <+: rest) (stop : bracketedPasteEnd <:+ rest) :
            esc ∉ pasted rest := by
          refine clean _ (if_pos ?_)
          rw [List.isPrefixOf_iff_prefix.mpr start, List.isSuffixOf_iff_suffix.mpr stop]
          rfl
        obtain ⟨passed, e, rfl, enter⟩ := afterEnter_eq_some found
        rcases accept_reads safe trusted with goes | ⟨more, e', left, rfl, enter', goes⟩
        · refine ⟨consumed ++ passed ++ [e], rest, ?_, .inr ⟨e, ?_, enter⟩, goes⟩
          · simp only [List.append_assoc, List.cons_append, List.nil_append]
          · exact List.getLast?_concat
        · refine ⟨consumed ++ passed ++ e :: more ++ [e'], left, ?_, .inr ⟨e', ?_, enter'⟩, goes⟩
          · simp only [List.append_assoc, List.cons_append, List.nil_append]
          · exact List.getLast?_concat

/-! ### No escape character is read -/

def Clean (t : PromptDraftTracker) : Prop := ∀ char ∈ t.chars, esc ∉ char

theorem Clean.insert {t : PromptDraftTracker} (clean : Clean t) {value : JsString} (plain : esc ∉ value) :
    Clean (t.insert value) := by
  intro char listed
  rw [PromptDraftTracker.insert, List.mem_append, List.mem_append] at listed
  rcases listed with (before | new) | behind
  · exact clean char (List.mem_of_mem_take before)
  · exact fun inside => plain (mem_of_mem_codePoints new inside)
  · exact clean char (List.mem_of_mem_drop behind)

theorem Clean.key {t t' : PromptDraftTracker} (clean : Clean t) {char : JsString} (plain : esc ∉ char)
    (pressed : t.key char = some t') : Clean t' := by
  rw [PromptDraftTracker.key] at pressed
  split_ifs at pressed
  · cases pressed
    rw [backspace]
    split_ifs
    · exact fun other listed => clean other (List.mem_of_mem_eraseIdx listed)
    · exact clean
  · cases pressed
    exact fun other listed => clean other (List.mem_of_mem_drop listed)
  · cases pressed
    intro other listed
    rcases List.mem_append.mp listed with before | behind
    · exact clean other (List.mem_of_mem_take before)
    · exact clean other (List.mem_of_mem_drop behind)
  · cases pressed
    exact clean.insert plain

theorem Token.clean {t t' : PromptDraftTracker} {data rest : JsString} (token : Token t data t' rest)
    (clean : Clean t) : Clean t' := by
  cases token with
  | edit edit rest listed =>
    cases edit.2 with
    | delete =>
      rw [applyEdit]
      split_ifs
      · exact fun other listed => clean other (List.mem_of_mem_eraseIdx listed)
      · exact clean
    | left => exact clean
    | right => exact clean
    | home => exact clean
    | lineEnd => exact clean
  | key t' char rest filled begins quiet pressed =>
    refine clean.key ?_ pressed
    obtain ⟨u, tail, rfl, plain⟩ := Token.key_head filled begins pressed
    rw [List.cons_append] at begins
    rcases first_cons u (tail ++ rest) with ⟨v, _, _, high, low, same⟩ | ⟨_, same⟩
    · rw [begins.symm.trans same, List.mem_pair, not_or]
      exact ⟨Ne.symm (surrogate_plain (.inl high)).2, Ne.symm (surrogate_plain (.inr low)).2⟩
    · rw [begins.symm.trans same, List.mem_singleton]
      exact Ne.symm plain
  | paste content rest plain => exact clean.insert plain

theorem Reads.clean {t t' : PromptDraftTracker} {data : JsString} (reads : Reads t data t')
    (clean : Clean t) : Clean t' := by
  induction reads with
  | done t => exact clean
  | next token reads ih => exact ih (token.clean clean)

/-! ### Two ways of cutting an input -/

/-- **A tracker is what its input makes it.** -/
theorem Behind.unique {consumed : JsString} {t t' : PromptDraftTracker} (one : Behind consumed t)
    (two : Behind consumed t') : t = t' := by
  obtain ⟨before, data, rfl, enter, reads⟩ := one
  obtain ⟨before', data', shape, enter', reads'⟩ := two
  -- If one goes back further, an Enter stands between the two places.
  have further {b d b' d' more : JsString} {t t' : PromptDraftTracker} (goes : b' = b ++ more)
      (same : d = more ++ d') (enter : b' = [] ∨ ∃ e ∈ b'.getLast?, isEnter e = true)
      (reads : Reads fresh d t) (reads' : Reads fresh d' t') : more = [] := by
    by_contra some
    rcases enter with none | ⟨e, last, enter⟩
    · exact some (List.append_eq_nil_iff.mp (goes ▸ none)).2
    · rw [goes, List.getLast?_append_of_ne_nil _ some] at last
      rw [same] at reads
      exact reads.not_behind last enter reads'
  rcases List.append_eq_append_iff.mp shape with ⟨more, goes, same⟩ | ⟨more, goes, same⟩
  · obtain rfl := further goes same enter' reads reads'
    rw [List.nil_append] at same
    subst same
    exact reads.unique reads'
  · obtain rfl := further goes same enter reads' reads
    rw [List.nil_append] at same
    subst same
    exact reads.unique reads'

/-- No piece is a paste with an escape character in it, and none begins within a surrogate pair while the
tracker is trusted. -/
def Careful : JsString → PromptDraftTracker → List JsString → Prop
  | _, _, [] => True
  | consumed, t, data :: later =>
    (∀ content ∈ pasteOf t data, esc ∉ content) ∧ (t.trusted = true → Whole consumed data) ∧
      Careful (consumed ++ data) (t.feed data) later

instance decidableCareful : ∀ (consumed : JsString) (t : PromptDraftTracker) (pieces : List JsString),
    Decidable (Careful consumed t pieces)
  | _, _, [] => .isTrue trivial
  | consumed, t, data :: later =>
    have := decidableCareful (consumed ++ data) (t.feed data) later
    inferInstanceAs (Decidable (_ ∧ _ ∧ _))

/-- **A run reads its input**, as long as it is careful. -/
theorem run_behind {consumed : JsString} {t : PromptDraftTracker} {pieces : List JsString}
    (careful : Careful consumed t pieces) (behind : t.trusted = true → Behind consumed t)
    (trusted : (pieces.foldl feed t).trusted = true) :
    Behind (consumed ++ pieces.flatten) (pieces.foldl feed t) := by
  induction pieces generalizing consumed t with
  | nil =>
    rw [List.flatten_nil, List.append_nil]
    exact behind trusted
  | cons data later ih =>
    obtain ⟨clean, whole, rest⟩ := careful
    rw [List.flatten_cons, ← List.append_assoc]
    exact ih rest (fun on => feed_behind behind clean whole on) trusted

/-- **A trusted draft does not depend on how its input was cut**, and has no escape character in it, where
the pieces are taken with care. -/
theorem trusted_draft_unique (pieces pieces' : List JsString) (same : pieces.flatten = pieces'.flatten)
    (careful : Careful [] fresh pieces) (careful' : Careful [] fresh pieces')
    (trusted : (pieces.foldl feed fresh).snapshot.trusted = true)
    (trusted' : (pieces'.foldl feed fresh).snapshot.trusted = true) :
    (pieces.foldl feed fresh).snapshot.text = (pieces'.foldl feed fresh).snapshot.text ∧
      esc ∉ (pieces.foldl feed fresh).snapshot.text := by
  have start : Behind [] fresh := ⟨[], [], rfl, .inl rfl, .done fresh⟩
  rw [snapshot, Bool.and_eq_true] at trusted trusted'
  have one := run_behind careful (fun _ => start) trusted.1
  have two := run_behind careful' (fun _ => start) trusted'.1
  rw [← same] at two
  refine ⟨congrArg (fun t => t.snapshot.text) (one.unique two), ?_⟩
  obtain ⟨_, _, _, _, reads⟩ := one
  intro inside
  obtain ⟨char, listed, within⟩ := List.mem_flatten.mp inside
  exact reads.clean nofun char listed within

def bracketed (text : JsString) : JsString := bracketedPasteStart ++ text ++ bracketedPasteEnd

/-- A paste, a typed letter that is deleted again and one more, in two pieces and in four. -/
theorem trusted_draft_unique_typed :
    ([bracketed [0x61], [0x62, 0x7f, 0x63]].foldl feed fresh).snapshot.text =
      ([bracketed [0x61], [0x62], [0x7f], [0x63]].foldl feed fresh).snapshot.text ∧
    esc ∉ ([bracketed [0x61], [0x62, 0x7f, 0x63]].foldl feed fresh).snapshot.text :=
  trusted_draft_unique [bracketed [0x61], [0x62, 0x7f, 0x63]] [bracketed [0x61], [0x62], [0x7f], [0x63]]
    (by decide) (by decide) (by decide) (by decide) (by decide)

/-- Two pastes in one piece are taken for one, with the brackets between them. -/
theorem trusted_draft_cut :
    ¬ ∀ pieces pieces' : List JsString, (∀ piece ∈ pieces, piece ≠ []) → (∀ piece ∈ pieces', piece ≠ []) →
        pieces.flatten = pieces'.flatten → (pieces.foldl feed fresh).snapshot.trusted = true →
        (pieces'.foldl feed fresh).snapshot.trusted = true →
        (pieces.foldl feed fresh).snapshot.text = (pieces'.foldl feed fresh).snapshot.text ∧
          esc ∉ (pieces.foldl feed fresh).snapshot.text := by
  intro claim
  have pasted := claim [bracketed [0x61] ++ bracketed [0x62]] [bracketed [0x61], bracketed [0x62]]
    (by decide) (by decide) (by decide) (by decide +kernel) (by decide +kernel)
  exact absurd pasted.1 (by decide +kernel)

/-- Of a surrogate pair that was cut, one half is deleted. -/
example : ([[0xd83d], [0xde00, 0x7f]].foldl feed fresh).snapshot = ⟨[0xd83d], true⟩ ∧
    ([[0xd83d, 0xde00, 0x7f]].foldl feed fresh).snapshot = ⟨[], true⟩ := by decide

end Atterm.Desktop
