/-
**The patterns of a Host line.**

A pattern is made of literal runes, `?` for one rune and `*` for any run of them. The matcher goes through
the alias once and returns to the last `*` when a rune does not fit.

* `globMatch`, `matchPatterns`, `parsePatterns` — the matcher, and a list of patterns with negated ones;
* `Glob` — what a pattern stands for;
* `globMatch_exact_iff` — exactly when the matcher is right about an alias.
-/

import Atterm.SSHConfig.Lines

namespace Atterm.SSHConfig

/-- One token of a Host line. -/
structure Pattern where
  negate : Bool
  text : List Char
deriving DecidableEq, Repr

def hostPatternHasWildcard (s : List Char) : Bool := s.any (fun c => c = '*' || c = '?')

def hasPositivePattern (patterns : List Pattern) : Bool := patterns.any (fun p => !p.negate)

def parsePatterns (rest : List Char) : List Pattern :=
  (splitFields rest).map fun f =>
    match f with
    | '!' :: text => ⟨true, text⟩
    | text => ⟨false, text⟩

def patternsText (patterns : List Pattern) : List Char :=
  if patterns = [] then "(empty Host line)".toList
  else [' '].intercalate (patterns.map fun p => if p.negate then '!' :: p.text else p.text)

/-! ### The matcher -/

/-- What is left of the pattern and of the alias, and for the last `*` the pattern behind it and the alias
from where it ends; lists stand for the indices into them. -/
structure Scan where
  p : List Char
  a : List Char
  star : Option (List Char × List Char)
deriving DecidableEq, Repr

/-- Back to the last `*`, which takes one rune more. -/
def Scan.back (s : Scan) : Option Scan :=
  s.star.map fun star => ⟨star.1, star.2.tail, some (star.1, star.2.tail)⟩

/-- One turn of the loop, with `c` before `rest` left of the alias; `none` where nothing fits. -/
def Scan.turn (s : Scan) (c : Char) (rest : List Char) : Option Scan :=
  match s.p with
  | q :: p =>
    if q = '?' ∨ q = c then some ⟨p, rest, s.star⟩
    else if q = '*' then some ⟨p, c :: rest, some (p, c :: rest)⟩
    else s.back
  | [] => s.back

def globLoop : ℕ → Scan → Bool
  | 0, _ => false
  | fuel + 1, s =>
    match s.a with
    | [] => s.p.all (· = '*')
    | c :: rest =>
      match s.turn c rest with
      | none => false
      | some next => globLoop fuel next

/-- The same turns, with `none` while there are some left to take. -/
def globRun : ℕ → Scan → Option Bool
  | 0, _ => none
  | fuel + 1, s =>
    match s.a with
    | [] => some (s.p.all (· = '*'))
    | c :: rest =>
      match s.turn c rest with
      | none => some false
      | some next => globRun fuel next

/-- The turns suffice: each one takes a rune of the pattern or moves the end of the last `*`. -/
def globMatch (pattern «alias» : List Char) : Bool :=
  globLoop ((«alias».length + 2) * (pattern.length + 1)) ⟨pattern, «alias», none⟩

def matchFrom («alias» : List Char) : Bool → List Pattern → Bool
  | matched, [] => matched
  | matched, p :: patterns =>
    if !globMatch p.text «alias» then matchFrom «alias» matched patterns
    else if p.negate then false
    else matchFrom «alias» true patterns

def matchPatterns (patterns : List Pattern) («alias» : List Char) : Bool :=
  matchFrom «alias» false patterns

/-! ### What a pattern stands for -/

inductive Glob : List Char → List Char → Prop
  | nil : Glob [] []
  | literal (c : Char) (p a : List Char) (rest : Glob p a) : Glob (c :: p) (c :: a)
  | one (c : Char) (p a : List Char) (rest : Glob p a) : Glob ('?' :: p) (c :: a)
  | star (p a left : List Char) (run : left <:+ a) (rest : Glob p left) : Glob ('*' :: p) a

theorem glob_star_iff (p a : List Char) : Glob ('*' :: p) a ↔ ∃ left, left <:+ a ∧ Glob p left := by
  constructor
  · intro glob
    cases glob with
    | literal _ _ left rest => exact ⟨left, List.suffix_cons _ _, rest⟩
    | star _ _ left run rest => exact ⟨left, run, rest⟩
  · rintro ⟨left, run, rest⟩
    exact .star _ _ _ run rest

theorem not_glob_cons_nil {q : Char} (plain : q ≠ '*') (p : List Char) : ¬Glob (q :: p) [] := by
  intro glob
  cases glob
  exact plain rfl

theorem glob_nil_iff (p : List Char) : Glob p [] ↔ p.all (· = '*') = true := by
  induction p with
  | nil => exact ⟨fun _ => rfl, fun _ => .nil⟩
  | cons q p ih =>
    by_cases star : q = '*'
    · subst star
      rw [glob_star_iff, List.all_cons, decide_eq_true rfl, Bool.true_and, ← ih]
      simp
    · simp [star, not_glob_cons_nil star p]

/-- A split in which a `*` of the pattern that comes to a `*` of the alias takes just that rune. -/
inductive EagerGlob : List Char → List Char → Prop
  | nil : EagerGlob [] []
  | literal (c : Char) (p a : List Char) (rest : EagerGlob p a) : EagerGlob (c :: p) (c :: a)
  | one (c : Char) (p a : List Char) (rest : EagerGlob p a) : EagerGlob ('?' :: p) (c :: a)
  | star (p a left : List Char) (other : a.head? ≠ some '*') (run : left <:+ a)
      (rest : EagerGlob p left) : EagerGlob ('*' :: p) a

/-- A rune of the pattern that takes a rune of the alias, as a character of the same place. -/
def Fits (q c : Char) : Prop := q = '?' ∨ q = c

theorem Fits.star {c : Char} (fits : Fits '*' c) : c = '*' := by
  rcases fits with wrong | same
  · exact absurd wrong (by decide)
  · exact same.symm

theorem EagerGlob.glob {p a : List Char} (eager : EagerGlob p a) : Glob p a := by
  induction eager with
  | nil => exact .nil
  | literal c p a _ ih => exact .literal c p a ih
  | one c p a _ ih => exact .one c p a ih
  | star p a left _ run _ ih => exact .star p a left run ih

theorem Glob.eager {p a : List Char} (glob : Glob p a) (plain : '*' ∉ a) : EagerGlob p a := by
  induction glob with
  | nil => exact .nil
  | literal c p a _ ih => exact .literal c p a (ih fun inside => plain (List.mem_cons_of_mem c inside))
  | one c p a _ ih => exact .one c p a (ih fun inside => plain (List.mem_cons_of_mem c inside))
  | star p a left run _ ih =>
    refine .star p a left (fun first => plain ?_) run (ih fun inside => plain (run.mem inside))
    exact List.mem_of_mem_head? (Option.mem_def.mpr first)

theorem eagerGlob_fits_iff {q c : Char} (fits : Fits q c) (p a : List Char) :
    EagerGlob (q :: p) (c :: a) ↔ EagerGlob p a := by
  constructor
  · intro eager
    cases eager with
    | literal _ _ _ rest => exact rest
    | one _ _ _ rest => exact rest
    | star _ _ _ other _ _ => exact absurd (congrArg some fits.star) other
  · intro rest
    rcases fits with rfl | rfl
    · exact .one _ _ _ rest
    · exact .literal _ _ _ rest

theorem not_eagerGlob_cons {q c : Char} (plain : q ≠ '*') (other : ¬Fits q c) (p a : List Char) :
    ¬EagerGlob (q :: p) (c :: a) := by
  intro eager
  cases eager with
  | literal => exact other (.inr rfl)
  | one => exact other (.inl rfl)
  | star => exact plain rfl

theorem eagerGlob_star_iff {a : List Char} (other : a.head? ≠ some '*') (p : List Char) :
    EagerGlob ('*' :: p) a ↔ ∃ left, left <:+ a ∧ EagerGlob p left := by
  constructor
  · intro eager
    cases eager with
    | literal => exact absurd rfl other
    | star _ _ left _ run rest => exact ⟨left, run, rest⟩
  · rintro ⟨left, run, rest⟩
    exact .star p a left other run rest

theorem not_eagerGlob_nil_cons (c : Char) (a : List Char) : ¬EagerGlob [] (c :: a) := by
  intro eager
  cases eager

theorem eagerGlob_nil_iff (p : List Char) : EagerGlob p [] ↔ p.all (· = '*') = true := by
  rw [← glob_nil_iff]
  exact ⟨EagerGlob.glob, fun glob => glob.eager List.not_mem_nil⟩

/-- **What was taken rune by rune is taken again by a later match**, which comes at least as far: a `*`
that took a `*` comes to a `*` again, or further on. -/
theorem EagerGlob.beyond {q w p a left : List Char} (taken : List.Forall₂ Fits q w)
    (late : left <:+ w ++ a) (eager : EagerGlob (q ++ p) left) : ∃ last, last <:+ a ∧ EagerGlob p last := by
  induction taken generalizing left with
  | nil => exact ⟨left, late, eager⟩
  | @cons x y q w fits _ ih =>
    have tail : ∀ {c rest}, c :: rest <:+ y :: (w ++ a) → rest <:+ w ++ a := by
      intro c rest suffix
      rcases List.suffix_cons_iff.mp suffix with same | suffix
      · exact (List.cons.inj same).2 ▸ List.suffix_rfl
      · exact (List.suffix_cons c rest).trans suffix
    cases eager with
    | literal _ _ _ rest => exact ih (tail late) rest
    | one _ _ _ rest => exact ih (tail late) rest
    | star _ _ last other run rest =>
      rcases List.suffix_cons_iff.mp late with whole | further
      · exact absurd (by rw [whole, fits.star]; rfl) other
      · exact ih (run.trans further) rest

/-! ### The matcher decides it -/

/-- There is still a match: where the scan stands, or with a later end of the last `*`. -/
def Scan.Open (s : Scan) : Prop :=
  EagerGlob s.p s.a ∨ ∃ star, s.star = some star ∧ ∃ left, left <:+ star.2.tail ∧ EagerGlob star.1 left

/-- Since the last `*` the scan has taken as many runes of the pattern as of the alias. -/
structure Scan.Sound (n : ℕ) (s : Scan) : Prop where
  bounded : s.p.length ≤ n
  starred : ∀ star, s.star = some star → star.1.length ≤ n ∧
    ∃ q w, star = (q ++ s.p, w ++ s.a) ∧ List.Forall₂ Fits q w

def Scan.turns (n : ℕ) (s : Scan) : ℕ :=
  (s.star.elim (s.a.length + 1) (·.2.length)) * (n + 1) + s.p.length

theorem suffix_iff_eq_or_tail (left l : List Char) : left <:+ l ↔ left = l ∨ left <:+ l.tail := by
  cases l with
  | nil => simp
  | cons c l => rw [List.suffix_cons_iff, List.tail_cons]

theorem Scan.turns_starred {n : ℕ} {s : Scan} {star : List Char × List Char}
    (held : s.star = some star) : s.turns n = star.2.length * (n + 1) + s.p.length := by
  rw [Scan.turns, held]
  rfl

theorem Scan.Sound.suffix {n : ℕ} {s : Scan} (sound : s.Sound n) {star : List Char × List Char}
    (held : s.star = some star) : s.a <:+ star.2 := by
  obtain ⟨_, q, w, rfl, _⟩ := sound.starred star held
  exact List.suffix_append w s.a

theorem Scan.Sound.beyond {n : ℕ} {s : Scan} (sound : s.Sound n) {star : List Char × List Char}
    (held : s.star = some star) {left : List Char} (late : left <:+ star.2.tail)
    (eager : EagerGlob star.1 left) : ∃ last, last <:+ s.a ∧ EagerGlob s.p last := by
  obtain ⟨_, q, w, rfl, taken⟩ := sound.starred star held
  exact eager.beyond taken (late.trans (List.tail_suffix _))

theorem Scan.take_ok {n : ℕ} {p rest : List Char} {star} {q c : Char} (fits : Fits q c)
    (sound : Scan.Sound n ⟨q :: p, c :: rest, star⟩) :
    Scan.Sound n ⟨p, rest, star⟩ ∧
      (Scan.Open ⟨p, rest, star⟩ ↔ Scan.Open ⟨q :: p, c :: rest, star⟩) ∧
      Scan.turns n ⟨p, rest, star⟩ < Scan.turns n ⟨q :: p, c :: rest, star⟩ := by
  refine ⟨⟨?_, ?_⟩, ?_, ?_⟩
  · exact Nat.le_of_succ_le sound.bounded
  · intro held is
    obtain ⟨bounded, pattern, run, rfl, taken⟩ := sound.starred held is
    refine ⟨bounded, pattern ++ [q], run ++ [c], ?_, ?_⟩
    · rw [List.append_assoc, List.append_assoc]
      rfl
    · exact List.rel_append taken (.cons fits .nil)
  · simp only [Scan.Open, eagerGlob_fits_iff fits]
  · cases star with
    | none =>
      simp only [Scan.turns, Option.elim_none, List.length_cons]
      nlinarith
    | some star => simp only [Scan.turns, Option.elim_some, List.length_cons]; omega

theorem Scan.star_ok {n : ℕ} {p a : List Char} {star} (other : a.head? ≠ some '*')
    (sound : Scan.Sound n ⟨'*' :: p, a, star⟩) :
    Scan.Sound n ⟨p, a, some (p, a)⟩ ∧
      (Scan.Open ⟨p, a, some (p, a)⟩ ↔ Scan.Open ⟨'*' :: p, a, star⟩) ∧
      Scan.turns n ⟨p, a, some (p, a)⟩ < Scan.turns n ⟨'*' :: p, a, star⟩ := by
  have bounded : p.length ≤ n := Nat.le_of_succ_le sound.bounded
  refine ⟨⟨bounded, ?_⟩, ?_, ?_⟩
  · rintro _ ⟨⟩
    exact ⟨bounded, [], [], rfl, .nil⟩
  · have here : Scan.Open ⟨p, a, some (p, a)⟩ ↔ EagerGlob ('*' :: p) a := by
      rw [eagerGlob_star_iff other]
      simp only [Scan.Open, Option.some.injEq, exists_eq_left', suffix_iff_eq_or_tail _ a, or_and_right,
        exists_or, exists_eq_left]
    rw [here]
    refine ⟨.inl, ?_⟩
    rintro (eager | ⟨held, is, left, late, eager⟩)
    · exact eager
    · -- the rest of the old pattern comes to this `*` as well, and later in the alias
      obtain ⟨last, within, rest⟩ := sound.beyond is late eager
      refine (eagerGlob_star_iff other p).mpr ?_
      cases rest with
      | literal _ _ last rest => exact ⟨last, (List.suffix_cons _ _).trans within, rest⟩
      | star _ _ further _ run rest => exact ⟨further, run.trans within, rest⟩
  · cases star with
    | none =>
      simp only [Scan.turns, Option.elim_none, Option.elim_some, List.length_cons]
      nlinarith
    | some star =>
      have shorter : a.length ≤ star.2.length := (sound.suffix rfl).length_le
      have scaled := Nat.mul_le_mul_right (n + 1) shorter
      simp only [Scan.turns, Option.elim_some, List.length_cons]
      omega

theorem Scan.back_ok {n : ℕ} {s : Scan} (sound : s.Sound n) (left : s.a ≠ [])
    (stuck : ¬EagerGlob s.p s.a) :
    match s.back with
    | none => ¬s.Open
    | some next => next.Sound n ∧ (next.Open ↔ s.Open) ∧ next.turns n < s.turns n := by
  rw [Scan.back]
  cases held : s.star with
  | none => simp [Scan.Open, held, stuck]
  | some star =>
    obtain ⟨bounded, _⟩ := sound.starred star held
    have starts : star.2 ≠ [] := fun empty =>
      left (List.suffix_nil.mp (empty ▸ sound.suffix held))
    refine ⟨⟨bounded, ?_⟩, ?_, ?_⟩
    · rintro _ ⟨⟩
      exact ⟨bounded, [], [], rfl, .nil⟩
    · simp only [Scan.Open, stuck, false_or, held, Option.some.injEq, exists_eq_left',
        suffix_iff_eq_or_tail _ star.2.tail, or_and_right, exists_or, exists_eq_left]
    · rw [s.turns_starred held, Scan.turns_starred rfl]
      obtain ⟨c, rest, split⟩ := List.exists_cons_of_ne_nil starts
      simp only [split, List.tail_cons, List.length_cons]
      nlinarith

/-- **What a turn does** while a rune of the alias is left. -/
theorem Scan.turn_ok {n : ℕ} {s : Scan} (sound : s.Sound n) {c : Char} {rest : List Char}
    (left : s.a = c :: rest) :
    match s.turn c rest with
    | none => ¬s.Open
    | some next => next.Sound n ∧ (next.Open ↔ s.Open) ∧ next.turns n < s.turns n := by
  obtain ⟨p, a, star⟩ := s
  obtain rfl : a = c :: rest := left
  cases p with
  | nil => exact Scan.back_ok sound (List.cons_ne_nil _ _) (not_eagerGlob_nil_cons c rest)
  | cons q p =>
    by_cases fits : q = '?' ∨ q = c
    · rw [Scan.turn]
      simp only [fits, if_true]
      exact Scan.take_ok fits sound
    · by_cases wild : q = '*'
      · subst wild
        have other : (c :: rest).head? ≠ some '*' := fun first =>
          fits (.inr (Option.some.inj first).symm)
        rw [Scan.turn]
        simp only [fits, if_false, if_true]
        exact Scan.star_ok other sound
      · rw [Scan.turn]
        simp only [fits, wild, if_false]
        exact Scan.back_ok sound (List.cons_ne_nil _ _) (not_eagerGlob_cons wild fits p rest)

theorem Scan.open_end {n : ℕ} {s : Scan} (sound : s.Sound n) (ended : s.a = []) :
    s.Open ↔ EagerGlob s.p [] := by
  constructor
  · rintro (eager | ⟨star, held, left, late, eager⟩)
    · rwa [ended] at eager
    · obtain ⟨last, none, rest⟩ := sound.beyond held late eager
      rw [ended, List.suffix_nil] at none
      rwa [none] at rest
  · intro eager
    exact .inl (ended ▸ eager)

/-- **The turns come to an end**, with what is still open as the result. -/
theorem globRun_eq {n : ℕ} (fuel : ℕ) (s : Scan) (sound : s.Sound n) (enough : s.turns n < fuel) :
    ∃ result, globRun fuel s = some result ∧ (result = true ↔ s.Open) := by
  induction fuel generalizing s with
  | zero => omega
  | succ fuel ih =>
    rw [globRun]
    cases left : s.a with
    | nil =>
      refine ⟨_, rfl, ?_⟩
      rw [Scan.open_end sound left, eagerGlob_nil_iff]
    | cons c rest =>
      have turn := Scan.turn_ok sound left
      dsimp only
      cases next : s.turn c rest with
      | none =>
        rw [next] at turn
        exact ⟨false, rfl, iff_of_false Bool.false_ne_true turn⟩
      | some after =>
        rw [next] at turn
        obtain ⟨result, run, right⟩ := ih after turn.1 (by omega)
        exact ⟨result, run, right.trans turn.2.1⟩

theorem globLoop_eq_globRun (fuel : ℕ) (s : Scan) : globLoop fuel s = (globRun fuel s).getD false := by
  induction fuel generalizing s with
  | zero => rfl
  | succ fuel ih =>
    rw [globLoop, globRun]
    cases s.a with
    | nil => rfl
    | cons c rest =>
      cases next : s.turn c rest with
      | none => simp only [next, Option.getD_some]
      | some after => simp only [next, ih]

theorem globRun_mono {fuel : ℕ} {s : Scan} {result : Bool} (run : globRun fuel s = some result)
    {more : ℕ} (enough : fuel ≤ more) : globRun more s = some result := by
  induction fuel generalizing s more with
  | zero => cases run
  | succ fuel ih =>
    obtain ⟨more, rfl⟩ := Nat.exists_eq_succ_of_ne_zero (show more ≠ 0 by omega)
    rw [globRun] at run ⊢
    cases left : s.a with
    | nil => simpa only [left] using run
    | cons c rest =>
      cases next : s.turn c rest with
      | none => simpa only [left, next] using run
      | some after =>
        simp only [left, next] at run ⊢
        exact ih run (by omega)

/-- The loop for a pattern and an alias ends with a result. -/
def GlobReturns (pattern «alias» : List Char) (result : Bool) : Prop :=
  ∃ turns, globRun turns ⟨pattern, «alias», none⟩ = some result

theorem GlobReturns.unique {pattern «alias» : List Char} {one other : Bool}
    (first : GlobReturns pattern «alias» one) (second : GlobReturns pattern «alias» other) : one = other := by
  obtain ⟨turns, first⟩ := first
  obtain ⟨more, second⟩ := second
  have both := globRun_mono first (le_max_left turns more)
  rw [globRun_mono second (le_max_right turns more)] at both
  exact (Option.some.inj both).symm

theorem globMatch_returns (pattern «alias» : List Char) :
    GlobReturns pattern «alias» (globMatch pattern «alias») ∧
      (globMatch pattern «alias» = true ↔ EagerGlob pattern «alias») := by
  have sound : Scan.Sound pattern.length ⟨pattern, «alias», none⟩ :=
    ⟨le_rfl, fun _ none => by cases none⟩
  have enough : Scan.turns pattern.length ⟨pattern, «alias», none⟩ <
      («alias».length + 2) * (pattern.length + 1) := by
    simp only [Scan.turns, Option.elim_none]
    nlinarith
  obtain ⟨result, run, right⟩ := globRun_eq _ _ sound enough
  have is : globMatch pattern «alias» = result := by
    rw [globMatch, globLoop_eq_globRun, run]
    rfl
  rw [is]
  refine ⟨⟨_, run⟩, right.trans ?_⟩
  simp [Scan.Open]

theorem globMatch_iff_eager (pattern «alias» : List Char) :
    globMatch pattern «alias» = true ↔ EagerGlob pattern «alias» := (globMatch_returns pattern «alias»).2

/-- **The matcher decides what a pattern stands for**, on every alias without a `*` of its own. -/
theorem globMatch_iff (pattern «alias» : List Char) (plain : '*' ∉ «alias») :
    globMatch pattern «alias» = true ↔ Glob pattern «alias» := by
  rw [globMatch_iff_eager]
  exact ⟨EagerGlob.glob, fun glob => glob.eager plain⟩

/-- **The matcher ends, and it is right about an alias exactly if no match of it needs a `*` that stands
before a `*` of the alias to take anything but that rune.** -/
theorem globMatch_exact_iff (pattern «alias» : List Char) :
    (∃ result, GlobReturns pattern «alias» result ∧ (result = true ↔ Glob pattern «alias»)) ↔
      (Glob pattern «alias» → EagerGlob pattern «alias») := by
  obtain ⟨returns, decides⟩ := globMatch_returns pattern «alias»
  constructor
  · rintro ⟨result, other, right⟩ glob
    rw [other.unique returns] at right
    exact decides.mp (right.mpr glob)
  · intro eager
    exact ⟨_, returns, decides.trans ⟨EagerGlob.glob, eager⟩⟩

/-- `*` does not match `*x`: it takes the `*` as a literal, and then there is no `*` to come back to. -/
theorem globMatch_star_before_star :
    ¬∃ result, GlobReturns ['*'] ['*', 'x'] result ∧ (result = true ↔ Glob ['*'] ['*', 'x']) := by
  rintro ⟨result, returns, right⟩
  have refused : GlobReturns ['*'] ['*', 'x'] false := ⟨2, by decide⟩
  have glob : Glob ['*'] ['*', 'x'] := .star _ _ [] List.nil_suffix .nil
  exact Bool.false_ne_true ((refused.unique returns).trans (right.mpr glob))

theorem matchFrom_iff («alias» : List Char) (matched : Bool) (patterns : List Pattern) :
    matchFrom «alias» matched patterns = true ↔
      (∀ p ∈ patterns, p.negate = true → globMatch p.text «alias» = false) ∧
        (matched = true ∨ ∃ p ∈ patterns, p.negate = false ∧ globMatch p.text «alias» = true) := by
  induction patterns generalizing matched with
  | nil => simp [matchFrom]
  | cons p patterns ih =>
    cases fits : globMatch p.text «alias» <;> cases negated : p.negate <;>
      simp [matchFrom, fits, negated, ih]

theorem matchPatterns_iff (patterns : List Pattern) («alias» : List Char) (plain : '*' ∉ «alias») :
    matchPatterns patterns «alias» = true ↔
      (∃ p ∈ patterns, p.negate = false ∧ Glob p.text «alias») ∧
        ∀ p ∈ patterns, p.negate = true → ¬Glob p.text «alias» := by
  simp only [matchPatterns, matchFrom_iff, ← globMatch_iff _ _ plain, Bool.not_eq_true,
    Bool.false_eq_true, false_or]
  exact and_comm

example : globMatch "a*b*?".toList "axbyb".toList = true ∧ globMatch "a*b".toList "abc".toList = false ∧
    globMatch "*".toList "*x".toList = false := by
  decide

end Atterm.SSHConfig
