/-
**Which lines of nested files are active.**

In ssh_config every file has block state of its own: a Host or Match line is in force until the next one in
the same file, and an included file counts only where its `Include` line does. The parser splices the files
into one stream and lets a Host or Match line of an included file stay in force behind the `Include`.

* `fileMarks`, `streamMarks` — the setting lines, each with whether it is active in its file, or in the
  stream;
* `resolveEntry_get` — the parser takes the first line that is active in the stream;
* `Parse_follows` — exactly then the parser takes the line that the nested files say.
-/

import Atterm.Foundation.FirstHit
import Atterm.SSHConfig.Nested

namespace Atterm.SSHConfig

open Atterm.Foundation

/-! ### Active lines -/

/-- A setting line, and whether it is active. -/
structure Mark where
  setting : Directive
  active : Bool
deriving DecidableEq, Repr

/-- The setting lines of a file: `outer` if the `Include` line of the file is active, `here` if the latest
Host or Match line in the file itself is in force for the alias. -/
def fileMarks («alias» : List Char) (outer : Bool) : Bool → Tree → List Mark
  | _, .done => []
  | here, .line l rest =>
    if l.key = kwHost then fileMarks «alias» outer (matchPatterns (parsePatterns l.rest) «alias») rest
    else if l.key = kwMatch then fileMarks «alias» outer false rest
    else ⟨⟨l.key, joinFields l.rest⟩, outer && here⟩ :: fileMarks «alias» outer here rest
  | here, .file included rest =>
    fileMarks «alias» (outer && here) true included ++ fileMarks «alias» outer here rest

/-- The setting lines of the stream, where one Host or Match line is in force until the next one. -/
def streamMarks («alias» : List Char) : Bool → List RawLine → List Mark
  | _, [] => []
  | here, l :: lines =>
    if l.key = kwHost then streamMarks «alias» (matchPatterns (parsePatterns l.rest) «alias») lines
    else if l.key = kwMatch then streamMarks «alias» false lines
    else ⟨⟨l.key, joinFields l.rest⟩, here⟩ :: streamMarks «alias» here lines

@[simp] theorem kwMatch_ne_kwHost : kwMatch ≠ kwHost := by
  decide

def settings : List RawLine → List Directive
  | [] => []
  | l :: lines =>
    if l.key = kwHost ∨ l.key = kwMatch then settings lines
    else ⟨l.key, joinFields l.rest⟩ :: settings lines

theorem settings_append (first second : List RawLine) :
    settings (first ++ second) = settings first ++ settings second := by
  induction first with
  | nil => rfl
  | cons l first ih =>
    rw [List.cons_append, settings, settings, ih]
    split <;> rfl

theorem streamMarks_settings («alias» : List Char) (here : Bool) (lines : List RawLine) :
    (streamMarks «alias» here lines).map (·.setting) = settings lines := by
  induction lines generalizing here with
  | nil => rfl
  | cons l lines ih =>
    rw [streamMarks, settings]
    by_cases host : l.key = kwHost
    · simp [host, ih]
    · by_cases matching : l.key = kwMatch <;> simp [host, matching, ih]

theorem fileMarks_settings («alias» : List Char) (outer here : Bool) (t : Tree) :
    (fileMarks «alias» outer here t).map (·.setting) = settings t.leaves := by
  induction t generalizing outer here with
  | done => rfl
  | line l rest ih =>
    rw [fileMarks, Tree.leaves, settings]
    by_cases host : l.key = kwHost
    · simp [host, ih]
    · by_cases matching : l.key = kwMatch <;> simp [host, matching, ih]
  | file included rest inner ih =>
    rw [fileMarks, Tree.leaves, settings_append, List.map_append, inner, ih]

/-! ### What the parser takes -/

/-- Whether a block's lines are used for an alias. -/
def Block.serves (b : Block) («alias» : List Char) : Bool := !b.isMatch && matchPatterns b.patterns «alias»

theorem resolveBlock_eq («alias» : List Char) (e : Entry) (b : Block) :
    resolveBlock «alias» e b = if b.serves «alias» then b.lines.foldl resolveLine e else e := by
  rw [resolveBlock, Block.serves]
  cases b.isMatch <;> cases matchPatterns b.patterns «alias» <;> rfl

theorem resolveBlock_push («alias» : List Char) (e : Entry) (b : Block) (d : Directive) :
    resolveBlock «alias» e (b.push d) =
      if b.serves «alias» then resolveLine (resolveBlock «alias» e b) d else resolveBlock «alias» e b := by
  have same : (b.push d).serves «alias» = b.serves «alias» := rfl
  rw [resolveBlock_eq, resolveBlock_eq, same]
  split
  · exact List.foldl_append
  · rfl

def taken (marks : List Mark) : List Directive := (marks.filter (·.active)).map (·.setting)

theorem resolve_groupFrom («alias» : List Char) (cur : Block) (lines : List RawLine) (e : Entry) :
    (groupFrom cur lines).foldl (resolveBlock «alias») e =
      (taken (streamMarks «alias» (cur.serves «alias») lines)).foldl resolveLine
        (resolveBlock «alias» e cur) := by
  induction lines generalizing cur e with
  | nil => rfl
  | cons l lines ih =>
    rw [groupFrom, streamMarks]
    by_cases host : l.key = kwHost
    · rw [if_pos host, if_pos host, List.foldl_cons, ih, resolveBlock_eq _ _ ⟨_, _, _, _, _⟩,
        List.foldl_nil, ite_self]
      rfl
    · by_cases matching : l.key = kwMatch
      · rw [if_neg host, if_neg host, if_pos matching, if_pos matching, List.foldl_cons, ih,
          resolveBlock_eq _ _ ⟨_, _, _, _, _⟩, List.foldl_nil, ite_self]
        rfl
      · rw [if_neg host, if_neg host, if_neg matching, if_neg matching, ih, resolveBlock_push]
        have same : (cur.push ⟨l.key, joinFields l.rest⟩).serves «alias» = cur.serves «alias» := rfl
        rw [same, taken, taken]
        cases cur.serves «alias» <;> rfl

theorem keyword_injective {f g : Field} (same : f.keyword = g.keyword) : f = g := by
  cases f <;> cases g <;> first | rfl | exact absurd same (by decide)

theorem fieldOf_eq_some_iff (key : List Char) (f : Field) : fieldOf key = some f ↔ key = f.keyword := by
  constructor
  · intro found
    rw [fieldOf] at found
    have keyed := List.find?_some found
    exact (of_decide_eq_true keyed).symm
  · rintro rfl
    cases f <;> rfl

theorem get_set (e : Entry) (value : List Char) (f g : Field) :
    (e.set value f).get g = if f = g then value else e.get g := by
  cases f <;> cases g <;> rfl

theorem resolveLine_get (e : Entry) (d : Directive) (f : Field) :
    (resolveLine e d).get f = if d.key = f.keyword ∧ e.get f = [] then d.value else e.get f := by
  rw [resolveLine]
  cases found : fieldOf d.key with
  | none =>
    have other : d.key ≠ f.keyword := fun same => by
      rw [(fieldOf_eq_some_iff _ _).mpr same] at found
      cases found
    simp [other]
  | some g =>
    have keyed := (fieldOf_eq_some_iff _ _).mp found
    by_cases same : g = f
    · subst same
      by_cases unset : e.get g = [] <;> simp [keyed, unset, get_set]
    · have other : d.key ≠ f.keyword := fun eq => same (keyword_injective (keyed.symm.trans eq))
      by_cases unset : e.get g = [] <;> simp [other, unset, get_set, same]

theorem resolveLines_get (f : Field) (lines : List Directive)
    (filled : ∀ d ∈ lines, d.key = f.keyword → d.value ≠ []) (e : Entry) :
    (lines.foldl resolveLine e).get f =
      if e.get f = [] then ((lines.find? (fun d => d.key = f.keyword)).map (·.value)).getD []
      else e.get f := by
  induction lines generalizing e with
  | nil => simp +contextual
  | cons d lines ih =>
    have rest := ih (fun d' inside => filled d' (List.mem_cons_of_mem _ inside)) (resolveLine e d)
    rw [List.foldl_cons, rest, resolveLine_get]
    by_cases keyed : d.key = f.keyword
    · have full := filled d List.mem_cons_self keyed
      by_cases unset : e.get f = [] <;> simp [keyed, unset, full]
    · simp [keyed]

/-- What a field holds without a line for it. -/
def Field.default («alias» : List Char) : Field → List Char
  | .hostName => «alias»
  | _ => []

def Mark.gives (f : Field) (m : Mark) : Bool := m.setting.key = f.keyword && m.active

def lineOf (f : Field) (marks : List Mark) : Option ℕ := marks.findIdx? (Mark.gives f)

def valueOf («alias» : List Char) (f : Field) (marks : List Mark) : List Char :=
  ((marks.find? (Mark.gives f)).map (·.setting.value)).getD (f.default «alias»)

theorem find_taken (f : Field) (marks : List Mark) :
    (taken marks).find? (fun d => d.key = f.keyword) = (marks.find? (Mark.gives f)).map (·.setting) := by
  rw [taken, List.find?_map, List.find?_filter]
  congr 2
  funext m
  simp only [Mark.gives, Function.comp_apply, Bool.decide_and, Bool.and_comm, Bool.decide_eq_true]

/-- Every line for a recognized keyword has a value that is not empty. -/
def Filled (lines : List Directive) : Prop := ∀ d ∈ lines, ∀ f : Field, d.key = f.keyword → d.value ≠ []

theorem default_get («alias» : List Char) (e : Entry) (f : Field) :
    (if e.hostName = [] then e.set «alias» .hostName else e).get f =
      if e.get f = [] then f.default «alias» else e.get f := by
  by_cases unset : e.get f = []
  · rw [if_pos unset]
    cases f <;> split <;> simp_all [Entry.get, Entry.set, Field.default]
  · rw [if_neg unset]
    cases f <;> split <;> simp_all [Entry.get, Entry.set]

theorem syntheticBlock_serves {«alias» : List Char} (concrete : '*' ∉ «alias») :
    syntheticBlock.serves «alias» = true := by
  refine (matchPatterns_iff _ _ concrete).mpr ⟨⟨⟨false, ['*']⟩, List.mem_singleton_self _, rfl, ?_⟩, ?_⟩
  · exact (glob_star_iff _ _).mpr ⟨[], List.nil_suffix, .nil⟩
  · intro p inside negated
    cases List.mem_singleton.mp inside
    cases negated

theorem mem_settings_of_mem_streamMarks {«alias» : List Char} {here : Bool} {lines : List RawLine}
    {m : Mark} (inside : m ∈ streamMarks «alias» here lines) : m.setting ∈ settings lines := by
  rw [← streamMarks_settings «alias» here lines]
  exact List.mem_map_of_mem inside

/-- **The parser takes the first line that is active in the stream.** -/
theorem resolveEntry_get (f : Field) {«alias» : List Char} (concrete : '*' ∉ «alias»)
    {lines : List RawLine} (filled : Filled (settings lines)) :
    (resolveEntry «alias» (groupBlocks lines)).get f = valueOf «alias» f (streamMarks «alias» true lines) := by
  have starts := syntheticBlock_serves concrete
  have full : ∀ d ∈ taken (streamMarks «alias» true lines), d.key = f.keyword → d.value ≠ [] := by
    intro d inside keyed
    obtain ⟨m, kept, rfl⟩ := List.mem_map.mp inside
    exact filled _ (mem_settings_of_mem_streamMarks (List.mem_of_mem_filter kept)) f keyed
  have blank : Entry.get ⟨«alias», [], [], [], [], [], []⟩ f = [] := by cases f <;> rfl
  have begins : resolveBlock «alias» ⟨«alias», [], [], [], [], [], []⟩ syntheticBlock =
      ⟨«alias», [], [], [], [], [], []⟩ := by
    rw [resolveBlock_eq, starts]
    rfl
  rw [resolveEntry, groupBlocks, resolve_groupFrom, starts, begins, default_get,
    resolveLines_get f _ full, if_pos blank, find_taken, valueOf]
  cases found : (streamMarks «alias» true lines).find? (Mark.gives f) with
  | none => rfl
  | some m =>
    have gives := List.find?_some found
    rw [Mark.gives, Bool.and_eq_true, decide_eq_true_eq] at gives
    have value := filled _ (mem_settings_of_mem_streamMarks (List.mem_of_find?_eq_some found)) f gives.1
    simp [value]

/-! ### Where the two agree -/

/-- A setting line with whether it is active in its file, and in the stream. -/
structure Sides where
  setting : Directive
  active : Bool
  streamed : Bool
deriving DecidableEq, Repr

def Sides.inFile (s : Sides) : Mark := ⟨s.setting, s.active⟩

def Sides.inStream (s : Sides) : Mark := ⟨s.setting, s.streamed⟩

/-- The setting lines of nested files for an alias. -/
def sides («alias» : List Char) (t : Tree) : List Sides :=
  List.zipWith (fun file stream => ⟨file.setting, file.active, stream.active⟩)
    (fileMarks «alias» true true t) (streamMarks «alias» true t.leaves)

/-- No line for the field that is active in its file or in the stream only comes before the first one that
is active in both. -/
def Undisturbed («alias» : List Char) (f : Field) (t : Tree) : Prop :=
  ∀ before s behind, sides «alias» t = before ++ s :: behind → s.setting.key = f.keyword →
    s.active ≠ s.streamed →
    ∃ b ∈ before, b.setting.key = f.keyword ∧ b.active = true ∧ b.streamed = true

theorem zipWith_sides (files streams : List Mark)
    (same : files.map (·.setting) = streams.map (·.setting)) :
    (List.zipWith (fun file stream => (⟨file.setting, file.active, stream.active⟩ : Sides)) files
        streams).map Sides.inFile = files ∧
      (List.zipWith (fun file stream => (⟨file.setting, file.active, stream.active⟩ : Sides)) files
        streams).map Sides.inStream = streams := by
  induction files generalizing streams with
  | nil =>
    cases streams with
    | nil => exact ⟨rfl, rfl⟩
    | cons stream streams => cases same
  | cons file files ih =>
    cases streams with
    | nil => cases same
    | cons stream streams =>
      rw [List.map_cons, List.map_cons, List.cons.injEq] at same
      obtain ⟨inFiles, inStreams⟩ := ih streams same.2
      rw [List.zipWith_cons_cons, List.map_cons, List.map_cons, inFiles, inStreams]
      refine ⟨rfl, ?_⟩
      rw [Sides.inStream, same.1]

theorem sides_inFile («alias» : List Char) (t : Tree) :
    (sides «alias» t).map Sides.inFile = fileMarks «alias» true true t :=
  (zipWith_sides _ _ (by rw [fileMarks_settings, streamMarks_settings])).1

theorem sides_inStream («alias» : List Char) (t : Tree) :
    (sides «alias» t).map Sides.inStream = streamMarks «alias» true t.leaves :=
  (zipWith_sides _ _ (by rw [fileMarks_settings, streamMarks_settings])).2

theorem lineOf_eq_iff («alias» : List Char) (f : Field) (t : Tree) :
    lineOf f (streamMarks «alias» true t.leaves) = lineOf f (fileMarks «alias» true true t) ↔
      Undisturbed «alias» f t := by
  rw [← sides_inFile, ← sides_inStream, lineOf, lineOf, List.findIdx?_map, List.findIdx?_map,
    findIdx?_eq_iff]
  constructor
  · intro agree before s behind split keyed differ
    obtain ⟨b, inside, one, other⟩ := agree before s behind split (by
      simpa [Mark.gives, Sides.inFile, Sides.inStream, keyed] using Ne.symm differ)
    simp only [Function.comp_apply, Mark.gives, Sides.inFile, Sides.inStream, Bool.and_eq_true]
      at one other
    exact ⟨b, inside, of_decide_eq_true one.1, other.2, one.2⟩
  · intro agree before s behind split differ
    by_cases keyed : s.setting.key = f.keyword
    · obtain ⟨b, inside, same, one, other⟩ := agree before s behind split keyed (by
        simpa [Mark.gives, Sides.inFile, Sides.inStream, keyed] using Ne.symm differ)
      exact ⟨b, inside, by simp [Mark.gives, Sides.inStream, same, other],
        by simp [Mark.gives, Sides.inFile, same, one]⟩
    · exact absurd (by simp [Mark.gives, Sides.inFile, Sides.inStream, keyed]) differ

theorem valueOf_eq_of_lineOf_eq («alias» : List Char) (f : Field) (t : Tree)
    (same : lineOf f (streamMarks «alias» true t.leaves) = lineOf f (fileMarks «alias» true true t)) :
    valueOf «alias» f (streamMarks «alias» true t.leaves) =
      valueOf «alias» f (fileMarks «alias» true true t) := by
  rw [← sides_inFile, ← sides_inStream] at same ⊢
  rw [lineOf, lineOf, List.findIdx?_map, List.findIdx?_map] at same
  rw [valueOf, valueOf, List.find?_map, List.find?_map, Option.map_map, Option.map_map,
    found_eq_of_findIdx?_eq same]
  rfl

/-- No two lines for the field have the same value, and none has the default. -/
def ToldApart («alias» : List Char) (f : Field) (lines : List RawLine) : Prop :=
  (f.default «alias» :: ((settings lines).filter (fun d => d.key = f.keyword)).map (·.value)).Nodup

theorem lineOf_eq_of_valueOf_eq («alias» : List Char) (f : Field) (t : Tree)
    (apart : ToldApart «alias» f t.leaves)
    (same : valueOf «alias» f (streamMarks «alias» true t.leaves) =
      valueOf «alias» f (fileMarks «alias» true true t)) :
    lineOf f (streamMarks «alias» true t.leaves) = lineOf f (fileMarks «alias» true true t) := by
  have whole : settings t.leaves = (sides «alias» t).map (·.setting) := by
    rw [← streamMarks_settings «alias» true, ← sides_inStream, List.map_map]
    rfl
  have fewer : List.Sublist
      (((sides «alias» t).filter fun s => (Mark.gives f ∘ Sides.inStream) s ||
        (Mark.gives f ∘ Sides.inFile) s).map (·.setting.value))
      (((settings t.leaves).filter (fun d => d.key = f.keyword)).map (·.value)) := by
    rw [whole, List.filter_map, List.map_map]
    refine (List.monotone_filter_right _ fun s either => ?_).map _
    rcases Bool.or_eq_true _ _ ▸ either with one | other
    · exact (Bool.and_eq_true _ _ ▸ one).1
    · exact (Bool.and_eq_true _ _ ▸ other).1
  rw [← sides_inFile, ← sides_inStream] at same ⊢
  rw [valueOf, valueOf, List.find?_map, List.find?_map, Option.map_map, Option.map_map] at same
  rw [lineOf, lineOf, List.findIdx?_map, List.findIdx?_map]
  exact findIdx?_eq_of_found_eq (sides «alias» t) (apart.sublist (fewer.cons_cons _)) same

/-! ### Files that the parser follows -/

def RawLine.startsBlock (l : RawLine) : Prop := l.key = kwHost ∨ l.key = kwMatch

/-- Every `Include` is of a file without Host and Match lines; or no such line stands before it (`top`), and
the line read behind its file is one. -/
def Tree.Plain : Bool → Tree → Prop
  | _, .done => True
  | top, .line l rest => (l.startsBlock ∧ rest.Plain false) ∨ (¬l.startsBlock ∧ rest.Plain top)
  | top, .file included rest =>
    ((∀ l ∈ included.leaves, ¬l.startsBlock) ∨
      (top = true ∧ included.Plain true ∧ ∀ l ∈ rest.leaves.head?, l.startsBlock)) ∧ rest.Plain top

theorem streamMarks_append («alias» : List Char) (here : Bool) (first second : List RawLine)
    (no : ∀ l ∈ first, ¬l.startsBlock) :
    streamMarks «alias» here (first ++ second) =
      (settings first).map (⟨·, here⟩) ++ streamMarks «alias» here second := by
  induction first with
  | nil => rfl
  | cons l first ih =>
    have plain := no l List.mem_cons_self
    rw [RawLine.startsBlock, not_or] at plain
    rw [List.cons_append, streamMarks, if_neg plain.1, if_neg plain.2, settings,
      if_neg (not_or.mpr plain), List.map_cons, List.cons_append,
      ih fun l' inside => no l' (List.mem_cons_of_mem _ inside)]

theorem fileMarks_of_no_blocks («alias» : List Char) (outer here : Bool) (t : Tree)
    (no : ∀ l ∈ t.leaves, ¬l.startsBlock) :
    fileMarks «alias» outer here t = (settings t.leaves).map (⟨·, outer && here⟩) := by
  induction t generalizing outer here with
  | done => rfl
  | line l rest ih =>
    have plain := no l List.mem_cons_self
    rw [RawLine.startsBlock, not_or] at plain
    rw [fileMarks, if_neg plain.1, if_neg plain.2, Tree.leaves, settings, if_neg (not_or.mpr plain),
      List.map_cons, ih outer here fun l' inside => no l' (List.mem_cons_of_mem _ inside)]
  | file included rest inner ih =>
    rw [fileMarks, Tree.leaves, settings_append, List.map_append,
      inner _ _ (fun l inside => no l (List.mem_append_left _ inside)),
      ih _ _ (fun l inside => no l (List.mem_append_right _ inside)), Bool.and_true]

theorem streamMarks_starts («alias» : List Char) (here there : Bool) (lines : List RawLine)
    (starts : ∀ l ∈ lines.head?, l.startsBlock) :
    streamMarks «alias» here lines = streamMarks «alias» there lines := by
  cases lines with
  | nil => rfl
  | cons l lines =>
    rcases starts l rfl with host | matching
    · rw [streamMarks, streamMarks, if_pos host, if_pos host]
    · rw [streamMarks, streamMarks, if_pos matching, if_pos matching]

theorem streamMarks_append_of_starts («alias» : List Char) (here there : Bool)
    (first second : List RawLine) (starts : ∀ l ∈ second.head?, l.startsBlock) :
    streamMarks «alias» here (first ++ second) =
      streamMarks «alias» here first ++ streamMarks «alias» there second := by
  induction first generalizing here with
  | nil => exact streamMarks_starts _ _ _ _ starts
  | cons l first ih =>
    rw [List.cons_append, streamMarks, streamMarks, ih, ih, ih]
    by_cases host : l.key = kwHost
    · rw [if_pos host, if_pos host]
    · by_cases matching : l.key = kwMatch
      · rw [if_neg host, if_neg host, if_pos matching, if_pos matching]
      · rw [if_neg host, if_neg host, if_neg matching, if_neg matching, List.cons_append]

theorem fileMarks_of_plain («alias» : List Char) (top here : Bool) (t : Tree) (plain : t.Plain top)
    (above : top = true → here = true) :
    fileMarks «alias» true here t = streamMarks «alias» here t.leaves := by
  induction t generalizing top here with
  | done => rfl
  | line l rest ih =>
    rw [fileMarks, Tree.leaves, streamMarks, Bool.true_and]
    rcases plain with ⟨starts, plain⟩ | ⟨no, plain⟩
    · rw [ih false _ plain (fun top => by cases top), ih false false plain (fun top => by cases top)]
      rcases starts with host | matching
      · rw [if_pos host, if_pos host]
      · rw [if_pos matching, if_pos matching]
    · rw [RawLine.startsBlock, not_or] at no
      rw [if_neg no.1, if_neg no.1, if_neg no.2, if_neg no.2, ih top here plain above]
  | file included rest inner ih =>
    obtain ⟨split, plain⟩ := plain
    rw [fileMarks, Tree.leaves, ih top here plain above, Bool.true_and]
    rcases split with no | ⟨top, insidePlain, starts⟩
    · rw [streamMarks_append _ _ _ _ no, fileMarks_of_no_blocks _ _ _ _ no, Bool.and_true]
    · obtain rfl := above top
      rw [inner true true insidePlain (fun _ => rfl), streamMarks_append_of_starts _ _ true _ _ starts]

theorem undisturbed_of_plain («alias» : List Char) (f : Field) {t : Tree} (plain : t.Plain true) :
    Undisturbed «alias» f t := by
  rw [← lineOf_eq_iff, fileMarks_of_plain «alias» true true t plain (fun _ => rfl)]

/-! ### Parse -/

theorem addAliases_concrete {aliasOrder : List (List Char)} (patterns : List Pattern)
    (before : ∀ «alias» ∈ aliasOrder, '*' ∉ «alias») :
    ∀ «alias» ∈ addAliases aliasOrder patterns, '*' ∉ «alias» := by
  rw [addAliases]
  induction patterns generalizing aliasOrder with
  | nil => exact before
  | cons p patterns ih =>
    rw [List.foldl_cons]
    refine ih ?_
    split
    · exact before
    · next named =>
        split
        · exact before
        · intro «alias» inside
          rcases List.mem_append.mp inside with old | new
          · exact before _ old
          · rw [List.mem_singleton.mp new]
            intro star
            refine named ?_
            simp only [hostPatternHasWildcard, Bool.or_eq_true, List.any_eq_true, decide_eq_true_eq]
            exact .inr ⟨'*', star, .inl rfl⟩

theorem passBlocks_concrete (blocks : List Block) (acc : List (List Char) × List Skipped)
    (before : ∀ «alias» ∈ acc.1, '*' ∉ «alias») :
    ∀ «alias» ∈ (blocks.foldl passBlock acc).1, '*' ∉ «alias» := by
  induction blocks generalizing acc with
  | nil => exact before
  | cons b blocks ih =>
    refine ih _ ?_
    rw [passBlock]
    split
    · exact before
    · split
      · exact before
      · split
        · exact before
        · exact addAliases_concrete b.patterns before

theorem resolveEntry_alias («alias» : List Char) (blocks : List Block) :
    (resolveEntry «alias» blocks).alias = «alias» := by
  have set : ∀ (e : Entry) value f, (e.set value f).alias = e.alias := by
    intro e value f
    cases f <;> rfl
  have line : ∀ (e : Entry) d, (resolveLine e d).alias = e.alias := by
    intro e d
    rw [resolveLine]
    split
    · rfl
    · split
      · rfl
      · exact set _ _ _
  have lines : ∀ (ds : List Directive) (e : Entry), (ds.foldl resolveLine e).alias = e.alias := by
    intro ds
    induction ds with
    | nil => exact fun _ => rfl
    | cons d ds ih => exact fun e => (ih _).trans (line e d)
  have all : ∀ (bs : List Block) (e : Entry), (bs.foldl (resolveBlock «alias») e).alias = e.alias := by
    intro bs
    induction bs with
    | nil => exact fun _ => rfl
    | cons b bs ih =>
      intro e
      rw [List.foldl_cons, ih, resolveBlock_eq]
      split
      · exact lines _ _
      · rfl
  rw [resolveEntry]
  split
  · exact (set _ _ _).trans (all _ _)
  · exact all _ _

/-! ### Which hosts are imported -/

def Pattern.Names (p : Pattern) («alias» : List Char) : Prop :=
  p.negate = false ∧ p.text = «alias» ∧ «alias» ≠ [] ∧ hostPatternHasWildcard «alias» = false

/-- What is reported of a block that cannot be imported. -/
def Block.report (b : Block) : Option Skipped :=
  if b.synthetic then none
  else if b.isMatch then
    some ⟨b.rawMatch, "Match block depends on runtime conditions, not imported".toList⟩
  else if !hasPositivePattern b.patterns then
    some ⟨patternsText b.patterns,
      "Host line has no usable pattern (empty, or all negated), not imported".toList⟩
  else none

theorem addAliases_exact {aliasOrder : List (List Char)} (patterns : List Pattern)
    (distinct : aliasOrder.Nodup) : (addAliases aliasOrder patterns).Nodup ∧ ∀ «alias»,
      «alias» ∈ addAliases aliasOrder patterns ↔
        «alias» ∈ aliasOrder ∨ ∃ p ∈ patterns, p.Names «alias» := by
  rw [addAliases]
  induction patterns generalizing aliasOrder with
  | nil => exact ⟨distinct, fun «alias» => by simp⟩
  | cons p patterns ih =>
    rw [List.foldl_cons]
    by_cases vague : (p.negate || decide (p.text = []) || hostPatternHasWildcard p.text) = true
    · obtain ⟨once, all⟩ := ih distinct
      rw [if_pos (by simpa using vague)]
      refine ⟨once, fun «alias» => (all «alias»).trans ?_⟩
      have nameless : ¬p.Names «alias» := by
        rintro ⟨plain, rfl, some_text, fixed⟩
        simp [plain, some_text, fixed] at vague
      simp [nameless]
    · rw [if_neg (by simpa using vague)]
      simp only [Bool.or_eq_true, decide_eq_true_eq, not_or, Bool.not_eq_true] at vague
      have named : ∀ «alias», p.Names «alias» ↔ «alias» = p.text := by
        refine fun «alias» => ⟨fun names => names.2.1.symm, ?_⟩
        rintro rfl
        exact ⟨vague.1.1, rfl, vague.1.2, vague.2⟩
      by_cases seen : p.text ∈ aliasOrder
      · obtain ⟨once, all⟩ := ih distinct
        rw [if_pos seen]
        refine ⟨once, fun «alias» => (all «alias»).trans ?_⟩
        simp only [List.mem_cons, exists_eq_or_imp, named]
        constructor
        · tauto
        · rintro (before | rfl | later)
          · exact .inl before
          · exact .inl seen
          · exact .inr later
      · have longer : (aliasOrder ++ [p.text]).Nodup := by
          refine List.nodup_append.mpr ⟨distinct, List.nodup_singleton _, fun a inside b here same => ?_⟩
          rw [same, List.mem_singleton.mp here] at inside
          exact seen inside
        obtain ⟨once, all⟩ := ih longer
        rw [if_neg seen]
        refine ⟨once, fun «alias» => (all «alias»).trans ?_⟩
        simp only [List.mem_append, List.mem_cons, exists_eq_or_imp, named, or_assoc,
          List.not_mem_nil, false_or]

theorem passBlocks_exact (blocks : List Block) (acc : List (List Char) × List Skipped)
    (distinct : acc.1.Nodup) : (blocks.foldl passBlock acc).1.Nodup ∧
      (blocks.foldl passBlock acc).2 = acc.2 ++ blocks.filterMap Block.report ∧ ∀ «alias»,
      «alias» ∈ (blocks.foldl passBlock acc).1 ↔ «alias» ∈ acc.1 ∨ ∃ b ∈ blocks,
        b.synthetic = false ∧ b.isMatch = false ∧ ∃ p ∈ b.patterns, p.Names «alias» := by
  induction blocks generalizing acc with
  | nil => exact ⟨distinct, by simp, fun «alias» => by simp⟩
  | cons b blocks ih =>
    have one : (passBlock acc b).1.Nodup ∧ (passBlock acc b).2 = acc.2 ++ b.report.toList ∧
        ∀ «alias», «alias» ∈ (passBlock acc b).1 ↔ «alias» ∈ acc.1 ∨
          b.synthetic = false ∧ b.isMatch = false ∧ ∃ p ∈ b.patterns, p.Names «alias» := by
      rw [passBlock, Block.report]
      split_ifs with made conditional useless
      · exact ⟨distinct, by simp, fun «alias» => by simp [made]⟩
      · exact ⟨distinct, rfl, fun «alias» => by simp [conditional]⟩
      · refine ⟨distinct, rfl, fun «alias» => ?_⟩
        have none_plain : ¬∃ p ∈ b.patterns, p.Names «alias» := by
          rintro ⟨p, listed, plain, -⟩
          have negated : ∀ q ∈ b.patterns, q.negate = true := by
            simpa [hasPositivePattern] using useless
          exact Bool.false_ne_true (plain.symm.trans (negated p listed))
        simp [none_plain]
      · obtain ⟨once, all⟩ := addAliases_exact b.patterns distinct
        refine ⟨once, by simp, fun «alias» => (all «alias»).trans ?_⟩
        simp [made, conditional]
    obtain ⟨once, reported, all⟩ := one
    obtain ⟨once', reported', all'⟩ := ih (passBlock acc b) once
    refine ⟨once', ?_, fun «alias» => ?_⟩
    · rw [List.foldl_cons, reported', reported, List.append_assoc, List.filterMap_cons]
      cases b.report <;> rfl
    · rw [List.foldl_cons, all', all, or_assoc]
      simp [or_and_right, exists_or]

/-- **Every host that a file names is imported once**, and nothing else is: the entries are the aliases that
some Host line names without a wildcard or a negation, each with a host name; and every block that can
give no alias, a Match block or a Host line without a usable pattern, is reported behind what was skipped
while the files were read. -/
theorem Parse_imports {r : Reader} {base : List Char} {opener : Opener} {entries : List Entry}
    {skipped : List Skipped} (parsed : Parse r base opener = (.ok entries, skipped)) :
    ∃ lines, (flatten base opener maxIncludeDepth [] r).lines = .ok lines ∧
      (entries.map Entry.alias).Nodup ∧
      (∀ «alias», «alias» ∈ entries.map Entry.alias ↔ ∃ b ∈ groupBlocks lines,
        b.synthetic = false ∧ b.isMatch = false ∧ ∃ p ∈ b.patterns, p.Names «alias») ∧
      (∀ e ∈ entries, e.hostName ≠ []) ∧
      skipped = (flatten base opener maxIncludeDepth [] r).skipped ++
        (groupBlocks lines).filterMap Block.report := by
  rw [Parse] at parsed
  cases read : (flatten base opener maxIncludeDepth [] r).lines with
  | error err =>
    rw [read] at parsed
    cases parsed
  | ok lines =>
    rw [read] at parsed
    cases parsed
    obtain ⟨once, reported, all⟩ := passBlocks_exact (groupBlocks lines)
      ([], (flatten base opener maxIncludeDepth [] r).skipped) List.nodup_nil
    have aliases : ∀ listed : List (List Char),
        (listed.map fun «alias» => resolveEntry «alias» (groupBlocks lines)).map Entry.alias = listed := by
      intro listed
      rw [List.map_map]
      exact (List.map_congr_left fun «alias» _ => resolveEntry_alias «alias» _).trans (List.map_id _)
    refine ⟨lines, rfl, ?_, fun «alias» => ?_, fun e inside => ?_, reported⟩
    · rw [aliases]
      exact once
    · rw [aliases, all]
      simp
    · obtain ⟨«alias», listed, rfl⟩ := List.mem_map.mp inside
      rcases (all «alias»).mp listed with none_yet | ⟨-, -, -, -, -, -, -, -, named, -⟩
      · cases none_yet
      · rw [resolveEntry]
        split_ifs with unset
        · exact named
        · exact unset

/-- **The parser follows the nested files exactly where no line that changes sides comes first.** The files
are read without a cycle and within the limit, and every value is filled; then every field of every entry
is the value of the first line that is active in the stream, and that is the first line that is active in
its file exactly for `Undisturbed`. -/
theorem Parse_follows {r : Reader} {base : List Char} {opener : Opener} {t : Tree}
    (read : readTree base opener maxIncludeDepth [] r = some t) (filled : Filled (settings t.leaves)) :
    ∃ entries, (Parse r base opener).1 = .ok entries ∧ ∀ e ∈ entries, ∀ f : Field,
      e.get f = valueOf e.alias f (streamMarks e.alias true t.leaves) ∧
      (lineOf f (streamMarks e.alias true t.leaves) = lineOf f (fileMarks e.alias true true t) ↔
        Undisturbed e.alias f t) ∧
      (Undisturbed e.alias f t → e.get f = valueOf e.alias f (fileMarks e.alias true true t)) ∧
      (ToldApart e.alias f t.leaves →
        (e.get f = valueOf e.alias f (fileMarks e.alias true true t) ↔ Undisturbed e.alias f t)) := by
  have lines := flatten_leaves maxIncludeDepth _ _ _ read
  rw [Parse, lines]
  refine ⟨_, rfl, fun e inside f => ?_⟩
  obtain ⟨«alias», listed, rfl⟩ := List.mem_map.mp inside
  have concrete := passBlocks_concrete _ _ (fun _ none => by cases none) «alias» listed
  rw [resolveEntry_alias, resolveEntry_get f concrete filled]
  refine ⟨rfl, lineOf_eq_iff _ _ _, fun undisturbed => ?_, fun apart => ⟨fun same => ?_, fun undisturbed => ?_⟩⟩
  · exact valueOf_eq_of_lineOf_eq _ _ _ ((lineOf_eq_iff _ _ _).mpr undisturbed)
  · exact (lineOf_eq_iff _ _ _).mp (lineOf_eq_of_valueOf_eq _ _ _ apart same)
  · exact valueOf_eq_of_lineOf_eq _ _ _ ((lineOf_eq_iff _ _ _).mpr undisturbed)

theorem filled_of_forall {lines : List Directive} (full : ∀ d ∈ lines, d.value ≠ []) : Filled lines :=
  fun d inside _ _ => full d inside

def oneFile (text : List Char) : Opener where
  openFile path := if path = "/home/me/.ssh/work".toList then .ok ⟨text, none⟩ else .error "no file".toList
  glob := none

theorem Parse_imports_twice : ∃ lines, ∀ «alias», «alias» ∈ [['a'], ['b']] ↔
    ∃ b ∈ groupBlocks lines, b.synthetic = false ∧ b.isMatch = false ∧ ∃ p ∈ b.patterns, p.Names «alias» := by
  have parsed : Parse ⟨"Host a b *.c\nHost a !b\n".toList, none⟩ [] (oneFile []) =
      (.ok [⟨['a'], ['a'], [], [], [], [], []⟩, ⟨['b'], ['b'], [], [], [], [], []⟩], []) := by
    decide +kernel
  obtain ⟨lines, -, -, named, -⟩ := Parse_imports parsed
  exact ⟨lines, named⟩

/-- An `Include` above every Host line, as it is read. -/
def includedAbove : Tree :=
  .file (.line ⟨"host".toList, "b".toList⟩ (.line ⟨"port".toList, "22".toList⟩ .done))
    (.line ⟨"host".toList, "a".toList⟩ (.line ⟨"user".toList, "alice".toList⟩ .done))

theorem Parse_follows_above : ∃ entries,
    (Parse ⟨"Include work\nHost a\n  User alice\n".toList, none⟩ "/home/me/.ssh".toList
      (oneFile "Host b\n  Port 22\n".toList)).1 = .ok entries ∧
    ∀ e ∈ entries, ∀ f : Field,
      e.get f = valueOf e.alias f (fileMarks e.alias true true includedAbove) := by
  have filled : Filled (settings includedAbove.leaves) := filled_of_forall (by decide +kernel)
  have plain : includedAbove.Plain true := by
    refine ⟨.inr ⟨rfl, .inl ⟨.inl rfl, .inr ⟨by unfold RawLine.startsBlock; decide, trivial⟩⟩, ?_⟩, ?_⟩
    · rintro l ⟨⟩
      exact .inl rfl
    · exact .inl ⟨.inl rfl, .inr ⟨by unfold RawLine.startsBlock; decide, trivial⟩⟩
  obtain ⟨entries, ok, all⟩ := @Parse_follows ⟨"Include work\nHost a\n  User alice\n".toList, none⟩
    "/home/me/.ssh".toList (oneFile "Host b\n  Port 22\n".toList) includedAbove (by decide +kernel) filled
  exact ⟨entries, ok, fun e inside f => (all e inside f).2.2.1 (undisturbed_of_plain _ _ plain)⟩

/-- An `Include` inside the block of `a`, with a line of `a` behind it. -/
def includedInside : Tree :=
  .line ⟨"host".toList, "a".toList⟩
    (.file (.line ⟨"host".toList, "b".toList⟩ (.line ⟨"port".toList, "22".toList⟩ .done))
      (.line ⟨"user".toList, "alice".toList⟩ .done))

/-- The line behind the `Include` goes to the block of `b`, and `a` is left without its user. -/
theorem Parse_strays : ¬∀ (r : Reader) (base : List Char) (opener : Opener) (t : Tree),
    readTree base opener maxIncludeDepth [] r = some t → Filled (settings t.leaves) →
    ∀ entries, (Parse r base opener).1 = .ok entries → ∀ e ∈ entries, ∀ f : Field,
      e.get f = valueOf e.alias f (fileMarks e.alias true true t) := by
  intro always
  have filled : Filled (settings includedInside.leaves) := filled_of_forall (by decide +kernel)
  have parsed : (Parse ⟨"Host a\n  Include work\n  User alice\n".toList, none⟩ "/home/me/.ssh".toList
      (oneFile "Host b\n  Port 22\n".toList)).1 =
      .ok [⟨['a'], ['a'], [], [], [], [], []⟩, ⟨['b'], ['b'], "alice".toList, "22".toList, [], [], []⟩] := by
    decide +kernel
  have same := always _ _ _ includedInside (by decide +kernel) filled _ parsed
    ⟨['a'], ['a'], [], [], [], [], []⟩ List.mem_cons_self .user
  revert same
  decide +kernel

end Atterm.SSHConfig
