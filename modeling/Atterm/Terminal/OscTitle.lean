/-
**Titles in the output of a terminal.**

`ESC ]`, `0`, `1` or `2`, `;`, a text and `BEL` or `ESC \` give the session a title. The session carries
a title that is not complete to the next chunk, takes the last title of a chunk, and leaves out the
titles with which Codex would overwrite a better one.

* `scanOSCTitles_eq` — a call is a scan of the carried bytes and the chunk;
* `observeAll_title` — the title after the chunks is the last one of the stream;
* `title_eq` — it is the same for every splitting that cuts no introducer, unless the last title is one
  of those that Codex falls back to.
-/

import Atterm.Terminal.Command

namespace Atterm.Terminal

open Atterm.Foundation (Grammar)

/-- `ESC ] [0-2] ;` -/
def opensTitle : Bytes → Bool
  | esc :: bracket :: digit :: semicolon :: _ =>
    esc = 0x1b && bracket = 0x5d && (digit = 0x30 || digit = 0x31 || digit = 0x32) &&
      semicolon = 0x3b
  | _ => false

def indexOSCTitlePrefix : Bytes → Option ℕ
  | [] => none
  | b :: rest =>
    if opensTitle (b :: rest) then some 0 else (indexOSCTitlePrefix rest).map (· + 1)

def maxOSCTitlePayload : ℕ := 256

def normalizeOSCTitle (payload : Bytes) : Option String :=
  if payload = [] ∨ maxOSCTitlePayload < payload.length then none
  else
    let cleaned := payload.filter fun b => !(b < 0x20 || b = 0x7f)
    if cleaned = [] then none else String.fromUTF8? ⟨cleaned.toArray⟩

/-- The loop of `scanOSCTitles`: the titles, and the bytes that are not consumed. Every round takes a
prefix off the data. -/
def scanOSCTitlesLoop : ℕ → Bytes → List String × Bytes
  | 0, data => ([], data)
  | rounds + 1, data =>
    match indexOSCTitlePrefix data with
    | none => ([], [])
    | some idx =>
      let payload := data.drop (idx + 4)
      match oscTerminator (payload.take (maxOSCTitlePayload + 2)) with
      | none =>
        if payload.length ≤ maxOSCTitlePayload + 2 then ([], data.drop idx)
        else scanOSCTitlesLoop rounds payload
      | some (termRel, termLen) =>
        let later := scanOSCTitlesLoop rounds (payload.drop (termRel + termLen))
        ((normalizeOSCTitle (payload.take termRel)).toList ++ later.1, later.2)

def scanOSCTitles (data : Bytes) : List String × Bytes := scanOSCTitlesLoop (data.length + 1) data

/-! ### The titles that Codex falls back to -/

def isCodexAnimation (c : Char) : Bool :=
  isSpace c || c ∈ ":：;·•∙.∷⋮⋯".toList || ('\u2800' ≤ c && c ≤ '\u28ff')

def stripCodexAnimatedTitlePrefix (title : String) : List Char :=
  trimSpace (title.toList.dropWhile isCodexAnimation)

def basenameFromCwd (cwd : String) : List Char :=
  ((cwd.toList.reverse.dropWhile (· = '/')).takeWhile (· ≠ '/')).reverse

/-- What the session keeps of its title, with the command that its marks have started. -/
@[ext] structure TitleState where
  title : String
  oscTitleBuf : Bytes
  osc133Buf : Bytes
  currentCommand : List Char
  cwd : String
deriving DecidableEq, Repr

namespace TitleState

def new (title : String) (currentCommand : List Char) (cwd : String) : TitleState :=
  ⟨title, [], [], currentCommand, cwd⟩

def shouldIgnoreCodexFallbackTitle (s : TitleState) (newTitle : String) : Bool :=
  if s.title = "" then false
  else if (commandExecutableTokens s.currentCommand).1 ≠ "codex".toList then false
  else
    let newStripped := stripCodexAnimatedTitlePrefix newTitle
    let currentStripped := stripCodexAnimatedTitlePrefix s.title
    if newStripped = "codex".toList then currentStripped ≠ "codex".toList
    else
      let cwdBase := basenameFromCwd s.cwd
      cwdBase ≠ [] && newStripped = cwdBase && currentStripped ≠ cwdBase

end TitleState

def startedCommand (payload : Bytes) : Option (List Char) :=
  if payload.head? = some 0x43 then
    some (trimSpace (runes (if [0x43, 0x3b].isPrefixOf payload then payload.drop 2 else payload)))
  else none

namespace TitleState

/-- What `applyOSC133Locked` does to the command. -/
def applyOSC133 (s : TitleState) (data : Bytes) : TitleState :=
  let (events, osc133Buf) := consumeOSC133 s.osc133Buf data
  { s with
    osc133Buf
    currentCommand := ((events.filterMap startedCommand).getLast?).getD s.currentCommand }

/-- `applyOSCTitleLocked` -/
def applyOSCTitle (s : TitleState) (data : Bytes) : TitleState :=
  let (titles, tail) := scanOSCTitles (s.oscTitleBuf ++ data)
  let s := { s with oscTitleBuf := lastBytes (maxOSCTitlePayload + 8) tail }
  match titles.getLast? with
  | none => s
  | some newTitle =>
    if newTitle = s.title then s
    else if s.shouldIgnoreCodexFallbackTitle newTitle then s
    else { s with title := newTitle }

/-- `updateTerminalState`, as far as the title goes. -/
def observe (s : TitleState) (data : Bytes) : TitleState :=
  if data = [] then s else (s.applyOSC133 data).applyOSCTitle data

def observeAll (s : TitleState) (chunks : List Bytes) : TitleState := chunks.foldl observe s

end TitleState

/-! ### The scan -/

/-- The titles: a text that is too long is read as nothing, and what is in it is scanned. -/
def oscTitle : Grammar UInt8 String where
  width := 4
  opens := opensTitle
  body payload :=
    match oscTerminator (payload.take (maxOSCTitlePayload + 2)) with
    | none => if payload.length ≤ maxOSCTitlePayload + 2 then none else some (none, 0)
    | some (termRel, termLen) => some (normalizeOSCTitle (payload.take termRel), termRel + termLen)

theorem oscTitle_body (payload : Bytes) :
    oscTitle.body payload =
      match oscTerminator (payload.take (maxOSCTitlePayload + 2)) with
      | none => if payload.length ≤ maxOSCTitlePayload + 2 then none else some (none, 0)
      | some (termRel, termLen) =>
        some (normalizeOSCTitle (payload.take termRel), termRel + termLen) :=
  rfl

theorem opensTitle_length {l : Bytes} (opens : opensTitle l = true) : 4 ≤ l.length := by
  match l, opens with
  | _ :: _ :: _ :: _ :: _, _ => simp

theorem oscTitle_lawful : oscTitle.Lawful where
  positive := by decide
  opens_length := fun l opens => opensTitle_length opens
  opens_append := by
    intro l m whole
    match l, whole with
    | _ :: _ :: _ :: _ :: _, _ => rfl
  body_length := by
    intro l event size read
    rw [oscTitle_body] at read
    cases terminated : oscTerminator (l.take (maxOSCTitlePayload + 2)) with
    | none =>
      rw [terminated] at read
      simp only at read
      split_ifs at read
      cases read
      exact Nat.zero_le _
    | some found =>
      obtain ⟨termRel, termLen⟩ := found
      have within := oscTerminator_bounds terminated
      rw [terminated] at read
      cases read
      rw [List.length_take] at within
      omega
  body_append := by
    intro l m event size read
    rw [oscTitle_body] at read ⊢
    cases terminated : oscTerminator (l.take (maxOSCTitlePayload + 2)) with
    | none =>
      rw [terminated] at read
      simp only at read
      split_ifs at read with short
      have long : maxOSCTitlePayload + 2 < l.length := not_le.mp short
      rw [List.take_append_of_le_length long.le, terminated]
      simp only
      rw [if_neg (by rw [List.length_append]; omega)]
      exact read
    | some found =>
      obtain ⟨termRel, termLen⟩ := found
      have within := oscTerminator_bounds terminated
      rw [List.length_take] at within
      rw [List.take_append, oscTerminator_append terminated]
      rw [terminated] at read
      simp only at read ⊢
      rw [List.take_append_of_le_length (by omega)]
      exact read

theorem indexOSCTitlePrefix_eq (data : Bytes) : indexOSCTitlePrefix data = oscTitle.index data := by
  induction data with
  | nil => rfl
  | cons b rest ih =>
    rw [indexOSCTitlePrefix, Grammar.index, ih]
    rfl

theorem scanOSCTitlesLoop_eq {rounds : ℕ} {data : Bytes} (enough : data.length < rounds) :
    scanOSCTitlesLoop rounds data = oscTitle.scan 0 data := by
  induction rounds generalizing data with
  | zero => exact absurd enough (Nat.not_lt_zero _)
  | succ rounds ih =>
    rw [scanOSCTitlesLoop]
    cases index : indexOSCTitlePrefix data with
    | none =>
      rw [indexOSCTitlePrefix_eq] at index
      rw [Grammar.scan_of_index_none 0 index, Nat.sub_zero, List.drop_length]
    | some idx =>
      rw [indexOSCTitlePrefix_eq] at index
      have kept : 0 < oscTitle.width := oscTitle_lawful.positive
      obtain ⟨scans, opens⟩ := Grammar.scan_of_index_some oscTitle_lawful kept index
      have whole := oscTitle_lawful.opens_length _ opens
      have four : oscTitle.width = 4 := rfl
      have large : 0 < (data.drop idx).length := by omega
      have behind : (data.drop idx).drop oscTitle.width = data.drop (idx + 4) := List.drop_drop
      have left : ∀ size, (data.drop idx).drop (oscTitle.width + size) =
          (data.drop (idx + 4)).drop size := fun size => by
        rw [← behind]
        exact List.drop_drop.symm
      have fewer : ∀ size, ((data.drop (idx + 4)).drop size).length < rounds := by
        intro size
        rw [List.length_drop] at whole
        rw [List.length_drop, List.length_drop]
        omega
      rw [scans]
      simp only
      cases terminated : oscTerminator ((data.drop (idx + 4)).take (maxOSCTitlePayload + 2)) with
      | none =>
        by_cases short : (data.drop (idx + 4)).length ≤ maxOSCTitlePayload + 2
        · have waits : oscTitle.body ((data.drop idx).drop oscTitle.width) = none := by
            rw [behind, oscTitle_body, terminated]
            exact if_pos short
          rw [Grammar.scan_waits large opens waits]
          exact if_pos short
        · have read : oscTitle.body ((data.drop idx).drop oscTitle.width) = some (none, 0) := by
            rw [behind, oscTitle_body, terminated]
            exact if_neg short
          rw [Grammar.scan_reads oscTitle_lawful large opens read, left]
          simp only
          rw [if_neg short, List.drop_zero]
          exact ih (fewer 0)
      | some found =>
        obtain ⟨termRel, termLen⟩ := found
        have read : oscTitle.body ((data.drop idx).drop oscTitle.width) =
            some (normalizeOSCTitle ((data.drop (idx + 4)).take termRel), termRel + termLen) := by
          rw [behind, oscTitle_body, terminated]
        rw [Grammar.scan_reads oscTitle_lawful large opens read, left]
        simp only
        rw [ih (fewer _)]

/-- **A call scans the carried bytes and the chunk.** -/
theorem scanOSCTitles_eq (data : Bytes) : scanOSCTitles data = oscTitle.scan 0 data :=
  scanOSCTitlesLoop_eq (Nat.lt_succ_self _)

theorem length_scan_le (data : Bytes) :
    (oscTitle.scan 0 data).2.length ≤ maxOSCTitlePayload + 8 := by
  rcases Nat.eq_zero_or_pos (oscTitle.scan 0 data).2.length with none_left | some_left
  · omega
  · obtain ⟨opens, waits⟩ := Grammar.scan_rest_waits oscTitle_lawful data some_left
    have whole := oscTitle_lawful.opens_length _ opens
    have four : oscTitle.width = 4 := rfl
    rw [oscTitle_body] at waits
    split at waits
    · split_ifs at waits with short
      rw [List.length_drop] at short
      omega
    · cases waits

/-! ### Chunks -/

def titlesOf (stream : Bytes) : List String := (scanOSCTitles stream).1

def commandsOf (stream : Bytes) : List (List Char) :=
  (consumeOSC133 [] stream).1.filterMap startedCommand

/-- A title that Codex may fall back to, if it is the command that runs. -/
def CodexFallback (command : List Char) (cwd title : String) : Prop :=
  (commandExecutableTokens command).1 = "codex".toList ∧
    (stripCodexAnimatedTitlePrefix title = "codex".toList ∨
      basenameFromCwd cwd ≠ [] ∧ stripCodexAnimatedTitlePrefix title = basenameFromCwd cwd)

namespace TitleState

def commandsAlong (s : TitleState) : List Bytes → List (List Char)
  | [] => []
  | chunk :: chunks => (s.observe chunk).currentCommand :: (s.observe chunk).commandsAlong chunks

variable {s : TitleState}

theorem codexFallback_of_ignored {newTitle : String}
    (ignored : s.shouldIgnoreCodexFallbackTitle newTitle = true) :
    CodexFallback s.currentCommand s.cwd newTitle := by
  simp only [shouldIgnoreCodexFallbackTitle] at ignored
  split_ifs at ignored with untitled other executable
  · exact ⟨not_not.mp other, Or.inl executable⟩
  · simp only [Bool.and_eq_true, decide_eq_true_eq] at ignored
    exact ⟨not_not.mp other, Or.inr ignored.1⟩

theorem applyOSCTitle_eq (s : TitleState) (data : Bytes) :
    s.applyOSCTitle data =
      let s' := { s with oscTitleBuf := (oscTitle.scan 0 (s.oscTitleBuf ++ data)).2 }
      match (oscTitle.scan 0 (s.oscTitleBuf ++ data)).1.getLast? with
      | none => s'
      | some newTitle =>
        if newTitle = s.title then s'
        else if s'.shouldIgnoreCodexFallbackTitle newTitle then s'
        else { s' with title := newTitle } := by
  simp only [applyOSCTitle, scanOSCTitles_eq, lastBytes_of_le (length_scan_le _)]

theorem observe_carries {l : Bytes} (carried : s.oscTitleBuf = (oscTitle.scan 0 l).2) (data : Bytes) :
    (s.observe data).oscTitleBuf = (oscTitle.scan 0 (s.oscTitleBuf ++ data)).2 ∧
      (s.observe data).cwd = s.cwd := by
  rw [observe]
  split_ifs with empty
  · subst empty
    rw [List.append_nil, carried, Grammar.scan_rest oscTitle_lawful 0 l]
    exact ⟨rfl, rfl⟩
  · simp only [applyOSCTitle_eq]
    split
    · exact ⟨rfl, rfl⟩
    · split_ifs <;> exact ⟨rfl, rfl⟩

theorem applyOSCTitle_marks (s : TitleState) (data : Bytes) :
    (s.applyOSCTitle data).osc133Buf = s.osc133Buf ∧
      (s.applyOSCTitle data).currentCommand = s.currentCommand := by
  simp only [applyOSCTitle_eq]
  split
  · exact ⟨rfl, rfl⟩
  · split_ifs <;> exact ⟨rfl, rfl⟩

theorem observe_command (s : TitleState) (data : Bytes) :
    (s.observe data).currentCommand =
      if data = [] then s.currentCommand else (s.applyOSC133 data).currentCommand := by
  rw [observe]
  split_ifs
  · rfl
  · exact (applyOSCTitle_marks _ data).2

/-- **One chunk**, if its last title is not left out. -/
theorem observe_title {data l : Bytes} (carried : s.oscTitleBuf = (oscTitle.scan 0 l).2)
    (own : ∀ last ∈ (oscTitle.scan 0 (s.oscTitleBuf ++ data)).1.getLast?,
      ¬CodexFallback (s.observe data).currentCommand s.cwd last) :
    (s.observe data).title =
      ((oscTitle.scan 0 (s.oscTitleBuf ++ data)).1.getLast?).getD s.title := by
  rw [observe_command] at own
  rw [observe]
  split_ifs at own ⊢ with empty
  · subst empty
    rw [List.append_nil, carried, Grammar.scan_rest oscTitle_lawful 0 l]
    rfl
  · have same_buf : (s.applyOSC133 data).oscTitleBuf = s.oscTitleBuf := rfl
    simp only [applyOSCTitle_eq, same_buf]
    cases last : (oscTitle.scan 0 (s.oscTitleBuf ++ data)).1.getLast? with
    | none => rfl
    | some newTitle =>
      simp only
      split_ifs with same ignored
      · exact same.symm
      · exact absurd (codexFallback_of_ignored ignored) (own newTitle last)
      · rfl

/-- **The title after the chunks is the last one of the stream.** -/
theorem observeAll_title {chunks : List Bytes} (s : TitleState)
    (carried : ∃ l, s.oscTitleBuf = (oscTitle.scan 0 l).2)
    (own : ∀ last ∈ (oscTitle.feed 0 s.oscTitleBuf chunks).1.getLast?,
      ∀ command ∈ s.commandsAlong chunks, ¬CodexFallback command s.cwd last) :
    (s.observeAll chunks).title =
      ((oscTitle.feed 0 s.oscTitleBuf chunks).1.getLast?).getD s.title := by
  induction chunks generalizing s with
  | nil => rfl
  | cons chunk chunks ih =>
    obtain ⟨l, carried⟩ := carried
    obtain ⟨carries, cwd⟩ := observe_carries carried chunk
    have later := ih (s.observe chunk) ⟨_, carries⟩
    rw [carries, cwd] at later
    simp only [Grammar.feed, List.getLast?_append] at own ⊢
    rw [observeAll, List.foldl_cons, ← observeAll, later fun last latest command inside =>
      own last (by rw [latest]; rfl) command (List.mem_cons_of_mem _ inside)]
    cases latest : (oscTitle.feed 0 (oscTitle.scan 0 (s.oscTitleBuf ++ chunk)).2
        chunks).1.getLast? with
    | some last => rfl
    | none =>
      -- without a later title the last one of this chunk stays
      rw [latest, Option.none_or] at own
      rw [Option.none_or, observe_title carried fun last here =>
        own last here _ List.mem_cons_self]
      rfl

theorem commandsAlong_of_mem {chunks : List Bytes} (s : TitleState) {command : List Char}
    (inside : command ∈ s.commandsAlong chunks) :
    command = s.currentCommand ∨
      command ∈ (feedOSC133 s.osc133Buf (chunks.filter (· ≠ []))).filterMap startedCommand := by
  induction chunks generalizing s with
  | nil => cases inside
  | cons chunk chunks ih =>
    rw [commandsAlong, List.mem_cons] at inside
    by_cases empty : chunk = []
    · subst empty
      rcases inside with now | later
      · exact Or.inl now
      · exact ih s later
    · have marks : (s.observe chunk).osc133Buf = (consumeOSC133 s.osc133Buf chunk).2 := by
        rw [observe, if_neg empty]
        exact (applyOSCTitle_marks _ chunk).1
      have now_or_before : (s.observe chunk).currentCommand = s.currentCommand ∨
          (s.observe chunk).currentCommand ∈
            (consumeOSC133 s.osc133Buf chunk).1.filterMap startedCommand := by
        rw [observe_command, if_neg empty]
        simp only [applyOSC133]
        cases last : ((consumeOSC133 s.osc133Buf chunk).1.filterMap startedCommand).getLast? with
        | none => exact Or.inl rfl
        | some command => exact Or.inr (List.mem_of_getLast? last)
      rw [List.filter_cons_of_pos (by simpa using empty), feedOSC133, List.filterMap_append,
        List.mem_append]
      rcases inside with now | later
      · rw [now]
        exact now_or_before.imp_right Or.inl
      · rcases ih _ later with before | inside
        · rw [before]
          exact now_or_before.imp_right Or.inl
        · rw [marks] at inside
          exact Or.inr (Or.inr inside)

theorem observeAll_new {title cwd : String} {currentCommand : List Char} {chunks : List Bytes}
    (sized : ∀ length ∈ markLengths chunks.flatten, length ≤ maxOSC)
    (uncut : oscTitle.Resumes 0 [] chunks)
    (own : ∀ last ∈ (titlesOf chunks.flatten).getLast?,
      ∀ command ∈ currentCommand :: commandsOf chunks.flatten, ¬CodexFallback command cwd last) :
    ((new title currentCommand cwd).observeAll chunks).title =
      ((titlesOf chunks.flatten).getLast?).getD title := by
  have nothing : oscTitle.scan 0 [] = ([], []) := Grammar.scan_small (Nat.zero_le 0)
  have fed : titlesOf chunks.flatten = (oscTitle.feed 0 [] chunks).1 := by
    have whole := Grammar.feed_eq oscTitle_lawful chunks [] uncut
    rw [nothing, List.nil_append] at whole
    rw [titlesOf, scanOSCTitles_eq, whole]
    rfl
  have marks : feedOSC133 [] (chunks.filter (· ≠ [])) = (consumeOSC133 [] chunks.flatten).1 := by
    have same : (chunks.filter (· ≠ [])).flatten = chunks.flatten := List.flatten_filter_ne_nil
    have all := feedOSC133_eq (chunks.filter (· ≠ [])) (by rw [same]; exact sized)
    rw [all, same]
  rw [fed] at own ⊢
  refine observeAll_title _ ⟨[], (congrArg Prod.snd nothing).symm⟩ fun last latest command inside =>
    own last latest command ?_
  rcases commandsAlong_of_mem _ inside with before | started
  · rw [before]
    exact List.mem_cons_self
  · rw [commandsOf, ← marks]
    exact List.mem_cons_of_mem _ started

end TitleState

/-- **The title is the same for every splitting into chunks** that cuts no introducer outside of a title
that is waited for, unless the last title of the stream is one that Codex falls back to. -/
theorem title_eq {title cwd : String} {currentCommand : List Char} {chunks : List Bytes}
    (sized : ∀ length ∈ markLengths chunks.flatten, length ≤ maxOSC)
    (uncut : oscTitle.Resumes 0 [] chunks)
    (own : ∀ last ∈ (titlesOf chunks.flatten).getLast?,
      ∀ command ∈ currentCommand :: commandsOf chunks.flatten, ¬CodexFallback command cwd last) :
    ((TitleState.new title currentCommand cwd).observeAll chunks).title =
      ((TitleState.new title currentCommand cwd).observe chunks.flatten).title := by
  have one : [chunks.flatten].flatten = chunks.flatten := by simp
  have whole : oscTitle.Resumes 0 [] [chunks.flatten] :=
    ⟨Or.inr (Or.inr fun straddles => absurd straddles.choose_spec.1 (Nat.not_lt_zero _)), trivial⟩
  have at_once : ((TitleState.new title currentCommand cwd).observeAll [chunks.flatten]).title =
      ((titlesOf [chunks.flatten].flatten).getLast?).getD title :=
    TitleState.observeAll_new (by rw [one]; exact sized) whole (by rw [one]; exact own)
  rw [one] at at_once
  exact (TitleState.observeAll_new sized uncut own).trans at_once.symm

theorem title_eq_cut :
    ((TitleState.new "" [] "/root").observeAll [[0x1b, 0x5d, 0x30, 0x3b, 0x61], [0x07]]).title =
      ((TitleState.new "" [] "/root").observe [0x1b, 0x5d, 0x30, 0x3b, 0x61, 0x07]).title := by
  have unmarked : markLengths [0x1b, 0x5d, 0x30, 0x3b, 0x61, 0x07] = [] := by
    rw [markLengths, Grammar.scan_skips (by decide) (by decide), Grammar.scan_small (by decide)]
    rfl
  have waits : oscTitle.scan 0 [0x1b, 0x5d, 0x30, 0x3b, 0x61] = ([], [0x1b, 0x5d, 0x30, 0x3b, 0x61]) :=
    Grammar.scan_waits (by decide) (by decide) (by decide)
  refine @title_eq "" "/root" [] [[0x1b, 0x5d, 0x30, 0x3b, 0x61], [0x07]] ?_ ?_ ?_
  · intro length inside
    have none_inside : length ∈ ([] : List ℕ) := unmarked ▸ inside
    cases none_inside
  · refine ⟨Or.inr (Or.inr fun straddles => absurd straddles.choose_spec.1 (Nat.not_lt_zero _)),
      Or.inr (Or.inl ?_), trivial⟩
    rw [List.nil_append, waits]
    rfl
  · intro last _ command inside fallback
    have no_commands : commandsOf [0x1b, 0x5d, 0x30, 0x3b, 0x61, 0x07] = [] := by decide +kernel
    have idle : command ∈ [[]] := no_commands ▸ inside
    rw [List.mem_singleton.mp idle] at fallback
    exact absurd fallback.1 (by decide +kernel)

/-- `C;codex`, and three titles: the session shows the second one, and the last one for the whole stream. -/
theorem last_title_left_out :
    ((TitleState.new "" [] "/root").observeAll
      [[0x1b, 0x5d, 0x31, 0x33, 0x33, 0x3b, 0x43, 0x3b, 0x63, 0x6f, 0x64, 0x65, 0x78, 0x07],
        [0x1b, 0x5d, 0x30, 0x3b, 0x6f, 0x6e, 0x65, 0x07],
        [0x1b, 0x5d, 0x30, 0x3b, 0x63, 0x6f, 0x64, 0x65, 0x78, 0x07]]).title = "one" ∧
      ((TitleState.new "" [] "/root").observe
        [0x1b, 0x5d, 0x31, 0x33, 0x33, 0x3b, 0x43, 0x3b, 0x63, 0x6f, 0x64, 0x65, 0x78, 0x07,
          0x1b, 0x5d, 0x30, 0x3b, 0x6f, 0x6e, 0x65, 0x07,
          0x1b, 0x5d, 0x30, 0x3b, 0x63, 0x6f, 0x64, 0x65, 0x78, 0x07]).title = "codex" := by
  decide +kernel

end Atterm.Terminal
