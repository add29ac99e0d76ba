/-
**OSC 133 marks in the output of a terminal.**

A mark is `ESC ] 133 ;`, a payload, and `BEL` or `ESC \`. The session reads the output chunk by chunk
and carries what may belong to a mark that is not complete: the mark itself, of which it keeps the last
4096 bytes, or the last five bytes of other output.

* `consumeOSC133_eq` — a call is a scan of the carried bytes and the chunk, up to that cap;
* `feedOSC133_eq` — marks of at most 4096 bytes are the same for every splitting into chunks.
-/

import Atterm.Foundation.Sequences

namespace Atterm.Terminal

open Atterm.Foundation (Grammar)

abbrev Bytes := List UInt8

/-- `bytes.Index` of a pattern that is not empty. -/
def indexOf (pattern : Bytes) : Bytes → Option ℕ
  | [] => none
  | b :: rest =>
    if pattern.isPrefixOf (b :: rest) then some 0 else (indexOf pattern rest).map (· + 1)

/-- `ESC ] 133 ;` -/
def osc133Prefix : Bytes := [0x1b, 0x5d, 0x31, 0x33, 0x33, 0x3b]

/-- Where the first `BEL` or `ESC \` starts, and its length. -/
def oscTerminator : Bytes → Option (ℕ × ℕ)
  | [] => none
  | b :: rest =>
    if b = 0x07 then some (0, 1)
    else if b = 0x1b ∧ rest.head? = some 0x5c then some (0, 2)
    else (oscTerminator rest).map fun (termStart, termLen) => (termStart + 1, termLen)

def maxOSC : ℕ := 4096

def lastBytes (count : ℕ) (buf : Bytes) : Bytes := buf.drop (buf.length - count)

def keepOSC133Tail (buf : Bytes) : Bytes := lastBytes (osc133Prefix.length - 1) buf

/-- The loop of `consumeOSC133Locked`: the payloads, and the bytes to carry. Every round takes a
prefix off the buffer. -/
def consumeOSC133Loop : ℕ → Bytes → List Bytes × Bytes
  | 0, buf => ([], buf)
  | rounds + 1, buf =>
    match indexOf osc133Prefix buf with
    | none => ([], keepOSC133Tail buf)
    | some idx =>
      let buf := buf.drop (idx + osc133Prefix.length)
      match oscTerminator buf with
      | none =>
        let incomplete := osc133Prefix ++ buf
        ([], if maxOSC < incomplete.length then lastBytes maxOSC incomplete else incomplete)
      | some (termStart, termLen) =>
        let later := consumeOSC133Loop rounds (buf.drop (termStart + termLen))
        (buf.take termStart :: later.1, later.2)

/-- `consumeOSC133Locked`: the payloads, and `osc133Buf` after the call. -/
def consumeOSC133 (osc133Buf data : Bytes) : List Bytes × Bytes :=
  consumeOSC133Loop ((osc133Buf ++ data).length + 1) (osc133Buf ++ data)

/-- The payloads of the chunks of a stream. -/
def feedOSC133 (osc133Buf : Bytes) : List Bytes → List Bytes
  | [] => []
  | chunk :: chunks =>
    (consumeOSC133 osc133Buf chunk).1 ++ feedOSC133 (consumeOSC133 osc133Buf chunk).2 chunks

/-- The marks: the event is the payload and the length of the whole mark. -/
def osc133 : Grammar UInt8 (Bytes × ℕ) where
  width := osc133Prefix.length
  opens := osc133Prefix.isPrefixOf
  body buf := (oscTerminator buf).map fun (termStart, termLen) =>
    (some (buf.take termStart, osc133Prefix.length + termStart + termLen), termStart + termLen)

def markLengths (stream : Bytes) : List ℕ := (osc133.scan 5 stream).1.map Prod.snd

/-! ### Terminators -/

theorem oscTerminator_append {l : Bytes} {found : ℕ × ℕ} (terminated : oscTerminator l = some found)
    (m : Bytes) : oscTerminator (l ++ m) = some found := by
  induction l generalizing found with
  | nil => simp [oscTerminator] at terminated
  | cons b rest ih =>
    rw [oscTerminator] at terminated
    rw [List.cons_append, oscTerminator]
    by_cases bel : b = 0x07
    · rw [if_pos bel] at terminated ⊢
      exact terminated
    · rw [if_neg bel] at terminated ⊢
      by_cases st : b = 0x1b ∧ rest.head? = some 0x5c
      · rw [if_pos st] at terminated
        rw [if_pos ⟨st.1, by simp [List.head?_append, st.2]⟩]
        exact terminated
      · rw [if_neg st] at terminated
        obtain ⟨inner, later, same⟩ := Option.map_eq_some_iff.mp terminated
        -- a terminator further on keeps the next byte, and with it this test, as it is
        have next : rest ≠ [] := by
          rintro rfl
          simp [oscTerminator] at later
        have head : (rest ++ m).head? = rest.head? := by
          rw [List.head?_append, Option.or_of_isSome]
          simpa [List.isSome_head?] using next
        rw [head, if_neg st, ih later, Option.map_some]
        exact congrArg some same

theorem oscTerminator_bounds {l : Bytes} {termStart termLen : ℕ}
    (terminated : oscTerminator l = some (termStart, termLen)) :
    termStart + termLen ≤ l.length := by
  induction l generalizing termStart with
  | nil => simp [oscTerminator] at terminated
  | cons b rest ih =>
    rw [oscTerminator] at terminated
    split_ifs at terminated with bel st
    · cases terminated
      simp
    · cases terminated
      obtain ⟨next, tail, same⟩ := List.exists_cons_of_ne_nil (l := rest) (by
        rintro rfl
        simp at st)
      simp [same]
    · obtain ⟨⟨innerStart, innerLen⟩, later, same⟩ := Option.map_eq_some_iff.mp terminated
      cases same
      have within := ih later
      simp only [List.length_cons]
      omega

theorem oscTerminator_of_append {l m : Bytes} {termStart termLen : ℕ}
    (terminated : oscTerminator (l ++ m) = some (termStart, termLen))
    (within : termStart + termLen ≤ l.length) : oscTerminator l = some (termStart, termLen) := by
  cases own : oscTerminator l with
  | some found => rw [← oscTerminator_append own m, terminated]
  | none =>
    induction l generalizing termStart with
    | nil =>
      cases m with
      | nil => simp [oscTerminator] at terminated
      | cons b rest =>
        rw [List.nil_append, oscTerminator] at terminated
        split_ifs at terminated with bel st
        · cases terminated
          simp at within
        · cases terminated
          simp at within
        · obtain ⟨inner, -, same⟩ := Option.map_eq_some_iff.mp terminated
          cases same
          simp at within
    | cons b rest ih =>
      rw [oscTerminator] at own
      rw [List.cons_append, oscTerminator] at terminated
      split_ifs at own with bel st
      rw [if_neg bel] at terminated
      split_ifs at terminated with later
      · cases terminated
        -- `ESC \` needs its second byte in the first part
        have next : rest ≠ [] := by
          rintro rfl
          simp at within
        rw [List.head?_append_of_ne_nil _ next] at later
        exact absurd later st
      · obtain ⟨⟨innerStart, innerLen⟩, inner, same⟩ := Option.map_eq_some_iff.mp terminated
        cases same
        rw [List.length_cons] at within
        exact absurd (ih inner (by omega) (Option.map_eq_none_iff.mp own)) (by simp)

theorem oscTerminator_none_of_suffix {l m : Bytes} (suffix : m <:+ l)
    (open_ended : oscTerminator l = none) : oscTerminator m = none := by
  induction l with
  | nil =>
    rw [List.suffix_nil.mp suffix]
    rfl
  | cons b rest ih =>
    rcases List.suffix_cons_iff.mp suffix with rfl | later
    · exact open_ended
    · refine ih later ?_
      rw [oscTerminator] at open_ended
      split_ifs at open_ended
      exact Option.map_eq_none_iff.mp open_ended

/-! ### The scan -/

theorem osc133_lawful : osc133.Lawful where
  positive := by decide
  opens_length := by
    intro l opens
    exact (List.isPrefixOf_iff_prefix.mp opens).length_le
  opens_append := by
    intro l m whole
    show osc133Prefix.isPrefixOf (l ++ m) = osc133Prefix.isPrefixOf l
    rw [Bool.eq_iff_iff, List.isPrefixOf_iff_prefix, List.isPrefixOf_iff_prefix]
    constructor
    · intro opens
      exact List.prefix_of_prefix_length_le opens (List.prefix_append l m) whole
    · intro opens
      exact opens.trans (List.prefix_append l m)
  body_length := by
    intro l event size read
    obtain ⟨⟨termStart, termLen⟩, terminated, same⟩ := Option.map_eq_some_iff.mp read
    cases same
    exact oscTerminator_bounds terminated
  body_append := by
    intro l m event size read
    obtain ⟨⟨termStart, termLen⟩, terminated, same⟩ := Option.map_eq_some_iff.mp read
    have within := oscTerminator_bounds terminated
    have read' := oscTerminator_append terminated m
    cases same
    simp only [osc133, read', Option.map_some]
    rw [List.take_append_of_le_length (by omega)]

theorem lastBytes_of_le {count : ℕ} {buf : Bytes} (short : buf.length ≤ count) :
    lastBytes count buf = buf := by
  rw [lastBytes, Nat.sub_eq_zero_of_le short, List.drop_zero]

theorem lastBytes_suffix (count : ℕ) (buf : Bytes) : lastBytes count buf <:+ buf :=
  List.drop_suffix _ _

theorem length_lastBytes (count : ℕ) (buf : Bytes) :
    (lastBytes count buf).length = min count buf.length := by
  rw [lastBytes, List.length_drop]
  omega

theorem indexOf_eq (buf : Bytes) : indexOf osc133Prefix buf = osc133.index buf := by
  induction buf with
  | nil => rfl
  | cons b rest ih =>
    rw [indexOf, Grammar.index, ih]
    rfl

theorem scan_of_indexOf_none {buf : Bytes} (absent : indexOf osc133Prefix buf = none) :
    osc133.scan 5 buf = ([], lastBytes 5 buf) :=
  Grammar.scan_of_index_none 5 ((indexOf_eq buf).symm.trans absent)

theorem scan_of_indexOf_some {buf : Bytes} {idx : ℕ} (found : indexOf osc133Prefix buf = some idx) :
    osc133.scan 5 buf = osc133.scan 5 (buf.drop idx) ∧
      osc133Prefix.isPrefixOf (buf.drop idx) = true :=
  Grammar.scan_of_index_some osc133_lawful (by decide) ((indexOf_eq buf).symm.trans found)

theorem prefix_append_drop {buf : Bytes} {idx : ℕ}
    (opens : osc133Prefix.isPrefixOf (buf.drop idx) = true) :
    osc133Prefix ++ buf.drop (idx + osc133Prefix.length) = buf.drop idx := by
  obtain ⟨rest, same⟩ := List.isPrefixOf_iff_prefix.mp opens
  rw [← List.drop_drop, ← same, List.drop_left]

theorem consumeOSC133Loop_eq {rounds : ℕ} {buf : Bytes} (enough : buf.length < rounds) :
    consumeOSC133Loop rounds buf =
      ((osc133.scan 5 buf).1.map Prod.fst, lastBytes maxOSC (osc133.scan 5 buf).2) := by
  induction rounds generalizing buf with
  | zero => exact absurd enough (Nat.not_lt_zero _)
  | succ rounds ih =>
    rw [consumeOSC133Loop]
    cases index : indexOf osc133Prefix buf with
    | none =>
      rw [scan_of_indexOf_none index]
      have short : (lastBytes 5 buf).length ≤ maxOSC := by
        rw [length_lastBytes]
        exact (min_le_left _ _).trans (by norm_num [maxOSC])
      rw [lastBytes_of_le short]
      rfl
    | some idx =>
      obtain ⟨scans, opens⟩ := scan_of_indexOf_some index
      have whole := (List.isPrefixOf_iff_prefix.mp opens).length_le
      have large : 5 < (buf.drop idx).length := whole
      rw [scans]
      cases terminated : oscTerminator (buf.drop (idx + osc133Prefix.length)) with
      | none =>
        have waits : osc133.body ((buf.drop idx).drop osc133.width) = none := by
          rw [List.drop_drop]
          exact Option.map_eq_none_iff.mpr terminated
        rw [Grammar.scan_waits large opens waits]
        simp only [terminated, prefix_append_drop opens]
        split_ifs with long
        · rfl
        · rw [lastBytes_of_le (not_lt.mp long)]
          rfl
      | some found =>
        obtain ⟨termStart, termLen⟩ := found
        have read : osc133.body ((buf.drop idx).drop osc133.width) =
            some (some ((buf.drop (idx + osc133Prefix.length)).take termStart,
              osc133Prefix.length + termStart + termLen), termStart + termLen) := by
          rw [List.drop_drop]
          exact Option.map_eq_some_iff.mpr ⟨_, terminated, rfl⟩
        rw [Grammar.scan_reads osc133_lawful large opens read, List.drop_drop]
        have fewer : (buf.drop (idx + osc133Prefix.length)).drop (termStart + termLen) =
            buf.drop (idx + (osc133.width + (termStart + termLen))) := by
          rw [List.drop_drop, add_assoc]
          rfl
        simp only [terminated]
        rw [ih ?_, fewer]
        · simp only [Option.toList_some, List.singleton_append, List.map_cons]
        · rw [fewer, List.length_drop]
          have six : osc133.width = 6 := rfl
          have within := enough
          rw [List.length_drop] at large
          omega

/-- **A call scans the carried bytes and the chunk**, and caps what it carries. -/
theorem consumeOSC133_eq (osc133Buf data : Bytes) :
    consumeOSC133 osc133Buf data =
      ((osc133.scan 5 (osc133Buf ++ data)).1.map Prod.fst,
        lastBytes maxOSC (osc133.scan 5 (osc133Buf ++ data)).2) :=
  consumeOSC133Loop_eq (Nat.lt_succ_self _)

/-! ### Chunks -/

theorem scan_unterminated {buf : Bytes} (open_ended : oscTerminator buf = none) :
    (osc133.scan 5 buf).1 = [] := by
  induction buf using Grammar.scan_induction 5 osc133_lawful with
  | small l small => rw [Grammar.scan_small small]
  | waits l large opens waits => rw [Grammar.scan_waits large opens waits]
  | reads l event size large opens read ih =>
    have none_later := oscTerminator_none_of_suffix (List.drop_suffix osc133.width l) open_ended
    obtain ⟨found, terminated, -⟩ := Option.map_eq_some_iff.mp read
    rw [none_later] at terminated
    cases terminated
  | skips l large plain ih =>
    rw [Grammar.scan_skips large plain]
    exact ih (oscTerminator_none_of_suffix (List.tail_suffix l) open_ended)

theorem feedOSC133_unterminated (chunks : List Bytes) {buf : Bytes}
    (open_ended : oscTerminator (buf ++ chunks.flatten) = none) : feedOSC133 buf chunks = [] := by
  induction chunks generalizing buf with
  | nil => rfl
  | cons chunk chunks ih =>
    rw [List.flatten_cons, ← List.append_assoc] at open_ended
    have now : oscTerminator (buf ++ chunk) = none := by
      by_contra terminated
      obtain ⟨found, terminated⟩ := Option.ne_none_iff_exists'.mp terminated
      rw [oscTerminator_append terminated] at open_ended
      cases open_ended
    have carried : lastBytes maxOSC (osc133.scan 5 (buf ++ chunk)).2 <:+ buf ++ chunk :=
      (lastBytes_suffix maxOSC _).trans (Grammar.scan_suffix osc133_lawful 5 (buf ++ chunk))
    have later := ih (oscTerminator_none_of_suffix (List.suffix_append_self_iff.mpr carried)
      open_ended)
    rw [feedOSC133, consumeOSC133_eq, scan_unterminated now, later]
    rfl

theorem unterminated_of_long {rest later : Bytes} (long : maxOSC < rest.length)
    (opens : osc133.opens rest = true) (waits : osc133.body (rest.drop osc133.width) = none)
    (sized : ∀ length ∈ markLengths (rest ++ later), length ≤ maxOSC) :
    oscTerminator ((rest ++ later).drop osc133.width) = none := by
  by_contra terminated
  obtain ⟨⟨termStart, termLen⟩, terminated⟩ := Option.ne_none_iff_exists'.mp terminated
  have whole := osc133_lawful.opens_length rest opens
  have open_ended : oscTerminator (rest.drop osc133.width) = none := Option.map_eq_none_iff.mp waits
  have beyond : rest.length < osc133.width + (termStart + termLen) := by
    by_contra within
    rw [List.drop_append_of_le_length whole] at terminated
    rw [oscTerminator_of_append terminated (by rw [List.length_drop]; omega)] at open_ended
    cases open_ended
  have read : osc133.body ((rest ++ later).drop osc133.width) =
      some (some (((rest ++ later).drop osc133.width).take termStart,
        osc133Prefix.length + termStart + termLen), termStart + termLen) :=
    Option.map_eq_some_iff.mpr ⟨_, terminated, rfl⟩
  have opensMore : osc133.opens (rest ++ later) = true := by
    rw [osc133_lawful.opens_append rest later whole, opens]
  have large : 5 < (rest ++ later).length := by
    have six : osc133.width = 6 := rfl
    rw [List.length_append]
    omega
  have fits : osc133Prefix.length + termStart + termLen ≤ maxOSC := by
    refine sized _ ?_
    rw [markLengths, Grammar.scan_reads osc133_lawful large opensMore read]
    simp
  have six : osc133.width = osc133Prefix.length := rfl
  omega

theorem oscTerminator_lastBytes {rest later : Bytes} (long : maxOSC < rest.length)
    (opens : osc133.opens rest = true)
    (open_ended : oscTerminator ((rest ++ later).drop osc133.width) = none) :
    oscTerminator (lastBytes maxOSC rest ++ later) = none := by
  obtain ⟨payload, same⟩ := List.isPrefixOf_iff_prefix.mp opens
  subst same
  have after : oscTerminator (payload ++ later) = none := open_ended
  have tail : oscTerminator ((osc133Prefix ++ payload).drop 1 ++ later) = none := by
    simp [osc133Prefix, oscTerminator, after]
  refine oscTerminator_none_of_suffix ?_ tail
  have suffix : lastBytes maxOSC (osc133Prefix ++ payload) <:+ (osc133Prefix ++ payload).drop 1 := by
    rw [lastBytes, show (osc133Prefix ++ payload).length - maxOSC =
      1 + ((osc133Prefix ++ payload).length - maxOSC - 1) by omega, ← List.drop_drop]
    exact List.drop_suffix _ _
  exact List.suffix_append_self_iff.mpr suffix

/-- **The chunks from a rest on** have the marks of the whole stream from there on. -/
theorem feedOSC133_rest (chunks : List Bytes) {rest : Bytes} (left : osc133.scan 5 rest = ([], rest))
    (sized : ∀ length ∈ markLengths (rest ++ chunks.flatten), length ≤ maxOSC) :
    feedOSC133 rest chunks = (osc133.scan 5 (rest ++ chunks.flatten)).1.map Prod.fst := by
  induction chunks generalizing rest with
  | nil => simp [feedOSC133, left]
  | cons chunk chunks ih =>
    rw [List.flatten_cons, ← List.append_assoc] at sized ⊢
    have resumed := Grammar.scan_append 5 osc133_lawful (rest ++ chunk) chunks.flatten
      (Or.inl le_rfl)
    have sizedLater : ∀ length ∈
        markLengths ((osc133.scan 5 (rest ++ chunk)).2 ++ chunks.flatten), length ≤ maxOSC := by
      intro length inside
      refine sized length ?_
      rw [markLengths, resumed, List.map_append]
      exact List.mem_append_right _ inside
    rw [feedOSC133, consumeOSC133_eq, resumed, List.map_append]
    refine congrArg (_ ++ ·) ?_
    rcases Nat.lt_or_ge maxOSC (osc133.scan 5 (rest ++ chunk)).2.length with long | short
    · have larger : 5 < (osc133.scan 5 (rest ++ chunk)).2.length :=
        lt_trans (by norm_num [maxOSC]) long
      obtain ⟨opens, waits⟩ := Grammar.scan_rest_waits osc133_lawful _ larger
      have open_ended := unterminated_of_long long opens waits sizedLater
      rw [feedOSC133_unterminated _ (oscTerminator_lastBytes long opens open_ended)]
      have whole := osc133_lawful.opens_length _ opens
      have waitsOn : osc133.scan 5 ((osc133.scan 5 (rest ++ chunk)).2 ++ chunks.flatten) =
          ([], (osc133.scan 5 (rest ++ chunk)).2 ++ chunks.flatten) := by
        refine Grammar.scan_waits ?_ ?_ (Option.map_eq_none_iff.mpr open_ended)
        · rw [List.length_append]
          omega
        · rw [osc133_lawful.opens_append _ _ whole, opens]
      rw [waitsOn, List.map_nil]
    · rw [lastBytes_of_le short]
      exact ih (Grammar.scan_rest osc133_lawful 5 _) sizedLater

/-- **Marks of at most 4096 bytes are the same for every splitting of the output into chunks.** -/
theorem feedOSC133_eq (chunks : List Bytes)
    (sized : ∀ length ∈ markLengths chunks.flatten, length ≤ maxOSC) :
    feedOSC133 [] chunks = (consumeOSC133 [] chunks.flatten).1 := by
  have left : osc133.scan 5 [] = ([], []) := Grammar.scan_small (Nat.zero_le 5)
  rw [feedOSC133_rest chunks left sized, consumeOSC133_eq]

theorem feedOSC133_cut :
    feedOSC133 [] [[0x1b, 0x5d, 0x31], [0x33, 0x33, 0x3b, 0x41, 0x1b], [0x5c, 0x24]] =
      (consumeOSC133 [] [0x1b, 0x5d, 0x31, 0x33, 0x33, 0x3b, 0x41, 0x1b, 0x5c, 0x24]).1 := by
  refine feedOSC133_eq [[0x1b, 0x5d, 0x31], [0x33, 0x33, 0x3b, 0x41, 0x1b], [0x5c, 0x24]] ?_
  have marks : markLengths [0x1b, 0x5d, 0x31, 0x33, 0x33, 0x3b, 0x41, 0x1b, 0x5c, 0x24] = [9] := by
    have read : osc133.body (List.drop osc133.width
        [0x1b, 0x5d, 0x31, 0x33, 0x33, 0x3b, 0x41, 0x1b, 0x5c, 0x24]) =
          some (some ([0x41], 9), 3) := by
      decide
    rw [markLengths, Grammar.scan_reads osc133_lawful (by decide) (by decide) read,
      Grammar.scan_small (by decide)]
    rfl
  intro length inside
  have nine : length ∈ [9] := marks ▸ inside
  rw [List.mem_singleton.mp nine]
  norm_num [maxOSC]

end Atterm.Terminal
