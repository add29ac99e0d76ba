/-
**The pages of the prompt history.**

The history is shown in pages, the newest prompts first. A page names the last row on it in a cursor, which
is opaque to the renderer, and the next request starts behind that row; prompts are recorded meanwhile.

* `PromptHistoryStore.page` — one request, `PageWalk` — the requests from the first page to the last;
* `decodePromptHistoryCursor_encode` — a cursor is read as what it was written from;
* `pageWalk_steady` — an entry that stays as it is, is on one of the pages and stands there once.
-/

import Atterm.Foundation.Paging
import Atterm.Foundation.JsonText
import Atterm.Foundation.JsonFields
import Atterm.Desktop.PromptHistory

namespace Atterm.Desktop

open Atterm.Foundation

def promptHistoryPageSize : ℤ := 5

structure PromptHistoryPage where
  items : List PromptHistoryItem
  nextCursor : String
  total : ℕ
deriving DecidableEq, Repr

/-! ### Cursors -/

abbrev PromptHistoryCursor := PromptHistoryItem

inductive CursorError
  | base64
  | json
  | missingText
deriving DecidableEq, Repr

def cursorJson (cursor : PromptHistoryCursor) : Json :=
  .obj [("last_used_at", .int cursor.lastUsedAt.toInt), ("text", .str cursor.text)]

def readCursor : Json → Option PromptHistoryCursor
  | .null => some ⟨"", 0⟩
  | .obj members =>
    match readField (decodeInt (-2 ^ 63) (2 ^ 63 - 1)) 0 "last_used_at" members,
      readField decodeText "" "text" members with
    | some lastUsedAt, some text => some ⟨text, Int64.ofInt lastUsedAt⟩
    | _, _ => none
  | _ => none

def encodePromptHistoryCursor (cursor : PromptHistoryCursor) : String :=
  Base64.encode (cursorJson cursor).bytes

def decodePromptHistoryCursor (cursor : String) : Except CursorError PromptHistoryCursor :=
  match Base64.decodeRawURL cursor with
  | none => .error .base64
  | some blob =>
    match (Json.read blob).bind readCursor with
    | none => .error .json
    | some decoded => if decoded.text = "" then .error .missingText else .ok decoded

theorem cursorJson_valid (cursor : PromptHistoryCursor) : (cursorJson cursor).Valid := by
  rw [cursorJson, Json.Valid, membersValid_iff]
  intro member listed
  rcases List.mem_pair.mp listed with rfl | rfl
  · exact Json.int_valid _
  · exact (reads_text cursor.text).valid

theorem readCursor_cursorJson (cursor : PromptHistoryCursor) :
    readCursor (cursorJson cursor) = some cursor := by
  have distinct : ([("last_used_at", Json.int cursor.lastUsedAt.toInt), ("text", Json.str cursor.text)].map
      fun member => foldName member.1).Nodup := by
    show (["last_used_at", "text"].map foldName).Nodup
    decide
  have range : -2 ^ 63 ≤ cursor.lastUsedAt.toInt ∧ cursor.lastUsedAt.toInt ≤ 2 ^ 63 - 1 :=
    ⟨Int64.le_toInt _, Int.le_sub_one_of_lt (Int64.toInt_lt _)⟩
  have time : readField (decodeInt (-2 ^ 63) (2 ^ 63 - 1)) 0 "last_used_at" _ = _ :=
    readField_of_mem distinct List.mem_cons_self (reads_int range)
  have text : readField decodeText "" "text" _ = _ :=
    readField_of_mem distinct (List.mem_cons_of_mem _ List.mem_cons_self) (reads_text _)
  rw [cursorJson, readCursor, time, text]
  exact congrArg (fun time => some (PromptHistoryItem.mk cursor.text time)) (Int64.ofInt_toInt _)

/-- **A cursor is read as what it was written from.** -/
theorem decodePromptHistoryCursor_encode {cursor : PromptHistoryCursor} (named : cursor.text ≠ "") :
    decodePromptHistoryCursor (encodePromptHistoryCursor cursor) = .ok cursor := by
  rw [decodePromptHistoryCursor, encodePromptHistoryCursor, Base64.decodeRawURL_encode]
  dsimp only
  rw [Json.read_bytes _ (cursorJson_valid cursor), Option.bind_some, readCursor_cursorJson]
  exact if_neg named

theorem encodePromptHistoryCursor_ne (cursor : PromptHistoryCursor) :
    encodePromptHistoryCursor cursor ≠ "" := by
  refine Base64.encode_ne_empty fun none => ?_
  have read := Json.read_bytes _ (cursorJson_valid cursor)
  rw [none] at read
  cases read

/-! ### Pages -/

/-- `strings.TrimLeft(prefix, " \t\r\n")` -/
def trimLeft (text : Bytes) : Bytes := text.dropWhile fun b => b ∈ [0x20, 0x09, 0x0d, 0x0a]

def asciiFold (b : UInt8) : UInt8 := if 0x41 ≤ b ∧ b ≤ 0x5a then b + 0x20 else b

def asciiFoldHasPrefix (text typed : Bytes) : Bool :=
  typed.length ≤ text.length && (text.zip typed).all fun pair => asciiFold pair.1 == asciiFold pair.2

/-- A text is listed for what was typed: for nothing every text is, else those that continue it. -/
def continues (typed : Bytes) (text : String) : Bool :=
  typed = [] || (asciiFoldHasPrefix (utf8 text) typed && (utf8 text).length != typed.length)

def tooShort (typed : Bytes) : Prop := typed ≠ [] ∧ (Terminal.runes typed).length < 2

instance (typed : Bytes) : Decidable (tooShort typed) := inferInstanceAs (Decidable (_ ∧ _))

def expired (now : Int64) (entry : PromptHistoryEntry) : Bool := entry.lastUsedAt < cutoff now

def matchesOf (typed : Bytes) (now : Int64) (entries : List PromptHistoryEntry) : List PromptHistoryItem :=
  ((entries.filter fun entry => !expired now entry && continues typed entry.text).map
    PromptHistoryEntry.item).mergeSort fun one other => !other.less one

def behind (after : PromptHistoryCursor) (item : PromptHistoryItem) : Bool :=
  item.lastUsedAt < after.lastUsedAt || (item.lastUsedAt == after.lastUsedAt && after.text < item.text)

def startOf (rows : List PromptHistoryItem) : Option PromptHistoryCursor → ℕ
  | none => 0
  | some after => rows.findIdx (behind after)

/-- At most `limit` rows behind the cursor. -/
def window (rows : List PromptHistoryItem) (after : Option PromptHistoryCursor) (limit : ℕ) :
    PromptHistoryPage :=
  let start := startOf rows after
  let stop := min (start + limit) rows.length
  let items := (rows.take stop).drop start
  { items
    nextCursor := match items.getLast? with
      | some last => if stop < rows.length then encodePromptHistoryCursor last else ""
      | none => ""
    total := rows.length }

def emptyPage : PromptHistoryPage := ⟨[], "", 0⟩

/-- The cursor of a request; the empty text is none. -/
def readAfter (cursor : String) : Except CursorError (Option PromptHistoryCursor) :=
  if cursor = "" then .ok none else (decodePromptHistoryCursor cursor).map some

/-- One request. What was typed stands for the source's `prefix`. -/
def PromptHistoryStore.page (s : PromptHistoryStore) (typed : Bytes) (cursor : String) (limit : ℤ)
    (now : Int64) : Except CursorError PromptHistoryPage :=
  if tooShort (trimLeft typed) ∨ limit ≤ 0 then .ok emptyPage
  else
    (readAfter cursor).map fun after =>
      if s.enabled = false then emptyPage
      else window (matchesOf (trimLeft typed) now s.entries) after (min limit promptHistoryPageSize).toNat

/-! ### A page is cut from the sorted rows -/

theorem behind_iff (after item : PromptHistoryItem) : behind after item = true ↔ after.key < item.key := by
  rw [← less_iff, PromptHistoryItem.less, behind]
  by_cases times : after.lastUsedAt = item.lastUsedAt
  · rw [if_neg (not_not.mpr times), times]
    simp
  · rw [if_pos times]
    simp [Ne.symm times]

theorem matchesOf_sorted {entries : List PromptHistoryEntry} (tidy : Tidy entries) (typed : Bytes)
    (now : Int64) : Paging.Sorted PromptHistoryItem.key (matchesOf typed now entries) := by
  set listed := (entries.filter fun entry => !expired now entry && continues typed entry.text).map
    PromptHistoryEntry.item with listed_eq
  have apart : listed.Nodup := by
    refine List.Nodup.of_map PromptHistoryItem.text ?_
    rw [listed_eq, List.map_map]
    exact tidy.distinct.sublist (List.filter_sublist.map _)
  have distinct : (matchesOf typed now entries).Nodup := (List.mergeSort_perm _ _).nodup_iff.mpr apart
  refine ((sort_pairwise id listed).and distinct).imp fun {one other} both => ?_
  exact lt_of_le_of_ne both.1 fun same => both.2 (key_injective same)

theorem mem_matchesOf {typed : Bytes} {now : Int64} {entries : List PromptHistoryEntry}
    {item : PromptHistoryItem} : item ∈ matchesOf typed now entries ↔
      ∃ entry ∈ entries, entry.item = item ∧ expired now entry = false ∧
        continues typed entry.text = true := by
  rw [matchesOf, List.mem_mergeSort, List.mem_map]
  constructor
  · rintro ⟨entry, kept, rfl⟩
    obtain ⟨listed, fits⟩ := List.mem_filter.mp kept
    rw [Bool.and_eq_true, Bool.not_eq_true'] at fits
    exact ⟨entry, listed, rfl, fits⟩
  · rintro ⟨entry, listed, rfl, fresh, fits⟩
    exact ⟨entry, List.mem_filter.mpr ⟨listed, by rw [fresh, fits]; rfl⟩, rfl⟩

theorem matchesOf_named {entries : List PromptHistoryEntry} (tidy : Tidy entries) (typed : Bytes)
    (now : Int64) : ∀ row ∈ matchesOf typed now entries, row.text ≠ "" := by
  intro row listed
  obtain ⟨entry, stored, rfl, _⟩ := mem_matchesOf.mp listed
  exact tidy.named entry stored

section Window

variable {rows : List PromptHistoryItem} (sorted : Paging.Sorted PromptHistoryItem.key rows)
  (after : Option PromptHistoryCursor) (limit : ℕ)

include sorted

theorem drop_startOf : rows.drop (startOf rows after) =
    Paging.rest PromptHistoryItem.key (after.map PromptHistoryItem.key) rows := by
  cases after with
  | none =>
    have all : ∀ item ∈ rows, decide (Paging.Beyond PromptHistoryItem.key none item) = true :=
      fun item _ => decide_eq_true nofun
    rw [startOf, List.drop_zero, Option.map_none, Paging.rest, List.filter_eq_self.mpr all]
  | some after =>
    have same : behind after = fun item => decide (Paging.Beyond PromptHistoryItem.key
        ((some after).map PromptHistoryItem.key) item) := by
      funext item
      rw [Bool.eq_iff_iff, behind_iff, decide_eq_true_iff, Option.map_some]
      exact ⟨fun past cursor held => Option.some.inj held ▸ past, fun past => past _ rfl⟩
    rw [startOf, same]
    exact Paging.drop_findIdx sorted

/-- **A window is a page of the sorted rows.** -/
theorem window_items : (window rows after limit).items =
    Paging.page PromptHistoryItem.key limit (after.map PromptHistoryItem.key) rows := by
  have left := congrArg List.length (drop_startOf sorted after)
  rw [List.length_drop] at left
  rw [window, Paging.page]
  dsimp only
  rw [List.drop_take, drop_startOf sorted after]
  rcases Nat.lt_or_ge limit (Paging.rest PromptHistoryItem.key (after.map PromptHistoryItem.key) rows).length
    with more | all
  · congr 1
    omega
  · rw [List.take_of_length_le all, List.take_of_length_le (by omega)]

/-- **The cursor of a window is the key of its last row, while rows are left.** -/
theorem window_cursor (named : ∀ row ∈ rows, row.text ≠ "") :
    ((window rows after limit).nextCursor = "" ∧
      Paging.next PromptHistoryItem.key limit (after.map PromptHistoryItem.key) rows = none) ∨
    ∃ last : PromptHistoryCursor, last.text ≠ "" ∧
      (window rows after limit).nextCursor = encodePromptHistoryCursor last ∧
      Paging.next PromptHistoryItem.key limit (after.map PromptHistoryItem.key) rows = some last.key := by
  have items := window_items sorted after limit
  have left := congrArg List.length (drop_startOf sorted after)
  rw [List.length_drop] at left
  have more : min (startOf rows after + limit) rows.length < rows.length ↔
      limit < (Paging.rest PromptHistoryItem.key (after.map PromptHistoryItem.key) rows).length := by
    omega
  rw [Paging.next, ← items]
  rw [window] at items ⊢
  dsimp only at items ⊢
  cases last : ((rows.take (min (startOf rows after + limit) rows.length)).drop
      (startOf rows after)).getLast? with
  | none => exact .inl ⟨rfl, by rw [Option.map_none, ite_self]⟩
  | some row =>
    dsimp only
    by_cases ends : min (startOf rows after + limit) rows.length < rows.length
    · right
      refine ⟨row, named row ?_, if_pos ends, ?_⟩
      · exact List.mem_of_mem_take (List.mem_of_mem_drop (List.mem_of_getLast? last))
      · rw [if_pos (more.mp ends), Option.map_some]
    · exact .inl ⟨if_neg ends, if_neg (more.not.mp ends)⟩

end Window

/-! ### From the first page to the last -/

/-- A request: the store at that time, the clock, the answer, and what is recorded before the next one. -/
structure Visit where
  store : PromptHistoryStore
  now : Int64
  page : PromptHistoryPage
  recorded : List (Bytes × Int64)

/-- The requests from a cursor on until a page names no other. -/
inductive PageWalk (typed : Bytes) (limit : ℤ) : PromptHistoryStore → String → List Visit → Prop
  | last (s : PromptHistoryStore) (cursor : String) (now : Int64) (page : PromptHistoryPage)
      (recorded : List (Bytes × Int64)) (answer : s.page typed cursor limit now = .ok page)
      (ended : page.nextCursor = "") : PageWalk typed limit s cursor [⟨s, now, page, recorded⟩]
  | turn (s : PromptHistoryStore) (cursor : String) (now : Int64) (page : PromptHistoryPage)
      (recorded : List (Bytes × Int64)) (later : List Visit)
      (answer : s.page typed cursor limit now = .ok page) (more : page.nextCursor ≠ "")
      (walk : PageWalk typed limit (s.recordAll recorded) page.nextCursor later) :
      PageWalk typed limit s cursor (⟨s, now, page, recorded⟩ :: later)

/-- The rows that the pages of a walk show, in turn. -/
def shown (visits : List Visit) : List PromptHistoryItem := visits.flatMap fun visit => visit.page.items

/-- A text is listed, stored and not expired at each request, and not recorded between them. -/
structure Steady (typed : Bytes) (visits : List Visit) (text : String) : Prop where
  continued : continues (trimLeft typed) text = true
  stored : ∀ visit ∈ visits, ∃ entry ∈ visit.store.entries, entry.text = text ∧ expired visit.now entry = false
  unrecorded : ∀ visit ∈ visits, ∀ recorded ∈ visit.recorded,
    String.fromUTF8? recorded.1.toByteArray ≠ some text

def Visit.rows (typed : Bytes) (visit : Visit) : List PromptHistoryItem :=
  matchesOf (trimLeft typed) visit.now visit.store.entries

section Walks

variable {typed : Bytes} {limit : ℤ} {s : PromptHistoryStore} {cursor : String} {visits : List Visit}

theorem readAfter_encode {last : PromptHistoryCursor} (named : last.text ≠ "") :
    readAfter (encodePromptHistoryCursor last) = .ok (some last) := by
  rw [readAfter, if_neg (encodePromptHistoryCursor_ne last), decodePromptHistoryCursor_encode named]
  rfl

/-- **A page is what follows the cursor in the sorted list of the matching rows.** -/
theorem page_listed {now : Int64} {page : PromptHistoryPage} {after : Option PromptHistoryCursor}
    (listing : ¬ tooShort (trimLeft typed)) (positive : 0 < limit) (enabled : s.enabled = true)
    (read : readAfter cursor = .ok after) (answer : s.page typed cursor limit now = .ok page) :
    page = window (matchesOf (trimLeft typed) now s.entries) after
      (min limit promptHistoryPageSize).toNat := by
  have refused : ¬ (tooShort (trimLeft typed) ∨ limit ≤ 0) := not_or.mpr ⟨listing, not_le.mpr positive⟩
  have on : ¬ s.enabled = false := by
    rw [enabled]
    exact Bool.noConfusion
  rw [PromptHistoryStore.page, if_neg refused, read] at answer
  cases answer
  exact if_neg on

theorem PageWalk.tidy (walk : PageWalk typed limit s cursor visits) (tidy : Tidy s.entries) :
    ∀ visit ∈ visits, Tidy visit.store.entries := by
  induction walk with
  | last s cursor now page recorded answer ended =>
    intro visit listed
    rwa [List.mem_singleton.mp listed]
  | turn s cursor now page recorded later answer more walk ih =>
    intro visit listed
    rcases List.mem_cons.mp listed with rfl | listed
    · exact tidy
    · exact ih (PromptHistoryStore.tidy_recordAll tidy recorded) visit listed

/-- **The requests read the sorted rows page by page.** -/
theorem PageWalk.reads (walk : PageWalk typed limit s cursor visits) (listing : ¬ tooShort (trimLeft typed))
    (positive : 0 < limit) (enabled : s.enabled = true) (tidy : Tidy s.entries)
    {after : Option PromptHistoryCursor} (read : readAfter cursor = .ok after) :
    Paging.Walk PromptHistoryItem.key (min limit promptHistoryPageSize).toNat
        (after.map PromptHistoryItem.key) (visits.map (Visit.rows typed)) ∧
      shown visits = Paging.walked PromptHistoryItem.key (min limit promptHistoryPageSize).toNat
        (after.map PromptHistoryItem.key) (visits.map (Visit.rows typed)) := by
  induction walk generalizing after with
  | last s cursor now page recorded answer ended =>
    have sorted := matchesOf_sorted tidy (trimLeft typed) now
    have cut := page_listed listing positive enabled read answer
    have items := window_items sorted after (min limit promptHistoryPageSize).toNat
    rw [← cut] at items
    rcases window_cursor sorted after (min limit promptHistoryPageSize).toNat (matchesOf_named tidy _ now) with
      ⟨_, none⟩ | ⟨last, _, written, _⟩
    · refine ⟨.done _ _ none, ?_⟩
      rw [shown, List.flatMap_singleton, List.map_singleton, Paging.walked, Paging.walked,
        List.append_nil]
      exact items
    · rw [← cut, ended] at written
      exact absurd written.symm (encodePromptHistoryCursor_ne last)
  | turn s cursor now page recorded later answer more walk ih =>
    have sorted := matchesOf_sorted tidy (trimLeft typed) now
    have cut := page_listed listing positive enabled read answer
    have items := window_items sorted after (min limit promptHistoryPageSize).toNat
    rw [← cut] at items
    rcases window_cursor sorted after (min limit promptHistoryPageSize).toNat (matchesOf_named tidy _ now) with
      ⟨none, _⟩ | ⟨last, named, written, goes⟩
    · rw [← cut] at none
      exact absurd none more
    · rw [← cut] at written
      obtain ⟨rest, shows⟩ := ih ((PromptHistoryStore.recordAll_enabled recorded).trans enabled)
        (PromptHistoryStore.tidy_recordAll tidy recorded) (written ▸ readAfter_encode named)
      refine ⟨.turn _ _ _ _ goes rest, ?_⟩
      rw [shown, List.flatMap_cons, List.map_cons, Paging.walked, Visit.rows, goes, ← items]
      exact congrArg (page.items ++ ·) shows

theorem PageWalk.unchanged (walk : PageWalk typed limit s cursor visits) {text : String}
    (unrecorded : ∀ visit ∈ visits, ∀ recorded ∈ visit.recorded,
      String.fromUTF8? recorded.1.toByteArray ≠ some text) :
    ∀ visit ∈ visits, ∀ entry ∈ visit.store.entries, entry.text = text →
      ∃ source ∈ s.entries, source.item = entry.item := by
  induction walk with
  | last s cursor now page recorded answer ended =>
    intro visit listed entry stored same
    rw [List.mem_singleton.mp listed] at stored
    exact ⟨entry, stored, rfl⟩
  | turn s cursor now page recorded later answer more walk ih =>
    intro visit listed entry stored same
    rcases List.mem_cons.mp listed with rfl | listed
    · exact ⟨entry, stored, rfl⟩
    · obtain ⟨middle, held, item⟩ := ih
        (fun visit listed => unrecorded visit (List.mem_cons_of_mem _ listed)) visit listed entry stored same
      have name : middle.text = text := (congrArg PromptHistoryItem.text item).trans same
      obtain ⟨source, first, item'⟩ := PromptHistoryStore.recordAll_other held
        (name ▸ unrecorded _ List.mem_cons_self)
      exact ⟨source, first, item'.trans item⟩

theorem page_cases {now : Int64} {page : PromptHistoryPage}
    (answer : s.page typed cursor limit now = .ok page) :
    page = emptyPage ∨ ∃ after, page = window (matchesOf (trimLeft typed) now s.entries) after
      (min limit promptHistoryPageSize).toNat := by
  rw [PromptHistoryStore.page] at answer
  split_ifs at answer with refused off
  · cases answer
    exact .inl rfl
  · cases read : readAfter cursor with
    | error error =>
      rw [read] at answer
      cases answer
    | ok after =>
      rw [read] at answer
      cases answer
      exact .inl rfl
  · cases read : readAfter cursor with
    | error error =>
      rw [read] at answer
      cases answer
    | ok after =>
      rw [read] at answer
      cases answer
      exact .inr ⟨after, rfl⟩

/-- **The cursor of a page is taken by the next request**, whatever was recorded meanwhile. -/
theorem page_continues {now : Int64} {page : PromptHistoryPage} (tidy : Tidy s.entries)
    (answer : s.page typed cursor limit now = .ok page) (later : PromptHistoryStore) (clock : Int64) :
    ∃ next, later.page typed page.nextCursor limit clock = .ok next := by
  have taken : ∃ after, readAfter page.nextCursor = .ok after := by
    rcases page_cases answer with rfl | ⟨after, rfl⟩
    · exact ⟨none, rfl⟩
    · rcases window_cursor (matchesOf_sorted tidy (trimLeft typed) now) after
        (min limit promptHistoryPageSize).toNat (matchesOf_named tidy (trimLeft typed) now) with
        ⟨none, _⟩ | ⟨last, named, written, _⟩
      · exact ⟨_, congrArg readAfter none⟩
      · exact ⟨_, (congrArg readAfter written).trans (readAfter_encode named)⟩
  obtain ⟨after, read⟩ := taken
  rw [PromptHistoryStore.page, read]
  by_cases refused : tooShort (trimLeft typed) ∨ limit ≤ 0
  · exact ⟨_, if_pos refused⟩
  · exact ⟨_, if_neg refused⟩

theorem PageWalk.answers (walk : PageWalk typed limit s cursor visits) :
    ∀ visit ∈ visits, ∃ cursor, visit.store.page typed cursor limit visit.now = .ok visit.page := by
  induction walk with
  | last s cursor now page recorded answer ended =>
    intro visit listed
    rw [List.mem_singleton.mp listed]
    exact ⟨cursor, answer⟩
  | turn s cursor now page recorded later answer more walk ih =>
    intro visit listed
    rcases List.mem_cons.mp listed with rfl | listed
    · exact ⟨cursor, answer⟩
    · exact ih visit listed

end Walks

/-- **Paging is stable while prompts are recorded.** The rows that a walk shows stand in their order; an
entry that stays listed, stored, unexpired and unrecorded stands there once; the texts are distinct and
within the cap after every record; and no request is refused for its cursor. -/
theorem pageWalk_steady (doc : Option PromptHistoryDocument) (opened : Int64) (before : List (Bytes × Int64))
    (typed : Bytes) (limit : ℤ) (visits : List Visit) (listing : ¬ tooShort (trimLeft typed))
    (positive : 0 < limit) (enabled : (PromptHistoryStore.load doc opened).enabled = true)
    (walk : PageWalk typed limit ((PromptHistoryStore.load doc opened).recordAll before) "" visits) :
    (shown visits).Pairwise (fun one other => one.less other = true) ∧
      (∀ entry ∈ ((PromptHistoryStore.load doc opened).recordAll before).entries,
        Steady typed visits entry.text →
          (shown visits).filter (fun item => item.text = entry.text) = [entry.item]) ∧
      (∀ visit ∈ visits, ∀ count,
        Tidy (visit.store.recordAll (visit.recorded.take count)).entries) ∧
      ∀ visit ∈ visits, ∀ (later : PromptHistoryStore) (clock : Int64),
        ∃ next, later.page typed visit.page.nextCursor limit clock = .ok next := by
  have tidy := PromptHistoryStore.tidy_recordAll (PromptHistoryStore.tidy_load doc opened) before
  have on := (PromptHistoryStore.recordAll_enabled (s := PromptHistoryStore.load doc opened) before).trans
    enabled
  set s := (PromptHistoryStore.load doc opened).recordAll before
  have each := walk.tidy tidy
  have first : readAfter "" = .ok none := if_pos rfl
  obtain ⟨paged, shows⟩ := walk.reads listing positive on tidy first
  have sorted : ∀ rows ∈ visits.map (Visit.rows typed), Paging.Sorted PromptHistoryItem.key rows := by
    intro rows listed
    obtain ⟨visit, inside, rfl⟩ := List.mem_map.mp listed
    exact matchesOf_sorted (each visit inside) _ _
  have ordered := (Paging.walked_sorted paged sorted).1
  rw [← shows] at ordered
  refine ⟨ordered.imp fun {one other} => (less_iff one other).mpr, ?_, ?_, ?_⟩
  · intro entry stored steady
    -- At each request the text is stored with the time that it had at the first one.
    have same {visit : Visit} (inside : visit ∈ visits) {found : PromptHistoryEntry}
        (held : found ∈ visit.store.entries) (name : found.text = entry.text) : found.item = entry.item := by
      obtain ⟨source, first, item⟩ := walk.unchanged steady.unrecorded visit inside found held name
      have named : source.text = entry.text := (congrArg PromptHistoryItem.text item).trans name
      rw [← item, List.inj_on_of_nodup_map tidy.distinct first stored named]
    have listed : entry.item ∈ shown visits := by
      rw [shows]
      refine Paging.mem_walked paged sorted (by rw [promptHistoryPageSize]; omega) ?_ nofun
      intro rows listed
      obtain ⟨visit, inside, rfl⟩ := List.mem_map.mp listed
      obtain ⟨found, held, name, fresh⟩ := steady.stored visit inside
      exact mem_matchesOf.mpr ⟨found, held, same inside held name, fresh, name ▸ steady.continued⟩
    refine ordered.filter_eq_singleton listed (decide_eq_true rfl) fun item on named => ?_
    rw [shows] at on
    obtain ⟨rows, listed, on⟩ := Paging.exists_of_mem_walked on
    obtain ⟨visit, inside, rfl⟩ := List.mem_map.mp listed
    obtain ⟨found, held, rfl, _⟩ := mem_matchesOf.mp on
    exact same inside held (of_decide_eq_true named)
  · intro visit inside count
    exact PromptHistoryStore.tidy_recordAll (each visit inside) _
  · intro visit inside later clock
    obtain ⟨cursor, answer⟩ := walk.answers visit inside
    exact page_continues (each visit inside) answer later clock

/-- Two prompts, the newer one used a number of times. -/
def sampleEntries (count : Int64) : List PromptHistoryEntry := [⟨"ls", count, 9⟩, ⟨"lp", 1, 5⟩]

/-- Two pages of one row, with a record of the row on the first one between them. -/
def sampleVisits : List Visit :=
  [⟨⟨true, sampleEntries 1⟩, 9, ⟨[⟨"ls", 9⟩], encodePromptHistoryCursor ⟨"ls", 9⟩, 2⟩, [([0x6c, 0x73], 9)]⟩,
    ⟨⟨true, sampleEntries 2⟩, 9, ⟨[⟨"lp", 5⟩], "", 2⟩, []⟩]

theorem load_sampleEntries :
    PromptHistoryStore.load (some ⟨1, none, sampleEntries 1⟩) 9 = ⟨true, sampleEntries 1⟩ := by
  have pruned : pruneLocked 9 (sampleEntries 1) = sampleEntries 1 :=
    pruneLocked_eq_self ⟨by decide, by decide, by decide⟩ (by decide) (by decide) (by decide)
  rw [PromptHistoryStore.load, if_neg (by decide), pruned]
  rfl

theorem record_sampleEntries :
    PromptHistoryStore.record ⟨true, sampleEntries 1⟩ [0x6c, 0x73] 9 = ⟨true, sampleEntries 2⟩ := by
  have pruned : pruneLocked 9 (sampleEntries 2) = sampleEntries 2 :=
    pruneLocked_eq_self ⟨by decide, by decide, by decide⟩ (by decide) (by decide) (by decide)
  have text : String.fromUTF8? ([0x6c, 0x73] : List UInt8).toByteArray = some "ls" := by decide +kernel
  have found : (sampleEntries 1).findIdx? (fun entry => entry.text == "ls") = some 0 := by decide
  rw [PromptHistoryStore.record, text]
  dsimp only
  rw [if_neg (by decide +kernel), if_neg (by decide), found]
  exact congrArg (PromptHistoryStore.mk true) pruned

theorem matchesOf_sampleEntries (count : Int64) :
    matchesOf [] 9 (sampleEntries count) = [⟨"ls", 9⟩, ⟨"lp", 5⟩] := by
  have rows : ((sampleEntries count).filter fun entry => !expired 9 entry && continues [] entry.text).map
      PromptHistoryEntry.item = [⟨"ls", 9⟩, ⟨"lp", 5⟩] := rfl
  rw [matchesOf, rows]
  exact List.mergeSort_of_pairwise (by decide)

theorem pageWalk_steady_sample :
    PageWalk [] 1 ((PromptHistoryStore.load (some ⟨1, none, sampleEntries 1⟩) 9).recordAll []) ""
        sampleVisits ∧
      (shown sampleVisits).filter (fun item => item.text = "lp") = [⟨"lp", 5⟩] := by
  have first : PromptHistoryStore.page ⟨true, sampleEntries 1⟩ [] "" 1 9 =
      .ok ⟨[⟨"ls", 9⟩], encodePromptHistoryCursor ⟨"ls", 9⟩, 2⟩ := by
    rw [PromptHistoryStore.page, if_neg (by decide)]
    show Except.ok (window (matchesOf [] 9 (sampleEntries 1)) none 1) = _
    rw [matchesOf_sampleEntries]
    rfl
  have second : PromptHistoryStore.page ⟨true, sampleEntries 2⟩ []
      (encodePromptHistoryCursor ⟨"ls", 9⟩) 1 9 = .ok ⟨[⟨"lp", 5⟩], "", 2⟩ := by
    rw [PromptHistoryStore.page, if_neg (by decide), readAfter_encode (by decide)]
    show Except.ok (window (matchesOf [] 9 (sampleEntries 2)) (some ⟨"ls", 9⟩) 1) = _
    rw [matchesOf_sampleEntries]
    exact congrArg Except.ok (by decide)
  have walk : PageWalk [] 1 ((PromptHistoryStore.load (some ⟨1, none, sampleEntries 1⟩) 9).recordAll []) ""
      sampleVisits := by
    rw [load_sampleEntries]
    refine .turn _ _ _ _ _ _ first (encodePromptHistoryCursor_ne _) ?_
    have recorded : (PromptHistoryStore.recordAll ⟨true, sampleEntries 1⟩ []).recordAll
        [([0x6c, 0x73], 9)] = ⟨true, sampleEntries 2⟩ := record_sampleEntries
    rw [recorded]
    exact .last _ _ _ _ _ second rfl
  have steady : Steady [] sampleVisits "lp" := by
    constructor
    · rfl
    · intro visit listed
      rcases List.mem_pair.mp listed with rfl | rfl
      · exact ⟨⟨"lp", 1, 5⟩, by decide, rfl, rfl⟩
      · exact ⟨⟨"lp", 1, 5⟩, by decide, rfl, rfl⟩
    · intro visit listed recorded inside
      rcases List.mem_pair.mp listed with rfl | rfl
      · rw [List.mem_singleton.mp inside]
        decide +kernel
      · cases inside
  have stored : ⟨"lp", 1, 5⟩ ∈
      ((PromptHistoryStore.load (some ⟨1, none, sampleEntries 1⟩) 9).recordAll []).entries := by
    rw [load_sampleEntries]
    decide
  exact ⟨walk, (pageWalk_steady _ _ _ _ _ _ (by decide) (by decide) (by rw [load_sampleEntries])
    walk).2.1 _ stored steady⟩

end Atterm.Desktop
