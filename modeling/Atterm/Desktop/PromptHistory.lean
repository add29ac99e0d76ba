/-
**The history of prompts.**

A desktop keeps the prompts that were sent to an AI session, each with the time of its last use. Recording
a prompt refreshes its entry or adds one; after each change the entries are pruned: what has expired is
dropped, entries of one text are merged, and the newest ones are kept up to a cap.

* `pruneLocked`, `PromptHistoryStore.load`, `record` — the store and its changes;
* `mem_pruneLocked` — a pruned entry has the text and the time of one that was there;
* `Tidy` — the texts are distinct and within the cap, after every change.
-/

import Atterm.Foundation.TreeMapFold
import Atterm.Terminal.Command

namespace Atterm.Desktop

open Atterm.Foundation
open Std (ExtTreeMap)

abbrev Bytes := List UInt8

def promptHistoryVersion : ℤ := 1
def promptHistoryMaxEntries : ℕ := 200
def promptHistoryMaxPromptBytes : ℕ := 4 * 1024

def promptHistoryTTL : Int64 := 180 * 24 * 60 * 60

structure PromptHistoryEntry where
  text : String
  count : Int64
  lastUsedAt : Int64
deriving DecidableEq, Repr

structure PromptHistoryDocument where
  version : ℤ
  enabled : Option Bool
  entries : List PromptHistoryEntry
deriving DecidableEq, Repr

/-- One row that is exposed to the user interface. -/
structure PromptHistoryItem where
  text : String
  lastUsedAt : Int64
deriving DecidableEq, Repr

structure PromptHistoryStore where
  enabled : Bool
  entries : List PromptHistoryEntry
deriving DecidableEq, Repr

def PromptHistoryEntry.item (entry : PromptHistoryEntry) : PromptHistoryItem :=
  ⟨entry.text, entry.lastUsedAt⟩

/-- The order of the rows: the newest first, and those of one time by their texts. Runes stand in the order
of their UTF-8 bytes. -/
def PromptHistoryItem.less (one other : PromptHistoryItem) : Bool :=
  if one.lastUsedAt ≠ other.lastUsedAt then other.lastUsedAt < one.lastUsedAt else one.text < other.text

/-- When an entry that has not been used since is expired. -/
def cutoff (now : Int64) : Int64 := now - promptHistoryTTL

/-- What is dropped of the entries; their texts come from JSON or were checked, and are valid UTF-8. -/
def dropped (now : Int64) (entry : PromptHistoryEntry) : Bool :=
  entry.text = "" || promptHistoryMaxPromptBytes < entry.text.utf8ByteSize || entry.lastUsedAt < cutoff now

def mergeEntry (merged : ExtTreeMap String PromptHistoryEntry compare) (entry : PromptHistoryEntry) :
    ExtTreeMap String PromptHistoryEntry compare :=
  let entry := if entry.count < 1 then { entry with count := 1 } else entry
  match merged[entry.text]? with
  | some existing =>
    merged.insert entry.text { existing with
      count := existing.count + entry.count
      lastUsedAt := if existing.lastUsedAt < entry.lastUsedAt then entry.lastUsedAt
        else existing.lastUsedAt }
  | none => merged.insert entry.text entry

/-- The entries that are left. They are read from the map in any order, and sorted. -/
def pruneLocked (now : Int64) (entries : List PromptHistoryEntry) : List PromptHistoryEntry :=
  let merged := (entries.filter fun entry => !dropped now entry).foldl mergeEntry ∅
  ((mapValues merged).mergeSort fun one other => !other.item.less one.item).take promptHistoryMaxEntries

namespace PromptHistoryStore

def empty : PromptHistoryStore := ⟨true, []⟩

/-- The store of a file, which may be missing or no such document. -/
def load (doc : Option PromptHistoryDocument) (now : Int64) : PromptHistoryStore :=
  match doc with
  | none => empty
  | some doc =>
    if doc.version ≠ promptHistoryVersion then empty
    else ⟨doc.enabled.getD true, pruneLocked now doc.entries⟩

variable (s : PromptHistoryStore)

/-- A text is recorded. The store is changed before it is saved, whether that succeeds or not. -/
def record (text : Bytes) (now : Int64) : PromptHistoryStore :=
  match String.fromUTF8? text.toByteArray with
  | none => s
  | some text =>
    if Terminal.trimSpace text.toList = [] ∨ promptHistoryMaxPromptBytes < text.utf8ByteSize then s
    else if s.enabled = false then s
    else
      match s.entries.findIdx? fun entry => entry.text == text with
      | some i => { s with
          entries := pruneLocked now (s.entries.modify i fun entry =>
            { entry with count := entry.count + 1, lastUsedAt := now }) }
      | none => { s with entries := pruneLocked now (s.entries ++ [⟨text, 1, now⟩]) }

def recordAll (texts : List (Bytes × Int64)) : PromptHistoryStore :=
  texts.foldl (fun s text => s.record text.1 text.2) s

end PromptHistoryStore

/-! ### The order of the rows -/

def PromptHistoryItem.key (item : PromptHistoryItem) : ℤᵒᵈ ×ₗ String :=
  toLex (OrderDual.toDual item.lastUsedAt.toInt, item.text)

theorem less_iff (one other : PromptHistoryItem) : one.less other = true ↔ one.key < other.key := by
  rw [PromptHistoryItem.less, PromptHistoryItem.key, PromptHistoryItem.key, Prod.Lex.toLex_lt_toLex]
  split_ifs with times
  · rw [decide_eq_true_iff, Int64.lt_iff_toInt_lt]
    have apart : one.lastUsedAt.toInt ≠ other.lastUsedAt.toInt := fun same =>
      times (Int64.toInt_inj.mp same)
    simp [apart]
  · rw [ne_eq, not_not] at times
    simp [times]

theorem key_injective : Function.Injective PromptHistoryItem.key := by
  intro one other same
  rw [PromptHistoryItem.key, PromptHistoryItem.key, toLex_inj, Prod.mk.injEq] at same
  obtain ⟨time, text⟩ := one
  obtain ⟨time', text'⟩ := other
  have times := Int64.toInt_inj.mp (OrderDual.toDual_inj.mp same.1)
  obtain rfl := same.2
  obtain rfl := times
  rfl

theorem le_iff (one other : PromptHistoryItem) : (!other.less one) = true ↔ one.key ≤ other.key := by
  rw [Bool.not_eq_true', ← Bool.not_eq_true, less_iff, not_lt]

theorem sort_pairwise {α : Type*} (row : α → PromptHistoryItem) (values : List α) :
    (values.mergeSort fun one other => !(row other).less (row one)).Pairwise fun one other =>
      (row one).key ≤ (row other).key := by
  have ordered : (values.mergeSort fun one other => !(row other).less (row one)).Pairwise fun one other =>
      (!(row other).less (row one)) = true := by
    refine List.pairwise_mergeSort (fun a b c first second => ?_) (fun a b => ?_) values
    · rw [le_iff] at first second ⊢
      exact first.trans second
    · rw [Bool.or_eq_true, le_iff, le_iff]
      exact le_total _ _
  exact ordered.imp fun {one other} before => (le_iff _ _).mp before

/-! ### What is left of the entries -/

/-- What the map of merged entries holds of a list: under a text an entry of it, with a time of the list. -/
def Merges (merged : ExtTreeMap String PromptHistoryEntry compare) (entries : List PromptHistoryEntry) :
    Prop :=
  ∀ (text : String) (entry : PromptHistoryEntry), merged[text]? = some entry →
    entry.text = text ∧ ∃ source ∈ entries, source.item = entry.item

theorem Merges.mergeEntry {merged : ExtTreeMap String PromptHistoryEntry compare}
    {entries : List PromptHistoryEntry} (merges : Merges merged entries) (last : PromptHistoryEntry) :
    Merges (mergeEntry merged last) (entries ++ [last]) := by
  have listed : last ∈ entries ++ [last] := List.mem_append_right _ (List.mem_singleton_self _)
  rw [Desktop.mergeEntry]
  set counted := if last.count < 1 then { last with count := 1 } else last with counted_eq
  have same : counted.item = last.item := by
    rw [counted_eq]
    split_ifs <;> rfl
  have old : ∀ (text : String) (entry : PromptHistoryEntry), merged[text]? = some entry →
      entry.text = text ∧ ∃ source ∈ entries ++ [last], source.item = entry.item := by
    intro text entry held
    obtain ⟨name, source, inside, item⟩ := merges text entry held
    exact ⟨name, source, List.mem_append_left _ inside, item⟩
  cases found : merged[counted.text]? with
  | none =>
    intro text entry held
    dsimp only at held
    rw [ExtTreeMap.getElem?_insert] at held
    split_ifs at held with here
    · rw [Std.LawfulEqCmp.compare_eq_iff_eq] at here
      obtain rfl := Option.some.inj held
      exact ⟨here, last, listed, same.symm⟩
    · exact old text entry held
  | some existing =>
    intro text entry held
    dsimp only at held
    rw [ExtTreeMap.getElem?_insert] at held
    split_ifs at held with here
    · rw [Std.LawfulEqCmp.compare_eq_iff_eq] at here
      obtain rfl := Option.some.inj held
      have name := (old _ _ found).1
      refine ⟨name.trans here, last, listed, same.symm.trans ?_⟩
      rw [PromptHistoryEntry.item, PromptHistoryEntry.item, name]
    · rw [Std.LawfulEqCmp.compare_eq_iff_eq] at here
      obtain rfl := Option.some.inj held
      obtain ⟨name, source, inside, item⟩ := old _ _ found
      exact ⟨name.trans here, source, inside, item⟩
    · exact old text entry held

theorem merges_foldl {merged : ExtTreeMap String PromptHistoryEntry compare}
    {before : List PromptHistoryEntry} (merges : Merges merged before) (entries : List PromptHistoryEntry) :
    Merges (entries.foldl mergeEntry merged) (before ++ entries) := by
  induction entries generalizing merged before with
  | nil => rwa [List.append_nil]
  | cons entry entries ih =>
    rw [List.append_cons]
    exact ih (merges.mergeEntry entry)

theorem merges_empty : Merges ∅ [] := by
  intro text entry held
  rw [ExtTreeMap.getElem?_empty] at held
  cases held

theorem merges_dropped (now : Int64) (entries : List PromptHistoryEntry) :
    Merges ((entries.filter fun entry => !dropped now entry).foldl mergeEntry ∅)
      (entries.filter fun entry => !dropped now entry) := by
  have merges := merges_foldl merges_empty (entries.filter fun entry => !dropped now entry)
  rwa [List.nil_append] at merges

/-- **Where an entry comes from that is left**, with its text and time. -/
theorem mem_pruneLocked {now : Int64} {entries : List PromptHistoryEntry} {entry : PromptHistoryEntry}
    (left : entry ∈ pruneLocked now entries) :
    ∃ source ∈ entries, source.item = entry.item ∧ dropped now source = false := by
  have merged := (List.mem_mergeSort.mp (List.mem_of_mem_take left))
  obtain ⟨text, held⟩ := (mem_mapValues_iff _ _).mp merged
  obtain ⟨_, source, inside, item⟩ := merges_dropped now entries text entry held
  obtain ⟨listed, kept⟩ := List.mem_filter.mp inside
  exact ⟨source, listed, item, (Bool.not_eq_true' _).mp kept⟩

/-- **What every change leaves behind.** -/
structure Tidy (entries : List PromptHistoryEntry) : Prop where
  distinct : (entries.map PromptHistoryEntry.text).Nodup
  capped : entries.length ≤ promptHistoryMaxEntries
  named : ∀ entry ∈ entries, entry.text ≠ ""

theorem tidy_pruneLocked (now : Int64) (entries : List PromptHistoryEntry) :
    Tidy (pruneLocked now entries) where
  distinct := by
    have merges := merges_dropped now entries
    set merged := (entries.filter fun entry => !dropped now entry).foldl mergeEntry ∅ with merged_eq
    have texts : (mapValues merged).map PromptHistoryEntry.text = merged.toList.map Prod.fst := by
      rw [mapValues, List.map_map]
      refine List.map_congr_left fun slot listed => ?_
      exact (merges _ _ (ExtTreeMap.mem_toList_iff_getElem?_eq_some.mp listed)).1
    have apart : ((mapValues merged).map PromptHistoryEntry.text).Nodup := by
      rw [texts]
      exact nodup_keys_toList merged
    rw [pruneLocked, ← merged_eq]
    refine List.Nodup.sublist ((List.take_sublist _ _).map _) ?_
    exact ((List.mergeSort_perm _ _).map _).nodup_iff.mpr apart
  capped := by
    rw [pruneLocked, List.length_take]
    exact min_le_left _ _
  named entry left := by
    obtain ⟨source, _, item, kept⟩ := mem_pruneLocked left
    rw [dropped, Bool.or_eq_false_iff, Bool.or_eq_false_iff, decide_eq_false_iff_not] at kept
    exact fun empty => kept.1.1 ((congrArg PromptHistoryItem.text item).trans empty)

theorem foldl_mergeEntry {merged : ExtTreeMap String PromptHistoryEntry compare}
    {entries : List PromptHistoryEntry} (counted : ∀ entry ∈ entries, 1 ≤ entry.count)
    (distinct : (entries.map PromptHistoryEntry.text).Nodup)
    (fresh : ∀ entry ∈ entries, merged[entry.text]? = none) :
    entries.foldl mergeEntry merged = insertAll merged (entries.map fun entry => (entry.text, entry)) := by
  induction entries generalizing merged with
  | nil => rfl
  | cons entry entries ih =>
    rw [List.map_cons, List.nodup_cons] at distinct
    have first : mergeEntry merged entry = merged.insert entry.text entry := by
      have held := fresh entry List.mem_cons_self
      have enough : ¬ entry.count < 1 := by
        have := counted entry List.mem_cons_self
        rw [Int64.le_iff_toInt_le] at this
        rw [Int64.lt_iff_toInt_lt]
        omega
      rw [mergeEntry, if_neg enough, held]
    rw [List.foldl_cons, first]
    refine ih (fun other listed => counted other (List.mem_cons_of_mem _ listed)) distinct.2 ?_
    intro other listed
    have apart : entry.text ≠ other.text := fun same =>
      distinct.1 (same ▸ List.mem_map_of_mem listed)
    rw [ExtTreeMap.getElem?_insert, if_neg (by rwa [Std.LawfulEqCmp.compare_eq_iff_eq])]
    exact fresh other (List.mem_cons_of_mem _ listed)

/-- **What is pruned already stays as it is.** -/
theorem pruneLocked_eq_self {now : Int64} {entries : List PromptHistoryEntry} (tidy : Tidy entries)
    (counted : ∀ entry ∈ entries, 1 ≤ entry.count) (kept : ∀ entry ∈ entries, dropped now entry = false)
    (sorted : entries.Pairwise fun one other => one.item.less other.item = true) :
    pruneLocked now entries = entries := by
  have all : (entries.filter fun entry => !dropped now entry) = entries :=
    List.filter_eq_self.mpr fun entry listed => (Bool.not_eq_true' _).mpr (kept entry listed)
  have values : (mapValues (entries.foldl mergeEntry ∅)).Perm entries := by
    rw [foldl_mergeEntry counted tidy.distinct fun _ _ => ExtTreeMap.getElem?_empty]
    exact mapValues_insertAll_perm tidy.distinct
  have same : (mapValues (entries.foldl mergeEntry ∅)).mergeSort
      (fun one other => !other.item.less one.item) = entries := by
    refine List.Perm.eq_of_pairwise ?_ (sort_pairwise PromptHistoryEntry.item _) ?_
      ((List.mergeSort_perm _ _).trans values)
    · intro one other inside inside' first second
      have items := key_injective (le_antisymm first second)
      have listed := values.mem_iff.mp (List.mem_mergeSort.mp inside)
      exact List.inj_on_of_nodup_map tidy.distinct listed inside' (congrArg PromptHistoryItem.text items)
    · exact sorted.imp fun {one other} before => ((less_iff _ _).mp before).le
  rw [pruneLocked, all, same]
  exact List.take_of_length_le tidy.capped

theorem tidy_nil : Tidy [] := ⟨List.nodup_nil, Nat.zero_le _, nofun⟩

/-! ### The changes of the store -/

namespace PromptHistoryStore

variable {s : PromptHistoryStore}

theorem tidy_load (doc : Option PromptHistoryDocument) (now : Int64) : Tidy (load doc now).entries := by
  cases doc with
  | none => exact tidy_nil
  | some doc =>
    rw [load]
    split_ifs
    · exact tidy_nil
    · exact tidy_pruneLocked now doc.entries

/-- **What recording does**: nothing, or the entries are pruned, of which those of other texts were there. -/
theorem record_cases (s : PromptHistoryStore) (text : Bytes) (now : Int64) :
    s.record text now = s ∨
      ∃ entries, s.record text now = { s with entries := pruneLocked now entries } ∧
        ∀ entry ∈ entries, entry ∈ s.entries ∨ String.fromUTF8? text.toByteArray = some entry.text := by
  rw [record]
  cases decoded : String.fromUTF8? text.toByteArray with
  | none => exact .inl rfl
  | some text =>
    dsimp only
    split_ifs with refused off
    · exact .inl rfl
    · exact .inl rfl
    · right
      cases found : s.entries.findIdx? fun entry => entry.text == text with
      | none =>
        refine ⟨_, rfl, fun entry listed => ?_⟩
        rcases List.mem_append.mp listed with old | new
        · exact .inl old
        · exact .inr (congrArg (fun e => some e.text) (List.mem_singleton.mp new)).symm
      | some i =>
        refine ⟨_, rfl, fun entry listed => ?_⟩
        obtain ⟨inside, hit, _⟩ := List.findIdx?_eq_some_iff_getElem.mp found
        obtain ⟨k, at_k, same⟩ := List.mem_iff_getElem.mp listed
        rw [List.getElem_modify] at same
        split_ifs at same with here
        · subst here
          refine .inr ?_
          rw [← same]
          exact congrArg some (beq_iff_eq.mp hit).symm
        · exact .inl (same ▸ List.getElem_mem _)

theorem record_enabled (text : Bytes) (now : Int64) : (s.record text now).enabled = s.enabled := by
  rcases s.record_cases text now with same | ⟨entries, same, _⟩ <;> rw [same]

theorem tidy_record (tidy : Tidy s.entries) (text : Bytes) (now : Int64) :
    Tidy (s.record text now).entries := by
  rcases s.record_cases text now with same | ⟨entries, same, _⟩
  · rwa [same]
  · rw [same]
    exact tidy_pruneLocked now entries

/-- **An entry of another text keeps its time while it is stored.** -/
theorem record_other {text : Bytes} {now : Int64} {entry : PromptHistoryEntry}
    (stored : entry ∈ (s.record text now).entries)
    (other : String.fromUTF8? text.toByteArray ≠ some entry.text) :
    ∃ source ∈ s.entries, source.item = entry.item := by
  rcases s.record_cases text now with same | ⟨entries, same, from_⟩
  · exact ⟨entry, same ▸ stored, rfl⟩
  · rw [same] at stored
    obtain ⟨source, listed, item, _⟩ := mem_pruneLocked stored
    have text_eq : source.text = entry.text := congrArg PromptHistoryItem.text item
    exact ⟨source, (from_ source listed).resolve_right (text_eq ▸ other), item⟩

theorem recordAll_enabled (texts : List (Bytes × Int64)) : (s.recordAll texts).enabled = s.enabled := by
  induction texts generalizing s with
  | nil => rfl
  | cons text texts ih => exact ih.trans (record_enabled text.1 text.2)

theorem tidy_recordAll (tidy : Tidy s.entries) (texts : List (Bytes × Int64)) :
    Tidy (s.recordAll texts).entries := by
  induction texts generalizing s with
  | nil => exact tidy
  | cons text texts ih => exact ih (tidy_record tidy text.1 text.2)

theorem recordAll_other {texts : List (Bytes × Int64)} {entry : PromptHistoryEntry}
    (stored : entry ∈ (s.recordAll texts).entries)
    (other : ∀ text ∈ texts, String.fromUTF8? text.1.toByteArray ≠ some entry.text) :
    ∃ source ∈ s.entries, source.item = entry.item := by
  induction texts generalizing s with
  | nil => exact ⟨entry, stored, rfl⟩
  | cons text texts ih =>
    obtain ⟨middle, held, item⟩ := ih stored fun t listed => other t (List.mem_cons_of_mem _ listed)
    have same : middle.text = entry.text := congrArg PromptHistoryItem.text item
    obtain ⟨source, first, item'⟩ := record_other held (same ▸ other text List.mem_cons_self)
    exact ⟨source, first, item'.trans item⟩

/-! ### Runs of the store -/

/-- The calls that change the store; `saved` is whether the file was written. -/
inductive HistoryCall where
  | record (text : Bytes) (now : Int64)
  | setEnabled (enabled saved : Bool)
  | clear (saved : Bool)

def call (s : PromptHistoryStore) : HistoryCall → PromptHistoryStore
  | .record text now => s.record text now
  | .setEnabled enabled saved => if saved then { s with enabled := enabled } else s
  | .clear saved => if saved then { s with entries := [] } else s

/-- Tidy, the newest first, and none too long. -/
structure Orderly (entries : List PromptHistoryEntry) : Prop where
  tidy : Tidy entries
  newest : entries.Pairwise fun one other => one.item.key ≤ other.item.key
  short : ∀ entry ∈ entries, entry.text.utf8ByteSize ≤ promptHistoryMaxPromptBytes

theorem orderly_nil : Orderly [] := ⟨tidy_nil, List.Pairwise.nil, fun _ none => by cases none⟩

theorem orderly_pruneLocked (now : Int64) (entries : List PromptHistoryEntry) :
    Orderly (pruneLocked now entries) where
  tidy := tidy_pruneLocked now entries
  newest := (sort_pairwise PromptHistoryEntry.item _).sublist (List.take_sublist _ _)
  short entry left := by
    obtain ⟨source, _, item, kept⟩ := mem_pruneLocked left
    rw [dropped, Bool.or_eq_false_iff, Bool.or_eq_false_iff, decide_eq_false_iff_not] at kept
    have text : source.text = entry.text := congrArg PromptHistoryItem.text item
    rw [← text]
    exact not_lt.mp (of_decide_eq_false kept.1.2)

theorem orderly_call (orderly : Orderly s.entries) (c : HistoryCall) : Orderly (s.call c).entries := by
  cases c with
  | record text now =>
    rcases s.record_cases text now with same | ⟨entries, same, _⟩
    · rwa [call, same]
    · rw [call, same]
      exact orderly_pruneLocked now entries
  | setEnabled enabled saved =>
    rw [call]
    split_ifs <;> exact orderly
  | clear saved =>
    rw [call]
    split_ifs
    · exact orderly_nil
    · exact orderly

theorem orderly_calls (orderly : Orderly s.entries) (calls : List HistoryCall) :
    Orderly (calls.foldl call s).entries := by
  induction calls generalizing s with
  | nil => exact orderly
  | cons c calls ih => exact ih (orderly_call orderly c)

/-- **The history stays orderly** from any file on, whatever is recorded at whatever times, switched and
cleared, saved or not: no text twice, none empty or too long, no more than the limit, the newest first. -/
theorem history_orderly (doc : Option PromptHistoryDocument) (now : Int64) (calls : List HistoryCall) :
    Orderly (calls.foldl call (load doc now)).entries := by
  refine orderly_calls ?_ calls
  cases doc with
  | none => exact orderly_nil
  | some doc =>
    rw [load]
    split_ifs
    · exact orderly_nil
    · exact orderly_pruneLocked now doc.entries

end PromptHistoryStore

end Atterm.Desktop
