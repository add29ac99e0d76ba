/-
**The hooks file of Codex.**

The app adds a handler of its own to the file in which Codex keeps the user's hooks, and takes it out
again. The file is read into the parts that the app knows, and written from them. What a text says is the
JSON value it stands for.

* `readCodexHooksDocument`, `docJson` — the file as it is read and as it is written;
* `installCodexAt`, `uninstallCodexAt` — the two operations on the file;
* `mergeEvents_hooks` — what the installer makes of each event.
-/

import Atterm.Foundation.JsonMembers

namespace Atterm.HookInstall

open Std (ExtTreeMap)
open Atterm.Foundation

def attermMarker : String := ".atterm/bin/atterm-hook"

def attermHookCommand (link agentKind : String) : String := link ++ " --agent " ++ agentKind

def codexHookEvents : List String :=
  ["SessionStart", "UserPromptSubmit", "PreToolUse", "PostToolUse", "Stop", "PermissionRequest"]

structure CodexHookHandler where
  type : String
  command : String
deriving DecidableEq, Repr

/-- A slice that is nil is `none`. -/
structure CodexHookEntry where
  matcher : String
  hooks : Option (List CodexHookHandler)
deriving DecidableEq, Repr

structure CodexHooksDocument where
  description : String
  hooks : ExtTreeMap String (Option (List CodexHookEntry))
  extra : ExtTreeMap String Json

/-! ### Reading -/

section

variable {α : Type}

/-- A slice; `null` makes it nil. -/
def decodeSlice (decode : Json → Option α) (zero : α) : Json → Option (Option (List α))
  | .null => some none
  | value => (decodeList decode zero value).map some

/-- A field that is a slice: each value given for it starts it anew. -/
def readSlice (decode : Json → Option α) (zero : α) (name : String) (members : List (String × Json)) :
    Option (Option (List α)) :=
  (fieldValues name members).foldlM (fun _ value => decodeSlice decode zero value) none

end

def decodeHandler : Json → Option CodexHookHandler
  | .obj members => do
      let type ← readField decodeText "" "type" members
      let command ← readField decodeText "" "command" members
      some ⟨type, command⟩
  | _ => none

def decodeEntry : Json → Option CodexHookEntry
  | .obj members => do
      let matcher ← readField decodeText "" "matcher" members
      let hooks ← readSlice decodeHandler ⟨"", ""⟩ "hooks" members
      some ⟨matcher, hooks⟩
  | _ => none

def decodeEntries : Json → Option (Option (List CodexHookEntry)) := decodeSlice decodeEntry ⟨"", none⟩

/-- The map of the events; `null` leaves it nil, which is made empty. -/
def decodeHooks : Json → Option (ExtTreeMap String (Option (List CodexHookEntry)))
  | .null => some ∅
  | value => decodeMap decodeEntries none value

/-- The members of a document without the wrapper, each an event if it reads as one. -/
def migrateMember (doc : CodexHooksDocument) (member : String × Json) : CodexHooksDocument :=
  match decodeEntries member.2 with
  | some entries => { doc with hooks := doc.hooks.insert member.1 entries }
  | none => { doc with extra := doc.extra.insert member.1 member.2 }

/-- The part of the reader behind the root's members. -/
def readRoot (root : ExtTreeMap String Json) : CodexHooksDocument × Bool :=
  let description := match root["description"]? with
    | some (.str text) => text
    | _ => ""
  let root := root.erase "description"
  match root["hooks"]? with
  | some hooks => (⟨description, (decodeHooks hooks).getD ∅, root.erase "hooks"⟩, false)
  | none => (root.toList.foldl migrateMember ⟨description, ∅, ∅⟩, !root.isEmpty)

/-- The document, and whether it was without the wrapper. -/
def readCodexHooksDocument : Json → CodexHooksDocument × Bool
  | .obj members => readRoot (insertAll ∅ members)
  | .null => readRoot ∅
  | _ => (⟨"", ∅, ∅⟩, false)

/-! ### Writing -/

def handlerJson (h : CodexHookHandler) : Json := .obj [("type", .str h.type), ("command", .str h.command)]

def sliceJson {α : Type} (encode : α → Json) : Option (List α) → Json
  | none => .null
  | some values => .arr (values.map encode)

def entryJson (e : CodexHookEntry) : Json :=
  .obj ((if e.matcher = "" then [] else [("matcher", .str e.matcher)]) ++
    [("hooks", sliceJson handlerJson e.hooks)])

def entriesJson : Option (List CodexHookEntry) → Json := sliceJson entryJson

/-- `MarshalJSON`, before the members are written in the order of their names. -/
def docMembers (d : CodexHooksDocument) : ExtTreeMap String Json :=
  let out := d.extra
  let out := if d.description = "" then out else out.insert "description" (.str d.description)
  out.insert "hooks" (mapJson entriesJson d.hooks)

def docJson (d : CodexHooksDocument) : Json := mapJson id (docMembers d)

/-! ### The two operations -/

/-- The file: missing, or with a text that is no JSON, or with the value of its text. -/
inductive HooksFile where
  | missing
  | broken
  | json (value : Json)

def isAttermCommand (command : String) : Bool := decide (attermMarker.toList <:+: command.toList)

def isAttermCodexEntry (e : CodexHookEntry) : Bool :=
  (e.hooks.getD []).any (fun h => isAttermCommand h.command)

def codexEntryEqual (a b : CodexHookEntry) : Bool :=
  a.matcher = b.matcher && a.hooks.getD [] = b.hooks.getD []

def codexEntriesEqual : List CodexHookEntry → List CodexHookEntry → Bool
  | [], [] => true
  | a :: as, b :: bs => codexEntryEqual a b && codexEntriesEqual as bs
  | _, _ => false

def wantEntry (link : String) : CodexHookEntry :=
  ⟨"", some [⟨"command", attermHookCommand link "codex"⟩]⟩

/-- The entries of an event with ours replaced. -/
def mergeEntries (link : String) (cur : List CodexHookEntry) : List CodexHookEntry :=
  cur.filter (fun e => !isAttermCodexEntry e) ++ [wantEntry link]

/-- The entries of an event; an event that is missing has none. -/
def eventEntries (hooks : ExtTreeMap String (Option (List CodexHookEntry))) (event : String) :
    List CodexHookEntry :=
  (hooks[event]?.join).getD []

/-- One event of the loop, with whether anything has changed. -/
def mergeEvent (link : String) (acc : ExtTreeMap String (Option (List CodexHookEntry)) × Bool)
    (event : String) : ExtTreeMap String (Option (List CodexHookEntry)) × Bool :=
  let cur := eventEntries acc.1 event
  let merged := mergeEntries link cur
  (acc.1.insert event (some merged), acc.2 || !codexEntriesEqual cur merged)

def mergeEvents (link : String) (doc : CodexHooksDocument) (migrated : Bool) :
    ExtTreeMap String (Option (List CodexHookEntry)) × Bool :=
  codexHookEvents.foldl (mergeEvent link) (doc.hooks, migrated)

def readFile : HooksFile → CodexHooksDocument × Bool
  | .json raw => readCodexHooksDocument raw
  | _ => (⟨"", ∅, ∅⟩, false)

def installCodexAt (link : String) (file : HooksFile) : HooksFile :=
  let read := readFile file
  let merge := mergeEvents link read.1 read.2
  if merge.2 then .json (docJson { read.1 with hooks := merge.1 }) else file

/-- An event without ours; one that is left without entries goes. -/
def stripEvent (entries : Option (List CodexHookEntry)) : Option (Option (List CodexHookEntry)) :=
  let kept := (entries.getD []).filter (fun e => !isAttermCodexEntry e)
  if kept = [] then none else some (some kept)

def stripEvents (hooks : ExtTreeMap String (Option (List CodexHookEntry))) :
    ExtTreeMap String (Option (List CodexHookEntry)) :=
  hooks.filterMap fun _ entries => stripEvent entries

def uninstallCodexAt (file : HooksFile) : HooksFile :=
  match file with
  | .json raw =>
    let doc := (readCodexHooksDocument raw).1
    let changed := doc.hooks.toList.any fun event => (event.2.getD []).any isAttermCodexEntry
    if changed then .json (docJson { doc with hooks := stripEvents doc.hooks }) else file
  | _ => file

/-! ### What the installer makes of each event -/

/-- The link is below the directory that tells the app's own handlers. -/
def OwnLink (link : String) : Prop := isAttermCommand link = true

theorem wantEntry_own {link : String} (own : OwnLink link) : isAttermCodexEntry (wantEntry link) = true := by
  have inside : attermMarker.toList <:+: link.toList := of_decide_eq_true own
  have kept : isAttermCommand (attermHookCommand link "codex") = true := by
    rw [isAttermCommand, decide_eq_true_eq, attermHookCommand, String.toList_append, String.toList_append,
      List.append_assoc]
    exact inside.trans (List.prefix_append _ _).isInfix
  rw [isAttermCodexEntry, wantEntry, Option.getD_some, List.any_cons, kept, Bool.true_or]

theorem codexEntryEqual_iff (a b : CodexHookEntry) :
    codexEntryEqual a b = true ↔ a.matcher = b.matcher ∧ a.hooks.getD [] = b.hooks.getD [] := by
  rw [codexEntryEqual, Bool.and_eq_true, decide_eq_true_eq, decide_eq_true_eq]

theorem codexEntriesEqual_iff (as bs : List CodexHookEntry) :
    codexEntriesEqual as bs = true ↔ List.Forall₂ (fun a b => codexEntryEqual a b = true) as bs := by
  induction as generalizing bs with
  | nil => cases bs <;> simp [codexEntriesEqual]
  | cons a as ih =>
    cases bs with
    | nil => simp [codexEntriesEqual]
    | cons b bs => rw [codexEntriesEqual, Bool.and_eq_true, ih, List.forall₂_cons]

theorem codexEntriesEqual_self (as : List CodexHookEntry) : codexEntriesEqual as as = true :=
  (codexEntriesEqual_iff as as).mpr (List.forall₂_same.mpr fun a _ => (codexEntryEqual_iff a a).mpr ⟨rfl, rfl⟩)

theorem isAttermCodexEntry_congr {a b : CodexHookEntry} (equal : codexEntryEqual a b = true) :
    isAttermCodexEntry a = isAttermCodexEntry b := by
  rw [isAttermCodexEntry, isAttermCodexEntry, ((codexEntryEqual_iff a b).mp equal).2]

theorem eq_wantEntry {link : String} {e : CodexHookEntry}
    (equal : codexEntryEqual e (wantEntry link) = true) : e = wantEntry link := by
  obtain ⟨matcher, hooks⟩ := (codexEntryEqual_iff _ _).mp equal
  obtain ⟨m, hs⟩ := e
  cases hs with
  | none => cases hooks
  | some hs =>
    cases matcher
    cases hooks
    rfl

/-- The entries of an event end with ours, and none before is ours. -/
def Settled (link : String) (entries : List CodexHookEntry) : Prop :=
  ∃ before, entries = before ++ [wantEntry link] ∧ ∀ e ∈ before, isAttermCodexEntry e = false

theorem filter_foreign_of_settled {link : String} (own : OwnLink link) {before : List CodexHookEntry}
    (foreign : ∀ e ∈ before, isAttermCodexEntry e = false) :
    (before ++ [wantEntry link]).filter (fun e => !isAttermCodexEntry e) = before := by
  rw [List.filter_append, List.filter_eq_self.mpr fun e inside => by rw [foreign e inside]; rfl,
    List.filter_cons_of_neg (by rw [wantEntry_own own]; decide), List.filter_nil, List.append_nil]

theorem settled_of_equal {link : String} {cur : List CodexHookEntry} (before : List CodexHookEntry)
    (foreign : ∀ e ∈ before, isAttermCodexEntry e = false)
    (equal : List.Forall₂ (fun a b => codexEntryEqual a b = true) cur (before ++ [wantEntry link])) :
    Settled link cur := by
  induction before generalizing cur with
  | nil =>
    obtain ⟨last, none, one, nothing, rfl⟩ := List.forall₂_cons_right_iff.mp equal
    rw [List.forall₂_nil_right_iff.mp nothing, eq_wantEntry one]
    exact ⟨[], rfl, fun _ inside => by cases inside⟩
  | cons b before ih =>
    obtain ⟨e, rest, one, others, rfl⟩ := List.forall₂_cons_right_iff.mp equal
    obtain ⟨first, rest⟩ := List.forall_mem_cons.mp foreign
    obtain ⟨kept, rfl, all⟩ := ih rest others
    refine ⟨e :: kept, rfl, List.forall_mem_cons.mpr ⟨?_, all⟩⟩
    rw [isAttermCodexEntry_congr one, first]

/-- **An event is left as it is exactly if it is settled.** -/
theorem merge_unchanged_iff {link : String} (own : OwnLink link) (cur : List CodexHookEntry) :
    codexEntriesEqual cur (mergeEntries link cur) = true ↔ Settled link cur := by
  constructor
  · intro equal
    refine settled_of_equal _ (fun e inside => ?_) ((codexEntriesEqual_iff _ _).mp equal)
    have foreign := (List.mem_filter.mp inside).2
    rwa [Bool.not_eq_true'] at foreign
  · rintro ⟨before, rfl, foreign⟩
    rw [mergeEntries, filter_foreign_of_settled own foreign]
    exact codexEntriesEqual_self _

theorem mergeEntries_settled {link : String} (cur : List CodexHookEntry) :
    Settled link (mergeEntries link cur) := by
  refine ⟨_, rfl, fun e inside => ?_⟩
  have foreign := (List.mem_filter.mp inside).2
  rwa [Bool.not_eq_true'] at foreign

theorem getElem?_mergeEvent (link : String)
    (acc : ExtTreeMap String (Option (List CodexHookEntry)) × Bool) (event name : String) :
    (mergeEvent link acc event).1[name]? =
      if name = event then some (some (mergeEntries link (eventEntries acc.1 event))) else acc.1[name]? := by
  rw [mergeEvent, ExtTreeMap.getElem?_insert]
  by_cases same : name = event
  · rw [if_pos same, if_pos (by rw [same]; exact Std.compare_self)]
  · rw [if_neg same, if_neg fun equal => same (Std.LawfulEqCmp.compare_eq_iff_eq.mp equal).symm]

theorem eventEntries_mergeEvent (link : String)
    (acc : ExtTreeMap String (Option (List CodexHookEntry)) × Bool) {event name : String}
    (other : name ≠ event) : eventEntries (mergeEvent link acc event).1 name = eventEntries acc.1 name := by
  rw [eventEntries, getElem?_mergeEvent, if_neg other, eventEntries]

theorem foldl_mergeEvent_hooks (link : String) (events : List String) (distinct : events.Nodup)
    (acc : ExtTreeMap String (Option (List CodexHookEntry)) × Bool) (name : String) :
    (events.foldl (mergeEvent link) acc).1[name]? =
      if name ∈ events then some (some (mergeEntries link (eventEntries acc.1 name))) else acc.1[name]? := by
  induction events generalizing acc with
  | nil => rfl
  | cons event rest ih =>
    rw [List.nodup_cons] at distinct
    rw [List.foldl_cons, ih distinct.2, getElem?_mergeEvent]
    by_cases here : name = event
    · subst here
      rw [if_neg distinct.1, if_pos rfl, if_pos List.mem_cons_self]
    · rw [eventEntries_mergeEvent link acc here, if_neg here]
      by_cases later : name ∈ rest
      · rw [if_pos later, if_pos (List.mem_cons_of_mem _ later)]
      · rw [if_neg later, if_neg fun inside => (List.mem_cons.mp inside).elim here later]

theorem foldl_mergeEvent_changed (link : String) (events : List String) (distinct : events.Nodup)
    (acc : ExtTreeMap String (Option (List CodexHookEntry)) × Bool) :
    (events.foldl (mergeEvent link) acc).2 = (acc.2 || events.any fun event =>
      !codexEntriesEqual (eventEntries acc.1 event) (mergeEntries link (eventEntries acc.1 event))) := by
  induction events generalizing acc with
  | nil => exact (Bool.or_false _).symm
  | cons event rest ih =>
    rw [List.nodup_cons] at distinct
    rw [List.foldl_cons, ih distinct.2, List.any_cons, ← Bool.or_assoc]
    congr 1
    rw [Bool.eq_iff_iff, List.any_eq_true, List.any_eq_true]
    refine exists_congr fun later => and_congr_right fun inside => ?_
    have other : later ≠ event := by
      rintro rfl
      exact distinct.1 inside
    rw [eventEntries_mergeEvent link acc other]

theorem codexHookEvents_nodup : codexHookEvents.Nodup := by
  decide

/-- **The events behind the installer.** -/
theorem mergeEvents_hooks (link : String) (doc : CodexHooksDocument) (migrated : Bool) (name : String) :
    (mergeEvents link doc migrated).1[name]? =
      if name ∈ codexHookEvents then some (some (mergeEntries link (eventEntries doc.hooks name)))
      else doc.hooks[name]? :=
  foldl_mergeEvent_hooks link _ codexHookEvents_nodup (doc.hooks, migrated) name

/-- **When the installer writes.** -/
theorem mergeEvents_unchanged_iff {link : String} (own : OwnLink link) (doc : CodexHooksDocument)
    (migrated : Bool) : (mergeEvents link doc migrated).2 = false ↔
      migrated = false ∧ ∀ event ∈ codexHookEvents, Settled link (eventEntries doc.hooks event) := by
  rw [mergeEvents, foldl_mergeEvent_changed link _ codexHookEvents_nodup, Bool.or_eq_false_iff,
    List.any_eq_false]
  refine and_congr_right fun _ => forall₂_congr fun event _ => ?_
  rw [Bool.not_eq_true, Bool.not_eq_false', merge_unchanged_iff own]

/-! ### What is written is read back -/

theorem keepNull_decodeSlice {α : Type} {decode : Json → Option α} {zero : α} (value : Json) :
    keepNull (decodeSlice decode zero) none value = decodeSlice decode zero value := by
  cases value <;> rfl

theorem decodeSlice_sliceJson {α : Type} {decode : Json → Option α} {encode : α → Json} {zero : α}
    (each : ∀ value, keepNull decode zero (encode value) = some value) (values : Option (List α)) :
    decodeSlice decode zero (sliceJson encode values) = some values := by
  cases values with
  | none => rfl
  | some values =>
    have read : (values.map encode).mapM (keepNull decode zero) = some (values.map id) :=
      mapM_map fun value _ => each value
    rw [sliceJson, decodeSlice, decodeList, read, List.map_id, Option.map_some]
    intro same
    cases same

theorem decodeHandler_handlerJson (h : CodexHookHandler) : decodeHandler (handlerJson h) = some h := by
  have distinct : ([("type", .str h.type), ("command", .str h.command)].map
      fun member : String × Json => foldName member.1).Nodup := by
    change [foldName "type", foldName "command"].Nodup
    decide
  have type : readField decodeText "" "type" [("type", .str h.type), ("command", .str h.command)] =
      some h.type := readField_of_mem distinct (by simp) (reads_text h.type)
  have command : readField decodeText "" "command" [("type", .str h.type), ("command", .str h.command)] =
      some h.command := readField_of_mem distinct (by simp) (reads_text h.command)
  rw [handlerJson, decodeHandler, type, command]
  rfl

theorem readSlice_of_mem {α : Type} {decode : Json → Option α} {zero : α} {name : String}
    {members : List (String × Json)} {value : Json}
    (distinct : (members.map fun member => foldName member.1).Nodup) (inside : (name, value) ∈ members) :
    readSlice decode zero name members = decodeSlice decode zero value := by
  rw [readSlice, fieldValues_of_mem distinct inside, List.foldlM_cons]
  cases decodeSlice decode zero value <;> rfl

theorem decodeEntry_entryJson (e : CodexHookEntry) : decodeEntry (entryJson e) = some e := by
  obtain ⟨matcher, hooks⟩ := e
  have slice := @decodeSlice_sliceJson _ decodeHandler handlerJson ⟨"", ""⟩
    (fun h => (keepNull_of_present (by intro same; cases same)).trans (decodeHandler_handlerJson h)) hooks
  by_cases unset : matcher = ""
  · subst unset
    have distinct : ([("hooks", sliceJson handlerJson hooks)].map
        fun member : String × Json => foldName member.1).Nodup := List.nodup_singleton _
    have missing : readField decodeText "" "matcher" [("hooks", sliceJson handlerJson hooks)] = some "" := by
      refine readField_of_missing fun member inside => ?_
      cases List.mem_singleton.mp inside
      change foldName "matcher" ≠ foldName "hooks"
      decide
    rw [entryJson, if_pos rfl, List.nil_append, decodeEntry, missing,
      readSlice_of_mem distinct List.mem_cons_self, slice]
    rfl
  · have distinct : ([("matcher", .str matcher), ("hooks", sliceJson handlerJson hooks)].map
        fun member : String × Json => foldName member.1).Nodup := by
      change [foldName "matcher", foldName "hooks"].Nodup
      decide
    have given : readField decodeText "" "matcher"
        [("matcher", .str matcher), ("hooks", sliceJson handlerJson hooks)] = some matcher :=
      readField_of_mem distinct (by simp) (reads_text matcher)
    rw [entryJson, if_neg unset, List.cons_append, List.nil_append, decodeEntry, given,
      readSlice_of_mem distinct (List.mem_cons_of_mem _ List.mem_cons_self), slice]
    rfl

theorem decodeEntries_entriesJson (entries : Option (List CodexHookEntry)) :
    keepNull decodeEntries none (entriesJson entries) = some entries := by
  rw [decodeEntries, keepNull_decodeSlice]
  exact decodeSlice_sliceJson
    (fun e => (keepNull_of_present (by intro same; cases same)).trans (decodeEntry_entryJson e)) entries

theorem decodeHooks_mapJson (hooks : ExtTreeMap String (Option (List CodexHookEntry))) :
    decodeHooks (mapJson entriesJson hooks) = some hooks := by
  rw [mapJson, decodeHooks]
  · exact decodeMap_mapJson hooks decodeEntries_entriesJson
  · intro same
    cases same

/-- The members that the app reads itself are not among the others. -/
def CodexHooksDocument.Split (d : CodexHooksDocument) : Prop :=
  d.extra["description"]? = none ∧ d.extra["hooks"]? = none

theorem readRoot_toList (map : ExtTreeMap String Json) :
    readCodexHooksDocument (mapJson id map) = readRoot map := by
  have same : map.toList.map (fun entry => (entry.1, id entry.2)) = map.toList := List.map_id _
  rw [mapJson, readCodexHooksDocument, same, insertAll_toList]

theorem getElem?_docMembers (d : CodexHooksDocument) (name : String) :
    (docMembers d)[name]? =
      if name = "hooks" then some (mapJson entriesJson d.hooks)
      else if name = "description" ∧ d.description ≠ "" then some (.str d.description)
      else d.extra[name]? := by
  rw [docMembers]
  by_cases isHooks : name = "hooks"
  · rw [if_pos isHooks, isHooks, ExtTreeMap.getElem?_insert_self]
  · rw [if_neg isHooks, getElem?_insert_of_ne _ _ isHooks]
    by_cases unset : d.description = ""
    · rw [if_pos unset, if_neg fun both => both.2 unset]
    · rw [if_neg unset]
      by_cases isDescription : name = "description"
      · rw [if_pos ⟨isDescription, unset⟩, isDescription, ExtTreeMap.getElem?_insert_self]
      · rw [if_neg fun both => isDescription both.1, getElem?_insert_of_ne _ _ isDescription]

theorem docMembers_extra (d : CodexHooksDocument) (split : d.Split) :
    ((docMembers d).erase "description").erase "hooks" = d.extra := by
  refine ExtTreeMap.ext_getElem? fun name => ?_
  by_cases isHooks : name = "hooks"
  · subst isHooks
    rw [ExtTreeMap.getElem?_erase_self, split.2]
  · rw [getElem?_erase_of_ne _ isHooks]
    by_cases isDescription : name = "description"
    · subst isDescription
      rw [ExtTreeMap.getElem?_erase_self, split.1]
    · rw [getElem?_erase_of_ne _ isDescription, getElem?_docMembers, if_neg isHooks,
        if_neg fun both => isDescription both.1]

/-- **What is written is read back.** -/
theorem read_docJson (d : CodexHooksDocument) (split : d.Split) :
    readCodexHooksDocument (docJson d) = (d, false) := by
  have hooks : ((docMembers d).erase "description")["hooks"]? = some (mapJson entriesJson d.hooks) := by
    rw [getElem?_erase_of_ne _ (by decide), getElem?_docMembers, if_pos rfl]
  have description : (match (docMembers d)["description"]? with
      | some (.str text) => text
      | _ => "") = d.description := by
    rw [getElem?_docMembers, if_neg (by decide)]
    by_cases unset : d.description = ""
    · rw [if_neg fun both => both.2 unset, split.1, unset]
    · rw [if_pos ⟨rfl, unset⟩]
  rw [docJson, readRoot_toList, readRoot, description]
  simp only [hooks, decodeHooks_mapJson, Option.getD_some, docMembers_extra d split]

theorem foldl_migrateMember_extra (members : List (String × Json)) (doc : CodexHooksDocument)
    {name : String} (absent : name ∉ members.map Prod.fst) :
    (members.foldl migrateMember doc).extra[name]? = doc.extra[name]? := by
  induction members generalizing doc with
  | nil => rfl
  | cons member rest ih =>
    rw [List.map_cons, List.mem_cons, not_or] at absent
    rw [List.foldl_cons, ih _ absent.2, migrateMember]
    split
    · rfl
    · exact getElem?_insert_of_ne _ _ absent.1

theorem readRoot_split (root : ExtTreeMap String Json) : (readRoot root).1.Split := by
  rw [readRoot]
  split
  · next hooks _ =>
      refine ⟨?_, ExtTreeMap.getElem?_erase_self⟩
      rw [getElem?_erase_of_ne _ (by decide)]
      exact ExtTreeMap.getElem?_erase_self
  · next flat =>
      have absent : ∀ name, (root.erase "description")[name]? = none →
          name ∉ (root.erase "description").toList.map Prod.fst := by
        intro name missing inside
        obtain ⟨⟨key, value⟩, listed, rfl⟩ := List.mem_map.mp inside
        rw [ExtTreeMap.mem_toList_iff_getElem?_eq_some.mp listed] at missing
        cases missing
      exact ⟨foldl_migrateMember_extra _ _ (absent _ ExtTreeMap.getElem?_erase_self),
        foldl_migrateMember_extra _ _ (absent _ flat)⟩

theorem readFile_split (file : HooksFile) : (readFile file).1.Split := by
  cases file with
  | missing => exact ⟨rfl, rfl⟩
  | broken => exact ⟨rfl, rfl⟩
  | json raw =>
    cases raw with
    | obj members => exact readRoot_split _
    | null => exact readRoot_split _
    | bool _ => exact ⟨rfl, rfl⟩
    | num _ => exact ⟨rfl, rfl⟩
    | str _ => exact ⟨rfl, rfl⟩
    | arr _ => exact ⟨rfl, rfl⟩

theorem installCodexAt_cases (link : String) (file : HooksFile) :
    ((mergeEvents link (readFile file).1 (readFile file).2).2 = true ∧
        installCodexAt link file = .json (docJson { (readFile file).1 with
          hooks := (mergeEvents link (readFile file).1 (readFile file).2).1 })) ∨
      ((mergeEvents link (readFile file).1 (readFile file).2).2 = false ∧ installCodexAt link file = file) := by
  rw [installCodexAt]
  cases changed : (mergeEvents link (readFile file).1 (readFile file).2).2 with
  | true => exact .inl ⟨rfl, if_pos rfl⟩
  | false => exact .inr ⟨rfl, if_neg Bool.false_ne_true⟩

/-- **Installing again changes nothing**, whatever the file was. -/
theorem installCodexAt_twice {link : String} (own : OwnLink link) (file : HooksFile) :
    installCodexAt link (installCodexAt link file) = installCodexAt link file := by
  rcases installCodexAt_cases link file with ⟨_, written⟩ | ⟨_, kept⟩
  · rw [written]
    have read : readFile (.json (docJson { (readFile file).1 with
        hooks := (mergeEvents link (readFile file).1 (readFile file).2).1 })) = _ :=
      read_docJson _ (readFile_split file)
    rw [installCodexAt, read, (mergeEvents_unchanged_iff own _ _).mpr]
    · exact if_neg Bool.false_ne_true
    · refine ⟨rfl, fun event inside => ?_⟩
      rw [eventEntries, mergeEvents_hooks, if_pos inside]
      exact mergeEntries_settled _
  · rw [kept, kept]

end Atterm.HookInstall
