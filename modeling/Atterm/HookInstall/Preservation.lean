/-
**What happens to the user's hooks.**

The app reads of an entry its matcher and its handlers, and of a handler its type and its command. What else
the user wrote is not written again, and an entry that holds a handler of the app goes as a whole.

* `Document` — the hooks files that there are: further fields anywhere, and entry lists that are not empty;
* `KeepsDocument`, `SameDocument` — nothing that is not the app's own is lost; the same content;
* `preserved_iff` — the file is preserved exactly then, or where the installer has nothing to write.
-/

import Atterm.HookInstall.Codex

namespace Atterm.HookInstall

open Std (ExtTreeMap)
open Atterm.Foundation

/-! ### Documents -/

def handlersOf (e : Json) : List Json :=
  match e.member? "hooks" with
  | some (.arr handlers) => handlers
  | _ => []

def entriesOf (document : Json) (event : String) : List Json :=
  match (document.member? "hooks").bind (Json.member? event) with
  | some (.arr entries) => entries
  | _ => []

/-- A handler of the app: its command names the app's binary. -/
def ownHandler (h : Json) : Bool :=
  match h.member? "command" with
  | some (.str command) => isAttermCommand command
  | _ => false

def touched (e : Json) : Bool := (handlersOf e).any ownHandler

def foreign (e : Json) : Bool := !touched e || (handlersOf e).any (fun h => !ownHandler h)

/-- The names of an object are distinct, and those that are known are spelled as the schema does. -/
structure Named (known : List String) (members : List (String × Json)) : Prop where
  distinct : (members.map Prod.fst).Nodup
  spelled : ∀ member ∈ members, ∀ name ∈ known, foldName name = foldName member.1 → member.1 = name

def TextMember (name : String) (j : Json) : Prop :=
  ∀ value, j.member? name = some value → ∃ text, value = .str text

structure HandlerDocument (h : Json) : Prop where
  object : ∃ members, h = .obj members ∧ Named ["type", "command"] members
  type : TextMember "type" h
  command : TextMember "command" h

structure EntryDocument (e : Json) : Prop where
  object : ∃ members, e = .obj members ∧ Named ["matcher", "hooks"] members
  matcher : TextMember "matcher" e
  handlers : ∃ handlers, e.member? "hooks" = some (.arr handlers)
  each : ∀ h ∈ handlersOf e, HandlerDocument h

/-- A hooks file: its hooks are lists of entries that are not empty, by event. -/
structure Document (j : Json) : Prop where
  object : ∃ members, j = .obj members ∧ (members.map Prod.fst).Nodup
  hooks : ∃ hooks, j.member? "hooks" = some (.obj hooks) ∧ (hooks.map Prod.fst).Nodup ∧
    ∀ member ∈ hooks, ∃ entries, member.2 = .arr entries ∧ entries ≠ []
  each : ∀ event, ∀ e ∈ entriesOf j event, EntryDocument e

/-! ### What is kept -/

/-- Every field is there with its value. -/
def KeepsHandler (h h' : Json) : Prop :=
  ∀ name value, h.member? name = some value → h'.member? name = some value

def SameHandler (h h' : Json) : Prop := ∀ name, h'.member? name = h.member? name

/-- Every field and every handler that is not the app's own is there, and no other handler. -/
def KeepsEntry (e e' : Json) : Prop :=
  (∀ name value, name ≠ "hooks" → e.member? name = some value → e'.member? name = some value) ∧
    ∃ handlers, e'.member? "hooks" = some (.arr handlers) ∧
      List.Forall₂ KeepsHandler ((handlersOf e).filter fun h => !ownHandler h)
        (handlers.filter fun h => !ownHandler h)

def SameEntry (e e' : Json) : Prop :=
  (∀ name, name ≠ "hooks" → e'.member? name = e.member? name) ∧
    ∃ handlers, e'.member? "hooks" = some (.arr handlers) ∧
      List.Forall₂ SameHandler (handlersOf e) handlers

/-- Every field of the file and every entry that is not all the app's own is there, and no other entry. -/
def KeepsDocument (j j' : Json) : Prop :=
  (∀ name value, name ≠ "hooks" → j.member? name = some value → j'.member? name = some value) ∧
    ∀ event, List.Forall₂ KeepsEntry ((entriesOf j event).filter foreign)
      ((entriesOf j' event).filter foreign)

def SameDocument (j j' : Json) : Prop :=
  (∀ name, name ≠ "hooks" → j'.member? name = j.member? name) ∧
    ∃ hooks, j'.member? "hooks" = some (.obj hooks) ∧ ∀ event,
      ((hooks.lookup event).isSome = ((j.member? "hooks").bind (Json.member? event)).isSome) ∧
      List.Forall₂ SameEntry (entriesOf j event) (entriesOf j' event)

def NoOwn (j : Json) : Prop := ∀ event, ∀ e ∈ entriesOf j event, touched e = false

/-- Installing keeps what is the user's, installing again changes nothing, and uninstalling takes back what
installing has done to a file without the app. -/
structure Preserved (link : String) (j : Json) : Prop where
  twice : installCodexAt link (installCodexAt link (.json j)) = installCodexAt link (.json j)
  kept : ∃ j', installCodexAt link (.json j) = .json j' ∧ KeepsDocument j j'
  undone : NoOwn j → ∃ j', uninstallCodexAt (installCodexAt link (.json j)) = .json j' ∧ SameDocument j j'

/-! ### When it is kept -/

/-- A handler without further fields. -/
def PlainHandler (h : Json) : Prop := ∀ name, h.member? name ≠ none → name = "type" ∨ name = "command"

/-- Neither a further field nor an empty matcher. -/
structure PlainFields (e : Json) : Prop where
  names : ∀ name, e.member? name ≠ none → name = "matcher" ∨ name = "hooks"
  matcher : e.member? "matcher" ≠ some (.str "")

/-- The description is not empty and no other value than a text. -/
def DescriptionKept (j : Json) : Prop :=
  ∀ value, j.member? "description" = some value → ∃ text, value = .str text ∧ text ≠ ""

/-- What is not the app's own has no further fields, and shares no entry with it in the app's events. -/
structure Bare (j : Json) : Prop where
  description : DescriptionKept j
  fields : ∀ event, ∀ e ∈ entriesOf j event, foreign e = true → PlainFields e
  handlers : ∀ event, ∀ e ∈ entriesOf j event, foreign e = true → ∀ h ∈ handlersOf e,
    ownHandler h = false → PlainHandler h
  apart : ∀ event ∈ codexHookEvents, ∀ e ∈ entriesOf j event, foreign e = true → touched e = false

/-- Every handler has its type and its command. -/
def Complete (j : Json) : Prop := ∀ event, ∀ e ∈ entriesOf j event, ∀ h ∈ handlersOf e,
  h.member? "type" ≠ none ∧ h.member? "command" ≠ none

/-! ### Reading a document -/

/-- The text of a member, empty where there is none. -/
def textOf (name : String) (j : Json) : String :=
  match j.member? name with
  | some (.str text) => text
  | _ => ""

def readHandler (h : Json) : CodexHookHandler := ⟨textOf "type" h, textOf "command" h⟩

def readEntry (e : Json) : CodexHookEntry := ⟨textOf "matcher" e, some ((handlersOf e).map readHandler)⟩

theorem fieldValues_of_named {known : List String} {members : List (String × Json)}
    (named : Named known members) {name : String} (inside : name ∈ known) :
    fieldValues name members = (members.lookup name).toList := by
  obtain ⟨distinct, spelled⟩ := named
  induction members with
  | nil => rfl
  | cons member rest ih =>
    rw [List.map_cons, List.nodup_cons] at distinct
    have later := ih distinct.2 fun other listed => spelled other (List.mem_cons_of_mem _ listed)
    rw [fieldValues] at later ⊢
    rw [List.lookup_cons, List.filter_cons]
    by_cases here : name = member.1
    · subst here
      have missing : rest.lookup member.1 = none := (lookup_eq_none_iff _ _).mpr distinct.1
      rw [missing] at later
      rw [beq_self_eq_true, if_pos (decide_eq_true rfl), List.map_cons, later]
      rfl
    · have apart : ¬foldName name = foldName member.1 := fun same =>
        here (spelled member List.mem_cons_self name inside same).symm
      rw [beq_false_of_ne here, if_neg (by simpa using apart), later]

theorem readText_of_named {known : List String} {members : List (String × Json)}
    (named : Named known members) {name : String} (inside : name ∈ known)
    (text : TextMember name (.obj members)) :
    readField decodeText "" name members = some (textOf name (.obj members)) := by
  rw [readField, fieldValues_of_named named inside, textOf, Json.member?]
  cases held : members.lookup name with
  | none => rfl
  | some value =>
    obtain ⟨t, rfl⟩ := text value held
    rfl

theorem decodeHandler_document {h : Json} (document : HandlerDocument h) :
    decodeHandler h = some (readHandler h) := by
  obtain ⟨⟨members, rfl, named⟩, type, command⟩ := document
  rw [decodeHandler, readText_of_named named (by decide) type, readText_of_named named (by decide) command]
  rfl

theorem keepNull_of_decode {α : Type} {decode : Json → Option α} {zero value : α} {j : Json}
    (null : decode .null = none) (decoded : decode j = some value) : keepNull decode zero j = some value := by
  rw [keepNull_of_present, decoded]
  rintro rfl
  rw [null] at decoded
  cases decoded

theorem decodeSlice_arr {α : Type} {decode : Json → Option α} {zero : α} {read : Json → α}
    {elems : List Json} (null : decode .null = none) (each : ∀ j ∈ elems, decode j = some (read j)) :
    decodeSlice decode zero (.arr elems) = some (some (elems.map read)) := by
  have all : (elems.map id).mapM (keepNull decode zero) = some (elems.map read) :=
    mapM_map fun j inside => keepNull_of_decode null (each j inside)
  rw [List.map_id] at all
  rw [decodeSlice, decodeList, all]
  · rfl
  · intro same
    cases same

theorem decodeEntry_document {e : Json} (document : EntryDocument e) : decodeEntry e = some (readEntry e) := by
  obtain ⟨⟨members, rfl, named⟩, matcher, ⟨handlers, held⟩, each⟩ := document
  have listed : handlersOf (.obj members) = handlers := by rw [handlersOf, held]
  have slice : readSlice decodeHandler ⟨"", ""⟩ "hooks" members = some (some (handlers.map readHandler)) := by
    rw [Json.member?] at held
    rw [readSlice, fieldValues_of_named named (by decide), held, Option.toList_some, List.foldlM_cons,
      decodeSlice_arr rfl fun h inside => decodeHandler_document (each h (listed ▸ inside))]
    rfl
  rw [decodeEntry, readText_of_named named (by decide) matcher, slice, readEntry, listed]
  rfl

theorem lookup_hooks {j : Json} (document : Document j) :
    ∃ hooks, j.member? "hooks" = some (.obj hooks) ∧ (hooks.map Prod.fst).Nodup ∧
      ∀ event, hooks.lookup event =
        if entriesOf j event = [] then none else some (.arr (entriesOf j event)) := by
  obtain ⟨hooks, held, distinct, lists⟩ := document.hooks
  refine ⟨hooks, held, distinct, fun event => ?_⟩
  have here : (j.member? "hooks").bind (Json.member? event) = hooks.lookup event := by rw [held]; rfl
  rw [entriesOf, here]
  cases found : hooks.lookup event with
  | none => rfl
  | some value =>
    obtain ⟨entries, same, filled⟩ := lists (event, value) ((lookup_eq_some_iff distinct _ _).mp found)
    obtain rfl : value = .arr entries := same
    rw [if_neg filled]

structure ReadAs (j : Json) (d : CodexHooksDocument) : Prop where
  description : d.description = textOf "description" j
  extra : ∀ name, d.extra[name]? = if name = "description" ∨ name = "hooks" then none else j.member? name
  hooks : ∀ event, d.hooks[event]? =
    if entriesOf j event = [] then none else some (some ((entriesOf j event).map readEntry))

def readList : Json → Option (List CodexHookEntry)
  | .arr entries => some (entries.map readEntry)
  | _ => none

theorem decodeHooks_document {j : Json} (document : Document j) {hooks : List (String × Json)}
    (distinct : (hooks.map Prod.fst).Nodup)
    (lists : ∀ event, hooks.lookup event =
      if entriesOf j event = [] then none else some (.arr (entriesOf j event))) :
    ∃ map, decodeHooks (.obj hooks) = some map ∧ ∀ event, map[event]? =
      if entriesOf j event = [] then none else some (some ((entriesOf j event).map readEntry)) := by
  have each : ∀ member ∈ hooks, keepNull decodeEntries none member.2 = some (readList member.2) := by
    intro member inside
    have found := (lookup_eq_some_iff distinct member.1 member.2).mpr inside
    rw [lists] at found
    split at found
    · cases found
    · rw [← Option.some.inj found, decodeEntries, keepNull_decodeSlice]
      exact decodeSlice_arr rfl fun e inside => decodeEntry_document (document.each _ e inside)
  refine ⟨_, decodeMap_obj_of_each each, fun event => ?_⟩
  rw [getElem?_insertAll_lookup, lookup_map, lists]
  · split <;> rfl
  · rw [List.map_map]
    exact distinct

theorem read_document {j : Json} (document : Document j) :
    ∃ d, readCodexHooksDocument j = (d, false) ∧ ReadAs j d := by
  obtain ⟨hooks, held, distinct, lists⟩ := lookup_hooks document
  obtain ⟨members, rfl, once⟩ := document.object
  obtain ⟨map, decoded, events⟩ := decodeHooks_document document distinct lists
  have root : ∀ name, (insertAll (∅ : ExtTreeMap String Json) members)[name]? =
      (Json.obj members).member? name := getElem?_insertAll_lookup once
  have hooksHeld : ((insertAll (∅ : ExtTreeMap String Json) members).erase "description")["hooks"]? =
      some (Json.obj hooks) := by
    rw [getElem?_erase_of_ne _ (by decide), root, held]
  refine ⟨⟨textOf "description" (.obj members), map,
    ((insertAll ∅ members).erase "description").erase "hooks"⟩, ?_, rfl, fun name => ?_, events⟩
  · rw [readCodexHooksDocument, readRoot]
    simp only [hooksHeld, decoded, Option.getD_some, root]
    rfl
  · by_cases isHooks : name = "hooks"
    · subst isHooks
      rw [if_pos (.inr rfl)]
      exact ExtTreeMap.getElem?_erase_self
    · change (((insertAll ∅ members).erase "description").erase "hooks")[name]? = _
      rw [getElem?_erase_of_ne _ isHooks]
      by_cases isDescription : name = "description"
      · subst isDescription
        rw [if_pos (.inl rfl)]
        exact ExtTreeMap.getElem?_erase_self
      · rw [getElem?_erase_of_ne _ isDescription, root, if_neg fun either => either.elim isDescription isHooks]

theorem ReadAs.eventEntries {j : Json} {d : CodexHooksDocument} (read : ReadAs j d) (event : String) :
    eventEntries d.hooks event = (entriesOf j event).map readEntry := by
  rw [HookInstall.eventEntries, read.hooks]
  by_cases none : entriesOf j event = []
  · rw [if_pos none, none]
    rfl
  · rw [if_neg none]
    rfl

/-! ### Writing it again -/

def rewritten (e : Json) : Json := entryJson (readEntry e)

theorem member?_handlerJson (h : CodexHookHandler) (name : String) :
    (handlerJson h).member? name =
      if name = "type" then some (.str h.type) else if name = "command" then some (.str h.command)
      else none := by
  rw [handlerJson, Json.member?, List.lookup_cons, List.lookup_cons]
  by_cases isType : name = "type"
  · simp [isType]
  · by_cases isCommand : name = "command"
    · simp [isCommand]
    · simp [isType, isCommand, beq_false_of_ne isType, beq_false_of_ne isCommand]

theorem member?_entryJson (e : CodexHookEntry) (name : String) :
    (entryJson e).member? name =
      if name = "hooks" then some (sliceJson handlerJson e.hooks)
      else if name = "matcher" ∧ e.matcher ≠ "" then some (.str e.matcher) else none := by
  rw [entryJson, Json.member?]
  by_cases unset : e.matcher = ""
  · by_cases isHooks : name = "hooks" <;> simp [unset, isHooks]
  · by_cases isMatcher : name = "matcher"
    · simp [unset, isMatcher]
    · by_cases isHooks : name = "hooks"
      · simp [unset, isHooks, List.lookup_cons]
      · simp [unset, isMatcher, isHooks, List.lookup_cons, beq_false_of_ne isMatcher,
          beq_false_of_ne isHooks]

theorem handlersOf_entryJson (e : CodexHookEntry) :
    handlersOf (entryJson e) = (e.hooks.getD []).map handlerJson := by
  rw [handlersOf, member?_entryJson, if_pos rfl]
  cases e.hooks <;> rfl

theorem ownHandler_handlerJson (h : CodexHookHandler) :
    ownHandler (handlerJson h) = isAttermCommand h.command := by
  rw [ownHandler, member?_handlerJson, if_neg (by decide), if_pos rfl]

theorem isAttermCommand_empty : isAttermCommand "" = false := by
  decide

theorem isAttermCommand_readHandler (h : Json) : isAttermCommand (readHandler h).command = ownHandler h := by
  change isAttermCommand (textOf "command" h) = ownHandler h
  rw [textOf, ownHandler]
  split
  · rfl
  · exact isAttermCommand_empty

theorem ownHandler_rewritten (h : Json) : ownHandler (handlerJson (readHandler h)) = ownHandler h := by
  rw [ownHandler_handlerJson, isAttermCommand_readHandler]

theorem isAttermCodexEntry_readEntry (e : Json) : isAttermCodexEntry (readEntry e) = touched e := by
  rw [isAttermCodexEntry, readEntry, Option.getD_some, List.any_map, touched]
  congr 1
  funext h
  exact isAttermCommand_readHandler h

theorem handlersOf_rewritten (e : Json) :
    handlersOf (rewritten e) = (handlersOf e).map fun h => handlerJson (readHandler h) := by
  rw [rewritten, handlersOf_entryJson, readEntry, Option.getD_some, List.map_map]
  rfl

theorem foreign_rewritten (e : Json) : foreign (rewritten e) = foreign e := by
  rw [foreign, foreign, touched, touched, handlersOf_rewritten, List.any_map, List.any_map]
  simp only [Function.comp_def, ownHandler_rewritten]

theorem textOf_of_held {name text : String} {j : Json} (held : j.member? name = some (.str text)) :
    textOf name j = text := by
  rw [textOf, held]

/-- **A handler is written again with every field exactly if it has no further ones.** -/
theorem keepsHandler_rewritten_iff {h : Json} (document : HandlerDocument h) :
    KeepsHandler h (handlerJson (readHandler h)) ↔ PlainHandler h := by
  constructor
  · intro keeps name held
    obtain ⟨value, given⟩ := Option.ne_none_iff_exists'.mp held
    have kept := keeps name value given
    rw [member?_handlerJson] at kept
    split_ifs at kept with isType isCommand
    · exact .inl isType
    · exact .inr isCommand
  · intro plain name value held
    rw [member?_handlerJson]
    rcases plain name (by rw [held]; exact Option.some_ne_none _) with rfl | rfl
    · obtain ⟨text, rfl⟩ := document.type value held
      rw [if_pos rfl, readHandler, textOf_of_held held]
    · obtain ⟨text, rfl⟩ := document.command value held
      rw [if_neg (by decide), if_pos rfl, readHandler, textOf_of_held held]

theorem sameHandler_rewritten_iff {h : Json} (document : HandlerDocument h) :
    SameHandler h (handlerJson (readHandler h)) ↔
      PlainHandler h ∧ h.member? "type" ≠ none ∧ h.member? "command" ≠ none := by
  constructor
  · intro same
    refine ⟨(keepsHandler_rewritten_iff document).mp fun name value held => (same name).trans held, ?_, ?_⟩
    · rw [← same, member?_handlerJson, if_pos rfl]
      exact Option.some_ne_none _
    · rw [← same, member?_handlerJson, if_neg (by decide), if_pos rfl]
      exact Option.some_ne_none _
  · rintro ⟨plain, type, command⟩ name
    cases held : h.member? name with
    | some value => exact (keepsHandler_rewritten_iff document).mpr plain name value held
    | none =>
      rw [member?_handlerJson, if_neg, if_neg]
      · rintro rfl
        exact command held
      · rintro rfl
        exact type held

theorem rewritten_handlers (e : Json) : (rewritten e).member? "hooks" =
    some (.arr ((handlersOf e).map fun h => handlerJson (readHandler h))) := by
  rw [rewritten, member?_entryJson, if_pos rfl, readEntry, sliceJson, List.map_map]
  rfl

theorem fields_kept_iff {e : Json} (document : EntryDocument e) :
    (∀ name value, name ≠ "hooks" → e.member? name = some value → (rewritten e).member? name = some value) ↔
      PlainFields e := by
  constructor
  · intro keeps
    refine ⟨fun name held => ?_, fun empty => ?_⟩
    · obtain ⟨value, given⟩ := Option.ne_none_iff_exists'.mp held
      by_cases isHooks : name = "hooks"
      · exact .inr isHooks
      · have kept := keeps name value isHooks given
        rw [rewritten, member?_entryJson, if_neg isHooks] at kept
        split_ifs at kept with isMatcher
        exact .inl isMatcher.1
    · have kept := keeps "matcher" _ (by decide) empty
      rw [rewritten, member?_entryJson, if_neg (by decide), readEntry, textOf_of_held empty] at kept
      simp at kept
  · rintro ⟨names, filled⟩ name value isHooks held
    have isMatcher := (names name (by rw [held]; exact Option.some_ne_none _)).resolve_right isHooks
    subst isMatcher
    obtain ⟨text, rfl⟩ := document.matcher value held
    have set : (readEntry e).matcher = text := textOf_of_held held
    have given : text ≠ "" := by
      rintro rfl
      exact filled held
    rw [rewritten, member?_entryJson, if_neg isHooks, set, if_pos ⟨rfl, given⟩]

theorem fields_same_iff {e : Json} (document : EntryDocument e) :
    (∀ name, name ≠ "hooks" → (rewritten e).member? name = e.member? name) ↔ PlainFields e := by
  rw [← fields_kept_iff document]
  constructor
  · intro same name value isHooks held
    exact (same name isHooks).trans held
  · intro keeps name isHooks
    cases held : e.member? name with
    | some value => exact keeps name value isHooks held
    | none =>
      rw [rewritten, member?_entryJson, if_neg isHooks, if_neg]
      rintro ⟨rfl, given⟩
      refine given ?_
      change textOf "matcher" e = ""
      rw [textOf, held]

/-- **An entry is written again with what is the user's exactly if that is plain.** -/
theorem keepsEntry_rewritten_iff {e : Json} (document : EntryDocument e) :
    KeepsEntry e (rewritten e) ↔
      PlainFields e ∧ ∀ h ∈ handlersOf e, ownHandler h = false → PlainHandler h := by
  rw [KeepsEntry, fields_kept_iff document]
  refine and_congr_right fun _ => ?_
  have same : ((handlersOf e).map fun h => handlerJson (readHandler h)).filter (fun h => !ownHandler h) =
      ((handlersOf e).filter fun h => !ownHandler h).map fun h => handlerJson (readHandler h) := by
    rw [List.filter_map]
    simp only [Function.comp_def, ownHandler_rewritten]
  constructor
  · rintro ⟨handlers, held, kept⟩ h inside user
    rw [rewritten_handlers, Option.some.injEq, Json.arr.injEq] at held
    rw [← held, same, List.forall₂_map_right_iff, List.forall₂_same] at kept
    exact (keepsHandler_rewritten_iff (document.each h inside)).mp
      (kept h (List.mem_filter.mpr ⟨inside, by rw [user]; rfl⟩))
  · intro plain
    refine ⟨_, rewritten_handlers e, ?_⟩
    rw [same, List.forall₂_map_right_iff, List.forall₂_same]
    intro h inside
    obtain ⟨listed, user⟩ := List.mem_filter.mp inside
    rw [Bool.not_eq_true'] at user
    exact (keepsHandler_rewritten_iff (document.each h listed)).mpr (plain h listed user)

theorem sameEntry_rewritten_iff {e : Json} (document : EntryDocument e) :
    SameEntry e (rewritten e) ↔ PlainFields e ∧ ∀ h ∈ handlersOf e,
      PlainHandler h ∧ h.member? "type" ≠ none ∧ h.member? "command" ≠ none := by
  rw [SameEntry, fields_same_iff document]
  refine and_congr_right fun _ => ?_
  constructor
  · rintro ⟨handlers, held, same⟩ h inside
    rw [rewritten_handlers, Option.some.injEq, Json.arr.injEq] at held
    rw [← held, List.forall₂_map_right_iff, List.forall₂_same] at same
    exact (sameHandler_rewritten_iff (document.each h inside)).mp (same h inside)
  · intro all
    refine ⟨_, rewritten_handlers e, ?_⟩
    rw [List.forall₂_map_right_iff, List.forall₂_same]
    exact fun h inside => (sameHandler_rewritten_iff (document.each h inside)).mpr (all h inside)

/-! ### The file that is written -/

theorem member?_docJson (d : CodexHooksDocument) (name : String) :
    (docJson d).member? name = (docMembers d)[name]? := by
  rw [docJson, member?_mapJson, Option.map_id]
  rfl

theorem hooks_docJson (d : CodexHooksDocument) (event : String) :
    ((docJson d).member? "hooks").bind (Json.member? event) = d.hooks[event]?.map entriesJson := by
  rw [member?_docJson, getElem?_docMembers, if_pos rfl, Option.bind_some, member?_mapJson]

theorem entriesOf_docJson (d : CodexHooksDocument) (event : String) :
    entriesOf (docJson d) event = (eventEntries d.hooks event).map entryJson := by
  rw [entriesOf, hooks_docJson, eventEntries]
  cases d.hooks[event]? with
  | none => rfl
  | some entries => cases entries <;> rfl

theorem members_kept_iff {j : Json} {d : CodexHooksDocument} (read : ReadAs j d)
    (hooks : ExtTreeMap String (Option (List CodexHookEntry))) :
    (∀ name value, name ≠ "hooks" → j.member? name = some value →
        (docJson { d with hooks := hooks }).member? name = some value) ↔ DescriptionKept j := by
  constructor
  · intro keeps value held
    have kept := keeps "description" value (by decide) held
    rw [member?_docJson, getElem?_docMembers, if_neg (by decide)] at kept
    split_ifs at kept with given
    · exact ⟨d.description, (Option.some.inj kept).symm, given.2⟩
    · rw [read.extra, if_pos (.inl rfl)] at kept
      cases kept
  · intro description name value isHooks held
    rw [member?_docJson, getElem?_docMembers, if_neg isHooks]
    by_cases isDescription : name = "description"
    · subst isDescription
      obtain ⟨text, rfl, given⟩ := description value held
      have same : d.description = text := read.description.trans (textOf_of_held held)
      rw [if_pos ⟨rfl, same ▸ given⟩, same]
    · rw [if_neg fun both => isDescription both.1, read.extra,
        if_neg fun either => either.elim isDescription isHooks, held]

theorem members_same_iff {j : Json} {d : CodexHooksDocument} (read : ReadAs j d)
    (hooks : ExtTreeMap String (Option (List CodexHookEntry))) :
    (∀ name, name ≠ "hooks" → (docJson { d with hooks := hooks }).member? name = j.member? name) ↔
      DescriptionKept j := by
  rw [← members_kept_iff read hooks]
  constructor
  · intro same name value isHooks held
    exact (same name isHooks).trans held
  · intro keeps name isHooks
    cases held : j.member? name with
    | some value => exact keeps name value isHooks held
    | none =>
      rw [member?_docJson, getElem?_docMembers, if_neg isHooks, if_neg, read.extra]
      · split
        · rfl
        · exact held
      · rintro ⟨rfl, given⟩
        refine given (read.description.trans ?_)
        rw [textOf, held]

/-! ### The installer on a document -/

def installed (link : String) (d : CodexHooksDocument) : Json :=
  docJson { d with hooks := (mergeEvents link d false).1 }

/-- The installer has nothing to write. -/
def SettledIn (link : String) (j : Json) : Prop :=
  ∀ event ∈ codexHookEvents, Settled link ((entriesOf j event).map readEntry)

theorem install_document {link : String} (own : OwnLink link) {j : Json} {d : CodexHooksDocument}
    (reads : readCodexHooksDocument j = (d, false)) (read : ReadAs j d) :
    (SettledIn link j ∧ installCodexAt link (.json j) = .json j) ∨
      (¬SettledIn link j ∧ installCodexAt link (.json j) = .json (installed link d)) := by
  have quiet : (mergeEvents link d false).2 = false ↔ SettledIn link j := by
    rw [mergeEvents_unchanged_iff own]
    simp only [read.eventEntries, true_and, SettledIn]
  have file : readFile (.json j) = (d, false) := reads
  rcases installCodexAt_cases link (.json j) with ⟨changed, written⟩ | ⟨changed, kept⟩
  · rw [file] at changed written
    refine .inr ⟨fun settled => ?_, written⟩
    rw [quiet.mpr settled] at changed
    cases changed
  · rw [file] at changed
    exact .inl ⟨quiet.mp changed, kept⟩

theorem foreign_wantEntry {link : String} (own : OwnLink link) : foreign (entryJson (wantEntry link)) = false := by
  have wants := wantEntry_own own
  rw [isAttermCodexEntry, wantEntry, Option.getD_some, List.any_cons, List.any_nil, Bool.or_false] at wants
  rw [foreign, touched, handlersOf_entryJson, wantEntry, Option.getD_some, List.map_cons, List.map_nil,
    List.any_cons, List.any_cons, ownHandler_handlerJson, wants]
  rfl

theorem foreign_of_untouched {e : Json} (user : touched e = false) : foreign e = true := by
  rw [foreign, user]
  rfl

theorem foreign_installed {link : String} (own : OwnLink link) {j : Json} {d : CodexHooksDocument}
    (read : ReadAs j d) (event : String) :
    (entriesOf (installed link d) event).filter foreign =
      ((entriesOf j event).filter fun e =>
        if event ∈ codexHookEvents then !touched e else foreign e).map rewritten := by
  rw [installed, entriesOf_docJson, eventEntries, mergeEvents_hooks]
  by_cases watched : event ∈ codexHookEvents
  · have kept : ∀ e ∈ ((entriesOf j event).map readEntry).filter (fun e => !isAttermCodexEntry e),
        (foreign ∘ entryJson) e = true := by
      intro e inside
      obtain ⟨listed, user⟩ := List.mem_filter.mp inside
      obtain ⟨old, _, rfl⟩ := List.mem_map.mp listed
      rw [isAttermCodexEntry_readEntry, Bool.not_eq_true'] at user
      exact (foreign_rewritten old).trans (foreign_of_untouched user)
    simp only [if_pos watched]
    rw [Option.join_some, Option.getD_some, mergeEntries, read.eventEntries, List.map_append,
      List.filter_append, List.map_cons, List.map_nil,
      List.filter_cons_of_neg (by rw [foreign_wantEntry own]; decide), List.filter_nil, List.append_nil,
      List.filter_map, List.filter_eq_self.mpr kept, List.filter_map, List.map_map]
    simp only [Function.comp_def, isAttermCodexEntry_readEntry]
    rfl
  · simp only [if_neg watched]
    rw [← eventEntries, read.eventEntries, List.map_map, List.filter_map]
    congr 1
    refine List.filter_congr fun e _ => ?_
    exact foreign_rewritten e

theorem forall₂_filter_map_iff {α β : Type*} {R : α → β → Prop} {write : α → β} {keep all : α → Bool}
    (l : List α) (fewer : ∀ a, keep a = true → all a = true) :
    List.Forall₂ R (l.filter all) ((l.filter keep).map write) ↔
      ∀ a ∈ l, all a = true → keep a = true ∧ R a (write a) := by
  have nested : (l.filter all).filter keep = l.filter keep := by
    rw [List.filter_filter]
    refine List.filter_congr fun a _ => ?_
    cases kept : keep a with
    | false => rfl
    | true => rw [fewer a kept]; rfl
  constructor
  · intro related
    have lengths := related.length_eq
    rw [List.length_map, ← nested] at lengths
    have none := List.filter_sublist.eq_of_length lengths.symm
    rw [← nested, none, List.forall₂_map_right_iff, List.forall₂_same] at related
    intro a inside listed
    have member := List.mem_filter.mpr ⟨inside, listed⟩
    exact ⟨(List.mem_filter.mp (none.symm ▸ member)).2, related a member⟩
  · intro each
    have none : (l.filter all).filter keep = l.filter all := List.filter_eq_self.mpr fun a inside =>
      (each a (List.mem_filter.mp inside).1 (List.mem_filter.mp inside).2).1
    rw [← nested, none, List.forall₂_map_right_iff, List.forall₂_same]
    intro a inside
    obtain ⟨listed, counts⟩ := List.mem_filter.mp inside
    exact (each a listed counts).2

/-- **The installer loses nothing exactly if what is the user's is bare.** -/
theorem keepsDocument_installed_iff {link : String} (own : OwnLink link) {j : Json} (document : Document j)
    {d : CodexHooksDocument} (read : ReadAs j d) : KeepsDocument j (installed link d) ↔ Bare j := by
  have entries : (∀ event, List.Forall₂ KeepsEntry ((entriesOf j event).filter foreign)
      ((entriesOf (installed link d) event).filter foreign)) ↔
      ∀ event, ∀ e ∈ entriesOf j event, foreign e = true →
        (if event ∈ codexHookEvents then !touched e else foreign e) = true ∧ KeepsEntry e (rewritten e) := by
    refine forall_congr' fun event => ?_
    rw [foreign_installed own read, forall₂_filter_map_iff]
    intro e kept
    by_cases watched : event ∈ codexHookEvents
    · rw [if_pos watched, Bool.not_eq_true'] at kept
      exact foreign_of_untouched kept
    · rwa [if_neg watched] at kept
  rw [KeepsDocument, entries, installed, members_kept_iff read]
  constructor
  · rintro ⟨description, each⟩
    refine ⟨description, fun event e inside user => ?_, fun event e inside user => ?_,
      fun event watched e inside user => ?_⟩
    · exact ((keepsEntry_rewritten_iff (document.each event e inside)).mp (each event e inside user).2).1
    · exact ((keepsEntry_rewritten_iff (document.each event e inside)).mp (each event e inside user).2).2
    · have apart := (each event e inside user).1
      rwa [if_pos watched, Bool.not_eq_true'] at apart
  · rintro ⟨description, fields, handlers, apart⟩
    refine ⟨description, fun event e inside user => ⟨?_, ?_⟩⟩
    · by_cases watched : event ∈ codexHookEvents
      · rw [if_pos watched, apart event watched e inside user]
        rfl
      · rwa [if_neg watched]
    · exact (keepsEntry_rewritten_iff (document.each event e inside)).mpr
        ⟨fields event e inside user, handlers event e inside user⟩

/-! ### The uninstaller behind it -/

theorem stripEvent_of_foreign {entries : List CodexHookEntry}
    (user : ∀ e ∈ entries, isAttermCodexEntry e = false) :
    stripEvent (some entries) = if entries = [] then none else some (some entries) := by
  have kept : entries.filter (fun e => !isAttermCodexEntry e) = entries :=
    List.filter_eq_self.mpr fun e inside => by rw [user e inside]; rfl
  rw [stripEvent, Option.getD_some, kept]

theorem stripEvent_settled {link : String} (own : OwnLink link) {entries : List CodexHookEntry}
    (user : ∀ e ∈ entries, isAttermCodexEntry e = false) :
    stripEvent (some (mergeEntries link entries)) = if entries = [] then none else some (some entries) := by
  have kept : entries.filter (fun e => !isAttermCodexEntry e) = entries :=
    List.filter_eq_self.mpr fun e inside => by rw [user e inside]; rfl
  rw [mergeEntries, kept, stripEvent, Option.getD_some, filter_foreign_of_settled own user]

theorem getElem?_stripEvents (hooks : ExtTreeMap String (Option (List CodexHookEntry))) (event : String) :
    (stripEvents hooks)[event]? = hooks[event]?.bind stripEvent := by
  rw [stripEvents, ExtTreeMap.getElem?_filterMap']

theorem stripEvents_merged {link : String} (own : OwnLink link) {j : Json} (none : NoOwn j)
    {d : CodexHooksDocument} (read : ReadAs j d) : stripEvents (mergeEvents link d false).1 = d.hooks := by
  refine ExtTreeMap.ext_getElem? fun event => ?_
  have user : ∀ e ∈ (entriesOf j event).map readEntry, isAttermCodexEntry e = false := by
    intro e inside
    obtain ⟨old, listed, rfl⟩ := List.mem_map.mp inside
    exact (isAttermCodexEntry_readEntry old).trans (none event old listed)
  rw [getElem?_stripEvents, mergeEvents_hooks, read.hooks]
  by_cases watched : event ∈ codexHookEvents
  · rw [if_pos watched, Option.bind_some, read.eventEntries, stripEvent_settled own user]
    simp only [List.map_eq_nil_iff]
  · rw [if_neg watched]
    by_cases empty : entriesOf j event = []
    · rw [if_pos empty, Option.bind_none]
    · rw [if_neg empty, Option.bind_some, stripEvent_of_foreign user, if_neg]
      rwa [List.map_eq_nil_iff]

theorem uninstall_installed {link : String} (own : OwnLink link) {j : Json} (none : NoOwn j)
    {d : CodexHooksDocument} (split : d.Split) (read : ReadAs j d) :
    uninstallCodexAt (.json (installed link d)) = .json (docJson d) := by
  have back : readCodexHooksDocument (installed link d) =
      ({ d with hooks := (mergeEvents link d false).1 }, false) := read_docJson _ split
  have changed : ((mergeEvents link d false).1.toList.any fun event =>
      (event.2.getD []).any isAttermCodexEntry) = true := by
    rw [List.any_eq_true]
    refine ⟨("Stop", some (mergeEntries link (eventEntries d.hooks "Stop"))), ?_, ?_⟩
    · rw [ExtTreeMap.mem_toList_iff_getElem?_eq_some, mergeEvents_hooks, if_pos (by decide)]
    · rw [Option.getD_some, mergeEntries, List.any_append, List.any_cons, wantEntry_own own, Bool.true_or,
        Bool.or_true]
  rw [uninstallCodexAt, back]
  simp only [changed, if_true, stripEvents_merged own none read]

/-- **A file that is written without the app has the same content exactly if it is bare and complete.** -/
theorem sameDocument_iff {j : Json} (document : Document j) (none : NoOwn j) {d : CodexHooksDocument}
    (read : ReadAs j d) : SameDocument j (docJson d) ↔ Bare j ∧ Complete j := by
  have whole : SameDocument j (docJson d) ↔ DescriptionKept j ∧
      ∀ event, ∀ e ∈ entriesOf j event, SameEntry e (rewritten e) := by
    rw [SameDocument, members_same_iff read d.hooks]
    refine and_congr_right fun _ => ?_
    have entries : ∀ event, entriesOf (docJson d) event = (entriesOf j event).map rewritten := by
      intro event
      rw [entriesOf_docJson, read.eventEntries, List.map_map]
      rfl
    constructor
    · rintro ⟨hooks, _, each⟩ event
      have same := (each event).2
      rwa [entries, List.forall₂_map_right_iff, List.forall₂_same] at same
    · intro each
      obtain ⟨hooks, held, _, lists⟩ := lookup_hooks document
      refine ⟨_, (member?_docJson d "hooks").trans ((getElem?_docMembers d "hooks").trans (if_pos rfl)),
        fun event => ⟨?_, ?_⟩⟩
      · have written : (List.lookup event (d.hooks.toList.map fun entry => (entry.1, entriesJson entry.2))) =
            d.hooks[event]?.map entriesJson := member?_mapJson entriesJson d.hooks event
        rw [written, read.hooks, held, Option.bind_some, Json.member?, lists]
        split <;> rfl
      · rw [entries, List.forall₂_map_right_iff, List.forall₂_same]
        exact each event
  rw [whole]
  constructor
  · rintro ⟨description, each⟩
    have plain := fun event e inside =>
      (sameEntry_rewritten_iff (document.each event e inside)).mp (each event e inside)
    exact ⟨⟨description, fun event e inside _ => (plain event e inside).1,
      fun event e inside _ h listed _ => ((plain event e inside).2 h listed).1,
      fun event _ e inside _ => none event e inside⟩,
      fun event e inside h listed => ((plain event e inside).2 h listed).2⟩
  · rintro ⟨⟨description, fields, handlers, _⟩, complete⟩
    refine ⟨description, fun event e inside => (sameEntry_rewritten_iff (document.each event e inside)).mpr
      ⟨fields event e inside (foreign_of_untouched (none event e inside)), fun h listed => ⟨?_, ?_⟩⟩⟩
    · refine handlers event e inside (foreign_of_untouched (none event e inside)) h listed ?_
      have user := none event e inside
      rw [touched, List.any_eq_false] at user
      exact Bool.not_eq_true _ ▸ user h listed
    · exact complete event e inside h listed

theorem not_settledIn {link : String} (own : OwnLink link) {j : Json} (none : NoOwn j) :
    ¬SettledIn link j := by
  intro settled
  obtain ⟨before, entries, _⟩ := settled "Stop" (by decide)
  have last : wantEntry link ∈ (entriesOf j "Stop").map readEntry := by
    rw [entries]
    exact List.mem_append_right _ List.mem_cons_self
  obtain ⟨e, inside, same⟩ := List.mem_map.mp last
  have user := none "Stop" e inside
  rw [← isAttermCodexEntry_readEntry, same, wantEntry_own own] at user
  cases user

theorem keepsDocument_self (j : Json) (document : Document j) : KeepsDocument j j := by
  refine ⟨fun _ _ _ held => held, fun event => List.forall₂_same.mpr fun e inside => ?_⟩
  obtain ⟨handlers, held⟩ := (document.each event e (List.mem_filter.mp inside).1).handlers
  refine ⟨fun _ _ _ held => held, handlers, held, ?_⟩
  rw [handlersOf, held]
  exact List.forall₂_same.mpr fun _ _ _ _ held => held

theorem bare_of_preserved {link : String} (own : OwnLink link) {j : Json} (document : Document j)
    (preserved : Preserved link j) : (SettledIn link j ∨ Bare j) ∧ (NoOwn j → Complete j) := by
  obtain ⟨d, reads, read⟩ := read_document document
  have split : d.Split := by
    have file := readFile_split (.json j)
    rwa [readFile, reads] at file
  obtain ⟨_, ⟨kept, written, keeps⟩, undone⟩ := preserved
  rcases install_document own reads read with ⟨settled, _⟩ | ⟨busy, goes⟩
  · exact ⟨.inl settled, fun none => absurd settled (not_settledIn own none)⟩
  · rw [goes, HooksFile.json.injEq] at written
    subst written
    refine ⟨.inr ((keepsDocument_installed_iff own document read).mp keeps), fun none => ?_⟩
    obtain ⟨last, taken, same⟩ := undone none
    rw [goes, uninstall_installed own none split read, HooksFile.json.injEq] at taken
    subst taken
    exact ((sameDocument_iff document none read).mp same).2

/-- **The installer and the uninstaller preserve a hooks file exactly if there is nothing to write, or what
is the user's has no field that the app does not read**; and a file that is to come back as it was has the
type and the command of every handler. -/
theorem preserved_iff {link : String} (own : OwnLink link) {j : Json} (document : Document j) :
    Preserved link j ↔ (SettledIn link j ∨ Bare j) ∧ (NoOwn j → Complete j) := by
  refine ⟨bare_of_preserved own document, ?_⟩
  rintro ⟨either, complete⟩
  obtain ⟨d, reads, read⟩ := read_document document
  have split : d.Split := by
    have file := readFile_split (.json j)
    rwa [readFile, reads] at file
  refine ⟨installCodexAt_twice own _, ?_, fun none => ?_⟩
  · rcases install_document own reads read with ⟨_, stays⟩ | ⟨busy, goes⟩
    · exact ⟨j, stays, keepsDocument_self j document⟩
    · exact ⟨_, goes, (keepsDocument_installed_iff own document read).mpr (either.resolve_left busy)⟩
  · have busy := not_settledIn own none
    rcases install_document own reads read with ⟨settled, _⟩ | ⟨_, goes⟩
    · exact absurd settled busy
    · refine ⟨docJson d, ?_, (sameDocument_iff document none read).mpr
        ⟨either.resolve_left busy, complete none⟩⟩
      rw [goes, uninstall_installed own none split read]

/-! ### A file with one handler -/

/-- A handler that runs a command of the user's, with further fields. -/
def userHandler (further : List (String × Json)) : Json :=
  .obj (("type", .str "command") :: ("command", .str "/usr/bin/true") :: further)

def stopEntry (h : Json) : Json := .obj [("hooks", .arr [h])]

def stopFile (h : Json) : Json := .obj [("hooks", .obj [("Stop", .arr [stopEntry h])])]

theorem entriesOf_stopFile (h : Json) (event : String) :
    entriesOf (stopFile h) event = if event = "Stop" then [stopEntry h] else [] := by
  by_cases stop : event = "Stop"
  · rw [if_pos stop, stop]
    rfl
  · rw [if_neg stop, entriesOf]
    simp [stopFile, Json.member?, List.lookup_cons, beq_false_of_ne stop]

theorem mem_stopFile {h e : Json} {event : String} (inside : e ∈ entriesOf (stopFile h) event) :
    e = stopEntry h := by
  rw [entriesOf_stopFile] at inside
  split at inside
  · exact List.mem_singleton.mp inside
  · cases inside

theorem mem_stopEntry {h found : Json} (inside : found ∈ handlersOf (stopEntry h)) : found = h :=
  List.mem_singleton.mp inside

theorem stopFile_document {h : Json} (handler : HandlerDocument h) : Document (stopFile h) := by
  refine ⟨⟨_, rfl, List.nodup_singleton _⟩, ⟨_, rfl, List.nodup_singleton _, ?_⟩, fun event e inside => ?_⟩
  · intro member inside
    cases List.mem_singleton.mp inside
    exact ⟨_, rfl, List.cons_ne_nil _ _⟩
  · rw [mem_stopFile inside]
    refine ⟨⟨_, rfl, List.nodup_singleton _, ?_⟩, ?_, ⟨_, rfl⟩, fun found listed => ?_⟩
    · intro member inside
      cases List.mem_singleton.mp inside
      change ∀ name ∈ ["matcher", "hooks"], foldName name = foldName "hooks" → "hooks" = name
      decide
    · intro value held
      cases held
    · rw [mem_stopEntry listed]
      exact handler

theorem userHandler_document {further : List (String × Json)}
    (distinct : (["type", "command"] ++ further.map Prod.fst).Nodup)
    (spelled : ∀ name ∈ further.map Prod.fst,
      foldName name ≠ foldName "type" ∧ foldName name ≠ foldName "command") :
    HandlerDocument (userHandler further) := by
  refine ⟨⟨_, rfl, distinct, ?_⟩, ?_, ?_⟩
  · intro member inside name known same
    rcases List.mem_cons.mp inside with rfl | inside
    · revert name
      change ∀ name ∈ ["type", "command"], foldName name = foldName "type" → "type" = name
      decide
    · rcases List.mem_cons.mp inside with rfl | inside
      · revert name
        change ∀ name ∈ ["type", "command"], foldName name = foldName "command" → "command" = name
        decide
      · obtain ⟨noType, noCommand⟩ := spelled _ (List.mem_map_of_mem inside)
        rcases List.mem_cons.mp known with rfl | known
        · exact absurd same.symm noType
        · cases List.mem_singleton.mp known
          exact absurd same.symm noCommand
  · rintro value ⟨⟩
    exact ⟨_, rfl⟩
  · rintro value ⟨⟩
    exact ⟨_, rfl⟩

theorem preserved_plain : Preserved "/home/me/.atterm/bin/atterm-hook" (stopFile (userHandler [])) := by
  have plain : PlainHandler (userHandler []) := by
    intro name held
    by_contra neither
    rw [not_or] at neither
    exact held (by simp [userHandler, Json.member?, List.lookup_cons, beq_false_of_ne neither.1,
      beq_false_of_ne neither.2])
  refine (preserved_iff (by unfold OwnLink; decide) (stopFile_document (userHandler_document (by decide)
    (by simp)))).mpr ⟨.inr ⟨?_, ?_, ?_, ?_⟩, fun _ => ?_⟩
  · intro value held
    cases held
  · intro event e inside _
    rw [mem_stopFile inside]
    refine ⟨fun name held => .inr ?_, ?_⟩
    · by_contra other
      exact held (by simp [stopEntry, Json.member?, List.lookup_cons, beq_false_of_ne other])
    · intro empty
      cases empty
  · intro event e inside _ h listed _
    rw [mem_stopFile inside] at listed
    rw [mem_stopEntry listed]
    exact plain
  · intro event _ e inside _
    rw [mem_stopFile inside]
    decide
  · intro event e inside h listed
    rw [mem_stopFile inside] at listed
    rw [mem_stopEntry listed]
    exact ⟨Option.some_ne_none _, Option.some_ne_none _⟩

theorem timeout_lost : ¬∀ (link : String) (j : Json), OwnLink link → Document j → Preserved link j := by
  intro always
  have own : OwnLink "/home/me/.atterm/bin/atterm-hook" := by
    unfold OwnLink
    decide
  have document := stopFile_document
    (@userHandler_document [("timeout", .num ['3', '0'])] (by decide) (by decide))
  rcases (bare_of_preserved own document (always _ _ own document)).1 with settled | bare
  · obtain ⟨before, entries, _⟩ := settled "SessionStart" (by decide)
    rw [entriesOf_stopFile, if_neg (by decide)] at entries
    exact absurd entries (by simp)
  · have plain := bare.handlers "Stop" _ List.mem_cons_self (by decide) _ List.mem_cons_self (by decide)
    have either := plain "timeout" (Option.some_ne_none _)
    revert either
    decide

end Atterm.HookInstall
