/-
**The bindings of terminal shortcuts.**

An action has a default binding, which an override replaces or, where it is empty, disables. The overrides
are resolved to a map from actions to bindings, and for the key handler to a table from bindings to actions.
Both are plain objects, which inherit the properties of `Object.prototype`: what these are called is found
`in` the registry of actions, and a string is not assigned to `__proto__`.

* `resolvedBindings`, `buildRoutingTable` — the map and the table;
* `Sound` — a slot of the table holds the binding that its action has so far;
* `routing_iff_harmless` — this is so exactly if no key and no binding meets an inherited property.
-/

import Atterm.Foundation.TreeMapFold

namespace Atterm.Desktop

open Atterm.Foundation
open Std (ExtTreeMap)

/-- The own properties of an object whose values are strings. -/
abbrev JsObject := ExtTreeMap String String compare

/-- The properties of `Object.prototype`. -/
def inheritedNames : List String :=
  ["constructor", "__defineGetter__", "__defineSetter__", "hasOwnProperty", "__lookupGetter__",
    "__lookupSetter__", "isPrototypeOf", "propertyIsEnumerable", "toString", "valueOf", "__proto__",
    "toLocaleString"]

/-- `o[key] = value`; the setter of `__proto__` ignores a string. -/
def assign (o : JsObject) (key value : String) : JsObject :=
  if key = "__proto__" then o else o.insert key value

structure ShortcutAction where
  id : String
  defaultBinding : String
deriving DecidableEq, Repr

/-- `ACTIONS` -/
def actions : List ShortcutAction :=
  [⟨"pane.split-vertical-new", "Mod+KeyN"⟩, ⟨"pane.split-horizontal-new", "Mod+Shift+KeyN"⟩,
    ⟨"pane.close", "Mod+KeyW"⟩, ⟨"pane.focus-left", "Mod+Alt+ArrowLeft"⟩,
    ⟨"pane.focus-right", "Mod+Alt+ArrowRight"⟩, ⟨"pane.focus-up", "Mod+Alt+ArrowUp"⟩,
    ⟨"pane.focus-down", "Mod+Alt+ArrowDown"⟩, ⟨"terminal.search", "Mod+KeyF"⟩,
    ⟨"terminal.prompt-history", "Mod+Shift+KeyH"⟩, ⟨"tab.new", "Mod+KeyT"⟩,
    ⟨"tab.prev", "Mod+Shift+BracketLeft"⟩, ⟨"tab.next", "Mod+Shift+BracketRight"⟩,
    ⟨"toggleTaskSidebar", "Mod+KeyB"⟩, ⟨"sidebar.focus-search", "Mod+Shift+KeyF"⟩,
    ⟨"application.toggle-maximize", "Mod+Enter"⟩, ⟨"terminal.font-size-increase", "Mod+Shift+Equal"⟩,
    ⟨"terminal.font-size-decrease", "Mod+Minus"⟩]

def defaults : List (String × String) := actions.map fun a => (a.id, a.defaultBinding)

/-- `DEFAULT_BINDINGS` -/
def defaultTable : JsObject := insertAll ∅ (actions.map fun a => (a.defaultBinding, a.id))

def IsAction (id : String) : Prop := id ∈ actions.map ShortcutAction.id

instance (id : String) : Decidable (IsAction id) := inferInstanceAs (Decidable (_ ∈ _))

/-- `id in ACTION_BY_ID` -/
def InActionById (id : String) : Prop := IsAction id ∨ id ∈ inheritedNames

instance (id : String) : Decidable (InActionById id) := inferInstanceAs (Decidable (_ ∨ _))

/-- A record of overrides, as `Object.entries` lists it. -/
structure Overrides where
  entries : List (String × String)
  distinct : (entries.map Prod.fst).Nodup

def resolveEntry (out : JsObject) (entry : String × String) : JsObject :=
  if InActionById entry.1 then assign out entry.1 entry.2 else out

def resolvedBindings (overrides : Overrides) : JsObject :=
  overrides.entries.foldl resolveEntry (defaults.foldl (fun out a => assign out a.1 a.2) ∅)

/-- The first slot of an action is removed. There is one at most, so that the order of the keys does not
matter. -/
def freeSlot (table : JsObject) (id : String) : JsObject :=
  match table.toList.find? fun slot => slot.2 == id with
  | some slot => table.erase slot.1
  | none => table

def routeEntry (table : JsObject) (entry : String × String) : JsObject :=
  if InActionById entry.1 then
    if entry.2 = "" then freeSlot table entry.1
    else assign (freeSlot table entry.1) entry.2 entry.1
  else table

def buildRoutingTable (overrides : Overrides) : JsObject :=
  overrides.entries.foldl routeEntry defaultTable

/-! ### What the table is for -/

variable (o : Overrides)

/-- No two actions have the same binding, unless it is empty. -/
def NoClash : Prop :=
  ∀ one other binding, IsAction one → IsAction other → binding ≠ "" →
    (resolvedBindings o)[one]? = some binding → (resolvedBindings o)[other]? = some binding → one = other

/-- **The table is the inverse of the resolved bindings.** -/
def Inverts : Prop :=
  ∀ binding id, (buildRoutingTable o)[binding]? = some id ↔
    IsAction id ∧ binding ≠ "" ∧ (resolvedBindings o)[id]? = some binding

def Overrides.known : Overrides where
  entries := o.entries.filter fun entry => IsAction entry.1
  distinct := o.distinct.sublist ((List.filter_sublist).map Prod.fst)

/-- **Keys that are not registered have no effect.** -/
def Ignores : Prop :=
  resolvedBindings o = resolvedBindings o.known ∧ buildRoutingTable o = buildRoutingTable o.known

/-- No action is bound to `__proto__`, and no key is inherited. The key `__proto__` itself does no harm where
its binding is not assigned, or is given to an action later on. -/
def Harmless : Prop :=
  ∀ before id binding after, o.entries = before ++ (id, binding) :: after →
    (IsAction id → binding ≠ "__proto__") ∧
    (¬IsAction id → id ∈ inheritedNames → id = "__proto__" ∧
      (binding = "" ∨ binding = "__proto__" ∨ ∃ action, IsAction action ∧ (action, binding) ∈ after))

/-! ### The registry -/

theorem nodup_actions : (defaults.map Prod.fst).Nodup ∧ (defaults.map Prod.snd).Nodup := by
  decide

theorem isAction_iff (id : String) : IsAction id ↔ id ∈ defaults.map Prod.fst := by
  rw [IsAction, defaults, List.map_map]
  rfl

theorem not_isAction_proto : ¬IsAction "__proto__" := by
  decide

theorem default_assigned : ∀ a ∈ defaults, a.1 ≠ "__proto__" ∧ a.2 ≠ "__proto__" ∧ a.2 ≠ "" := by
  decide

theorem getElem?_assign (table : JsObject) (key value other : String) :
    (assign table key value)[other]? =
      if key = other ∧ key ≠ "__proto__" then some value else table[other]? := by
  rw [assign]
  split_ifs with proto same same
  · exact absurd proto same.2
  · rfl
  · rw [ExtTreeMap.getElem?_insert, if_pos (by simp [same.1])]
  · rw [ExtTreeMap.getElem?_insert, if_neg]
    rw [Std.LawfulEqCmp.compare_eq_iff_eq]
    exact fun equal => same ⟨equal, proto⟩

/-! ### The resolved bindings -/

/-- What an action is bound to after some of the overrides. -/
def Holds (done : List (String × String)) (id binding : String) : Prop :=
  (id, binding) ∈ done ∨ (id ∉ done.map Prod.fst ∧ (id, binding) ∈ defaults)

theorem Holds.unique {done : List (String × String)} (distinct : (done.map Prod.fst).Nodup)
    {id one other : String} (first : Holds done id one) (second : Holds done id other) : one = other := by
  rcases first with listed | ⟨absent, default⟩ <;> rcases second with listed' | ⟨absent', default'⟩
  · exact congrArg Prod.snd (List.inj_on_of_nodup_map distinct listed listed' rfl)
  · exact absurd (List.mem_map_of_mem listed) absent'
  · exact absurd (List.mem_map_of_mem listed') absent
  · exact congrArg Prod.snd (List.inj_on_of_nodup_map nodup_actions.1 default default' rfl)

theorem Holds.concat {done : List (String × String)} {id binding : String} (holds : Holds done id binding)
    {entry : String × String} (other : id ≠ entry.1) : Holds (done ++ [entry]) id binding := by
  rcases holds with listed | ⟨absent, default⟩
  · exact .inl (List.mem_append_left _ listed)
  · refine .inr ⟨?_, default⟩
    rw [List.map_append, List.mem_append, not_or]
    exact ⟨absent, fun last => other (List.mem_singleton.mp last)⟩

/-- The entries that are assigned to the resolved bindings. -/
def assigned (entries : List (String × String)) : List (String × String) :=
  entries.filter fun entry => InActionById entry.1 ∧ entry.1 ≠ "__proto__"

theorem mem_assigned {entries : List (String × String)} {entry : String × String} :
    entry ∈ assigned entries ↔ entry ∈ entries ∧ InActionById entry.1 ∧ entry.1 ≠ "__proto__" := by
  rw [assigned, List.mem_filter, decide_eq_true_iff]

theorem foldl_assign {entries : List (String × String)} (plain : ∀ e ∈ entries, e.1 ≠ "__proto__")
    (out : JsObject) : entries.foldl (fun out a => assign out a.1 a.2) out = insertAll out entries := by
  induction entries generalizing out with
  | nil => rfl
  | cons entry entries ih =>
    rw [List.foldl_cons, ih fun e inside => plain e (List.mem_cons_of_mem _ inside), assign,
      if_neg (plain entry List.mem_cons_self)]
    rfl

theorem foldl_resolveEntry (entries : List (String × String)) (out : JsObject) :
    entries.foldl resolveEntry out = insertAll out (assigned entries) := by
  induction entries generalizing out with
  | nil => rfl
  | cons entry entries ih =>
    rw [List.foldl_cons, ih, assigned, assigned, List.filter_cons, resolveEntry, assign]
    split_ifs with known proto effective effective effective
    · exact absurd proto (of_decide_eq_true effective).2
    · rfl
    · rfl
    · exact absurd (decide_eq_true (⟨known, proto⟩ : InActionById entry.1 ∧ entry.1 ≠ "__proto__")) effective
    · exact absurd (of_decide_eq_true effective).1 known
    · rfl

theorem resolvedBindings_eq :
    resolvedBindings o = insertAll (insertAll ∅ defaults) (assigned o.entries) := by
  rw [resolvedBindings, foldl_resolveEntry, foldl_assign fun a listed => (default_assigned a listed).1]

theorem nodup_assigned : ((assigned o.entries).map Prod.fst).Nodup :=
  o.distinct.sublist (List.filter_sublist.map Prod.fst)

theorem resolved_of_mem {id binding : String} (listed : (id, binding) ∈ o.entries)
    (known : InActionById id) (plain : id ≠ "__proto__") :
    (resolvedBindings o)[id]? = some binding := by
  rw [resolvedBindings_eq]
  exact getElem?_insertAll_of_mem _ (nodup_assigned o) (mem_assigned.mpr ⟨listed, known, plain⟩)

theorem mem_of_resolved {id binding : String} (resolved : (resolvedBindings o)[id]? = some binding) :
    (id, binding) ∈ assigned o.entries ∨ (id, binding) ∈ defaults := by
  rw [resolvedBindings_eq] at resolved
  rcases mem_of_getElem?_insertAll _ resolved with listed | resolved
  · exact .inl listed
  · rcases mem_of_getElem?_insertAll _ resolved with default | empty
    · exact .inr default
    · rw [ExtTreeMap.getElem?_empty] at empty
      cases empty

/-- **What a registered action is bound to.** -/
theorem resolved_iff {id binding : String} (action : IsAction id) :
    (resolvedBindings o)[id]? = some binding ↔ Holds o.entries id binding := by
  have plain : id ≠ "__proto__" := fun same => not_isAction_proto (same ▸ action)
  have overridden : ∀ value, (id, value) ∈ o.entries → (resolvedBindings o)[id]? = some value :=
    fun value listed => resolved_of_mem o listed (.inl action) plain
  constructor
  · intro resolved
    rcases mem_of_resolved o resolved with listed | default
    · exact .inl (mem_assigned.mp listed).1
    · by_cases key : id ∈ o.entries.map Prod.fst
      · obtain ⟨⟨_, value⟩, listed, rfl⟩ := List.mem_map.mp key
        have same := (overridden value listed).symm.trans resolved
        exact .inl (Option.some.inj same ▸ listed)
      · exact .inr ⟨key, default⟩
  · rintro (listed | ⟨absent, default⟩)
    · exact overridden binding listed
    · rw [resolvedBindings_eq, getElem?_insertAll_of_notMem]
      · exact getElem?_insertAll_of_mem _ nodup_actions.1 default
      · exact fun inside => absent ((List.filter_sublist.map Prod.fst).subset inside)

/-! ### The slots of the table -/

/-- **A slot holds the binding that its action has so far.** -/
def Sound (done : List (String × String)) (table : JsObject) : Prop :=
  ∀ binding id, table[binding]? = some id →
    InActionById id ∧ binding ≠ "" ∧ binding ≠ "__proto__" ∧ Holds done id binding

theorem Sound.start : Sound [] defaultTable := by
  intro binding id slot
  rcases mem_of_getElem?_insertAll _ slot with listed | empty
  · obtain ⟨a, inside, same⟩ := List.mem_map.mp listed
    obtain ⟨rfl, rfl⟩ := Prod.mk.inj same
    have default : (a.id, a.defaultBinding) ∈ defaults := List.mem_map_of_mem inside
    obtain ⟨_, proto, filled⟩ := default_assigned _ default
    exact ⟨.inl (List.mem_map_of_mem inside), filled, proto, .inr ⟨List.not_mem_nil, default⟩⟩
  · rw [ExtTreeMap.getElem?_empty] at empty
    cases empty

/-- **Freeing the slot of an action** frees all that it has. -/
theorem freeSlot_iff {done : List (String × String)} {table : JsObject} (sound : Sound done table)
    (distinct : (done.map Prod.fst).Nodup) (id binding x : String) :
    (freeSlot table id)[binding]? = some x ↔ table[binding]? = some x ∧ x ≠ id := by
  rw [freeSlot]
  cases found : table.toList.find? fun slot => slot.2 == id with
  | none =>
    dsimp only
    refine ⟨fun slot => ⟨slot, fun same => ?_⟩, And.left⟩
    have listed := ExtTreeMap.mem_toList_iff_getElem?_eq_some.mpr slot
    exact absurd (beq_iff_eq.mpr same) (List.find?_eq_none.mp found _ listed)
  | some slot =>
    have owner : slot.2 = id := by
      have hit := List.find?_some found
      exact beq_iff_eq.mp hit
    have held : table[slot.1]? = some slot.2 :=
      ExtTreeMap.mem_toList_iff_getElem?_eq_some.mp (List.mem_of_find?_eq_some found)
    dsimp only
    rw [ExtTreeMap.getElem?_erase]
    split_ifs with same
    · rw [Std.LawfulEqCmp.compare_eq_iff_eq] at same
      subst same
      refine iff_of_false nofun fun ⟨slot', other⟩ => ?_
      exact other ((Option.some.inj (held.symm.trans slot')).symm.trans owner)
    · refine ⟨fun kept => ⟨kept, fun rival => same ?_⟩, And.left⟩
      have first := (sound _ _ held).2.2.2
      rw [owner, ← rival] at first
      exact Std.LawfulEqCmp.compare_eq_iff_eq.mpr (first.unique distinct (sound _ _ kept).2.2.2)

def Assigns (binding : String) : Prop := binding ≠ "" ∧ binding ≠ "__proto__"

/-- **What an entry does to the table.** -/
theorem routeEntry_iff {done : List (String × String)} {table : JsObject} (sound : Sound done table)
    (distinct : (done.map Prod.fst).Nodup) {id value : String} (known : InActionById id)
    (binding x : String) : (routeEntry table (id, value))[binding]? = some x ↔
      (Assigns value ∧ binding = value ∧ x = id) ∨
        (¬(Assigns value ∧ binding = value) ∧ table[binding]? = some x ∧ x ≠ id) := by
  have free := freeSlot_iff sound distinct id binding x
  rw [routeEntry, if_pos known]
  dsimp only
  by_cases empty : value = ""
  · rw [if_pos empty, free]
    simp [Assigns, empty]
  · rw [if_neg empty, getElem?_assign]
    by_cases here : value = binding ∧ value ≠ "__proto__"
    · rw [if_pos here]
      simp only [Assigns, ne_eq, empty, not_false_eq_true, here.2, here.1.symm, and_self, true_and,
        not_true_eq_false, false_and, or_false, Option.some.injEq]
      exact eq_comm
    · rw [if_neg here, free]
      have elsewhere : ¬(Assigns value ∧ binding = value) := fun both => here ⟨both.2.symm, both.1.2⟩
      constructor
      · exact fun kept => .inr ⟨elsewhere, kept⟩
      · rintro (⟨assigns, same, -⟩ | kept)
        · exact absurd ⟨assigns, same⟩ elsewhere
        · exact kept.2

theorem routeEntry_of_unknown {entry : String × String} (unknown : ¬InActionById entry.1) (table : JsObject) :
    routeEntry table entry = table := if_neg unknown

/-- **Every entry keeps the table sound.** -/
theorem Sound.route {done : List (String × String)} {table : JsObject} (sound : Sound done table)
    {entry : String × String} (distinct : ((done ++ [entry]).map Prod.fst).Nodup) :
    Sound (done ++ [entry]) (routeEntry table entry) := by
  have before : (done.map Prod.fst).Nodup := by
    rw [List.map_append] at distinct
    exact distinct.of_append_left
  intro binding id slot
  by_cases known : InActionById entry.1
  · rcases (routeEntry_iff sound before known binding id).mp slot with ⟨assigns, rfl, rfl⟩ | ⟨_, old, other⟩
    · exact ⟨known, assigns.1, assigns.2, .inl (List.mem_append_right _ (List.mem_singleton_self _))⟩
    · obtain ⟨registered, filled, plain, holds⟩ := sound binding id old
      exact ⟨registered, filled, plain, holds.concat other⟩
  · rw [routeEntry_of_unknown known] at slot
    obtain ⟨registered, filled, plain, holds⟩ := sound binding id slot
    exact ⟨registered, filled, plain, holds.concat fun same => known (same ▸ registered)⟩

theorem Sound.run {done rest : List (String × String)} {table : JsObject} (sound : Sound done table)
    (distinct : ((done ++ rest).map Prod.fst).Nodup) :
    Sound (done ++ rest) (rest.foldl routeEntry table) := by
  induction rest generalizing done table with
  | nil => rwa [List.append_nil]
  | cons entry rest ih =>
    rw [List.append_cons] at distinct ⊢
    refine ih (sound.route ?_) distinct
    rw [List.map_append] at distinct
    exact distinct.of_append_left

/-- **A slot stays** while neither its action nor its binding is overridden. -/
theorem Sound.kept {done rest : List (String × String)} {table : JsObject} (sound : Sound done table)
    (distinct : ((done ++ rest).map Prod.fst).Nodup) {binding id : String}
    (slot : table[binding]? = some id)
    (away : ∀ entry ∈ rest, entry.1 ≠ id ∧ (InActionById entry.1 → entry.2 ≠ binding)) :
    (rest.foldl routeEntry table)[binding]? = some id := by
  induction rest generalizing done table with
  | nil => exact slot
  | cons entry rest ih =>
    rw [List.append_cons] at distinct
    have first : ((done ++ [entry]).map Prod.fst).Nodup := by
      rw [List.map_append] at distinct
      exact distinct.of_append_left
    obtain ⟨key, value⟩ := away entry List.mem_cons_self
    refine ih (sound.route first) distinct ?_ fun e inside => away e (List.mem_cons_of_mem _ inside)
    by_cases known : InActionById entry.1
    · refine (routeEntry_iff sound ?_ known binding id).mpr (.inr ⟨?_, slot, key.symm⟩)
      · rw [List.map_append] at first
        exact first.of_append_left
      · exact fun both => value known both.2.symm
    · rwa [routeEntry_of_unknown known]

theorem sound_buildRoutingTable : Sound o.entries (buildRoutingTable o) :=
  Sound.start.run o.distinct

/-! ### The table and the map -/

theorem routed_split {before after : List (String × String)} {entry : String × String}
    (split : o.entries = before ++ entry :: after) :
    ∃ table, Sound (before ++ [entry]) table ∧ after.foldl routeEntry table = buildRoutingTable o ∧
      (InActionById entry.1 → Assigns entry.2 → table[entry.2]? = some entry.1) := by
  have distinct := o.distinct
  rw [split, List.append_cons] at distinct
  have first : ((before ++ [entry]).map Prod.fst).Nodup := by
    rw [List.map_append] at distinct
    exact distinct.of_append_left
  have start : (before.map Prod.fst).Nodup := by
    rw [List.map_append] at first
    exact first.of_append_left
  have sound : Sound before (before.foldl routeEntry defaultTable) := Sound.start.run start
  refine ⟨routeEntry (before.foldl routeEntry defaultTable) entry, sound.route first, ?_, ?_⟩
  · rw [buildRoutingTable, split, List.foldl_append, List.foldl_cons]
  · exact fun known assigns => (routeEntry_iff sound start known _ _).mpr (.inl ⟨assigns, rfl, rfl⟩)

theorem key_ne_of_split {before after : List (String × String)} {entry other : String × String}
    (split : o.entries = before ++ entry :: after) (behind : other ∈ after) : other.1 ≠ entry.1 := by
  have distinct := o.distinct
  rw [split, List.map_append, List.map_cons] at distinct
  have apart := (List.nodup_cons.mp distinct.of_append_right).1
  exact fun same => apart (same ▸ List.mem_map_of_mem behind)

variable {o}

/-- **Who else is given the binding of an action** is given it before the action is. -/
theorem Harmless.rival (harmless : Harmless o) (clear : NoClash o) {id binding : String}
    (action : IsAction id) (filled : binding ≠ "") (plain : binding ≠ "__proto__")
    (resolved : (resolvedBindings o)[id]? = some binding) {before after : List (String × String)}
    {rival : String} (split : o.entries = before ++ (rival, binding) :: after)
    (known : InActionById rival) (other : rival ≠ id) : (id, binding) ∈ after := by
  have listed : ∀ e ∈ after, e ∈ o.entries := fun e inside =>
    split ▸ List.mem_append_right _ (List.mem_cons_of_mem _ inside)
  have same : ∀ one, IsAction one → (one, binding) ∈ o.entries → one = id := fun one registered inside =>
    clear one id binding registered action filled ((resolved_iff o registered).mpr (.inl inside)) resolved
  by_cases registered : IsAction rival
  · refine absurd (same rival registered ?_) other
    rw [split]
    exact List.mem_append_right _ List.mem_cons_self
  · obtain ⟨-, empty | proto | ⟨one, registered', behind⟩⟩ :=
      (harmless _ _ _ _ split).2 registered (known.resolve_left registered)
    · exact absurd empty filled
    · exact absurd proto plain
    · exact same one registered' (listed _ behind) ▸ behind

/-- **What an action is bound to has its slot.** -/
theorem Harmless.slot (harmless : Harmless o) (clear : NoClash o) {id binding : String}
    (action : IsAction id) (filled : binding ≠ "") (resolved : (resolvedBindings o)[id]? = some binding) :
    (buildRoutingTable o)[binding]? = some id := by
  rcases (resolved_iff o action).mp resolved with listed | ⟨absent, default⟩
  · obtain ⟨before, after, split⟩ := List.append_of_mem listed
    have plain := (harmless _ _ _ _ split).1 action
    obtain ⟨table, sound, run, routed⟩ := routed_split o split
    have distinct := o.distinct
    rw [split, List.append_cons] at distinct
    rw [← run]
    refine sound.kept distinct (routed (.inl action) ⟨filled, plain⟩) fun entry behind => ?_
    have other := key_ne_of_split o split behind
    refine ⟨other, fun known same => ?_⟩
    obtain ⟨rival, value⟩ := entry
    obtain rfl : value = binding := same
    obtain ⟨mid, rest, split'⟩ := List.append_of_mem behind
    have later : o.entries = (before ++ (id, value) :: mid) ++ (rival, value) :: rest := by
      rw [split, split', List.append_assoc, List.cons_append]
    -- the rival comes behind the action, and the action behind the rival
    have again := harmless.rival clear action filled plain resolved later known other
    have behind' : (id, value) ∈ after :=
      split' ▸ List.mem_append_right _ (List.mem_cons_of_mem _ again)
    exact key_ne_of_split o split behind' rfl
  · have start : defaultTable[binding]? = some id := by
      obtain ⟨a, inside, same⟩ := List.mem_map.mp default
      obtain ⟨rfl, rfl⟩ := Prod.mk.inj same
      refine getElem?_insertAll_of_mem _ ?_ (List.mem_map_of_mem inside)
      rw [List.map_map]
      exact nodup_actions.2
    have away : ∀ entry ∈ o.entries, entry.1 ≠ id ∧ (InActionById entry.1 → entry.2 ≠ binding) := by
      refine fun entry listed => ⟨?_, fun known same => ?_⟩
      · exact fun same => absent (same ▸ List.mem_map_of_mem listed)
      · obtain ⟨rival, value⟩ := entry
        obtain rfl : value = binding := same
        obtain ⟨before, after, split⟩ := List.append_of_mem listed
        have behind := harmless.rival clear action filled (default_assigned _ default).2.1 resolved split
          known fun same => absent (same ▸ List.mem_map_of_mem listed)
        have inside : (id, value) ∈ o.entries :=
          split ▸ List.mem_append_right _ (List.mem_cons_of_mem _ behind)
        exact absent (List.mem_map_of_mem inside)
    exact Sound.start.kept o.distinct start away

/-- **Without harm the table is the inverse of the map.** -/
theorem Harmless.inverts (harmless : Harmless o) (clear : NoClash o) : Inverts o := by
  intro binding id
  constructor
  · intro slot
    obtain ⟨known, filled, plain, holds⟩ := sound_buildRoutingTable o binding id slot
    by_cases action : IsAction id
    · exact ⟨action, filled, (resolved_iff o action).mpr holds⟩
    · -- an inherited key, whose binding was given to an action later on
      rcases holds with listed | ⟨_, default⟩
      · obtain ⟨before, after, split⟩ := List.append_of_mem listed
        obtain ⟨-, empty | proto | ⟨one, registered, behind⟩⟩ :=
          (harmless _ _ _ _ split).2 action (known.resolve_left action)
        · exact absurd empty filled
        · exact absurd proto plain
        · have inside : (one, binding) ∈ o.entries :=
            split ▸ List.mem_append_right _ (List.mem_cons_of_mem _ behind)
          have owned := harmless.slot clear registered filled
            ((resolved_iff o registered).mpr (.inl inside))
          rw [slot, Option.some.injEq] at owned
          exact absurd (owned ▸ registered) action
      · exact absurd ((isAction_iff id).mpr (List.mem_map_of_mem default)) action
  · rintro ⟨action, filled, resolved⟩
    exact harmless.slot clear action filled resolved

theorem mem_known {entry : String × String} :
    entry ∈ o.known.entries ↔ entry ∈ o.entries ∧ IsAction entry.1 := by
  rw [Overrides.known, List.mem_filter, decide_eq_true_iff]

theorem resolved_known {id : String} (action : IsAction id) :
    (resolvedBindings o.known)[id]? = (resolvedBindings o)[id]? := by
  refine Option.ext fun binding => ?_
  rw [resolved_iff _ action, resolved_iff _ action]
  have keys : id ∈ o.known.entries.map Prod.fst ↔ id ∈ o.entries.map Prod.fst := by
    simp only [List.mem_map, mem_known]
    constructor
    · rintro ⟨e, ⟨listed, _⟩, same⟩
      exact ⟨e, listed, same⟩
    · rintro ⟨e, listed, same⟩
      exact ⟨e, ⟨listed, same ▸ action⟩, same⟩
  rw [Holds, Holds, mem_known, keys]
  simp [action]

theorem resolved_known_eq_none {id : String} (unknown : ¬IsAction id) :
    (resolvedBindings o.known)[id]? = none := by
  rw [Option.eq_none_iff_forall_ne_some]
  intro binding resolved
  rcases mem_of_resolved _ resolved with listed | default
  · exact unknown (mem_known.mp (mem_assigned.mp listed).1).2
  · exact unknown ((isAction_iff id).mpr (List.mem_map_of_mem default))

theorem Harmless.known (harmless : Harmless o) : Harmless o.known := by
  intro before id binding after split
  have listed : (id, binding) ∈ o.known.entries :=
    split ▸ List.mem_append_right _ List.mem_cons_self
  obtain ⟨inside, action⟩ := mem_known.mp listed
  obtain ⟨before', after', split'⟩ := List.append_of_mem inside
  exact ⟨(harmless _ _ _ _ split').1, fun unknown => absurd action unknown⟩

theorem NoClash.known (clear : NoClash o) : NoClash o.known := by
  intro one other binding first second filled bound bound'
  rw [resolved_known first] at bound
  rw [resolved_known second] at bound'
  exact clear one other binding first second filled bound bound'

theorem Harmless.ignores (harmless : Harmless o) (clear : NoClash o) : Ignores o := by
  constructor
  · refine ExtTreeMap.ext_getElem? fun id => ?_
    by_cases action : IsAction id
    · exact (resolved_known action).symm
    · rw [resolved_known_eq_none action, Option.eq_none_iff_forall_ne_some]
      intro binding resolved
      rcases mem_of_resolved _ resolved with listed | default
      · obtain ⟨inside, known, plain⟩ := mem_assigned.mp listed
        obtain ⟨before, after, split⟩ := List.append_of_mem inside
        exact plain ((harmless _ _ _ _ split).2 action (known.resolve_left action)).1
      · exact action ((isAction_iff id).mpr (List.mem_map_of_mem default))
  · refine ExtTreeMap.ext_getElem? fun binding => Option.ext fun id => ?_
    rw [harmless.inverts clear, harmless.known.inverts clear.known]
    refine and_congr_right fun action => ?_
    rw [resolved_known action]

/-- **What goes wrong otherwise.** -/
theorem harmless_of (inverts : Inverts o) (ignores : Ignores o) : Harmless o := by
  intro before id binding after split
  have listed : (id, binding) ∈ o.entries := split ▸ List.mem_append_right _ List.mem_cons_self
  have inherited : ∀ key value, (key, value) ∈ o.entries → InActionById key → key ≠ "__proto__" →
      IsAction key := by
    intro key value inside known plain
    by_contra unknown
    have resolved := resolved_of_mem o inside known plain
    rw [ignores.1, resolved_known_eq_none unknown] at resolved
    cases resolved
  constructor
  · rintro action rfl
    have slot := (inverts "__proto__" id).mpr
      ⟨action, by decide, (resolved_iff o action).mpr (.inl listed)⟩
    exact (sound_buildRoutingTable o _ _ slot).2.2.1 rfl
  · intro unknown inheritedName
    have proto : id = "__proto__" := by
      by_contra plain
      exact unknown (inherited id binding listed (.inr inheritedName) plain)
    refine ⟨proto, ?_⟩
    by_contra harm
    push Not at harm
    obtain ⟨filled, plain, none⟩ := harm
    obtain ⟨table, sound, run, routed⟩ := routed_split o split
    have distinct := o.distinct
    rw [split, List.append_cons] at distinct
    have slot : (buildRoutingTable o)[binding]? = some id := by
      rw [← run]
      refine sound.kept distinct (routed (.inr inheritedName) ⟨filled, plain⟩) fun entry behind => ?_
      have other := key_ne_of_split o split behind
      refine ⟨other, fun known same => ?_⟩
      have inside : entry ∈ o.entries :=
        split ▸ List.mem_append_right _ (List.mem_cons_of_mem _ behind)
      refine none entry.1 (inherited entry.1 entry.2 inside known (proto ▸ other)) ?_
      rw [← same]
      exact behind
    rw [ignores.2] at slot
    obtain ⟨-, -, -, kept | ⟨_, default⟩⟩ := sound_buildRoutingTable o.known binding id slot
    · exact unknown (mem_known.mp kept).2
    · exact unknown ((isAction_iff id).mpr (List.mem_map_of_mem default))

/-- **The table is the inverse of the map, and unknown keys have no effect, exactly if the overrides meet no
inherited property.** -/
theorem routing_iff_harmless (o : Overrides) (clear : NoClash o) :
    (Inverts o ∧ Ignores o) ↔ Harmless o :=
  ⟨fun ⟨inverts, ignores⟩ => harmless_of inverts ignores,
    fun harmless => ⟨harmless.inverts clear, harmless.ignores clear⟩⟩

theorem noClash_of_distinct {o : Overrides} (distinct : (o.entries.map Prod.snd).Nodup)
    (free : ∀ entry ∈ o.entries, ∀ default ∈ defaults, default.2 = entry.2 →
      default.1 ∈ o.entries.map Prod.fst) : NoClash o := by
  intro one other binding first second _ bound bound'
  rcases (resolved_iff o first).mp bound with listed | ⟨absent, default⟩ <;>
    rcases (resolved_iff o second).mp bound' with listed' | ⟨absent', default'⟩
  · exact congrArg Prod.fst (List.inj_on_of_nodup_map distinct listed listed' rfl)
  · exact absurd (free _ listed _ default' rfl) absent'
  · exact absurd (free _ listed' _ default rfl) absent
  · exact congrArg Prod.fst (List.inj_on_of_nodup_map nodup_actions.2 default default' rfl)

/-- Two actions exchange their default bindings. -/
def exchange : Overrides := ⟨[("pane.close", "Mod+KeyT"), ("tab.new", "Mod+KeyW")], by decide⟩

theorem routing_iff_harmless_exchange : (Inverts exchange ∧ Ignores exchange) ↔ Harmless exchange :=
  routing_iff_harmless exchange (noClash_of_distinct (by decide) (by decide))

/-- An override of `toString`. -/
def inheritedOverride : Overrides := ⟨[("toString", "Mod+KeyQ")], by decide⟩

theorem toString_is_resolved : NoClash inheritedOverride ∧ ¬Ignores inheritedOverride := by
  refine ⟨noClash_of_distinct (by decide) (by decide), fun ignores => ?_⟩
  have listed : ("toString", "Mod+KeyQ") ∈ inheritedOverride.entries := List.mem_cons_self
  have resolved := resolved_of_mem inheritedOverride listed (by decide) (by decide)
  rw [ignores.1, resolved_known_eq_none (by decide)] at resolved
  cases resolved

end Atterm.Desktop
