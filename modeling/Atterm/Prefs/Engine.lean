/-
**The preference sync engine.**

A device keeps a value and a stamp for each synced key. A pull adopts what the relay holds newer, a
push sends the keys that were edited and takes the relay's answer for those nobody edited meanwhile.
The adapter in between may refuse a value.

* `pull`, `markDirty`, `pushItems`, `reconcile` — the engine's code;
* `storing` — an adapter that stores what it is given;
* `pull_storing`, `reconcile_storing` — on it every key goes its own way.
-/

import Mathlib

namespace Atterm.Prefs

structure Meta where
  updatedAtLocal : ℤ := 0
  dirty : Bool := false
deriving DecidableEq, Repr

structure ServerItem (V : Type) where
  key : String
  value : V
  updatedAt : ℤ
deriving DecidableEq, Repr

structure ClientItem (V : Type) where
  key : String
  value : V
  clientUpdatedAt : ℤ
deriving DecidableEq, Repr

/-- What the engine reads and writes. A write reports an error, and leaves a state either way. -/
structure Adapter (σ V : Type) where
  readValue : σ → String → Option V
  writeValue : σ → String → V → Option String × σ
  readMeta : σ → String → Meta
  writeMeta : σ → String → Meta → Option String × σ
  keys : List String

def syncedKeys : List String :=
  ["locale_preference", "traffic_time_zone", "quick_templates", "notifications_enabled",
    "ai_notifications_only", "command_notify_threshold_seconds", "shell_integration_enabled",
    "pinned_session_ids", "ssh_hosts_encrypted", "terminal_theme", "terminal_font_head",
    "terminal_font_size", "terminal_line_height", "terminal_cursor_style", "terminal_cursor_blink",
    "terminal_scrollback", "shortcut_bindings", "profiles_encrypted"]

def sortedKeys : List String := syncedKeys.insertionSort (· ≤ ·)

structure PullResult where
  adopted : List String := []
  conflict : List String := []
deriving DecidableEq, Repr

section Engine

variable {σ V : Type} (A : Adapter σ V)

/-- One row of a pull. A key that cannot be written is passed over. -/
def pullItem (progress : PullResult × σ) (item : ServerItem V) : PullResult × σ :=
  let (result, state) := progress
  if item.key ∉ syncedKeys then (result, state)
  else
    let held := A.readMeta state item.key
    if item.updatedAt > held.updatedAtLocal then
      if held.dirty then ({ result with conflict := result.conflict ++ [item.key] }, state)
      else
        match A.writeValue state item.key item.value with
        | (some _, state) => (result, state)
        | (none, state) =>
          match A.writeMeta state item.key ⟨item.updatedAt, false⟩ with
          | (some _, state) => (result, state)
          | (none, state) => ({ result with adopted := result.adopted ++ [item.key] }, state)
    else (result, state)

/-- `Pull`, from the relay's answer on. -/
def pull (state : σ) (items : List (ServerItem V)) : PullResult × σ :=
  let (result, state) := items.foldl (pullItem A) ({}, state)
  (⟨result.adopted.mergeSort fun left right => left ≤ right,
    result.conflict.mergeSort fun left right => left ≤ right⟩, state)

/-- The stamp of an edit: the clock, or one more than the last stamp. -/
def nextStamp (prev : Meta) (updatedAtLocalMs : ℤ) : ℤ :=
  if updatedAtLocalMs ≤ prev.updatedAtLocal then prev.updatedAtLocal + 1 else updatedAtLocalMs

def markDirty (state : σ) (key : String) (updatedAtLocalMs : ℤ) : σ :=
  (A.writeMeta state key ⟨nextStamp (A.readMeta state key) updatedAtLocalMs, true⟩).2

def pushItem (state : σ) (key : String) : Option (ClientItem V) :=
  if key ∉ syncedKeys then none
  else if ¬ (A.readMeta state key).dirty then none
  else (A.readValue state key).map fun value => ⟨key, value, (A.readMeta state key).updatedAtLocal⟩

def pushItems (state : σ) : List (ClientItem V) := A.keys.filterMap (pushItem A state)

/-- The stamp a key was sent with, zero for a key that was not sent. -/
def sentAt (items : List (ClientItem V)) (key : String) : ℤ :=
  ((items.find? fun item => item.key = key).map ClientItem.clientUpdatedAt).getD 0

/-- `Push`, from the relay's answer on. The first row that cannot be written stops it. -/
def reconcile (items : List (ClientItem V)) : σ → List (ServerItem V) → Option String × σ
  | state, [] => (none, state)
  | state, item :: rest =>
    if (A.readMeta state item.key).updatedAtLocal ≠ sentAt items item.key then
      reconcile items state rest
    else
      match A.writeValue state item.key item.value with
      | (some error, state) => (some error, state)
      | (none, state) =>
        match A.writeMeta state item.key ⟨item.updatedAt, false⟩ with
        | (some error, state) => (some error, state)
        | (none, state) => reconcile items state rest

end Engine

section Sent

variable {σ V : Type} (A : Adapter σ V)

theorem pushItem_eq_some {state : σ} {key : String} {item : ClientItem V}
    (sent : pushItem A state key = some item) : item.key = key ∧ key ∈ syncedKeys ∧
      (A.readMeta state key).dirty ∧ A.readValue state key = some item.value ∧
      item.clientUpdatedAt = (A.readMeta state key).updatedAtLocal := by
  unfold pushItem at sent
  split_ifs at sent with synced clean
  obtain ⟨value, held, rfl⟩ := Option.map_eq_some_iff.mp sent
  exact ⟨rfl, synced, clean, held, rfl⟩

theorem of_mem_pushItems {state : σ} {item : ClientItem V} (sent : item ∈ pushItems A state) :
    item.key ∈ syncedKeys ∧ (A.readMeta state item.key).dirty ∧
      A.readValue state item.key = some item.value ∧
      item.clientUpdatedAt = (A.readMeta state item.key).updatedAtLocal := by
  obtain ⟨key, _, found⟩ := List.mem_filterMap.mp sent
  obtain ⟨rfl, rest⟩ := pushItem_eq_some A found
  exact rest

theorem nodup_map_key_pushItems (distinct : A.keys.Nodup) (state : σ) :
    ((pushItems A state).map ClientItem.key).Nodup := by
  have subset : ∀ keys : List String,
      ((keys.filterMap (pushItem A state)).map ClientItem.key).Sublist keys := by
    intro keys
    induction keys with
    | nil => exact List.Sublist.slnil
    | cons key rest ih =>
      rw [List.filterMap_cons]
      cases sent : pushItem A state key with
      | none => exact ih.cons key
      | some item =>
        rw [List.map_cons, (pushItem_eq_some A sent).1]
        exact ih.cons_cons key
  exact (subset A.keys).nodup distinct

/-! ### Invariants of a pull and of an answer -/

/-- Writing a row keeps an invariant, be the value refused or stored and stamped. -/
def WriteKeeps (invariant : σ → Prop) (row : ServerItem V) : Prop :=
  ∀ state, invariant state →
    (∀ error after, A.writeValue state row.key row.value = (some error, after) → invariant after) ∧
    ∀ after, A.writeValue state row.key row.value = (none, after) →
      invariant (A.writeMeta after row.key ⟨row.updatedAt, false⟩).2

variable {A}

theorem WriteKeeps.pullItem {invariant : σ → Prop} {row : ServerItem V}
    (keeps : WriteKeeps A invariant row) (result : PullResult) {state : σ} (holds : invariant state) :
    invariant (pullItem A (result, state) row).2 := by
  obtain ⟨refused, stored⟩ := keeps state holds
  unfold Prefs.pullItem
  by_cases synced : row.key ∉ syncedKeys
  · simp only [if_pos synced]
    exact holds
  · by_cases newer : row.updatedAt > (A.readMeta state row.key).updatedAtLocal
    · by_cases dirty : (A.readMeta state row.key).dirty
      · simp only [if_neg synced, if_pos newer, if_pos dirty]
        exact holds
      · simp only [if_neg synced, if_pos newer, if_neg dirty]
        rcases written : A.writeValue state row.key row.value with ⟨_ | error, after⟩
        · have next := stored after written
          dsimp only
          rcases stamped : A.writeMeta after row.key ⟨row.updatedAt, false⟩ with ⟨_ | error, last⟩
          · rw [stamped] at next
            exact next
          · rw [stamped] at next
            exact next
        · exact refused error after written
    · simp only [if_neg synced, if_neg newer]
      exact holds

/-- **What the writes of its rows keep, a pull keeps.** -/
theorem pull_keeps {invariant : σ → Prop} {rows : List (ServerItem V)}
    (keeps : ∀ row ∈ rows, WriteKeeps A invariant row) {state : σ} (holds : invariant state) :
    invariant (pull A state rows).2 := by
  have folded : ∀ (progress : PullResult × σ), invariant progress.2 →
      invariant (rows.foldl (pullItem A) progress).2 := by
    induction rows with
    | nil => exact fun _ holds => holds
    | cons row rest ih =>
      intro progress holds
      rw [List.forall_mem_cons] at keeps
      exact ih keeps.2 _ (keeps.1.pullItem progress.1 holds)
  exact folded ({}, state) holds

/-- **What the writes of its rows keep, an answer keeps.** -/
theorem reconcile_keeps {invariant : σ → Prop} (items : List (ClientItem V))
    {rows : List (ServerItem V)} (keeps : ∀ row ∈ rows, WriteKeeps A invariant row) {state : σ}
    (holds : invariant state) : invariant (reconcile A items state rows).2 := by
  induction rows generalizing state with
  | nil => exact holds
  | cons row rest ih =>
    rw [List.forall_mem_cons] at keeps
    obtain ⟨refused, stored⟩ := keeps.1 state holds
    rw [reconcile]
    by_cases touched : (A.readMeta state row.key).updatedAtLocal ≠ sentAt items row.key
    · rw [if_pos touched]
      exact ih keeps.2 holds
    · rw [if_neg touched]
      rcases written : A.writeValue state row.key row.value with ⟨_ | error, after⟩
      · have next := stored after written
        dsimp only
        rcases stamped : A.writeMeta after row.key ⟨row.updatedAt, false⟩ with ⟨_ | error, last⟩
        · rw [stamped] at next
          exact ih keeps.2 next
        · rw [stamped] at next
          exact next
      · exact refused error after written

end Sent

/-! ### An adapter that stores -/

/-- The values and stamps of a device. -/
@[ext]
structure Store (V : Type) where
  value : String → Option V
  entry : String → Meta

/-- A device that has never synced. -/
def Store.fresh {V : Type} (value : String → Option V) : Store V := ⟨value, fun _ => {}⟩

def storing (V : Type) (keys : List String) : Adapter (Store V) V where
  readValue := fun store key => store.value key
  writeValue := fun store key value =>
    (none, { store with value := Function.update store.value key (some value) })
  readMeta := fun store key => store.entry key
  writeMeta := fun store key stamp =>
    (none, { store with entry := Function.update store.entry key stamp })
  keys := keys

section Storing

variable {V : Type} {keys : List String}

def Store.adopt (store : Store V) (item : ServerItem V) : Store V where
  value := Function.update store.value item.key (some item.value)
  entry := Function.update store.entry item.key ⟨item.updatedAt, false⟩

/-- An edit of a key: the value is stored and the key is stamped. -/
def Store.edit (store : Store V) (key : String) (value : V) (clock : ℤ) : Store V where
  value := Function.update store.value key (some value)
  entry := Function.update store.entry key ⟨nextStamp (store.entry key) clock, true⟩

theorem lt_nextStamp (prev : Meta) (clock : ℤ) : prev.updatedAtLocal < nextStamp prev clock := by
  unfold nextStamp
  split_ifs with behind
  · omega
  · omega

theorem adopt_of_ne (store : Store V) {item : ServerItem V} {key : String} (other : key ≠ item.key) :
    (store.adopt item).value key = store.value key ∧ (store.adopt item).entry key = store.entry key :=
  ⟨Function.update_of_ne other _ _, Function.update_of_ne other _ _⟩

theorem adopt_self (store : Store V) (item : ServerItem V) :
    (store.adopt item).value item.key = some item.value ∧
      (store.adopt item).entry item.key = ⟨item.updatedAt, false⟩ :=
  ⟨Function.update_self _ _ _, Function.update_self _ _ _⟩

/-- A row of a pull is adopted if it is newer and the key was not edited. -/
def Store.Newer (store : Store V) (item : ServerItem V) : Prop :=
  item.key ∈ syncedKeys ∧ (store.entry item.key).updatedAtLocal < item.updatedAt ∧
    (store.entry item.key).dirty = false

instance (store : Store V) (item : ServerItem V) : Decidable (store.Newer item) :=
  inferInstanceAs (Decidable (_ ∧ _))

variable (keys) in
theorem pullItem_storing (result : PullResult) (store : Store V) (item : ServerItem V) :
    (pullItem (storing V keys) (result, store) item).2 =
      if store.Newer item then store.adopt item else store := by
  unfold pullItem
  by_cases synced : item.key ∈ syncedKeys
  · by_cases newer : (store.entry item.key).updatedAtLocal < item.updatedAt
    · by_cases dirty : (store.entry item.key).dirty
      · have kept : ¬ store.Newer item := fun takes => absurd dirty (Bool.eq_false_iff.mp takes.2.2)
        simp [storing, synced, newer, dirty, kept]
      · have taken : store.Newer item := ⟨synced, newer, Bool.eq_false_iff.mpr dirty⟩
        simp [storing, synced, newer, dirty, taken, Store.adopt]
    · have kept : ¬ store.Newer item := fun takes => newer takes.2.1
      simp [storing, synced, newer, kept]
  · have kept : ¬ store.Newer item := fun takes => synced takes.1
    simp [synced, kept]

def Store.pull (store : Store V) (items : List (ServerItem V)) : Store V :=
  items.foldl (fun store item => if store.Newer item then store.adopt item else store) store

theorem pull_storing (store : Store V) (items : List (ServerItem V)) :
    (Prefs.pull (storing V keys) store items).2 = store.pull items := by
  have folded : ∀ (result : PullResult) (store : Store V),
      (items.foldl (pullItem (storing V keys)) (result, store)).2 = store.pull items := by
    unfold Store.pull
    induction items with
    | nil => exact fun _ _ => rfl
    | cons item rest ih =>
      intro result store
      rw [List.foldl_cons, List.foldl_cons, ← pullItem_storing keys result store item]
      exact ih _ _
  exact folded {} store

def Store.reconcile (store : Store V) (items : List (ClientItem V)) (rows : List (ServerItem V)) :
    Store V :=
  rows.foldl (fun store row => if (store.entry row.key).updatedAtLocal = sentAt items row.key then
    store.adopt row else store) store

theorem reconcile_storing (store : Store V) (items : List (ClientItem V))
    (rows : List (ServerItem V)) :
    Prefs.reconcile (storing V keys) items store rows = (none, store.reconcile items rows) := by
  induction rows generalizing store with
  | nil => rfl
  | cons row rest ih =>
    rw [Prefs.reconcile, Store.reconcile, List.foldl_cons]
    by_cases untouched : (store.entry row.key).updatedAtLocal = sentAt items row.key
    · rw [if_pos untouched]
      exact (if_neg (not_not.mpr untouched)).trans (ih _)
    · rw [if_neg untouched]
      exact (if_pos untouched).trans (ih store)

/-! ### Key by key -/

theorem foldl_adopt_of_notMem (takes : Store V → ServerItem V → Prop)
    [∀ store item, Decidable (takes store item)] {rows : List (ServerItem V)} {key : String}
    (absent : key ∉ rows.map ServerItem.key) (store : Store V) :
    (rows.foldl (fun store row => if takes store row then store.adopt row else store) store).value key
        = store.value key ∧
      (rows.foldl (fun store row => if takes store row then store.adopt row else store) store).entry key
        = store.entry key := by
  induction rows generalizing store with
  | nil => exact ⟨rfl, rfl⟩
  | cons row rest ih =>
    rw [List.map_cons, List.mem_cons, not_or] at absent
    obtain ⟨value, stamp⟩ := ih absent.2 (if takes store row then store.adopt row else store)
    rw [List.foldl_cons, value, stamp]
    by_cases taken : takes store row
    · rw [if_pos taken]
      exact adopt_of_ne store absent.1
    · rw [if_neg taken]
      exact ⟨rfl, rfl⟩

theorem foldl_adopt_of_mem (takes : Store V → ServerItem V → Prop)
    [∀ store item, Decidable (takes store item)]
    (own : ∀ first second row, first.value row.key = second.value row.key →
      first.entry row.key = second.entry row.key → (takes first row ↔ takes second row))
    {rows : List (ServerItem V)} (distinct : (rows.map ServerItem.key).Nodup) {row : ServerItem V}
    (member : row ∈ rows) (store : Store V) :
    (rows.foldl (fun store row => if takes store row then store.adopt row else store) store).value
        row.key = (if takes store row then some row.value else store.value row.key) ∧
      (rows.foldl (fun store row => if takes store row then store.adopt row else store) store).entry
        row.key = if takes store row then ⟨row.updatedAt, false⟩ else store.entry row.key := by
  induction rows generalizing store with
  | nil => cases member
  | cons first rest ih =>
    rw [List.map_cons, List.nodup_cons] at distinct
    rw [List.foldl_cons]
    rcases List.mem_cons.mp member with rfl | later
    · obtain ⟨value, stamp⟩ := foldl_adopt_of_notMem takes distinct.1
        (if takes store row then store.adopt row else store)
      rw [value, stamp]
      by_cases taken : takes store row
      · simp only [if_pos taken]
        exact adopt_self store row
      · simp only [if_neg taken, and_self]
    · have other : row.key ≠ first.key := by
        intro same
        exact distinct.1 (same ▸ List.mem_map_of_mem later)
      obtain ⟨value, stamp⟩ := ih distinct.2 later
        (if takes store first then store.adopt first else store)
      have same : (if takes store first then store.adopt first else store).value row.key
            = store.value row.key ∧
          (if takes store first then store.adopt first else store).entry row.key
            = store.entry row.key := by
        by_cases taken : takes store first
        · rw [if_pos taken]
          exact adopt_of_ne store other
        · rw [if_neg taken]
          exact ⟨rfl, rfl⟩
      simp only [value, stamp, same.1, same.2, own _ store row same.1 same.2, and_self]

theorem reconcile_of_notMem {rows : List (ServerItem V)} {key : String}
    (absent : key ∉ rows.map ServerItem.key) (store : Store V) (items : List (ClientItem V)) :
    (store.reconcile items rows).value key = store.value key ∧
      (store.reconcile items rows).entry key = store.entry key :=
  foldl_adopt_of_notMem _ absent store

theorem reconcile_of_mem {rows : List (ServerItem V)} (distinct : (rows.map ServerItem.key).Nodup)
    {row : ServerItem V} (member : row ∈ rows) (store : Store V) (items : List (ClientItem V)) :
    (store.reconcile items rows).value row.key
        = (if (store.entry row.key).updatedAtLocal = sentAt items row.key then some row.value
          else store.value row.key) ∧
      (store.reconcile items rows).entry row.key
        = if (store.entry row.key).updatedAtLocal = sentAt items row.key then ⟨row.updatedAt, false⟩
          else store.entry row.key := by
  refine foldl_adopt_of_mem _ ?_ distinct member store
  intro first second item _ same
  rw [same]

theorem pull_of_notMem {rows : List (ServerItem V)} {key : String}
    (absent : key ∉ rows.map ServerItem.key) (store : Store V) :
    (store.pull rows).value key = store.value key ∧ (store.pull rows).entry key = store.entry key :=
  foldl_adopt_of_notMem _ absent store

theorem pull_of_mem {rows : List (ServerItem V)} (distinct : (rows.map ServerItem.key).Nodup)
    {row : ServerItem V} (member : row ∈ rows) (store : Store V) :
    (store.pull rows).value row.key
        = (if store.Newer row then some row.value else store.value row.key) ∧
      (store.pull rows).entry row.key
        = if store.Newer row then ⟨row.updatedAt, false⟩ else store.entry row.key := by
  refine foldl_adopt_of_mem _ ?_ distinct member store
  intro first second item _ same
  unfold Store.Newer
  rw [same]

theorem mem_sortedKeys {key : String} : key ∈ sortedKeys ↔ key ∈ syncedKeys := List.mem_insertionSort _

theorem nodup_sortedKeys : sortedKeys.Nodup :=
  (List.perm_insertionSort _ _).nodup_iff.mpr (by decide)

theorem mem_pushItems_iff (store : Store V) (item : ClientItem V) :
    item ∈ pushItems (storing V sortedKeys) store ↔ item.key ∈ syncedKeys ∧
      (store.entry item.key).dirty ∧ store.value item.key = some item.value ∧
      (store.entry item.key).updatedAtLocal = item.clientUpdatedAt := by
  have one : ∀ key, pushItem (storing V sortedKeys) store key = some item ↔ key = item.key ∧
      key ∈ syncedKeys ∧ (store.entry key).dirty ∧ store.value key = some item.value ∧
        (store.entry key).updatedAtLocal = item.clientUpdatedAt := by
    intro key
    unfold pushItem
    by_cases synced : key ∈ syncedKeys
    · by_cases dirty : (store.entry key).dirty
      · simp only [storing, synced, dirty, not_true_eq_false, if_false, Option.map_eq_some_iff,
          true_and]
        constructor
        · rintro ⟨value, held, rfl⟩
          exact ⟨rfl, held, rfl⟩
        · rintro ⟨rfl, held, stamp⟩
          exact ⟨item.value, held, by rw [stamp]⟩
      · simp [storing, synced, dirty]
    · simp [synced]
  unfold pushItems
  rw [List.mem_filterMap]
  constructor
  · rintro ⟨key, _, sent⟩
    obtain ⟨rfl, rest⟩ := (one key).mp sent
    exact rest
  · intro sent
    exact ⟨item.key, mem_sortedKeys.mpr sent.1, (one item.key).mpr ⟨rfl, sent⟩⟩

theorem nodup_keys_pushItems (store : Store V) :
    ((pushItems (storing V sortedKeys) store).map ClientItem.key).Nodup :=
  nodup_map_key_pushItems (storing V sortedKeys) nodup_sortedKeys store

theorem sentAt_of_mem {items : List (ClientItem V)} (distinct : (items.map ClientItem.key).Nodup)
    {item : ClientItem V} (member : item ∈ items) : sentAt items item.key = item.clientUpdatedAt := by
  unfold sentAt
  cases found : items.find? fun other => other.key = item.key with
  | none => exact absurd (decide_eq_true rfl) (List.find?_eq_none.mp found item member)
  | some other =>
    have named : other.key = item.key := by simpa using List.find?_some found
    rw [List.inj_on_of_nodup_map distinct (List.mem_of_find?_eq_some found) member named]
    rfl

theorem sentAt_of_notMem {items : List (ClientItem V)} {key : String}
    (absent : key ∉ items.map ClientItem.key) : sentAt items key = 0 := by
  have none : items.find? (fun item => item.key = key) = none := by
    rw [List.find?_eq_none]
    intro item member
    rw [decide_eq_true_eq]
    exact fun named => absent (named ▸ List.mem_map_of_mem member)
  unfold sentAt
  rw [none]
  rfl

end Storing

end Atterm.Prefs
