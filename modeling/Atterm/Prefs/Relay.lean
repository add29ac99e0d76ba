/-
**The relay's table of preferences.**

The relay holds one row for each key of a user. A write is accepted when its stamp is above that of
the row, and the row then carries the stamp or the server's clock, whichever is later. The answer to
a request lists all rows, in any order.

* `setUserPreferences`, `getUserPreferences` — the store's code;
* `upsert_rises`, `upsert_skips` — what one item does to the row of its key;
* `foldl_upsert_cases` — what a request does to the row of a key.
-/

import Atterm.Prefs.Engine
import Atterm.Foundation.Guard
import Atterm.Foundation.TreeMapFold

namespace Atterm.Prefs

open Atterm.Foundation
open Std (ExtTreeMap LawfulEqCmp)

inductive PreferenceKind where
  | string
  | bool
  | int
  | array
  | number
  | object
deriving DecidableEq, Repr

/-- The keys the relay admits, with the kind of their values. -/
def allowedPreferenceKeys : List (String × PreferenceKind) :=
  [("locale_preference", .string), ("traffic_time_zone", .string), ("quick_templates", .array),
    ("notifications_enabled", .bool), ("ai_notifications_only", .bool),
    ("command_notify_threshold_seconds", .int), ("shell_integration_enabled", .bool),
    ("pinned_session_ids", .array), ("ssh_hosts_encrypted", .string), ("terminal_theme", .string),
    ("terminal_font_head", .string), ("terminal_font_size", .int), ("terminal_line_height", .number),
    ("terminal_cursor_style", .string), ("terminal_cursor_blink", .bool),
    ("terminal_scrollback", .int), ("default_shell", .string), ("shortcut_bindings", .object),
    ("profiles_encrypted", .string)]

/-- How a JSON value is read, and the time zones that are known. -/
structure ValueRules (V : Type) where
  /-- `json.Unmarshal` into the type of a kind succeeds. -/
  unmarshals : PreferenceKind → V → Bool
  /-- The text of a JSON string. -/
  text : V → String
  /-- `time.LoadLocation` succeeds. -/
  loadsLocation : String → Bool

/-- Every value is well formed. -/
def plainRules : ValueRules ℕ := ⟨fun _ _ => true, fun _ => "UTC", fun _ => true⟩

inductive PreferenceError where
  | unknownKey (key : String)
  | invalidValue (key : String)
deriving DecidableEq, Repr

structure PreferenceRow (V : Type) where
  value : V
  updatedAt : ℤ
deriving DecidableEq, Repr

abbrev Table (V : Type) := ExtTreeMap String (PreferenceRow V)

def Walk (α : Type) : Type := {walk : List α → List α // ∀ rows, (walk rows).Perm rows}

def Walk.straight (α : Type) : Walk α := ⟨id, fun _ => .refl _⟩

section Relay

variable {V : Type} (rules : ValueRules V)

def checkItem (item : ClientItem V) : Except PreferenceError Unit :=
  match allowedPreferenceKeys.lookup item.key with
  | none => .error (.unknownKey item.key)
  | some kind =>
    if ¬ rules.unmarshals kind item.value then .error (.invalidValue item.key)
    else if item.key = "traffic_time_zone" ∧ (rules.text item.value = "" ∨
        rules.text item.value = "Local" ∨ ¬ rules.loadsLocation (rules.text item.value)) then
      .error (.invalidValue item.key)
    else .ok ()

def upsert (serverNowMs : ℤ) (table : Table V) (item : ClientItem V) : Table V :=
  let writeTs := if serverNowMs > item.clientUpdatedAt then serverNowMs else item.clientUpdatedAt
  match table[item.key]? with
  | none => table.insert item.key ⟨item.value, writeTs⟩
  | some row =>
    if item.clientUpdatedAt > row.updatedAt then table.insert item.key ⟨item.value, writeTs⟩
    else table

/-- The rows of a user, in the order the database gives them. -/
def getUserPreferences (table : Table V) (walk : Walk (ServerItem V)) : List (ServerItem V) :=
  walk.1 (table.toList.map fun entry => ⟨entry.1, entry.2.value, entry.2.updatedAt⟩)

def checkItems : List (ClientItem V) → Except PreferenceError Unit
  | [] => .ok ()
  | item :: rest => do
      checkItem rules item
      checkItems rest

def setUserPreferences (table : Table V) (serverNowMs : ℤ) (items : List (ClientItem V))
    (walk : Walk (ServerItem V)) : Except PreferenceError (Table V × List (ServerItem V)) := do
  checkItems rules items
  let table := items.foldl (upsert serverNowMs) table
  return (table, getUserPreferences table walk)

def Admitted (key : String) (value : V) : Prop :=
  ∀ clientUpdatedAt, checkItem rules ⟨key, value, clientUpdatedAt⟩ = .ok ()

theorem admitted_plain {key : String} {value : ℕ} (synced : key ∈ syncedKeys) :
    Admitted plainRules key value := by
  have known : ∀ key ∈ syncedKeys, (allowedPreferenceKeys.lookup key).isSome := by decide
  obtain ⟨kind, found⟩ := Option.isSome_iff_exists.mp (known key synced)
  intro clientUpdatedAt
  simp [checkItem, found, plainRules]

variable {rules}

theorem mem_getUserPreferences_iff (table : Table V) (walk : Walk (ServerItem V))
    (item : ServerItem V) :
    item ∈ getUserPreferences table walk ↔ table[item.key]? = some ⟨item.value, item.updatedAt⟩ := by
  unfold getUserPreferences
  rw [(walk.2 _).mem_iff, List.mem_map]
  constructor
  · rintro ⟨⟨key, row⟩, member, rfl⟩
    exact ExtTreeMap.mem_toList_iff_getElem?_eq_some.mp member
  · intro held
    exact ⟨(item.key, ⟨item.value, item.updatedAt⟩),
      ExtTreeMap.mem_toList_iff_getElem?_eq_some.mpr held, rfl⟩

theorem nodup_keys_getUserPreferences (table : Table V) (walk : Walk (ServerItem V)) :
    ((getUserPreferences table walk).map ServerItem.key).Nodup := by
  unfold getUserPreferences
  rw [((walk.2 _).map ServerItem.key).nodup_iff, List.map_map]
  exact nodup_keys_toList table

theorem setUserPreferences_ok {table after : Table V} {serverNowMs : ℤ} {items : List (ClientItem V)}
    {walk : Walk (ServerItem V)} {rows : List (ServerItem V)}
    (done : setUserPreferences rules table serverNowMs items walk = .ok (after, rows)) :
    after = items.foldl (upsert serverNowMs) table ∧ rows = getUserPreferences after walk := by
  obtain ⟨_, _, same⟩ := bind_ok done
  cases same
  exact ⟨rfl, rfl⟩

theorem checkItems_of_admitted {items : List (ClientItem V)}
    (admitted : ∀ item ∈ items, Admitted rules item.key item.value) :
    checkItems rules items = .ok () := by
  induction items with
  | nil => rfl
  | cons item rest ih =>
    rw [List.forall_mem_cons] at admitted
    exact bind_ok_iff.mpr ⟨(), admitted.1 item.clientUpdatedAt, ih admitted.2⟩

/-! ### One key -/

theorem upsert_of_ne (serverNowMs : ℤ) (table : Table V) {item : ClientItem V} {key : String}
    (other : key ≠ item.key) : (upsert serverNowMs table item)[key]? = table[key]? := by
  have apart : ∀ row, (table.insert item.key row)[key]? = table[key]? := by
    intro row
    rw [ExtTreeMap.getElem?_insert, if_neg]
    exact fun same => other (LawfulEqCmp.compare_eq_iff_eq.mp same).symm
  unfold upsert
  cases table[item.key]? with
  | none => exact apart _
  | some row =>
    by_cases newer : item.clientUpdatedAt > row.updatedAt
    · simp only [if_pos newer]
      exact apart _
    · simp only [if_neg newer]

theorem upsert_of_newer (serverNowMs : ℤ) {table : Table V} {item : ClientItem V}
    (newer : ∀ row, table[item.key]? = some row → row.updatedAt < item.clientUpdatedAt) :
    (upsert serverNowMs table item)[item.key]? = some ⟨item.value,
      if serverNowMs > item.clientUpdatedAt then serverNowMs else item.clientUpdatedAt⟩ := by
  unfold upsert
  cases held : table[item.key]? with
  | none => exact ExtTreeMap.getElem?_insert_self
  | some row =>
    simp only [if_pos (newer row held)]
    exact ExtTreeMap.getElem?_insert_self

/-- **An accepted item** raises the stamp of its row. -/
theorem upsert_rises (serverNowMs : ℤ) {table : Table V} {item : ClientItem V}
    (newer : ∀ row, table[item.key]? = some row → row.updatedAt < item.clientUpdatedAt) :
    ∃ row, (upsert serverNowMs table item)[item.key]? = some row ∧ row.value = item.value ∧
      item.clientUpdatedAt ≤ row.updatedAt := by
  refine ⟨_, upsert_of_newer serverNowMs newer, rfl, ?_⟩
  show item.clientUpdatedAt ≤ if serverNowMs > item.clientUpdatedAt then _ else _
  split_ifs with ahead
  · exact le_of_lt ahead
  · exact le_rfl

theorem upsert_skips {serverNowMs : ℤ} {table : Table V} {item : ClientItem V}
    {row : PreferenceRow V} (held : table[item.key]? = some row)
    (older : item.clientUpdatedAt ≤ row.updatedAt) : upsert serverNowMs table item = table := by
  unfold upsert
  simp only [held, if_neg (not_lt.mpr older)]

theorem upsert_congr (serverNowMs : ℤ) {first second : Table V} {item : ClientItem V}
    (same : first[item.key]? = second[item.key]?) :
    (upsert serverNowMs first item)[item.key]? = (upsert serverNowMs second item)[item.key]? := by
  unfold upsert
  cases held : second[item.key]? with
  | none =>
    rw [held] at same
    simp only [same, ExtTreeMap.getElem?_insert_self]
  | some row =>
    rw [held] at same
    by_cases newer : item.clientUpdatedAt > row.updatedAt
    · simp only [same, if_pos newer, ExtTreeMap.getElem?_insert_self]
    · simp only [same, if_neg newer, held]

theorem foldl_upsert_of_notMem {serverNowMs : ℤ} {items : List (ClientItem V)} {key : String}
    (absent : key ∉ items.map ClientItem.key) (table : Table V) :
    (items.foldl (upsert serverNowMs) table)[key]? = table[key]? := by
  induction items generalizing table with
  | nil => rfl
  | cons item rest ih =>
    rw [List.map_cons, List.mem_cons, not_or] at absent
    rw [List.foldl_cons, ih absent.2, upsert_of_ne serverNowMs table absent.1]

/-- **The row of a key in a request** is what its item alone would leave. -/
theorem foldl_upsert_of_mem {serverNowMs : ℤ} {items : List (ClientItem V)}
    (distinct : (items.map ClientItem.key).Nodup) {item : ClientItem V} (member : item ∈ items)
    (table : Table V) :
    (items.foldl (upsert serverNowMs) table)[item.key]?
      = (upsert serverNowMs table item)[item.key]? := by
  induction items generalizing table with
  | nil => cases member
  | cons first rest ih =>
    rw [List.map_cons, List.nodup_cons] at distinct
    rw [List.foldl_cons]
    rcases List.mem_cons.mp member with rfl | later
    · exact foldl_upsert_of_notMem distinct.1 _
    · have other : item.key ≠ first.key :=
        fun same => distinct.1 (same ▸ List.mem_map_of_mem later)
      rw [ih distinct.2 later]
      exact upsert_congr serverNowMs (upsert_of_ne serverNowMs table other)

/-- **What a request does to one row**: nothing, or it sets the value of its item. -/
theorem foldl_upsert_cases (serverNowMs : ℤ) {items : List (ClientItem V)}
    (distinct : (items.map ClientItem.key).Nodup) (table : Table V) (key : String) :
    (items.foldl (upsert serverNowMs) table)[key]? = table[key]? ∨
      ∃ item ∈ items, item.key = key ∧
        (∀ row, table[key]? = some row → row.updatedAt < item.clientUpdatedAt) ∧
        ∃ row, (items.foldl (upsert serverNowMs) table)[key]? = some row ∧
          row.value = item.value ∧ item.clientUpdatedAt ≤ row.updatedAt := by
  by_cases listed : key ∈ items.map ClientItem.key
  · obtain ⟨item, member, rfl⟩ := List.mem_map.mp listed
    rw [foldl_upsert_of_mem distinct member table]
    by_cases newer : ∀ row, table[item.key]? = some row → row.updatedAt < item.clientUpdatedAt
    · exact .inr ⟨item, member, rfl, newer, upsert_rises serverNowMs newer⟩
    · push Not at newer
      obtain ⟨row, held, older⟩ := newer
      exact .inl (congrArg (·[item.key]?) (upsert_skips held older))
  · exact .inl (foldl_upsert_of_notMem listed table)

theorem exists_row_of_mem (serverNowMs : ℤ) {items : List (ClientItem V)}
    (distinct : (items.map ClientItem.key).Nodup) {item : ClientItem V} (member : item ∈ items)
    (table : Table V) :
    ∃ row, (items.foldl (upsert serverNowMs) table)[item.key]? = some row := by
  rw [foldl_upsert_of_mem distinct member table]
  by_cases newer : ∀ row, table[item.key]? = some row → row.updatedAt < item.clientUpdatedAt
  · obtain ⟨row, held, _⟩ := upsert_rises serverNowMs newer
    exact ⟨row, held⟩
  · push Not at newer
    obtain ⟨row, held, older⟩ := newer
    rw [upsert_skips held older]
    exact ⟨row, held⟩

/-- A request is accepted for a key if its item is above the row. -/
def Accepts (table : Table V) (items : List (ClientItem V)) (key : String) : Prop :=
  ∃ item ∈ items, item.key = key ∧ ∀ row ∈ table[key]?, row.updatedAt < item.clientUpdatedAt

instance (table : Table V) (items : List (ClientItem V)) (key : String) :
    Decidable (Accepts table items key) :=
  inferInstanceAs (Decidable (∃ item ∈ items, _ ∧ _))

theorem foldl_upsert_of_not_accepts (serverNowMs : ℤ) {items : List (ClientItem V)}
    (distinct : (items.map ClientItem.key).Nodup) {table : Table V} {key : String}
    (refused : ¬ Accepts table items key) :
    (items.foldl (upsert serverNowMs) table)[key]? = table[key]? := by
  rcases foldl_upsert_cases serverNowMs distinct table key with same | ⟨item, member, named, newer, _⟩
  · exact same
  · exact absurd ⟨item, member, named, newer⟩ refused

theorem foldl_upsert_of_accepts (serverNowMs : ℤ) {items : List (ClientItem V)}
    (distinct : (items.map ClientItem.key).Nodup) {table : Table V} {key : String}
    (accepted : Accepts table items key) :
    ∃ item ∈ items, item.key = key ∧ (∀ row ∈ table[key]?, row.updatedAt < item.clientUpdatedAt) ∧
      ∃ row, (items.foldl (upsert serverNowMs) table)[key]? = some row ∧
        row.value = item.value ∧ item.clientUpdatedAt ≤ row.updatedAt := by
  obtain ⟨item, member, rfl, newer⟩ := accepted
  refine ⟨item, member, rfl, newer, ?_⟩
  rw [foldl_upsert_of_mem distinct member table]
  exact upsert_rises serverNowMs newer

/-! ### What the client makes of the answer -/

theorem notMem_getUserPreferences {table : Table V} {key : String} (free : table[key]? = none)
    (walk : Walk (ServerItem V)) : key ∉ (getUserPreferences table walk).map ServerItem.key := by
  intro listed
  obtain ⟨item, member, rfl⟩ := List.mem_map.mp listed
  rw [(mem_getUserPreferences_iff table walk item).mp member] at free
  cases free

theorem mem_getUserPreferences {table : Table V} {key : String} {row : PreferenceRow V}
    (held : table[key]? = some row) (walk : Walk (ServerItem V)) :
    (⟨key, row.value, row.updatedAt⟩ : ServerItem V) ∈ getUserPreferences table walk :=
  (mem_getUserPreferences_iff table walk _).mpr held

/-- **A push leaves a key** as it is, or with the relay's row if the stamp is the one sent. -/
theorem reconcile_cases (table : Table V) (store : Store V) (items : List (ClientItem V))
    (walk : Walk (ServerItem V)) (key : String) :
    ((store.reconcile items (getUserPreferences table walk)).value key = store.value key ∧
      (store.reconcile items (getUserPreferences table walk)).entry key = store.entry key ∧
      ((store.entry key).updatedAtLocal = sentAt items key → table[key]? = none)) ∨
    ∃ row, table[key]? = some row ∧ (store.entry key).updatedAtLocal = sentAt items key ∧
      (store.reconcile items (getUserPreferences table walk)).value key = some row.value ∧
      (store.reconcile items (getUserPreferences table walk)).entry key = ⟨row.updatedAt, false⟩ := by
  cases held : table[key]? with
  | none =>
    obtain ⟨value, entry⟩ := reconcile_of_notMem (notMem_getUserPreferences held walk) store items
    exact .inl ⟨value, entry, fun _ => rfl⟩
  | some row =>
    obtain ⟨value, entry⟩ := reconcile_of_mem (nodup_keys_getUserPreferences table walk)
      (mem_getUserPreferences held walk) store items
    by_cases untouched : (store.entry key).updatedAtLocal = sentAt items key
    · simp only [if_pos untouched] at value entry
      exact .inr ⟨row, rfl, untouched, value, entry⟩
    · simp only [if_neg untouched] at value entry
      exact .inl ⟨value, entry, fun same => absurd same untouched⟩

/-- **A pull leaves a key** as it is, or with the relay's row if that is newer. -/
theorem pull_cases (table : Table V) (store : Store V) (walk : Walk (ServerItem V)) (key : String) :
    ((store.pull (getUserPreferences table walk)).value key = store.value key ∧
      (store.pull (getUserPreferences table walk)).entry key = store.entry key ∧
      ∀ row, table[key]? = some row → ¬ store.Newer ⟨key, row.value, row.updatedAt⟩) ∨
    ∃ row, table[key]? = some row ∧ store.Newer ⟨key, row.value, row.updatedAt⟩ ∧
      (store.pull (getUserPreferences table walk)).value key = some row.value ∧
      (store.pull (getUserPreferences table walk)).entry key = ⟨row.updatedAt, false⟩ := by
  cases held : table[key]? with
  | none =>
    obtain ⟨value, entry⟩ := pull_of_notMem (notMem_getUserPreferences held walk) store
    exact .inl ⟨value, entry, fun _ there => by cases there⟩
  | some row =>
    obtain ⟨value, entry⟩ := pull_of_mem (nodup_keys_getUserPreferences table walk)
      (mem_getUserPreferences held walk) store
    by_cases newer : store.Newer ⟨key, row.value, row.updatedAt⟩
    · simp only [if_pos newer] at value entry
      exact .inr ⟨row, rfl, newer, value, entry⟩
    · simp only [if_neg newer] at value entry
      refine .inl ⟨value, entry, fun other there => ?_⟩
      cases there
      exact newer

end Relay

end Atterm.Prefs
