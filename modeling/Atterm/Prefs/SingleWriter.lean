/-
**One device and the relay.**

The device edits, pushes and pulls, and gives up on a request that takes too long. A request it gave
up on may still reach the relay, at any time and more than once. An edit made during a round trip
carries the local clock, and the relay may have stamped the edit before it with a clock that is
ahead.

* `Exchange`, `Exchange.step` — the device, the relay and what is between them;
* `Exchange.Current` — the relay answers no edit with an older one;
* `edits_kept_iff_current` — such runs lose no edit, and any other answer loses one.
-/

import Atterm.Prefs.Relay
import Atterm.Foundation.Runs

namespace Atterm.Prefs

open Atterm.Foundation
open Std (ExtTreeMap)

variable {V : Type}

/-- What the engine waits for. It does one thing at a time. -/
inductive Flight (V : Type) where
  | idle
  | pushing (items : List (ClientItem V))
  | refused
  | pushed (items : List (ClientItem V)) (rows : List (ServerItem V))
  | fetched (rows : List (ServerItem V))
deriving DecidableEq

structure Exchange (V : Type) where
  store : Store V
  table : Table V
  flight : Flight V
  /-- The requests the device no longer waits for. -/
  late : List (List (ClientItem V))
  /-- The last edit of each key. -/
  lastEdit : String → Option V

inductive ExchangeEvent (V : Type) where
  | edit (key : String) (value : V) (clock : ℤ)
  | push
  | serve (serverNowMs : ℤ) (walk : Walk (ServerItem V))
  | serveLate (index : ℕ) (serverNowMs : ℤ)
  | giveUp
  | fetch (walk : Walk (ServerItem V))
  | deliver

namespace Exchange

/-- A device that has never synced and a user without rows. -/
def start (value : String → Option V) : Exchange V := ⟨.fresh value, ∅, .idle, [], fun _ => none⟩

section Step

variable (rules : ValueRules V)

def step (world : Exchange V) : ExchangeEvent V → Exchange V
  | .edit key value clock =>
    { world with
      store := world.store.edit key value clock
      lastEdit := Function.update world.lastEdit key (some value) }
  | .push =>
    match world.flight with
    | .idle =>
      let items := pushItems (storing V sortedKeys) world.store
      if items = [] then world else { world with flight := .pushing items }
    | _ => world
  | .serve serverNowMs walk =>
    match world.flight with
    | .pushing items =>
      match setUserPreferences rules world.table serverNowMs items walk with
      | .ok (table, rows) => { world with table := table, flight := .pushed items rows }
      | .error _ => { world with flight := .refused }
    | _ => world
  | .serveLate index serverNowMs =>
    match world.late[index]? with
    | some items =>
      match setUserPreferences rules world.table serverNowMs items (.straight _) with
      | .ok (table, _) => { world with table := table }
      | .error _ => world
    | none => world
  | .giveUp =>
    match world.flight with
    | .pushing items => { world with flight := .idle, late := items :: world.late }
    | _ => { world with flight := .idle }
  | .fetch walk =>
    match world.flight with
    | .idle => { world with flight := .fetched (getUserPreferences world.table walk) }
    | _ => world
  | .deliver =>
    match world.flight with
    | .pushed items rows =>
      { world with
        store := (Prefs.reconcile (storing V sortedKeys) items world.store rows).2
        flight := .idle }
    | .fetched rows =>
      { world with
        store := (Prefs.pull (storing V sortedKeys) world.store rows).2
        flight := .idle }
    | .refused => { world with flight := .idle }
    | _ => world

end Step

/-! ### What a run keeps -/

/-- A clean key holds its last edit, here and at the relay. -/
def Kept (world : Exchange V) : Prop :=
  ∀ key value, world.lastEdit key = some value → (world.store.entry key).dirty = false →
    world.store.value key = some value ∧
      world.table[key]?.map PreferenceRow.value = some value

/-- The row of a pushed key that nobody edited since has a lower stamp than what was pushed, or holds
just that. -/
def Answers (store : Store V) (table : Table V) : Flight V → Prop
  | .pushing items => ∀ item ∈ items,
      (store.entry item.key).updatedAtLocal = item.clientUpdatedAt →
        ∀ row ∈ table[item.key]?, row.updatedAt < item.clientUpdatedAt ∨ row.value = item.value
  | _ => True

/-- The relay answers no edit that still stands with an older one. -/
def Current (world : Exchange V) : ExchangeEvent V → Prop
  | .serve _ _ => Answers world.store world.table world.flight
  | _ => True

instance [DecidableEq V] (store : Store V) (table : Table V) :
    (flight : Flight V) → Decidable (Answers store table flight)
  | .pushing items => inferInstanceAs (Decidable (∀ item ∈ items, _ → _))
  | .idle | .refused | .pushed _ _ | .fetched _ => isTrue trivial

instance [DecidableEq V] (world : Exchange V) :
    (event : ExchangeEvent V) → Decidable (world.Current event)
  | .serve _ _ => inferInstanceAs (Decidable (Answers world.store world.table world.flight))
  | .edit _ _ _ | .push | .serveLate _ _ | .giveUp | .fetch _ | .deliver => isTrue trivial

def requests (world : Exchange V) : List (List (ClientItem V)) :=
  match world.flight with
  | .pushing items => items :: world.late
  | .pushed items _ => items :: world.late
  | _ => world.late

/-- What holds of the stamp of a key, of its row and of the requests about it. -/
structure SoundAt (world : Exchange V) (key : String) : Prop where
  untouched : world.lastEdit key = none → world.store.entry key = ⟨0, false⟩ ∧
    world.table[key]? = none
  edited : ∀ value, world.lastEdit key = some value → world.store.value key = some value ∧
    0 < (world.store.entry key).updatedAtLocal
  clean : ∀ value, world.lastEdit key = some value → (world.store.entry key).dirty = false →
    world.table[key]? = some ⟨value, (world.store.entry key).updatedAtLocal⟩
  asked : ∀ items ∈ world.requests, ∀ item ∈ items, item.key = key → world.lastEdit key ≠ none ∧
    item.clientUpdatedAt ≤ (world.store.entry key).updatedAtLocal ∧
      (item.clientUpdatedAt = (world.store.entry key).updatedAtLocal →
        (world.store.entry key).dirty → world.lastEdit key = some item.value)

/-- What holds of the request or the answer on its way. -/
def FlightSound (store : Store V) (lastEdit : String → Option V) (table : Table V) : Flight V → Prop
  | .pushing items => ∀ item ∈ items, (store.entry item.key).dirty
  | .pushed items rows => (rows.map ServerItem.key).Nodup ∧ ∀ row ∈ rows,
      (store.entry row.key).updatedAtLocal = sentAt items row.key →
        lastEdit row.key = some row.value ∧
        (store.entry row.key).updatedAtLocal ≤ row.updatedAt ∧
        table[row.key]? = some ⟨row.value, row.updatedAt⟩
  | .fetched rows => (rows.map ServerItem.key).Nodup ∧ ∀ row ∈ rows,
      ∃ held, table[row.key]? = some held ∧ row.updatedAt ≤ held.updatedAt
  | .idle => True
  | .refused => True

/-- **What the runs keep** in which the relay answers no edit with an older one. -/
structure Sound (world : Exchange V) : Prop where
  one : ∀ key, world.SoundAt key
  distinct : ∀ items ∈ world.requests, (items.map ClientItem.key).Nodup
  flight : FlightSound world.store world.lastEdit world.table world.flight

theorem Sound.kept {world : Exchange V} (sound : world.Sound) : world.Kept := by
  intro key value last clean
  refine ⟨((sound.one key).edited value last).1, ?_⟩
  rw [(sound.one key).clean value last clean]
  rfl

theorem SoundAt.congr {world after : Exchange V} {key : String} (sound : world.SoundAt key)
    (value : after.store.value key = world.store.value key)
    (entry : after.store.entry key = world.store.entry key)
    (last : after.lastEdit key = world.lastEdit key)
    (row : after.table[key]? = world.table[key]?)
    (requests : ∀ items ∈ after.requests, items ∈ world.requests) : after.SoundAt key where
  untouched := by
    rw [entry, last, row]
    exact sound.untouched
  edited := by
    rw [value, entry, last]
    exact sound.edited
  clean := by
    rw [entry, last, row]
    exact sound.clean
  asked := by
    rw [entry, last]
    exact fun items sent => sound.asked items (requests items sent)

theorem sound_start (value : String → Option V) : (start value).Sound where
  one := fun key =>
    { untouched := fun _ => ⟨rfl, ExtTreeMap.getElem?_empty⟩
      edited := fun _ last => by cases last
      clean := fun _ last => by cases last
      asked := fun _ sent => by cases sent }
  distinct := fun _ sent => by cases sent
  flight := trivial

theorem Sound.nonneg {world : Exchange V} (sound : world.Sound) (key : String) :
    0 ≤ (world.store.entry key).updatedAtLocal := by
  cases last : world.lastEdit key with
  | none =>
    rw [((sound.one key).untouched last).1]
  | some value => exact le_of_lt ((sound.one key).edited value last).2

theorem Sound.sentAt_le {world : Exchange V} (sound : world.Sound) {items : List (ClientItem V)}
    (sent : items ∈ world.requests) (key : String) :
    sentAt items key ≤ (world.store.entry key).updatedAtLocal := by
  by_cases listed : key ∈ items.map ClientItem.key
  · obtain ⟨item, member, rfl⟩ := List.mem_map.mp listed
    rw [sentAt_of_mem (sound.distinct items sent) member]
    exact ((sound.one item.key).asked items sent item member rfl).2.1
  · rw [sentAt_of_notMem listed]
    exact sound.nonneg key

theorem Sound.row_kept {world : Exchange V} (sound : world.Sound) {items : List (ClientItem V)}
    (sent : items ∈ world.requests) (serverNowMs : ℤ) {key : String} {row : PreferenceRow V}
    (held : world.table[key]? = some row)
    (reached : (world.store.entry key).updatedAtLocal ≤ row.updatedAt) :
    (items.foldl (upsert serverNowMs) world.table)[key]? = some row := by
  rcases foldl_upsert_cases serverNowMs (sound.distinct items sent) world.table key with
    same | ⟨item, member, named, newer, _⟩
  · rw [same, held]
  · have bound := ((sound.one key).asked items sent item member named).2.1
    have above := newer row held
    omega

theorem row_rises (serverNowMs : ℤ) {items : List (ClientItem V)}
    (distinct : (items.map ClientItem.key).Nodup) {table : Table V} {key : String}
    {row : PreferenceRow V} (held : table[key]? = some row) :
    ∃ after, (items.foldl (upsert serverNowMs) table)[key]? = some after ∧
      row.updatedAt ≤ after.updatedAt := by
  rcases foldl_upsert_cases serverNowMs distinct table key with
    same | ⟨item, _, _, newer, after, there, _, above⟩
  · exact ⟨row, same.trans held, le_rfl⟩
  · exact ⟨after, there, (newer row held).le.trans above⟩

/-! ### One step -/

section Steps

variable {rules : ValueRules V} {world : Exchange V}

/-- **A request that reaches the relay**, now or late, keeps what holds of each key. -/
theorem SoundAt.serve (sound : world.Sound) {items : List (ClientItem V)}
    (sent : items ∈ world.requests) (serverNowMs : ℤ) (key : String) {after : Exchange V}
    (store : after.store = world.store) (last : after.lastEdit = world.lastEdit)
    (table : after.table = items.foldl (upsert serverNowMs) world.table)
    (requests : ∀ items ∈ after.requests, items ∈ world.requests) : after.SoundAt key where
  untouched := by
    rw [store, last, table]
    intro untouched
    refine ⟨((sound.one key).untouched untouched).1, ?_⟩
    rw [← ((sound.one key).untouched untouched).2]
    refine foldl_upsert_of_notMem ?_ world.table
    intro listed
    obtain ⟨item, member, named⟩ := List.mem_map.mp listed
    exact ((sound.one key).asked items sent item member named).1 untouched
  edited := by
    rw [store, last]
    exact (sound.one key).edited
  clean := by
    rw [store, last, table]
    intro value edit clean
    exact sound.row_kept sent serverNowMs ((sound.one key).clean value edit clean) le_rfl
  asked := by
    rw [store, last]
    exact fun items member => (sound.one key).asked items (requests items member)

theorem sound_edit (sound : world.Sound) (key : String) (value : V) (clock : ℤ) :
    (step rules world (.edit key value clock)).Sound := by
  have above : ∀ items ∈ world.requests, ∀ item ∈ items, item.key = key →
      item.clientUpdatedAt < nextStamp (world.store.entry key) clock := by
    intro items sent item member named
    exact lt_of_le_of_lt ((sound.one key).asked items sent item member named).2.1
      (lt_nextStamp _ clock)
  have stamp : (world.store.edit key value clock).entry key
      = ⟨nextStamp (world.store.entry key) clock, true⟩ := Function.update_self _ _ _
  have other : ∀ {name : String}, name ≠ key →
      (world.store.edit key value clock).value name = world.store.value name ∧
      (world.store.edit key value clock).entry name = world.store.entry name ∧
      Function.update world.lastEdit key (some value) name = world.lastEdit name := by
    intro name apart
    exact ⟨Function.update_of_ne apart _ _, Function.update_of_ne apart _ _,
      Function.update_of_ne apart _ _⟩
  have last : Function.update world.lastEdit key (some value) key = some value :=
    Function.update_self _ _ _
  refine ⟨?_, sound.distinct, ?_⟩
  · intro name
    by_cases same : name = key
    · subst same
      constructor
      · intro untouched
        exact absurd (last.symm.trans untouched) (Option.some_ne_none value)
      · intro held edit
        cases last.symm.trans edit
        refine ⟨Function.update_self _ _ _, ?_⟩
        show 0 < ((world.store.edit name value clock).entry name).updatedAtLocal
        rw [stamp]
        exact lt_of_le_of_lt (sound.nonneg name) (lt_nextStamp _ clock)
      · intro held edit clean
        have dirty : ((world.store.edit name value clock).entry name).dirty = true := by
          rw [stamp]
        exact absurd (dirty.symm.trans clean) Bool.noConfusion
      · intro items sent item member named
        have below := above items sent item member named
        refine ⟨fun none => absurd (last.symm.trans none) (Option.some_ne_none value), ?_, ?_⟩
        · show _ ≤ ((world.store.edit name value clock).entry name).updatedAtLocal
          rw [stamp]
          exact le_of_lt below
        · show _ = ((world.store.edit name value clock).entry name).updatedAtLocal → _
          rw [stamp]
          exact fun reached => absurd reached (ne_of_lt below)
    · obtain ⟨held, entry, edit⟩ := other same
      exact (sound.one name).congr held entry edit rfl fun _ sent => sent
  · have flight := sound.flight
    show FlightSound (world.store.edit key value clock)
      (Function.update world.lastEdit key (some value)) world.table world.flight
    cases away : world.flight with
    | idle => trivial
    | refused => trivial
    | fetched rows =>
      rw [away] at flight
      exact flight
    | pushing items =>
      rw [away] at flight
      intro item member
      by_cases same : item.key = key
      · rw [same, stamp]
      · rw [(other same).2.1]
        exact flight item member
    | pushed items rows =>
      rw [away] at flight
      refine ⟨flight.1, ?_⟩
      intro row member
      by_cases same : row.key = key
      · have sent : items ∈ world.requests := by
          unfold requests
          rw [away]
          exact List.mem_cons_self
        rw [same, stamp]
        intro reached
        have below := sound.sentAt_le sent key
        have rises := lt_nextStamp (world.store.entry key) clock
        have meets : nextStamp (world.store.entry key) clock = sentAt items key := reached
        omega
      · rw [(other same).2.1, (other same).2.2]
        exact flight.2 row member

theorem sound_push (sound : world.Sound) : (step rules world .push).Sound := by
  show Sound (match world.flight with
    | .idle => if pushItems (storing V sortedKeys) world.store = [] then world
        else { world with flight := .pushing (pushItems (storing V sortedKeys) world.store) }
    | _ => world)
  cases away : world.flight with
  | pushing items => exact sound
  | refused => exact sound
  | pushed items rows => exact sound
  | fetched rows => exact sound
  | idle =>
    have late : world.requests = world.late := by
      unfold requests
      rw [away]
    by_cases nothing : pushItems (storing V sortedKeys) world.store = []
    · simp only [if_pos nothing]
      exact sound
    · simp only [if_neg nothing]
      refine ⟨?_, ?_, ?_⟩
      · intro key
        refine ⟨(sound.one key).untouched, (sound.one key).edited, (sound.one key).clean, ?_⟩
        intro items sent item member named
        rcases List.mem_cons.mp sent with rfl | before
        · obtain ⟨_, dirty, held, stamp⟩ := (mem_pushItems_iff world.store item).mp member
          rw [named] at dirty held stamp
          have edited : world.lastEdit key ≠ none := by
            intro none
            rw [((sound.one key).untouched none).1] at dirty
            cases dirty
          obtain ⟨value, last⟩ := Option.ne_none_iff_exists'.mp edited
          refine ⟨edited, stamp.ge, fun _ _ => ?_⟩
          show world.lastEdit key = some item.value
          rw [last, ← ((sound.one key).edited value last).1, held]
        · exact (sound.one key).asked items (late ▸ before) item member named
      · intro items sent
        rcases List.mem_cons.mp sent with rfl | before
        · exact nodup_keys_pushItems world.store
        · exact sound.distinct items (late ▸ before)
      · intro item member
        exact ((mem_pushItems_iff world.store item).mp member).2.1

theorem sound_serve (sound : world.Sound) {serverNowMs : ℤ} {walk : Walk (ServerItem V)}
    (current : world.Current (.serve serverNowMs walk)) :
    (step rules world (.serve serverNowMs walk)).Sound := by
  show Sound (match world.flight with
    | .pushing items =>
      match setUserPreferences rules world.table serverNowMs items walk with
      | .ok (table, rows) => { world with table := table, flight := .pushed items rows }
      | .error _ => { world with flight := .refused }
    | _ => world)
  have flight := sound.flight
  have answers : Answers world.store world.table world.flight := current
  cases away : world.flight with
  | idle => exact sound
  | refused => exact sound
  | pushed items rows => exact sound
  | fetched rows => exact sound
  | pushing items =>
    rw [away] at flight answers
    have requests : world.requests = items :: world.late := by
      unfold requests
      rw [away]
    have sent : items ∈ world.requests := requests ▸ List.mem_cons_self
    show Sound (match setUserPreferences rules world.table serverNowMs items walk with
      | .ok (table, rows) => { world with table := table, flight := .pushed items rows }
      | .error _ => { world with flight := .refused })
    cases served : setUserPreferences rules world.table serverNowMs items walk with
    | error _ =>
      refine ⟨?_, ?_, trivial⟩
      · intro key
        refine (sound.one key).congr rfl rfl rfl rfl ?_
        exact fun items before => requests ▸ List.mem_cons_of_mem _ before
      · exact fun items before => sound.distinct items (requests ▸ List.mem_cons_of_mem _ before)
    | ok answer =>
      obtain ⟨table, rows⟩ := answer
      obtain ⟨rfl, rfl⟩ := setUserPreferences_ok served
      refine ⟨?_, ?_, nodup_keys_getUserPreferences _ walk, ?_⟩
      · intro key
        exact SoundAt.serve sound sent serverNowMs key rfl rfl rfl
          fun items before => requests ▸ before
      · exact fun items before => sound.distinct items (requests ▸ before)
      · intro row member untouched
        have there := (mem_getUserPreferences_iff _ walk row).mp member
        have listed : row.key ∈ items.map ClientItem.key := by
          by_contra absent
          rw [foldl_upsert_of_notMem absent world.table] at there
          have stamp : (world.store.entry row.key).updatedAtLocal = 0 :=
            untouched.trans (sentAt_of_notMem absent)
          cases last : world.lastEdit row.key with
          | none =>
            rw [((sound.one row.key).untouched last).2] at there
            cases there
          | some value => exact absurd stamp (((sound.one row.key).edited value last).2).ne'
        obtain ⟨item, asked, named⟩ := List.mem_map.mp listed
        have stamp : (world.store.entry item.key).updatedAtLocal = item.clientUpdatedAt := by
          rw [named]
          refine Eq.trans untouched ?_
          rw [← named]
          exact sentAt_of_mem (sound.distinct items sent) asked
        have last : world.lastEdit row.key = some item.value := by
          refine ((sound.one row.key).asked items sent item asked named).2.2 ?_ ?_
          · rw [← named, stamp]
          · rw [← named]
            exact flight item asked
        have reached : row.value = item.value ∧ item.clientUpdatedAt ≤ row.updatedAt := by
          rw [← named, foldl_upsert_of_mem (sound.distinct items sent) asked] at there
          by_cases newer : ∀ held, world.table[item.key]? = some held →
              held.updatedAt < item.clientUpdatedAt
          · obtain ⟨after, now, same, above⟩ := upsert_rises serverNowMs newer
            cases now.symm.trans there
            exact ⟨same, above⟩
          · push Not at newer
            obtain ⟨held, before, older⟩ := newer
            rw [upsert_skips before older, before] at there
            cases there
            rcases answers item asked stamp _ before with below | same
            · exact absurd below (not_lt.mpr older)
            · exact ⟨same, older⟩
        refine ⟨?_, ?_, there⟩
        · rw [reached.1]
          exact last
        · show (world.store.entry row.key).updatedAtLocal ≤ row.updatedAt
          rw [← named, stamp]
          exact reached.2

theorem sound_serveLate (sound : world.Sound) (index : ℕ) (serverNowMs : ℤ) :
    (step rules world (.serveLate index serverNowMs)).Sound := by
  show Sound (match world.late[index]? with
    | some items =>
      match setUserPreferences rules world.table serverNowMs items (.straight _) with
      | .ok (table, _) => { world with table := table }
      | .error _ => world
    | none => world)
  cases found : world.late[index]? with
  | none => exact sound
  | some items =>
    have sent : items ∈ world.requests := by
      unfold requests
      cases world.flight with
      | pushing _ => exact List.mem_cons_of_mem _ (List.mem_of_getElem? found)
      | pushed _ _ => exact List.mem_cons_of_mem _ (List.mem_of_getElem? found)
      | idle => exact List.mem_of_getElem? found
      | refused => exact List.mem_of_getElem? found
      | fetched _ => exact List.mem_of_getElem? found
    show Sound (match setUserPreferences rules world.table serverNowMs items (.straight _) with
      | .ok (table, _) => { world with table := table }
      | .error _ => world)
    cases served : setUserPreferences rules world.table serverNowMs items (.straight _) with
    | error _ => exact sound
    | ok answer =>
      obtain ⟨table, rows⟩ := answer
      obtain ⟨rfl, rfl⟩ := setUserPreferences_ok served
      refine ⟨?_, sound.distinct, ?_⟩
      · exact fun key => SoundAt.serve sound sent serverNowMs key rfl rfl rfl fun _ same => same
      · have flight := sound.flight
        show FlightSound world.store world.lastEdit
          (items.foldl (upsert serverNowMs) world.table) world.flight
        cases away : world.flight with
        | idle => trivial
        | refused => trivial
        | pushing items =>
          rw [away] at flight
          exact flight
        | pushed items rows =>
          rw [away] at flight
          refine ⟨flight.1, fun row member untouched => ?_⟩
          obtain ⟨last, reached, there⟩ := flight.2 row member untouched
          exact ⟨last, reached, sound.row_kept sent serverNowMs there reached⟩
        | fetched rows =>
          rw [away] at flight
          refine ⟨flight.1, fun row member => ?_⟩
          obtain ⟨held, there, above⟩ := flight.2 row member
          obtain ⟨after, now, higher⟩ :=
            row_rises serverNowMs (sound.distinct items sent) there
          exact ⟨after, now, above.trans higher⟩

theorem sound_giveUp (sound : world.Sound) : (step rules world .giveUp).Sound := by
  have kept : ∀ after : Exchange V, after.store = world.store → after.table = world.table →
      after.lastEdit = world.lastEdit → after.flight = .idle →
      (∀ items ∈ after.requests, items ∈ world.requests) → after.Sound := by
    intro after store table last idle requests
    refine ⟨?_, fun items sent => sound.distinct items (requests items sent), ?_⟩
    · intro key
      exact (sound.one key).congr (by rw [store]) (by rw [store]) (by rw [last]) (by rw [table])
        requests
    · rw [idle]
      trivial
  show Sound (match world.flight with
    | .pushing items => { world with flight := .idle, late := items :: world.late }
    | _ => { world with flight := .idle })
  cases away : world.flight with
  | pushing items =>
    refine kept _ rfl rfl rfl rfl fun items sent => ?_
    unfold requests
    rw [away]
    exact sent
  | pushed items rows =>
    refine kept _ rfl rfl rfl rfl fun items sent => ?_
    unfold requests
    rw [away]
    exact List.mem_cons_of_mem _ sent
  | idle =>
    refine kept _ rfl rfl rfl rfl fun items sent => ?_
    unfold requests
    rw [away]
    exact sent
  | refused =>
    refine kept _ rfl rfl rfl rfl fun items sent => ?_
    unfold requests
    rw [away]
    exact sent
  | fetched rows =>
    refine kept _ rfl rfl rfl rfl fun items sent => ?_
    unfold requests
    rw [away]
    exact sent

theorem sound_fetch (sound : world.Sound) (walk : Walk (ServerItem V)) :
    (step rules world (.fetch walk)).Sound := by
  show Sound (match world.flight with
    | .idle => { world with flight := .fetched (getUserPreferences world.table walk) }
    | _ => world)
  cases away : world.flight with
  | pushing items => exact sound
  | refused => exact sound
  | pushed items rows => exact sound
  | fetched rows => exact sound
  | idle =>
    have late : world.requests = world.late := by
      unfold requests
      rw [away]
    refine ⟨?_, fun items sent => sound.distinct items (late ▸ sent),
      nodup_keys_getUserPreferences _ walk, ?_⟩
    · exact fun key => (sound.one key).congr rfl rfl rfl rfl fun items sent => late ▸ sent
    · intro row member
      exact ⟨_, (mem_getUserPreferences_iff _ walk row).mp member, le_rfl⟩

theorem SoundAt.reconcile (sound : world.Sound) {items : List (ClientItem V)}
    {rows : List (ServerItem V)} (away : world.flight = .pushed items rows) (key : String) :
    SoundAt { world with store := world.store.reconcile items rows, flight := .idle } key := by
  have flight := sound.flight
  rw [away] at flight
  have requests : ∀ items ∈ world.late, items ∈ world.requests := by
    intro items sent
    unfold requests
    rw [away]
    exact List.mem_cons_of_mem _ sent
  by_cases listed : key ∈ rows.map ServerItem.key
  · obtain ⟨row, member, rfl⟩ := List.mem_map.mp listed
    obtain ⟨held, entry⟩ := reconcile_of_mem flight.1 member world.store items
    by_cases untouched : (world.store.entry row.key).updatedAtLocal = sentAt items row.key
    · rw [if_pos untouched] at held entry
      obtain ⟨last, reached, there⟩ := flight.2 row member untouched
      have positive := ((sound.one row.key).edited row.value last).2
      constructor
      · exact fun none => absurd (last.symm.trans none) (Option.some_ne_none row.value)
      · intro value edit
        cases last.symm.trans edit
        refine ⟨held, ?_⟩
        show 0 < ((world.store.reconcile items rows).entry row.key).updatedAtLocal
        rw [entry]
        exact positive.trans_le reached
      · intro value edit _
        cases last.symm.trans edit
        show world.table[row.key]? =
          some ⟨row.value, ((world.store.reconcile items rows).entry row.key).updatedAtLocal⟩
        rw [entry]
        exact there
      · intro items' sent item asked named
        refine ⟨fun none => absurd (last.symm.trans none) (Option.some_ne_none row.value), ?_, ?_⟩
        · show _ ≤ ((world.store.reconcile items rows).entry row.key).updatedAtLocal
          rw [entry]
          exact (((sound.one row.key).asked items' (requests _ sent) item asked named).2.1).trans
            reached
        · show _ → ((world.store.reconcile items rows).entry row.key).dirty = true → _
          rw [entry]
          exact fun _ dirty => absurd dirty Bool.noConfusion
    · rw [if_neg untouched] at held entry
      exact (sound.one row.key).congr held entry rfl rfl requests
  · obtain ⟨held, entry⟩ := reconcile_of_notMem listed world.store items
    exact (sound.one key).congr held entry rfl rfl requests

theorem SoundAt.pull (sound : world.Sound) {rows : List (ServerItem V)}
    (away : world.flight = .fetched rows) (key : String) :
    SoundAt { world with store := world.store.pull rows, flight := .idle } key := by
  have flight := sound.flight
  rw [away] at flight
  have requests : ∀ items ∈ world.late, items ∈ world.requests := by
    intro items sent
    unfold requests
    rw [away]
    exact sent
  by_cases listed : key ∈ rows.map ServerItem.key
  · obtain ⟨row, member, rfl⟩ := List.mem_map.mp listed
    have older : ¬ world.store.Newer row := by
      rintro ⟨_, newer, clean⟩
      obtain ⟨held, there, above⟩ := flight.2 row member
      cases last : world.lastEdit row.key with
      | none => cases ((sound.one row.key).untouched last).2.symm.trans there
      | some value =>
        cases ((sound.one row.key).clean value last clean).symm.trans there
        exact absurd newer (not_lt.mpr above)
    obtain ⟨held, entry⟩ := pull_of_mem flight.1 member world.store
    rw [if_neg older] at held entry
    exact (sound.one row.key).congr held entry rfl rfl requests
  · obtain ⟨held, entry⟩ := pull_of_notMem listed world.store
    exact (sound.one key).congr held entry rfl rfl requests

theorem sound_deliver (sound : world.Sound) : (step rules world .deliver).Sound := by
  show Sound (match world.flight with
    | .pushed items rows =>
      { world with
        store := (Prefs.reconcile (storing V sortedKeys) items world.store rows).2
        flight := .idle }
    | .fetched rows =>
      { world with
        store := (Prefs.pull (storing V sortedKeys) world.store rows).2
        flight := .idle }
    | .refused => { world with flight := .idle }
    | _ => world)
  cases away : world.flight with
  | idle => exact sound
  | pushing items => exact sound
  | refused =>
    have requests : ∀ items ∈ world.late, items ∈ world.requests := by
      intro items sent
      unfold requests
      rw [away]
      exact sent
    refine ⟨?_, fun items sent => sound.distinct items (requests items sent), trivial⟩
    exact fun key => (sound.one key).congr rfl rfl rfl rfl requests
  | pushed items rows =>
    show Sound { world with
      store := (Prefs.reconcile (storing V sortedKeys) items world.store rows).2, flight := .idle }
    rw [reconcile_storing]
    refine ⟨SoundAt.reconcile sound away, fun items sent => sound.distinct items ?_, trivial⟩
    unfold requests
    rw [away]
    exact List.mem_cons_of_mem _ sent
  | fetched rows =>
    show Sound { world with
      store := (Prefs.pull (storing V sortedKeys) world.store rows).2, flight := .idle }
    rw [pull_storing]
    refine ⟨SoundAt.pull sound away, fun items sent => sound.distinct items ?_, trivial⟩
    unfold requests
    rw [away]
    exact sent

/-- **One step keeps it**, if the relay answers no edit with an older one in it. -/
theorem sound_step (event : ExchangeEvent V) (sound : world.Sound) (current : world.Current event) :
    (step rules world event).Sound := by
  cases event with
  | edit key value clock => exact sound_edit sound key value clock
  | push => exact sound_push sound
  | serve serverNowMs walk => exact sound_serve sound current
  | serveLate index serverNowMs => exact sound_serveLate sound index serverNowMs
  | giveUp => exact sound_giveUp sound
  | fetch walk => exact sound_fetch sound walk
  | deliver => exact sound_deliver sound

/-- **An older answer loses the edit** once it arrives. -/
theorem not_kept_of_not_current (sound : world.Sound) {items : List (ClientItem V)}
    (away : world.flight = .pushing items) (taken : checkItems rules items = .ok ())
    {serverNowMs : ℤ} {walk : Walk (ServerItem V)}
    (behind : ¬ world.Current (.serve serverNowMs walk)) :
    ¬ (run (step rules) world [.serve serverNowMs walk, .deliver]).Kept := by
  have sent : items ∈ world.requests := by
    unfold requests
    rw [away]
    exact List.mem_cons_self
  have answers : ¬ Answers world.store world.table world.flight := behind
  rw [away, Answers] at answers
  push Not at answers
  obtain ⟨item, asked, stamp, row, held, older, differs⟩ := answers
  have arrived : run (step rules) world [.serve serverNowMs walk, .deliver] =
      { world with
        store := world.store.reconcile items
          (getUserPreferences (items.foldl (upsert serverNowMs) world.table) walk)
        table := items.foldl (upsert serverNowMs) world.table
        flight := .idle } := by
    have answered : setUserPreferences rules world.table serverNowMs items walk =
        .ok (items.foldl (upsert serverNowMs) world.table,
          getUserPreferences (items.foldl (upsert serverNowMs) world.table) walk) :=
      bind_ok_iff.mpr ⟨(), taken, rfl⟩
    simp only [run_cons, run_nil, step, away, answered, reconcile_storing]
  have dirty : (world.store.entry item.key).dirty := by
    have flight := sound.flight
    rw [away] at flight
    exact flight item asked
  have last : world.lastEdit item.key = some item.value :=
    ((sound.one item.key).asked items sent item asked rfl).2.2 stamp.symm dirty
  have there : (items.foldl (upsert serverNowMs) world.table)[item.key]? = some row := by
    rw [foldl_upsert_of_mem (sound.distinct items sent) asked, upsert_skips held older, held]
  obtain ⟨value, entry⟩ := reconcile_of_mem (nodup_keys_getUserPreferences _ walk)
    (mem_getUserPreferences there walk) world.store items
  have untouched : (world.store.entry item.key).updatedAtLocal = sentAt items item.key := by
    rw [stamp, sentAt_of_mem (sound.distinct items sent) asked]
  simp only [if_pos untouched] at value entry
  rw [arrived]
  intro kept
  have same := (kept item.key item.value last (congrArg Meta.dirty entry)).1
  exact differs (Option.some.inj (value.symm.trans same))

end Steps

/-- **Edits are kept in the runs in which the relay answers no edit with an older one**, and only
there: the first other answer to arrive loses an edit. -/
theorem edits_kept_iff_current (rules : ValueRules V) (value : String → Option V)
    (events : List (ExchangeEvent V)) (current : Meets (step rules) Current (start value) events) :
    (run (step rules) (start value) events).Kept ∧
      ∀ items serverNowMs walk, (run (step rules) (start value) events).flight = .pushing items →
        checkItems rules items = .ok () →
          ((run (step rules) (start value) (events ++ [.serve serverNowMs walk, .deliver])).Kept ↔
            (run (step rules) (start value) events).Current (.serve serverNowMs walk)) := by
  have sound : (run (step rules) (start value) events).Sound :=
    run_invariant_of_meets Sound (fun _ event sound meets => sound_step event sound meets)
      (sound_start value) current
  refine ⟨sound.kept, fun items serverNowMs walk away taken => ?_⟩
  rw [run_append]
  constructor
  · intro kept
    by_contra behind
    exact not_kept_of_not_current sound away taken behind kept
  · intro stands
    have answered : (step rules (step rules _ (.serve serverNowMs walk)) .deliver).Sound :=
      sound_deliver (sound_serve sound stands)
    exact answered.kept

section Sample

/-- An edit at 100, pushed. The relay's clock says 1000, and the second edit, at 101, comes while
the answer is on its way. -/
def clockAhead : List (ExchangeEvent ℕ) :=
  [.edit "terminal_font_size" 14 100, .push, .serve 1000 (.straight _),
    .edit "terminal_font_size" 16 101, .deliver, .push, .serve 1001 (.straight _), .deliver]

/-- **The second edit is lost**: the relay refuses it and the device takes the first one back. -/
theorem clock_ahead_loses :
    ¬ ∀ (V : Type) (rules : ValueRules V) (value : String → Option V)
      (events : List (ExchangeEvent V)), (run (step rules) (start value) events).Kept := by
  intro kept
  have lost := (kept ℕ plainRules (fun _ => none) clockAhead "terminal_font_size" 16 (by decide)
    (by decide)).1
  exact absurd lost (by decide)

/-- The relay's clock behind: both edits reach it. -/
def clockBehind : List (ExchangeEvent ℕ) :=
  [.edit "terminal_font_size" 14 100, .push, .serve 50 (.straight _),
    .edit "terminal_font_size" 16 101, .deliver, .push]

theorem edits_kept_clock_behind :
    (run (step plainRules) (start fun _ => none)
      (clockBehind ++ [.serve 51 (.straight _), .deliver])).Kept := by
  refine ((edits_kept_iff_current plainRules (fun _ => none) clockBehind ?_).2
    [⟨"terminal_font_size", 16, 101⟩] 51 (.straight _) ?_ ?_).mpr ?_
  · decide
  · decide
  · decide
  · decide

end Sample

end Exchange

end Atterm.Prefs
