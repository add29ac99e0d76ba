/-
**Many devices and the relay.**

Any number of devices edit, pull and push, each as one step, with any clocks. Beside the relay's rows
stand the writes it accepted for each key, latest first, and which devices have pulled since.

* `Devices`, `Devices.step` — the devices and the relay;
* `Devices.SoundAt` — a clean key holds a past row of the relay, or nothing yet;
* `devices_converge` — accepted stamps rise, devices that have all pulled agree, and an edit on top
  of the relay's row is accepted.
-/

import Atterm.Prefs.Relay
import Atterm.Foundation.Runs

namespace Atterm.Prefs

open Atterm.Foundation
open Std (ExtTreeMap)

variable {ι V : Type}

structure Devices (ι V : Type) where
  stores : ι → Store V
  table : Table V
  /-- The accepted writes of a key, the latest first. -/
  writes : String → List (PreferenceRow V)
  /-- The devices that have pulled since the last accepted write of a key. -/
  pulled : ι → String → Bool

inductive DeviceEvent (ι V : Type) where
  | edit (device : ι) (key : String) (value : V) (clock : ℤ)
  | pull (device : ι) (walk : Walk (ServerItem V))
  | push (device : ι) (serverNowMs : ℤ) (walk : Walk (ServerItem V))

namespace Devices

/-- Devices that have never synced, and a user without rows. -/
def start (value : ι → String → Option V) : Devices ι V :=
  ⟨fun device => .fresh (value device), ∅, fun _ => [], fun _ _ => false⟩

section Step

variable [DecidableEq ι] (rules : ValueRules V)

def step (world : Devices ι V) : DeviceEvent ι V → Devices ι V
  | .edit device key value clock =>
    { world with
      stores := Function.update world.stores device ((world.stores device).edit key value clock) }
  | .pull device walk =>
    { world with
      stores := Function.update world.stores device
        (Prefs.pull (storing V sortedKeys) (world.stores device)
          (getUserPreferences world.table walk)).2
      pulled := Function.update world.pulled device fun _ => true }
  | .push device serverNowMs walk =>
    let items := pushItems (storing V sortedKeys) (world.stores device)
    if items = [] then world
    else
      match setUserPreferences rules world.table serverNowMs items walk with
      | .error _ => world
      | .ok (table, rows) =>
        { stores := Function.update world.stores device
            (Prefs.reconcile (storing V sortedKeys) items (world.stores device) rows).2
          table := table
          writes := fun key =>
            if Accepts world.table items key then table[key]?.toList ++ world.writes key
            else world.writes key
          pulled := fun other key =>
            world.pulled other key && ¬ Accepts world.table items key }

end Step

/-! ### What a run keeps -/

/-- **What every run keeps** of a key: the row is the last accepted write, the writes rise, and a
clean device holds one of them, the last one if it has pulled since. -/
structure SoundAt (world : Devices ι V) (key : String) : Prop where
  row : world.table[key]? = (world.writes key).head?
  rising : (world.writes key).Pairwise fun later earlier => earlier.updatedAt < later.updatedAt
  positive : ∀ write ∈ world.writes key, key ∈ syncedKeys ∧ 0 < write.updatedAt
  clean : ∀ device, ((world.stores device).entry key).dirty = false →
    ((world.stores device).entry key).updatedAtLocal = 0 ∨ ∃ write ∈ world.writes key,
      (world.stores device).value key = some write.value ∧
      ((world.stores device).entry key).updatedAtLocal = write.updatedAt
  dirty : ∀ device, ((world.stores device).entry key).dirty →
    0 < ((world.stores device).entry key).updatedAtLocal ∧
      ((world.stores device).value key).isSome
  fresh : ∀ device, world.pulled device key → ((world.stores device).entry key).dirty = false →
    ∀ row ∈ world.table[key]?, (world.stores device).value key = some row.value ∧
      ((world.stores device).entry key).updatedAtLocal = row.updatedAt

theorem soundAt_start (value : ι → String → Option V) (key : String) :
    (start value).SoundAt key where
  row := ExtTreeMap.getElem?_empty
  rising := List.Pairwise.nil
  positive := fun _ listed => by cases listed
  clean := fun _ _ => .inl rfl
  dirty := fun _ dirty => by cases dirty
  fresh := fun _ pulled => by cases pulled

section Facts

variable {world : Devices ι V} {key : String}

theorem SoundAt.nonneg (sound : world.SoundAt key) (device : ι) :
    0 ≤ ((world.stores device).entry key).updatedAtLocal := by
  cases dirty : ((world.stores device).entry key).dirty with
  | true => exact (sound.dirty device dirty).1.le
  | false =>
    rcases sound.clean device dirty with zero | ⟨write, member, _, stamp⟩
    · exact zero.ge
    · rw [stamp]
      exact (sound.positive write member).2.le

theorem SoundAt.top (sound : world.SoundAt key) {row : PreferenceRow V}
    (held : world.table[key]? = some row) : row ∈ world.writes key ∧
      ∀ write ∈ world.writes key, write.updatedAt ≤ row.updatedAt ∧
        (write.updatedAt = row.updatedAt → write = row) := by
  have first := sound.row.symm.trans held
  have rising := sound.rising
  cases writes : world.writes key with
  | nil =>
    rw [writes] at first
    cases first
  | cons write rest =>
    rw [writes] at first rising
    cases first
    rw [List.pairwise_cons] at rising
    refine ⟨List.mem_cons_self, fun other member => ?_⟩
    rcases List.mem_cons.mp member with rfl | earlier
    · exact ⟨le_rfl, fun _ => rfl⟩
    · have below := rising.1 other earlier
      exact ⟨below.le, fun same => absurd same below.ne⟩

theorem SoundAt.holds (sound : world.SoundAt key) {row : PreferenceRow V}
    (held : world.table[key]? = some row) {device : ι}
    (clean : ((world.stores device).entry key).dirty = false)
    (reached : row.updatedAt ≤ ((world.stores device).entry key).updatedAtLocal) :
    (world.stores device).value key = some row.value ∧
      ((world.stores device).entry key).updatedAtLocal = row.updatedAt := by
  obtain ⟨member, top⟩ := sound.top held
  rcases sound.clean device clean with zero | ⟨write, among, value, stamp⟩
  · have positive := (sound.positive row member).2
    omega
  · have same : write.updatedAt = row.updatedAt :=
      le_antisymm (top write among).1 (stamp ▸ reached)
    cases (top write among).2 same
    exact ⟨value, stamp⟩

theorem SoundAt.device {after : Devices ι V} (sound : world.SoundAt key) (device : ι)
    (row : after.table[key]? = world.table[key]?) (writes : after.writes key = world.writes key)
    (others : ∀ other, other ≠ device → after.stores other = world.stores other ∧
      after.pulled other key = world.pulled other key)
    (clean : ((after.stores device).entry key).dirty = false →
      ((after.stores device).entry key).updatedAtLocal = 0 ∨ ∃ write ∈ world.writes key,
        (after.stores device).value key = some write.value ∧
        ((after.stores device).entry key).updatedAtLocal = write.updatedAt)
    (dirty : ((after.stores device).entry key).dirty →
      0 < ((after.stores device).entry key).updatedAtLocal ∧
        ((after.stores device).value key).isSome)
    (fresh : after.pulled device key → ((after.stores device).entry key).dirty = false →
      ∀ row ∈ world.table[key]?, (after.stores device).value key = some row.value ∧
        ((after.stores device).entry key).updatedAtLocal = row.updatedAt) : after.SoundAt key where
  row := by
    rw [row, writes]
    exact sound.row
  rising := by
    rw [writes]
    exact sound.rising
  positive := by
    rw [writes]
    exact sound.positive
  clean := by
    intro other
    rw [writes]
    by_cases same : other = device
    · rw [same]
      exact clean
    · rw [(others other same).1]
      exact sound.clean other
  dirty := by
    intro other
    by_cases same : other = device
    · rw [same]
      exact dirty
    · rw [(others other same).1]
      exact sound.dirty other
  fresh := by
    intro other
    rw [row]
    by_cases same : other = device
    · rw [same]
      exact fresh
    · rw [(others other same).1, (others other same).2]
      exact sound.fresh other

end Facts

/-! ### One step -/

section Steps

variable [DecidableEq ι] {rules : ValueRules V} {world : Devices ι V} {key : String}

theorem soundAt_edit (sound : world.SoundAt key) (device : ι) (edited : String) (value : V)
    (clock : ℤ) : (step rules world (.edit device edited value clock)).SoundAt key := by
  have stored : (step rules world (.edit device edited value clock)).stores device
      = (world.stores device).edit edited value clock := Function.update_self _ _ _
  have others : ∀ other, other ≠ device →
      (step rules world (.edit device edited value clock)).stores other = world.stores other :=
    fun other apart => Function.update_of_ne apart _ _
  by_cases same : key = edited
  · subst same
    have entry : ((world.stores device).edit key value clock).entry key
        = ⟨nextStamp ((world.stores device).entry key) clock, true⟩ := Function.update_self _ _ _
    have held : ((world.stores device).edit key value clock).value key = some value :=
      Function.update_self _ _ _
    refine sound.device device rfl rfl (fun other apart => ⟨others other apart, rfl⟩) ?_ ?_ ?_
    · rw [stored, entry]
      exact fun clean => by cases clean
    · rw [stored, entry, held]
      exact fun _ => ⟨(sound.nonneg device).trans_lt (lt_nextStamp _ clock), rfl⟩
    · rw [stored, entry]
      exact fun _ clean => by cases clean
  · have entry : ((world.stores device).edit edited value clock).entry key
        = (world.stores device).entry key := Function.update_of_ne same _ _
    have held : ((world.stores device).edit edited value clock).value key
        = (world.stores device).value key := Function.update_of_ne same _ _
    refine sound.device device rfl rfl (fun other apart => ⟨others other apart, rfl⟩) ?_ ?_ ?_
    · rw [stored, entry, held]
      exact sound.clean device
    · rw [stored, entry, held]
      exact sound.dirty device
    · rw [stored, entry, held]
      exact sound.fresh device

theorem soundAt_pull (sound : world.SoundAt key) (device : ι) (walk : Walk (ServerItem V)) :
    (step rules world (.pull device walk)).SoundAt key := by
  have stored : (step rules world (.pull device walk)).stores device
      = (world.stores device).pull (getUserPreferences world.table walk) := by
    refine (Function.update_self _ _ _).trans ?_
    exact pull_storing _ _
  refine sound.device device rfl rfl (fun other apart => ⟨Function.update_of_ne apart _ _,
    congrFun (Function.update_of_ne apart _ _) key⟩) ?_ ?_ ?_
  all_goals rw [stored]
  all_goals rcases pull_cases world.table (world.stores device) walk key with
    ⟨value, entry, older⟩ | ⟨row, held, newer, value, entry⟩
  all_goals rw [value, entry]
  · exact sound.clean device
  · exact fun _ => .inr ⟨row, (sound.top held).1, rfl, rfl⟩
  · exact sound.dirty device
  · exact fun dirty => by cases dirty
  · intro _ clean row held
    refine sound.holds held clean ?_
    by_contra behind
    refine older row held ⟨(sound.positive row (sound.top held).1).1, ?_, clean⟩
    exact not_le.mp behind
  · intro _ _ other there
    cases held.symm.trans there
    exact ⟨rfl, rfl⟩

/-- What a push leaves that the relay takes. -/
def answered (world : Devices ι V) (device : ι) (serverNowMs : ℤ) (walk : Walk (ServerItem V)) :
    Devices ι V :=
  let items := pushItems (storing V sortedKeys) (world.stores device)
  let table := items.foldl (upsert serverNowMs) world.table
  { stores := Function.update world.stores device
      ((world.stores device).reconcile items (getUserPreferences table walk))
    table := table
    writes := fun key =>
      if Accepts world.table items key then table[key]?.toList ++ world.writes key
      else world.writes key
    pulled := fun other key => world.pulled other key && ¬ Accepts world.table items key }

theorem step_push_of_ok {device : ι} {serverNowMs : ℤ} {walk : Walk (ServerItem V)}
    (some : pushItems (storing V sortedKeys) (world.stores device) ≠ [])
    (checked : checkItems rules (pushItems (storing V sortedKeys) (world.stores device)) = .ok ()) :
    step rules world (.push device serverNowMs walk) = world.answered device serverNowMs walk := by
  have served : setUserPreferences rules world.table serverNowMs
      (pushItems (storing V sortedKeys) (world.stores device)) walk = .ok (_, _) :=
    bind_ok_iff.mpr ⟨(), checked, rfl⟩
  simp only [step, if_neg some, served, reconcile_storing, answered]

variable (rules world) in
theorem step_push_cases (device : ι) (serverNowMs : ℤ) (walk : Walk (ServerItem V)) :
    step rules world (.push device serverNowMs walk) = world ∨
      (checkItems rules (pushItems (storing V sortedKeys) (world.stores device)) = .ok () ∧
        step rules world (.push device serverNowMs walk)
          = world.answered device serverNowMs walk) := by
  by_cases nothing : pushItems (storing V sortedKeys) (world.stores device) = []
  · exact .inl (if_pos nothing)
  · cases checked : checkItems rules (pushItems (storing V sortedKeys) (world.stores device)) with
    | ok _ => exact .inr ⟨rfl, step_push_of_ok nothing checked⟩
    | error failure =>
      have refused : setUserPreferences rules world.table serverNowMs
          (pushItems (storing V sortedKeys) (world.stores device)) walk = .error failure := by
        unfold setUserPreferences
        rw [checked]
        rfl
      refine .inl ?_
      simp only [step, if_neg nothing, refused]

theorem answered_of_accepts {device : ι} (serverNowMs : ℤ) (walk : Walk (ServerItem V))
    (accepted : Accepts world.table (pushItems (storing V sortedKeys) (world.stores device)) key) :
    ∃ row, (world.answered device serverNowMs walk).table[key]? = some row ∧
      (world.answered device serverNowMs walk).writes key = row :: world.writes key ∧
      (world.stores device).value key = some row.value ∧ key ∈ syncedKeys ∧
      ((world.stores device).entry key).dirty ∧
      ((world.stores device).entry key).updatedAtLocal ≤ row.updatedAt ∧
      ∀ before ∈ world.table[key]?, before.updatedAt < row.updatedAt := by
  obtain ⟨item, member, named, newer, row, held, same, above⟩ := foldl_upsert_of_accepts serverNowMs
    (nodup_keys_pushItems (world.stores device)) accepted
  obtain ⟨synced, dirty, value, stamp⟩ := (mem_pushItems_iff (world.stores device) item).mp member
  rw [named] at synced dirty value stamp
  refine ⟨row, held, ?_, value.trans (congrArg some same.symm), synced, dirty, stamp.trans_le above,
    fun before there => (newer before there).trans_le above⟩
  show (if Accepts _ _ key then _ else _) = _
  rw [if_pos accepted, held]
  rfl

theorem soundAt_answered_of_accepts (sound : world.SoundAt key) {device : ι} (serverNowMs : ℤ)
    (walk : Walk (ServerItem V))
    (accepted : Accepts world.table (pushItems (storing V sortedKeys) (world.stores device)) key) :
    (world.answered device serverNowMs walk).SoundAt key := by
  obtain ⟨row, held, writes, _, synced, dirty, reached, above⟩ :=
    answered_of_accepts serverNowMs walk accepted
  have unseen : ∀ other, (world.answered device serverNowMs walk).pulled other key = false := by
    intro other
    show (world.pulled other key && ¬ Accepts _ _ key) = false
    simp only [accepted, not_true_eq_false, decide_false, Bool.and_false]
  have positive : 0 < row.updatedAt := (sound.dirty device dirty).1.trans_le reached
  have others : ∀ other, other ≠ device →
      (world.answered device serverNowMs walk).stores other = world.stores other :=
    fun other apart => Function.update_of_ne apart _ _
  have stored : (world.answered device serverNowMs walk).stores device
      = (world.stores device).reconcile (pushItems (storing V sortedKeys) (world.stores device))
        (getUserPreferences ((pushItems (storing V sortedKeys) (world.stores device)).foldl
          (upsert serverNowMs) world.table) walk) := Function.update_self _ _ _
  have left := reconcile_cases ((pushItems (storing V sortedKeys) (world.stores device)).foldl
    (upsert serverNowMs) world.table) (world.stores device)
    (pushItems (storing V sortedKeys) (world.stores device)) walk key
  constructor
  · rw [writes]
    exact held
  · rw [writes, List.pairwise_cons]
    refine ⟨fun write listed => ?_, sound.rising⟩
    obtain ⟨before, there⟩ : ∃ before, world.table[key]? = some before := by
      rw [sound.row, ← Option.isSome_iff_exists, List.isSome_head?]
      exact List.ne_nil_of_mem listed
    exact ((sound.top there).2 write listed).1.trans_lt (above before there)
  · rw [writes]
    intro write listed
    rcases List.mem_cons.mp listed with rfl | earlier
    · exact ⟨synced, positive⟩
    · exact sound.positive write earlier
  · intro other
    rw [writes]
    by_cases same : other = device
    · rw [same, stored]
      rcases left with ⟨value, entry, _⟩ | ⟨taken, there, _, value, entry⟩
      · rw [entry]
        exact fun clean => absurd (dirty.symm.trans clean) Bool.noConfusion
      · cases held.symm.trans there
        rw [value, entry]
        exact fun _ => .inr ⟨row, List.mem_cons_self, rfl, rfl⟩
    · rw [others other same]
      intro clean
      rcases sound.clean other clean with zero | ⟨write, listed, value, stamp⟩
      · exact .inl zero
      · exact .inr ⟨write, List.mem_cons_of_mem _ listed, value, stamp⟩
  · intro other
    by_cases same : other = device
    · rw [same, stored]
      rcases left with ⟨value, entry, _⟩ | ⟨_, _, _, _, entry⟩
      · rw [value, entry]
        exact sound.dirty device
      · rw [entry]
        exact fun dirty => by cases dirty
    · rw [others other same]
      exact sound.dirty other
  · intro other seen
    rw [unseen other] at seen
    cases seen

theorem soundAt_answered (sound : world.SoundAt key) (device : ι) (serverNowMs : ℤ)
    (walk : Walk (ServerItem V)) : (world.answered device serverNowMs walk).SoundAt key := by
  by_cases accepted :
      Accepts world.table (pushItems (storing V sortedKeys) (world.stores device)) key
  · exact soundAt_answered_of_accepts sound serverNowMs walk accepted
  have row := foldl_upsert_of_not_accepts serverNowMs (nodup_keys_pushItems (world.stores device))
    accepted
  have stored : (world.answered device serverNowMs walk).stores device
      = (world.stores device).reconcile (pushItems (storing V sortedKeys) (world.stores device))
        (getUserPreferences ((pushItems (storing V sortedKeys) (world.stores device)).foldl
          (upsert serverNowMs) world.table) walk) := Function.update_self _ _ _
  have pulled : ∀ other, (world.answered device serverNowMs walk).pulled other key
      = world.pulled other key := by
    intro other
    show (world.pulled other key && ¬ Accepts _ _ key) = _
    simp only [accepted, not_false_eq_true, decide_true, Bool.and_true]
  have left := reconcile_cases ((pushItems (storing V sortedKeys) (world.stores device)).foldl
    (upsert serverNowMs) world.table) (world.stores device)
    (pushItems (storing V sortedKeys) (world.stores device)) walk key
  refine sound.device device row (if_neg accepted)
    (fun other apart => ⟨Function.update_of_ne apart _ _, pulled other⟩) ?_ ?_ ?_
  all_goals rw [stored]
  all_goals rcases left with
    ⟨value, entry, _⟩ | ⟨taken, there, _, value, entry⟩
  all_goals rw [value, entry]
  · exact sound.clean device
  · exact fun _ => .inr ⟨taken, (sound.top (row.symm.trans there)).1, rfl, rfl⟩
  · exact sound.dirty device
  · exact fun dirty => by cases dirty
  · rw [pulled]
    exact sound.fresh device
  · intro _ _ other held
    cases (row.symm.trans there).symm.trans held
    exact ⟨rfl, rfl⟩

theorem soundAt_step (sound : world.SoundAt key) (event : DeviceEvent ι V) :
    (step rules world event).SoundAt key := by
  cases event with
  | edit device edited value clock => exact soundAt_edit sound device edited value clock
  | pull device walk => exact soundAt_pull sound device walk
  | push device serverNowMs walk =>
    rcases step_push_cases rules world device serverNowMs walk with same | ⟨_, taken⟩
    · rw [same]
      exact sound
    · rw [taken]
      exact soundAt_answered sound device serverNowMs walk

/-! ### An edit on top of the relay's row -/

def Edits (device : ι) (key : String) : DeviceEvent ι V → Prop
  | .edit other edited _ _ => other = device ∧ edited = key
  | _ => False

instance (device : ι) (key : String) :
    (event : DeviceEvent ι V) → Decidable (Edits device key event)
  | .edit _ _ _ _ => inferInstanceAs (Decidable (_ ∧ _))
  | .pull _ _ | .push _ _ _ => isFalse id

/-- Where the event edits a synced key on the device, the relay takes the value. -/
def Admits (rules : ValueRules V) (device : ι) : DeviceEvent ι V → Prop
  | .edit other key value _ => other = device → key ∈ syncedKeys → Admitted rules key value
  | _ => True

/-- The event is no push of the device, and no write of the key. -/
def Quiet (rules : ValueRules V) (device : ι) (key : String) (world : Devices ι V) :
    DeviceEvent ι V → Prop
  | .push other _ _ => other ≠ device ∧
      (checkItems rules (pushItems (storing V sortedKeys) (world.stores other)) = .ok () →
        ¬ Accepts world.table (pushItems (storing V sortedKeys) (world.stores other)) key)
  | _ => True

instance (device : ι) (key : String) (world : Devices ι V) :
    (event : DeviceEvent ι V) → Decidable (Quiet rules device key world event)
  | .push _ _ _ => inferInstanceAs (Decidable (_ ≠ _ ∧ (_ → ¬ Accepts _ _ _)))
  | .edit _ _ _ _ | .pull _ _ => isTrue trivial

/-- The device has an edit of the key above the relay's row. -/
def Ahead (device : ι) (key : String) (row : PreferenceRow V) (world : Devices ι V) : Prop :=
  world.table[key]? = some row ∧ ((world.stores device).entry key).dirty ∧
    row.updatedAt < ((world.stores device).entry key).updatedAtLocal

/-- Everything the device would send, the relay takes. -/
def Sendable (rules : ValueRules V) (device : ι) (world : Devices ι V) : Prop :=
  ∀ key ∈ syncedKeys, ((world.stores device).entry key).dirty →
    ∀ value, (world.stores device).value key = some value → Admitted rules key value

variable (rules world) in
theorem stores_of_edit (other : ι) (edited : String) (value : V) (clock : ℤ) (device : ι)
    (key : String) (apart : ¬ Edits device key (.edit other edited value clock : DeviceEvent ι V)) :
    ((step rules world (.edit other edited value clock)).stores device).value key
        = (world.stores device).value key ∧
      ((step rules world (.edit other edited value clock)).stores device).entry key
        = (world.stores device).entry key := by
  show ((Function.update world.stores other _) device).value key = _ ∧
    ((Function.update world.stores other _) device).entry key = _
  by_cases same : device = other
  · subst same
    have different : key ≠ edited := fun equal => apart ⟨rfl, equal.symm⟩
    rw [Function.update_self]
    exact ⟨Function.update_of_ne different _ _, Function.update_of_ne different _ _⟩
  · rw [Function.update_of_ne same]
    exact ⟨rfl, rfl⟩

variable (rules world) in
theorem stores_of_edit_self (device : ι) (key : String) (value : V) (clock : ℤ) :
    ((step rules world (.edit device key value clock)).stores device).value key = some value ∧
      ((step rules world (.edit device key value clock)).stores device).entry key
        = ⟨nextStamp ((world.stores device).entry key) clock, true⟩ := by
  show ((Function.update world.stores device _) device).value key = _ ∧
    ((Function.update world.stores device _) device).entry key = _
  rw [Function.update_self]
  exact ⟨Function.update_self _ _ _, Function.update_self _ _ _⟩

variable (rules world) in
theorem stores_of_pull (other : ι) (walk : Walk (ServerItem V)) (device : ι) (key : String) :
    (((step rules world (.pull other walk)).stores device).value key
        = (world.stores device).value key ∧
      ((step rules world (.pull other walk)).stores device).entry key
        = (world.stores device).entry key) ∨
    (((world.stores device).entry key).dirty = false ∧
      (((step rules world (.pull other walk)).stores device).entry key).dirty = false) := by
  show (((Function.update world.stores other _) device).value key = _ ∧
    ((Function.update world.stores other _) device).entry key = _) ∨ _ ∧
    (((Function.update world.stores other _) device).entry key).dirty = false
  by_cases same : device = other
  · subst same
    rw [Function.update_self, pull_storing]
    rcases pull_cases world.table (world.stores device) walk key with
      ⟨value, entry, _⟩ | ⟨row, _, newer, _, entry⟩
    · exact .inl ⟨value, entry⟩
    · rw [entry]
      exact .inr ⟨newer.2.2, rfl⟩
  · rw [Function.update_of_ne same]
    exact .inl ⟨rfl, rfl⟩

variable (rules world) in
theorem stores_of_push (other : ι) (serverNowMs : ℤ) (walk : Walk (ServerItem V)) (device : ι)
    (key : String) :
    (((step rules world (.push other serverNowMs walk)).stores device).value key
        = (world.stores device).value key ∧
      ((step rules world (.push other serverNowMs walk)).stores device).entry key
        = (world.stores device).entry key) ∨
    (device = other ∧
      (((step rules world (.push other serverNowMs walk)).stores device).entry key).dirty
        = false) := by
  rcases step_push_cases rules world other serverNowMs walk with same | ⟨_, taken⟩
  · rw [same]
    exact .inl ⟨rfl, rfl⟩
  · rw [taken]
    show (((Function.update world.stores other _) device).value key = _ ∧
      ((Function.update world.stores other _) device).entry key = _) ∨ _ ∧
      (((Function.update world.stores other _) device).entry key).dirty = false
    by_cases same : device = other
    · subst same
      rw [Function.update_self]
      rcases reconcile_cases _ (world.stores device)
        (pushItems (storing V sortedKeys) (world.stores device)) walk key with
        ⟨value, entry, _⟩ | ⟨row, _, _, _, entry⟩
      · exact .inl ⟨value, entry⟩
      · rw [entry]
        exact .inr ⟨rfl, rfl⟩
    · rw [Function.update_of_ne same]
      exact .inl ⟨rfl, rfl⟩

theorem sendable_step {device : ι} (sendable : Sendable rules device world)
    (event : DeviceEvent ι V) (admits : Admits rules device event) :
    Sendable rules device (step rules world event) := by
  have unchanged : ∀ key ∈ syncedKeys,
      (((step rules world event).stores device).value key = (world.stores device).value key ∧
        ((step rules world event).stores device).entry key = (world.stores device).entry key) →
      (((step rules world event).stores device).entry key).dirty →
      ∀ value, ((step rules world event).stores device).value key = some value →
        Admitted rules key value := by
    rintro key synced ⟨value, entry⟩
    rw [value, entry]
    exact sendable key synced
  intro key synced
  cases event with
  | edit other edited value clock =>
    by_cases own : Edits device key (.edit other edited value clock : DeviceEvent ι V)
    · obtain ⟨rfl, rfl⟩ := own
      obtain ⟨held, _⟩ := stores_of_edit_self rules world other edited value clock
      intro _ found there
      cases held.symm.trans there
      exact admits rfl synced
    · exact unchanged key synced (stores_of_edit rules world other edited value clock device key own)
  | pull other walk =>
    rcases stores_of_pull rules world other walk device key with
      same | ⟨_, clean⟩
    · exact unchanged key synced same
    · exact fun dirty => absurd (dirty.symm.trans clean) Bool.noConfusion
  | push other serverNowMs walk =>
    rcases stores_of_push rules world other serverNowMs walk device key with
      same | ⟨_, clean⟩
    · exact unchanged key synced same
    · exact fun dirty => absurd (dirty.symm.trans clean) Bool.noConfusion

/-- **A quiet event** leaves the edit above the row, and in place unless the device edits again. -/
theorem ahead_step {device : ι} {row : PreferenceRow V} (ahead : Ahead device key row world)
    (event : DeviceEvent ι V) (quiet : Quiet rules device key world event) :
    Ahead device key row (step rules world event) ∧
      (step rules world event).writes key = world.writes key ∧
      (¬ Edits device key event →
        ((step rules world event).stores device).value key = (world.stores device).value key) := by
  obtain ⟨held, dirty, above⟩ := ahead
  cases event with
  | edit other edited value clock =>
    by_cases own : Edits device key (.edit other edited value clock : DeviceEvent ι V)
    · refine ⟨⟨held, ?_⟩, rfl, fun apart => absurd own apart⟩
      obtain ⟨rfl, rfl⟩ := own
      rw [(stores_of_edit_self rules world other edited value clock).2]
      exact ⟨rfl, above.trans (lt_nextStamp _ clock)⟩
    · obtain ⟨value, entry⟩ := stores_of_edit rules world other edited value clock device key own
      refine ⟨⟨held, ?_⟩, rfl, fun _ => value⟩
      rw [entry]
      exact ⟨dirty, above⟩
  | pull other walk =>
    rcases stores_of_pull rules world other walk device key with
      ⟨value, entry⟩ | ⟨clean, _⟩
    · refine ⟨⟨held, ?_⟩, rfl, fun _ => value⟩
      rw [entry]
      exact ⟨dirty, above⟩
    · exact absurd (dirty.symm.trans clean) Bool.noConfusion
  | push other serverNowMs walk =>
    obtain ⟨foreign, unwritten⟩ := quiet
    rcases stores_of_push rules world other serverNowMs walk device key with
      ⟨value, entry⟩ | ⟨own, _⟩
    · have left : (step rules world (.push other serverNowMs walk)).table[key]? = world.table[key]? ∧
          (step rules world (.push other serverNowMs walk)).writes key = world.writes key := by
        rcases step_push_cases rules world other serverNowMs walk with same | ⟨checked, taken⟩
        · rw [same]
          exact ⟨rfl, rfl⟩
        · rw [taken]
          exact ⟨foldl_upsert_of_not_accepts serverNowMs (nodup_keys_pushItems _)
            (unwritten checked), if_neg (unwritten checked)⟩
      refine ⟨⟨left.1.trans held, ?_⟩, left.2, fun _ => value⟩
      rw [entry]
      exact ⟨dirty, above⟩
    · exact absurd own.symm foreign

/-- **Its next push is accepted.** -/
theorem push_accepted {device : ι} {row : PreferenceRow V} (synced : key ∈ syncedKeys)
    (sound : world.SoundAt key) (sendable : Sendable rules device world)
    (ahead : Ahead device key row world) (serverNowMs : ℤ) (walk : Walk (ServerItem V)) :
    ∃ after, (step rules world (.push device serverNowMs walk)).writes key
        = after :: world.writes key ∧
      (world.stores device).value key = some after.value := by
  obtain ⟨held, dirty, above⟩ := ahead
  obtain ⟨value, there⟩ := Option.isSome_iff_exists.mp (sound.dirty device dirty).2
  have sent : (⟨key, value, ((world.stores device).entry key).updatedAtLocal⟩ : ClientItem V) ∈
      pushItems (storing V sortedKeys) (world.stores device) :=
    (mem_pushItems_iff _ _).mpr ⟨synced, dirty, there, rfl⟩
  have accepted :
      Accepts world.table (pushItems (storing V sortedKeys) (world.stores device)) key := by
    refine ⟨_, sent, rfl, fun before found => ?_⟩
    cases held.symm.trans found
    exact above
  have checked : checkItems rules (pushItems (storing V sortedKeys) (world.stores device))
      = .ok () := by
    refine checkItems_of_admitted fun item member => ?_
    obtain ⟨named, edited, stored, _⟩ := (mem_pushItems_iff _ item).mp member
    exact sendable item.key named edited item.value stored
  rw [step_push_of_ok (List.ne_nil_of_mem sent) checked]
  obtain ⟨after, _, writes, stored, _⟩ := answered_of_accepts serverNowMs walk accepted
  exact ⟨after, writes, stored⟩

theorem sendable_run {device : ι} {events : List (DeviceEvent ι V)}
    (sendable : Sendable rules device world) (admits : ∀ event ∈ events, Admits rules device event) :
    Sendable rules device (run (step rules) world events) := by
  induction events generalizing world with
  | nil => exact sendable
  | cons event rest ih =>
    rw [List.forall_mem_cons] at admits
    exact ih (sendable_step sendable event admits.1) admits.2

theorem ahead_run {device : ι} {row : PreferenceRow V} {between : List (DeviceEvent ι V)}
    (ahead : Ahead device key row world)
    (quiet : Meets (step rules) (Quiet rules device key) world between) :
    Ahead device key row (run (step rules) world between) ∧
      (run (step rules) world between).writes key = world.writes key ∧
      ((∀ event ∈ between, ¬ Edits device key event) →
        ((run (step rules) world between).stores device).value key
          = (world.stores device).value key) := by
  induction between generalizing world with
  | nil => exact ⟨ahead, rfl, fun _ => rfl⟩
  | cons event rest ih =>
    obtain ⟨next, writes, value⟩ := ahead_step ahead event quiet.1
    obtain ⟨last, later, kept⟩ := ih next quiet.2
    refine ⟨last, later.trans writes, fun apart => ?_⟩
    rw [List.forall_mem_cons] at apart
    exact (kept apart.2).trans (value apart.1)

end Steps

/-- The row of a key is the last accepted write, and the accepted writes rise. -/
def Rising (world : Devices ι V) : Prop :=
  ∀ key, world.table[key]? = (world.writes key).head? ∧
    (world.writes key).Pairwise fun later earlier => earlier.updatedAt < later.updatedAt

/-- Once no device has an edit of a key and all have pulled since the last write of it, all hold the
relay's value. -/
def Agreed (world : Devices ι V) : Prop :=
  ∀ key row, world.table[key]? = some row →
    (∀ device, ((world.stores device).entry key).dirty = false) →
    (∀ device, world.pulled device key) →
    ∀ device, (world.stores device).value key = some row.value

/-- **The devices converge.** Accepted stamps rise, devices that have all pulled agree, and an edit
made on top of the relay's row is accepted by the next push, unless another write comes between. -/
theorem devices_converge [DecidableEq ι] (rules : ValueRules V) (value : ι → String → Option V)
    (events : List (DeviceEvent ι V)) :
    (run (step rules) (start value) events).Rising ∧
      (run (step rules) (start value) events).Agreed ∧
      ∀ device, ∀ key ∈ syncedKeys, ∀ row edit clock between serverNowMs walk,
        (run (step rules) (start value) events).table[key]? = some row →
        (((run (step rules) (start value) events).stores device).entry key).updatedAtLocal
          = row.updatedAt →
        (∀ event ∈ events ++ .edit device key edit clock :: between, Admits rules device event) →
        Meets (step rules) (Quiet rules device key)
          (run (step rules) (start value) (events ++ [.edit device key edit clock])) between →
        ∃ after, (run (step rules) (start value)
            (events ++ .edit device key edit clock :: between
              ++ [.push device serverNowMs walk])).writes key
          = after :: (run (step rules) (start value) events).writes key ∧
          ((∀ event ∈ between, ¬ Edits device key event) → after.value = edit) := by
  have sound : ∀ key events, (run (step rules) (start value) events).SoundAt key := fun key =>
    run_invariant (SoundAt · key) (fun _ event sound => soundAt_step sound event)
      (soundAt_start value key)
  refine ⟨fun key => ⟨(sound key events).row, (sound key events).rising⟩, ?_, ?_⟩
  · intro key row held clean pulled device
    exact ((sound key events).fresh device (pulled device) (clean device) row held).1
  · intro device key synced row edit clock between serverNowMs walk held stamp admits quiet
    have latest : Ahead device key row
        (run (step rules) (start value) (events ++ [.edit device key edit clock])) := by
      rw [run_append]
      refine ⟨held, ?_⟩
      show (((step rules _ (.edit device key edit clock)).stores device).entry key).dirty ∧
        _ < (((step rules _ (.edit device key edit clock)).stores device).entry key).updatedAtLocal
      rw [(stores_of_edit_self rules _ device key edit clock).2, ← stamp]
      exact ⟨rfl, lt_nextStamp _ clock⟩
    obtain ⟨ahead, writes, kept⟩ := ahead_run latest quiet
    rw [← run_append, List.append_assoc, List.singleton_append] at ahead writes kept
    have sendable : Sendable rules device
        (run (step rules) (start value) (events ++ .edit device key edit clock :: between)) :=
      sendable_run (fun _ _ dirty => by cases dirty) admits
    obtain ⟨after, last, there⟩ :=
      push_accepted synced (sound key _) sendable ahead serverNowMs walk
    refine ⟨after, ?_, fun apart => ?_⟩
    · rw [run_append]
      refine last.trans (congrArg (after :: ·) (writes.trans ?_))
      rw [run_append]
      rfl
    · have stored := there.symm.trans (kept apart)
      rw [run_append] at stored
      exact Option.some.inj
        (stored.trans (stores_of_edit_self rules _ device key edit clock).1)

section Sample

/-- One device writes 14 under a relay clock that is ahead, the other pulls it. -/
def pulledSample : List (DeviceEvent Bool ℕ) :=
  [.edit true "terminal_font_size" 14 100, .push true 1000 (.straight _), .pull false (.straight _)]

/-- The other device edits on top with its clock behind, the first one pushes another key, and the
edit is accepted. -/
theorem devices_converge_sample : ∃ after,
    (run (step plainRules) (start fun _ _ => none) (pulledSample ++
      .edit false "terminal_font_size" 16 50 :: [.edit true "terminal_theme" 3 7,
        .push true 1001 (.straight _)] ++ [.push false 900 (.straight _)])).writes "terminal_font_size"
      = after :: [⟨14, 1000⟩] ∧ after.value = 16 := by
  have admits : ∀ event ∈ pulledSample ++ .edit false "terminal_font_size" 16 50 ::
      [.edit true "terminal_theme" 3 7, .push true 1001 (.straight _)],
      Admits plainRules false event := by
    intro event member
    cases event with
    | edit device key value clock =>
      exact fun _ synced => admitted_plain synced
    | pull device walk => trivial
    | push device serverNowMs walk => trivial
  obtain ⟨after, writes, value⟩ := (devices_converge plainRules (fun _ _ => none) pulledSample).2.2
    false "terminal_font_size" (by decide) ⟨14, 1000⟩ 16 50
    [.edit true "terminal_theme" 3 7, .push true 1001 (.straight _)] 900 (.straight _)
    (by decide) (by decide) admits (by decide)
  refine ⟨after, writes.trans (congrArg (after :: ·) ?_), value (by decide)⟩
  decide

end Sample

end Devices

end Atterm.Prefs
