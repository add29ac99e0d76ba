/-
**The engine of the mobile client.**

The mobile client has an engine of its own. It stamps an edit with the clock as it is, and takes every
row the relay answers a push with. The desktop raises the stamp above the last one, and leaves a key
alone that was edited while the push was under way.

* `Mirror.pull`, `Mirror.markDirty`, `Mirror.push` — its code;
* `Pair`, `Pair.step` — both engines on one schedule;
* `engines_agree_iff` — the schedules on which they do.
-/

import Atterm.Prefs.Engine
import Atterm.Foundation.Runs

namespace Atterm.Prefs

open Atterm.Foundation

namespace Mirror

def syncedKeys : List String :=
  ["locale_preference", "traffic_time_zone", "quick_templates", "notifications_enabled",
    "ai_notifications_only", "command_notify_threshold_seconds", "shell_integration_enabled",
    "pinned_session_ids"]

section Engine

variable {σ V : Type} (A : Adapter σ V)

/-- `pull`, from the relay's answer on. The first row that cannot be written stops it. -/
def pull : σ → List (ServerItem V) → Option String × σ
  | state, [] => (none, state)
  | state, item :: rest =>
    let held := A.readMeta state item.key
    if item.updatedAt > held.updatedAtLocal then
      if held.dirty then pull state rest
      else
        match A.writeValue state item.key item.value with
        | (some error, state) => (some error, state)
        | (none, state) =>
          match A.writeMeta state item.key ⟨item.updatedAt, false⟩ with
          | (some error, state) => (some error, state)
          | (none, state) => pull state rest
    else pull state rest

def markDirty (state : σ) (key : String) (updatedAtLocal : ℤ) : σ :=
  (A.writeMeta state key ⟨updatedAtLocal, true⟩).2

def pushItem (state : σ) (key : String) : Option (ClientItem V) :=
  if ¬ (A.readMeta state key).dirty then none
  else (A.readValue state key).map fun value => ⟨key, value, (A.readMeta state key).updatedAtLocal⟩

def pushItems (state : σ) : List (ClientItem V) := A.keys.filterMap (pushItem A state)

/-- `push`, from the relay's answer on. -/
def reconcile : σ → List (ServerItem V) → Option String × σ
  | state, [] => (none, state)
  | state, item :: rest =>
    match A.writeValue state item.key item.value with
    | (some error, state) => (some error, state)
    | (none, state) =>
      match A.writeMeta state item.key ⟨item.updatedAt, false⟩ with
      | (some error, state) => (some error, state)
      | (none, state) => reconcile state rest

end Engine

theorem syncedKeys_shared : ∀ key ∈ syncedKeys, key ∈ Prefs.syncedKeys := by decide

section Storing

variable {V : Type} {keys : List String}

theorem reconcile_storing (store : Store V) (rows : List (ServerItem V)) :
    reconcile (storing V keys) store rows = (none, rows.foldl Store.adopt store) := by
  induction rows generalizing store with
  | nil => rfl
  | cons row rest ih => exact ih (store.adopt row)

/-- A row of a pull is adopted if it is newer and the key was not edited. -/
def Newer (store : Store V) (item : ServerItem V) : Prop :=
  (store.entry item.key).updatedAtLocal < item.updatedAt ∧ (store.entry item.key).dirty = false

instance (store : Store V) (item : ServerItem V) : Decidable (Newer store item) :=
  inferInstanceAs (Decidable (_ ∧ _))

theorem pull_storing (store : Store V) (rows : List (ServerItem V)) :
    pull (storing V keys) store rows = (none,
      rows.foldl (fun store row => if Newer store row then store.adopt row else store) store) := by
  induction rows generalizing store with
  | nil => rfl
  | cons row rest ih =>
    rw [pull, List.foldl_cons]
    by_cases newer : (store.entry row.key).updatedAtLocal < row.updatedAt
    · by_cases dirty : (store.entry row.key).dirty
      · have kept : ¬ Newer store row := fun takes => absurd dirty (Bool.eq_false_iff.mp takes.2)
        rw [if_neg kept]
        exact ((if_pos newer).trans (if_pos dirty)).trans (ih store)
      · have taken : Newer store row := ⟨newer, Bool.eq_false_iff.mpr dirty⟩
        rw [if_pos taken]
        exact ((if_pos newer).trans (if_neg dirty)).trans (ih (store.adopt row))
    · have kept : ¬ Newer store row := fun takes => newer takes.1
      rw [if_neg kept]
      exact (if_neg newer).trans (ih store)

theorem mem_pushItems_iff (store : Store V) (item : ClientItem V) :
    item ∈ pushItems (storing V syncedKeys) store ↔ item.key ∈ syncedKeys ∧
      (store.entry item.key).dirty ∧ store.value item.key = some item.value ∧
      (store.entry item.key).updatedAtLocal = item.clientUpdatedAt := by
  have one : ∀ key, pushItem (storing V syncedKeys) store key = some item ↔ key = item.key ∧
      (store.entry key).dirty ∧ store.value key = some item.value ∧
        (store.entry key).updatedAtLocal = item.clientUpdatedAt := by
    intro key
    unfold pushItem
    by_cases dirty : (store.entry key).dirty
    · simp only [storing, dirty, not_true_eq_false, if_false, Option.map_eq_some_iff, true_and]
      constructor
      · rintro ⟨value, held, rfl⟩
        exact ⟨rfl, held, rfl⟩
      · rintro ⟨rfl, held, stamp⟩
        exact ⟨item.value, held, by rw [stamp]⟩
    · simp [storing, dirty]
  unfold pushItems
  rw [List.mem_filterMap]
  constructor
  · rintro ⟨key, listed, sent⟩
    obtain ⟨rfl, rest⟩ := (one key).mp sent
    exact ⟨listed, rest⟩
  · rintro ⟨listed, rest⟩
    exact ⟨item.key, listed, (one item.key).mpr ⟨rfl, rest⟩⟩

theorem take_of_notMem {rows : List (ServerItem V)} {key : String}
    (absent : key ∉ rows.map ServerItem.key) (store : Store V) :
    (rows.foldl Store.adopt store).value key = store.value key ∧
      (rows.foldl Store.adopt store).entry key = store.entry key :=
  foldl_adopt_of_notMem (fun _ _ => True) absent store

theorem take_of_mem {rows : List (ServerItem V)} (distinct : (rows.map ServerItem.key).Nodup)
    {row : ServerItem V} (member : row ∈ rows) (store : Store V) :
    (rows.foldl Store.adopt store).value row.key = some row.value ∧
      (rows.foldl Store.adopt store).entry row.key = ⟨row.updatedAt, false⟩ :=
  foldl_adopt_of_mem (fun _ _ => True) (fun _ _ _ _ _ => Iff.rfl) distinct member store

end Storing

end Mirror

/-! ### Both engines on one schedule -/

/-- What the relay answers: at most one row of each key. -/
def Response (V : Type) : Type := {rows : List (ServerItem V) // (rows.map ServerItem.key).Nodup}

/-- What happens to a client: an edit of a key both sync, a push, the answer to it, or a pull. Edits
come at any point, also while a push waits for its answer. -/
inductive Call (V : Type) where
  | edit (key : String) (shared : key ∈ Mirror.syncedKeys) (value : V) (clock : ℤ)
  | push
  | answer (response : Response V)
  | pull (response : Response V)

/-- A client: what it holds and the push that waits for its answer. -/
structure Client (V : Type) where
  store : Store V
  waiting : Option (List (ClientItem V))

section Step

variable {V : Type}

def Client.desktopStep (client : Client V) : Call V → Client V
  | .edit key _ value clock =>
    { client with
      store := markDirty (storing V sortedKeys)
        ((storing V sortedKeys).writeValue client.store key value).2 key clock }
  | .push =>
    if client.waiting.isSome then client
    else
      let items := pushItems (storing V sortedKeys) client.store
      if items = [] then client else { client with waiting := some items }
  | .answer response =>
    match client.waiting with
    | none => client
    | some items => ⟨(reconcile (storing V sortedKeys) items client.store response.1).2, none⟩
  | .pull response =>
    if client.waiting.isSome then client
    else { client with store := (pull (storing V sortedKeys) client.store response.1).2 }

def Client.mobileStep (client : Client V) : Call V → Client V
  | .edit key _ value clock =>
    { client with
      store := Mirror.markDirty (storing V Mirror.syncedKeys)
        ((storing V Mirror.syncedKeys).writeValue client.store key value).2 key clock }
  | .push =>
    if client.waiting.isSome then client
    else
      let items := Mirror.pushItems (storing V Mirror.syncedKeys) client.store
      if items = [] then client else { client with waiting := some items }
  | .answer response =>
    match client.waiting with
    | none => client
    | some _ => ⟨(Mirror.reconcile (storing V Mirror.syncedKeys) client.store response.1).2, none⟩
  | .pull response =>
    if client.waiting.isSome then client
    else
      { client with store := (Mirror.pull (storing V Mirror.syncedKeys) client.store response.1).2 }

structure Pair (V : Type) where
  desktop : Client V
  mobile : Client V
  /-- The keys edited since the last push was sent. -/
  touched : List String

namespace Pair

/-- Both start with the same values and stamps of the keys both sync, and no other key is edited. -/
def start (value : String → Option V) (entry : String → Meta) : Pair V :=
  let store : Store V := ⟨value, fun key =>
    if key ∈ Mirror.syncedKeys then entry key else ⟨(entry key).updatedAtLocal, false⟩⟩
  ⟨⟨store, none⟩, ⟨store, none⟩, []⟩

def step (pair : Pair V) (call : Call V) : Pair V where
  desktop := pair.desktop.desktopStep call
  mobile := pair.mobile.mobileStep call
  touched := match call with
    | .edit key _ _ _ => key :: pair.touched
    | .push => if pair.desktop.waiting.isSome then pair.touched else []
    | _ => pair.touched

/-- Both hold the same for every key both sync. -/
def Agree (first second : Store V) : Prop :=
  ∀ key ∈ Mirror.syncedKeys, first.value key = second.value key ∧ first.entry key = second.entry key

/-- Neither takes an answer for a key that was edited while the push was under way. -/
def Spared (pair : Pair V) : Call V → Prop
  | .answer response => ∀ key ∈ pair.touched,
      (pair.step (.answer response)).desktop.store.value key = pair.desktop.store.value key ∧
      (pair.step (.answer response)).desktop.store.entry key = pair.desktop.store.entry key ∧
      (pair.step (.answer response)).mobile.store.value key = pair.mobile.store.value key ∧
      (pair.step (.answer response)).mobile.store.entry key = pair.mobile.store.entry key
  | _ => True

/-- The step leaves every key both sync the same, and no edit overwritten. -/
def Alike (pair : Pair V) (call : Call V) : Prop :=
  Agree (pair.step call).desktop.store (pair.step call).mobile.store ∧ pair.Spared call

/-- An edit comes after the stamp of its key, and a row answers a push for a key as it was sent, or
says what the client holds. -/
def Together (pair : Pair V) : Call V → Prop
  | .edit key _ _ clock => (pair.desktop.store.entry key).updatedAtLocal < clock
  | .answer response => ∀ items ∈ pair.desktop.waiting, ∀ row ∈ response.1,
      row.key ∈ Mirror.syncedKeys →
      ((pair.desktop.store.entry row.key).updatedAtLocal = sentAt items row.key ∧
          row.key ∉ pair.touched) ∨
        (pair.desktop.store.entry row.key = ⟨row.updatedAt, false⟩ ∧
          pair.desktop.store.value row.key = some row.value)
  | _ => True

/-! ### One step -/

section Facts

variable {pair : Pair V}

/-- **What the two keep** as long as they agree. -/
structure Sound (pair : Pair V) : Prop where
  agree : Agree pair.desktop.store pair.mobile.store
  others : ∀ key ∉ Mirror.syncedKeys, (pair.desktop.store.entry key).dirty = false
  waiting : pair.desktop.waiting.isSome = pair.mobile.waiting.isSome
  touched : pair.desktop.waiting.isSome → ∀ key ∈ pair.touched,
    key ∈ Mirror.syncedKeys ∧ (pair.desktop.store.entry key).dirty

theorem agree_edit {desktop mobile : Store V} (agree : Agree desktop mobile) {key : String}
    (shared : key ∈ Mirror.syncedKeys) (value : V) (clock : ℤ) :
    Agree (desktop.edit key value clock)
        ⟨Function.update mobile.value key (some value),
          Function.update mobile.entry key ⟨clock, true⟩⟩ ↔
      (desktop.entry key).updatedAtLocal < clock := by
  constructor
  · intro after
    have same := (after key shared).2
    simp only [Store.edit, Function.update_self, Meta.mk.injEq, and_true] at same
    rw [← same]
    exact lt_nextStamp _ clock
  · intro ahead name listed
    by_cases same : name = key
    · subst same
      simp only [Store.edit, Function.update_self, nextStamp, if_neg (not_le.mpr ahead), and_self]
    · simp only [Store.edit, Function.update_of_ne same]
      exact agree name listed

theorem agree_pull {desktop mobile : Store V} (agree : Agree desktop mobile)
    (rows : List (ServerItem V)) : Agree (desktop.pull rows)
      (rows.foldl (fun store row => if Mirror.Newer store row then store.adopt row else store)
        mobile) := by
  unfold Store.pull
  induction rows generalizing desktop mobile with
  | nil => exact agree
  | cons row rest ih =>
    rw [List.foldl_cons, List.foldl_cons]
    refine ih fun key shared => ?_
    by_cases own : key = row.key
    · subst own
      have newer : desktop.Newer row ↔ Mirror.Newer mobile row := by
        unfold Store.Newer Mirror.Newer
        rw [(agree row.key shared).2]
        exact and_iff_right (Mirror.syncedKeys_shared row.key shared)
      by_cases taken : Mirror.Newer mobile row
      · rw [if_pos taken, if_pos (newer.mpr taken)]
        rw [(adopt_self desktop row).1, (adopt_self desktop row).2]
        exact ⟨(adopt_self mobile row).1.symm, (adopt_self mobile row).2.symm⟩
      · rw [if_neg taken, if_neg (mt newer.mp taken)]
        exact agree row.key shared
    · have left : ∀ (store : Store V) (takes : Prop) [Decidable takes],
          (if takes then store.adopt row else store).value key = store.value key ∧
            (if takes then store.adopt row else store).entry key = store.entry key := by
        intro store takes _
        by_cases taken : takes
        · rw [if_pos taken]
          exact adopt_of_ne store own
        · rw [if_neg taken]
          exact ⟨rfl, rfl⟩
      rw [(left desktop _).1, (left desktop _).2, (left mobile _).1, (left mobile _).2]
      exact agree key shared

/-- **An answer** keeps them the same and spares the edits exactly if its rows do. -/
theorem agree_answer {desktop mobile : Store V} (agree : Agree desktop mobile)
    {touched : List String}
    (edited : ∀ key ∈ touched, key ∈ Mirror.syncedKeys ∧ (desktop.entry key).dirty)
    (items : List (ClientItem V)) (response : Response V) :
    (Agree (desktop.reconcile items response.1) (response.1.foldl Store.adopt mobile) ∧
      ∀ key ∈ touched, (desktop.reconcile items response.1).value key = desktop.value key ∧
        (desktop.reconcile items response.1).entry key = desktop.entry key ∧
        (response.1.foldl Store.adopt mobile).value key = mobile.value key ∧
        (response.1.foldl Store.adopt mobile).entry key = mobile.entry key) ↔
    ∀ row ∈ response.1, row.key ∈ Mirror.syncedKeys →
      ((desktop.entry row.key).updatedAtLocal = sentAt items row.key ∧ row.key ∉ touched) ∨
        (desktop.entry row.key = ⟨row.updatedAt, false⟩ ∧
          desktop.value row.key = some row.value) := by
  constructor
  · rintro ⟨after, spared⟩ row member shared
    obtain ⟨value, entry⟩ := Mirror.take_of_mem response.2 member mobile
    by_cases untouched : row.key ∈ touched
    · have dirty := (edited row.key untouched).2
      rw [(agree row.key shared).2, ← (spared row.key untouched).2.2.2, entry] at dirty
      cases dirty
    · by_cases same : (desktop.entry row.key).updatedAtLocal = sentAt items row.key
      · exact .inl ⟨same, untouched⟩
      · obtain ⟨kept, stamp⟩ := reconcile_of_mem response.2 member desktop items
        rw [if_neg same] at kept stamp
        rw [← kept, ← stamp, (after row.key shared).1, (after row.key shared).2]
        exact .inr ⟨entry, value⟩
  · intro rows
    have free : ∀ key ∈ touched, key ∉ response.1.map ServerItem.key := by
      intro key listed named
      obtain ⟨row, member, rfl⟩ := List.mem_map.mp named
      obtain ⟨shared, dirty⟩ := edited row.key listed
      rcases rows row member shared with ⟨_, untouched⟩ | ⟨clean, _⟩
      · exact untouched listed
      · rw [clean] at dirty
        cases dirty
    refine ⟨fun key shared => ?_, fun key listed => ?_⟩
    · by_cases named : key ∈ response.1.map ServerItem.key
      · obtain ⟨row, member, rfl⟩ := List.mem_map.mp named
        obtain ⟨value, entry⟩ := Mirror.take_of_mem response.2 member mobile
        obtain ⟨kept, stamp⟩ := reconcile_of_mem response.2 member desktop items
        rw [value, entry, kept, stamp]
        by_cases same : (desktop.entry row.key).updatedAtLocal = sentAt items row.key
        · rw [if_pos same, if_pos same]
          exact ⟨rfl, rfl⟩
        · rw [if_neg same, if_neg same]
          rcases rows row member shared with ⟨sent, _⟩ | ⟨clean, held⟩
          · exact absurd sent same
          · exact ⟨held, clean⟩
      · rw [(reconcile_of_notMem named desktop items).1, (reconcile_of_notMem named desktop items).2,
          (Mirror.take_of_notMem named mobile).1, (Mirror.take_of_notMem named mobile).2]
        exact agree key shared
    · obtain ⟨kept, stamp⟩ := reconcile_of_notMem (free key listed) desktop items
      exact ⟨kept, stamp, Mirror.take_of_notMem (free key listed) mobile⟩

/-- **A step is alike exactly if it is one on which they are together.** -/
theorem alike_iff_together (sound : pair.Sound) (call : Call V) :
    pair.Alike call ↔ pair.Together call := by
  cases call with
  | edit key shared value clock =>
    refine Iff.trans (and_iff_left trivial) ?_
    exact agree_edit sound.agree shared value clock
  | push =>
    have stores : (pair.step .push).desktop.store = pair.desktop.store ∧
        (pair.step .push).mobile.store = pair.mobile.store := by
      constructor
      · show (if _ then _ else if _ then _ else _ : Client V).store = _
        split_ifs
        all_goals rfl
      · show (if _ then _ else if _ then _ else _ : Client V).store = _
        split_ifs
        all_goals rfl
    refine ⟨fun _ => trivial, fun _ => ⟨?_, trivial⟩⟩
    rw [stores.1, stores.2]
    exact sound.agree
  | pull response =>
    refine ⟨fun _ => trivial, fun _ => ⟨?_, trivial⟩⟩
    show Agree (if pair.desktop.waiting.isSome then pair.desktop else _ : Client V).store
      (if pair.mobile.waiting.isSome then pair.mobile else _ : Client V).store
    rw [← sound.waiting]
    by_cases busy : pair.desktop.waiting.isSome
    · rw [if_pos busy, if_pos busy]
      exact sound.agree
    · rw [if_neg busy, if_neg busy]
      show Agree (Prefs.pull (storing V sortedKeys) pair.desktop.store response.1).2
        (Mirror.pull (storing V Mirror.syncedKeys) pair.mobile.store response.1).2
      rw [pull_storing, Mirror.pull_storing]
      exact agree_pull sound.agree response.1
  | answer response =>
    cases waits : pair.desktop.waiting with
    | none =>
      have idle : pair.mobile.waiting = none := by
        rw [← Option.not_isSome_iff_eq_none, ← sound.waiting, waits]
        exact Bool.false_ne_true
      have desktop : (pair.step (.answer response)).desktop = pair.desktop := by
        simp only [step, Client.desktopStep, waits]
      have mobile : (pair.step (.answer response)).mobile = pair.mobile := by
        simp only [step, Client.mobileStep, idle]
      refine ⟨fun _ items member => ?_, fun _ => ⟨?_, fun key _ => ?_⟩⟩
      · rw [waits] at member
        cases member
      · rw [desktop, mobile]
        exact sound.agree
      · rw [desktop, mobile]
        exact ⟨rfl, rfl, rfl, rfl⟩
    | some items =>
      obtain ⟨others, busy⟩ : ∃ others, pair.mobile.waiting = some others := by
        rw [← Option.isSome_iff_exists, ← sound.waiting, waits]
        rfl
      have desktop : (pair.step (.answer response)).desktop.store
          = pair.desktop.store.reconcile items response.1 := by
        simp only [step, Client.desktopStep, waits, reconcile_storing]
      have mobile : (pair.step (.answer response)).mobile.store
          = response.1.foldl Store.adopt pair.mobile.store := by
        simp only [step, Client.mobileStep, busy, Mirror.reconcile_storing]
      have edited := sound.touched (waits ▸ rfl)
      unfold Alike Spared Together
      simp only [desktop, mobile, waits, Option.mem_some_iff, forall_eq']
      exact agree_answer sound.agree edited items response

theorem clean_foldl_adopt (takes : Store V → ServerItem V → Prop)
    [∀ store item, Decidable (takes store item)] (rows : List (ServerItem V)) {store : Store V}
    {key : String} (clean : (store.entry key).dirty = false) :
    ((rows.foldl (fun store row => if takes store row then store.adopt row else store) store).entry
      key).dirty = false := by
  induction rows generalizing store with
  | nil => exact clean
  | cons row rest ih =>
    rw [List.foldl_cons]
    refine ih ?_
    by_cases taken : takes store row
    · rw [if_pos taken]
      by_cases same : key = row.key
      · rw [same, (adopt_self store row).2]
      · rw [(adopt_of_ne store same).2]
        exact clean
    · rw [if_neg taken]
      exact clean

theorem mem_pushItems_iff_mobile (sound : pair.Sound) (item : ClientItem V) :
    item ∈ pushItems (storing V sortedKeys) pair.desktop.store ↔
      item ∈ Mirror.pushItems (storing V Mirror.syncedKeys) pair.mobile.store := by
  rw [mem_pushItems_iff, Mirror.mem_pushItems_iff]
  by_cases shared : item.key ∈ Mirror.syncedKeys
  · rw [(sound.agree item.key shared).1, (sound.agree item.key shared).2]
    simp only [shared, Mirror.syncedKeys_shared item.key shared]
  · constructor
    · rintro ⟨_, dirty, _⟩
      exact absurd dirty (Bool.eq_false_iff.mp (sound.others item.key shared))
    · exact fun sent => absurd sent.1 shared

theorem sound_step (sound : pair.Sound) (call : Call V)
    (agree : Agree (pair.step call).desktop.store (pair.step call).mobile.store) :
    (pair.step call).Sound := by
  cases call with
  | edit key shared value clock =>
    have entry : ∀ name, name ≠ key →
        (pair.step (.edit key shared value clock)).desktop.store.entry name
          = pair.desktop.store.entry name := fun name apart => Function.update_of_ne apart _ _
    refine ⟨agree, fun name foreign => ?_, sound.waiting, fun busy name listed => ?_⟩
    · rw [entry name fun same => foreign (same ▸ shared)]
      exact sound.others name foreign
    · by_cases same : name = key
      · subst same
        refine ⟨shared, ?_⟩
        show (Function.update pair.desktop.store.entry name _ name).dirty
        rw [Function.update_self]
      · rw [entry name same]
        exact sound.touched busy name ((List.mem_cons.mp listed).resolve_left same)
  | push =>
    by_cases busy : pair.desktop.waiting.isSome
    · have other : pair.mobile.waiting.isSome := sound.waiting ▸ busy
      have same : pair.step .push = pair := by
        simp only [step, Client.desktopStep, Client.mobileStep, if_pos busy, if_pos other]
      rw [same]
      exact sound
    · have other : ¬ pair.mobile.waiting.isSome := sound.waiting ▸ busy
      have empty : pushItems (storing V sortedKeys) pair.desktop.store = [] ↔
          Mirror.pushItems (storing V Mirror.syncedKeys) pair.mobile.store = [] := by
        rw [List.eq_nil_iff_forall_not_mem, List.eq_nil_iff_forall_not_mem]
        exact forall_congr' fun item => not_congr (mem_pushItems_iff_mobile sound item)
      have desktop : (pair.step .push).desktop
          = if pushItems (storing V sortedKeys) pair.desktop.store = [] then pair.desktop
            else ⟨pair.desktop.store, some (pushItems (storing V sortedKeys) pair.desktop.store)⟩ :=
        if_neg busy
      have mobile : (pair.step .push).mobile
          = if Mirror.pushItems (storing V Mirror.syncedKeys) pair.mobile.store = [] then pair.mobile
            else ⟨pair.mobile.store,
              some (Mirror.pushItems (storing V Mirror.syncedKeys) pair.mobile.store)⟩ :=
        if_neg other
      have touched : (pair.step .push).touched = [] := if_neg busy
      by_cases nothing : pushItems (storing V sortedKeys) pair.desktop.store = []
      · rw [if_pos nothing] at desktop
        rw [if_pos (empty.mp nothing)] at mobile
        refine ⟨agree, ?_, ?_, ?_⟩
        · rw [desktop]
          exact sound.others
        · rw [desktop, mobile]
          exact sound.waiting
        · rw [touched]
          exact fun _ _ listed => by cases listed
      · rw [if_neg nothing] at desktop
        rw [if_neg (mt empty.mpr nothing)] at mobile
        refine ⟨agree, ?_, ?_, ?_⟩
        · rw [desktop]
          exact sound.others
        · rw [desktop, mobile]
          rfl
        · rw [touched]
          exact fun _ _ listed => by cases listed
  | answer response =>
    have free : (pair.step (.answer response)).desktop.waiting = none ∧
        (pair.step (.answer response)).mobile.waiting = none := by
      show (pair.desktop.desktopStep _).waiting = none ∧ (pair.mobile.mobileStep _).waiting = none
      constructor
      · unfold Client.desktopStep
        cases waits : pair.desktop.waiting with
        | none => exact waits
        | some items => rfl
      · unfold Client.mobileStep
        cases waits : pair.mobile.waiting with
        | none => exact waits
        | some items => rfl
    refine ⟨agree, fun key foreign => ?_, by rw [free.1, free.2], fun busy => ?_⟩
    · show ((pair.desktop.desktopStep (.answer response)).store.entry key).dirty = false
      unfold Client.desktopStep
      cases waits : pair.desktop.waiting with
      | none => exact sound.others key foreign
      | some items =>
        simp only [reconcile_storing]
        exact clean_foldl_adopt _ response.1 (sound.others key foreign)
    · rw [free.1] at busy
      cases busy
  | pull response =>
    by_cases busy : pair.desktop.waiting.isSome
    · have other : pair.mobile.waiting.isSome := sound.waiting ▸ busy
      have same : pair.step (.pull response) = pair := by
        simp only [step, Client.desktopStep, Client.mobileStep, if_pos busy, if_pos other]
      rw [same]
      exact sound
    · have other : ¬ pair.mobile.waiting.isSome := sound.waiting ▸ busy
      have desktop : (pair.step (.pull response)).desktop
          = { pair.desktop with store := pair.desktop.store.pull response.1 } := by
        simp only [step, Client.desktopStep, if_neg busy, pull_storing]
      have mobile : (pair.step (.pull response)).mobile.waiting = pair.mobile.waiting := by
        simp only [step, Client.mobileStep, if_neg other]
      refine ⟨agree, fun key foreign => ?_, ?_, fun waits => ?_⟩
      · rw [desktop]
        exact clean_foldl_adopt _ response.1 (sound.others key foreign)
      · rw [desktop, mobile]
        exact sound.waiting
      · rw [desktop] at waits
        exact absurd waits busy

end Facts

theorem sound_start (value : String → Option V) (entry : String → Meta) :
    (start value entry).Sound where
  agree := fun _ _ => ⟨rfl, rfl⟩
  others := fun key foreign => by
    show (if key ∈ Mirror.syncedKeys then entry key else _ : Meta).dirty = false
    rw [if_neg foreign]
  waiting := rfl
  touched := fun busy => by cases busy

/-- **The engines agree on a schedule, at every point of it, exactly if every step is one on which
they are together.** -/
theorem engines_agree_iff (value : String → Option V) (entry : String → Meta)
    (schedule : List (Call V)) :
    Meets step Alike (start value entry) schedule ↔
      Meets step Together (start value entry) schedule := by
  have all : ∀ pair : Pair V, pair.Sound →
      (Meets step Alike pair schedule ↔ Meets step Together pair schedule) := by
    induction schedule with
    | nil => exact fun _ _ => Iff.rfl
    | cons call rest ih =>
      intro pair sound
      constructor
      · rintro ⟨alike, later⟩
        exact ⟨(alike_iff_together sound call).mp alike,
          (ih _ (sound_step sound call alike.1)).mp later⟩
      · rintro ⟨together, later⟩
        have alike := (alike_iff_together sound call).mpr together
        exact ⟨alike, (ih _ (sound_step sound call alike.1)).mpr later⟩
  exact all _ (sound_start value entry)

section Sample

/-- An edit while a push is under way, and the answer to the push. -/
def editedInFlight : List (Call ℕ) :=
  [.edit "locale_preference" (by decide) 1 100, .push, .edit "locale_preference" (by decide) 2 101,
    .answer ⟨[⟨"locale_preference", 1, 1000⟩], by decide⟩]

/-- **The mobile engine takes the answer**, and its edit is gone. -/
theorem engines_differ : ¬ ∀ (V : Type) (value : String → Option V) (entry : String → Meta)
    (schedule : List (Call V)), Agree (run step (start value entry) schedule).desktop.store
      (run step (start value entry) schedule).mobile.store := by
  intro agree
  have same := (agree ℕ (fun _ => none) (fun _ => {}) editedInFlight "locale_preference"
    (by decide)).1
  exact absurd same (by decide)

end Sample

end Pair

end Step

end Atterm.Prefs
