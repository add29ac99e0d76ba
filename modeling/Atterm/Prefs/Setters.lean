/-
**A setter and the sync engine.**

A setter stores a value and then marks its key dirty, on another goroutine than the engine, whose
pulls and pushes read and write the same keys one access at a time. Every edit of a key has a number,
and what a push reads carries the number of the last edit it contains.

* `SetterWorld`, `SetterWorld.step` — the device, one access of the engine after the other;
* `SetterWorld.undisturbed_calls` — alone, these accesses are the engine;
* `SetterWorld.kept_of_meets` — then no edit is lost.
-/

import Atterm.Foundation.Runs
import Atterm.Prefs.Engine

namespace Atterm.Prefs

open Atterm.Foundation

variable {V : Type}

structure EditTime where
  ms : ℤ
  positive : 0 < ms

/-- The rows of a response. The relay lists a key once. -/
structure KeyedRows (V : Type) where
  rows : List (ServerItem V)
  distinct : (rows.map ServerItem.key).Nodup

/-- What a push read of a key, and the number of its last edit. -/
structure Reading (V : Type) where
  item : ClientItem V
  serial : ℕ

/-- The call that goes through the rows of a response. -/
inductive Task (V : Type) where
  | pull
  | push (readings : List (Reading V))

namespace Task

def readings : Task V → List (Reading V)
  | .pull => []
  | .push readings => readings

/-- What the engine concludes from the sync state of the row's key. -/
def Takes (store : Store V) (row : ServerItem V) : Task V → Prop
  | .pull => store.Newer row
  | .push readings =>
    (store.entry row.key).updatedAtLocal = sentAt (readings.map Reading.item) row.key

instance (store : Store V) (row : ServerItem V) : (task : Task V) → Decidable (task.Takes store row)
  | .pull => inferInstanceAs (Decidable (store.Newer row))
  | .push readings => inferInstanceAs (Decidable ((store.entry row.key).updatedAtLocal =
      sentAt (readings.map Reading.item) row.key))

end Task

inductive Phase (V : Type) where
  | idle
  | fetching
  | collecting (keys : List String) (readings : List (Reading V))
  | reading (key : String) (held : Meta) (keys : List String) (readings : List (Reading V))
  | awaiting (readings : List (Reading V))
  | walking (task : Task V) (rows : List (ServerItem V))
  | writing (task : Task V) (row : ServerItem V) (rest : List (ServerItem V))
  | stamping (task : Task V) (row : ServerItem V) (rest : List (ServerItem V))

/-- After an error a pull goes on to the next row, a push returns. -/
def Task.refused (rest : List (ServerItem V)) : Task V → Phase V
  | .pull => .walking .pull rest
  | .push _ => .idle

/-- What can happen to an edit that the relay has not been sent. -/
inductive Loss where
  | overwritten (key : String)
  | markedClean (key : String)
deriving DecidableEq

structure SetterWorld (V : Type) where
  store : Store V
  /-- The keys that were stored and are still to be marked. -/
  pending : List String
  phase : Phase V
  edits : String → ℕ
  /-- The last edit that was sent. -/
  sent : String → ℕ
  losses : List Loss

inductive SetterEvent (V : Type) where
  | store (key : String) (value : V)
  | mark (key : String) (clock : EditTime)
  | pull
  | push
  | respond (response : KeyedRows V)
  | fail
  | advance (accepted : Bool)

def SetterEvent.OfSetter : SetterEvent V → Prop
  | .store .. | .mark .. => True
  | .pull | .push | .respond _ | .fail | .advance _ => False

namespace SetterWorld

def start (store : Store V) : SetterWorld V := ⟨store, [], .idle, fun _ => 0, fun _ => 0, []⟩

def Unsent (w : SetterWorld V) (key : String) : Prop := w.sent key < w.edits key

instance (w : SetterWorld V) (key : String) : Decidable (w.Unsent key) :=
  inferInstanceAs (Decidable (_ < _))

def lose (w : SetterWorld V) (key : String) (loss : Loss) : List Loss :=
  if w.Unsent key then w.losses ++ [loss] else w.losses

def raise (sent : String → ℕ) (reading : Reading V) : String → ℕ :=
  Function.update sent reading.item.key (max (sent reading.item.key) reading.serial)

/-- The edits that were sent, after a request. -/
def put (sent : String → ℕ) (readings : List (Reading V)) : String → ℕ := readings.foldl raise sent

def advance (w : SetterWorld V) (accepted : Bool) : SetterWorld V :=
  match w.phase with
  | .idle | .fetching | .awaiting _ => w
  | .collecting [] [] => { w with phase := .idle }
  | .collecting [] (first :: rest) =>
    { w with sent := put w.sent (first :: rest), phase := .awaiting (first :: rest) }
  | .collecting (key :: keys) readings =>
    if key ∈ syncedKeys ∧ (w.store.entry key).dirty then
      { w with phase := .reading key (w.store.entry key) keys readings }
    else { w with phase := .collecting keys readings }
  | .reading key held keys readings =>
    match w.store.value key with
    | some value =>
      let read : Reading V := ⟨⟨key, value, held.updatedAtLocal⟩, w.edits key⟩
      { w with phase := .collecting keys (readings ++ [read]) }
    | none => { w with phase := .collecting keys readings }
  | .walking _ [] => { w with phase := .idle }
  | .walking task (row :: rest) =>
    if task.Takes w.store row then { w with phase := .writing task row rest }
    else { w with phase := .walking task rest }
  | .writing task row rest =>
    if accepted then
      { w with
        store := { w.store with value := Function.update w.store.value row.key (some row.value) }
        losses := w.lose row.key (.overwritten row.key)
        phase := .stamping task row rest }
    else { w with phase := task.refused rest }
  | .stamping task row rest =>
    if accepted then
      { w with
        store := { w.store with
          entry := Function.update w.store.entry row.key ⟨row.updatedAt, false⟩ }
        losses := w.lose row.key (.markedClean row.key)
        phase := .walking task rest }
    else { w with phase := task.refused rest }

def step (w : SetterWorld V) : SetterEvent V → SetterWorld V
  | .store key value =>
    { w with
      store := { w.store with value := Function.update w.store.value key (some value) }
      pending := key :: w.pending
      edits := Function.update w.edits key (w.edits key + 1) }
  | .mark key clock =>
    if key ∈ w.pending then
      { w with
        store := markDirty (storing V sortedKeys) w.store key clock.ms
        pending := w.pending.erase key }
    else w
  | .pull =>
    match w.phase with
    | .idle => { w with phase := .fetching }
    | _ => w
  | .push =>
    match w.phase with
    | .idle => { w with phase := .collecting sortedKeys [] }
    | _ => w
  | .respond response =>
    match w.phase with
    | .fetching => { w with phase := .walking .pull response.rows }
    | .awaiting readings => { w with phase := .walking (.push readings) response.rows }
    | _ => w
  | .fail =>
    match w.phase with
    | .fetching | .awaiting _ => { w with phase := .idle }
    | _ => w
  | .advance accepted => w.advance accepted

/-! ### The accesses of an undisturbed engine -/

section Undisturbed

/-- The engine is alone and its writes succeed. -/
def undisturbed (w : SetterWorld V) (accesses : ℕ) : SetterWorld V :=
  run step w (List.replicate accesses (.advance true))

theorem undisturbed_succ (w : SetterWorld V) (accesses : ℕ) :
    w.undisturbed (accesses + 1) = (w.advance true).undisturbed accesses := rfl

theorem walking_cons {w : SetterWorld V} {task : Task V} {row : ServerItem V}
    {rest : List (ServerItem V)} (walking : w.phase = .walking task (row :: rest)) :
    ∃ accesses, (w.undisturbed accesses).phase = .walking task rest ∧
      (w.undisturbed accesses).store
        = if task.Takes w.store row then w.store.adopt row else w.store := by
  by_cases taken : task.Takes w.store row
  · have decided : w.advance true = { w with phase := .writing task row rest } := by
      simp only [advance, walking, if_pos taken]
    refine ⟨3, ?_⟩
    rw [undisturbed_succ, decided, if_pos taken]
    exact ⟨rfl, rfl⟩
  · have decided : w.advance true = { w with phase := .walking task rest } := by
      simp only [advance, walking, if_neg taken]
    refine ⟨1, ?_⟩
    rw [undisturbed_succ, decided, if_neg taken]
    exact ⟨rfl, rfl⟩

theorem undisturbed_add (w : SetterWorld V) (first second : ℕ) :
    w.undisturbed (first + second) = (w.undisturbed first).undisturbed second := by
  unfold undisturbed
  rw [List.replicate_add, run_append]

theorem run_walking {w : SetterWorld V} {task : Task V} {rows : List (ServerItem V)}
    (walking : w.phase = .walking task rows) :
    ∃ accesses, (w.undisturbed accesses).phase = .idle ∧ (w.undisturbed accesses).store =
      rows.foldl (fun store row => if task.Takes store row then store.adopt row else store)
        w.store := by
  induction rows generalizing w with
  | nil =>
    have ended : w.advance true = { w with phase := .idle } := by simp only [advance, walking]
    exact ⟨1, by rw [undisturbed_succ, ended]; rfl, by rw [undisturbed_succ, ended]; rfl⟩
  | cons row rest ih =>
    obtain ⟨first, left, stored⟩ := walking_cons walking
    obtain ⟨second, ended, rest_stored⟩ := ih left
    refine ⟨first + second, ?_, ?_⟩
    · rw [undisturbed_add]
      exact ended
    · rw [undisturbed_add, rest_stored, stored]
      rfl

theorem collecting_cons {w : SetterWorld V} {key : String} {keys : List String}
    {readings : List (Reading V)} (collecting : w.phase = .collecting (key :: keys) readings) :
    ∃ accesses more, (w.undisturbed accesses).phase = .collecting keys (readings ++ more) ∧
      (w.undisturbed accesses).store = w.store ∧
      more.map Reading.item = (pushItem (storing V sortedKeys) w.store key).toList := by
  by_cases taken : key ∈ syncedKeys ∧ (w.store.entry key).dirty
  · have decided : w.advance true
        = { w with phase := .reading key (w.store.entry key) keys readings } := by
      simp only [advance, collecting, if_pos taken]
    have item : pushItem (storing V sortedKeys) w.store key = (w.store.value key).map
        fun value => ⟨key, value, (w.store.entry key).updatedAtLocal⟩ := by
      rw [pushItem, if_neg (not_not.mpr taken.1)]
      exact if_neg (not_not.mpr taken.2)
    rw [item]
    cases held : w.store.value key with
    | none =>
      refine ⟨2, [], ?_, ?_, rfl⟩
      · rw [undisturbed_succ, decided, undisturbed_succ, List.append_nil]
        simp only [advance, held]
        rfl
      · rw [undisturbed_succ, decided, undisturbed_succ]
        simp only [advance, held]
        rfl
    | some value =>
      refine ⟨2, [⟨⟨key, value, (w.store.entry key).updatedAtLocal⟩, w.edits key⟩], ?_, ?_, rfl⟩
      · rw [undisturbed_succ, decided, undisturbed_succ]
        simp only [advance, held]
        rfl
      · rw [undisturbed_succ, decided, undisturbed_succ]
        simp only [advance, held]
        rfl
  · have decided : w.advance true = { w with phase := .collecting keys readings } := by
      simp only [advance, collecting, if_neg taken]
    have passed : pushItem (storing V sortedKeys) w.store key = none := by
      rw [pushItem]
      by_cases synced : key ∈ syncedKeys
      · rw [if_neg (not_not.mpr synced)]
        exact if_pos fun dirty => taken ⟨synced, dirty⟩
      · rw [if_pos synced]
    refine ⟨1, [], ?_, ?_, ?_⟩
    · rw [undisturbed_succ, decided, List.append_nil]
      rfl
    · rw [undisturbed_succ, decided]
      rfl
    · rw [passed]
      rfl

theorem run_collecting {w : SetterWorld V} {keys : List String} {readings : List (Reading V)}
    (collecting : w.phase = .collecting keys readings) :
    ∃ accesses all, (w.undisturbed accesses).phase = .collecting [] all ∧
      (w.undisturbed accesses).store = w.store ∧
      all.map Reading.item = readings.map Reading.item ++
        keys.filterMap (pushItem (storing V sortedKeys) w.store) := by
  induction keys generalizing w readings with
  | nil => exact ⟨0, readings, collecting, rfl, (List.append_nil _).symm⟩
  | cons key rest ih =>
    obtain ⟨first, more, left, same, read⟩ := collecting_cons collecting
    obtain ⟨second, all, ended, still, rest_read⟩ := ih left
    refine ⟨first + second, all, ?_, ?_, ?_⟩
    · rw [undisturbed_add]
      exact ended
    · rw [undisturbed_add, still, same]
    · rw [rest_read, List.map_append, read, List.append_assoc, same]
      congr 1
      rw [List.filterMap_cons]
      cases pushItem (storing V sortedKeys) w.store key with
      | none => rfl
      | some item => rfl

/-- **Undisturbed, the accesses are the engine.** A pull that runs alone takes a response as `Pull` does.
A push that runs alone ends where it began if there is nothing to send; otherwise it asks with what `Push`
sends and takes the answer as `Push` does. -/
theorem undisturbed_calls {w : SetterWorld V} (idle : w.phase = .idle) (response : KeyedRows V) :
    (∃ accesses, (((w.step .pull).step (.respond response)).undisturbed accesses).phase = .idle ∧
      (((w.step .pull).step (.respond response)).undisturbed accesses).store =
        (Prefs.pull (storing V sortedKeys) w.store response.rows).2) ∧
    (pushItems (storing V sortedKeys) w.store = [] →
      ∃ accesses, ((w.step .push).undisturbed accesses).phase = .idle ∧
        ((w.step .push).undisturbed accesses).store = w.store) ∧
    (pushItems (storing V sortedKeys) w.store ≠ [] → ∃ before readings after,
      ((w.step .push).undisturbed before).phase = .awaiting readings ∧
      readings.map Reading.item = pushItems (storing V sortedKeys) w.store ∧
      ((((w.step .push).undisturbed before).step (.respond response)).undisturbed after).phase = .idle ∧
      ((((w.step .push).undisturbed before).step (.respond response)).undisturbed after).store =
        (Prefs.reconcile (storing V sortedKeys) (pushItems (storing V sortedKeys) w.store) w.store
          response.rows).2) := by
  have pulling : (w.step .pull).step (.respond response) = { w with phase := .walking .pull response.rows } := by
    simp only [step, idle]
  have pushing : w.step .push = { w with phase := .collecting sortedKeys [] } := by
    simp only [step, idle]
  obtain ⟨before, all, collected, same, items⟩ := run_collecting (w := w.step .push) (by rw [pushing])
  have stored : ((w.step .push).undisturbed before).store = w.store := same.trans (by rw [pushing])
  have sent : all.map Reading.item = pushItems (storing V sortedKeys) w.store := by
    rw [items, pushing]
    rfl
  refine ⟨?_, fun none_dirty => ?_, fun some_dirty => ?_⟩
  · rw [pulling]
    obtain ⟨accesses, ended, walked⟩ := run_walking
      (w := { w with phase := .walking .pull response.rows }) rfl
    exact ⟨accesses, ended, walked.trans (pull_storing w.store response.rows).symm⟩
  · have nothing : all = [] := List.map_eq_nil_iff.mp (sent.trans none_dirty)
    subst nothing
    have ended : ((w.step .push).undisturbed before).advance true =
        { (w.step .push).undisturbed before with phase := .idle } := by
      simp only [advance, collected]
    refine ⟨before + 1, ?_, ?_⟩
    · rw [undisturbed_add]
      exact congrArg phase ended
    · rw [undisturbed_add]
      exact (congrArg store ended).trans stored
  · cases all with
    | nil => exact absurd (sent.symm.trans rfl) some_dirty
    | cons first rest =>
      set collecting := (w.step .push).undisturbed before with collecting_eq
      have asked : (w.step .push).undisturbed (before + 1) = { collecting with
          sent := put collecting.sent (first :: rest)
          phase := .awaiting (first :: rest) } := by
        rw [undisturbed_add, ← collecting_eq]
        show collecting.advance true = _
        simp only [advance, collected]
      obtain ⟨after, ended, walked⟩ := run_walking (w := { collecting with
        sent := put collecting.sent (first :: rest)
        phase := .walking (.push (first :: rest)) response.rows }) rfl
      refine ⟨before + 1, first :: rest, after, by rw [asked], sent, ?_, ?_⟩
      · rw [asked]
        exact ended
      · rw [asked, ← sent, reconcile_storing, ← stored]
        exact walked

end Undisturbed

/-! ### The gaps -/

/-- A setter stores nothing between the engine's look at the key and its last write of it, and the
engine takes no row of a key with an edit that is still to be marked. -/
def Careful (w : SetterWorld V) : SetterEvent V → Prop
  | .store key _ =>
    match w.phase with
    | .writing _ row _ | .stamping _ row _ => key ≠ row.key
    | _ => True
  | .advance _ =>
    match w.phase with
    | .walking task (row :: _) =>
      task.Takes w.store row → ¬(row.key ∈ w.pending ∧ w.Unsent row.key)
    | _ => True
  | .mark .. | .pull | .push | .respond _ | .fail => True

instance (w : SetterWorld V) (event : SetterEvent V) : Decidable (w.Careful event) := by
  unfold Careful
  split <;> first | infer_instance | (split <;> infer_instance)

/-- An edit that the reading lacks is still to be marked, or has changed the stamp. -/
def Tracks (w : SetterWorld V) (reading : Reading V) : Prop :=
  reading.serial ≤ w.edits reading.item.key ∧
    reading.item.clientUpdatedAt ≤ (w.store.entry reading.item.key).updatedAtLocal ∧
    (reading.serial < w.edits reading.item.key → reading.item.key ∈ w.pending ∨
      reading.item.clientUpdatedAt < (w.store.entry reading.item.key).updatedAtLocal)

/-- What the engine knows of the keys whose rows are still to come. -/
structure TaskSound (w : SetterWorld V) (task : Task V) (rows : List (ServerItem V)) : Prop where
  distinct : (rows.map ServerItem.key).Nodup
  tracks : ∀ reading ∈ task.readings, reading.item.key ∈ rows.map ServerItem.key →
    w.Tracks reading ∧ reading.serial ≤ w.sent reading.item.key

/-- What the engine knows of the keys it works on. -/
def PhaseSound (w : SetterWorld V) : Phase V → Prop
  | .idle | .fetching => True
  | .collecting _ readings => ∀ reading ∈ readings, w.Tracks reading
  | .reading key held _ readings =>
    held.updatedAtLocal ≤ (w.store.entry key).updatedAtLocal ∧
      ∀ reading ∈ readings, w.Tracks reading
  | .awaiting readings =>
    ∀ reading ∈ readings, w.Tracks reading ∧ reading.serial ≤ w.sent reading.item.key
  | .walking task rows => w.TaskSound task rows
  | .writing task row rest | .stamping task row rest =>
    ¬w.Unsent row.key ∧ row.key ∉ rest.map ServerItem.key ∧ w.TaskSound task rest

/-- What every careful run keeps. -/
structure Sound (w : SetterWorld V) : Prop where
  sent_le : ∀ key, w.sent key ≤ w.edits key
  guarded : ∀ key, w.Unsent key → key ∈ w.pending ∨
    ((w.store.entry key).dirty = true ∧ 0 < (w.store.entry key).updatedAtLocal)
  phase : w.PhaseSound w.phase
  kept : w.losses = []

theorem sound_start (store : Store V) : (start store).Sound where
  sent_le := fun _ => le_refl 0
  guarded := fun _ unsent => absurd unsent (lt_irrefl 0)
  phase := trivial
  kept := rfl

variable {w after : SetterWorld V}

theorem PhaseSound.mono {phase : Phase V} (sound : w.PhaseSound phase)
    (tracks : ∀ reading, w.Tracks reading → after.Tracks reading)
    (stamps : ∀ key, (w.store.entry key).updatedAtLocal ≤ (after.store.entry key).updatedAtLocal)
    (sent : after.sent = w.sent)
    (settled : ∀ task row rest, phase = .writing task row rest ∨ phase = .stamping task row rest →
      ¬w.Unsent row.key → ¬after.Unsent row.key) : after.PhaseSound phase := by
  have task_mono : ∀ {task : Task V} {rows}, w.TaskSound task rows → after.TaskSound task rows := by
    intro task rows known
    refine ⟨known.distinct, fun reading read listed => ?_⟩
    rw [sent]
    exact ⟨tracks _ (known.tracks reading read listed).1, (known.tracks reading read listed).2⟩
  cases phase with
  | idle => trivial
  | fetching => trivial
  | collecting keys readings => exact fun reading read => tracks _ (sound reading read)
  | reading key held keys readings =>
    exact ⟨sound.1.trans (stamps key), fun reading read => tracks _ (sound.2 reading read)⟩
  | awaiting readings =>
    intro reading read
    rw [sent]
    exact ⟨tracks _ (sound reading read).1, (sound reading read).2⟩
  | walking task rows => exact task_mono sound
  | writing task row rest =>
    exact ⟨settled task row rest (Or.inl rfl) sound.1, sound.2.1, task_mono sound.2.2⟩
  | stamping task row rest =>
    exact ⟨settled task row rest (Or.inr rfl) sound.1, sound.2.1, task_mono sound.2.2⟩

/-! ### The steps of a setter -/

theorem unsent_store_of_ne {key other : String} (value : V) (differs : other ≠ key) :
    (w.step (.store key value)).Unsent other ↔ w.Unsent other := by
  show w.sent other < Function.update w.edits key (w.edits key + 1) other ↔ _
  rw [Function.update_of_ne differs]
  rfl

theorem unsent_store_self (sent_le : ∀ key, w.sent key ≤ w.edits key) (key : String) (value : V) :
    (w.step (.store key value)).Unsent key := by
  show w.sent key < Function.update w.edits key (w.edits key + 1) key
  rw [Function.update_self]
  exact Nat.lt_succ_of_le (sent_le key)

theorem tracks_store (key : String) (value : V) {reading : Reading V} (tracks : w.Tracks reading) :
    (w.step (.store key value)).Tracks reading := by
  obtain ⟨serial, stamp, behind⟩ := tracks
  by_cases same : reading.item.key = key
  · subst same
    refine ⟨?_, stamp, fun _ => Or.inl List.mem_cons_self⟩
    show reading.serial ≤ Function.update w.edits _ (w.edits _ + 1) _
    rw [Function.update_self]
    exact Nat.le_succ_of_le serial
  · have edits : (w.step (.store key value)).edits reading.item.key = w.edits reading.item.key :=
      Function.update_of_ne same _ _
    refine ⟨edits.symm ▸ serial, stamp, fun late => ?_⟩
    rw [edits] at late
    exact (behind late).imp (List.mem_cons_of_mem key) id

theorem sound_store (sound : w.Sound) {key : String} {value : V}
    (careful : w.Careful (.store key value)) : (w.step (.store key value)).Sound where
  sent_le := by
    intro other
    by_cases same : other = key
    · subst same
      exact (unsent_store_self sound.sent_le other value).le
    · show w.sent other ≤ Function.update w.edits key (w.edits key + 1) other
      rw [Function.update_of_ne same]
      exact sound.sent_le other
  guarded := by
    intro other unsent
    by_cases same : other = key
    · exact Or.inl (same ▸ List.mem_cons_self)
    · exact (sound.guarded other ((unsent_store_of_ne value same).mp unsent)).imp
        (List.mem_cons_of_mem key) id
  phase := by
    refine sound.phase.mono (fun _ => tracks_store key value) (fun _ => le_refl _) rfl ?_
    intro task row rest busy settled
    have differs : row.key ≠ key := by
      rcases busy with writing | stamping
      · simp only [Careful, writing] at careful
        exact careful.symm
      · simp only [Careful, stamping] at careful
        exact careful.symm
    exact fun unsent => settled ((unsent_store_of_ne value differs).mp unsent)
  kept := sound.kept

theorem pos_nextStamp (prev : Meta) (clock : EditTime) : 0 < nextStamp prev clock.ms := by
  have positive := clock.positive
  unfold nextStamp
  split_ifs with behind
  · omega
  · exact positive

theorem step_mark_of_mem {key : String} (waiting : key ∈ w.pending) (clock : EditTime) :
    w.step (.mark key clock) = { w with
      store := { w.store with
        entry := Function.update w.store.entry key
          ⟨nextStamp (w.store.entry key) clock.ms, true⟩ }
      pending := w.pending.erase key } := if_pos waiting

theorem step_mark_of_notMem {key : String} (marked : key ∉ w.pending) (clock : EditTime) :
    w.step (.mark key clock) = w := if_neg marked

theorem sound_mark (sound : w.Sound) (key : String) (clock : EditTime) :
    (w.step (.mark key clock)).Sound := by
  by_cases waiting : key ∈ w.pending
  · rw [step_mark_of_mem waiting]
    have newer := lt_nextStamp (w.store.entry key) clock.ms
    refine ⟨sound.sent_le, ?_, sound.phase.mono ?_ ?_ rfl fun _ _ _ _ => id, sound.kept⟩
    · intro other unsent
      by_cases same : other = key
      · subst same
        refine Or.inr ?_
        dsimp only
        rw [Function.update_self]
        exact ⟨rfl, pos_nextStamp _ clock⟩
      · dsimp only
        rw [Function.update_of_ne same, List.mem_erase_of_ne same]
        exact sound.guarded other unsent
    · rintro reading ⟨serial, stamp, behind⟩
      refine ⟨serial, ?_⟩
      dsimp only
      by_cases same : reading.item.key = key
      · rw [same, Function.update_self]
        rw [same] at stamp
        exact ⟨(stamp.trans_lt newer).le, fun _ => Or.inr (stamp.trans_lt newer)⟩
      · rw [Function.update_of_ne same, List.mem_erase_of_ne same]
        exact ⟨stamp, behind⟩
    · intro other
      dsimp only
      by_cases same : other = key
      · rw [same, Function.update_self]
        exact newer.le
      · rw [Function.update_of_ne same]
  · rw [step_mark_of_notMem waiting]
    exact sound

/-! ### The accesses of the engine -/

theorem raise_self (sent : String → ℕ) (reading : Reading V) :
    raise sent reading reading.item.key = max (sent reading.item.key) reading.serial :=
  Function.update_self _ _ _

theorem raise_of_ne (sent : String → ℕ) {reading : Reading V} {key : String}
    (differs : key ≠ reading.item.key) : raise sent reading key = sent key :=
  Function.update_of_ne differs _ _

theorem le_put (sent : String → ℕ) (readings : List (Reading V)) (key : String) :
    sent key ≤ put sent readings key := by
  induction readings generalizing sent with
  | nil => exact le_refl _
  | cons first rest ih =>
    refine le_trans ?_ (ih _)
    by_cases same : key = first.item.key
    · subst same
      rw [raise_self]
      exact le_max_left _ _
    · rw [raise_of_ne _ same]

theorem serial_le_put (sent : String → ℕ) {readings : List (Reading V)} {reading : Reading V}
    (read : reading ∈ readings) : reading.serial ≤ put sent readings reading.item.key := by
  induction readings generalizing sent with
  | nil => cases read
  | cons first rest ih =>
    rcases List.mem_cons.mp read with rfl | later
    · refine le_trans ?_ (le_put _ rest _)
      rw [raise_self]
      exact le_max_right _ _
    · exact ih _ later

theorem put_le {sent edits : String → ℕ} (sent_le : ∀ key, sent key ≤ edits key)
    {readings : List (Reading V)}
    (read_le : ∀ reading ∈ readings, reading.serial ≤ edits reading.item.key) (key : String) :
    put sent readings key ≤ edits key := by
  induction readings generalizing sent with
  | nil => exact sent_le key
  | cons first rest ih =>
    rw [List.forall_mem_cons] at read_le
    refine ih (fun other => ?_) read_le.2
    by_cases same : other = first.item.key
    · subst same
      rw [raise_self]
      exact max_le (sent_le _) read_le.1
    · rw [raise_of_ne _ same]
      exact sent_le other

theorem Sound.withPhase (sound : w.Sound) {phase : Phase V} (known : w.PhaseSound phase) :
    { w with phase := phase }.Sound where
  sent_le := sound.sent_le
  guarded := sound.guarded
  phase := known.mono (fun _ => id) (fun _ => le_refl _) rfl fun _ _ _ _ => id
  kept := sound.kept

theorem sent_of_takes (sound : w.Sound) {task : Task V} {row : ServerItem V}
    {rest : List (ServerItem V)} (known : w.TaskSound task (row :: rest))
    (takes : task.Takes w.store row) (careful : ¬(row.key ∈ w.pending ∧ w.Unsent row.key)) :
    ¬w.Unsent row.key := by
  intro unsent
  have marked : row.key ∉ w.pending := fun waiting => careful ⟨waiting, unsent⟩
  obtain ⟨dirty, positive⟩ := (sound.guarded row.key unsent).resolve_left marked
  cases task with
  | pull => exact Bool.false_ne_true (takes.2.2.symm.trans dirty)
  | push readings =>
    have untouched : (w.store.entry row.key).updatedAtLocal =
      sentAt (readings.map Reading.item) row.key := takes
    cases found : (readings.map Reading.item).find? fun item => item.key = row.key with
    | none =>
      unfold sentAt at untouched
      rw [found] at untouched
      exact absurd untouched positive.ne'
    | some item =>
      have named : item.key = row.key := by simpa using List.find?_some found
      obtain ⟨reading, read, rfl⟩ := List.mem_map.mp (List.mem_of_find?_eq_some found)
      have listed : reading.item.key ∈ (row :: rest).map ServerItem.key :=
        named ▸ List.mem_cons_self
      obtain ⟨⟨_, _, behind⟩, put⟩ := known.tracks reading read listed
      unfold sentAt at untouched
      rw [found] at untouched
      rw [named] at behind put
      rcases behind (put.trans_lt unsent) with waiting | newer
      · exact marked waiting
      · exact absurd untouched newer.ne'

theorem taskSound_tail {task : Task V} {row : ServerItem V} {rest : List (ServerItem V)}
    (known : w.TaskSound task (row :: rest)) : row.key ∉ rest.map ServerItem.key ∧
      w.TaskSound task rest := by
  have distinct := known.distinct
  rw [List.map_cons, List.nodup_cons] at distinct
  exact ⟨distinct.1, distinct.2,
    fun reading read listed => known.tracks reading read (List.mem_cons_of_mem _ listed)⟩

theorem phaseSound_refused {task : Task V} {rest : List (ServerItem V)}
    (known : w.TaskSound task rest) : w.PhaseSound (task.refused rest) := by
  cases task with
  | pull => exact known
  | push readings => trivial

theorem lose_of_sent {key : String} (settled : ¬w.Unsent key) (loss : Loss) :
    w.lose key loss = w.losses := if_neg settled

theorem sound_collecting (sound : w.Sound) {keys : List String} {readings : List (Reading V)}
    (collecting : w.phase = .collecting keys readings) (accepted : Bool) :
    (w.advance accepted).Sound := by
  have known : ∀ reading ∈ readings, w.Tracks reading := by
    have phase := sound.phase
    rw [collecting] at phase
    exact phase
  cases keys with
  | nil =>
    cases readings with
    | nil =>
      have moved : w.advance accepted = { w with phase := .idle } := by
        simp only [advance, collecting]
      rw [moved]
      exact sound.withPhase trivial
    | cons first rest =>
      have moved : w.advance accepted = { w with
          sent := put w.sent (first :: rest), phase := .awaiting (first :: rest) } := by
        simp only [advance, collecting]
      rw [moved]
      refine ⟨put_le sound.sent_le fun reading read => (known reading read).1, ?_, ?_,
        sound.kept⟩
      · exact fun key unsent => sound.guarded key ((le_put _ _ key).trans_lt unsent)
      · exact fun reading read => ⟨known reading read, serial_le_put w.sent read⟩
  | cons key keys =>
    by_cases taken : key ∈ syncedKeys ∧ (w.store.entry key).dirty
    · have moved : w.advance accepted
          = { w with phase := .reading key (w.store.entry key) keys readings } := by
        simp only [advance, collecting, if_pos taken]
      rw [moved]
      exact sound.withPhase ⟨le_refl _, known⟩
    · have moved : w.advance accepted = { w with phase := .collecting keys readings } := by
        simp only [advance, collecting, if_neg taken]
      rw [moved]
      exact sound.withPhase known

theorem sound_reading (sound : w.Sound) {key : String} {held : Meta} {keys : List String}
    {readings : List (Reading V)} (reading : w.phase = .reading key held keys readings)
    (accepted : Bool) : (w.advance accepted).Sound := by
  have known := sound.phase
  rw [reading] at known
  obtain ⟨stamp, tracks⟩ := known
  cases read : w.store.value key with
  | none =>
    have moved : w.advance accepted = { w with phase := .collecting keys readings } := by
      simp only [advance, reading, read]
    rw [moved]
    exact sound.withPhase tracks
  | some value =>
    have moved : w.advance accepted = { w with
        phase := .collecting keys
          (readings ++ [⟨⟨key, value, held.updatedAtLocal⟩, w.edits key⟩]) } := by
      simp only [advance, reading, read]
    rw [moved]
    refine sound.withPhase fun other inside => ?_
    rcases List.mem_append.mp inside with earlier | last
    · exact tracks other earlier
    · rw [List.mem_singleton.mp last]
      exact ⟨le_refl _, stamp, fun late => absurd late (lt_irrefl _)⟩

theorem sound_walking (sound : w.Sound) {task : Task V} {rows : List (ServerItem V)}
    (walking : w.phase = .walking task rows) {accepted : Bool}
    (careful : w.Careful (.advance accepted)) : (w.advance accepted).Sound := by
  have known : w.TaskSound task rows := by
    have phase := sound.phase
    rw [walking] at phase
    exact phase
  cases rows with
  | nil =>
    have moved : w.advance accepted = { w with phase := .idle } := by
      simp only [advance, walking]
    rw [moved]
    exact sound.withPhase trivial
  | cons row rest =>
    obtain ⟨other, rest_known⟩ := taskSound_tail known
    by_cases takes : task.Takes w.store row
    · have moved : w.advance accepted = { w with phase := .writing task row rest } := by
        simp only [advance, walking, if_pos takes]
      simp only [Careful, walking] at careful
      rw [moved]
      exact sound.withPhase ⟨sent_of_takes sound known takes (careful takes), other, rest_known⟩
    · have moved : w.advance accepted = { w with phase := .walking task rest } := by
        simp only [advance, walking, if_neg takes]
      rw [moved]
      exact sound.withPhase rest_known

theorem sound_writing (sound : w.Sound) {task : Task V} {row : ServerItem V}
    {rest : List (ServerItem V)} (writing : w.phase = .writing task row rest) (accepted : Bool) :
    (w.advance accepted).Sound := by
  have known := sound.phase
  rw [writing] at known
  obtain ⟨settled, other, rest_known⟩ := known
  cases accepted with
  | false =>
    have moved : w.advance false = { w with phase := task.refused rest } := by
      simp only [advance, writing]
      rfl
    rw [moved]
    exact sound.withPhase (phaseSound_refused rest_known)
  | true =>
    have moved : w.advance true = { w with
        store := { w.store with value := Function.update w.store.value row.key (some row.value) }
        phase := .stamping task row rest } := by
      simp only [advance, writing, lose_of_sent settled]
      rfl
    rw [moved]
    exact ⟨sound.sent_le, sound.guarded,
      ⟨settled, other, rest_known.distinct, rest_known.tracks⟩, sound.kept⟩

theorem sound_stamping (sound : w.Sound) {task : Task V} {row : ServerItem V}
    {rest : List (ServerItem V)} (stamping : w.phase = .stamping task row rest) (accepted : Bool) :
    (w.advance accepted).Sound := by
  have known := sound.phase
  rw [stamping] at known
  obtain ⟨settled, other, rest_known⟩ := known
  cases accepted with
  | false =>
    have moved : w.advance false = { w with phase := task.refused rest } := by
      simp only [advance, stamping]
      rfl
    rw [moved]
    exact sound.withPhase (phaseSound_refused rest_known)
  | true =>
    have moved : w.advance true = { w with
        store := { w.store with
          entry := Function.update w.store.entry row.key ⟨row.updatedAt, false⟩ }
        phase := .walking task rest } := by
      simp only [advance, stamping, lose_of_sent settled]
      rfl
    rw [moved]
    refine ⟨sound.sent_le, fun key unsent => ?_, ⟨rest_known.distinct, ?_⟩, sound.kept⟩
    · have differs : key ≠ row.key := fun same => settled (same ▸ unsent)
      dsimp only
      rw [Function.update_of_ne differs]
      exact sound.guarded key unsent
    · intro reading read listed
      have differs : reading.item.key ≠ row.key := fun same => other (same ▸ listed)
      obtain ⟨tracks, sent⟩ := rest_known.tracks reading read listed
      refine ⟨?_, sent⟩
      unfold Tracks
      dsimp only
      rw [Function.update_of_ne differs]
      exact tracks

theorem sound_advance (sound : w.Sound) {accepted : Bool}
    (careful : w.Careful (.advance accepted)) : (w.advance accepted).Sound := by
  cases phase : w.phase with
  | idle =>
    have still : w.advance accepted = w := by simp only [advance, phase]
    rw [still]
    exact sound
  | fetching =>
    have still : w.advance accepted = w := by simp only [advance, phase]
    rw [still]
    exact sound
  | awaiting readings =>
    have still : w.advance accepted = w := by simp only [advance, phase]
    rw [still]
    exact sound
  | collecting keys readings => exact sound_collecting sound phase accepted
  | reading key held keys readings => exact sound_reading sound phase accepted
  | walking task rows => exact sound_walking sound phase careful
  | writing task row rest => exact sound_writing sound phase accepted
  | stamping task row rest => exact sound_stamping sound phase accepted

theorem sound_respond (sound : w.Sound) (response : KeyedRows V) :
    (w.step (.respond response)).Sound := by
  have known := sound.phase
  cases phase : w.phase with
  | fetching =>
    have moved : w.step (.respond response)
        = { w with phase := .walking .pull response.rows } := by simp only [step, phase]
    rw [moved]
    exact sound.withPhase ⟨response.distinct, fun _ read => absurd read List.not_mem_nil⟩
  | awaiting readings =>
    have moved : w.step (.respond response)
        = { w with phase := .walking (.push readings) response.rows } := by
      simp only [step, phase]
    rw [phase] at known
    rw [moved]
    exact sound.withPhase ⟨response.distinct, fun reading read _ => known reading read⟩
  | idle | collecting | reading | walking | writing | stamping =>
    have still : w.step (.respond response) = w := by simp only [step, phase]
    rw [still]
    exact sound

/-- **One step.** A careful step loses nothing. -/
theorem sound_step (sound : w.Sound) {event : SetterEvent V} (careful : w.Careful event) :
    (w.step event).Sound := by
  cases event with
  | store key value => exact sound_store sound careful
  | mark key clock => exact sound_mark sound key clock
  | respond response => exact sound_respond sound response
  | advance accepted => exact sound_advance sound careful
  | pull =>
    show (match w.phase with
      | .idle => { w with phase := .fetching }
      | _ => w).Sound
    split
    · exact sound.withPhase trivial
    · exact sound
  | push =>
    show (match w.phase with
      | .idle => { w with phase := .collecting sortedKeys [] }
      | _ => w).Sound
    split
    · exact sound.withPhase fun _ read => absurd read List.not_mem_nil
    · exact sound
  | fail =>
    show (match w.phase with
      | .fetching | .awaiting _ => { w with phase := .idle }
      | _ => w).Sound
    split
    · exact sound.withPhase trivial
    · exact sound.withPhase trivial
    · exact sound

theorem sound_of_meets {store : Store V} {events : List (SetterEvent V)}
    (meets : Meets step Careful (start store) events) : (run step (start store) events).Sound :=
  run_invariant_of_meets Sound (fun _ _ sound careful => sound_step sound careful)
    (sound_start store) meets

/-! ### A careless step -/

/-- The engine is about to write a key with an edit that was not sent. -/
def Clobbering (w : SetterWorld V) : Prop :=
  ∃ task row rest, (w.phase = .writing task row rest ∨ w.phase = .stamping task row rest) ∧
    w.Unsent row.key

theorem clobbering_of_careless (sound : w.Sound) {event : SetterEvent V}
    (careless : ¬w.Careful event) : (w.step event).Clobbering := by
  cases event with
  | store key value =>
    have unsent := unsent_store_self sound.sent_le key value
    cases phase : w.phase with
    | writing task row rest =>
      simp only [Careful, phase, ne_eq, not_not] at careless
      exact ⟨task, row, rest, Or.inl phase, careless ▸ unsent⟩
    | stamping task row rest =>
      simp only [Careful, phase, ne_eq, not_not] at careless
      exact ⟨task, row, rest, Or.inr phase, careless ▸ unsent⟩
    | idle | fetching | collecting | reading | awaiting | walking =>
      simp only [Careful, phase, not_true_eq_false] at careless
  | advance accepted =>
    cases phase : w.phase with
    | walking task rows =>
      cases rows with
      | nil => simp only [Careful, phase, not_true_eq_false] at careless
      | cons row rest =>
        simp only [Careful, phase, Classical.not_imp, not_not] at careless
        obtain ⟨takes, _, unsent⟩ := careless
        have moved : w.step (.advance accepted)
            = { w with phase := .writing task row rest } := by
          simp only [step, advance, phase, if_pos takes]
        rw [moved]
        exact ⟨task, row, rest, Or.inl rfl, unsent⟩
    | idle | fetching | collecting | reading | awaiting | writing | stamping =>
      simp only [Careful, phase, not_true_eq_false] at careless
  | mark | pull | push | respond | fail => exact absurd trivial careless

theorem clobbering_of_setter (clobbering : w.Clobbering) {event : SetterEvent V}
    (setter : event.OfSetter) : (w.step event).Clobbering := by
  obtain ⟨task, row, rest, busy, unsent⟩ := clobbering
  cases event with
  | store key value =>
    refine ⟨task, row, rest, busy, ?_⟩
    by_cases same : row.key = key
    · subst same
      show w.sent row.key < Function.update w.edits row.key (w.edits row.key + 1) row.key
      rw [Function.update_self]
      exact Nat.lt_succ_of_lt unsent
    · exact (unsent_store_of_ne value same).mpr unsent
  | mark key clock =>
    by_cases waiting : key ∈ w.pending
    · rw [step_mark_of_mem waiting]
      exact ⟨task, row, rest, busy, unsent⟩
    · rw [step_mark_of_notMem waiting]
      exact ⟨task, row, rest, busy, unsent⟩
  | pull | push | respond | fail | advance => exact absurd setter id

theorem losses_of_clobbering (clobbering : w.Clobbering) :
    (w.step (.advance true)).losses ≠ [] := by
  obtain ⟨task, row, rest, writing | stamping, unsent⟩ := clobbering
  · have lost : (w.step (.advance true)).losses = w.losses ++ [.overwritten row.key] := by
      simp only [step, advance, writing, lose, if_pos unsent, if_true]
    rw [lost]
    exact List.append_ne_nil_of_right_ne_nil _ (List.cons_ne_nil _ _)
  · have lost : (w.step (.advance true)).losses = w.losses ++ [.markedClean row.key] := by
      simp only [step, advance, stamping, lose, if_pos unsent, if_true]
    rw [lost]
    exact List.append_ne_nil_of_right_ne_nil _ (List.cons_ne_nil _ _)

/-- **No edit is lost between a setter and the engine while the setters stay out of its gaps.** After
a step into a gap, the engine's next write loses one, whatever the setters do until then. -/
theorem kept_of_meets (store : Store V) :
    (∀ events, Meets step Careful (start store) events →
      ∀ first, first <+: events → (run step (start store) first).losses = []) ∧
    ∀ events event, Meets step Careful (start store) events →
      ¬(run step (start store) events).Careful event →
      ∀ others : List (SetterEvent V), (∀ other ∈ others, other.OfSetter) →
        (run step (start store) (events ++ event :: others ++ [.advance true])).losses ≠ [] := by
  constructor
  · rintro events meets first ⟨later, rfl⟩
    exact (sound_of_meets ((meets_append step).mp meets).1).kept
  · intro events event meets careless others setters
    have clobbering : (run step (start store) (events ++ event :: others)).Clobbering := by
      rw [run_append, run_cons]
      have reached := clobbering_of_careless (sound_of_meets meets) careless
      induction others using List.reverseRecOn with
      | nil => exact reached
      | append_singleton others other ih =>
        rw [run_append]
        refine clobbering_of_setter (ih fun one inside => ?_) ?_
        · exact setters one (List.mem_append_left _ inside)
        · exact setters other List.mem_concat_self
    rw [run_append]
    exact losses_of_clobbering clobbering

section Sample

def english : Store String := .fresh fun key => if key = "locale_preference" then some "en" else none

/-- The language that another device chose. -/
def fromRelay : KeyedRows String := ⟨[⟨"locale_preference", "de", 5⟩], by decide⟩

theorem undisturbed_calls_english : ∃ accesses,
    ((((start english).step .pull).step (.respond fromRelay)).undisturbed accesses).phase = .idle ∧
      ((((start english).step .pull).step (.respond fromRelay)).undisturbed accesses).store =
        (Prefs.pull (storing String sortedKeys) english fromRelay.rows).2 :=
  (undisturbed_calls rfl fromRelay).1

/-- The language is set after the engine saw that it was not edited, and before it is written. -/
theorem lost_between_check_and_write :
    ¬∀ events : List (SetterEvent String), (run step (start english) events).losses = [] := by
  intro kept
  have lost : (run step (start english) [.pull, .respond fromRelay, .advance true,
      .store "locale_preference" "fr", .advance true]).losses
        = [.overwritten "locale_preference"] := by decide
  rw [kept] at lost
  exact List.cons_ne_nil _ _ lost.symm

theorem kept_before_check :
    (run step (start english) [.pull, .store "locale_preference" "fr",
      .mark "locale_preference" ⟨7, by decide⟩, .respond fromRelay, .advance true,
      .advance true]).losses = [] :=
  (kept_of_meets english).1 _ (by decide) _ (List.prefix_refl _)

end Sample

end SetterWorld

end Atterm.Prefs
