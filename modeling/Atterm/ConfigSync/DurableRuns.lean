/-
**Runs of a durable replica.**

`DurableEvent` lists the calls on a handle, the reload of its view and the restart of the process.
`Sound` says that the file and the handle each hold what a replay would load.

* `step_effect` — what one event does to the clock, the file and the handle;
* `sound_step`, `sound_open`, `sound_run` — every reachable handle is sound.
-/

import Atterm.Foundation.Runs
import Atterm.ConfigSync.DurableSteps

namespace Atterm.ConfigSync

open Atterm.Foundation

/-- The calls on a handle, with what each meets, and the restart of its process. -/
inductive DurableEvent where
  | apply (env : Environment) (token : OpToken)
  | append (env : Environment) (identity : Identity) (entropy : Entropy) (mutation : Mutation)
  | appendEncrypted (env : Environment) (identity : Identity) (entropy : Entropy) (key : EpochKey)
      (mutation : Mutation)
  | appendEncryptedBatch (env : Environment) (identity : Identity)
      (mutations : List EncryptedMutation)
  | bootstrapEncrypted (env : Environment) (identity : Identity)
      (mutations : List EncryptedMutation)
  | adoptSnapshot (env : Environment) (token : SnapshotToken)
  | rebaseSnapshot (env : Environment) (token : SnapshotToken)
  | compact (env : Environment) (identity : Identity) (entropy : Entropy)
  | compactForBounds (env : Environment) (identity : Identity) (entropy : Entropy)
      (maxTailOps maxTailBytes : Int) (stable : VersionVector)
  | reload (env : Environment)
  | reopen (env : Environment)

/-- The wall readings of a batch: two for each operation. -/
def batchReadings (env : Environment) (mutations : List EncryptedMutation) : List Int :=
  (List.range (2 * mutations.length)).map env.wall

theorem mem_batchReadings {env : Environment} {mutations : List EncryptedMutation} {position : Nat}
    (bound : position < mutations.length) :
    env.wall (2 * position) ∈ batchReadings env mutations ∧
      env.wall (2 * position + 1) ∈ batchReadings env mutations :=
  ⟨List.mem_map.mpr ⟨_, List.mem_range.mpr (by omega), rfl⟩,
    List.mem_map.mpr ⟨_, List.mem_range.mpr (by omega), rfl⟩⟩

/-- What an event brings to the work on the copy. -/
def DurableEvent.inputs : DurableEvent → Inputs
  | .apply env token => { readings := [env.wall 0], tokens := [token] }
  | .append env identity _ _ =>
    { readings := [env.wall 0, env.wall 1], identities := [identity], writes := true }
  | .appendEncrypted env identity _ _ _ =>
    { readings := [env.wall 0, env.wall 1], identities := [identity], writes := true }
  | .appendEncryptedBatch env identity mutations =>
    { readings := batchReadings env mutations, identities := [identity], writes := true }
  | .bootstrapEncrypted env identity mutations =>
    { readings := batchReadings env mutations, identities := [identity], writes := true }
  | .adoptSnapshot env token => { readings := [env.wall 0], snapshots := [token] }
  | .rebaseSnapshot env token => { readings := [env.wall 0], bases := [token] }
  | .compact env identity _ => { readings := [env.wall 0], identities := [identity] }
  | .compactForBounds env identity _ _ _ stable =>
    { readings := [env.wall 0], identities := [identity], stable := some stable.clone }
  | .reload _ => {}
  | .reopen _ => {}

/-- The number of times the code of an event advances the clock, if it gets that far. -/
def DurableEvent.clockCalls : DurableEvent → ℕ
  | .apply _ _ => 1
  | .append _ _ _ _ => 2
  | .appendEncrypted _ _ _ _ _ => 2
  | .appendEncryptedBatch _ _ mutations => 2 * mutations.length
  | .bootstrapEncrypted _ _ mutations => 2 * mutations.length
  | .adoptSnapshot _ _ => 1
  | .rebaseSnapshot _ _ => 0
  | .compact _ _ _ => 1
  | .compactForBounds _ _ _ _ _ _ => 1
  | .reload _ => 0
  | .reopen _ => 0

namespace DurableReplica

/-- A new process opens the file with a clock of the same bound; if that fails there is no new
handle. -/
def reopen (P : Primitives) (d : DurableReplica) (env : Environment) : DurableReplica :=
  match openDurableReplica P d.spaceID d.schema ⟨d.clock.maxFutureSkew, ⟨0, 0⟩⟩ d.file
      env.replay with
  | .error _ => d
  | .ok opened => opened

def step (P : Primitives) (d : DurableReplica) : DurableEvent → DurableReplica
  | .apply env token => (d.apply P env token).2
  | .append env identity entropy mutation => (d.append P env identity entropy mutation).2
  | .appendEncrypted env identity entropy key mutation =>
    (d.appendEncrypted P env identity entropy key mutation).2
  | .appendEncryptedBatch env identity mutations =>
    (d.appendEncryptedBatch P env identity mutations).2
  | .bootstrapEncrypted env identity mutations => (d.bootstrapEncrypted P env identity mutations).2
  | .adoptSnapshot env token => (d.adoptSnapshot P env token).2
  | .rebaseSnapshot env token => (d.rebaseSnapshot P env token).2
  | .compact env identity entropy => (d.compact P env identity entropy).2
  | .compactForBounds env identity entropy maxTailOps maxTailBytes stable =>
    (d.compactForBounds P env identity entropy maxTailOps maxTailBytes stable).2
  | .reload env => (d.reload P env).2
  | .reopen env => d.reopen P env

def contents (d : DurableReplica) : DurableState := d.file.getD (emptyState d.spaceID d.schema)

def fileReplica (P : Primitives) (d : DurableReplica) : Replica :=
  (load P d.spaceID d.schema d.contents).getD (.empty d.spaceID d.schema ⟨0, ⟨0, 0⟩⟩)

def Headed (d : DurableReplica) (state : DurableState) : Prop :=
  state.version = durableVersion ∧ state.spaceID = d.spaceID ∧ state.schemaVersion = d.schema

/-- The file and the handle each hold what a replay would load. -/
structure Sound (P : Primitives) (d : DurableReplica) : Prop where
  header : d.Headed d.contents
  file : ∃ r, load P d.spaceID d.schema d.contents = some r
  handle : load P d.spaceID d.schema d.state = some d.replica.unclocked

theorem Sound.load_contents {P : Primitives} {d : DurableReplica} (sound : Sound P d) :
    load P d.spaceID d.schema d.contents = some (d.fileReplica P) := by
  obtain ⟨r, loaded⟩ := sound.file
  rw [fileReplica, loaded]
  rfl

/-- The copy an event starts from: the loaded file, with the clock moved up to it. -/
structure Start (P : Primitives) (d : DurableReplica) (clock : Clock) (r : Replica) : Prop where
  loaded : load P d.spaceID d.schema d.contents = some r.unclocked
  clock : r.clock = restored P clock d.contents

/-- How an event leaves the handle `d` when its work ended in `last`, having begun in `first`. -/
inductive Commit (d : DurableReplica) (first last : Copy) : DurableReplica → Prop where
  /-- The work or the write failed: only the clock remembers. -/
  | dropped : Commit d first last { d with clock := last.replica.clock }
  /-- The file was replaced, but the call reported an error. -/
  | unsynced : Commit d first last { d with clock := last.replica.clock, file := some last.state }
  | kept : Commit d first last
      { d with clock := last.replica.clock, file := some last.state, state := last.state,
               replica := last.replica }
  /-- Nothing had to be written. -/
  | clean (same : last = first) : Commit d first last
      { d with clock := last.replica.clock, state := last.state, replica := last.replica }

variable {P : Primitives} {d : DurableReplica}

theorem readState_contents (header : d.Headed d.contents) :
    readState d.spaceID d.schema d.file = .ok d.contents := by
  unfold readState contents at *
  cases stored : d.file with
  | none => rfl
  | some state =>
    rw [stored] at header
    simp only [Option.getD_some] at header ⊢
    rw [if_neg]
    push Not
    exact ⟨header.1, header.2.1, header.2.2⟩

theorem Start.loadedCopy {clock : Clock} {r : Replica} (start : Start P d clock r) :
    (Copy.mk r d.contents).Loaded P := by
  obtain ⟨space, schema⟩ := load_header start.loaded
  have sameSpace : r.spaceID = d.spaceID := space
  have sameSchema : r.supportedSchemaVersion = d.schema := schema
  rw [Copy.Loaded, sameSpace, sameSchema]
  exact start.loaded

inductive Effect (P : Primitives) (d : DurableReplica) (inputs : Inputs) (n : ℕ) :
    DurableReplica → Prop where
  | idle : Effect P d inputs n d
  | worked (r : Replica) (last : Copy) (after : DurableReplica) (start : Start P d d.clock r)
      (steps : Steps P inputs n ⟨r, d.contents⟩ last)
      (commit : Commit d ⟨r, d.contents⟩ last after) : Effect P d inputs n after
  | reopened (r : Replica) (start : Start P d ⟨d.clock.maxFutureSkew, ⟨0, 0⟩⟩ r) :
      Effect P d inputs n { d with clock := r.clock, state := d.contents, replica := r }

/-- **What a mutation does**: nothing, or steps from the loaded file that end in a commit. -/
theorem mutate_effect {α : Type} (sound : Sound P d) (env : Environment) {inputs : Inputs}
    {n : ℕ} {work : Work α} (follows : Follows P inputs n work) :
    Effect P d inputs n (d.mutate P env work).2 := by
  unfold mutate
  split_ifs with inaccessible
  · exact .idle
  · rw [readState_contents sound.header]
    simp only
    rcases buildReplica_spec P d.spaceID d.schema d.clock env.replay d.contents with
      ⟨error, failed⟩ | ⟨r, built, loaded, clock⟩
    · rw [failed]
      exact .idle
    · rw [built]
      simp only
      have start : Start P d d.clock r := ⟨loaded, clock⟩
      have copy := start.loadedCopy
      cases ran : work r d.contents with
      | mk result after =>
        cases result with
        | error error =>
          obtain ⟨next, steps⟩ := follows.failed _ _ _ _ copy ran
          exact .worked r ⟨after, next⟩ _ start steps .dropped
        | ok value =>
          obtain ⟨value, dirty, next⟩ := value
          obtain ⟨steps, clean⟩ := follows.done _ _ _ _ _ _ copy ran
          refine .worked r ⟨after, next⟩ _ start steps ?_
          simp only
          split_ifs with untouched
          · obtain ⟨rfl, rfl⟩ := clean untouched
            exact .clean rfl
          · split
            · exact .dropped
            · exact .unsynced
            · exact .kept

/-- **What an event does**: nothing, a restart, or steps from the loaded file that end in a
commit. -/
theorem step_effect (sound : Sound P d) (event : DurableEvent) :
    Effect P d event.inputs event.clockCalls (d.step P event) := by
  cases event with
  | apply env token =>
    exact mutate_effect sound env (applyWork_follows token (by simp [DurableEvent.inputs])
      (by simp [DurableEvent.inputs]))
  | append env identity entropy mutation =>
    exact mutate_effect sound env (appendWork_follows identity entropy mutation
      (by simp [DurableEvent.inputs]) (by simp [DurableEvent.inputs])
      (by simp [DurableEvent.inputs]) rfl)
  | appendEncrypted env identity entropy key mutation =>
    exact mutate_effect sound env (appendEncryptedWork_follows identity entropy key mutation
      (by simp [DurableEvent.inputs]) (by simp [DurableEvent.inputs])
      (by simp [DurableEvent.inputs]) rfl)
  | appendEncryptedBatch env identity mutations =>
    exact mutate_effect sound env (appendEncryptedBatchWork_follows
      (by simp [DurableEvent.inputs]) rfl fun position bound => mem_batchReadings bound)
  | bootstrapEncrypted env identity mutations =>
    exact mutate_effect sound env (bootstrapEncryptedWork_follows
      (by simp [DurableEvent.inputs]) rfl fun position bound => mem_batchReadings bound)
  | adoptSnapshot env token =>
    exact mutate_effect sound env (adoptSnapshotWork_follows token
      (by simp [DurableEvent.inputs]) (by simp [DurableEvent.inputs]) rfl)
  | rebaseSnapshot env token =>
    exact mutate_effect sound env (rebaseSnapshotWork_follows token
      (by simp [DurableEvent.inputs]) rfl)
  | compact env identity entropy =>
    exact mutate_effect sound env (compactWork_follows entropy (by simp [DurableEvent.inputs])
      (by simp [DurableEvent.inputs]) rfl rfl)
  | compactForBounds env identity entropy maxTailOps maxTailBytes stable =>
    simp only [step, compactForBounds]
    split_ifs with unbounded
    · exact .idle
    · exact mutate_effect sound env (compactForBoundsWork_follows entropy maxTailOps maxTailBytes
        (by simp [DurableEvent.inputs]) (by simp [DurableEvent.inputs]) rfl rfl)
  | reload env =>
    simp only [step, reload, readState_contents sound.header]
    rcases buildReplica_spec P d.spaceID d.schema d.clock env.replay d.contents with
      ⟨error, failed⟩ | ⟨r, built, loaded, clock⟩
    · rw [failed]
      exact .idle
    · rw [built]
      exact .worked r ⟨r, d.contents⟩ _ ⟨loaded, clock⟩ .refl (.clean rfl)
  | reopen env =>
    simp only [step, reopen, openDurableReplica]
    split
    · exact .idle
    · rename_i opened success
      obtain ⟨-, success⟩ := guard_ok success
      rw [readState_contents sound.header] at success
      simp only [bind, Except.bind] at success
      rcases buildReplica_spec P d.spaceID d.schema ⟨d.clock.maxFutureSkew, ⟨0, 0⟩⟩ env.replay
        d.contents with ⟨error, failed⟩ | ⟨r, built, loaded, clock⟩
      · rw [failed] at success
        cases success
      · rw [built] at success
        cases success
        exact .reopened r ⟨loaded, clock⟩

theorem mutate_ok {α : Type} (sound : Sound P d) {env : Environment} {work : Work α} {value : α}
    {ack : DurableAck} (success : (d.mutate P env work).1 = .ok (value, ack)) :
    ∃ r dirty next after, Start P d d.clock r ∧
      work r d.contents = (.ok (value, dirty, next), after) ∧
      (d.mutate P env work).2 =
        { d with clock := after.clock, file := if dirty then some next else d.file,
                 state := next, replica := after } := by
  unfold mutate at success ⊢
  split_ifs at success ⊢ with inaccessible
  · rw [readState_contents sound.header] at success ⊢
    simp only at success ⊢
    rcases buildReplica_spec P d.spaceID d.schema d.clock env.replay d.contents with
      ⟨error, failed⟩ | ⟨r, built, loaded, clock⟩
    · rw [failed] at success
      cases success
    · rw [built] at success ⊢
      simp only at success ⊢
      cases ran : work r d.contents with
      | mk result after =>
        rw [ran] at success
        cases result with
        | error error => cases success
        | ok triple =>
          obtain ⟨given, dirty, next⟩ := triple
          cases dirty with
          | false =>
            cases success
            exact ⟨r, false, next, after, ⟨loaded, clock⟩, ran, rfl⟩
          | true =>
            cases written : env.write with
            | failed =>
              simp [written] at success
            | unsynced =>
              simp [written] at success
            | replaced =>
              simp only [written, Bool.true_eq_false, if_false] at success ⊢
              cases success
              exact ⟨r, true, next, after, ⟨loaded, clock⟩, ran, rfl⟩

/-! ### Every reachable handle is sound -/

theorem Progress.headed {inputs : Inputs} {c next : Copy} {n : ℕ} (step : Progress P inputs n c next)
    (header : d.Headed c.state) (space : c.replica.spaceID = d.spaceID)
    (schema : c.replica.supportedSchemaVersion = d.schema) : d.Headed next.state := by
  cases step with
  | tick r s wall read => exact header
  | deliver r s wall op read given fresh => exact header
  | write r s walls identity op tick apply signer writes written fresh => exact header
  | bootstrapped r s => exact header
  | adopt r s wall token snapshot read given keeps unbased bare installable => exact header
  | rebase r s token snapshot given verified sameSpace sameSchema covers =>
    exact ⟨rfl, space, schema⟩
  | compact r s wall identity entropy signature snapshot read signer keeps complete known verified =>
    exact ⟨rfl, space, schema⟩

theorem Steps.headed {inputs : Inputs} {c next : Copy} {n : ℕ} (steps : Steps P inputs n c next)
    (loaded : c.Loaded P) (header : d.Headed c.state) (space : c.replica.spaceID = d.spaceID)
    (schema : c.replica.supportedSchemaVersion = d.schema) : d.Headed next.state := by
  induction steps with
  | refl => exact header
  | tail before step ih =>
    obtain ⟨-, sameSpace, sameSchema⟩ := before.loaded loaded
    exact Progress.headed step (ih loaded header space schema) (sameSpace.trans space)
      (sameSchema.trans schema)

theorem Start.last {clock : Clock} {r : Replica} (sound : Sound P d) (start : Start P d clock r)
    {inputs : Inputs} {n : ℕ} {last : Copy} (steps : Steps P inputs n ⟨r, d.contents⟩ last) :
    d.Headed last.state ∧ load P d.spaceID d.schema last.state = some last.replica.unclocked ∧
      last.Loaded P := by
  obtain ⟨space, schema⟩ := load_header start.loaded
  obtain ⟨loaded, sameSpace, sameSchema⟩ := steps.loaded start.loadedCopy
  refine ⟨Steps.headed steps start.loadedCopy sound.header space schema, ?_, loaded⟩
  have held := loaded
  rw [Copy.Loaded, sameSpace, sameSchema] at held
  have spaceEq : r.spaceID = d.spaceID := space
  have schemaEq : r.supportedSchemaVersion = d.schema := schema
  simp only [spaceEq, schemaEq] at held
  exact held

theorem sound_step (sound : Sound P d) (event : DurableEvent) : Sound P (d.step P event) := by
  have effect := step_effect sound event
  generalize d.step P event = after at effect ⊢
  cases effect with
  | idle => exact sound
  | worked r last after start steps commit =>
    obtain ⟨headed, loaded, -⟩ := start.last sound steps
    cases commit with
    | dropped => exact ⟨sound.header, sound.file, sound.handle⟩
    | unsynced => exact ⟨headed, ⟨_, loaded⟩, sound.handle⟩
    | kept => exact ⟨headed, ⟨_, loaded⟩, loaded⟩
    | clean same => exact ⟨sound.header, sound.file, loaded⟩
  | reopened r start => exact ⟨sound.header, sound.file, start.loaded⟩

theorem sound_open {spaceID : String} {schema : Nat} {clock : Clock} {replay : Nat → Int}
    (opened : openDurableReplica P spaceID schema clock none replay = .ok d) : Sound P d := by
  obtain ⟨-, opened⟩ := guard_ok opened
  obtain ⟨state, read, opened⟩ := bind_ok opened
  cases read
  rcases buildReplica_spec P spaceID schema clock replay (emptyState spaceID schema) with
    ⟨error, failed⟩ | ⟨r, built, loaded, -⟩
  · rw [failed] at opened
    cases opened
  · rw [built] at opened
    cases opened
    exact ⟨⟨rfl, rfl, rfl⟩, ⟨_, loaded⟩, loaded⟩

/-- **Every reachable handle is sound.** -/
theorem sound_run (sound : Sound P d) (events : List DurableEvent) :
    Sound P (run (step P) d events) :=
  run_invariant (Sound P) (fun _ event held => sound_step held event) sound events

end DurableReplica

end Atterm.ConfigSync
