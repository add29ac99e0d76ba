/-
**Fleets of honest devices.**

A `Fleet` is a family of durable replicas, each with its own identity. After each event the file of
the device is read: its operations and its snapshot are what can reach other devices from then on.

* `Fleet.invariant_run` — the files of a fleet stay in one sound world;
* `hlc_respects_causality` — an operation that has seen another one has a later timestamp.
-/

import Atterm.ConfigSync.World

namespace Atterm.ConfigSync

open Atterm.Foundation

section Steps

variable {P : Primitives} {device : String} {W : World} {inputs : Inputs} {c following : Copy}
  {n : ℕ}

theorem Progress.harvest_issued (step : Progress P inputs n c following) (loaded : c.Loaded P)
    (sound : W.Sound P) (honest : inputs.Honest P device W)
    (filed : Filed P device W c.state c.replica) (silent : inputs.writes = false) :
    (W.harvest P following.state).issued = W.issued := by
  have held : ∀ op, op.token ∈ c.state.ops → P.Genuine op → op ∈ W.issued :=
    fun op member genuine => filed.stored op ((loaded.stores_iff op).mp ⟨member, genuine⟩)
  refine Set.union_eq_left.mpr ?_
  rintro op ⟨member, genuine⟩
  cases step with
  | tick r s wall read => exact held op member genuine
  | deliver r s wall delivered read given fresh =>
    rcases List.mem_append.mp member with before | last
    · exact held op before genuine
    · obtain ⟨other, known, same⟩ := honest.tokens delivered.token given
      rw [List.mem_singleton] at last
      rw [genuine.token_inj (sound.genuine other known) (last.trans same.symm)]
      exact known
  | write r s walls identity op tick apply signer writes written fresh =>
    rw [silent] at writes
    cases writes
  | bootstrapped r s => exact held op member genuine
  | adopt r s wall token snapshot read given keeps unbased bare installable =>
    exact held op member genuine
  | rebase r s token snapshot given keeps verified space schema covers => cases member
  | compact r s wall identity entropy signature snapshot read signer keeps complete known verified =>
    cases member

theorem Progress.stores_of_stores (step : Progress P inputs n c following)
    (writing : inputs.writes = true) {op : VerifiedOp} (stored : c.replica.Stores op) :
    following.replica.Stores op := by
  cases step with
  | tick r s wall read => exact stored
  | deliver r s wall delivered read given fresh =>
    exact (Replica.stores_stored_iff fresh op).mpr (Or.inr stored)
  | write r s walls identity written tick apply signer writes created fresh =>
    exact (Replica.stores_stored_iff fresh op).mpr (Or.inr stored)
  | bootstrapped r s => exact stored
  | adopt r s wall token snapshot read given keeps unbased bare installable =>
    rw [writing] at keeps
    cases keeps
  | rebase r s token snapshot given keeps verified space schema covers =>
    rw [writing] at keeps
    cases keeps
  | compact r s wall identity entropy signature snapshot read signer keeps complete known verified =>
    rw [writing] at keeps
    cases keeps

/-- **What the steps of a call do to the world**, together with anything that each step keeps. -/
theorem Steps.filed (kept : World → Copy → Prop) (steps : Steps P inputs n c following)
    (loaded : c.Loaded P) (caught : c.CaughtUp P) (sound : W.Sound P)
    (honest : inputs.Honest P device W) (filed : Filed P device W c.state c.replica)
    (initial : kept W c)
    (keeps : ∀ V m first second, Progress P inputs m first second → first.Loaded P →
      V.Sound P → inputs.Honest P device V → Filed P device V first.state first.replica →
      first.CaughtUp P → kept V first → kept (V.harvest P second.state) second) :
    ∃ V, World.Sound P V ∧ W.Grown device V ∧ Filed P device V following.state following.replica ∧
      V.issued = (W.harvest P following.state).issued ∧ kept V following := by
  -- the operations the world gains are in the copy, and there are none if the call does not write
  suffices reached : ∃ V, World.Sound P V ∧ W.Grown device V ∧
      Filed P device V following.state following.replica ∧
      (inputs.writes = true → V.issued = W.issued ∪ {op | following.replica.Stores op}) ∧
      (inputs.writes = false → V.issued = W.issued) ∧ kept V following by
    obtain ⟨V, world, grown, file, wrote, silent, extra⟩ := reached
    refine ⟨V, world, grown, file, ?_, extra⟩
    have ops : {op | op.token ∈ following.state.ops ∧ P.Genuine op} =
        {op | following.replica.Stores op} :=
      Set.ext fun op => (steps.loaded loaded).1.stores_iff op
    rw [World.harvest, ops]
    cases writing : inputs.writes with
    | true => exact wrote writing
    | false =>
      rw [silent writing]
      refine (Set.union_eq_left.mpr fun op stored => ?_).symm
      rw [← silent writing]
      exact file.stored op stored
  induction steps with
  | refl =>
    refine ⟨W, sound, .refl device W, filed, fun _ => ?_, fun _ => rfl, initial⟩
    exact (Set.union_eq_left.mpr filed.stored).symm
  | @tail n m first middle last before step ih =>
    obtain ⟨V, world, grown, file, wrote, silent, extra⟩ := ih loaded caught filed initial
    have middleLoaded := (before.loaded loaded).1
    have middleCaught := (before.caughtUp caught).1
    have meets := honest.grown grown
    obtain ⟨wider, more, kept⟩ := step.filed middleLoaded middleCaught world meets file
    refine ⟨V.harvest P last.state, wider, grown.trans more, kept, fun writing => ?_,
      fun writing => ?_, keeps V m middle last step middleLoaded world meets file middleCaught
        extra⟩
    · have ops : {op | op.token ∈ last.state.ops ∧ P.Genuine op} =
          {op | last.replica.Stores op} :=
        Set.ext fun op => (step.loaded middleLoaded).1.stores_iff op
      have covered : {op | middle.replica.Stores op} ∪ {op | last.replica.Stores op} =
          {op | last.replica.Stores op} :=
        Set.union_eq_right.mpr fun op stored => step.stores_of_stores writing stored
      simp only [World.harvest]
      rw [ops, wrote writing, Set.union_assoc, covered]
    · rw [step.harvest_issued middleLoaded world meets file writing, silent writing]

end Steps

/-! ### Fleets -/

/-- The durable replicas of several devices, and what their files have held. -/
structure Fleet (ι : Type) where
  device : ι → DurableReplica
  issued : List VerifiedOp
  snapshots : List SnapshotToken

def harvestOps (P : Primitives) (state : DurableState) : List VerifiedOp :=
  state.ops.filterMap fun token => (P.verifyOp token).toOption

theorem mem_harvestOps_iff {P : Primitives} {state : DurableState} {op : VerifiedOp} :
    op ∈ harvestOps P state ↔ op.token ∈ state.ops ∧ P.Genuine op := by
  unfold harvestOps
  rw [List.mem_filterMap]
  constructor
  · rintro ⟨token, member, read⟩
    cases verified : P.verifyOp token with
    | error error =>
      rw [verified] at read
      cases read
    | ok other =>
      rw [verified] at read
      cases read
      obtain ⟨genuine, rfl⟩ := P.genuine_of_verify verified
      exact ⟨member, genuine⟩
  · rintro ⟨member, genuine⟩
    refine ⟨op.token, member, ?_⟩
    rw [show P.verifyOp op.token = .ok op from genuine]
    rfl

namespace Fleet

variable {ι : Type} [DecidableEq ι]

omit [DecidableEq ι] in
/-- A device writes under its own identity, and receives what has been in some file. -/
def Admits (identity : ι → Identity) (f : Fleet ι) (device : ι) (inputs : Inputs) : Prop :=
  (∀ token ∈ inputs.tokens, token ∈ f.issued.map VerifiedOp.token) ∧
    (∀ token ∈ inputs.snapshots, token ∈ f.snapshots) ∧
    (∀ token ∈ inputs.bases, token ∈ f.snapshots) ∧
    ∀ signer ∈ inputs.identities, signer = identity device

instance (identity : ι → Identity) (f : Fleet ι) (device : ι) (inputs : Inputs) :
    Decidable (f.Admits identity device inputs) :=
  inferInstanceAs (Decidable (_ ∧ _ ∧ _ ∧ _))

/-- The fleet in which a device has come to this state, its file read. -/
def put (P : Primitives) (f : Fleet ι) (device : ι) (d : DurableReplica) : Fleet ι where
  device := Function.update f.device device d
  issued := harvestOps P d.contents ++ f.issued
  snapshots := d.contents.snapshot.toList ++ f.snapshots

/-- One event at a device; what an honest device does not meet is left out. -/
def step (P : Primitives) (identity : ι → Identity) (f : Fleet ι) (event : ι × DurableEvent) :
    Fleet ι :=
  if f.Admits identity event.1 event.2.inputs then
    f.put P event.1 ((f.device event.1).step P event.2)
  else f

structure Settles (P : Primitives) (name : String) (W : World) (d : DurableReplica) : Prop where
  sound : d.Sound P
  caught : d.CaughtUp P
  filed : Filed P name W d.contents (d.fileReplica P)

/-- The files of the fleet are in one sound world, whose operations are those of the files. -/
structure Invariant (P : Primitives) (identity : ι → Identity) (f : Fleet ι) (W : World) :
    Prop where
  world : W.Sound P
  issued : W.issued = {op | op ∈ f.issued}
  snapshots : ∀ token ∈ f.snapshots, token ∈ W.snapshots
  devices : ∀ device, Settles P (P.peerID (identity device).publicKey) W (f.device device)

variable {P : Primitives} {identity : ι → Identity}

omit [DecidableEq ι] in
theorem honest_of_admits {f : Fleet ι} {W : World} (invariant : Invariant P identity f W)
    {device : ι} {inputs : Inputs} (admitted : f.Admits identity device inputs) :
    inputs.Honest P (P.peerID (identity device).publicKey) W where
  tokens token given := by
    obtain ⟨op, member, same⟩ := List.mem_map.mp (admitted.1 token given)
    exact ⟨op, by rw [invariant.issued]; exact member, same⟩
  snapshots token given := invariant.snapshots token (admitted.2.1 token given)
  bases token given := invariant.snapshots token (admitted.2.2.1 token given)
  identities signer given := by rw [admitted.2.2.2 signer given]

/-- **What an event of a device does to the world**, together with anything about its file that
each step of a working copy keeps. -/
theorem settles_step (kept : World → Replica → Prop) {name : String} {W : World}
    {d : DurableReplica} {event : DurableEvent} (settles : Settles P name W d) (world : W.Sound P)
    (honest : event.inputs.Honest P name W) (initial : kept W (d.fileReplica P))
    (keeps : ∀ V m first second, Progress P event.inputs m first second → first.Loaded P →
      V.Sound P → event.inputs.Honest P name V → Filed P name V first.state first.replica →
      first.CaughtUp P → kept V first.replica.unclocked →
      kept (V.harvest P second.state) second.replica.unclocked) :
    ∃ V, World.Sound P V ∧ W.Grown name V ∧ Settles P name V (d.step P event) ∧
      V.issued = (W.harvest P (d.step P event).contents).issued ∧
      (∀ token, (d.step P event).contents.snapshot = some token → token ∈ V.snapshots) ∧
      kept V ((d.step P event).fileReplica P) := by
  have soundAfter := DurableReplica.sound_step settles.sound event
  have caughtAfter := (DurableReplica.caughtUp_step settles.sound settles.caught event).1
  -- an event that leaves the file alone leaves the world alone
  have same : (d.step P event).contents = d.contents →
      (d.step P event).fileReplica P = d.fileReplica P →
      ∃ V, World.Sound P V ∧ W.Grown name V ∧ Settles P name V (d.step P event) ∧
        V.issued = (W.harvest P (d.step P event).contents).issued ∧
        (∀ token, (d.step P event).contents.snapshot = some token → token ∈ V.snapshots) ∧
        kept V ((d.step P event).fileReplica P) := by
    intro contents file
    have filed : Filed P name W (d.step P event).contents ((d.step P event).fileReplica P) := by
      rw [contents, file]
      exact settles.filed
    have read : W.harvest P d.contents = W := by
      refine World.harvest_eq_self (fun op member genuine => settles.filed.stored op ?_)
        settles.filed.base
      exact (load_stores_iff settles.sound.load_contents op).mpr ⟨member, genuine⟩
    refine ⟨W, world, .refl name W, ⟨soundAfter, caughtAfter, filed⟩, ?_, filed.base, ?_⟩
    · rw [contents, read]
    · rw [file]
      exact initial
  have effect := DurableReplica.step_effect settles.sound event
  generalize d.step P event = after at effect soundAfter caughtAfter same ⊢
  cases effect with
  | idle => exact same rfl rfl
  | worked r last after start steps commit =>
    have copy := start.loadedCopy
    have caught := (start.caughtUp settles.caught).2
    have file : d.fileReplica P = r.unclocked := by
      rw [DurableReplica.fileReplica, start.loaded]
      rfl
    have filed := settles.filed
    rw [file] at filed initial
    obtain ⟨V, wider, grown, filedLast, added, extra⟩ := Steps.filed
      (fun V c => kept V c.replica.unclocked) steps copy caught world honest
      ⟨filed.stored, filed.base, filed.observed, filed.own⟩ initial keeps
    obtain ⟨-, loaded, -⟩ := start.last settles.sound steps
    -- the file is as before, or holds what the work ended with
    have moved : after.contents = last.state → after.spaceID = d.spaceID →
        after.schema = d.schema →
        ∃ V, World.Sound P V ∧ W.Grown name V ∧ Settles P name V after ∧
          V.issued = (W.harvest P after.contents).issued ∧
          (∀ token, after.contents.snapshot = some token → token ∈ V.snapshots) ∧
          kept V (after.fileReplica P) := by
      intro contents space schema
      have fileAfter : after.fileReplica P = last.replica.unclocked := by
        rw [DurableReplica.fileReplica, contents, space, schema, loaded]
        rfl
      have filedAfter : Filed P name V after.contents (after.fileReplica P) := by
        rw [contents, fileAfter]
        exact ⟨filedLast.stored, filedLast.base, filedLast.observed, filedLast.own⟩
      refine ⟨V, wider, grown, ⟨soundAfter, caughtAfter, filedAfter⟩, ?_, filedAfter.base, ?_⟩
      · rw [contents, added]
      · rw [fileAfter]
        exact extra
    cases commit with
    | dropped => exact same rfl rfl
    | unsynced => exact moved rfl rfl rfl
    | kept => exact moved rfl rfl rfl
    | clean unchanged =>
      subst unchanged
      exact same rfl rfl
  | reopened r start => exact same rfl rfl

omit [DecidableEq ι] in
theorem Settles.grown {name other : String} {W V : World} {d : DurableReplica}
    (settles : Settles P other W d) (grown : W.Grown name V) (different : other ≠ name) :
    Settles P other V d :=
  ⟨settles.sound, settles.caught, settles.filed.grown grown different⟩

theorem Invariant.put {f : Fleet ι} {W V : World} (invariant : Invariant P identity f W)
    (distinct : Function.Injective fun device => P.peerID (identity device).publicKey)
    {device : ι} {d : DurableReplica} (wider : V.Sound P)
    (grown : W.Grown (P.peerID (identity device).publicKey) V)
    (settles : Settles P (P.peerID (identity device).publicKey) V d)
    (issued : V.issued = (W.harvest P d.contents).issued) :
    Invariant P identity (f.put P device d) V := by
  refine ⟨wider, ?_, fun token member => ?_, fun other => ?_⟩
  · rw [issued, World.harvest, invariant.issued]
    ext op
    simp only [Fleet.put, Set.mem_union, Set.mem_ofPred_eq, List.mem_append, mem_harvestOps_iff]
    exact or_comm
  · rcases List.mem_append.mp member with held | before
    · exact settles.filed.base token (by simpa using held)
    · exact grown.snapshots (invariant.snapshots token before)
  · by_cases same : other = device
    · subst same
      simp only [Fleet.put, Function.update_self]
      exact settles
    · simp only [Fleet.put, Function.update_of_ne same]
      exact (invariant.devices other).grown grown fun equal => same (distinct equal)

theorem invariant_step
    (distinct : Function.Injective fun device => P.peerID (identity device).publicKey)
    {f : Fleet ι} {W : World} (invariant : Invariant P identity f W) (event : ι × DurableEvent) :
    ∃ V, Invariant P identity (f.step P identity event) V := by
  unfold step
  split_ifs with admitted
  · obtain ⟨V, wider, grown, settles, issued, -⟩ := settles_step (fun _ _ => True)
      (invariant.devices event.1) invariant.world (honest_of_admits invariant admitted) trivial
      (fun _ _ _ _ _ _ _ _ _ _ _ => trivial)
    exact ⟨V, invariant.put distinct wider grown settles issued⟩
  · exact ⟨W, invariant⟩

/-- A fleet whose devices have just created their replicas. -/
def Starts (P : Primitives) (start : ι → DurableReplica) : Prop :=
  ∀ device, ∃ spaceID schema skew replay,
    DurableReplica.openDurableReplica P spaceID schema (.new skew) none replay = .ok (start device)

theorem open_blank {spaceID : String} {schema : Nat} {skew : Int} {replay : Nat → Int}
    {d : DurableReplica} (opened : DurableReplica.openDurableReplica P spaceID schema (.new skew)
      none replay = .ok d) : d.contents = emptyState d.spaceID d.schema ∧
      d.fileReplica P = .empty d.spaceID d.schema ⟨0, ⟨0, 0⟩⟩ ∧
      d.replica = .empty d.spaceID d.schema d.replica.clock := by
  have handle := (DurableReplica.sound_open opened).handle
  obtain ⟨-, opened⟩ := guard_ok opened
  obtain ⟨state, read, opened⟩ := bind_ok opened
  cases read
  split at opened
  · cases opened
  · rename_i built restored result
    cases opened
    have blank : Replica.empty spaceID schema ⟨0, ⟨0, 0⟩⟩ = built.unclocked :=
      Option.some.inj handle
    refine ⟨rfl, rfl, ?_⟩
    change built = { Replica.empty spaceID schema ⟨0, ⟨0, 0⟩⟩ with clock := built.clock }
    rw [blank]
    rfl

theorem settles_open {name spaceID : String} {schema : Nat} {skew : Int} {replay : Nat → Int}
    {d : DurableReplica} (opened : DurableReplica.openDurableReplica P spaceID schema (.new skew)
      none replay = .ok d) : Settles P name .empty d := by
  have sound := DurableReplica.sound_open opened
  obtain ⟨blank, file, -⟩ := open_blank opened
  refine ⟨sound, (DurableReplica.caughtUp_open opened).1, ?_⟩
  rw [blank, file]
  refine ⟨fun op stored => ?_, fun token held => (by cases held), ⟨?_, ?_⟩, ?_⟩
  · simp [Replica.Stores, Replica.empty] at stored
  · intro actor counter positive known
    rw [Replica.Knows, Replica.seen_empty] at known
    simp [Replica.empty] at known
    omega
  · exact fun op member => absurd member (Set.notMem_empty _)
  · exact fun op member => absurd member (Set.notMem_empty _)

omit [DecidableEq ι] in
theorem invariant_start {start : ι → DurableReplica} (starts : Starts P start) :
    Invariant P identity ⟨start, [], []⟩ .empty := by
  refine ⟨World.sound_empty P, ?_, fun token member => (by cases member), fun device => ?_⟩
  · exact (Set.eq_empty_of_forall_notMem fun op => List.not_mem_nil).symm
  · obtain ⟨spaceID, schema, skew, replay, opened⟩ := starts device
    exact settles_open opened

/-- **The files of a fleet stay in one sound world.** -/
theorem invariant_run {start : ι → DurableReplica} (starts : Starts P start)
    (distinct : Function.Injective fun device => P.peerID (identity device).publicKey)
    (events : List (ι × DurableEvent)) :
    ∃ W, Invariant P identity (run (step P identity) ⟨start, [], []⟩ events) W :=
  run_invariant (fun f => ∃ W, Invariant P identity f W)
    (fun _ event ⟨_, invariant⟩ => invariant_step distinct invariant event)
    ⟨.empty, invariant_start starts⟩ events

/-- **The hybrid clock respects causality.** In every run of honest devices, with any wall readings,
restarts, compactions, adoptions and rebases, an operation whose context covers another one has the
greater timestamp. -/
theorem hlc_respects_causality {start : ι → DurableReplica} (starts : Starts P start)
    (distinct : Function.Injective fun device => P.peerID (identity device).publicKey)
    (events : List (ι × DurableEvent)) {earlier later : VerifiedOp}
    (first : earlier ∈ (run (step P identity) ⟨start, [], []⟩ events).issued)
    (second : later ∈ (run (step P identity) ⟨start, [], []⟩ events).issued)
    (covers : earlier.document.counter ≤
      later.document.causalContext.get earlier.document.actorDeviceID) :
    compareTimestamp later.document.hlc earlier.document.hlc = .gt := by
  obtain ⟨W, invariant⟩ := invariant_run starts distinct events
  have member : earlier ∈ W.issued := by
    rw [invariant.issued]
    exact first
  have other : later ∈ W.issued := by
    rw [invariant.issued]
    exact second
  rw [compareTimestamp_eq_gt_iff]
  exact invariant.world.causal.ordered later other earlier member covers

def pairIdentities (device : Fin 2) : Identity := .plain (UInt8.ofNat (device + 1))

def pairHandles (_ : Fin 2) : DurableReplica := DurableReplica.blankHandle

/-- A call when the wall clock reads this. -/
def environmentAt (wall : Int) : Environment where
  replay _ := wall
  rebuild _ := wall
  wall _ := wall

def hostMutation (recordID : String) : Mutation := ⟨0, "hosts", recordID, .set, .sync, 1, []⟩

theorem pairHandles_start : Starts .plain pairHandles :=
  fun _ => ⟨"space", 1, 300000, DurableReplica.calmEnvironment.replay, rfl⟩

theorem pairIdentities_distinct : Function.Injective fun device =>
    Primitives.plain.peerID (pairIdentities device).publicKey := by decide

/-- The write of the first device, and what the second writes on having seen it. -/
def seenWrite : SyncOp := .plain 1 1 ⟨50, 0⟩ "h" .set ∅

def lateWrite : SyncOp := .plain 2 1 ⟨50, 1⟩ "k" .set (.ofEntries [("a", 1)])

/-- The second device receives a write of the first, its wall clock falls back, it restarts and
writes: the timestamp is above the one it had received. -/
theorem hlc_respects_causality_after_restart :
    let f := run (step .plain pairIdentities) ⟨pairHandles, [], []⟩
      [(0, .append (environmentAt 50) (.plain 1) ⟨[], [], ""⟩ (hostMutation "h")),
        (1, .apply (environmentAt 40) (.signed seenWrite [])), (1, .reopen (environmentAt 20)),
        (1, .append (environmentAt 20) (.plain 2) ⟨[], [], ""⟩ (hostMutation "k"))]
    ⟨.signed seenWrite [], seenWrite, [1, 0]⟩ ∈ f.issued ∧
      ⟨.signed lateWrite [], lateWrite, [1, 0]⟩ ∈ f.issued ∧
      compareTimestamp lateWrite.hlc seenWrite.hlc = .gt := by
  intro f
  have first : ⟨.signed seenWrite [], seenWrite, [1, 0]⟩ ∈ f.issued := by decide +kernel
  have second : ⟨.signed lateWrite [], lateWrite, [1, 0]⟩ ∈ f.issued := by decide +kernel
  exact ⟨first, second, hlc_respects_causality pairHandles_start pairIdentities_distinct _ first
    second (by decide +kernel)⟩

end Fleet

end Atterm.ConfigSync
