/-
**What the files of honest devices have held.**

A `World` is the set of operations and the set of snapshots that have been in some file. Operations
form a causal history; snapshots and files are observers of it. `Filed` says what a device's file
has to do with the world, and each step of a working copy keeps it for the world that has harvested
the copy:

* `Progress.filed` — what one step of a device does to the world and to its own file;
* `Grown` — what the files of the other devices keep when the world has grown that way.
-/

import Atterm.ConfigSync.DurableClock
import Atterm.ConfigSync.Rebase
import Atterm.ConfigSync.Winners

namespace Atterm.ConfigSync

open Std (ExtTreeMap)
open Atterm.Foundation

/-- The operations and the snapshots that have been in some file. -/
structure World where
  issued : Set VerifiedOp
  snapshots : Set SnapshotToken

def VersionVector.Reports (vector : VersionVector) (actor : String) (counter : ℕ) : Prop :=
  counter ≤ vector.get actor

namespace World

def harvest (P : Primitives) (W : World) (state : DurableState) : World where
  issued := W.issued ∪ {op | op.token ∈ state.ops ∧ P.Genuine op}
  snapshots := W.snapshots ∪ {token | state.snapshot = some token}

/-- The operations form a causal history, and every snapshot has observed what it covers. -/
structure Sound (P : Primitives) (W : World) : Prop where
  genuine : ∀ op ∈ W.issued, P.Genuine op
  causal : stamping.Causal W.issued
  snapshots : ∀ token ∈ W.snapshots, ∃ snapshot, P.verifySnapshot token = .ok snapshot ∧
    stamping.Observed W.issued snapshot.document.coverVector.Reports snapshot.document.createdHLC

structure Grown (device : String) (W next : World) : Prop where
  issued : W.issued ⊆ next.issued
  snapshots : W.snapshots ⊆ next.snapshots
  added : ∀ op ∈ next.issued, op ∈ W.issued ∨ op.document.actorDeviceID = device
  observed : ∀ knows now, stamping.Observed W.issued knows now →
    stamping.Observed next.issued knows now

theorem Grown.refl (device : String) (W : World) : Grown device W W :=
  ⟨subset_rfl, subset_rfl, fun _ member => Or.inl member, fun _ _ observed => observed⟩

theorem Grown.trans {device : String} {W middle next : World} (first : Grown device W middle)
    (second : Grown device middle next) : Grown device W next where
  issued := first.issued.trans second.issued
  snapshots := first.snapshots.trans second.snapshots
  added op member := (second.added op member).elim (first.added op) Or.inr
  observed knows now observed := second.observed knows now (first.observed knows now observed)

def empty : World := ⟨∅, ∅⟩

theorem sound_empty (P : Primitives) : Sound P empty :=
  ⟨fun _ member => absurd member (Set.notMem_empty _), Stamping.causal_empty,
    fun _ member => absurd member (Set.notMem_empty _)⟩

end World

/-- What the file of the device `device` has to do with the world; `r` is the replica it loads. -/
structure Filed (P : Primitives) (device : String) (W : World) (state : DurableState) (r : Replica) :
    Prop where
  stored : ∀ op, r.Stores op → op ∈ W.issued
  base : ∀ token, state.snapshot = some token → token ∈ W.snapshots
  observed : stamping.Observed W.issued r.Knows (fileHLC P state)
  own : ∀ op ∈ W.issued, op.document.actorDeviceID = device →
    op.document.counter ≤ r.vector.get device

structure Inputs.Honest (P : Primitives) (device : String) (W : World) (inputs : Inputs) : Prop where
  tokens : ∀ token ∈ inputs.tokens, ∃ op ∈ W.issued, op.token = token
  snapshots : ∀ token ∈ inputs.snapshots, token ∈ W.snapshots
  bases : ∀ token ∈ inputs.bases, token ∈ W.snapshots
  identities : ∀ identity ∈ inputs.identities, P.peerID identity.publicKey = device

section Steps

variable {P : Primitives} {device : String} {W next : World} {inputs : Inputs}

theorem Filed.grown {other : String} {state : DurableState} {r : Replica}
    (filed : Filed P other W state r) (grown : W.Grown device next) (different : other ≠ device) :
    Filed P other next state r where
  stored op held := grown.issued (filed.stored op held)
  base token held := grown.snapshots (filed.base token held)
  observed := grown.observed _ _ filed.observed
  own op member name := by
    rcases grown.added op member with before | mine
    · exact filed.own op before name
    · exact absurd (name.symm.trans mine) different

theorem Inputs.Honest.grown (honest : inputs.Honest P device W) (grown : W.Grown device next) :
    inputs.Honest P device next where
  tokens token given := by
    obtain ⟨op, member, same⟩ := honest.tokens token given
    exact ⟨op, grown.issued member, same⟩
  snapshots token given := grown.snapshots (honest.snapshots token given)
  bases token given := grown.snapshots (honest.bases token given)
  identities := honest.identities

theorem World.harvest_eq_self {state : DurableState}
    (ops : ∀ op, op.token ∈ state.ops → P.Genuine op → op ∈ W.issued)
    (base : ∀ token, state.snapshot = some token → token ∈ W.snapshots) :
    W.harvest P state = W := by
  unfold harvest
  congr
  · exact Set.union_eq_left.mpr fun op member => ops op member.1 member.2
  · exact Set.union_eq_left.mpr base

theorem Copy.Loaded.stores_iff {c : Copy} (loaded : c.Loaded P) (op : VerifiedOp) :
    op.token ∈ c.state.ops ∧ P.Genuine op ↔ c.replica.Stores op :=
  (load_stores_iff loaded op).symm

theorem Filed.harvest_eq_self {c : Copy} (filed : Filed P device W c.state c.replica)
    (loaded : c.Loaded P) : W.harvest P c.state = W :=
  World.harvest_eq_self
    (fun op member genuine => filed.stored op ((loaded.stores_iff op).mp ⟨member, genuine⟩))
    filed.base

theorem Filed.harvest_keep {r : Replica} {s : DurableState} {op : VerifiedOp}
    (filed : Filed P device W s r) (loaded : (Copy.mk r s).Loaded P) (genuine : P.Genuine op) :
    W.harvest P (s.keep op) = ⟨insert op W.issued, W.snapshots⟩ := by
  unfold World.harvest
  congr 1
  · ext other
    constructor
    · rintro (before | ⟨member, valid⟩)
      · exact Or.inr before
      · rcases List.mem_append.mp member with earlier | last
        · exact Or.inr (filed.stored other ((loaded.stores_iff other).mp ⟨earlier, valid⟩))
        · exact Or.inl (valid.token_inj genuine (List.mem_singleton.mp last))
    · rintro (rfl | before)
      · exact Or.inr ⟨by simp [DurableState.keep], genuine⟩
      · exact Or.inl before
  · exact Set.union_eq_left.mpr filed.base

theorem World.harvest_based (s : DurableState) (r : Replica) (token : SnapshotToken) :
    W.harvest P (s.based r token) = ⟨W.issued, insert token W.snapshots⟩ := by
  unfold World.harvest
  congr 1
  · exact Set.union_eq_left.mpr fun op member => absurd member.1 List.not_mem_nil
  · ext other
    simp [DurableState.based, eq_comm]

theorem reports_install (r : Replica) (snapshot : VerifiedSnapshot) (clock : Clock)
    (actor : String) (counter : ℕ) :
    (r.based snapshot clock).Knows actor counter ↔
      snapshot.document.coverVector.Reports actor counter := by
  have unseen : (r.based snapshot clock).seen actor = ∅ :=
    Replica.seen_empty r.spaceID r.supportedSchemaVersion ⟨0, ⟨0, 0⟩⟩ actor
  rw [Replica.Knows, unseen]
  simp [Replica.based, Replica.install, VersionVector.Reports]

theorem Observed.restrict {issued : Set VerifiedOp} {knows fewer : String → ℕ → Prop}
    {now : Timestamp} (observed : stamping.Observed issued knows now)
    (causal : stamping.Causal issued)
    (less : ∀ actor counter, 0 < counter → fewer actor counter → knows actor counter) :
    stamping.Observed issued fewer now :=
  ⟨fun actor counter positive known =>
      observed.grounded actor counter positive (less actor counter positive known),
    fun op member known =>
      observed.timed op member (less _ _ (causal.positive op member) known)⟩

theorem Replica.le_vector_stored {r : Replica} {base : Option VerifiedSnapshot} {wall : Int}
    {token : OpToken} {op : VerifiedOp} (invariant : r.Invariant P base)
    (fresh : Replica.Fresh P r wall token op)
    (follows : op.document.counter = r.vector.get op.document.actorDeviceID + 1) :
    op.document.counter ≤ (r.stored wall op).vector.get op.document.actorDeviceID := by
  refine ((invariant.stored fresh).frontier _).le_of_contiguous fun m positive bound => ?_
  rw [Replica.knows_stored_iff]
  by_cases last : op.document.counter = m
  · exact Or.inl ⟨rfl, last⟩
  · exact Or.inr (invariant.knows_of_le_vector positive (by omega))

theorem Filed.deliver {r : Replica} {s : DurableState} {wall : Int} {op : VerifiedOp}
    (filed : Filed P device W s r) (causal : stamping.Causal W.issued) (member : op ∈ W.issued)
    (fresh : Replica.Fresh P r wall op.token op) :
    Filed P device W (s.keep op) (r.stored wall op) where
  stored other held := by
    rcases (Replica.stores_stored_iff fresh other).mp held with rfl | before
    · exact member
    · exact filed.stored other before
  base := filed.base
  observed := by
    refine filed.observed.learn causal member (fun actor counter known =>
      (Replica.knows_stored_iff wall op actor counter).mp known) ?_ ?_
    · rw [fileHLC_keep fresh.verified]
      exact le_max_left _ _
    · rw [fileHLC_keep fresh.verified]
      exact le_max_right _ _
  own other known name := (filed.own other known name).trans (r.vector_le_stored wall op device)

theorem Filed.rebase {r after : Replica} {s following : DurableState} {token : SnapshotToken}
    {snapshot : VerifiedSnapshot} (filed : Filed P device W s r) (sound : W.Sound P)
    (member : token ∈ W.snapshots) (verified : P.verifySnapshot token = .ok snapshot)
    (bare : ∀ op, ¬ after.Stores op) (base : following.snapshot = some token)
    (time : fileHLC P following = snapshot.document.createdHLC)
    (knows : ∀ actor counter, after.Knows actor counter ↔
      snapshot.document.coverVector.Reports actor counter)
    (larger : r.vector.get device ≤ after.vector.get device) :
    Filed P device W following after where
  stored op held := absurd held (bare op)
  base other held := by
    rw [base] at held
    cases held
    exact member
  observed := by
    obtain ⟨other, again, observed⟩ := sound.snapshots token member
    rw [verified] at again
    cases again
    rw [time]
    exact Observed.restrict observed sound.causal
      fun actor counter _ known => (knows actor counter).mp known
  own op known name := (filed.own op known name).trans larger

theorem Replica.based_bare (r : Replica) (snapshot : VerifiedSnapshot) (clock : Clock)
    (op : VerifiedOp) : ¬ (r.based snapshot clock).Stores op := by
  intro stored
  simp [Replica.Stores, Replica.based, Replica.install, Replica.empty] at stored

theorem Filed.not_names {r : Replica} {s : DurableState} (filed : Filed P device W s r)
    {walls : Walls} {identity : Identity} {op : VerifiedOp}
    (name : P.peerID identity.publicKey = device)
    (written : Replica.Written P r walls identity op) :
    ¬ stamping.Names W.issued (stamping.actor op) (stamping.counter op) := by
  have mine : op.document.actorDeviceID = device := written.actor.trans name
  rintro ⟨other, member, actor, counter⟩
  have sameActor : other.document.actorDeviceID = op.document.actorDeviceID := actor
  have sameCounter : other.document.counter = op.document.counter := counter
  have below := filed.own other member (sameActor.trans mine)
  rw [sameCounter, written.counter, mine] at below
  omega

theorem World.Sound.write (sound : W.Sound P) {c : Copy} (filed : Filed P device W c.state c.replica)
    (caught : c.CaughtUp P) (loaded : c.Loaded P) {walls : Walls} {identity : Identity}
    {op : VerifiedOp} (name : P.peerID identity.publicKey = device)
    (written : Replica.Written P c.replica walls identity op) :
    World.Sound P ⟨insert op W.issued, W.snapshots⟩ ∧
      W.Grown device ⟨insert op W.issued, W.snapshots⟩ := by
  have mine : op.document.actorDeviceID = device := written.actor.trans name
  have unnamed := filed.not_names name written
  have positive : 0 < stamping.counter op := written.genuine.valid.counter
  have causal : stamping.Causal (insert op W.issued) := by
    refine sound.causal.insert filed.observed unnamed ?_ ?_ ?_
    · change op.document.causalContext.get op.document.actorDeviceID < op.document.counter
      rw [written.context, VersionVector.get_clone, written.counter]
      exact Nat.lt_succ_self _
    · intro actor counter above seen
      have covered : counter ≤ op.document.causalContext.get actor := seen
      rw [written.context, VersionVector.get_clone] at covered
      exact loaded.invariant.knows_of_le_vector above covered
    · change fileHLC P c.state < op.document.hlc
      rw [written.hlc]
      exact lt_of_le_of_lt caught (c.replica.clock.lt_tick walls.tick)
  have observed : ∀ knows now, stamping.Observed W.issued knows now →
      stamping.Observed (insert op W.issued) knows now :=
    fun knows now before => before.insert positive unnamed
  refine ⟨⟨?_, causal, fun token member => ?_⟩, Set.subset_insert _ _, subset_rfl, ?_, observed⟩
  · rintro other (rfl | member)
    · exact written.genuine
    · exact sound.genuine other member
  · obtain ⟨snapshot, verified, before⟩ := sound.snapshots token member
    exact ⟨snapshot, verified, observed _ _ before⟩
  · rintro other (rfl | member)
    · exact Or.inr mine
    · exact Or.inl member

/-- **What one step of a device does to the world**: it stays sound and grows by at most one
operation of that device, and the file of the device stays in it. -/
theorem Progress.filed {c following : Copy} {n : ℕ} (step : Progress P inputs n c following)
    (loaded : c.Loaded P) (caught : c.CaughtUp P) (sound : W.Sound P)
    (honest : inputs.Honest P device W) (filed : Filed P device W c.state c.replica) :
    (W.harvest P following.state).Sound P ∧ W.Grown device (W.harvest P following.state) ∧
      Filed P device (W.harvest P following.state) following.state following.replica := by
  have following_loaded := (step.loaded loaded).1
  -- a step that brings nothing new leaves the world as it is
  have still : Filed P device W following.state following.replica →
      (W.harvest P following.state).Sound P ∧ W.Grown device (W.harvest P following.state) ∧
        Filed P device (W.harvest P following.state) following.state following.replica := by
    intro kept
    rw [kept.harvest_eq_self following_loaded]
    exact ⟨sound, .refl device W, kept⟩
  cases step with
  | tick r s wall read => exact still ⟨filed.stored, filed.base, filed.observed, filed.own⟩
  | bootstrapped r s => exact still ⟨filed.stored, filed.base, filed.observed, filed.own⟩
  | deliver r s wall op read given fresh =>
    obtain ⟨other, member, same⟩ := honest.tokens op.token given
    have equal : other = op := (sound.genuine other member).token_inj
      (P.genuine_of_verify fresh.verified).1 same
    subst equal
    exact still (filed.deliver sound.causal member fresh)
  | write r s walls identity op tick apply signer writes written fresh =>
    obtain ⟨wider, grown⟩ := sound.write filed caught loaded (honest.identities _ signer) written
    have mine : op.document.actorDeviceID = device :=
      written.actor.trans (honest.identities _ signer)
    rw [filed.harvest_keep loaded written.genuine]
    refine ⟨wider, grown, ?_⟩
    have ticked : (r.ticked walls.tick).Invariant P (baseOf P s) :=
      loaded.invariant.withClock _
    have reached := Replica.le_vector_stored ticked fresh written.counter
    refine ⟨fun other held => ?_, filed.base, ?_, ?_⟩
    · rcases (Replica.stores_stored_iff fresh other).mp held with rfl | before
      · exact Set.mem_insert _ _
      · exact Set.mem_insert_of_mem _ (filed.stored other before)
    · have before : stamping.Observed (insert op W.issued) (r.ticked walls.tick).Knows
          (fileHLC P s) := grown.observed _ _ filed.observed
      refine before.learn wider.causal (Set.mem_insert _ _) (fun actor counter known =>
        (Replica.knows_stored_iff walls.apply op actor counter).mp known) ?_ ?_
      · rw [fileHLC_keep fresh.verified]
        exact le_max_left _ _
      · rw [fileHLC_keep fresh.verified]
        exact le_max_right _ _
    · rintro other (rfl | before) name
      · rw [mine] at reached
        exact reached
      · exact (filed.own other before name).trans
          ((r.ticked walls.tick).vector_le_stored walls.apply op device)
  | adopt r s wall token snapshot read given keeps unbased bare installable =>
    refine still (filed.rebase sound (honest.snapshots token given) installable.read ?_ rfl ?_ ?_ ?_)
    · intro op stored
      simp [Replica.Stores, Replica.install, Replica.absorb, installable.ops] at stored
    · rw [fileHLC, snapshotHLC, installable.read, bare]
      rfl
    · intro actor counter
      have unseen : r.seen actor = ∅ := loaded.invariant.seen_eq_empty installable.ops actor
      have none : ((r.absorb wall snapshot.document.createdHLC).install snapshot).seen actor =
        ∅ := unseen
      rw [Replica.Knows, none]
      simp [Replica.install, VersionVector.Reports]
    · simp [installable.vector]
  | rebase r s token snapshot given keeps verified space schema covers =>
    refine still (filed.rebase sound (honest.bases token given) verified
      (r.based_bare snapshot _) rfl (fileHLC_based verified) (reports_install r snapshot _) ?_)
    have reported := (VersionVector.covers_iff _ _).mp covers device
    simpa [Replica.vectorCopy, Replica.based, Replica.install] using reported
  | compact r s wall identity entropy signature snapshot read signer keeps complete known verified =>
    obtain ⟨-, ⟨mark, equal⟩, -⟩ := Primitives.verifySnapshot_ok verified
    have document := (SnapshotToken.signed.inj equal).1
    have cover : snapshot.document.coverVector = r.vector.clone := by
      rw [← document]
      rfl
    have time : snapshot.document.createdHLC = (r.clock.tick wall).1 := by
      rw [← document]
      rfl
    -- the snapshot covers what the file knows, at a later time
    have covered : stamping.Observed W.issued snapshot.document.coverVector.Reports
        snapshot.document.createdHLC := by
      refine Observed.restrict (filed.observed.advance ?_) sound.causal
        fun actor counter positive reported => ?_
      · rw [time]
        exact caught.trans (r.clock.lt_tick wall).le
      · rw [VersionVector.Reports, cover, VersionVector.get_clone] at reported
        exact loaded.invariant.knows_of_le_vector positive reported
    generalize SnapshotToken.signed (r.snapshotDocument P identity entropy inputs.stable
      (r.clock.tick wall).1) signature = token at verified following_loaded still ⊢
    have wider : World.Sound P ⟨W.issued, insert token W.snapshots⟩ := by
      refine ⟨sound.genuine, sound.causal, ?_⟩
      rintro other (rfl | member)
      · exact ⟨snapshot, verified, covered⟩
      · exact sound.snapshots other member
    rw [World.harvest_based]
    have before : Filed P device ⟨W.issued, insert token W.snapshots⟩ s r :=
      ⟨filed.stored, fun other held => Set.mem_insert_of_mem _ (filed.base other held),
        filed.observed, filed.own⟩
    refine ⟨wider, ⟨subset_rfl, Set.subset_insert _ _, fun _ member => Or.inl member,
      fun _ _ observed => observed⟩, before.rebase wider (Set.mem_insert _ _) verified
        (r.based_bare snapshot _) rfl (fileHLC_based verified) (reports_install r snapshot _) ?_⟩
    simp [Replica.based, Replica.install, cover]

end Steps

end Atterm.ConfigSync
