/-
**Pruning stable tombstones.**

A device prunes a delete once its own vector and the acknowledgements of all active peers cover it
(`stableConfigVector`). `Displaying` is what the steps of one event keep while the tombstones that
may be pruned are sealed.

* `get_stableConfigVector_le` — what is stable, every active device has acknowledged;
* `Progress.displays` — each step of a device keeps what is displayed.
-/

import Atterm.ConfigSync.Display
import Atterm.ConfigSync.Fleet

namespace Atterm.ConfigSync

open Std (ExtTreeMap)
open Atterm.Foundation

/-! ### The acknowledgement floor -/

namespace VersionVector

def lowerTo (stable acknowledged : VersionVector) : VersionVector :=
  stable.filterMap fun actor counter =>
    if acknowledged.get actor = 0 then none
    else if acknowledged.get actor < counter then some (acknowledged.get actor)
    else some counter

/-- Raise a vector to what a peer acknowledges now, as `RecordConfigExchange` does. -/
def raiseTo (recorded acknowledged : VersionVector) : VersionVector :=
  acknowledged.toList.foldl (fun vector entry =>
    if vector.get entry.1 < entry.2 then vector.insert entry.1 entry.2 else vector) recorded

theorem get_lowerTo_le (stable acknowledged : VersionVector) (actor : String) :
    (stable.lowerTo acknowledged).get actor ≤ stable.get actor ∧
      (stable.lowerTo acknowledged).get actor ≤ acknowledged.get actor := by
  rw [get_eq_getD, lowerTo, ExtTreeMap.getElem?_filterMap', get_eq_getD stable]
  cases stable[actor]? with
  | none => simp
  | some counter =>
    simp only [Option.bind_some, Option.getD_some]
    split_ifs with zero below
    · simp
    · exact ⟨below.le, le_rfl⟩
    · exact ⟨le_rfl, not_lt.mp below⟩

theorem get_raiseTo_le {recorded acknowledged : VersionVector} {bound : String → ℕ}
    (before : ∀ actor, recorded.get actor ≤ bound actor)
    (now : ∀ actor, acknowledged.get actor ≤ bound actor) (actor : String) :
    (recorded.raiseTo acknowledged).get actor ≤ bound actor := by
  have entries : ∀ entry ∈ acknowledged.toList, entry.2 ≤ bound entry.1 := by
    intro entry member
    have stored := (mem_toList_iff _ _).mp member
    have reached := now entry.1
    rw [get_eq_getD, stored] at reached
    exact reached
  unfold raiseTo
  generalize acknowledged.toList = list at entries
  induction list generalizing recorded with
  | nil => exact before actor
  | cons entry rest ih =>
    rw [List.foldl_cons]
    refine ih (fun other => ?_) fun later member => entries later (List.mem_cons_of_mem _ member)
    split_ifs with above
    · rw [get_insert]
      split_ifs with same
      · rw [← same]
        exact entries entry List.mem_cons_self
      · exact before other
    · exact before other

end VersionVector

/-- The component-wise floor of the own vector and the acknowledged vectors of the peers. -/
def stableConfigVector (own : VersionVector) (acknowledged : List VersionVector) : VersionVector :=
  acknowledged.foldl VersionVector.lowerTo own

theorem get_stableConfigVector_le (own : VersionVector) (acknowledged : List VersionVector)
    (actor : String) : (stableConfigVector own acknowledged).get actor ≤ own.get actor ∧
      ∀ vector ∈ acknowledged, (stableConfigVector own acknowledged).get actor ≤
        vector.get actor := by
  unfold stableConfigVector
  induction acknowledged generalizing own with
  | nil => exact ⟨le_rfl, fun vector member => absurd member List.not_mem_nil⟩
  | cons first rest ih =>
    rw [List.foldl_cons]
    obtain ⟨lower, others⟩ := ih (own.lowerTo first)
    obtain ⟨below, acked⟩ := own.get_lowerTo_le first actor
    refine ⟨lower.trans below, fun vector member => ?_⟩
    rcases List.mem_cons.mp member with rfl | later
    · exact lower.trans acked
    · exact others vector later

/-! ### One step of a device -/

def VerifiedSnapshot.image (snapshot : VerifiedSnapshot) : Replica :=
  (Replica.empty snapshot.document.spaceID snapshot.document.schemaVersion ⟨0, ⟨0, 0⟩⟩).install
    snapshot

/-- What the steps of an event keep: new operations have seen every prunable tombstone, and the copy
and all snapshots display what they have received. -/
structure Displaying (P : Primitives) (stable : Set VerifiedOp) (before : World) (inputs : Inputs)
    (V : World) (r : Replica) : Prop where
  added : ∀ op ∈ V.issued, op ∈ before.issued ∨ ∀ tombstone ∈ stable, stamping.Saw op tombstone
  seen : ∀ tombstone ∈ stable,
    tombstone.document.counter ≤ r.vector.get tombstone.document.actorDeviceID
  copy : Displays stable V r
  snapshots : ∀ token ∈ V.snapshots, ∀ snapshot, P.verifySnapshot token = .ok snapshot →
    Displays stable V snapshot.image
  sealing : ∀ floor, inputs.stable = some floor → ∀ (key : RecordKey) op,
    r.view[key]? = some op → Replica.prunable floor op = true → op ∈ stable ∧ V.Sealed r key op

/-- An event that prunes does nothing else. -/
def Inputs.Quiet (inputs : Inputs) : Prop :=
  inputs.stable ≠ none → inputs.tokens = [] ∧ inputs.snapshots = [] ∧ inputs.bases = [] ∧
    inputs.writes = false

theorem quiet_inputs (event : DurableEvent) : event.inputs.Quiet := by
  intro pruning
  cases event with
  | compactForBounds env identity entropy maxTailOps maxTailBytes stable =>
    exact ⟨rfl, rfl, rfl, rfl⟩
  | _ => exact absurd rfl pruning

section Steps

variable {P : Primitives} {device : String} {W V : World} {stable : Set VerifiedOp}
  {inputs : Inputs} {c following : Copy} {n : ℕ}

theorem not_knows_of_not_names {knows : String → ℕ → Prop} {now : Timestamp} {op : VerifiedOp}
    (observed : stamping.Observed V.issued knows now) (positive : 0 < op.document.counter)
    (fresh : ¬ stamping.Names V.issued (stamping.actor op) (stamping.counter op)) :
    ¬ knows op.document.actorDeviceID op.document.counter :=
  fun known => fresh (observed.grounded _ _ positive known)

theorem image_knows_iff {snapshot : VerifiedSnapshot} (actor : String) (counter : ℕ) :
    snapshot.image.Knows actor counter ↔ snapshot.document.coverVector.Reports actor counter :=
  reports_install (.empty snapshot.document.spaceID snapshot.document.schemaVersion ⟨0, ⟨0, 0⟩⟩)
    snapshot ⟨0, ⟨0, 0⟩⟩ actor counter

theorem displays_of_image {r : Replica} {snapshot : VerifiedSnapshot}
    (displays : Displays stable V snapshot.image) (causal : stamping.Causal V.issued)
    (schema : r.supportedSchemaVersion = snapshot.document.schemaVersion)
    (view : r.view = snapshot.image.view)
    (knows : ∀ actor counter, r.Knows actor counter ↔
      snapshot.document.coverVector.Reports actor counter) : Displays stable V r :=
  displays.congr causal schema (fun key => by rw [view]) fun actor counter _ =>
    (knows actor counter).trans (image_knows_iff actor counter).symm

theorem Displaying.stored {r : Replica} {wall : Int} {op : VerifiedOp}
    {base : Option VerifiedSnapshot} (displaying : Displaying P stable W inputs V r)
    (invariant : r.Invariant P base) (causal : stamping.Causal V.issued) (member : op ∈ V.issued)
    (fresh : Replica.Fresh P r wall op.token op) (gentle : inputs.stable = none) :
    Displaying P stable W inputs V (r.stored wall op) where
  added := displaying.added
  seen tombstone pruned := (displaying.seen tombstone pruned).trans (r.vector_le_stored wall op _)
  copy := by
    have unknown := ((invariant.fresh_iff wall op.token op).mp fresh).2.2.1
    have absorbed : Displays stable V (r.absorb wall op.document.hlc) :=
      ⟨displaying.copy.held, displaying.copy.best⟩
    exact absorbed.store causal member unknown
  snapshots := displaying.snapshots
  sealing floor pruning := by
    rw [gentle] at pruning
    cases pruning

theorem Displaying.written {r : Replica} {s : DurableState} {walls : Walls} {identity : Identity}
    {op : VerifiedOp} (displaying : Displaying P stable W inputs V r) (sound : V.Sound P) (filed : Filed P device V s r)
    (name : P.peerID identity.publicKey = device)
    (written : Replica.Written P r walls identity op) (gentle : inputs.stable = none) :
    Displaying P stable W inputs ⟨insert op V.issued, V.snapshots⟩ r := by
  have unnamed := filed.not_names name written
  have positive := written.genuine.valid.counter
  have saw : ∀ tombstone ∈ stable, stamping.Saw op tombstone := by
    intro tombstone pruned
    change tombstone.document.counter ≤ op.document.causalContext.get _
    rw [written.context, VersionVector.get_clone]
    exact displaying.seen tombstone pruned
  have grows : ∀ (q : Replica) (now : Timestamp), stamping.Observed V.issued q.Knows now →
      Displays stable V q → Displays stable ⟨insert op V.issued, V.snapshots⟩ q := by
    intro q now observed displays
    refine displays.grow (Set.subset_insert _ _) ?_
    rintro other (rfl | member)
    · exact Or.inr ⟨not_knows_of_not_names observed positive unnamed, saw⟩
    · exact Or.inl member
  refine ⟨?_, displaying.seen, grows r _ filed.observed displaying.copy, ?_, ?_⟩
  · rintro other (rfl | member)
    · exact Or.inr saw
    · exact displaying.added other member
  · intro token member snapshot verified
    obtain ⟨again, read, observed⟩ := sound.snapshots token member
    rw [verified] at read
    cases read
    refine grows _ snapshot.document.createdHLC ?_ (displaying.snapshots token member snapshot verified)
    exact Observed.restrict observed sound.causal fun actor counter _ known =>
      (image_knows_iff actor counter).mp known
  · intro floor pruning
    rw [gentle] at pruning
    cases pruning

theorem Displaying.withClock {r : Replica} (displaying : Displaying P stable W inputs V r)
    (clock : Clock) : Displaying P stable W inputs V { r with clock := clock } :=
  ⟨displaying.added, displaying.seen, ⟨displaying.copy.held, displaying.copy.best⟩,
    displaying.snapshots, displaying.sealing⟩

theorem Displaying.taken {r after : Replica} {next : World} {token : SnapshotToken}
    {snapshot : VerifiedSnapshot} (displaying : Displaying P stable W inputs V r)
    (issued : next.issued = V.issued) (causal : stamping.Causal V.issued)
    (snapshots : next.snapshots = insert token V.snapshots)
    (verified : P.verifySnapshot token = .ok snapshot)
    (image : Displays stable V snapshot.image)
    (schema : after.supportedSchemaVersion = snapshot.document.schemaVersion)
    (view : after.view = snapshot.image.view)
    (knows : ∀ actor counter, after.Knows actor counter ↔
      snapshot.document.coverVector.Reports actor counter)
    (larger : ∀ actor, r.vector.get actor ≤ after.vector.get actor)
    (sealing : ∀ floor, inputs.stable = some floor → ∀ (key : RecordKey) op,
      after.view[key]? = some op → Replica.prunable floor op = false) :
    Displaying P stable W inputs next after := by
  have same : ∀ {q : Replica}, Displays stable V q → Displays stable next q := by
    intro q displays
    refine displays.grow issued.ge fun op member => Or.inl ?_
    rw [← issued]
    exact member
  refine ⟨fun op member => displaying.added op (issued ▸ member),
    fun tombstone pruned => (displaying.seen tombstone pruned).trans (larger _),
    same (displays_of_image image causal schema view knows), ?_, ?_⟩
  · intro other member read accepted
    rw [snapshots] at member
    rcases member with rfl | before
    · rw [verified] at accepted
      cases accepted
      exact same image
    · exact same (displaying.snapshots other before read accepted)
  · intro floor pruning key op shown prunable
    rw [sealing floor pruning key op shown] at prunable
    cases prunable

/-- **Each step of a device keeps what is displayed.** -/
theorem Progress.displays (step : Progress P inputs n c following) (loaded : c.Loaded P)
    (sound : V.Sound P) (honest : inputs.Honest P device V)
    (filed : Filed P device V c.state c.replica) (caught : c.CaughtUp P) (quiet : inputs.Quiet)
    (displaying : Displaying P stable W inputs V c.replica) :
    Displaying P stable W inputs (V.harvest P following.state) following.replica := by
  cases step with
  | tick r s wall read =>
    rw [filed.harvest_eq_self loaded]
    exact displaying.withClock _
  | bootstrapped r s =>
    rw [show V.harvest P { s with localBootstrapComplete := true } = V from
      filed.harvest_eq_self loaded]
    exact displaying
  | deliver r s wall op read given fresh =>
    obtain ⟨other, member, same⟩ := honest.tokens op.token given
    have genuine := (P.genuine_of_verify fresh.verified).1
    have equal : other = op := (sound.genuine other member).token_inj genuine same
    subst equal
    have gentle : inputs.stable = none := by
      by_contra pruning
      rw [(quiet pruning).1] at given
      cases given
    rw [filed.harvest_keep loaded genuine, Set.insert_eq_of_mem member]
    exact displaying.stored loaded.invariant sound.causal member fresh gentle
  | write r s walls identity op tick apply signer writes written fresh =>
    have gentle : inputs.stable = none := by
      by_contra pruning
      rw [(quiet pruning).2.2.2] at writes
      cases writes
    have name := honest.identities _ signer
    have ticked : (r.ticked walls.tick).Invariant P (baseOf P s) :=
      loaded.invariant.withClock _
    have wider := (sound.write filed caught loaded name written).1
    rw [filed.harvest_keep loaded written.genuine]
    exact ((displaying.written sound filed name written gentle).withClock _).stored ticked
      wider.causal (Set.mem_insert _ _) fresh gentle
  | adopt r s wall token snapshot read given keeps unbased bare installable =>
    have gentle : inputs.stable = none := by
      by_contra pruning
      rw [(quiet pruning).2.1] at given
      cases given
    have member := honest.snapshots token given
    have same : V.harvest P { s with snapshot := some token } = V := by
      refine World.harvest_eq_self (fun op held genuine => ?_) fun other held => ?_
      · exact filed.stored op ((loaded.stores_iff op).mp ⟨held, genuine⟩)
      · cases held
        exact member
    rw [same]
    refine displaying.taken rfl sound.causal (Set.insert_eq_of_mem member).symm installable.read
      (displaying.snapshots token member snapshot installable.read) installable.schema.symm ?_ ?_ ?_ ?_
    · simp only [Replica.install, Replica.absorb, VerifiedSnapshot.image, installable.view]
      rfl
    · intro actor counter
      have unseen : r.seen actor = ∅ := loaded.invariant.seen_eq_empty installable.ops actor
      have none : ((r.absorb wall snapshot.document.createdHLC).install snapshot).seen actor =
        ∅ := unseen
      rw [Replica.Knows, none]
      simp [Replica.install, VersionVector.Reports]
    · simp [installable.vector]
    · intro floor pruning
      rw [gentle] at pruning
      cases pruning
  | rebase r s token snapshot given keeps verified space schema covers =>
    have gentle : inputs.stable = none := by
      by_contra pruning
      rw [(quiet pruning).2.2.1] at given
      cases given
    have member := honest.bases token given
    rw [World.harvest_based]
    refine displaying.taken rfl sound.causal rfl verified
      (displaying.snapshots token member snapshot verified) schema.symm rfl
      (reports_install r snapshot _) (fun actor => ?_) ?_
    · have reported := (VersionVector.covers_iff _ _).mp covers actor
      simpa [Replica.vectorCopy, Replica.based, Replica.install] using reported
    · intro floor pruning
      rw [gentle] at pruning
      cases pruning
  | compact r s wall identity entropy signature snapshot read signer keeps complete known verified =>
    obtain ⟨document, -⟩ := loaded.invariant.snapshot_ops verified
    have schema : r.supportedSchemaVersion = snapshot.document.schemaVersion := by
      rw [document]
      rfl
    have compacted : Displays stable V (r.based snapshot (r.clock.tick wall).2) := by
      refine displaying.copy.compact sound.causal loaded.invariant complete verified
        (fun key op shown prunable => ?_) _
      cases pruning : inputs.stable with
      | some floor =>
        rw [pruning] at prunable
        exact displaying.sealing floor pruning key op shown prunable
      | none =>
        -- without a stable vector nothing is pruned
        have positive := sound.causal.positive op (displaying.copy.held key op shown).1
        rw [pruning] at prunable
        simp only [Replica.prunable, Option.getD_none, VersionVector.get_empty,
          Bool.and_eq_true, decide_eq_true_eq] at prunable
        exact absurd prunable.2 (not_le.mpr positive)
    rw [World.harvest_based]
    refine displaying.taken rfl sound.causal rfl verified ?_ schema rfl
      (reports_install r snapshot _) (fun actor => ?_) ?_
    · exact compacted.congr sound.causal schema.symm (fun key => rfl) fun actor counter _ =>
        (image_knows_iff actor counter).trans (reports_install r snapshot _ actor counter).symm
    · simp [Replica.based, Replica.install, document, Replica.snapshotDocument]
    · intro floor pruning key op shown
      have kept := ((loaded.invariant.compacted_view verified _ key op).mp shown).2
      rw [pruning] at kept
      exact kept

end Steps

end Atterm.ConfigSync
