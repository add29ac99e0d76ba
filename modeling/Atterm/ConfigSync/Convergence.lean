/-
**Convergence of honest replicas.**

A `Cluster` is a family of replicas, each with its own identity, and the operations they have
written. Operations reach other replicas through `Apply`, in any order and any number of times.

* `Cluster.invariant_run` — the operations of a run form a causal history that every replica
  observes, and every view is the fold of the operations its replica has applied;
* `replicas_converge` — replicas that applied the same settled operations agree;
* `replicas_diverge` — three operations on one record on whose winner two replicas disagree.
-/

import Atterm.ConfigSync.Winners

namespace Atterm.ConfigSync

open Std (ExtTreeMap)
open Atterm.Foundation

/-! ### The view as a fold -/

/-- The operation competes for the record in replicas of this schema. -/
def competes (schema : Nat) (key : RecordKey) (op : VerifiedOp) : Bool :=
  decide (op.document.schemaVersion = schema ∧ op.document.key = key)

def winner (schema : Nat) (key : RecordKey) (log : List VerifiedOp) : Option VerifiedOp :=
  (log.filter (competes schema key)).foldl (challenge wins) none

theorem winner_append (schema : Nat) (key : RecordKey) (log : List VerifiedOp) (op : VerifiedOp) :
    winner schema key (log ++ [op]) =
      if competes schema key op then challenge wins (winner schema key log) op
      else winner schema key log := by
  unfold winner
  rw [List.filter_append, List.foldl_append]
  by_cases competing : competes schema key op = true <;> simp [competing]

namespace Replica

/-- The view is the outcome of these operations. -/
def Shows (r : Replica) (log : List VerifiedOp) : Prop :=
  ∀ key, r.view[key]? = winner r.supportedSchemaVersion key log

theorem Shows.store {r : Replica} {log : List VerifiedOp} (shows : r.Shows log) (op : VerifiedOp) :
    (r.store op).2.Shows (log ++ [op]) := by
  intro key
  rw [store_view, store_supportedSchemaVersion, winner_append, ← shows key]
  by_cases competing : op.document.schemaVersion = r.supportedSchemaVersion ∧
      op.document.key = key
  · rw [if_pos competing, some_contest, if_pos (by simpa [competes] using competing)]
  · rw [if_neg competing, if_neg (by simpa [competes] using competing)]

/-- The operations a replica has applied, in some order that leads to its view. -/
def Applied (r : Replica) (log : List VerifiedOp) : Prop :=
  (∀ op, op ∈ log ↔ r.Stores op) ∧ r.Shows log

theorem Applied.store {r : Replica} {log : List VerifiedOp} (applied : r.Applied log)
    {op : VerifiedOp} (absent : r.ops[op.document.opID]? = none) :
    (r.store op).2.Applied (log ++ [op]) := by
  refine ⟨fun other => ?_, applied.2.store op⟩
  rw [stores_store_iff absent, List.mem_append, List.mem_singleton, applied.1, or_comm]

def Candidates (r : Replica) (key : RecordKey) : Set VerifiedOp :=
  {op | r.Stores op ∧ op.document.schemaVersion = r.supportedSchemaVersion ∧
    op.document.key = key}

theorem Applied.mem_candidates_iff {r : Replica} {log : List VerifiedOp} (applied : r.Applied log)
    (key : RecordKey) (op : VerifiedOp) :
    op ∈ log.filter (competes r.supportedSchemaVersion key) ↔ op ∈ r.Candidates key := by
  rw [List.mem_filter, applied.1]
  simp [competes, Candidates]

/-- **Two orders of the same settled operations lead to the same view.** -/
theorem Applied.view_eq {P : Primitives} {issued : Set VerifiedOp} {first second : Replica}
    {log other : List VerifiedOp} (applied : first.Applied log) (again : second.Applied other)
    (causal : stamping.Causal issued) (genuine : ∀ op ∈ issued, P.Genuine op)
    (known : ∀ op, first.Stores op → op ∈ issued)
    (schema : first.supportedSchemaVersion = second.supportedSchemaVersion)
    (same : ∀ op, first.Stores op ↔ second.Stores op)
    (settled : ∀ key, Settled (first.Candidates key)) : first.view = second.view := by
  refine ExtTreeMap.ext_getElem? fun key => ?_
  rw [applied.2 key, again.2 key, ← schema]
  have members : ∀ op, op ∈ log.filter (competes first.supportedSchemaVersion key) ↔
      op ∈ other.filter (competes first.supportedSchemaVersion key) := by
    intro op
    rw [List.mem_filter, List.mem_filter, applied.1, again.1, same]
  unfold winner
  by_cases empty : log.filter (competes first.supportedSchemaVersion key) = []
  · have none : other.filter (competes first.supportedSchemaVersion key) = [] := by
      rw [List.eq_nil_iff_forall_not_mem] at empty ⊢
      exact fun op member => empty op ((members op).mpr member)
    rw [empty, none]
  · have inside : {op | op ∈ log.filter (competes first.supportedSchemaVersion key)} =
        first.Candidates key := Set.ext fun op => applied.mem_candidates_iff key op
    obtain ⟨champion, best⟩ := exists_champion causal genuine
      (fun op member => known op ((applied.mem_candidates_iff key op).mp member).1) empty
      (by rw [inside]; exact settled key)
    have also : Champion wins (other.filter (competes first.supportedSchemaVersion key))
        champion :=
      ⟨(members _).mp best.member, fun op member => best.beats op ((members op).mpr member)⟩
    rw [foldl_challenge_eq best, foldl_challenge_eq also]

end Replica

/-! ### Clusters -/

/-- Replicas of several devices and the operations they have written. -/
structure Cluster (ι : Type) where
  replica : ι → Replica
  issued : List VerifiedOp

/-- A local write of a device, or the delivery of a token to it. -/
inductive ClusterEvent (ι : Type) where
  | append (device : ι) (walls : Walls) (entropy : Entropy) (mutation : Mutation)
  | appendEncrypted (device : ι) (walls : Walls) (entropy : Entropy) (key : EpochKey)
      (mutation : Mutation)
  | deliver (device : ι) (wall : Int) (token : OpToken)

namespace Cluster

variable {ι : Type} [DecidableEq ι]

def put (c : Cluster ι) (device : ι) (r : Replica) : Cluster ι :=
  { c with replica := Function.update c.replica device r }

def write (c : Cluster ι) (device : ι) (result : Except SyncError VerifiedOp × Replica) :
    Cluster ι :=
  match result with
  | (.ok op, r) => { c.put device r with issued := op :: c.issued }
  | (.error _, r) => c.put device r

@[simp] theorem put_self (c : Cluster ι) (device : ι) (r : Replica) :
    (c.put device r).replica device = r := Function.update_self _ _ _

theorem put_of_ne {device other : ι} (different : other ≠ device) (c : Cluster ι) (r : Replica) :
    (c.put device r).replica other = c.replica other := Function.update_of_ne different _ _

/-- One event; only operations that some device has written are delivered. -/
def step (P : Primitives) (identity : ι → Identity) (c : Cluster ι) :
    ClusterEvent ι → Cluster ι
  | .append device walls entropy mutation =>
    c.write device ((c.replica device).append P walls (identity device) entropy mutation)
  | .appendEncrypted device walls entropy key mutation =>
    c.write device
      ((c.replica device).appendEncrypted P walls (identity device) entropy key mutation)
  | .deliver device wall token =>
    if token ∈ c.issued.map VerifiedOp.token then
      c.put device ((c.replica device).apply P wall token).2
    else c

structure Honest (P : Primitives) (issued : List VerifiedOp) (r : Replica) : Prop where
  invariant : r.Invariant P none
  known : ∀ op, r.Stores op → op ∈ issued
  observed : stamping.Observed {op | op ∈ issued} r.Knows r.clock.last
  applied : ∃ log, r.Applied log

/-- The operations form a causal history, and every device has its own. -/
structure Invariant (P : Primitives) (identity : ι → Identity) (c : Cluster ι) : Prop where
  genuine : ∀ op ∈ c.issued, P.Genuine op
  causal : stamping.Causal {op | op ∈ c.issued}
  author : ∀ op ∈ c.issued, ∃ device,
    op.document.actorDeviceID = P.peerID (identity device).publicKey ∧ (c.replica device).Stores op
  honest : ∀ device, Honest P c.issued (c.replica device)

variable {P : Primitives} {identity : ι → Identity} {c : Cluster ι}

theorem Honest.stored {issued : List VerifiedOp} {r : Replica} (honest : Honest P issued r)
    (causal : stamping.Causal {op | op ∈ issued}) {wall : Int} {token : OpToken} {op : VerifiedOp}
    (fresh : Replica.Fresh P r wall token op) (member : op ∈ issued) :
    Honest P issued (r.stored wall op) := by
  have absent : (r.absorb wall op.document.hlc).ops[op.document.opID]? = none := fresh.absent
  refine ⟨honest.invariant.stored fresh, fun other stored => ?_, ?_, ?_⟩
  · rcases (Replica.stores_stored_iff fresh other).mp stored with rfl | before
    · exact member
    · exact honest.known other before
  · refine honest.observed.learn causal member (fun actor counter known =>
      (Replica.knows_stored_iff wall op actor counter).mp known) ?_ ?_
    · rw [Replica.stored, Replica.store_clock]
      exact (r.clock.last_lt_absorbed wall op.document.hlc).le
    · rw [Replica.stored, Replica.store_clock]
      exact (r.clock.remote_lt_absorbed wall op.document.hlc).le
  · obtain ⟨log, applied⟩ := honest.applied
    have same : (r.absorb wall op.document.hlc).Applied log := applied
    exact ⟨log ++ [op], same.store absent⟩

theorem Honest.ticked {issued : List VerifiedOp} {r : Replica} (honest : Honest P issued r)
    (wall : Int) : Honest P issued (r.ticked wall) :=
  ⟨honest.invariant.withClock _, honest.known,
    honest.observed.advance (r.clock.lt_tick wall).le, honest.applied⟩

theorem Invariant.update (invariant : Invariant P identity c) {device : ι} {r : Replica}
    (honest : Honest P c.issued r)
    (keeps : ∀ op, (c.replica device).Stores op → r.Stores op) :
    Invariant P identity (c.put device r) := by
  refine ⟨invariant.genuine, invariant.causal, fun op member => ?_, fun other => ?_⟩
  · obtain ⟨writer, actor, stored⟩ := invariant.author op member
    refine ⟨writer, actor, ?_⟩
    by_cases same : writer = device
    · subst same
      rw [put_self]
      exact keeps op stored
    · rw [put_of_ne same]
      exact stored
  · by_cases same : other = device
    · subst same
      rw [put_self]
      exact honest
    · rw [put_of_ne same]
      exact invariant.honest other

theorem Invariant.deliver (invariant : Invariant P identity c) (device : ι) (wall : Int)
    {token : OpToken} (known : token ∈ c.issued.map VerifiedOp.token) :
    Invariant P identity (c.put device ((c.replica device).apply P wall token).2) := by
  have honest := invariant.honest device
  rcases Replica.apply_cases P (c.replica device) wall token with
    ⟨error, same⟩ | ⟨op, result, -, -, -, -, same⟩ | ⟨op, fresh, same⟩
  · rw [same]
    exact invariant.update honest fun _ stored => stored
  · rw [same]
    exact invariant.update honest fun _ stored => stored
  · rw [same]
    obtain ⟨genuine, named⟩ := P.genuine_of_verify fresh.verified
    obtain ⟨issued, member, equal⟩ := List.mem_map.mp known
    have sameOp : issued = op :=
      (invariant.genuine issued member).token_inj genuine (equal.trans named.symm)
    subst sameOp
    exact invariant.update (honest.stored invariant.causal fresh member)
      fun other stored => (Replica.stores_stored_iff fresh other).mpr (Or.inr stored)

omit [DecidableEq ι] in
theorem Invariant.not_names (invariant : Invariant P identity c)
    (distinct : Function.Injective fun device => P.peerID (identity device).publicKey)
    {device : ι} {walls : Walls} {op : VerifiedOp}
    (written : Replica.Written P (c.replica device) walls (identity device) op) :
    ¬ stamping.Names {op | op ∈ c.issued} (stamping.actor op) (stamping.counter op) := by
  rintro ⟨other, member, actor, counter⟩
  have sameActor : other.document.actorDeviceID = op.document.actorDeviceID := actor
  have sameCounter : other.document.counter = op.document.counter := counter
  obtain ⟨writer, name, stored⟩ := invariant.author other member
  have same : writer = device := distinct (by
    simp only
    rw [← name, sameActor, written.actor])
  subst same
  have frontier := (invariant.honest writer).invariant.frontier op.document.actorDeviceID
  refine frontier.stops (Or.inr ?_)
  rw [(invariant.honest writer).invariant.seen]
  exact ⟨other, stored, sameActor, sameCounter.trans written.counter⟩

/-- **A write keeps the invariant**: its context is what the device has observed and its time is
above. -/
theorem Invariant.write (invariant : Invariant P identity c)
    (distinct : Function.Injective fun device => P.peerID (identity device).publicKey)
    {device : ι} {walls : Walls} {result : Except SyncError VerifiedOp × Replica}
    (outcome : Replica.WriteOutcome P (c.replica device) walls (identity device) result) :
    Invariant P identity (c.write device result) := by
  have honest := invariant.honest device
  cases outcome with
  | refused error => exact invariant.update honest fun _ stored => stored
  | failed error => exact invariant.update (honest.ticked walls.tick) fun _ stored => stored
  | known op written has =>
    -- its counter is the one after the last known
    have unknown : ¬ (c.replica device).Knows op.document.actorDeviceID op.document.counter := by
      rw [written.counter]
      exact (honest.invariant.frontier _).stops
    obtain ⟨uncompacted, absent⟩ :=
      (honest.invariant.unknown_iff written.genuine.valid).mpr unknown
    rcases has with compacted | ⟨existing, held, -⟩
    · exact absurd compacted (not_le.mpr uncompacted)
    · have none : ((c.replica device).ticked walls.tick).ops[op.document.opID]? = none := absent
      rw [none] at held
      cases held
  | stored op written fresh =>
    have unnamed := invariant.not_names distinct written
    have positive : 0 < stamping.counter op := written.genuine.valid.counter
    have larger : {other | other ∈ op :: c.issued} = insert op {other | other ∈ c.issued} := by
      ext other
      simp
    have causal : stamping.Causal {other | other ∈ op :: c.issued} := by
      rw [larger]
      refine invariant.causal.insert honest.observed unnamed ?_ ?_ ?_
      · change op.document.causalContext.get op.document.actorDeviceID < op.document.counter
        rw [written.context, VersionVector.get_clone, written.counter]
        exact Nat.lt_succ_self _
      · intro actor counter above seen
        have covered : counter ≤ op.document.causalContext.get actor := seen
        rw [written.context, VersionVector.get_clone] at covered
        exact honest.invariant.knows_of_le_vector above covered
      · change (c.replica device).clock.last < op.document.hlc
        rw [written.hlc]
        exact (c.replica device).clock.lt_tick walls.tick
    have grows : ∀ {r : Replica}, Honest P c.issued r → Honest P (op :: c.issued) r := by
      intro r before
      refine ⟨before.invariant, fun other stored =>
        List.mem_cons_of_mem _ (before.known other stored), ?_, before.applied⟩
      rw [larger]
      exact before.observed.insert positive unnamed
    have stored := (grows (honest.ticked walls.tick)).stored causal fresh List.mem_cons_self
    have keeps : ∀ other, (c.replica device).Stores other →
        (((c.replica device).ticked walls.tick).stored walls.apply op).Stores other :=
      fun other before => (Replica.stores_stored_iff fresh other).mpr (Or.inr before)
    refine ⟨?_, causal, ?_, ?_⟩
    · rintro other (_ | ⟨_, member⟩)
      · exact written.genuine
      · exact invariant.genuine other member
    · rintro other (_ | ⟨_, member⟩)
      · refine ⟨device, written.actor, ?_⟩
        simp only [Cluster.write, put_self]
        exact (Replica.stores_stored_iff fresh op).mpr (Or.inl rfl)
      · obtain ⟨writer, actor, held⟩ := invariant.author other member
        refine ⟨writer, actor, ?_⟩
        by_cases same : writer = device
        · subst same
          simp only [Cluster.write, put_self]
          exact keeps other held
        · simp only [Cluster.write, put_of_ne same]
          exact held
    · intro other
      by_cases same : other = device
      · subst same
        simp only [Cluster.write, put_self]
        exact stored
      · simp only [Cluster.write, put_of_ne same]
        exact grows (invariant.honest other)

theorem honest_new {spaceID : String} {schema : Nat} {clock : Clock} {r : Replica}
    (created : newReplica P spaceID schema clock = .ok r) : Honest P [] r := by
  obtain ⟨-, same⟩ := guard_ok created
  cases same
  have invariant := Replica.invariant_empty P spaceID schema clock
  have bare : ∀ op, ¬ (Replica.empty spaceID schema clock).Stores op := by
    intro op stored
    simp [Replica.Stores, Replica.empty] at stored
  refine ⟨invariant, fun op stored => absurd stored (bare op), ⟨?_, ?_⟩, [], ?_, ?_⟩
  · intro actor counter above known
    rw [Replica.Knows, Replica.seen_empty] at known
    simp [Replica.empty] at known
    omega
  · exact fun op member => absurd member List.not_mem_nil
  · exact fun op => iff_of_false List.not_mem_nil (bare op)
  · intro key
    simp [Replica.empty, winner]

/-- **The operations of a run form a causal history that every replica observes.** -/
theorem invariant_run {start : ι → Replica}
    (created : ∀ device, ∃ spaceID schema clock,
      newReplica P spaceID schema clock = .ok (start device))
    (distinct : Function.Injective fun device => P.peerID (identity device).publicKey)
    (events : List (ClusterEvent ι)) :
    Invariant P identity (run (step P identity) ⟨start, []⟩ events) := by
  refine run_invariant (Invariant P identity) (fun c event invariant => ?_) ?_ events
  · cases event with
    | append device walls entropy mutation =>
      exact invariant.write distinct (Replica.append_outcome P _ walls _ entropy mutation)
    | appendEncrypted device walls entropy key mutation =>
      exact invariant.write distinct
        (Replica.appendEncrypted_outcome P _ walls _ entropy key mutation)
    | deliver device wall token =>
      simp only [step]
      split_ifs with known
      · exact invariant.deliver device wall known
      · exact invariant
  · refine ⟨fun op member => absurd member List.not_mem_nil, ?_,
      fun op member => absurd member List.not_mem_nil, fun device => ?_⟩
    · have none : {op : VerifiedOp | op ∈ ([] : List VerifiedOp)} = ∅ := by simp
      rw [none]
      exact Stamping.causal_empty
    · obtain ⟨spaceID, schema, clock, made⟩ := created device
      exact honest_new made

theorem get_vector_eq_of_stores {first second : Replica} (invariant : first.Invariant P none)
    (other : second.Invariant P none) (same : ∀ op, first.Stores op ↔ second.Stores op)
    (actor : String) : first.vector.get actor = second.vector.get actor := by
  refine invariant.get_vector_eq other fun counter above => ?_
  have compacted : first.compactedVector = ∅ ∧ second.compactedVector = ∅ :=
    ⟨invariant.compacted, other.compacted⟩
  rw [Replica.Knows, Replica.Knows, invariant.seen, other.seen, compacted.1, compacted.2]
  refine or_congr Iff.rfl ⟨?_, ?_⟩
  · rintro ⟨op, stored, name⟩
    exact ⟨op, (same op).mp stored, name⟩
  · rintro ⟨op, stored, name⟩
    exact ⟨op, (same op).mpr stored, name⟩

/-- **Convergence of honest replicas.** In every run, two replicas of one schema that have applied
the same operations agree on `Vector`, `Get` and `Records`, provided that for every record no
applied set has seen the latest delete or the latest set has seen every delete. -/
theorem replicas_converge {start : ι → Replica}
    (created : ∀ device, ∃ spaceID schema clock,
      newReplica P spaceID schema clock = .ok (start device))
    (distinct : Function.Injective fun device => P.peerID (identity device).publicKey)
    (events : List (ClusterEvent ι)) {first second : ι} {r other : Replica}
    (reached : (run (step P identity) ⟨start, []⟩ events).replica first = r)
    (also : (run (step P identity) ⟨start, []⟩ events).replica second = other)
    (same : ∀ op, r.Stores op ↔ other.Stores op)
    (schema : r.supportedSchemaVersion = other.supportedSchemaVersion)
    (settled : ∀ key, Settled (r.Candidates key)) : r.Agrees other := by
  have invariant := invariant_run created distinct events
  have honest := invariant.honest first
  have again := invariant.honest second
  rw [reached] at honest
  rw [also] at again
  obtain ⟨log, applied⟩ := honest.applied
  obtain ⟨orderly, appliedAgain⟩ := again.applied
  have view : r.view = other.view :=
    applied.view_eq appliedAgain invariant.causal invariant.genuine honest.known schema same settled
  refine ⟨?_, fun collection recordID => ?_, fun collection => ?_⟩
  · exact (VersionVector.clone_eq_clone_iff _ _).mpr
      (get_vector_eq_of_stores honest.invariant again.invariant same)
  · rw [Replica.get, Replica.get, view]
  · rw [Replica.records, Replica.records, view]

/-! ### A cycle of three operations -/

/-- A delete, a set that has seen it, and a later set that has not. -/
def removal : SyncOp := .plain 1 1 ⟨5, 0⟩ "h" .delete ∅

def revival : SyncOp := .plain 2 1 ⟨7, 0⟩ "h" .set (.ofEntries [("a", 1)])

def rival : SyncOp := .plain 3 1 ⟨9, 0⟩ "h" .set ∅

def fiveIdentities (device : Fin 5) : Identity := .plain (UInt8.ofNat (device + 1))

def fiveReplicas (_ : Fin 5) : Replica := .empty "space" 1 (.new 300000)

def writing (device : Fin 5) (wall : Int) (kind : Kind) : ClusterEvent (Fin 5) :=
  .append device ⟨wall, wall⟩ ⟨[], [], ""⟩ ⟨0, "hosts", "h", kind, .sync, 1, []⟩

def delivering (device : Fin 5) (wall : Int) (doc : SyncOp) : ClusterEvent (Fin 5) :=
  .deliver device wall (.signed doc [])

/-- The three writes, of which the second device has received the first. -/
def threeWrites : List (ClusterEvent (Fin 5)) :=
  [writing 0 5 .delete, delivering 1 6 removal, writing 1 7 .set, writing 2 9 .set]

/-- The last two devices receive all three in different orders. -/
def twoOrders : List (ClusterEvent (Fin 5)) :=
  threeWrites ++ [delivering 3 10 removal, delivering 3 10 revival, delivering 3 10 rival,
    delivering 4 10 rival, delivering 4 10 removal, delivering 4 10 revival]

theorem fiveReplicas_created (device : Fin 5) : ∃ spaceID schema clock,
    newReplica .plain spaceID schema clock = .ok (fiveReplicas device) :=
  ⟨"space", 1, .new 300000, rfl⟩

theorem fiveIdentities_distinct :
    Function.Injective fun device => Primitives.plain.peerID (fiveIdentities device).publicKey := by
  decide

/-- **Two replicas that applied the same three operations disagree**: the one that received the
rival last shows it, the one that received it first shows the revival. -/
theorem replicas_diverge :
    let c := run (step .plain fiveIdentities) ⟨fiveReplicas, []⟩ twoOrders
    (∀ device, ∃ spaceID schema clock,
        newReplica .plain spaceID schema clock = .ok (fiveReplicas device)) ∧
      (Function.Injective fun device =>
        Primitives.plain.peerID (fiveIdentities device).publicKey) ∧
      (c.replica 3).spaceID = (c.replica 4).spaceID ∧
      (c.replica 3).supportedSchemaVersion = (c.replica 4).supportedSchemaVersion ∧
      (∀ op, (c.replica 3).Stores op ↔ (c.replica 4).Stores op) ∧
      ((c.replica 3).get "hosts" "h").map Record.opID = some "c:1" ∧
      ((c.replica 4).get "hosts" "h").map Record.opID = some "b:1" := by
  refine ⟨fiveReplicas_created, fiveIdentities_distinct, by decide +kernel, by decide +kernel,
    fun op => ?_, by decide +kernel, by decide +kernel⟩
  have same : ((run (step .plain fiveIdentities) ⟨fiveReplicas, []⟩ twoOrders).replica 3).ops =
      ((run (step .plain fiveIdentities) ⟨fiveReplicas, []⟩ twoOrders).replica 4).ops :=
    ExtTreeMap.toList_inj.mp (by decide +kernel)
  rw [Replica.Stores, Replica.Stores, same]

theorem replicas_converge_without_rival :
    let c := run (step .plain fiveIdentities) ⟨fiveReplicas, []⟩ (threeWrites ++
      [delivering 3 10 removal, delivering 3 10 revival, delivering 4 10 revival,
        delivering 4 10 removal])
    (c.replica 3).Agrees (c.replica 4) := by
  intro c
  have same : (c.replica 3).ops = (c.replica 4).ops := ExtTreeMap.toList_inj.mp (by decide +kernel)
  refine replicas_converge fiveReplicas_created fiveIdentities_distinct _ rfl rfl
    (fun op => by rw [Replica.Stores, Replica.Stores, same]) (by decide +kernel) fun key =>
      Or.inr fun last latest op member deletes => ?_
  have held : mapValues (c.replica 3).ops = [⟨.signed removal [], removal, [1, 0]⟩,
    ⟨.signed revival [], revival, [1, 0]⟩] := by decide +kernel
  have stored : ∀ op, (c.replica 3).Stores op → op ∈ mapValues (c.replica 3).ops :=
    fun op stores => (mem_mapValues_iff _ _).mpr ⟨_, stores⟩
  have known := stored op member.1
  have first := stored last latest.1.1
  have sets := latest.2.1
  rw [held] at known first
  simp only [List.mem_cons, List.not_mem_nil, or_false] at known first
  rcases known with rfl | rfl
  · rcases first with rfl | rfl
    · cases sets
    · decide +kernel
  · cases deletes

end Cluster

end Atterm.ConfigSync
