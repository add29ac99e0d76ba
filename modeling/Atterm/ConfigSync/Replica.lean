/-
**The in-memory replica.**

`Replica` is the canonical operation set with its materialized view. `Apply` verifies a token,
recognizes what it already has, lets the clock judge the timestamp and only then stores; `store` is
that last part. Every later argument uses what one call can do:

* `apply_cases` — `Apply` fails and changes nothing, recognizes a known operation and changes
  nothing, or stores a new one;
* `append_outcome`, `appendEncrypted_outcome` — a local write fails, having at most moved the clock,
  or stores an operation whose context is the current vector.
-/

import Atterm.Foundation.Frontier
import Atterm.Foundation.TreeMapFold
import Atterm.ConfigSync.Op

namespace Atterm.ConfigSync

open Std (ExtTreeMap)
open Atterm.Foundation (advance mapValues)

/-- Whether an inbound token changed the replica and its view. -/
structure ApplyResult where
  stored : Bool := false
  materialized : Bool := false
  duplicate : Bool := false
  compacted : Bool := false
deriving DecidableEq, Repr

/-- One materialized entity; a deleted one remains visible as a tombstone. -/
structure Record where
  spaceID : String
  collection : String
  recordID : String
  deleted : Bool
  payload : Bytes
  opID : String
  actorDeviceID : String
  counter : Nat
  hlc : Timestamp
  keyClass : KeyClass
  keyEpoch : Nat
deriving DecidableEq

@[ext]
structure RecordKey where
  collection : String
  recordID : String
deriving DecidableEq

instance : Ord RecordKey :=
  ⟨compareLex (compareOn fun key => key.collection) (compareOn fun key => key.recordID)⟩

instance : Std.TransOrd RecordKey :=
  inferInstanceAs (Std.TransCmp (compareLex (compareOn fun key : RecordKey => key.collection)
    (compareOn fun key => key.recordID)))

instance : Std.LawfulEqOrd RecordKey where
  eq_of_compare := by
    intro first second same
    have parts := compareLex_eq_eq.mp (show compareLex (compareOn fun key : RecordKey =>
      key.collection) (compareOn fun key => key.recordID) first second = .eq from same)
    simp only [compareOn, Std.compare_eq_iff_eq] at parts
    exact RecordKey.ext parts.1 parts.2

def SyncOp.key (doc : SyncOp) : RecordKey := ⟨doc.collection, doc.recordID⟩

def SyncOp.record (doc : SyncOp) : Record where
  spaceID := doc.spaceID
  collection := doc.collection
  recordID := doc.recordID
  deleted := doc.kind = .delete
  payload := doc.payload
  opID := doc.opID
  actorDeviceID := doc.actorDeviceID
  counter := doc.counter
  hlc := doc.hlc
  keyClass := doc.keyClass
  keyEpoch := doc.keyEpoch

/-- `doc` was written by a device that had already seen `other`. -/
def SyncOp.saw (doc other : SyncOp) : Bool :=
  decide (other.counter ≤ doc.causalContext.get other.actorDeviceID)

/-- The candidate replaces the current winner of a record. -/
def operationWins (candidate current : SyncOp) : Bool :=
  let candidateSawCurrent := candidate.saw current
  let currentSawCandidate := current.saw candidate
  if candidateSawCurrent && !currentSawCandidate then true
  else if currentSawCandidate && !candidateSawCurrent then false
  else if candidate.kind ≠ current.kind then decide (candidate.kind = .delete)
  else if compareTimestamp candidate.hlc current.hlc ≠ .eq then
    decide (compareTimestamp candidate.hlc current.hlc = .gt)
  else if candidate.actorDeviceID ≠ current.actorDeviceID then
    decide (candidate.actorDeviceID > current.actorDeviceID)
  else decide (candidate.opID > current.opID)

/-- The in-memory canonical operation set and materialized view. -/
@[ext]
structure Replica where
  spaceID : String
  supportedSchemaVersion : Nat
  clock : Clock
  ops : ExtTreeMap String VerifiedOp
  seenCounters : ExtTreeMap String (Finset Nat)
  maxCounters : VersionVector
  vector : VersionVector
  view : ExtTreeMap RecordKey VerifiedOp
  compactedVector : VersionVector
  compactedPayloadIDs : ExtTreeMap String Bytes
  retained : ExtTreeMap String VerifiedOp

def Replica.empty (spaceID : String) (supportedSchemaVersion : Nat) (clock : Clock) : Replica where
  spaceID := spaceID
  supportedSchemaVersion := supportedSchemaVersion
  clock := clock
  ops := ∅
  seenCounters := ∅
  maxCounters := ∅
  vector := ∅
  view := ∅
  compactedVector := ∅
  compactedPayloadIDs := ∅
  retained := ∅

def newReplica (P : Primitives) (spaceID : String) (supportedSchemaVersion : Nat) (clock : Clock) :
    Except SyncError Replica :=
  if P.validSpaceID spaceID = false ∨ supportedSchemaVersion = 0 then
    .error (.invalidOp "space or supported schema version")
  else .ok (.empty spaceID supportedSchemaVersion clock)

/-- Move an actor's entry over the counters that are already stored. -/
def advanceVector (seen : Finset Nat) (actor : String) : Nat → VersionVector → VersionVector
  | 0, vector => vector
  | fuel + 1, vector =>
    if vector.get actor + 1 ∈ seen then
      advanceVector seen actor fuel (vector.insert actor (vector.get actor + 1))
    else vector

/-- The wall readings of one local write: for the timestamp and for applying the operation. -/
structure Walls where
  tick : Int
  apply : Int
deriving DecidableEq, Repr

def counterModulus : Nat := 2 ^ 64

namespace Replica

def seen (r : Replica) (actor : String) : Finset Nat := r.seenCounters.getD actor ∅

/-- The view after an operation of the supported schema competed for its record, and whether it
won. -/
def materialize (r : Replica) (verified : VerifiedOp) :
    Bool × ExtTreeMap RecordKey VerifiedOp :=
  match r.view[verified.document.key]? with
  | none => (true, r.view.insert verified.document.key verified)
  | some current =>
    if operationWins verified.document current.document then
      (true, r.view.insert verified.document.key verified)
    else (false, r.view)

def store (r : Replica) (verified : VerifiedOp) : ApplyResult × Replica :=
  let doc := verified.document
  let seen := insert doc.counter (r.seen doc.actorDeviceID)
  let maxCounters :=
    if doc.counter > r.maxCounters.get doc.actorDeviceID then
      r.maxCounters.insert doc.actorDeviceID doc.counter
    else r.maxCounters
  let stored := { r with
    ops := r.ops.insert doc.opID verified
    seenCounters := r.seenCounters.insert doc.actorDeviceID seen
    maxCounters := maxCounters
    vector := advanceVector seen doc.actorDeviceID seen.card r.vector }
  if doc.schemaVersion ≠ r.supportedSchemaVersion then ({ stored := true }, stored)
  else
    let (materialized, view) := r.materialize verified
    ({ stored := true, materialized := materialized }, { stored with view := view })

/-- What the replica already says about a verified operation: another space, a fork, a duplicate
with the result to report, or nothing. -/
def recognize (r : Replica) (verified : VerifiedOp) : Except SyncError (Option ApplyResult) :=
  let doc := verified.document
  if doc.spaceID ≠ r.spaceID then .error .wrongSpace
  else if doc.counter ≤ r.compactedVector.get doc.actorDeviceID then
    if r.compactedPayloadIDs.getD doc.opID verified.payloadID ≠ verified.payloadID then
      .error (.counterFork doc.actorDeviceID doc.counter)
    else .ok (some { duplicate := true, compacted := true })
  else match r.ops[doc.opID]? with
    | some existing =>
      if existing.payloadID = verified.payloadID then .ok (some { duplicate := true })
      else .error (.counterFork doc.actorDeviceID doc.counter)
    | none => .ok none

/-- Verify and store one operation. Duplicate delivery is idempotent; a different operation at the
same actor counter is a fork error. -/
def apply (P : Primitives) (r : Replica) (wall : Int) (token : OpToken) :
    Except SyncError ApplyResult × Replica :=
  match P.verifyOp token with
  | .error error => (.error error, r)
  | .ok verified =>
    match r.recognize verified with
    | .error error => (.error error, r)
    | .ok (some result) => (.ok result, r)
    | .ok none =>
      match r.clock.observe wall verified.document.hlc with
      | (.error error, clock) => (.error error, { r with clock := clock })
      | (.ok _, clock) =>
        let (result, stored) := { r with clock := clock }.store verified
        (.ok result, stored)

/-- Stamp and sign an operation, apply it and read it back. -/
def applySigned (P : Primitives) (r : Replica) (walls : Walls)
    (sign : Timestamp → Except SyncError OpToken) : Except SyncError VerifiedOp × Replica :=
  let (hlc, clock) := r.clock.tick walls.tick
  match sign hlc with
  | .error error => (.error error, { r with clock := clock })
  | .ok token =>
    match { r with clock := clock }.apply P walls.apply token with
    | (.error error, applied) => (.error error, applied)
    | (.ok _, applied) => (P.verifyOp token, applied)

def withSchema (r : Replica) (mutation : Mutation) : Mutation :=
  if mutation.schemaVersion = 0 then
    { mutation with schemaVersion := r.supportedSchemaVersion }
  else mutation

/-- The persistence boundary for callers that own a durable device counter. -/
def appendAtCounter (P : Primitives) (r : Replica) (walls : Walls) (identity : Identity)
    (entropy : Entropy) (counter : Nat) (mutation : Mutation) :
    Except SyncError VerifiedOp × Replica :=
  let actor := P.peerID identity.publicKey
  let expected := (r.maxCounters.get actor + 1) % counterModulus
  let causal := r.vector.clone
  if counter ≠ expected ∨
      causal.get actor ≠ (counter + counterModulus - 1) % counterModulus then
    (.error (.counterRollback actor counter expected), r)
  else
    r.applySigned P walls fun hlc =>
      P.signOp identity entropy r.spaceID counter hlc causal (r.withSchema mutation)

/-- Create and apply the next operation for an identity. -/
def append (P : Primitives) (r : Replica) (walls : Walls) (identity : Identity)
    (entropy : Entropy) (mutation : Mutation) : Except SyncError VerifiedOp × Replica :=
  let next := (r.maxCounters.get (P.peerID identity.publicKey) + 1) % counterModulus
  r.appendAtCounter P walls identity entropy next mutation

/-- Allocate the next local counter, seal the payload, sign and apply. -/
def appendEncrypted (P : Primitives) (r : Replica) (walls : Walls) (identity : Identity)
    (entropy : Entropy) (key : EpochKey) (mutation : Mutation) :
    Except SyncError VerifiedOp × Replica :=
  let actor := P.peerID identity.publicKey
  let next := (r.maxCounters.get actor + 1) % counterModulus
  let causal := r.vector.clone
  if causal.get actor ≠ (next + counterModulus - 1) % counterModulus then
    (.error (.counterRollback actor next ((causal.get actor + 1) % counterModulus)), r)
  else
    r.applySigned P walls fun hlc =>
      P.signEncryptedOp identity entropy r.spaceID next hlc causal key (r.withSchema mutation)

/-- `Vector()`: the greatest contiguous counters. -/
def vectorCopy (r : Replica) : VersionVector := r.vector.clone

/-- One materialized record, including tombstones. -/
def get (r : Replica) (collection recordID : String) : Option Record :=
  (r.view[(⟨collection, recordID⟩ : RecordKey)]?).map fun op => op.document.record

def records (r : Replica) (collection : String) : List Record :=
  let out := (r.view.toList.filter fun entry => entry.1.collection = collection).map
    fun entry => entry.2.document.record
  out.insertionSort fun a b => a.recordID ≤ b.recordID

/-- The two replicas give the same answers: `Vector`, `Get` and `Records`. -/
def Agrees (r other : Replica) : Prop :=
  r.vectorCopy = other.vectorCopy ∧
    (∀ collection recordID, r.get collection recordID = other.get collection recordID) ∧
    ∀ collection, r.records collection = other.records collection

/-! ### The effect of storing -/

theorem get_advanceVector (seen : Finset Nat) (actor other : String) (fuel : Nat)
    (vector : VersionVector) :
    (advanceVector seen actor fuel vector).get other =
      if actor = other then advance seen fuel (vector.get actor) else vector.get other := by
  induction fuel generalizing vector with
  | zero =>
    unfold advanceVector advance
    split_ifs with same <;> simp [same]
  | succ fuel ih =>
    unfold advanceVector advance
    split_ifs with present same same
    · rw [ih, if_pos same, VersionVector.get_insert, if_pos rfl]
    · rw [ih, if_neg same, VersionVector.get_insert, if_neg same]
    · rw [same]
    · rfl

/-- The winner of a record after an operation competed for it. -/
def contest (current : Option VerifiedOp) (verified : VerifiedOp) : VerifiedOp :=
  match current with
  | none => verified
  | some held => if operationWins verified.document held.document then verified else held

section Store

variable (r : Replica) (op : VerifiedOp)

theorem getElem?_materialize (key : RecordKey) :
    (r.materialize op).2[key]? =
      if op.document.key = key then some (contest r.view[key]? op) else r.view[key]? := by
  unfold materialize contest
  by_cases same : op.document.key = key
  · subst same
    rw [if_pos rfl]
    cases held : r.view[op.document.key]? with
    | none => simp
    | some current =>
      simp only
      split_ifs with wins
      · simp
      · exact held
  · rw [if_neg same]
    split
    · simp [ExtTreeMap.getElem?_insert, same]
    · split_ifs
      · simp [ExtTreeMap.getElem?_insert, same]
      · rfl

theorem store_eq :
    (r.store op).2 = { r with
      ops := r.ops.insert op.document.opID op
      seenCounters := r.seenCounters.insert op.document.actorDeviceID
        (insert op.document.counter (r.seen op.document.actorDeviceID))
      maxCounters := if op.document.counter > r.maxCounters.get op.document.actorDeviceID then
          r.maxCounters.insert op.document.actorDeviceID op.document.counter
        else r.maxCounters
      vector := advanceVector (insert op.document.counter (r.seen op.document.actorDeviceID))
        op.document.actorDeviceID
        (insert op.document.counter (r.seen op.document.actorDeviceID)).card r.vector
      view := if op.document.schemaVersion = r.supportedSchemaVersion then (r.materialize op).2
        else r.view } := by
  unfold store
  by_cases schema : op.document.schemaVersion = r.supportedSchemaVersion <;> simp [schema]

@[simp] theorem store_spaceID : (r.store op).2.spaceID = r.spaceID := by rw [store_eq]

@[simp] theorem store_supportedSchemaVersion :
    (r.store op).2.supportedSchemaVersion = r.supportedSchemaVersion := by rw [store_eq]

@[simp] theorem store_clock : (r.store op).2.clock = r.clock := by rw [store_eq]

@[simp] theorem store_ops : (r.store op).2.ops = r.ops.insert op.document.opID op := by
  rw [store_eq]

@[simp] theorem store_compactedVector : (r.store op).2.compactedVector = r.compactedVector := by
  rw [store_eq]

@[simp] theorem store_retained : (r.store op).2.retained = r.retained := by rw [store_eq]

@[simp] theorem store_stored : (r.store op).1.stored = true := by
  unfold store
  by_cases schema : op.document.schemaVersion = r.supportedSchemaVersion <;> simp [schema]

theorem store_seen (actor : String) :
    (r.store op).2.seen actor =
      if op.document.actorDeviceID = actor then insert op.document.counter (r.seen actor)
      else r.seen actor := by
  rw [store_eq]
  simp only [seen, ExtTreeMap.getD_insert, Std.compare_eq_iff_eq]
  split_ifs with same <;> simp [same]

theorem store_get_vector (actor : String) :
    (r.store op).2.vector.get actor =
      if op.document.actorDeviceID = actor then
        advance (insert op.document.counter (r.seen actor))
          (insert op.document.counter (r.seen actor)).card (r.vector.get actor)
      else r.vector.get actor := by
  rw [store_eq]
  simp only [get_advanceVector]
  split_ifs with same
  · rw [same]
  · rfl

theorem store_get_maxCounters (actor : String) :
    (r.store op).2.maxCounters.get actor =
      if op.document.actorDeviceID = actor then max (r.maxCounters.get actor) op.document.counter
      else r.maxCounters.get actor := by
  rw [store_eq]
  simp only
  split_ifs with above same same
  · subst same
    simp only [VersionVector.get_insert, if_pos]
    omega
  · rw [VersionVector.get_insert, if_neg same]
  · subst same
    omega
  · rfl

theorem store_view (key : RecordKey) :
    (r.store op).2.view[key]? =
      if op.document.schemaVersion = r.supportedSchemaVersion ∧ op.document.key = key then
        some (contest r.view[key]? op)
      else r.view[key]? := by
  rw [store_eq]
  simp only
  by_cases schema : op.document.schemaVersion = r.supportedSchemaVersion
  · simp [schema, getElem?_materialize]
  · simp [schema]

end Store

/-! ### What one call can do -/

def absorb (r : Replica) (wall : Int) (hlc : Timestamp) : Replica :=
  { r with clock := { r.clock with last := r.clock.absorbed wall hlc } }

/-- The operation is already part of the replica. -/
def Has (r : Replica) (op : VerifiedOp) : Prop :=
  op.document.counter ≤ r.compactedVector.get op.document.actorDeviceID ∨
    ∃ existing, r.ops[op.document.opID]? = some existing ∧ existing.payloadID = op.payloadID

/-- A token that `Apply` stores at a wall reading, with the operation it carries. -/
structure Fresh (P : Primitives) (r : Replica) (wall : Int) (token : OpToken) (op : VerifiedOp) :
    Prop where
  verified : P.verifyOp token = .ok op
  space : op.document.spaceID = r.spaceID
  uncompacted : r.compactedVector.get op.document.actorDeviceID < op.document.counter
  absent : r.ops[op.document.opID]? = none
  accepted : r.clock.Accepts wall op.document.hlc

section Calls

variable {P : Primitives} {r : Replica}

def stored (r : Replica) (wall : Int) (op : VerifiedOp) : Replica :=
  ((r.absorb wall op.document.hlc).store op).2

theorem recognize_ok_none_iff (op : VerifiedOp) :
    r.recognize op = .ok none ↔ op.document.spaceID = r.spaceID ∧
      r.compactedVector.get op.document.actorDeviceID < op.document.counter ∧
      r.ops[op.document.opID]? = none := by
  unfold recognize
  cases held : r.ops[op.document.opID]? with
  | none =>
    simp only
    split_ifs <;> simp_all
  | some existing =>
    simp only [held]
    split_ifs <;> simp

theorem recognize_ok_some {op : VerifiedOp} {result : ApplyResult}
    (known : r.recognize op = .ok (some result)) :
    op.document.spaceID = r.spaceID ∧ r.Has op ∧ result.stored = false := by
  unfold recognize at known
  simp only at known
  split_ifs at known with space compacted fork
  · cases known
    exact ⟨not_not.mp space, Or.inl compacted, rfl⟩
  · split at known
    · rename_i existing held
      split_ifs at known with same
      cases known
      exact ⟨not_not.mp space, Or.inr ⟨existing, held, same⟩, rfl⟩
    · cases known

theorem apply_of_fresh {wall : Int} {token : OpToken} {op : VerifiedOp}
    (fresh : Fresh P r wall token op) :
    r.apply P wall token =
      (.ok ((r.absorb wall op.document.hlc).store op).1, r.stored wall op) := by
  have unknown : r.recognize op = .ok none :=
    (recognize_ok_none_iff op).mpr ⟨fresh.space, fresh.uncompacted, fresh.absent⟩
  unfold apply
  rw [fresh.verified]
  simp only [unknown]
  rcases r.clock.observe_spec wall op.document.hlc with ⟨refused, -⟩ | ⟨-, observed⟩
  · exact absurd fresh.accepted refused
  · rw [observed]
    rfl

/-- **What `Apply` can do**: fail, recognize or store. Only the last changes the replica. -/
theorem apply_cases (P : Primitives) (r : Replica) (wall : Int) (token : OpToken) :
    (∃ error, r.apply P wall token = (.error error, r)) ∨
      (∃ op result, P.verifyOp token = .ok op ∧ op.document.spaceID = r.spaceID ∧ r.Has op ∧
        result.stored = false ∧ r.apply P wall token = (.ok result, r)) ∨
      ∃ op, Fresh P r wall token op ∧ r.apply P wall token =
        (.ok ((r.absorb wall op.document.hlc).store op).1, r.stored wall op) := by
  cases verified : P.verifyOp token with
  | error error => exact Or.inl ⟨error, by unfold apply; rw [verified]⟩
  | ok op =>
    cases known : r.recognize op with
    | error error => exact Or.inl ⟨error, by unfold apply; rw [verified]; simp only [known]⟩
    | ok found =>
      cases found with
      | some result =>
        obtain ⟨space, has, unstored⟩ := recognize_ok_some known
        refine Or.inr (Or.inl ⟨op, result, rfl, space, has, unstored, ?_⟩)
        unfold apply
        rw [verified]
        simp only [known]
      | none =>
        obtain ⟨space, uncompacted, absent⟩ := (recognize_ok_none_iff op).mp known
        rcases r.clock.observe_spec wall op.document.hlc with
          ⟨refused, error, observed⟩ | ⟨accepted, -⟩
        · refine Or.inl ⟨error, ?_⟩
          unfold apply
          rw [verified]
          simp only [known, observed]
        · have fresh : Fresh P r wall token op :=
            ⟨verified, space, uncompacted, absent, accepted⟩
          exact Or.inr (Or.inr ⟨op, fresh, apply_of_fresh fresh⟩)

theorem apply_error {wall : Int} {token : OpToken} {error : SyncError}
    (failed : (r.apply P wall token).1 = .error error) : (r.apply P wall token).2 = r := by
  rcases apply_cases P r wall token with ⟨reason, same⟩ | ⟨op, result, -, -, -, -, same⟩ |
    ⟨op, fresh, same⟩
  · rw [same]
  · rw [same]
  · rw [same] at failed
    cases failed

def ticked (r : Replica) (wall : Int) : Replica := { r with clock := (r.clock.tick wall).2 }

/-- What a local write puts into its operation. -/
structure Written (P : Primitives) (r : Replica) (walls : Walls) (identity : Identity)
    (op : VerifiedOp) : Prop where
  genuine : P.Genuine op
  actor : op.document.actorDeviceID = P.peerID identity.publicKey
  counter : op.document.counter = r.vector.get op.document.actorDeviceID + 1
  hlc : op.document.hlc = (r.clock.tick walls.tick).1
  context : op.document.causalContext = r.vector.clone

/-- The results of a local write and the replicas it leaves. -/
inductive WriteOutcome (P : Primitives) (r : Replica) (walls : Walls) (identity : Identity) :
    Except SyncError VerifiedOp × Replica → Prop where
  | refused (error : SyncError) : WriteOutcome P r walls identity (.error error, r)
  | failed (error : SyncError) :
      WriteOutcome P r walls identity (.error error, r.ticked walls.tick)
  | known (op : VerifiedOp) (written : Written P r walls identity op)
      (has : (r.ticked walls.tick).Has op) :
      WriteOutcome P r walls identity (.ok op, r.ticked walls.tick)
  | stored (op : VerifiedOp) (written : Written P r walls identity op)
      (fresh : Fresh P (r.ticked walls.tick) walls.apply op.token op) :
      WriteOutcome P r walls identity (.ok op, (r.ticked walls.tick).stored walls.apply op)

theorem applySigned_outcome {walls : Walls} {identity : Identity}
    {sign : Timestamp → Except SyncError OpToken}
    (writes : ∀ token op, sign (r.clock.tick walls.tick).1 = .ok token →
      P.verifyOp token = .ok op → Written P r walls identity op) :
    WriteOutcome P r walls identity (r.applySigned P walls sign) := by
  unfold applySigned
  simp only
  cases signed : sign (r.clock.tick walls.tick).1 with
  | error error => exact .failed error
  | ok token =>
    simp only
    rcases apply_cases P (r.ticked walls.tick) walls.apply token with
      ⟨error, same⟩ | ⟨op, result, verified, -, has, -, same⟩ | ⟨op, fresh, same⟩
    · rw [ticked] at same
      rw [same]
      exact .failed error
    · rw [ticked] at same
      rw [same]
      simp only [verified]
      exact .known op (writes token op signed verified) has
    · have token_eq := (P.genuine_of_verify fresh.verified).2
      have written := writes token op signed fresh.verified
      rw [ticked] at same
      rw [same]
      simp only [fresh.verified]
      subst token_eq
      exact .stored op written fresh

theorem written_of_signOp {walls : Walls} {identity : Identity} {entropy : Entropy} {counter : Nat}
    {mutation : Mutation} {token : OpToken} {op : VerifiedOp}
    (signed : P.signOp identity entropy r.spaceID counter (r.clock.tick walls.tick).1
      r.vector.clone mutation = .ok token) (verified : P.verifyOp token = .ok op) :
    Written P r walls identity op := by
  obtain ⟨doc, signature, rfl, valid, -, actor, -, hlc, context⟩ := P.signOp_ok signed
  obtain ⟨read, mark, same, -, rfl⟩ := P.verifyOp_ok verified
  cases same
  rw [VersionVector.clone_clone] at context
  have previous := valid.previous
  rw [context, VersionVector.get_clone] at previous
  have positive := valid.counter
  exact ⟨verified, actor, by simp only; omega, hlc, context⟩

theorem appendAtCounter_outcome (P : Primitives) (r : Replica) (walls : Walls)
    (identity : Identity) (entropy : Entropy) (counter : Nat) (mutation : Mutation) :
    WriteOutcome P r walls identity
      (r.appendAtCounter P walls identity entropy counter mutation) := by
  unfold appendAtCounter
  simp only
  split_ifs with refused
  · exact .refused _
  · exact applySigned_outcome fun token op signed verified => written_of_signOp signed verified

theorem append_outcome (P : Primitives) (r : Replica) (walls : Walls) (identity : Identity)
    (entropy : Entropy) (mutation : Mutation) :
    WriteOutcome P r walls identity (r.append P walls identity entropy mutation) :=
  appendAtCounter_outcome P r walls identity entropy _ mutation

theorem appendEncrypted_outcome (P : Primitives) (r : Replica) (walls : Walls)
    (identity : Identity) (entropy : Entropy) (key : EpochKey) (mutation : Mutation) :
    WriteOutcome P r walls identity
      (r.appendEncrypted P walls identity entropy key mutation) := by
  unfold appendEncrypted
  simp only
  split_ifs with refused
  · exact .refused _
  · refine applySigned_outcome fun token op signed verified => ?_
    obtain ⟨payload, created⟩ := P.signEncryptedOp_ok signed
    exact written_of_signOp created verified

end Calls

end Replica

end Atterm.ConfigSync
