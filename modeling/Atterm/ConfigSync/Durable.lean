/-
**The durable replica.**

A `DurableReplica` is a handle on a file. Every mutation reads the file, replays it into a fresh
replica, works on that copy and replaces the file; reads use the copy of the last successful
mutation. The wall readings, the outcome of the file replacement and the randomness of a call are
its `Environment`. The handle owns one clock, which the working copy shares: what a failed call did
to the clock stays.

`Vector`, `Get` and `Records` of the handle are those of its replica.
-/

import Atterm.ConfigSync.Snapshot

namespace Atterm.ConfigSync

open Atterm.Foundation

def durableVersion : Int := 1

/-- `time.Duration(1<<63-1)` in milliseconds, the bound of the clock that replays the file. -/
def replaySkew : Int := 9223372036854

/-- The contents of the file. No snapshot is the empty string. -/
structure DurableState where
  version : Int
  spaceID : String
  schemaVersion : Nat
  localBootstrapComplete : Bool
  snapshot : Option SnapshotToken
  ops : List OpToken
deriving DecidableEq

/-- What is safe to send once an operation has reached the file. -/
structure DurableAck where
  spaceID : String
  vector : VersionVector
deriving DecidableEq

structure CompactionResult where
  compacted : Bool
  prunedTombstones : Nat
deriving DecidableEq, Repr

/-- A plaintext mutation with its epoch key and the randomness its operation draws. -/
structure EncryptedMutation where
  key : EpochKey
  mutation : Mutation
  entropy : Entropy
deriving DecidableEq

/-- How the replacement of the file ends. The last step, syncing the directory, can fail after the
new file is in place. -/
inductive WriteResult where
  | replaced
  | failed
  | unsynced
deriving DecidableEq, Repr

/-- What one call meets: whether the lock and the file are accessible, the wall readings of the
replay, of a second replay and of the call itself, and the outcome of the write. -/
structure Environment where
  access : Bool := true
  replay : Nat → Int
  rebuild : Nat → Int
  wall : Nat → Int
  write : WriteResult := .replaced

structure DurableReplica where
  spaceID : String
  schema : Nat
  clock : Clock
  /-- The file; `none` when it does not exist. -/
  file : Option DurableState
  state : DurableState
  replica : Replica

def emptyState (spaceID : String) (schema : Nat) : DurableState where
  version := durableVersion
  spaceID := spaceID
  schemaVersion := schema
  localBootstrapComplete := false
  snapshot := none
  ops := []

/-- The contents of the file, or the empty state when there is none. -/
def readState (spaceID : String) (schema : Nat) (file : Option DurableState) :
    Except SyncError DurableState :=
  match file with
  | none => .ok (emptyState spaceID schema)
  | some state =>
    if state.version ≠ durableVersion ∨ state.spaceID ≠ spaceID ∨
        state.schemaVersion ≠ schema then
      .error (.durableStoreInvalid "header")
    else .ok state

/-! ### Replaying a file -/

/-- The base of a replay and the timestamp it starts from. -/
def replayBase (P : Primitives) (empty : Replica) (replay : Nat → Int) :
    Option SnapshotToken → Except SyncError (Replica × Timestamp)
  | none => .ok (empty, ⟨0, 0⟩)
  | some token =>
    P.verifySnapshot token >>= fun verified =>
      match empty.installSnapshot P (replay 0) token with
      | (.error error, _) => .error error
      | (.ok _, replica) => .ok (replica, verified.document.createdHLC)

/-- Apply the operations of the file; `maxHLC` is the greatest timestamp met. -/
def replayOps (P : Primitives) (replay : Nat → Int) : Nat → List OpToken → Replica → Timestamp →
    Except SyncError (Replica × Timestamp)
  | _, [], replica, maxHLC => .ok (replica, maxHLC)
  | index, token :: rest, replica, maxHLC =>
    P.verifyOp token >>= fun verified =>
      let hlc := verified.document.hlc
      match replica.apply P (replay index) token with
      | (.error error, _) => .error error
      | (.ok result, applied) =>
        if result.stored = false then
          .error (.durableStoreInvalid "duplicate or compacted tail operation")
        else
          replayOps P replay (index + 1) rest applied
            (if compareTimestamp hlc maxHLC = .gt then hlc else maxHLC)

/-- Replay a state with a clock that bounds nothing in practice, then move the durable clock up to
the greatest timestamp of the file and hand it to the replica. -/
def buildReplica (P : Primitives) (spaceID : String) (schema : Nat) (clock : Clock)
    (replay : Nat → Int) (state : DurableState) : Except SyncError Replica × Clock :=
  let replayed :=
    newReplica P spaceID schema (Clock.new replaySkew) >>= fun empty =>
    replayBase P empty replay state.snapshot >>= fun base =>
    replayOps P replay 1 state.ops base.1 base.2
  match replayed with
  | .error error => (.error error, clock)
  | .ok (replica, maxHLC) =>
    if 0 < maxHLC.physicalMS then
      match clock.restore maxHLC with
      | (.error error, restored) => (.error error, restored)
      | (.ok _, restored) => (.ok { replica with clock := restored }, restored)
    else (.ok { replica with clock := clock }, clock)

/-! ### The work of each call on the copy -/

/-- What a call does to the working copy: its value, whether the file has to be replaced and by
what, and the replica. -/
abbrev Work (α : Type) := Replica → DurableState → Except SyncError (α × Bool × DurableState) ×
  Replica

def applyWork (P : Primitives) (env : Environment) (token : OpToken) : Work ApplyResult :=
  fun replica state =>
    match replica.apply P (env.wall 0) token with
    | (.error error, applied) => (.error error, applied)
    | (.ok result, applied) =>
      if result.stored then (.ok (result, true, { state with ops := state.ops ++ [token] }), applied)
      else (.ok (result, false, state), applied)

def keepCreated (state : DurableState) :
    Except SyncError VerifiedOp × Replica → Except SyncError (VerifiedOp × Bool × DurableState) ×
      Replica
  | (.error error, replica) => (.error error, replica)
  | (.ok created, replica) =>
    (.ok (created, true, { state with ops := state.ops ++ [created.token] }), replica)

def appendWork (P : Primitives) (env : Environment) (identity : Identity) (entropy : Entropy)
    (mutation : Mutation) : Work VerifiedOp := fun replica state =>
  keepCreated state
    (replica.append P ⟨env.wall 0, env.wall 1⟩ identity entropy mutation)

def appendEncryptedWork (P : Primitives) (env : Environment) (identity : Identity)
    (entropy : Entropy) (key : EpochKey) (mutation : Mutation) : Work VerifiedOp :=
  fun replica state =>
    keepCreated state
      (replica.appendEncrypted P ⟨env.wall 0, env.wall 1⟩ identity entropy key mutation)

/-- The loop over a batch of mutations. -/
def appendEach (P : Primitives) (env : Environment) (identity : Identity) :
    Nat → List EncryptedMutation → Replica → DurableState →
      Except SyncError (List VerifiedOp × DurableState) × Replica
  | _, [], replica, state => (.ok ([], state), replica)
  | index, item :: rest, replica, state =>
    match replica.appendEncrypted P ⟨env.wall (2 * index), env.wall (2 * index + 1)⟩ identity
        item.entropy item.key item.mutation with
    | (.error error, failed) => (.error error, failed)
    | (.ok created, appended) =>
      match appendEach P env identity (index + 1) rest appended
          { state with ops := state.ops ++ [created.token] } with
      | (.error error, failed) => (.error error, failed)
      | (.ok (operations, next), after) => (.ok (created :: operations, next), after)

def appendEncryptedBatchWork (P : Primitives) (env : Environment) (identity : Identity)
    (mutations : List EncryptedMutation) : Work (List VerifiedOp) := fun replica state =>
  match appendEach P env identity 0 mutations replica state with
  | (.error error, failed) => (.error error, failed)
  | (.ok (operations, next), after) => (.ok (operations, mutations ≠ [], next), after)

/-- Append the initial records once; the value says whether they were. -/
def bootstrapEncryptedWork (P : Primitives) (env : Environment) (identity : Identity)
    (mutations : List EncryptedMutation) : Work (List VerifiedOp × Bool) := fun replica state =>
  if state.localBootstrapComplete then (.ok (([], false), false, state), replica)
  else
    match appendEach P env identity 0 mutations replica state with
    | (.error error, failed) => (.error error, failed)
    | (.ok (operations, next), after) =>
      (.ok ((operations, true), true, { next with localBootstrapComplete := true }), after)

def adoptSnapshotWork (P : Primitives) (env : Environment) (token : SnapshotToken) : Work Unit :=
  fun replica state =>
    if state.snapshot = some token then (.ok ((), false, state), replica)
    else if state.snapshot ≠ none ∨ state.ops ≠ [] then (.error .replicaNotEmpty, replica)
    else
      match replica.installSnapshot P (env.wall 0) token with
      | (.error error, failed) => (.error error, failed)
      | (.ok _, installed) => (.ok ((), true, { state with snapshot := some token }), installed)

/-- Make a snapshot the whole contents of the file, after replaying it once. -/
def rebaseOn (P : Primitives) (env : Environment) (token : SnapshotToken) (replica : Replica)
    (state : DurableState) : Except SyncError DurableState × Replica :=
  let next : DurableState :=
    { emptyState replica.spaceID replica.supportedSchemaVersion with
      localBootstrapComplete := state.localBootstrapComplete
      snapshot := some token }
  match buildReplica P replica.spaceID replica.supportedSchemaVersion replica.clock env.rebuild
      next with
  | (.error error, clock) => (.error error, { replica with clock := clock })
  | (.ok rebuilt, _) => (.ok next, rebuilt)

def rebaseSnapshotWork (P : Primitives) (env : Environment) (token : SnapshotToken) : Work Unit :=
  fun replica state =>
    if state.snapshot = some token then (.ok ((), false, state), replica)
    else
      match P.verifySnapshot token with
      | .error _ => (.error (.invalidSnapshot ""), replica)
      | .ok verified =>
        if verified.document.spaceID ≠ replica.spaceID ∨
            verified.document.schemaVersion ≠ replica.supportedSchemaVersion then
          (.error (.invalidSnapshot ""), replica)
        else if verified.document.coverVector.covers replica.vectorCopy = false then
          (.error .snapshotNotCovered, replica)
        else
          match rebaseOn P env token replica state with
          | (.error error, failed) => (.error error, failed)
          | (.ok next, rebuilt) => (.ok ((), true, next), rebuilt)

/-- Sign a snapshot of the copy and make it the whole contents of the file. -/
def compactOn (P : Primitives) (env : Environment) (identity : Identity) (entropy : Entropy)
    (stable : Option VersionVector) (replica : Replica) (state : DurableState) :
    Except SyncError (SnapshotToken × Nat × DurableState) × Replica :=
  match replica.signSnapshot P (env.wall 0) identity entropy stable with
  | (.error error, failed) => (.error error, failed)
  | (.ok (created, pruned), signer) =>
    match rebaseOn P env created signer state with
    | (.error error, failed) => (.error error, failed)
    | (.ok next, rebuilt) => (.ok (created, pruned, next), rebuilt)

def compactWork (P : Primitives) (env : Environment) (identity : Identity) (entropy : Entropy) :
    Work SnapshotToken := fun replica state =>
  match compactOn P env identity entropy none replica state with
  | (.error error, failed) => (.error error, failed)
  | (.ok (created, _, next), rebuilt) => (.ok (created, true, next), rebuilt)

def tailBytesExceed (P : Primitives) (maxTailBytes : Int) : Int → List OpToken → Bool
  | _, [] => false
  | bytes, token :: rest =>
    if maxTailBytes ≤ bytes + P.opTokenBytes token then true
    else tailBytesExceed P maxTailBytes (bytes + P.opTokenBytes token) rest

def configTailExceedsBounds (P : Primitives) (state : DurableState) (maxTailOps maxTailBytes : Int) :
    Bool :=
  decide (maxTailOps ≤ state.ops.length) || tailBytesExceed P maxTailBytes 0 state.ops

/-- Compact an oversized tail, leaving out the tombstones that `stable` covers. -/
def compactForBoundsWork (P : Primitives) (env : Environment) (identity : Identity)
    (entropy : Entropy) (maxTailOps maxTailBytes : Int) (stable : VersionVector) :
    Work CompactionResult := fun replica state =>
  if configTailExceedsBounds P state maxTailOps maxTailBytes = false ∧
      replica.prunableTombstones stable.clone = 0 then
    (.ok (⟨false, 0⟩, false, state), replica)
  else
    match compactOn P env identity entropy (some stable.clone) replica state with
    | (.error error, failed) => (.error error, failed)
    | (.ok (_, pruned, next), rebuilt) => (.ok (⟨true, pruned⟩, true, next), rebuilt)

namespace DurableReplica

/-! ### The calls -/

/-- Load the file, work on the copy, replace the file and keep the copy. -/
def mutate {α : Type} (P : Primitives) (d : DurableReplica) (env : Environment) (work : Work α) :
    Except SyncError (α × DurableAck) × DurableReplica :=
  if env.access = false then (.error (.storage "lock"), d)
  else
    match readState d.spaceID d.schema d.file with
    | .error error => (.error error, d)
    | .ok state =>
      match buildReplica P d.spaceID d.schema d.clock env.replay state with
      | (.error error, clock) => (.error error, { d with clock := clock })
      | (.ok replica, _) =>
        match work replica state with
        | (.error error, after) => (.error error, { d with clock := after.clock })
        | (.ok (value, dirty, next), after) =>
          let ack : DurableAck := ⟨d.spaceID, after.vectorCopy⟩
          let kept := { d with clock := after.clock, state := next, replica := after }
          if dirty = false then (.ok (value, ack), kept)
          else
            match env.write with
            | .failed => (.error (.storage "write"), { d with clock := after.clock })
            | .unsynced =>
              (.error (.storage "sync"), { d with clock := after.clock, file := some next })
            | .replaced => (.ok (value, ack), { kept with file := some next })

/-- Open an existing replica file or prepare an empty one. -/
def openDurableReplica (P : Primitives) (spaceID : String) (schema : Nat) (clock : Clock)
    (file : Option DurableState) (replay : Nat → Int) : Except SyncError DurableReplica :=
  if P.validSpaceID spaceID = false ∨ schema = 0 then
    .error (.durableStoreInvalid "path, space, or schema")
  else
    readState spaceID schema file >>= fun state =>
      match buildReplica P spaceID schema clock replay state with
      | (.error error, _) => .error error
      | (.ok replica, restored) => .ok ⟨spaceID, schema, restored, file, state, replica⟩

/-- Replace the in-memory view by the latest file contents. -/
def reload (P : Primitives) (d : DurableReplica) (env : Environment) :
    Except SyncError Unit × DurableReplica :=
  match readState d.spaceID d.schema d.file with
  | .error error => (.error error, d)
  | .ok state =>
    match buildReplica P d.spaceID d.schema d.clock env.replay state with
    | (.error error, clock) => (.error error, { d with clock := clock })
    | (.ok replica, clock) => (.ok (), { d with clock := clock, state := state, replica := replica })

variable (P : Primitives) (d : DurableReplica) (env : Environment)

def apply (token : OpToken) : Except SyncError (ApplyResult × DurableAck) × DurableReplica :=
  d.mutate P env (applyWork P env token)

def append (identity : Identity) (entropy : Entropy) (mutation : Mutation) :
    Except SyncError (VerifiedOp × DurableAck) × DurableReplica :=
  d.mutate P env (appendWork P env identity entropy mutation)

def appendEncrypted (identity : Identity) (entropy : Entropy) (key : EpochKey)
    (mutation : Mutation) : Except SyncError (VerifiedOp × DurableAck) × DurableReplica :=
  d.mutate P env (appendEncryptedWork P env identity entropy key mutation)

def appendEncryptedBatch (identity : Identity) (mutations : List EncryptedMutation) :
    Except SyncError (List VerifiedOp × DurableAck) × DurableReplica :=
  d.mutate P env (appendEncryptedBatchWork P env identity mutations)

def bootstrapEncrypted (identity : Identity) (mutations : List EncryptedMutation) :
    Except SyncError ((List VerifiedOp × Bool) × DurableAck) × DurableReplica :=
  d.mutate P env (bootstrapEncryptedWork P env identity mutations)

def adoptSnapshot (token : SnapshotToken) :
    Except SyncError (Unit × DurableAck) × DurableReplica :=
  d.mutate P env (adoptSnapshotWork P env token)

def rebaseSnapshot (token : SnapshotToken) :
    Except SyncError (Unit × DurableAck) × DurableReplica :=
  d.mutate P env (rebaseSnapshotWork P env token)

def compact (identity : Identity) (entropy : Entropy) :
    Except SyncError (SnapshotToken × DurableAck) × DurableReplica :=
  d.mutate P env (compactWork P env identity entropy)

def compactForBounds (identity : Identity) (entropy : Entropy) (maxTailOps maxTailBytes : Int)
    (stable : VersionVector) :
    Except SyncError (CompactionResult × DurableAck) × DurableReplica :=
  if maxTailOps ≤ 0 ∨ maxTailBytes ≤ 0 then (.error (.durableStoreInvalid ""), d)
  else d.mutate P env (compactForBoundsWork P env identity entropy maxTailOps maxTailBytes stable)

end DurableReplica

end Atterm.ConfigSync
