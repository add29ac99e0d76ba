/-
**Loading a durable file.**

Replaying a file is a pure function of its contents up to the clock. `load` is that function: the
snapshot under an empty replica, then the operations one by one, each of which has to be new.

* `load_invariant` — every loaded replica satisfies the representation invariant;
* `buildReplica_spec` — replaying fails and leaves the clock, or yields `load` and moves the clock up
  to the greatest timestamp of the file.
-/

import Atterm.ConfigSync.Durable
import Atterm.ConfigSync.Compaction

namespace Atterm.ConfigSync

open Std (ExtTreeMap)
open Atterm.Foundation

/-! ### Loading a file -/

def Replica.unclocked (r : Replica) : Replica := { r with clock := ⟨0, ⟨0, 0⟩⟩ }

theorem Replica.store_unclocked (r : Replica) (op : VerifiedOp) :
    (r.unclocked.store op).2 = (r.store op).2.unclocked := by
  rw [Replica.store_eq, Replica.store_eq]
  rfl

def loadSnapshot (P : Primitives) (spaceID : String) (schema : Nat) :
    Option SnapshotToken → Option Replica
  | none => some (Replica.empty spaceID schema ⟨0, ⟨0, 0⟩⟩)
  | some token =>
    match P.verifySnapshot token with
    | .error _ => none
    | .ok verified =>
      if verified.document.spaceID = spaceID ∧ verified.document.schemaVersion = schema then
        some ((Replica.empty spaceID schema ⟨0, ⟨0, 0⟩⟩).install verified)
      else none

/-- Store a list of operations, each of which has to be new. -/
def loadOps (P : Primitives) : Replica → List OpToken → Option Replica
  | r, [] => some r
  | r, token :: rest =>
    match P.verifyOp token with
    | .error _ => none
    | .ok op =>
      if r.recognize op = .ok none then loadOps P (r.store op).2 rest else none

/-- The replica a file loads, without a clock. -/
def load (P : Primitives) (spaceID : String) (schema : Nat) (state : DurableState) :
    Option Replica :=
  (loadSnapshot P spaceID schema state.snapshot).bind fun base => loadOps P base state.ops

def snapshotHLC (P : Primitives) : Option SnapshotToken → Timestamp
  | none => ⟨0, 0⟩
  | some token =>
    match P.verifySnapshot token with
    | .error _ => ⟨0, 0⟩
    | .ok verified => verified.document.createdHLC

def latestHLC (P : Primitives) : Timestamp → List OpToken → Timestamp
  | hlc, [] => hlc
  | hlc, token :: rest =>
    match P.verifyOp token with
    | .error _ => latestHLC P hlc rest
    | .ok op => latestHLC P (max hlc op.document.hlc) rest

def fileHLC (P : Primitives) (state : DurableState) : Timestamp :=
  latestHLC P (snapshotHLC P state.snapshot) state.ops

section Load

variable {P : Primitives} {spaceID : String} {schema : Nat}

theorem loadOps_append (r : Replica) (first second : List OpToken) :
    loadOps P r (first ++ second) = (loadOps P r first).bind fun s => loadOps P s second := by
  induction first generalizing r with
  | nil => rfl
  | cons token rest ih =>
    rw [List.cons_append, loadOps, loadOps]
    split
    · rfl
    · split_ifs
      · exact ih _
      · rfl

theorem latestHLC_append (hlc : Timestamp) (first second : List OpToken) :
    latestHLC P hlc (first ++ second) = latestHLC P (latestHLC P hlc first) second := by
  induction first generalizing hlc with
  | nil => rfl
  | cons token rest ih =>
    rw [List.cons_append, latestHLC, latestHLC]
    split <;> exact ih _

theorem loadOps_invariant {r loaded : Replica} {base : Option VerifiedSnapshot}
    {tokens : List OpToken} (invariant : r.Invariant P base)
    (success : loadOps P r tokens = some loaded) : loaded.Invariant P base := by
  induction tokens generalizing r with
  | nil =>
    cases success
    exact invariant
  | cons token rest ih =>
    rw [loadOps] at success
    split at success
    · cases success
    · rename_i op verified
      split_ifs at success with unknown
      obtain ⟨space, uncompacted, absent⟩ := (Replica.recognize_ok_none_iff op).mp unknown
      exact ih (invariant.store (P.genuine_of_verify verified).1 space uncompacted absent) success

def baseOf (P : Primitives) (state : DurableState) : Option VerifiedSnapshot :=
  state.snapshot.bind fun token => (P.verifySnapshot token).toOption

theorem loadSnapshot_invariant {r : Replica} {snapshot : Option SnapshotToken}
    (success : loadSnapshot P spaceID schema snapshot = some r) :
    r.Invariant P (snapshot.bind fun token => (P.verifySnapshot token).toOption) ∧
      r.spaceID = spaceID ∧ r.supportedSchemaVersion = schema := by
  cases snapshot with
  | none =>
    cases success
    exact ⟨Replica.invariant_empty P spaceID schema _, rfl, rfl⟩
  | some token =>
    rw [loadSnapshot] at success
    split at success
    · cases success
    · rename_i verified read
      split_ifs at success with matching
      cases success
      have positive := (Primitives.verifySnapshot_ok read).2.2.created
      rw [Option.bind_some, read]
      -- a wall reading that the empty clock accepts
      have accepted : (Replica.empty spaceID schema ⟨0, ⟨0, 0⟩⟩).clock.Accepts
          verified.document.createdHLC.physicalMS verified.document.createdHLC := by
        refine ⟨positive, ?_⟩
        simp [Replica.empty]
      exact ⟨(Replica.invariant_empty P spaceID schema _).install
        ⟨read, matching.1, matching.2, rfl, rfl, rfl, rfl, accepted⟩, rfl, rfl⟩

/-- **Every loaded replica satisfies the representation invariant.** -/
theorem load_invariant {state : DurableState} {r : Replica}
    (success : load P spaceID schema state = some r) :
    r.Invariant P (baseOf P state) := by
  obtain ⟨base, found, rest⟩ := Option.bind_eq_some_iff.mp success
  exact loadOps_invariant (loadSnapshot_invariant found).1 rest

theorem loadOps_header {r loaded : Replica} {tokens : List OpToken}
    (success : loadOps P r tokens = some loaded) :
    loaded.spaceID = r.spaceID ∧ loaded.supportedSchemaVersion = r.supportedSchemaVersion ∧
      loaded.compactedVector = r.compactedVector ∧ loaded.clock = r.clock := by
  induction tokens generalizing r with
  | nil =>
    cases success
    exact ⟨rfl, rfl, rfl, rfl⟩
  | cons token rest ih =>
    rw [loadOps] at success
    split at success
    · cases success
    · split_ifs at success
      simpa using ih success

theorem load_header {state : DurableState} {r : Replica}
    (success : load P spaceID schema state = some r) :
    r.spaceID = spaceID ∧ r.supportedSchemaVersion = schema := by
  obtain ⟨base, found, rest⟩ := Option.bind_eq_some_iff.mp success
  obtain ⟨-, space, version⟩ := loadSnapshot_invariant found
  obtain ⟨sameSpace, sameSchema, -⟩ := loadOps_header rest
  exact ⟨sameSpace.trans space, sameSchema.trans version⟩

theorem loadOps_stores_iff {r loaded : Replica} {tokens : List OpToken}
    (success : loadOps P r tokens = some loaded) (op : VerifiedOp) :
    loaded.Stores op ↔ r.Stores op ∨ (op.token ∈ tokens ∧ P.Genuine op) := by
  induction tokens generalizing r with
  | nil =>
    cases success
    simp
  | cons token rest ih =>
    rw [loadOps] at success
    split at success
    · cases success
    · rename_i read verified
      split_ifs at success with unknown
      obtain ⟨-, -, absent⟩ := (Replica.recognize_ok_none_iff read).mp unknown
      obtain ⟨genuine, same⟩ := P.genuine_of_verify verified
      rw [ih success]
      rw [Replica.stores_store_iff absent, or_comm (a := op = read), List.mem_cons, or_assoc]
      refine or_congr Iff.rfl ?_
      constructor
      · rintro (rfl | ⟨member, real⟩)
        · exact ⟨Or.inl same, genuine⟩
        · exact ⟨Or.inr member, real⟩
      · rintro ⟨head | member, real⟩
        · exact Or.inl (real.token_inj genuine (head.trans same.symm))
        · exact Or.inr ⟨member, real⟩

/-- **A loaded replica stores exactly the operations listed in the file.** -/
theorem load_stores_iff {state : DurableState} {r : Replica}
    (success : load P spaceID schema state = some r) (op : VerifiedOp) :
    r.Stores op ↔ op.token ∈ state.ops ∧ P.Genuine op := by
  obtain ⟨base, found, rest⟩ := Option.bind_eq_some_iff.mp success
  rw [loadOps_stores_iff rest]
  have bare : ¬ base.Stores op := by
    have none : base.ops = ∅ := by
      unfold loadSnapshot at found
      split at found
      · cases found
        rfl
      · split at found
        · cases found
        · split_ifs at found
          cases found
          rfl
    rw [Replica.Stores, none]
    simp
  simp [bare]

/-! ### Replaying -/

theorem later_eq_max (first second : Timestamp) :
    (if compareTimestamp second first = .gt then second else first) = max first second := by
  split_ifs with above
  · exact (max_eq_right ((compareTimestamp_eq_gt_iff _ _).mp above).le).symm
  · rw [compareTimestamp_eq_gt_iff] at above
    exact (max_eq_left (not_lt.mp above)).symm

theorem stored_unclocked (r : Replica) (wall : Int) (op : VerifiedOp) :
    (r.stored wall op).unclocked = (r.unclocked.store op).2 := by
  rw [Replica.store_unclocked, Replica.stored, ← Replica.store_unclocked,
    ← Replica.store_unclocked]
  rfl

theorem replayOps_ok {replay : Nat → Int} {index : Nat} {tokens : List OpToken}
    {r replayed : Replica} {hlc latest : Timestamp}
    (success : replayOps P replay index tokens r hlc = .ok (replayed, latest)) :
    loadOps P r.unclocked tokens = some replayed.unclocked ∧ latest = latestHLC P hlc tokens := by
  induction tokens generalizing index r hlc with
  | nil =>
    cases success
    exact ⟨rfl, rfl⟩
  | cons token rest ih =>
    rw [replayOps] at success
    obtain ⟨op, verified, success⟩ := bind_ok success
    simp only at success
    rcases Replica.apply_cases P r (replay index) token with
      ⟨error, same⟩ | ⟨known, result, -, -, -, unstored, same⟩ | ⟨known, fresh, same⟩
    · rw [same] at success
      cases success
    · rw [same] at success
      simp only [unstored, if_true] at success
      cases success
    · rw [same] at success
      simp only [Replica.store_stored, Bool.true_eq_false, if_false] at success
      have agree := fresh.verified
      rw [verified] at agree
      cases agree
      obtain ⟨loaded, time⟩ := ih success
      rw [stored_unclocked] at loaded
      rw [later_eq_max] at time
      have unknown : r.unclocked.recognize op = .ok none :=
        (Replica.recognize_ok_none_iff op).mpr ⟨fresh.space, fresh.uncompacted, fresh.absent⟩
      refine ⟨?_, ?_⟩
      · rw [loadOps, verified]
        simp only [unknown, if_true]
        exact loaded
      · rw [latestHLC, verified]
        exact time

theorem replayBase_ok {replay : Nat → Int} {clock : Clock} {snapshot : Option SnapshotToken}
    {base : Replica} {hlc : Timestamp}
    (success : replayBase P (Replica.empty spaceID schema clock) replay snapshot =
      .ok (base, hlc)) :
    loadSnapshot P spaceID schema snapshot = some base.unclocked ∧
      hlc = snapshotHLC P snapshot := by
  cases snapshot with
  | none =>
    cases success
    exact ⟨rfl, rfl⟩
  | some token =>
    rw [replayBase] at success
    obtain ⟨verified, read, success⟩ := bind_ok success
    rcases (Replica.empty spaceID schema clock).installSnapshot_cases P (replay 0) token with
      ⟨error, same⟩ | ⟨snapshot, installable, same⟩
    · rw [same] at success
      cases success
    · rw [same] at success
      cases success
      have agree := installable.read
      rw [read] at agree
      cases agree
      refine ⟨?_, ?_⟩
      · rw [loadSnapshot, read]
        simp only
        rw [if_pos ⟨installable.space, installable.schema⟩]
        rfl
      · rw [snapshotHLC, read]

def restored (P : Primitives) (clock : Clock) (state : DurableState) : Clock :=
  if 0 < (fileHLC P state).physicalMS then (clock.restore (fileHLC P state)).2 else clock

/-- **What replaying a file does**: fail and leave the clock, or load the file and restore the
clock. -/
theorem buildReplica_spec (P : Primitives) (spaceID : String) (schema : Nat) (clock : Clock)
    (replay : Nat → Int) (state : DurableState) :
    (∃ error, buildReplica P spaceID schema clock replay state = (.error error, clock)) ∨
      ∃ r, buildReplica P spaceID schema clock replay state = (.ok r, r.clock) ∧
        load P spaceID schema state = some r.unclocked ∧ r.clock = restored P clock state := by
  unfold buildReplica
  simp only
  split
  · exact Or.inl ⟨_, rfl⟩
  · rename_i replayed latest success
    obtain ⟨empty, created, success⟩ := bind_ok success
    obtain ⟨⟨base, hlc⟩, based, success⟩ := bind_ok success
    obtain ⟨-, same⟩ := guard_ok created
    cases same
    obtain ⟨found, rfl⟩ := replayBase_ok based
    obtain ⟨loaded, rfl⟩ := replayOps_ok success
    have whole : load P spaceID schema state = some replayed.unclocked := by
      rw [load, found]
      exact loaded
    split_ifs with positive
    · have succeeds := clock.restore_ok positive
      split
      · rename_i error moved failed
        rw [failed] at succeeds
        cases succeeds
      · rename_i value moved done
        refine Or.inr ⟨_, rfl, whole, ?_⟩
        rw [restored, fileHLC, if_pos positive, done]
    · refine Or.inr ⟨_, rfl, whole, ?_⟩
      rw [restored, fileHLC, if_neg positive]

end Load

end Atterm.ConfigSync
