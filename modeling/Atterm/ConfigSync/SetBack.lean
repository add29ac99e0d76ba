/-
**A wall clock that is set back.**

`Tick` keeps local timestamps monotone: when the wall clock reads less than what the clock has seen,
the old physical part stays and the logical part grows. The operation that is signed with that
timestamp is then handed to `Apply` like a received one, and `Observe` compares it with the wall
clock again.

* `Clock.keepsUp_iff` — the readings at which a clock lets in the timestamp it has just issued;
* `writes_follow_wall` — no valid write of a run is refused so exactly when each finds its clock
  within the skew bound of the wall clock;
* `set_back_blocks` — a wall clock that is set back by more than the bound blocks the next write.
-/

import Atterm.ConfigSync.ReplicaInvariant

namespace Atterm.ConfigSync

open Atterm.Foundation

/-- The call failed with `ErrClockSkew`. -/
def clockSkewed {α : Type} : Except SyncError α → Bool
  | .error (.clockSkew _ _ _) => true
  | _ => false

theorem clockSkewed_error {α β : Type} (error : SyncError) :
    clockSkewed (.error error : Except SyncError α) = clockSkewed (.error error : Except SyncError β) := by
  cases error <;> rfl

theorem clockSkewed_guard {α : Type} {check : Prop} [Decidable check] {error : SyncError}
    {rest : Except SyncError α} (other : clockSkewed (.error error : Except SyncError α) = false)
    (plain : clockSkewed rest = false) :
    clockSkewed (if check then .error error else rest) = false := by
  split_ifs
  · exact other
  · exact plain

theorem clockSkewed_bind {α β : Type} {first : Except SyncError α} {next : α → Except SyncError β}
    (plain : clockSkewed first = false) (later : ∀ value, clockSkewed (next value) = false) :
    clockSkewed (first >>= next) = false := by
  cases first with
  | error error => exact (clockSkewed_error error).trans plain
  | ok value => exact later value

/-! ### The clock and its own timestamp -/

namespace Clock

/-- Neither the first reading nor what the clock has seen is ahead of the second reading by more than
the bound. Where the first reading is not ahead of the clock, the issued timestamp is one logical step
above what it has seen. -/
def KeepsUp (c : Clock) (walls : Walls) : Prop :=
  walls.tick ≤ walls.apply + c.maxFutureSkew ∧
    (walls.tick ≤ c.last.physicalMS →
      (incrementLogical c.last).physicalMS ≤ walls.apply + c.maxFutureSkew)

instance (c : Clock) (walls : Walls) : Decidable (c.KeepsUp walls) :=
  inferInstanceAs (Decidable (_ ∧ _))

theorem physicalMS_le_incrementLogical (ts : Timestamp) :
    ts.physicalMS ≤ (incrementLogical ts).physicalMS :=
  Timestamp.physicalMS_le_of_le (lt_incrementLogical ts).le

/-- **The readings at which a clock lets in the timestamp it has just issued.** -/
theorem keepsUp_iff (c : Clock) (walls : Walls) :
    c.KeepsUp walls ↔ (c.tick walls.tick).1.physicalMS ≤ walls.apply + c.maxFutureSkew := by
  have grows := physicalMS_le_incrementLogical c.last
  unfold KeepsUp tick
  by_cases ahead : walls.tick > c.last.physicalMS
  · simp [ahead]
  · have behind : walls.tick ≤ c.last.physicalMS := not_lt.mp ahead
    simp only [ahead, if_false, behind, true_imp_iff, and_iff_right_iff_imp]
    intro within
    exact behind.trans (grows.trans within)

end Clock

/-! ### One local write -/

namespace Replica

/-- The replica has all counters of the actor up to the greatest. -/
def GapFree (r : Replica) (actor : String) : Prop := r.vector.get actor = r.maxCounters.get actor

def nextCounter (r : Replica) (actor : String) : Nat :=
  (r.maxCounters.get actor + 1) % counterModulus

/-- `Append` or `AppendEncrypted` on a replica. -/
structure LocalWrite where
  walls : Walls
  identity : Identity
  /-- The operation that is signed, by the timestamp it is given. -/
  sign : Timestamp → Except SyncError OpToken
  result : Except SyncError VerifiedOp

def localWrite (P : Primitives) (r : Replica) : ReplicaEvent → Option LocalWrite
  | .append walls identity entropy mutation =>
    some ⟨walls, identity,
      fun hlc => P.signOp identity entropy r.spaceID (r.nextCounter (P.peerID identity.publicKey))
        hlc r.vector.clone (r.withSchema mutation),
      (r.append P walls identity entropy mutation).1⟩
  | .appendEncrypted walls identity entropy key mutation =>
    some ⟨walls, identity,
      fun hlc => P.signEncryptedOp identity entropy r.spaceID
        (r.nextCounter (P.peerID identity.publicKey)) hlc r.vector.clone key (r.withSchema mutation),
      (r.appendEncrypted P walls identity entropy key mutation).1⟩
  | _ => none

/-- The identity signs the mutation with the timestamp of the clock, and the token is accepted. -/
def LocalWrite.Valid (P : Primitives) (r : Replica) (write : LocalWrite) : Prop :=
  ∃ token op, write.sign (r.clock.tick write.walls.tick).1 = .ok token ∧ P.verifyOp token = .ok op

end Replica

/-! ### The other errors of a write -/

namespace Primitives

variable (P : Primitives)

theorem validateOp_not_skewed (doc : SyncOp) (publicKey : Bytes) :
    clockSkewed (P.validateOp doc publicKey) = false := by
  unfold validateOp
  iterate 11 refine clockSkewed_guard rfl ?_
  rfl

theorem verifyOp_not_skewed (token : OpToken) : clockSkewed (P.verifyOp token) = false := by
  refine clockSkewed_guard rfl ?_
  cases token with
  | malformed what => rfl
  | signed doc signature =>
    exact clockSkewed_guard rfl (clockSkewed_bind (P.validateOp_not_skewed _ _)
      fun _ => clockSkewed_guard rfl rfl)

theorem signOp_not_skewed (identity : Identity) (entropy : Entropy) (spaceID : String)
    (counter : Nat) (hlc : Timestamp) (causal : VersionVector) (mutation : Mutation) :
    clockSkewed (P.signOp identity entropy spaceID counter hlc causal mutation) = false := by
  refine clockSkewed_bind (P.validateOp_not_skewed _ _) fun _ => ?_
  split <;> rfl

theorem sealConfigPayload_not_skewed (key : EpochKey) (entropy : Entropy) (context : PayloadContext)
    (plaintext : Bytes) :
    clockSkewed (P.sealConfigPayload key entropy context plaintext) = false := by
  refine clockSkewed_guard rfl ?_
  split
  · rfl
  · exact clockSkewed_guard rfl rfl

theorem signEncryptedOp_not_skewed (identity : Identity) (entropy : Entropy) (spaceID : String)
    (counter : Nat) (hlc : Timestamp) (causal : VersionVector) (key : EpochKey)
    (mutation : Mutation) :
    clockSkewed (P.signEncryptedOp identity entropy spaceID counter hlc causal key mutation)
      = false := by
  refine clockSkewed_guard rfl ?_
  simp only
  split
  · exact P.signOp_not_skewed ..
  · exact clockSkewed_bind (P.sealConfigPayload_not_skewed ..) fun _ => P.signOp_not_skewed ..

end Primitives

/-! ### When a write is refused for its timestamp -/

namespace Replica

variable {P : Primitives} {r : Replica} {base : Option VerifiedSnapshot}

theorem Invariant.unknown_next (invariant : r.Invariant P base) {actor : String}
    (gapFree : r.GapFree actor) : ¬ r.Knows actor (r.vector.get actor + 1) := by
  rw [gapFree]
  rintro (compacted | held)
  · have bound := (invariant.greatest actor).2 (Or.inl rfl)
    omega
  · have bound := (invariant.greatest actor).2 (Or.inr held)
    omega

theorem apply_skewed_iff (invariant : r.Invariant P base) (wall : Int) {token : OpToken}
    {op : VerifiedOp} (verified : P.verifyOp token = .ok op)
    (space : op.document.spaceID = r.spaceID)
    (unknown : ¬ r.Knows op.document.actorDeviceID op.document.counter) :
    clockSkewed (r.apply P wall token).1 = true ↔
      ¬ op.document.hlc.physicalMS ≤ wall + r.clock.maxFutureSkew := by
  have valid := (P.genuine_of_verify verified).1.valid
  obtain ⟨uncompacted, absent⟩ := (invariant.unknown_iff valid).mpr unknown
  have new := (recognize_ok_none_iff op).mpr ⟨space, uncompacted, absent⟩
  unfold apply
  rw [verified]
  simp only [new]
  unfold Clock.observe
  rw [if_neg (not_le.mpr valid.hlc)]
  by_cases ahead : op.document.hlc.physicalMS > wall + r.clock.maxFutureSkew
  · simp [ahead, clockSkewed]
  · simp [ahead, not_lt.mp ahead, clockSkewed]

theorem applySigned_skewed_eq {walls : Walls} {sign : Timestamp → Except SyncError OpToken}
    {token : OpToken} (signed : sign (r.clock.tick walls.tick).1 = .ok token) :
    clockSkewed (r.applySigned P walls sign).1
      = clockSkewed ((r.ticked walls.tick).apply P walls.apply token).1 := by
  unfold applySigned ticked
  simp only [signed]
  cases applied : apply P { r with clock := (r.clock.tick walls.tick).2 } walls.apply token with
  | mk result after =>
    cases result with
    | error error => exact clockSkewed_error error
    | ok result => exact P.verifyOp_not_skewed token

/-- **A local write is refused for its timestamp** exactly when it is valid and the clock does not keep
up with the wall clock. -/
theorem applySigned_skewed_iff (invariant : r.Invariant P base) {walls : Walls}
    {identity : Identity} {sign : Timestamp → Except SyncError OpToken}
    (gapFree : r.GapFree (P.peerID identity.publicKey))
    (plain : clockSkewed (sign (r.clock.tick walls.tick).1) = false)
    (writes : ∀ token op, sign (r.clock.tick walls.tick).1 = .ok token →
      P.verifyOp token = .ok op → Written P r walls identity op ∧ op.document.spaceID = r.spaceID) :
    clockSkewed (r.applySigned P walls sign).1 = true ↔
      (∃ token op, sign (r.clock.tick walls.tick).1 = .ok token ∧ P.verifyOp token = .ok op) ∧
        ¬ r.clock.KeepsUp walls := by
  cases signed : sign (r.clock.tick walls.tick).1 with
  | error error =>
    rw [signed] at plain
    refine iff_of_false ?_ (by simp)
    unfold applySigned
    simp only [signed]
    rw [clockSkewed_error error, plain]
    exact Bool.false_ne_true
  | ok token =>
    rw [applySigned_skewed_eq signed]
    cases verified : P.verifyOp token with
    | error error =>
      have refused := P.verifyOp_not_skewed token
      have failed : (r.ticked walls.tick).apply P walls.apply token
          = (.error error, r.ticked walls.tick) := by
        unfold apply
        rw [verified]
      rw [verified] at refused
      rw [failed, clockSkewed_error error, refused]
      simp [verified]
    | ok op =>
      obtain ⟨written, space⟩ := writes token op signed verified
      have unknown := invariant.unknown_next gapFree
      rw [← written.actor, ← written.counter] at unknown
      have skewed := apply_skewed_iff (invariant.withClock (r.clock.tick walls.tick).2) walls.apply
        verified space unknown
      rw [written.hlc, Clock.tick_maxFutureSkew, ← Clock.keepsUp_iff] at skewed
      exact skewed.trans (and_iff_right ⟨token, op, rfl, verified⟩).symm

theorem counter_continues {identity : Identity} {entropy : Entropy} {hlc : Timestamp}
    {mutation : Mutation} {token : OpToken}
    (signed : P.signOp identity entropy r.spaceID (r.nextCounter (P.peerID identity.publicKey)) hlc
      r.vector.clone mutation = .ok token) :
    r.vector.clone.get (P.peerID identity.publicKey) =
      (r.nextCounter (P.peerID identity.publicKey) + counterModulus - 1) % counterModulus := by
  obtain ⟨doc, signature, rfl, valid, -, actor, counter, -, context⟩ := P.signOp_ok signed
  have previous := valid.previous
  have positive := valid.counter
  have small : r.nextCounter (P.peerID identity.publicKey) < counterModulus :=
    Nat.mod_lt _ (by decide)
  rw [VersionVector.clone_clone] at context
  rw [context, actor, counter] at previous
  rw [counter] at positive
  unfold counterModulus at small ⊢
  omega

theorem space_of_signOp {identity : Identity} {entropy : Entropy} {counter : Nat} {hlc : Timestamp}
    {causal : VersionVector} {mutation : Mutation} {token : OpToken} {op : VerifiedOp}
    (signed : P.signOp identity entropy r.spaceID counter hlc causal mutation = .ok token)
    (verified : P.verifyOp token = .ok op) : op.document.spaceID = r.spaceID := by
  obtain ⟨doc, signature, rfl, -, space, -⟩ := P.signOp_ok signed
  obtain ⟨read, mark, same, -, rfl⟩ := P.verifyOp_ok verified
  cases same
  exact space

/-- **Which local writes are refused for their timestamp.** -/
theorem localWrite_skewed_iff (invariant : r.Invariant P base) {event : ReplicaEvent}
    {write : LocalWrite} (made : r.localWrite P event = some write)
    (gapFree : r.GapFree (P.peerID write.identity.publicKey)) :
    clockSkewed write.result = true ↔ write.Valid P r ∧ ¬ r.clock.KeepsUp write.walls := by
  cases event with
  | append walls identity entropy mutation =>
    cases made
    unfold append appendAtCounter
    simp only
    split_ifs with refused
    · refine iff_of_false (by simp [clockSkewed]) ?_
      rintro ⟨⟨token, op, signed, -⟩, -⟩
      exact refused.elim (fun other => other rfl) fun gap => gap (counter_continues signed)
    · exact applySigned_skewed_iff invariant gapFree (P.signOp_not_skewed ..)
        fun token op signed verified =>
          ⟨written_of_signOp signed verified, space_of_signOp signed verified⟩
  | appendEncrypted walls identity entropy key mutation =>
    cases made
    unfold appendEncrypted
    simp only
    split_ifs with refused
    · refine iff_of_false (by simp [clockSkewed]) ?_
      rintro ⟨⟨token, op, signed, -⟩, -⟩
      obtain ⟨payload, created⟩ := P.signEncryptedOp_ok signed
      exact refused (counter_continues created)
    · refine applySigned_skewed_iff invariant gapFree (P.signEncryptedOp_not_skewed ..) ?_
      intro token op signed verified
      obtain ⟨payload, created⟩ := P.signEncryptedOp_ok signed
      exact ⟨written_of_signOp created verified, space_of_signOp created verified⟩
  | apply | appendAtCounter | signSnapshot | installSnapshot | useClock => cases made

end Replica

/-! ### Every run -/

namespace Tracked

/-- If the event is a local write of an actor without a gap, it is not refused for its timestamp. -/
def Unblocked (P : Primitives) (s : Tracked) (event : ReplicaEvent) : Prop :=
  ∀ write, s.replica.localWrite P event = some write →
    s.replica.GapFree (P.peerID write.identity.publicKey) → clockSkewed write.result = false

/-- If the event is a valid local write of an actor without a gap, the clock keeps up with the wall
clock. -/
def InTime (P : Primitives) (s : Tracked) (event : ReplicaEvent) : Prop :=
  ∀ write, s.replica.localWrite P event = some write →
    s.replica.GapFree (P.peerID write.identity.publicKey) → write.Valid P s.replica →
      s.replica.clock.KeepsUp write.walls

theorem unblocked_iff_inTime {P : Primitives} {s : Tracked}
    (invariant : s.replica.Invariant P s.base) (event : ReplicaEvent) :
    Unblocked P s event ↔ InTime P s event := by
  refine forall_congr' fun write => forall_congr' fun made => forall_congr' fun gapFree => ?_
  rw [← Bool.not_eq_true, Replica.localWrite_skewed_iff invariant made gapFree]
  tauto

theorem unblocked_append_iff {P : Primitives} {s : Tracked} {walls : Walls} {identity : Identity}
    {entropy : Entropy} {mutation : Mutation} :
    Unblocked P s (.append walls identity entropy mutation) ↔
      (s.replica.GapFree (P.peerID identity.publicKey) →
        clockSkewed (s.replica.append P walls identity entropy mutation).1 = false) := by
  constructor
  · intro unblocked
    exact unblocked _ rfl
  · intro unblocked write made gapFree
    cases made
    exact unblocked gapFree

/-- **No local write of a run is refused for its timestamp exactly when each valid one finds its clock
within the skew bound of the wall clock.** -/
theorem writes_follow_wall {P : Primitives} {spaceID : String} {schema : Nat} {clock : Clock}
    {fresh : Replica} (created : newReplica P spaceID schema clock = .ok fresh)
    (events : List ReplicaEvent) :
    Meets (step P) (Unblocked P) ⟨fresh, none⟩ events ↔
      Meets (step P) (InTime P) ⟨fresh, none⟩ events := by
  obtain ⟨-, same⟩ := guard_ok created
  cases same
  exact meets_congr (fun s : Tracked => s.replica.Invariant P s.base)
    (fun s event invariant _ => invariant_step s event invariant)
    (fun s event invariant => unblocked_iff_inTime invariant event)
    (Replica.invariant_empty P spaceID schema clock) events

/-- A write to the collection `hosts`. -/
def hostWrite (wall : Int) : ReplicaEvent :=
  .append ⟨wall, wall⟩ (.plain 1) ⟨[], [], ""⟩ ⟨0, "hosts", "h", .set, .sync, 1, [7]⟩

theorem ten_seconds_unblocked : Meets (step .plain) (Unblocked .plain)
    ⟨.empty "space" 1 (Clock.new 300000), none⟩ [hostWrite 400000, hostWrite 390000] := by
  have created : newReplica .plain "space" 1 (Clock.new 300000) =
    .ok (.empty "space" 1 (Clock.new 300000)) := rfl
  refine (writes_follow_wall created _).mpr ⟨?_, ?_, trivial⟩
  · intro write made _ _
    cases made
    decide
  · intro write made _ _
    cases made
    decide

/-- **A wall clock that is set back by more than the bound blocks the next write**, in the clear or
sealed, which would go through before. -/
theorem set_back_blocks :
    let start : Tracked := ⟨.empty "space" 1 (Clock.new 300000), none⟩
    let r := (run (step .plain) start [hostWrite 400000]).replica
    let mutation : Mutation := ⟨0, "hosts", "h", .set, .sync, 1, [7]⟩
    r.GapFree (Primitives.plain.peerID (Identity.plain 1).publicKey) ∧
      (r.append .plain ⟨400000, 400000⟩ (.plain 1) ⟨[], [], ""⟩ mutation).1.toBool = true ∧
      (r.append .plain ⟨1, 1⟩ (.plain 1) ⟨[], [], ""⟩ mutation).1
        = .error (.clockSkew 400000 1 300000) ∧
      (r.appendEncrypted .plain ⟨1, 1⟩ (.plain 1) ⟨[], [], ""⟩ ⟨.sync, 1, [], true⟩ mutation).1
        = .error (.clockSkew 400000 1 300000) ∧
      ¬ Meets (step .plain) (Unblocked .plain) start [hostWrite 400000, hostWrite 1] := by
  intro start r mutation
  have gapFree : r.GapFree (Primitives.plain.peerID (Identity.plain 1).publicKey) := by
    unfold Replica.GapFree
    decide
  have evaluated :
      (r.append .plain ⟨400000, 400000⟩ (.plain 1) ⟨[], [], ""⟩ mutation).1.toBool = true ∧
        (r.append .plain ⟨1, 1⟩ (.plain 1) ⟨[], [], ""⟩ mutation).1
          = .error (.clockSkew 400000 1 300000) ∧
        (r.appendEncrypted .plain ⟨1, 1⟩ (.plain 1) ⟨[], [], ""⟩ ⟨.sync, 1, [], true⟩ mutation).1
          = .error (.clockSkew 400000 1 300000) := by
    decide +kernel
  refine ⟨gapFree, evaluated.1, evaluated.2.1, evaluated.2.2, fun unblocked => ?_⟩
  have skewed : clockSkewed (r.append .plain ⟨1, 1⟩ (.plain 1) ⟨[], [], ""⟩ mutation).1 = true :=
    congrArg clockSkewed evaluated.2.1
  have passes := unblocked_append_iff.mp unblocked.2.1 gapFree
  exact Bool.false_ne_true (passes.symm.trans skewed)

end Tracked

end Atterm.ConfigSync
