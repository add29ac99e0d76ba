/-
**Who wins a record.**

Two operations of one kind are ordered by time, device and identifier. A set wins against a delete
it has seen, and loses against any other. The relation has cycles: a set that has seen a delete wins
against it, the delete wins against a concurrent set, and this one may win against the first by time.

* `wins_of_rank_lt`, `delete_wins`, `set_wins` — who wins in a causal history;
* `exists_champion` — a settled record has a winner that no order of delivery can change.
-/

import Atterm.Foundation.CausalHistory
import Atterm.Foundation.Champion
import Atterm.ConfigSync.ReplicaInvariant

namespace Atterm.ConfigSync

open Std (ExtTreeMap)
open Atterm.Foundation

/-- What a history of operations reads of them. -/
def stamping : Stamping VerifiedOp String Timestamp where
  actor op := op.document.actorDeviceID
  counter op := op.document.counter
  context op := op.document.causalContext.get
  time op := op.document.hlc

/-- `operationWins` on verified operations. -/
def wins (candidate current : VerifiedOp) : Bool :=
  operationWins candidate.document current.document

/-- The order of two operations of one kind that have not seen each other. -/
def VerifiedOp.rank (op : VerifiedOp) : Timestamp ×ₗ String ×ₗ String :=
  toLex (op.document.hlc, toLex (op.document.actorDeviceID, op.document.opID))

theorem some_contest (current : Option VerifiedOp) (op : VerifiedOp) :
    some (Replica.contest current op) = challenge wins current op := by
  cases current with
  | none => rfl
  | some held =>
    rw [Replica.contest, challenge, wins]

theorem saw_iff (later earlier : VerifiedOp) :
    later.document.saw earlier.document = true ↔ stamping.Saw later earlier := by
  simp [SyncOp.saw, Stamping.Saw, stamping]

theorem rank_lt_iff (first second : VerifiedOp) :
    first.rank < second.rank ↔ first.document.hlc < second.document.hlc ∨
      first.document.hlc = second.document.hlc ∧
        (first.document.actorDeviceID < second.document.actorDeviceID ∨
          first.document.actorDeviceID = second.document.actorDeviceID ∧
            first.document.opID < second.document.opID) := by
  rw [VerifiedOp.rank, VerifiedOp.rank, Prod.Lex.toLex_lt_toLex, Prod.Lex.toLex_lt_toLex]

theorem ite_decide_lt_iff {α β : Type*} [LinearOrder α] [LinearOrder β] {first second : α}
    {left right : β} [Decidable (first ≠ second)] [Decidable (second < first)]
    [Decidable (right < left)] :
    (if first ≠ second then decide (second < first) else decide (right < left)) = true ↔
      second < first ∨ first = second ∧ right < left := by
  by_cases same : first = second
  · simp [same]
  · simp [same]

/-- **When an operation wins**: it alone has seen the other, or neither or both have and it is a
delete against a set, or of the same kind and of higher rank. -/
theorem wins_iff (candidate current : VerifiedOp) :
    wins candidate current = true ↔
      (stamping.Saw candidate current ∧ ¬ stamping.Saw current candidate) ∨
        ((stamping.Saw candidate current ↔ stamping.Saw current candidate) ∧
          ((candidate.document.kind = .delete ∧ current.document.kind = .set) ∨
            candidate.document.kind = current.document.kind ∧ current.rank < candidate.rank)) := by
  rw [← saw_iff, ← saw_iff, rank_lt_iff, eq_comm (a := current.document.hlc),
    eq_comm (a := current.document.actorDeviceID), ← compareTimestamp_eq_gt_iff,
    ← compareTimestamp_eq_eq_iff]
  have tie : (if candidate.document.actorDeviceID ≠ current.document.actorDeviceID then
      decide (candidate.document.actorDeviceID > current.document.actorDeviceID)
      else decide (candidate.document.opID > current.document.opID)) = true ↔ _ :=
    ite_decide_lt_iff
  rw [← tie]
  unfold wins operationWins
  generalize (if candidate.document.actorDeviceID ≠ current.document.actorDeviceID then
      decide (candidate.document.actorDeviceID > current.document.actorDeviceID)
      else decide (candidate.document.opID > current.document.opID)) = tied
  generalize candidate.document.saw current.document = forth
  generalize current.document.saw candidate.document = back
  generalize compareTimestamp candidate.document.hlc current.document.hlc = order
  -- what is left is a finite table
  cases forth <;> cases back <;> cases candidate.document.kind <;>
    cases current.document.kind <;> cases order <;> simp

theorem wins_asymm {first second : VerifiedOp} (won : wins first second = true) :
    wins second first = false := by
  rw [Bool.eq_false_iff]
  intro back
  rw [wins_iff] at won back
  rcases won with ⟨saw, unseen⟩ | ⟨even, rest⟩
  · rcases back with ⟨also, -⟩ | ⟨even, -⟩
    · exact unseen also
    · exact unseen (even.mpr saw)
  · rcases back with ⟨saw, unseen⟩ | ⟨-, other⟩
    · exact unseen (even.mpr saw)
    · rcases rest with ⟨deletes, sets⟩ | ⟨kind, above⟩
      · rcases other with ⟨wrong, -⟩ | ⟨same, -⟩
        · rw [wrong] at sets
          cases sets
        · rw [deletes, sets] at same
          cases same
      · rcases other with ⟨deletes, sets⟩ | ⟨-, below⟩
        · rw [deletes, sets] at kind
          cases kind
        · exact lt_asymm above below

/-! ### Causal histories -/

section Causal

variable {issued : Set VerifiedOp} {first second : VerifiedOp}

theorem not_saw_of_saw (causal : stamping.Causal issued) (member : first ∈ issued)
    (other : second ∈ issued) (saw : stamping.Saw first second) : ¬ stamping.Saw second first :=
  fun back => lt_asymm (causal.ordered first member second other saw)
    (causal.ordered second other first member back)

theorem wins_of_rank_lt (causal : stamping.Causal issued) (member : first ∈ issued)
    (other : second ∈ issued) (kind : first.document.kind = second.document.kind)
    (above : second.rank < first.rank) : wins first second = true := by
  rw [wins_iff]
  by_cases saw : stamping.Saw first second
  · exact Or.inl ⟨saw, not_saw_of_saw causal member other saw⟩
  · -- the lower one has not seen the higher one either, or its time would be above
    have unseen : ¬ stamping.Saw second first := by
      intro back
      have earlier : first.document.hlc < second.document.hlc :=
        causal.ordered second other first member back
      exact lt_asymm above ((rank_lt_iff first second).mpr (Or.inl earlier))
    exact Or.inr ⟨iff_of_false saw unseen, Or.inr ⟨kind, above⟩⟩

theorem delete_wins (deletes : first.document.kind = .delete) (sets : second.document.kind = .set)
    (unseen : ¬ stamping.Saw second first) : wins first second = true := by
  rw [wins_iff]
  by_cases saw : stamping.Saw first second
  · exact Or.inl ⟨saw, unseen⟩
  · exact Or.inr ⟨iff_of_false saw unseen, Or.inl ⟨deletes, sets⟩⟩

theorem set_wins (causal : stamping.Causal issued) (member : first ∈ issued)
    (other : second ∈ issued) (saw : stamping.Saw first second) : wins first second = true :=
  (wins_iff _ _).mpr (Or.inl ⟨saw, not_saw_of_saw causal member other saw⟩)

end Causal

/-! ### Settled records -/

/-- The operation has the highest rank of its kind among the candidates. -/
def Latest (candidates : Set VerifiedOp) (kind : Kind) (op : VerifiedOp) : Prop :=
  op ∈ candidates ∧ op.document.kind = kind ∧
    ∀ other ∈ candidates, other.document.kind = kind → other.rank ≤ op.rank

/-- No set has seen the latest delete, or the latest set has seen every delete. -/
def Settled (candidates : Set VerifiedOp) : Prop :=
  (∀ last, Latest candidates .delete last → ∀ op ∈ candidates, op.document.kind = .set →
      op.document.saw last.document = false) ∨
    ∀ last, Latest candidates .set last → ∀ op ∈ candidates, op.document.kind = .delete →
      last.document.saw op.document = true

theorem exists_latest {candidates : Set VerifiedOp} (finite : candidates.Finite) {kind : Kind}
    {op : VerifiedOp} (member : op ∈ candidates) (same : op.document.kind = kind) :
    ∃ last, Latest candidates kind last := by
  obtain ⟨last, ⟨inside, kinds⟩, highest⟩ := Set.exists_max_image
    {op ∈ candidates | op.document.kind = kind} VerifiedOp.rank (finite.subset (Set.sep_subset _ _))
    ⟨op, member, same⟩
  exact ⟨last, inside, kinds, fun other known equal => highest other ⟨known, equal⟩⟩

theorem rank_lt_of_le_of_ne {P : Primitives} {issued : Set VerifiedOp} {first second : VerifiedOp}
    (causal : stamping.Causal issued) (genuine : ∀ op ∈ issued, P.Genuine op)
    (member : first ∈ issued) (other : second ∈ issued) (below : first.rank ≤ second.rank)
    (different : first ≠ second) : first.rank < second.rank := by
  refine lt_of_le_of_ne below fun same => different ?_
  have parts := congrArg (fun rank => (ofLex (ofLex rank).2).2) same
  have names : first.document.opID = second.document.opID := parts
  rw [(genuine first member).valid.opID, (genuine second other).valid.opID] at names
  obtain ⟨actor, counter⟩ := opIDFor_inj names
  exact causal.unique first member second other actor counter

/-- **A settled record has a winner that no order of delivery can change.** -/
theorem exists_champion {P : Primitives} {issued : Set VerifiedOp} {candidates : List VerifiedOp}
    (causal : stamping.Causal issued) (genuine : ∀ op ∈ issued, P.Genuine op)
    (known : ∀ op ∈ candidates, op ∈ issued) (occupied : candidates ≠ [])
    (settled : Settled {op | op ∈ candidates}) :
    ∃ champion, Champion wins candidates champion := by
  have finite : {op | op ∈ candidates}.Finite := List.finite_toSet candidates
  -- the latest of a kind wins against its own kind
  have ownKind : ∀ {kind last}, Latest {op | op ∈ candidates} kind last → ∀ other ∈ candidates,
      other.document.kind = kind → other ≠ last → wins last other = true := by
    rintro kind last ⟨member, same, highest⟩ other inside equal different
    exact wins_of_rank_lt causal (known _ member) (known _ inside) (same.trans equal.symm)
      (rank_lt_of_le_of_ne causal genuine (known _ inside) (known _ member)
        (highest other inside equal) different)
  have champion : ∀ {last}, last ∈ candidates →
      (∀ other ∈ candidates, other ≠ last → wins last other = true) →
      Champion wins candidates last := fun member beats =>
    ⟨member, fun other inside different =>
      ⟨beats other inside different, wins_asymm (beats other inside different)⟩⟩
  by_cases deleted : ∃ op ∈ candidates, op.document.kind = .delete
  · obtain ⟨delete, member, deletes⟩ := deleted
    obtain ⟨lastDelete, latestDelete⟩ := exists_latest finite member deletes
    by_cases written : ∃ op ∈ candidates, op.document.kind = .set
    · obtain ⟨set, inside, sets⟩ := written
      obtain ⟨lastSet, latestSet⟩ := exists_latest finite inside sets
      rcases settled with unseen | seen
      · refine ⟨lastDelete, champion latestDelete.1 fun other inside different => ?_⟩
        cases kind : other.document.kind with
        | delete => exact ownKind latestDelete other inside kind different
        | set =>
          refine delete_wins latestDelete.2.1 kind ?_
          rw [← saw_iff, unseen lastDelete latestDelete other inside kind]
          exact Bool.false_ne_true
      · refine ⟨lastSet, champion latestSet.1 fun other inside different => ?_⟩
        cases kind : other.document.kind with
        | set => exact ownKind latestSet other inside kind different
        | delete =>
          exact set_wins causal (known _ latestSet.1) (known _ inside)
            ((saw_iff _ _).mp (seen lastSet latestSet other inside kind))
    · refine ⟨lastDelete, champion latestDelete.1 fun other inside different => ?_⟩
      cases kind : other.document.kind with
      | delete => exact ownKind latestDelete other inside kind different
      | set => exact absurd ⟨other, inside, kind⟩ written
  · obtain ⟨op, member⟩ := List.exists_mem_of_ne_nil candidates occupied
    have sets : ∀ other ∈ candidates, other.document.kind = .set := by
      intro other inside
      cases kind : other.document.kind with
      | set => rfl
      | delete => exact absurd ⟨other, inside, kind⟩ deleted
    obtain ⟨lastSet, latestSet⟩ := exists_latest finite member (sets op member)
    exact ⟨lastSet, champion latestSet.1 fun other inside different =>
      ownKind latestSet other inside (sets other inside) different⟩

end Atterm.ConfigSync
