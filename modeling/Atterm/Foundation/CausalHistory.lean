/-
**Histories of stamped events.**

Each event carries its actor, a counter of that actor, the counters its actor had seen of everyone
and a time. A history is causal when the time respects what each event had seen. An observer knows
some of the events and keeps a time that is not below theirs; an event that an observer adds above
that time, with its own knowledge as context, keeps the history causal.

* `Causal.insert` — adding such an event keeps the history causal;
* `Observed.insert`, `Observed.learn` — what other observers keep, and what learning an event needs.
-/

import Mathlib

namespace Atterm.Foundation

/-- What a history reads of its events. -/
structure Stamping (α Actor Time : Type*) where
  actor : α → Actor
  counter : α → ℕ
  context : α → Actor → ℕ
  time : α → Time

namespace Stamping

variable {α Actor Time : Type*} [Preorder Time] (S : Stamping α Actor Time)

/-- The event `later` was added by someone who had seen `earlier`. -/
def Saw (later earlier : α) : Prop := S.counter earlier ≤ S.context later (S.actor earlier)

/-- The history has the event of this actor and counter. -/
def Names (issued : Set α) (actor : Actor) (counter : ℕ) : Prop :=
  ∃ event ∈ issued, S.actor event = actor ∧ S.counter event = counter

/-- The times of a history respect what its events had seen. -/
structure Causal (issued : Set α) : Prop where
  positive : ∀ event ∈ issued, 0 < S.counter event
  unique : ∀ event ∈ issued, ∀ other ∈ issued, S.actor event = S.actor other →
    S.counter event = S.counter other → event = other
  grounded : ∀ event ∈ issued, ∀ actor counter, 0 < counter → counter ≤ S.context event actor →
    S.Names issued actor counter
  ordered : ∀ later ∈ issued, ∀ earlier ∈ issued, S.Saw later earlier →
    S.time earlier < S.time later

/-- An observer that knows some counters and has reached the times of their events. -/
structure Observed (issued : Set α) (knows : Actor → ℕ → Prop) (now : Time) : Prop where
  grounded : ∀ actor counter, 0 < counter → knows actor counter → S.Names issued actor counter
  timed : ∀ event ∈ issued, knows (S.actor event) (S.counter event) → S.time event ≤ now

variable {S} {issued : Set α} {knows : Actor → ℕ → Prop} {now : Time} {event : α}

theorem causal_empty : S.Causal ∅ :=
  ⟨fun _ member => absurd member (Set.notMem_empty _),
    fun _ member => absurd member (Set.notMem_empty _),
    fun _ member => absurd member (Set.notMem_empty _),
    fun _ member => absurd member (Set.notMem_empty _)⟩

theorem Names.mono {larger : Set α} {actor : Actor} {counter : ℕ} (subset : issued ⊆ larger)
    (names : S.Names issued actor counter) : S.Names larger actor counter := by
  obtain ⟨event, member, same⟩ := names
  exact ⟨event, subset member, same⟩

/-- **An observer that adds an event above its own time, with its knowledge as context, keeps the
history causal.** -/
theorem Causal.insert (causal : S.Causal issued) (observed : S.Observed issued knows now)
    (fresh : ¬ S.Names issued (S.actor event) (S.counter event))
    (own : S.context event (S.actor event) < S.counter event)
    (context : ∀ actor counter, 0 < counter → counter ≤ S.context event actor →
      knows actor counter)
    (later : now < S.time event) : S.Causal (insert event issued) := by
  have positive : 0 < S.counter event := lt_of_le_of_lt (Nat.zero_le _) own
  refine ⟨?_, ?_, ?_, ?_⟩
  · rintro other (rfl | member)
    · exact positive
    · exact causal.positive other member
  · rintro first (rfl | member) second (rfl | known) actor counter
    · rfl
    · exact absurd ⟨second, known, actor.symm, counter.symm⟩ fresh
    · exact absurd ⟨first, member, actor, counter⟩ fresh
    · exact causal.unique first member second known actor counter
  · rintro other (rfl | member) actor counter above seen
    · exact (observed.grounded actor counter above (context actor counter above seen)).mono
        (Set.subset_insert _ _)
    · exact (causal.grounded other member actor counter above seen).mono (Set.subset_insert _ _)
  · rintro second (rfl | known) first (rfl | member) saw
    · exact absurd saw (not_le.mpr own)
    · have seen := context _ _ (causal.positive first member) saw
      exact lt_of_le_of_lt (observed.timed first member seen) later
    · -- nobody had seen a counter that was not yet issued
      exact absurd (causal.grounded second known _ _ positive saw) fresh
    · exact causal.ordered second known first member saw

theorem Observed.insert (observed : S.Observed issued knows now)
    (positive : 0 < S.counter event)
    (fresh : ¬ S.Names issued (S.actor event) (S.counter event)) :
    S.Observed (insert event issued) knows now := by
  refine ⟨fun actor counter above known =>
    (observed.grounded actor counter above known).mono (Set.subset_insert _ _), ?_⟩
  rintro other (rfl | member) known
  · exact absurd (observed.grounded _ _ positive known) fresh
  · exact observed.timed other member known

theorem Observed.learn {larger : Actor → ℕ → Prop} {next : Time}
    (observed : S.Observed issued knows now) (causal : S.Causal issued) (member : event ∈ issued)
    (learned : ∀ actor counter, larger actor counter →
      (S.actor event = actor ∧ S.counter event = counter) ∨ knows actor counter)
    (advanced : now ≤ next) (reached : S.time event ≤ next) : S.Observed issued larger next := by
  refine ⟨fun actor counter above known => ?_, fun other known seen => ?_⟩
  · rcases learned actor counter known with same | before
    · exact ⟨event, member, same⟩
    · exact observed.grounded actor counter above before
  · rcases learned _ _ seen with ⟨actor, counter⟩ | before
    · rw [← causal.unique event member other known actor counter]
      exact reached
    · exact (observed.timed other known before).trans advanced

theorem Observed.advance {next : Time} (observed : S.Observed issued knows now)
    (advanced : now ≤ next) : S.Observed issued knows next :=
  ⟨observed.grounded, fun event member known =>
    (observed.timed event member known).trans advanced⟩

end Stamping

end Atterm.Foundation
