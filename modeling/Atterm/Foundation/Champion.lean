/-
**Winners of a sequence of challenges.**

Candidates arrive one after another, and each is compared with the winner so far. The comparison
need not be transitive, so the outcome may depend on the order; it does not when one candidate wins
against all others.

* `foldl_challenge_eq` — a candidate that wins against every other is the winner in every order;
* `exists_champion` — under an order some candidate does;
* `getElem?_foldl_crown`, `mem_crowned_iff` — a map that keeps one winner for each key.
-/

import Atterm.Foundation.TreeMapFold

namespace Atterm.Foundation

open Std (ExtTreeMap TransCmp LawfulEqCmp)

variable {α : Type*} (wins : α → α → Bool)

def challenge : Option α → α → Option α
  | none, candidate => some candidate
  | some held, candidate => some (if wins candidate held then candidate else held)

/-- The candidate wins against every other one, and no other wins against it. -/
structure Champion (candidates : List α) (champion : α) : Prop where
  member : champion ∈ candidates
  beats : ∀ other ∈ candidates, other ≠ champion →
    wins champion other = true ∧ wins other champion = false

variable {wins}

theorem challenge_of_champion {held champion : α}
    (beats : held ≠ champion → wins champion held = true ∧ wins held champion = false) :
    challenge wins (some held) champion = some champion := by
  rw [challenge]
  by_cases same : held = champion
  · rw [same, ite_self]
  · rw [if_pos (beats same).1]

theorem challenge_champion {candidate champion : α}
    (beats : candidate ≠ champion → wins champion candidate = true ∧
      wins candidate champion = false) :
    challenge wins (some champion) candidate = some champion := by
  rw [challenge]
  by_cases same : candidate = champion
  · rw [same, ite_self]
  · rw [(beats same).2]
    rfl

theorem mem_of_foldl_challenge {candidates : List α} {first : Option α} {winner : α}
    (result : candidates.foldl (challenge wins) first = some winner) :
    first = some winner ∨ winner ∈ candidates := by
  induction candidates generalizing first with
  | nil => exact Or.inl result
  | cons candidate rest ih =>
    rcases ih result with now | later
    · cases first with
      | none =>
        cases now
        exact Or.inr List.mem_cons_self
      | some held =>
        rw [challenge] at now
        split_ifs at now
        · cases now
          exact Or.inr List.mem_cons_self
        · exact Or.inl now
    · exact Or.inr (List.mem_cons_of_mem _ later)

theorem foldl_challenge_champion {candidates : List α} {champion : α}
    (beats : ∀ other ∈ candidates, other ≠ champion →
      wins champion other = true ∧ wins other champion = false) :
    candidates.foldl (challenge wins) (some champion) = some champion := by
  induction candidates with
  | nil => rfl
  | cons candidate rest ih =>
    rw [List.foldl_cons, challenge_champion (beats candidate List.mem_cons_self)]
    exact ih fun other member => beats other (List.mem_cons_of_mem _ member)

/-- **A candidate that wins against every other is the winner in every order.** -/
theorem foldl_challenge_eq {candidates : List α} {champion : α}
    (best : Champion wins candidates champion) :
    candidates.foldl (challenge wins) none = some champion := by
  -- the candidates before the champion leave some winner, whom the champion replaces for good
  obtain ⟨before, after, split⟩ := List.append_of_mem best.member
  have beats := best.beats
  rw [split] at beats ⊢
  have later : ∀ other ∈ after, other ≠ champion →
      wins champion other = true ∧ wins other champion = false :=
    fun other member => beats other (by simp [member])
  rw [List.foldl_append, List.foldl_cons]
  have replaced : challenge wins (before.foldl (challenge wins) none) champion =
      some champion := by
    cases held : before.foldl (challenge wins) none with
    | none => rfl
    | some winner =>
      rcases mem_of_foldl_challenge held with empty | member
      · cases empty
      · exact challenge_of_champion fun other => beats winner (by simp [member]) other
  rw [replaced]
  exact foldl_challenge_champion later

theorem exists_champion {candidates : List α} (nonempty : candidates ≠ [])
    (asymm : ∀ left right, wins left right = true → wins right left = false)
    (trans : ∀ left middle right, wins left middle = true → wins middle right = true →
      wins left right = true)
    (total : ∀ left ∈ candidates, ∀ right ∈ candidates, left ≠ right →
      wins left right = true ∨ wins right left = true) :
    ∃ champion, Champion wins candidates champion := by
  induction candidates with
  | nil => exact absurd rfl nonempty
  | cons candidate rest ih =>
    by_cases alone : rest = []
    · refine ⟨candidate, List.mem_cons_self, fun other member different => ?_⟩
      rw [alone, List.mem_singleton] at member
      exact absurd member different
    obtain ⟨best, champion⟩ := ih alone fun left inside right inside' =>
      total left (List.mem_cons_of_mem _ inside) right (List.mem_cons_of_mem _ inside')
    by_cases beaten : wins candidate best = true
    · refine ⟨candidate, List.mem_cons_self, fun other member different => ?_⟩
      have later := (List.mem_cons.mp member).resolve_left different
      have beats : wins candidate other = true := by
        by_cases same : other = best
        · rw [same]
          exact beaten
        · exact trans candidate best other beaten (champion.beats other later same).1
      exact ⟨beats, asymm candidate other beats⟩
    · refine ⟨best, List.mem_cons_of_mem _ champion.member, fun other member different => ?_⟩
      rcases List.mem_cons.mp member with rfl | later
      · have beats := (total other List.mem_cons_self best
          (List.mem_cons_of_mem _ champion.member) different).resolve_left beaten
        exact ⟨beats, Bool.eq_false_iff.mpr beaten⟩
      · exact champion.beats other later different

/-! ### One winner for each key -/

variable {κ : Type*} {cmp : κ → κ → Ordering} [TransCmp cmp]

def crown (wins : α → α → Bool) (key : α → κ) (winners : ExtTreeMap κ α cmp) (candidate : α) :
    ExtTreeMap κ α cmp :=
  match winners[key candidate]? with
  | none => winners.insert (key candidate) candidate
  | some held =>
    if wins candidate held then winners.insert (key candidate) candidate else winners

variable [LawfulEqCmp cmp] [DecidableEq κ] {key : α → κ}

theorem getElem?_crown (winners : ExtTreeMap κ α cmp) (candidate : α) (found : κ) :
    (crown wins key winners candidate)[found]? =
      if key candidate = found then challenge wins winners[found]? candidate else winners[found]? := by
  have inserted : (winners.insert (key candidate) candidate)[found]? =
      if key candidate = found then some candidate else winners[found]? := by
    rw [ExtTreeMap.getElem?_insert]
    exact if_congr LawfulEqCmp.compare_eq_iff_eq rfl rfl
  unfold crown
  by_cases same : key candidate = found
  · rw [if_pos same]
    rw [if_pos same] at inserted
    cases held : winners[key candidate]? with
    | none =>
      rw [same] at held
      rw [held, challenge]
      exact inserted
    | some winner =>
      rw [same] at held
      rw [held, challenge]
      show (if wins candidate winner then _ else winners)[found]? = _
      split_ifs with better
      · exact inserted
      · exact held
  · rw [if_neg same]
    rw [if_neg same] at inserted
    split
    · exact inserted
    · split_ifs
      · exact inserted
      · rfl

/-- **The winner of a key** is the winner among the candidates of that key. -/
theorem getElem?_foldl_crown (winners : ExtTreeMap κ α cmp) (candidates : List α) (found : κ) :
    (candidates.foldl (crown wins key) winners)[found]? =
      (candidates.filter fun candidate => key candidate = found).foldl (challenge wins)
        winners[found]? := by
  induction candidates generalizing winners with
  | nil => rfl
  | cons candidate rest ih =>
    rw [List.foldl_cons, ih, getElem?_crown, List.filter_cons]
    by_cases same : key candidate = found
    · rw [if_pos same, if_pos (decide_eq_true same), List.foldl_cons]
    · rw [if_neg same, if_neg (by simpa using same)]

/-- **Who is crowned**: the candidates that lose against no candidate of their key. -/
theorem mem_crowned_iff {candidates : List α}
    (asymm : ∀ left right, wins left right = true → wins right left = false)
    (trans : ∀ left middle right, wins left middle = true → wins middle right = true →
      wins left right = true)
    (total : ∀ left ∈ candidates, ∀ right ∈ candidates, left ≠ right →
      wins left right = true ∨ wins right left = true) (winner : α) :
    winner ∈ mapValues (candidates.foldl (crown wins key) (∅ : ExtTreeMap κ α cmp)) ↔
      winner ∈ candidates ∧
        ∀ other ∈ candidates, key other = key winner → wins other winner = false := by
  have own : ∀ found candidate, candidate ∈ candidates.filter (fun other => key other = found) ↔
      candidate ∈ candidates ∧ key candidate = found := by
    intro found candidate
    rw [List.mem_filter, decide_eq_true_eq]
  have champions : ∀ found candidate, candidate ∈ candidates → key candidate = found →
      ∃ champion, Champion wins (candidates.filter fun other => key other = found) champion := by
    intro found candidate member named
    refine exists_champion (List.ne_nil_of_mem ((own found candidate).mpr ⟨member, named⟩)) asymm
      trans fun left leftMember right rightMember => ?_
    exact total left ((own found left).mp leftMember).1 right ((own found right).mp rightMember).1
  have unbeaten : ∀ found champion,
      Champion wins (candidates.filter fun other => key other = found) champion →
      ∀ other ∈ candidates, key other = found → wins other champion = false := by
    intro found champion best other member named
    by_cases same : other = champion
    · subst same
      by_contra beaten
      rw [Bool.not_eq_false] at beaten
      rw [asymm other other beaten] at beaten
      cases beaten
    · exact (best.beats other ((own found other).mpr ⟨member, named⟩) same).2
  rw [mem_mapValues_iff]
  constructor
  · rintro ⟨found, held⟩
    rw [getElem?_foldl_crown, ExtTreeMap.getElem?_empty] at held
    rcases mem_of_foldl_challenge held with none | inside
    · cases none
    obtain ⟨member, named⟩ := (own found winner).mp inside
    obtain ⟨champion, best⟩ := champions found winner member named
    rw [foldl_challenge_eq best, Option.some.injEq] at held
    subst held
    exact ⟨member, fun other listed same => unbeaten found champion best other listed
      (same.trans named)⟩
  · rintro ⟨member, first⟩
    refine ⟨key winner, ?_⟩
    obtain ⟨champion, best⟩ := champions (key winner) winner member rfl
    rw [getElem?_foldl_crown, ExtTreeMap.getElem?_empty, foldl_challenge_eq best]
    by_contra different
    obtain ⟨listed, named⟩ := (own _ champion).mp best.member
    have beaten := (best.beats winner ((own _ winner).mpr ⟨member, rfl⟩) fun same =>
      different (congrArg some same.symm)).1
    rw [first champion listed named] at beaten
    cases beaten

theorem nodup_keys_crowned (candidates : List α) :
    ((mapValues (candidates.foldl (crown wins key) (∅ : ExtTreeMap κ α cmp))).map key).Nodup := by
  have named : ∀ entry ∈ (candidates.foldl (crown wins key) (∅ : ExtTreeMap κ α cmp)).toList,
      (key ∘ Prod.snd) entry = entry.1 := by
    rintro ⟨found, winner⟩ member
    have held := ExtTreeMap.mem_toList_iff_getElem?_eq_some.mp member
    rw [getElem?_foldl_crown, ExtTreeMap.getElem?_empty] at held
    rcases mem_of_foldl_challenge held with none | inside
    · cases none
    · exact of_decide_eq_true (List.mem_filter.mp inside).2
  unfold mapValues
  rw [List.map_map, List.map_congr_left named]
  exact nodup_keys_toList _

end Atterm.Foundation
