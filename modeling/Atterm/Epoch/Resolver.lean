/-
**The branch a resolver selects.**

The branch depends only on the set of candidates a resolver knows, not on the order they came in or
on the order its maps are walked. It starts at a root, follows children, and takes the one with the
smallest hash each time.

* `Smallest`, `CanonicalChain` — the branch in the terms of the candidates;
* `Indexes.recompute` — the loop comes to an end, on the branch of the known candidates;
* `rotations_converge` — every order of calls ends in one and the same branch.
-/

import Atterm.Epoch.Rotation
import Atterm.Peer.Attenuation
import Atterm.Foundation.Runs

namespace Atterm.Epoch

open Atterm.Foundation
open Atterm.Peer (Bytes VerifiedGenesis tokenHash)
open Std (ExtTreeMap LawfulEqCmp)

/-! ### The branch of a set of candidates -/

/-- A candidate continues a rotation, or is a first one. -/
def Follows : Option VerifiedEpochRotation → VerifiedEpochRotation → Prop
  | none, candidate => candidate.document.previousEpoch = 0 ∧
      candidate.document.previousRotationHash = "" ∧ candidate.document.epoch = 1
  | some parent, candidate => candidate.document.previousRotationHash = parent.hash ∧
      candidate.document.previousEpoch = parent.document.epoch ∧
      candidate.document.epoch = candidate.document.previousEpoch + 1 ∧
      parent.document.createdAt ≤ candidate.document.createdAt

/-- Of the known candidates that continue a rotation, the one with the smallest hash. -/
structure Smallest (known : Set VerifiedEpochRotation) (parent : Option VerifiedEpochRotation)
    (candidate : VerifiedEpochRotation) : Prop where
  member : candidate ∈ known
  follows : Follows parent candidate
  least : ∀ other ∈ known, Follows parent other → candidate.hash ≤ other.hash

/-- **The branch**: a root, then child after child until there is none, the smallest hash each
time. -/
structure CanonicalChain (known : Set VerifiedEpochRotation) (chain : List VerifiedEpochRotation) :
    Prop where
  root : ∀ first, chain.head? = some first → Smallest known none first
  linked : chain.IsChain fun parent child => Smallest known (some parent) child
  complete : ∀ candidate ∈ known, ¬ Follows chain.getLast? candidate
  epochs : ∀ index rotation, chain[index]? = some rotation →
    rotation.document.epoch.toNat = index + 1

structure Indexes (known : Set VerifiedEpochRotation)
    (byHash : ExtTreeMap String VerifiedEpochRotation) : Prop where
  mem_iff : ∀ (key : String) (rotation : VerifiedEpochRotation), byHash[key]? = some rotation ↔
    rotation ∈ known ∧ rotation.hash = key
  hash_ne : ∀ rotation ∈ known, rotation.hash ≠ ""
  epoch_eq : ∀ rotation ∈ known,
    rotation.document.epoch.toNat = rotation.document.previousEpoch.toNat + 1

def Elects (byHash : ExtTreeMap String VerifiedEpochRotation) (parent hash : String) : Prop :=
  ∃ rotation, byHash[hash]? = some rotation ∧ filedUnder byHash rotation = some parent ∧
    ∀ (key : String) (other : VerifiedEpochRotation), byHash[key]? = some other →
      filedUnder byHash other = some parent → rotation.hash ≤ other.hash

variable {known : Set VerifiedEpochRotation} {byHash : ExtTreeMap String VerifiedEpochRotation}

theorem hashBefore_trans (first second third : VerifiedEpochRotation)
    (left : hashBefore first second) (right : hashBefore second third) :
    hashBefore first third :=
  decide_eq_true ((of_decide_eq_true left).trans (of_decide_eq_true right))

theorem hashBefore_total (first second : VerifiedEpochRotation) :
    hashBefore first second || hashBefore second first := by
  rw [Bool.or_eq_true]
  exact (le_total first.hash second.hash).imp decide_eq_true decide_eq_true

theorem epochBefore_iff (left right : VerifiedEpochRotation) :
    epochBefore left right ↔ toLex (left.document.epoch.toNat, left.hash)
      ≤ toLex (right.document.epoch.toNat, right.hash) := by
  rw [Prod.Lex.toLex_le_toLex]
  unfold epochBefore
  by_cases same : left.document.epoch = right.document.epoch
  · simp [same]
  · have apart : left.document.epoch.toNat ≠ right.document.epoch.toNat :=
      fun equal => same (UInt64.toNat_inj.mp equal)
    simp [same, apart, UInt64.lt_iff_toNat_lt]

theorem Indexes.mem_mapValues_iff (indexes : Indexes known byHash) (rotation : VerifiedEpochRotation) :
    rotation ∈ mapValues byHash ↔ rotation ∈ known := by
  rw [Foundation.mem_mapValues_iff]
  constructor
  · rintro ⟨key, held⟩
    exact ((indexes.mem_iff key rotation).mp held).1
  · exact fun member => ⟨rotation.hash, (indexes.mem_iff _ _).mpr ⟨member, rfl⟩⟩

theorem Indexes.filedUnder_root_iff (indexes : Indexes known byHash) (rotation : VerifiedEpochRotation) :
    filedUnder byHash rotation = some "" ↔ Follows none rotation := by
  have absent : byHash[""]? = none := by
    rw [Option.eq_none_iff_forall_ne_some]
    intro held found
    obtain ⟨member, hash⟩ := (indexes.mem_iff "" held).mp found
    exact indexes.hash_ne held member hash
  unfold filedUnder
  simp only [Follows]
  by_cases root : rotation.document.previousEpoch = 0
  · rw [if_pos root]
    by_cases first : rotation.document.previousRotationHash = "" ∧ rotation.document.epoch = 1
    · rw [if_pos first]
      exact iff_of_true rfl ⟨root, first⟩
    · rw [if_neg first]
      exact iff_of_false (by simp) fun follows => first follows.2
  · rw [if_neg root]
    refine iff_of_false ?_ fun follows => root follows.1
    intro filed
    split at filed
    · cases filed
    next parent held =>
      split_ifs at filed
      rw [Option.some.inj filed, absent] at held
      cases held

theorem Indexes.filedUnder_iff (indexes : Indexes known byHash) {parent : VerifiedEpochRotation}
    (member : parent ∈ known) (rotation : VerifiedEpochRotation) :
    filedUnder byHash rotation = some parent.hash ↔ Follows (some parent) rotation := by
  have held : byHash[parent.hash]? = some parent := (indexes.mem_iff _ _).mpr ⟨member, rfl⟩
  have nonempty := indexes.hash_ne parent member
  unfold filedUnder
  simp only [Follows]
  by_cases root : rotation.document.previousEpoch = 0
  · rw [if_pos root]
    refine iff_of_false ?_ ?_
    · intro filed
      split_ifs at filed
      exact nonempty (Option.some.inj filed).symm
    · rintro ⟨_, epoch, _⟩
      have positive := indexes.epoch_eq parent member
      rw [← epoch, root] at positive
      cases positive
  · rw [if_neg root]
    by_cases named : rotation.document.previousRotationHash = parent.hash
    · rw [named, held]
      simp only [true_and]
      constructor
      · intro filed
        split_ifs at filed with skipped
        simp only [not_or, not_not, not_lt] at skipped
        exact ⟨skipped.1.symm, skipped.2⟩
      · rintro ⟨epoch, next, later⟩
        rw [if_neg]
        simp only [not_or, not_not, not_lt]
        exact ⟨epoch.symm, next, later⟩
    · refine iff_of_false ?_ fun follows => named follows.1
      intro filed
      split at filed
      · cases filed
      · split_ifs at filed
        exact named (Option.some.inj filed)

/-! ### The loop -/

theorem Indexes.winner_iff (indexes : Indexes known byHash) {candidates : List VerifiedEpochRotation}
    (walked : candidates.Perm (mapValues byHash)) (parent hash : String) :
    winner byHash candidates parent = some hash ↔ Elects byHash parent hash := by
  have option : ∀ rotation, rotation ∈ candidates.filter (fun candidate =>
      decide (filedUnder byHash candidate = some parent)) ↔
        rotation ∈ known ∧ filedUnder byHash rotation = some parent := by
    intro rotation
    rw [List.mem_filter, walked.mem_iff, indexes.mem_mapValues_iff, decide_eq_true_eq]
  unfold winner
  constructor
  · intro chosen
    obtain ⟨rotation, first, rfl⟩ := Option.map_eq_some_iff.mp chosen
    obtain ⟨member, least⟩ := head?_mergeSort hashBefore_trans hashBefore_total first
    obtain ⟨inside, filed⟩ := (option rotation).mp member
    refine ⟨rotation, (indexes.mem_iff _ _).mpr ⟨inside, rfl⟩, filed, ?_⟩
    intro key other held follows
    have listed := (option other).mpr ⟨((indexes.mem_iff key other).mp held).1, follows⟩
    exact of_decide_eq_true (least other listed)
  · rintro ⟨rotation, held, filed, least⟩
    obtain ⟨inside, rfl⟩ := (indexes.mem_iff _ _).mp held
    have member := (option rotation).mpr ⟨inside, filed⟩
    cases first : ((candidates.filter fun candidate =>
        decide (filedUnder byHash candidate = some parent)).mergeSort hashBefore).head? with
    | none =>
      rw [List.head?_eq_none_iff] at first
      have listed : rotation ∈ (candidates.filter fun candidate =>
          decide (filedUnder byHash candidate = some parent)).mergeSort hashBefore :=
        List.mem_mergeSort.mpr member
      rw [first] at listed
      exact absurd listed List.not_mem_nil
    | some chosen =>
      obtain ⟨chosenMember, smaller⟩ := head?_mergeSort hashBefore_trans hashBefore_total first
      obtain ⟨chosenInside, chosenFiled⟩ := (option chosen).mp chosenMember
      have forth : chosen.hash ≤ rotation.hash := of_decide_eq_true (smaller rotation member)
      have back := least chosen.hash chosen ((indexes.mem_iff _ _).mpr ⟨chosenInside, rfl⟩)
        chosenFiled
      exact congrArg some (le_antisymm forth back)

theorem Indexes.winner_congr (indexes : Indexes known byHash)
    {candidates : List VerifiedEpochRotation} (walked : candidates.Perm (mapValues byHash)) :
    winner byHash candidates = winner byHash (mapValues byHash) := by
  funext parent
  refine Option.ext fun hash => ?_
  rw [indexes.winner_iff walked, indexes.winner_iff (List.Perm.refl _)]

def epochOf (byHash : ExtTreeMap String VerifiedEpochRotation) (hash : String) : ℕ :=
  (byHash[hash]?).elim 0 fun rotation => rotation.document.epoch.toNat

def hashes (byHash : ExtTreeMap String VerifiedEpochRotation) : Finset String :=
  (byHash.toList.map Prod.fst).toFinset

theorem card_hashes (byHash : ExtTreeMap String VerifiedEpochRotation) :
    (hashes byHash).card = byHash.size := by
  unfold hashes
  rw [List.toFinset_card_of_nodup (nodup_keys_toList byHash), List.length_map,
    ExtTreeMap.length_toList]

theorem mem_hashes_iff (hash : String) :
    hash ∈ hashes byHash ↔ ∃ rotation, byHash[hash]? = some rotation := by
  unfold hashes
  rw [List.mem_toFinset, List.mem_map]
  constructor
  · rintro ⟨⟨key, rotation⟩, member, rfl⟩
    exact ⟨rotation, ExtTreeMap.mem_toList_iff_getElem?_eq_some.mp member⟩
  · rintro ⟨rotation, held⟩
    exact ⟨(hash, rotation), ExtTreeMap.mem_toList_iff_getElem?_eq_some.mpr held, rfl⟩

theorem Indexes.epochOf_lt (indexes : Indexes known byHash) {parent hash : String}
    (elects : Elects byHash parent hash) :
    hash ∈ hashes byHash ∧ epochOf byHash parent < epochOf byHash hash := by
  obtain ⟨rotation, held, filed, _⟩ := elects
  refine ⟨(mem_hashes_iff hash).mpr ⟨rotation, held⟩, ?_⟩
  have epoch := indexes.epoch_eq rotation ((indexes.mem_iff _ _).mp held).1
  have own : epochOf byHash hash = rotation.document.epoch.toNat := by
    unfold epochOf
    rw [held]
    rfl
  rw [own, epoch]
  cases before : byHash[parent]? with
  | none =>
    unfold epochOf
    rw [before]
    exact Nat.succ_pos _
  | some parentRotation =>
    obtain ⟨inside, rfl⟩ := (indexes.mem_iff _ _).mp before
    have follows := (indexes.filedUnder_iff inside rotation).mp filed
    unfold epochOf
    rw [before, follows.2.1]
    exact Nat.lt_succ_self _

/-- **The loop comes to an end**, with the rounds it is given. -/
theorem Indexes.exists_branch (indexes : Indexes known byHash) :
    ∃ path, Descends (winner byHash (mapValues byHash)) "" path ∧ path.length ≤ byHash.size := by
  have climbs : ∀ parent hash, winner byHash (mapValues byHash) parent = some hash →
      hash ∈ hashes byHash ∧ epochOf byHash parent < epochOf byHash hash :=
    fun parent hash goes =>
      indexes.epochOf_lt ((indexes.winner_iff (List.Perm.refl _) parent hash).mp goes)
  rw [← card_hashes]
  exact exists_descends climbs ""

theorem Indexes.recompute {r : EpochRotationResolver} (indexes : Indexes known r.byHash)
    (call : RotationCall) : ∃ path, r.recomputeCanonical call = some { r with canonical := path } ∧
      Descends (winner r.byHash (mapValues r.byHash)) "" path := by
  obtain ⟨path, descends, short⟩ := indexes.exists_branch
  refine ⟨path, ?_, descends⟩
  unfold EpochRotationResolver.recomputeCanonical
  rw [indexes.winner_congr (call.walk_perm _), descend_of_descends descends (Nat.lt_succ_of_le short)]
  rfl

/-! ### The branch it ends on -/

theorem Indexes.smallest_iff (indexes : Indexes known byHash) {parent : Option VerifiedEpochRotation}
    {hash : String} (under : ∀ rotation, filedUnder byHash rotation = some hash ↔
      Follows parent rotation) (chosen : String) :
    winner byHash (mapValues byHash) hash = some chosen ↔
      ∃ rotation, Smallest known parent rotation ∧ rotation.hash = chosen := by
  rw [indexes.winner_iff (List.Perm.refl _)]
  constructor
  · rintro ⟨rotation, held, filed, least⟩
    obtain ⟨member, named⟩ := (indexes.mem_iff _ _).mp held
    refine ⟨rotation, ⟨member, (under rotation).mp filed, fun other inside follows => ?_⟩, named⟩
    exact least other.hash other ((indexes.mem_iff _ _).mpr ⟨inside, rfl⟩) ((under other).mpr follows)
  · rintro ⟨rotation, smallest, named⟩
    refine ⟨rotation, (indexes.mem_iff _ _).mpr ⟨smallest.member, named⟩,
      (under rotation).mpr smallest.follows, fun key other held filed => ?_⟩
    exact smallest.least other ((indexes.mem_iff _ _).mp held).1 ((under other).mp filed)

theorem Indexes.complete (indexes : Indexes known byHash) {parent : Option VerifiedEpochRotation}
    {hash : String} (under : ∀ rotation, filedUnder byHash rotation = some hash ↔
      Follows parent rotation) (ends : winner byHash (mapValues byHash) hash = none) :
    ∀ candidate ∈ known, ¬ Follows parent candidate := by
  intro candidate member follows
  unfold winner at ends
  rw [Option.map_eq_none_iff, List.head?_eq_none_iff] at ends
  have listed : candidate ∈ ((mapValues byHash).filter fun other =>
      decide (filedUnder byHash other = some hash)).mergeSort hashBefore := by
    rw [List.mem_mergeSort, List.mem_filter, indexes.mem_mapValues_iff, decide_eq_true_eq]
    exact ⟨member, (under candidate).mpr follows⟩
  rw [ends] at listed
  exact absurd listed List.not_mem_nil

theorem Indexes.branch_below (indexes : Indexes known byHash) {parent : VerifiedEpochRotation}
    (member : parent ∈ known) {hash : String} (named : parent.hash = hash) {path : List String}
    (descends : Descends (winner byHash (mapValues byHash)) hash path) :
    ∃ chain : List VerifiedEpochRotation, chain.map VerifiedEpochRotation.hash = path ∧
      (parent :: chain).IsChain (fun parent child => Smallest known (some parent) child) ∧
      (∀ candidate ∈ known, ¬ Follows (parent :: chain).getLast? candidate) ∧
      ∀ index rotation, (parent :: chain)[index]? = some rotation →
        rotation.document.epoch.toNat = parent.document.epoch.toNat + index := by
  induction descends generalizing parent with
  | leaf ends =>
    subst named
    refine ⟨[], rfl, List.isChain_singleton _, indexes.complete (indexes.filedUnder_iff member) ends,
      fun index rotation found => ?_⟩
    cases index with
    | zero =>
      cases found
      rfl
    | succ index => cases found
  | step goes _ ih =>
    subst named
    obtain ⟨rotation, smallest, chosen⟩ :=
      (indexes.smallest_iff (indexes.filedUnder_iff member) _).mp goes
    obtain ⟨chain, path, linked, complete, epochs⟩ := ih smallest.member chosen
    refine ⟨rotation :: chain, ?_, List.isChain_cons_cons.mpr ⟨smallest, linked⟩, ?_, ?_⟩
    · rw [List.map_cons, path, chosen]
    · rw [List.getLast?_cons_cons]
      exact complete
    · intro index found inside
      cases index with
      | zero =>
        cases inside
        rfl
      | succ index =>
        have epoch := epochs index found inside
        have next := indexes.epoch_eq rotation smallest.member
        rw [smallest.follows.2.1] at next
        omega

theorem known_of_linked {parent : VerifiedEpochRotation} {chain : List VerifiedEpochRotation}
    (linked : (parent :: chain).IsChain fun parent child => Smallest known (some parent) child) :
    ∀ rotation ∈ chain, rotation ∈ known := by
  induction chain generalizing parent with
  | nil => exact fun rotation member => absurd member List.not_mem_nil
  | cons child rest ih =>
    obtain ⟨smallest, below⟩ := List.isChain_cons_cons.mp linked
    exact List.forall_mem_cons.mpr ⟨smallest.member, ih below⟩

/-- **The loop ends on the branch of the known candidates.** -/
theorem Indexes.canonicalChain (indexes : Indexes known byHash) {path : List String}
    (descends : Descends (winner byHash (mapValues byHash)) "" path) :
    ∃ chain, CanonicalChain known chain ∧ chain.map VerifiedEpochRotation.hash = path ∧
      ∀ rotation ∈ chain, rotation ∈ known := by
  cases descends with
  | leaf ends =>
    refine ⟨[], ⟨?_, List.isChain_nil, indexes.complete indexes.filedUnder_root_iff ends, ?_⟩, rfl,
      fun rotation member => absurd member List.not_mem_nil⟩
    · intro first head
      cases head
    · intro index rotation found
      cases found
  | step goes below =>
    obtain ⟨rotation, smallest, chosen⟩ :=
      (indexes.smallest_iff indexes.filedUnder_root_iff _).mp goes
    obtain ⟨chain, path, linked, complete, epochs⟩ :=
      indexes.branch_below smallest.member chosen below
    refine ⟨rotation :: chain, ⟨?_, linked, complete, ?_⟩, ?_, ?_⟩
    · intro first head
      cases head
      exact smallest
    · intro index found inside
      have epoch := epochs index found inside
      rw [smallest.follows.2.2] at epoch
      rw [epoch, show (1 : UInt64).toNat = 1 from rfl]
      omega
    · rw [List.map_cons, path, chosen]
    · intro found member
      rcases List.mem_cons.mp member with rfl | later
      · exact smallest.member
      · exact known_of_linked linked found later

/-! ### Calls -/

section Calls

variable {P : Primitives} {genesis : VerifiedGenesis} {keyClass : KeyClass}

theorem Indexes.insert (indexes : Indexes known byHash) {token : String}
    {rotation : VerifiedEpochRotation} (accepted : Accepted P token rotation) :
    Indexes ({other | other ∈ known ∧ other.hash ≠ rotation.hash} ∪ {rotation})
      (byHash.insert rotation.hash rotation) where
  mem_iff := by
    intro key other
    rw [ExtTreeMap.getElem?_insert]
    by_cases same : rotation.hash = key
    · rw [if_pos (LawfulEqCmp.compare_eq_iff_eq.mpr same), Option.some.injEq]
      constructor
      · rintro rfl
        exact ⟨Or.inr rfl, same⟩
      · rintro ⟨⟨_, different⟩ | rfl, named⟩
        · exact absurd (named.trans same.symm) different
        · rfl
    · rw [if_neg fun equal => same (LawfulEqCmp.compare_eq_iff_eq.mp equal), indexes.mem_iff]
      constructor
      · rintro ⟨member, rfl⟩
        exact ⟨Or.inl ⟨member, fun equal => same equal.symm⟩, rfl⟩
      · rintro ⟨⟨member, _⟩ | rfl, named⟩
        · exact ⟨member, named⟩
        · exact absurd named same
  hash_ne := by
    rintro other (⟨member, _⟩ | rfl)
    · exact indexes.hash_ne other member
    · exact accepted.hash_ne
  epoch_eq := by
    rintro other (⟨member, _⟩ | rfl)
    · exact indexes.epoch_eq other member
    · exact accepted.epoch_eq

theorem Indexes.accept {r : EpochRotationResolver} {token : String} {rotation : VerifiedEpochRotation}
    (indexes : Indexes known r.byHash) (accepted : Accepted P token rotation) (call : RotationCall) :
    ∃ outcome, r.accept call rotation = some outcome ∧ ∀ result after, outcome = .ok (result, after) →
      ∃ known, Indexes known after.byHash := by
  unfold EpochRotationResolver.accept
  cases held : r.byID[rotation.document.rotationID]? with
  | some existing =>
    by_cases fork : existing ≠ rotation.hash
    · exact ⟨_, if_pos fork, fun result after same => nomatch same⟩
    · refine ⟨_, if_neg fork, fun result after same => ?_⟩
      cases same
      exact ⟨known, indexes⟩
  | none =>
    by_cases full : r.byHash.size ≥ maxEpochRotationCandidates
    · exact ⟨_, if_pos full, fun result after same => nomatch same⟩
    · have more : Indexes _ (r.store rotation).byHash := indexes.insert accepted
      obtain ⟨path, recomputed, _⟩ := more.recompute call
      simp only [if_neg full, recomputed, Option.map_some]
      refine ⟨_, rfl, fun result after same => ?_⟩
      cases same
      exact ⟨_, more⟩

/-- **A call always returns**, and the candidates stay under their hashes. -/
theorem Indexes.apply {r : EpochRotationResolver} (indexes : Indexes known r.byHash)
    (call : RotationCall) : ∃ outcome, r.apply P call = some outcome ∧
      ∀ result after, outcome = .ok (result, after) → ∃ known, Indexes known after.byHash := by
  unfold EpochRotationResolver.apply
  cases verified : verifyEpochRotation P call.token r.genesis with
  | error error => exact ⟨_, rfl, fun result after same => nomatch same⟩
  | ok rotation =>
    by_cases other : rotation.document.keyClass ≠ r.keyClass
    · exact ⟨_, if_pos other, fun result after same => nomatch same⟩
    · simp only [if_neg other]
      cases allowed : call.authorize rotation with
      | error reason => exact ⟨_, rfl, fun result after same => nomatch same⟩
      | ok done => exact indexes.accept (verifyEpochRotation_ok verified) call

theorem run_indexes {r : EpochRotationResolver} (indexes : ∃ known, Indexes known r.byHash)
    (calls : List RotationCall) :
    ∃ known, Indexes known (run (EpochRotationResolver.step P) r calls).byHash := by
  refine run_invariant (fun r : EpochRotationResolver => ∃ known, Indexes known r.byHash) ?_ indexes calls
  rintro r call ⟨known, indexes⟩
  obtain ⟨outcome, applied, kept⟩ := indexes.apply (P := P) call
  unfold EpochRotationResolver.step
  rw [applied]
  cases outcome with
  | error error => exact ⟨known, indexes⟩
  | ok pair => exact kept pair.1 pair.2 rfl

/-! ### One set of candidates -/

def Carried (P : Primitives) (genesis : VerifiedGenesis) (tokens : Set String) :
    Set VerifiedEpochRotation :=
  {rotation | ∃ token ∈ tokens, verifyEpochRotation P token genesis = .ok rotation}

/-- Candidates of one key class with ids of their own, few enough to be retained. -/
structure RotationTokens (P : Primitives) (genesis : VerifiedGenesis) (keyClass : KeyClass)
    (tokens : Finset String) : Prop where
  verified : ∀ token ∈ tokens, ∃ rotation, verifyEpochRotation P token genesis = .ok rotation ∧
    rotation.document.keyClass = keyClass
  ids : ∀ first ∈ tokens, ∀ second ∈ tokens, ∀ left right,
    verifyEpochRotation P first genesis = .ok left →
    verifyEpochRotation P second genesis = .ok right →
    left.document.rotationID = right.document.rotationID → first = second
  few : tokens.card ≤ maxEpochRotationCandidates

/-- A resolver that knows exactly the candidates of some tokens. -/
structure Knows (P : Primitives) (genesis : VerifiedGenesis) (keyClass : KeyClass)
    (applied : Set String) (r : EpochRotationResolver) : Prop where
  anchor : r.genesis.token = genesis.token
  ofClass : r.keyClass = keyClass
  byHash : ∀ (key : String) (rotation : VerifiedEpochRotation), r.byHash[key]? = some rotation ↔
    rotation ∈ Carried P genesis applied ∧ rotation.hash = key
  byID : ∀ id hash : String, r.byID[id]? = some hash ↔
    ∃ rotation ∈ Carried P genesis applied, rotation.document.rotationID = id ∧ rotation.hash = hash
  canonical : Descends (winner r.byHash (mapValues r.byHash)) "" r.canonical

theorem verifyEpochRotation_congr {first second : VerifiedGenesis} (same : first.token = second.token)
    (token : String) : verifyEpochRotation P token first = verifyEpochRotation P token second := by
  unfold verifyEpochRotation
  rw [same]

theorem Knows.indexes {applied : Set String} {r : EpochRotationResolver}
    (knows : Knows P genesis keyClass applied r) : Indexes (Carried P genesis applied) r.byHash where
  mem_iff := knows.byHash
  hash_ne := by
    rintro rotation ⟨token, _, accepted⟩
    exact (verifyEpochRotation_ok accepted).hash_ne
  epoch_eq := by
    rintro rotation ⟨token, _, accepted⟩
    exact (verifyEpochRotation_ok accepted).epoch_eq

theorem mem_carried_insert {applied : Set String} {token : String} {rotation : VerifiedEpochRotation}
    (accepted : verifyEpochRotation P token genesis = .ok rotation) (other : VerifiedEpochRotation) :
    other ∈ Carried P genesis (insert token applied) ↔
      other ∈ Carried P genesis applied ∨ other = rotation := by
  constructor
  · rintro ⟨source, rfl | old, again⟩
    · rw [accepted, Except.ok.injEq] at again
      exact Or.inr again.symm
    · exact Or.inl ⟨source, old, again⟩
  · rintro (⟨source, old, again⟩ | rfl)
    · exact ⟨source, Or.inr old, again⟩
    · exact ⟨token, Or.inl rfl, accepted⟩

section Set

variable {tokens : Finset String} (candidates : RotationTokens P genesis keyClass tokens)
  (collisionFree : Set.InjOn (tokenHash P.toPrimitives) tokens)

include collisionFree in
theorem eq_of_hash {first second : String} {left right : VerifiedEpochRotation}
    (firstMember : first ∈ tokens) (secondMember : second ∈ tokens)
    (accepted : verifyEpochRotation P first genesis = .ok left)
    (accepted' : verifyEpochRotation P second genesis = .ok right) (same : left.hash = right.hash) :
    left = right := by
  rw [(verifyEpochRotation_ok accepted).hash_eq, (verifyEpochRotation_ok accepted').hash_eq] at same
  rw [collisionFree firstMember secondMember same, accepted', Except.ok.injEq] at accepted
  exact accepted.symm

include collisionFree in
theorem Knows.store {applied : Set String} {r : EpochRotationResolver} {token : String}
    {rotation : VerifiedEpochRotation} (knows : Knows P genesis keyClass applied r)
    (inside : applied ⊆ tokens) (member : token ∈ tokens)
    (accepted : verifyEpochRotation P token genesis = .ok rotation)
    (free : r.byID[rotation.document.rotationID]? = none) {path : List String}
    (descends : Descends (winner (r.store rotation).byHash (mapValues (r.store rotation).byHash)) ""
      path) :
    Knows P genesis keyClass (insert token applied) { r.store rotation with canonical := path } where
  anchor := knows.anchor
  ofClass := knows.ofClass
  byHash := by
    intro key other
    show (r.byHash.insert rotation.hash rotation)[key]? = some other ↔ _
    rw [ExtTreeMap.getElem?_insert, mem_carried_insert accepted]
    by_cases same : rotation.hash = key
    · rw [if_pos (LawfulEqCmp.compare_eq_iff_eq.mpr same), Option.some.injEq]
      constructor
      · rintro rfl
        exact ⟨Or.inr rfl, same⟩
      · rintro ⟨⟨source, earlier, again⟩ | rfl, named⟩
        · exact eq_of_hash collisionFree member (inside earlier) accepted again
            (same.trans named.symm)
        · rfl
    · rw [if_neg fun equal => same (LawfulEqCmp.compare_eq_iff_eq.mp equal), knows.byHash]
      constructor
      · rintro ⟨carried, named⟩
        exact ⟨Or.inl carried, named⟩
      · rintro ⟨carried | rfl, named⟩
        · exact ⟨carried, named⟩
        · exact absurd named same
  byID := by
    intro id hash
    show (r.byID.insert rotation.document.rotationID rotation.hash)[id]? = some hash ↔ _
    simp only [mem_carried_insert accepted]
    rw [ExtTreeMap.getElem?_insert]
    by_cases same : rotation.document.rotationID = id
    · rw [if_pos (LawfulEqCmp.compare_eq_iff_eq.mpr same), Option.some.injEq]
      constructor
      · rintro rfl
        exact ⟨rotation, Or.inr rfl, same, rfl⟩
      · rintro ⟨other, carried | rfl, named, hashed⟩
        · have taken := (knows.byID id other.hash).mpr ⟨other, carried, named, rfl⟩
          rw [← same, free] at taken
          cases taken
        · exact hashed
    · rw [if_neg fun equal => same (LawfulEqCmp.compare_eq_iff_eq.mp equal), knows.byID]
      constructor
      · rintro ⟨other, carried, named⟩
        exact ⟨other, Or.inl carried, named⟩
      · rintro ⟨other, carried | rfl, named⟩
        · exact ⟨other, carried, named⟩
        · exact absurd named.1 same
  canonical := descends

include candidates

theorem Knows.eq_of_id {applied : Set String} {r : EpochRotationResolver} {token hash : String}
    {rotation : VerifiedEpochRotation} (knows : Knows P genesis keyClass applied r)
    (inside : applied ⊆ tokens) (member : token ∈ tokens)
    (accepted : verifyEpochRotation P token genesis = .ok rotation)
    (held : r.byID[rotation.document.rotationID]? = some hash) :
    rotation ∈ Carried P genesis applied ∧ hash = rotation.hash := by
  obtain ⟨other, ⟨source, earlier, again⟩, named, rfl⟩ := (knows.byID _ _).mp held
  have one := candidates.ids source (inside earlier) token member other rotation again accepted named
  rw [one, accepted, Except.ok.injEq] at again
  subst again
  exact ⟨⟨source, earlier, one ▸ accepted⟩, rfl⟩

theorem Knows.size_lt {applied : Set String} {r : EpochRotationResolver} {token : String}
    {rotation : VerifiedEpochRotation} (knows : Knows P genesis keyClass applied r)
    (inside : applied ⊆ tokens) (member : token ∈ tokens)
    (accepted : verifyEpochRotation P token genesis = .ok rotation)
    (fresh : rotation ∉ Carried P genesis applied) : r.byHash.size < maxEpochRotationCandidates := by
  have subset : hashes r.byHash ⊆ (tokens.erase token).image (tokenHash P.toPrimitives) := by
    intro hash listed
    obtain ⟨other, held⟩ := (mem_hashes_iff hash).mp listed
    obtain ⟨⟨source, earlier, again⟩, rfl⟩ := (knows.byHash _ _).mp held
    refine Finset.mem_image.mpr ⟨source, Finset.mem_erase.mpr ⟨?_, inside earlier⟩,
      (verifyEpochRotation_ok again).hash_eq.symm⟩
    rintro rfl
    exact fresh ⟨source, earlier, accepted⟩
  have count := (Finset.card_le_card subset).trans Finset.card_image_le
  rw [card_hashes] at count
  have fewer := Finset.card_erase_lt_of_mem member
  have bound := candidates.few
  omega

include collisionFree

/-- **One call more** for a candidate of the set. -/
theorem Knows.apply {applied : Set String} {r : EpochRotationResolver} {call : RotationCall}
    (knows : Knows P genesis keyClass applied r) (inside : applied ⊆ tokens)
    (member : call.token ∈ tokens)
    (allowed : ∀ rotation, verifyEpochRotation P call.token genesis = .ok rotation →
      call.authorize rotation = .ok ()) :
    ∃ result after, r.apply P call = some (.ok (result, after)) ∧
      Knows P genesis keyClass (insert call.token applied) after := by
  obtain ⟨rotation, accepted, ofClass⟩ := candidates.verified call.token member
  have admitted : r.apply P call = r.accept call rotation := by
    unfold EpochRotationResolver.apply
    rw [verifyEpochRotation_congr knows.anchor, accepted]
    simp only [ofClass, knows.ofClass, allowed rotation accepted, ne_eq, not_true_eq_false, if_false]
  rw [admitted]
  unfold EpochRotationResolver.accept
  cases held : r.byID[rotation.document.rotationID]? with
  | some existing =>
    obtain ⟨carried, rfl⟩ := knows.eq_of_id candidates inside member accepted held
    refine ⟨_, r, if_neg (not_not.mpr rfl), ?_⟩
    have same : Carried P genesis (insert call.token applied) = Carried P genesis applied := by
      ext other
      rw [mem_carried_insert accepted]
      constructor
      · rintro (old | rfl)
        · exact old
        · exact carried
      · exact Or.inl
    exact ⟨knows.anchor, knows.ofClass, same ▸ knows.byHash, same ▸ knows.byID, knows.canonical⟩
  | none =>
    have fresh : rotation ∉ Carried P genesis applied := by
      intro carried
      rw [(knows.byID _ _).mpr ⟨rotation, carried, rfl, rfl⟩] at held
      cases held
    have room := knows.size_lt candidates inside member accepted fresh
    have more : Indexes _ (r.store rotation).byHash :=
      knows.indexes.insert (verifyEpochRotation_ok accepted)
    obtain ⟨path, recomputed, descends⟩ := more.recompute call
    simp only [if_neg (not_le.mpr room), recomputed, Option.map_some]
    exact ⟨_, _, rfl, knows.store collisionFree inside member accepted held descends⟩

theorem Knows.applyAll {applied : Set String} {r : EpochRotationResolver} {calls : List RotationCall}
    (knows : Knows P genesis keyClass applied r) (inside : applied ⊆ tokens)
    (members : ∀ call ∈ calls, call.token ∈ tokens)
    (allowed : ∀ call ∈ calls, ∀ rotation, verifyEpochRotation P call.token genesis = .ok rotation →
      call.authorize rotation = .ok ()) :
    ∃ final, r.applyAll P calls = some final ∧
      Knows P genesis keyClass ({token | token ∈ calls.map RotationCall.token} ∪ applied) final := by
  induction calls generalizing applied r with
  | nil =>
    refine ⟨r, rfl, ?_⟩
    simpa using knows
  | cons call rest ih =>
    rw [List.forall_mem_cons] at members allowed
    obtain ⟨result, after, applies, next⟩ :=
      knows.apply candidates collisionFree inside members.1 allowed.1
    obtain ⟨final, done, known⟩ :=
      ih next (Set.insert_subset members.1 inside) members.2 allowed.2
    refine ⟨final, ?_, ?_⟩
    · rw [EpochRotationResolver.applyAll, applies]
      exact done
    · convert known using 1
      ext token
      simp only [List.map_cons, List.mem_cons, Set.mem_union, Set.mem_ofPred_eq, Set.mem_insert_iff]
      tauto

end Set

theorem Knows.congr {applied : Set String} {left right : EpochRotationResolver}
    (first : Knows P genesis keyClass applied left) (second : Knows P genesis keyClass applied right) :
    left.canonical = right.canonical ∧ left.current = right.current ∧
      ∀ walk walk' : List VerifiedEpochRotation → List VerifiedEpochRotation,
        (∀ listed, (walk listed).Perm listed) → (∀ listed, (walk' listed).Perm listed) →
        left.tokens walk = right.tokens walk' := by
  have same : left.byHash = right.byHash := by
    refine ExtTreeMap.ext_getElem? fun key => Option.ext fun rotation => ?_
    rw [first.byHash, second.byHash]
  have branch : left.canonical = right.canonical := by
    have descends := first.canonical
    rw [same] at descends
    exact descends.unique second.canonical
  refine ⟨branch, ?_, fun walk walk' perm perm' => ?_⟩
  · unfold EpochRotationResolver.current
    rw [branch, same]
  · unfold EpochRotationResolver.tokens
    rw [same]
    refine congrArg _ (mergeSort_congr ?_ ?_ ?_ ((perm _).trans (perm' _).symm))
    · intro one two three before before'
      rw [epochBefore_iff] at before before' ⊢
      exact before.trans before'
    · intro one two
      rw [Bool.or_eq_true, epochBefore_iff, epochBefore_iff]
      exact le_total _ _
    · intro one listed two listed' before before'
      rw [(perm _).mem_iff, second.indexes.mem_mapValues_iff] at listed listed'
      rw [epochBefore_iff] at before before'
      have equal := le_antisymm before before'
      have hash : one.hash = two.hash := congrArg (fun pair => (ofLex pair).2) equal
      have held := (second.byHash one.hash one).mpr ⟨listed, rfl⟩
      rw [hash, (second.byHash two.hash two).mpr ⟨listed', rfl⟩, Option.some.injEq] at held
      exact held.symm

theorem Knows.current_eq {applied : Set String} {r : EpochRotationResolver}
    {chain : List VerifiedEpochRotation} (knows : Knows P genesis keyClass applied r)
    (path : chain.map VerifiedEpochRotation.hash = r.canonical)
    (known : ∀ rotation ∈ chain, rotation ∈ Carried P genesis applied) :
    r.current = chain.getLast? := by
  unfold EpochRotationResolver.current
  rw [← path, List.getLast?_map]
  cases last : chain.getLast? with
  | none => rfl
  | some rotation =>
    exact (knows.byHash _ _).mpr ⟨known rotation (List.mem_of_getLast? last), rfl⟩

theorem newEpochRotationResolver_ok {start : EpochRotationResolver}
    (created : newEpochRotationResolver P genesis keyClass = .ok start) :
    Knows P genesis keyClass ∅ start := by
  unfold newEpochRotationResolver at created
  cases anchored : Peer.verifyGenesis P.toPrimitives genesis.token with
  | error reason =>
    rw [anchored] at created
    cases created
  | ok verifiedGenesis =>
    rw [anchored] at created
    obtain ⟨_, same⟩ := guard_ok created
    cases same
    have none : Carried P genesis ∅ = ∅ := by
      ext rotation
      simp [Carried]
    have ends : winner ∅ (mapValues (∅ : ExtTreeMap String VerifiedEpochRotation)) ""
        = Option.none := by
      have empty : mapValues (∅ : ExtTreeMap String VerifiedEpochRotation) = [] := by
        rw [List.eq_nil_iff_forall_not_mem]
        intro rotation member
        obtain ⟨key, held⟩ := (mem_mapValues_iff _ _).mp member
        rw [ExtTreeMap.getElem?_empty] at held
        cases held
      rw [empty]
      simp [winner]
    refine ⟨Peer.verifyGenesis_token anchored, rfl, ?_, ?_, .leaf ends⟩
    · intro key rotation
      rw [none]
      simp
    · intro id hash
      rw [none]
      simp

/-- **Rotations converge.** Whatever the order of the calls and their repetitions, a resolver that is
given a set of authorized candidates ends on the branch of that set, with the same head and the same
tokens; and in any run, whatever is applied, the loop of a call comes to an end. -/
theorem rotations_converge (P : Primitives) (genesis : VerifiedGenesis) (keyClass : KeyClass)
    (start : EpochRotationResolver)
    (created : newEpochRotationResolver P genesis keyClass = .ok start) (tokens : Finset String)
    (candidates : RotationTokens P genesis keyClass tokens)
    (collisionFree : Set.InjOn (tokenHash P.toPrimitives) tokens) :
    (∃ chain retained, CanonicalChain (Carried P genesis tokens) chain ∧
      ∀ calls : List RotationCall, (∀ token, token ∈ calls.map RotationCall.token ↔ token ∈ tokens) →
        (∀ call ∈ calls, ∀ rotation, verifyEpochRotation P call.token genesis = .ok rotation →
          call.authorize rotation = .ok ()) →
        ∃ final, start.applyAll P calls = some final ∧
          final.canonical = chain.map VerifiedEpochRotation.hash ∧
          final.current = chain.getLast? ∧
          ∀ walk : List VerifiedEpochRotation → List VerifiedEpochRotation,
            (∀ listed, (walk listed).Perm listed) → final.tokens walk = retained) ∧
    ∀ (calls : List RotationCall) (call : RotationCall),
      ∃ outcome, (run (EpochRotationResolver.step P) start calls).apply P call = some outcome := by
  have initial := newEpochRotationResolver_ok created
  have ends : ∀ calls : List RotationCall,
      (∀ token, token ∈ calls.map RotationCall.token ↔ token ∈ tokens) →
      (∀ call ∈ calls, ∀ rotation, verifyEpochRotation P call.token genesis = .ok rotation →
        call.authorize rotation = .ok ()) →
      ∃ final, start.applyAll P calls = some final ∧ Knows P genesis keyClass tokens final := by
    intro calls same allowed
    obtain ⟨final, done, knows⟩ := initial.applyAll candidates collisionFree (Set.empty_subset _)
      (fun call member => (same _).mp (List.mem_map_of_mem member)) allowed
    refine ⟨final, done, ?_⟩
    convert knows using 1
    ext token
    rw [Set.union_empty]
    exact (same token).symm
  refine ⟨?_, fun calls call => ?_⟩
  · -- one run to compare the others with
    obtain ⟨reference, _, known⟩ := ends (tokens.toList.map fun token =>
      ⟨token, fun _ => .ok (), id, fun _ => .refl _⟩) (by simp) (by simp)
    obtain ⟨chain, canonical, path, inside⟩ := known.indexes.canonicalChain known.canonical
    refine ⟨chain, reference.tokens id, canonical, fun calls same allowed => ?_⟩
    obtain ⟨final, done, knows⟩ := ends calls same allowed
    obtain ⟨branch, head, listed⟩ := knows.congr known
    refine ⟨final, done, branch.trans path.symm, ?_, fun walk perm => ?_⟩
    · exact head.trans (known.current_eq path inside)
    · exact listed walk id perm fun _ => .refl _
  · obtain ⟨known, indexes⟩ := run_indexes ⟨_, initial.indexes⟩ calls
    obtain ⟨outcome, applied, _⟩ := indexes.apply call
    exact ⟨outcome, applied⟩

end Calls

section Acceptance

variable {P : Primitives} {doc : EpochRotation}

theorem rotationActor_ok {genesis : VerifiedGenesis} {actor : Peer.VerifiedGrant}
    (member : Peer.verifyGrant P.toPrimitives doc.actorMembership genesis
      (doc.createdAt * Peer.second) = .ok actor)
    (own : actor.document.subjectPeerID = doc.actorPeerID)
    (started : actor.document.issuedAt ≤ doc.createdAt) (allowed : canRotateEpoch actor) :
    rotationActor P doc genesis = .ok actor := by
  rw [rotationActor, member]
  refine guard_ok_iff.mpr ⟨?_, rfl⟩
  simp only [not_or, not_not, not_lt, gt_iff_lt]
  exact ⟨own, started, allowed⟩

theorem parseEpochRotation_signedToken {raw signature : Bytes}
    (size : (Peer.signedToken epochRotationTag raw signature).utf8ByteSize ≤ maxEpochRotationBytes)
    (length : signature.length = Peer.signatureSize) (readable : P.readRotation raw = some doc) :
    parseEpochRotation P (Peer.signedToken epochRotationTag raw signature)
      = .ok ⟨doc, raw, signature⟩ := by
  have parts : (Peer.signedToken epochRotationTag raw signature).toList.splitOn '.' = _ :=
    Peer.splitOn_signedToken raw signature (by decide)
  have fits : ¬ ((Peer.signedToken epochRotationTag raw signature).utf8ByteSize = 0 ∨
      (Peer.signedToken epochRotationTag raw signature).utf8ByteSize > maxEpochRotationBytes) :=
    not_or.mpr ⟨Peer.signedToken_size_ne_zero _ _ _, not_lt.mpr size⟩
  rw [parseEpochRotation, if_neg fits, parts]
  simp only [String.ofList_toList, decodeCanonical_encode, decodeSized_encode length]
  refine guard_ok_iff.mpr ⟨not_not.mpr rfl, ?_⟩
  rw [readable]

theorem validateRecipients_cons {previousPeerID : String} {recipient : EpochRotationRecipient}
    {rest : List EpochRotationRecipient} {wrappingKey : Bytes} {info : EpochEnvelopeInfo}
    (peer : validPeerID recipient.peerID) (serial : P.uuidValid recipient.grantSerial)
    (above : ¬ recipient.peerID ≤ previousPeerID)
    (key : decodeWrappingKey P recipient.wrappingPublicKey = some wrappingKey)
    (envelope : inspectEpochEnvelope P recipient.envelope = .ok info)
    (matching : info.spaceID = doc.spaceID ∧ info.keyClass = doc.keyClass ∧ info.epoch = doc.epoch ∧
      info.recipientPeerID = recipient.peerID ∧ info.recipientWrappingKey = wrappingKey)
    (later : validateRecipients P doc recipient.peerID rest = .ok ()) :
    validateRecipients P doc previousPeerID (recipient :: rest) = .ok () := by
  have named : ¬ (¬ validPeerID recipient.peerID ∨ ¬ P.uuidValid recipient.grantSerial ∨
      recipient.peerID ≤ previousPeerID) := by
    simp only [not_or, not_not]
    exact ⟨peer, serial, above⟩
  have same : ¬ (info.spaceID ≠ doc.spaceID ∨ info.keyClass ≠ doc.keyClass ∨
      info.epoch ≠ doc.epoch ∨ info.recipientPeerID ≠ recipient.peerID ∨
      info.recipientWrappingKey ≠ wrappingKey) := by
    simpa only [not_or, not_not] using matching
  rw [validateRecipients, if_neg named, key, envelope]
  exact (if_neg same).trans later

theorem validateEpochRotationDocument_accepts (version : doc.v = epochRotationVersion)
    (id : P.uuidValid doc.rotationID) (space : validSpaceID P doc.spaceID)
    (keyClass : doc.keyClass.valid) (dated : 0 < doc.createdAt) (actor : validPeerID doc.actorPeerID)
    (next : doc.epoch = doc.previousEpoch + 1) (positive : doc.epoch ≠ 0)
    (parent : if doc.previousEpoch = 0 then doc.previousRotationHash = ""
      else validateDigest doc.previousRotationHash)
    (commitment : validateDigest doc.keyCommitment) (few : doc.recipients.length ≠ 0)
    (bounded : doc.recipients.length ≤ maxEpochRotationRecipients)
    (recipients : validateRecipients P doc "" doc.recipients = .ok ()) :
    validateEpochRotationDocument P doc = .ok () := by
  refine guard_ok_iff.mpr ⟨?_, guard_ok_iff.mpr ⟨?_, guard_ok_iff.mpr ⟨?_, guard_ok_iff.mpr ⟨?_,
    recipients⟩⟩⟩⟩
  · simp only [not_or, not_not, not_le]
    exact ⟨version, id, space, keyClass, dated, actor⟩
  · simp only [not_or, not_not]
    exact ⟨next, positive⟩
  · split_ifs at parent ⊢ with root
    · exact not_not.mpr parent
    · exact not_not.mpr parent
  · simp only [not_or, not_not, not_lt, gt_iff_lt]
    exact ⟨commitment, few, bounded⟩

theorem verifyEpochRotation_accepts {token : String} {genesis verified : VerifiedGenesis}
    {raw signature : Bytes} {actor : Peer.VerifiedGrant}
    (anchored : Peer.verifyGenesis P.toPrimitives genesis.token = .ok verified)
    (parsed : parseEpochRotation P token = .ok ⟨doc, raw, signature⟩)
    (space : doc.spaceID = verified.document.spaceID)
    (member : rotationActor P doc verified = .ok actor)
    (signed : P.verify actor.publicKey raw signature = .ok ())
    (valid : validateEpochRotationDocument P doc = .ok ()) :
    verifyEpochRotation P token genesis
      = .ok ⟨token, doc, actor.publicKey, tokenHash P.toPrimitives token⟩ := by
  rw [verifyEpochRotation, anchored]
  refine bind_ok_iff.mpr ⟨_, parsed, guard_ok_iff.mpr ⟨not_not.mpr space, bind_ok_iff.mpr
    ⟨_, member, ?_⟩⟩⟩
  simp only [signed]
  exact bind_ok_iff.mpr ⟨(), valid, rfl⟩

end Acceptance

/-! ### Two first rotations and what follows one of them -/

section Sample

open Atterm.Peer (sampleDigest samplePrimitives sampleKey samplePeerID sampleToken sampleSpaceID
  sampleGenesis sampleGrant membershipTag)

def envelopeToken (epoch : UInt8) : String := epochEnvelopeTag ++ "." ++ Base64.encode [epoch]

/-- The creator hands the key of an epoch to itself. -/
def sampleRotation (rotationID previousRotationHash : String) (epoch : UInt8) : EpochRotation where
  v := 1
  rotationID := rotationID
  spaceID := sampleSpaceID
  keyClass := .sync
  previousEpoch := epoch.toUInt64 - 1
  previousRotationHash := previousRotationHash
  epoch := epoch.toUInt64
  keyCommitment := samplePeerID 0
  actorPeerID := samplePeerID 0
  actorMembership := sampleToken membershipTag 0
  recipients := [⟨samplePeerID 0, "33333333-3333-4333-8333-333333333333",
    Base64.encode (sampleKey 0), envelopeToken epoch⟩]
  createdAt := 2000

def sampleEnvelope (epoch : UInt8) : EpochEnvelope where
  v := 1
  spaceID := sampleSpaceID
  keyClass := .sync
  epoch := epoch.toUInt64
  recipientPeerID := samplePeerID 0
  recipientWrappingKey := Base64.encode (sampleKey 0)
  ephemeralPublicKey := Base64.encode (sampleKey 1)

def rotationPrimitives (rotations : List EpochRotation) : Primitives where
  toPrimitives := samplePrimitives sampleGenesis.document [sampleGrant 0 0] [] []
  readRotation := fun raw => rotations[(raw.headD 0).toNat]?
  readEnvelope := fun raw => some (sampleEnvelope (raw.headD 0))

variable {rotations : List EpochRotation}

theorem sampleKey_decoded (peer : UInt8) :
    decodeWrappingKey (rotationPrimitives rotations) (Base64.encode (sampleKey peer))
      = some (sampleKey peer) := by
  rw [decodeWrappingKey]
  rw [decodeSized_encode (show (sampleKey peer).length = Peer.wrappingPublicKeySize from rfl)]
  rfl

theorem samplePeerID_valid (peer : UInt8) : validPeerID (samplePeerID peer) := by
  have length : (sampleDigest (sampleKey peer)).length = 32 :=
    (rotationPrimitives []).sha256_length (sampleKey peer)
  rw [validPeerID, samplePeerID]
  rw [decodeSized_encode length]
  rfl

theorem envelopeToken_parts (epoch : UInt8) : (envelopeToken epoch).toList.splitOn '.'
    = [epochEnvelopeTag.toList, (Base64.encode [epoch]).toList] := by
  have shape : (envelopeToken epoch).toList
      = epochEnvelopeTag.toList ++ '.' :: (Base64.encode [epoch]).toList := by
    simp [envelopeToken]
  have plain : '.' ∉ epochEnvelopeTag.toList := by decide
  rw [shape, List.splitOn_append_cons_of_beq _ _ (by rfl),
    List.splitOn_eq_singleton (Base64.dot_notMem_encode [epoch]), List.splitOn_eq_singleton plain]
  rfl

theorem sampleEnvelope_parsed {epoch : UInt8} (positive : epoch.toUInt64 ≠ 0)
    (size : (envelopeToken epoch).utf8ByteSize ≤ maxEpochEnvelopeBytes)
    (nonempty : (envelopeToken epoch).utf8ByteSize ≠ 0) :
    parseEpochEnvelope (rotationPrimitives rotations) (envelopeToken epoch)
      = .ok (sampleEnvelope epoch) := by
  have fits : ¬ ((envelopeToken epoch).utf8ByteSize = 0 ∨
      (envelopeToken epoch).utf8ByteSize > maxEpochEnvelopeBytes) :=
    not_or.mpr ⟨nonempty, not_lt.mpr size⟩
  have space : validSpaceID (rotationPrimitives rotations) sampleSpaceID := by
    show decide (sampleSpaceID.length = 36) = true
    decide
  have readable : (Base64.decodeStrict (Base64.encode [epoch])).bind
      (rotationPrimitives rotations).readEnvelope = some (sampleEnvelope epoch) := by
    rw [Base64.decodeStrict_encode]
    rfl
  rw [parseEpochEnvelope]
  rw [if_neg fits, envelopeToken_parts]
  simp only [String.ofList_toList, readable]
  refine guard_ok_iff.mpr ⟨not_not.mpr rfl, guard_ok_iff.mpr ⟨?_, rfl⟩⟩
  simp only [not_or, not_not]
  refine ⟨rfl, space, rfl, positive, samplePeerID_valid 0, ?_, ?_⟩
  · rw [sampleEnvelope, sampleKey_decoded]
    exact Bool.false_ne_true
  · rw [sampleEnvelope, sampleKey_decoded]
    exact Bool.false_ne_true

theorem sampleEnvelope_inspected {epoch : UInt8} (positive : epoch.toUInt64 ≠ 0)
    (size : (envelopeToken epoch).utf8ByteSize ≤ maxEpochEnvelopeBytes)
    (nonempty : (envelopeToken epoch).utf8ByteSize ≠ 0) :
    inspectEpochEnvelope (rotationPrimitives rotations) (envelopeToken epoch)
      = .ok ⟨sampleSpaceID, .sync, epoch.toUInt64, samplePeerID 0, sampleKey 0, sampleKey 1⟩ := by
  have sized : ∀ peer, decodeSized (Base64.encode (sampleKey peer)) Peer.wrappingPublicKeySize
      = some (sampleKey peer) := fun peer => decodeSized_encode rfl
  have recipient : decodeSized (sampleEnvelope epoch).recipientWrappingKey
      Peer.wrappingPublicKeySize = some (sampleKey 0) := sized 0
  have ephemeral : decodeSized (sampleEnvelope epoch).ephemeralPublicKey
      Peer.wrappingPublicKeySize = some (sampleKey 1) := sized 1
  refine bind_ok_iff.mpr ⟨_, sampleEnvelope_parsed positive size nonempty, ?_⟩
  rw [recipient, ephemeral]
  rfl

theorem sampleRotation_valid {rotationID previousRotationHash : String} {epoch : UInt8}
    (id : rotationID.length = 36) (positive : epoch.toUInt64 ≠ 0)
    (parent : if epoch.toUInt64 - 1 = 0 then previousRotationHash = ""
      else validateDigest previousRotationHash)
    (size : (envelopeToken epoch).utf8ByteSize ≤ maxEpochEnvelopeBytes)
    (nonempty : (envelopeToken epoch).utf8ByteSize ≠ 0) :
    validateEpochRotationDocument (rotationPrimitives rotations)
      (sampleRotation rotationID previousRotationHash epoch) = .ok () := by
  have space : validSpaceID (rotationPrimitives rotations) sampleSpaceID := by
    show decide (sampleSpaceID.length = 36) = true
    decide
  have serial : (rotationPrimitives rotations).uuidValid "33333333-3333-4333-8333-333333333333" := by
    show decide ("33333333-3333-4333-8333-333333333333".length = 36) = true
    decide
  have next : epoch.toUInt64 = epoch.toUInt64 - 1 + 1 := by
    rw [UInt64.sub_add_cancel]
  have recipients : validateRecipients (rotationPrimitives rotations)
      (sampleRotation rotationID previousRotationHash epoch) "" [⟨samplePeerID 0,
        "33333333-3333-4333-8333-333333333333", Base64.encode (sampleKey 0), envelopeToken epoch⟩]
      = .ok () := by
    have above : ¬ samplePeerID 0 ≤ "" := by decide
    exact validateRecipients_cons (samplePeerID_valid 0) serial above (sampleKey_decoded 0)
      (sampleEnvelope_inspected positive size nonempty) ⟨rfl, rfl, rfl, rfl, rfl⟩ rfl
  have dated : (0 : ℤ) < 2000 := by decide
  exact validateEpochRotationDocument_accepts rfl (decide_eq_true id) space rfl dated
    (samplePeerID_valid 0) next positive parent (samplePeerID_valid 0) one_ne_zero
    (show 1 ≤ 256 by decide) recipients

theorem sampleRotation_verified {rotationID previousRotationHash : String} {index epoch : UInt8}
    (listed : rotations[index.toNat]? = some (sampleRotation rotationID previousRotationHash epoch))
    (size : (sampleToken epochRotationTag index).utf8ByteSize ≤ maxEpochRotationBytes)
    (valid : validateEpochRotationDocument (rotationPrimitives rotations)
      (sampleRotation rotationID previousRotationHash epoch) = .ok ()) :
    verifyEpochRotation (rotationPrimitives rotations) (sampleToken epochRotationTag index)
        sampleGenesis
      = .ok ⟨sampleToken epochRotationTag index, sampleRotation rotationID previousRotationHash epoch,
          sampleKey 0, tokenHash (rotationPrimitives rotations).toPrimitives
            (sampleToken epochRotationTag index)⟩ := by
  have anchored : Peer.verifyGenesis (rotationPrimitives rotations).toPrimitives sampleGenesis.token
      = .ok sampleGenesis := Peer.sample_genesis
  have parsed : parseEpochRotation (rotationPrimitives rotations) (sampleToken epochRotationTag index)
      = .ok ⟨sampleRotation rotationID previousRotationHash epoch, [index],
        List.replicate 64 1⟩ :=
    parseEpochRotation_signedToken size List.length_replicate listed
  have own : Peer.SamplePayload (sampleGrant 0 0) 0 0 :=
    ⟨⟨0, rfl⟩, rfl, rfl, by decide, by decide, Or.inl rfl⟩
  have member : Peer.verifyGrant (rotationPrimitives rotations).toPrimitives
      (sampleToken membershipTag 0) sampleGenesis (2000 * Peer.second)
      = .ok ⟨sampleToken membershipTag 0, (sampleGrant 0 0).decoded, sampleKey 0, sampleKey 0⟩ :=
    Peer.sample_root_accepted own rfl (by decide) (by decide) (by decide)
      fun other => absurd rfl other
  have actor : rotationActor (rotationPrimitives rotations)
      (sampleRotation rotationID previousRotationHash epoch) sampleGenesis
      = .ok ⟨sampleToken membershipTag 0, (sampleGrant 0 0).decoded, sampleKey 0, sampleKey 0⟩ :=
    rotationActor_ok member rfl (show (1000 : ℤ) ≤ 2000 by decide) rfl
  have signature : (rotationPrimitives rotations).verify (sampleKey 0) [index]
      (List.replicate 64 1) = .ok () := Peer.sample_signature (sampleKey 0) [index]
  exact verifyEpochRotation_accepts anchored parsed rfl actor signature valid

def firstHash : String :=
  tokenHash (samplePrimitives sampleGenesis.document [] [] []) (sampleToken epochRotationTag 0)

/-- Two rotations to the first epoch, and one that follows the first of them. -/
def branches : List EpochRotation :=
  [sampleRotation "44444444-4444-4444-8444-444444444444" "" 1,
    sampleRotation "55555555-5555-4555-8555-555555555555" "" 1,
    sampleRotation "66666666-6666-4666-8666-666666666666" firstHash 2]

def branchToken (index : Fin 3) : String := sampleToken epochRotationTag (UInt8.ofNat index)

theorem branch_verified (index : Fin 3) : ∃ rotation, verifyEpochRotation
    (rotationPrimitives branches) (branchToken index) sampleGenesis = .ok rotation ∧
      rotation.document = branches[index] := by
  have digest : validateDigest firstHash := by
    have length := (samplePrimitives sampleGenesis.document [] [] []).sha256_length
      (sampleToken epochRotationTag 0).toUTF8.toList
    rw [validateDigest, firstHash, tokenHash]
    rw [decodeSized_encode length]
    rfl
  match index with
  | 0 =>
    exact ⟨_, sampleRotation_verified rfl (by decide) (sampleRotation_valid
      (by decide) (by decide) rfl (by decide) (by decide)), rfl⟩
  | 1 =>
    exact ⟨_, sampleRotation_verified rfl (by decide) (sampleRotation_valid
      (by decide) (by decide) rfl (by decide) (by decide)), rfl⟩
  | 2 =>
    exact ⟨_, sampleRotation_verified rfl (by decide) (sampleRotation_valid
      (by decide) (by decide) digest (by decide) (by decide)), rfl⟩

def branchTokens : Finset String := Finset.univ.image branchToken

theorem branch_candidates :
    RotationTokens (rotationPrimitives branches) sampleGenesis .sync branchTokens where
  verified := by
    intro token member
    obtain ⟨index, _, rfl⟩ := Finset.mem_image.mp member
    obtain ⟨rotation, accepted, document⟩ := branch_verified index
    have ofClass : ∀ index : Fin 3, (branches[index]).keyClass = .sync := by decide
    exact ⟨rotation, accepted, document ▸ ofClass index⟩
  ids := by
    intro first member second member' left right accepted accepted' same
    obtain ⟨index, _, rfl⟩ := Finset.mem_image.mp member
    obtain ⟨index', _, rfl⟩ := Finset.mem_image.mp member'
    obtain ⟨rotation, again, document⟩ := branch_verified index
    obtain ⟨rotation', again', document'⟩ := branch_verified index'
    rw [accepted, Except.ok.injEq] at again
    rw [accepted', Except.ok.injEq] at again'
    rw [again, again', document, document'] at same
    have apart : (List.ofFn fun index : Fin 3 => (branches[index]).rotationID).Nodup := by
      decide
    rw [List.nodup_ofFn.mp apart same]
  few := Finset.card_image_le.trans (by decide)

theorem rotations_converge_branches :
    (∃ chain retained,
      CanonicalChain (Carried (rotationPrimitives branches) sampleGenesis branchTokens) chain ∧
      ∀ calls : List RotationCall,
        (∀ token, token ∈ calls.map RotationCall.token ↔ token ∈ branchTokens) →
        (∀ call ∈ calls, ∀ rotation, verifyEpochRotation (rotationPrimitives branches) call.token
          sampleGenesis = .ok rotation → call.authorize rotation = .ok ()) →
        ∃ final, EpochRotationResolver.applyAll (rotationPrimitives branches)
            ⟨sampleGenesis, .sync, ∅, ∅, []⟩ calls = some final ∧
          final.canonical = chain.map VerifiedEpochRotation.hash ∧
          final.current = chain.getLast? ∧
          ∀ walk : List VerifiedEpochRotation → List VerifiedEpochRotation,
            (∀ listed, (walk listed).Perm listed) → final.tokens walk = retained) ∧
    ∀ (calls : List RotationCall) (call : RotationCall), ∃ outcome, EpochRotationResolver.apply
      (rotationPrimitives branches) (run (EpochRotationResolver.step (rotationPrimitives branches))
        ⟨sampleGenesis, .sync, ∅, ∅, []⟩ calls) call = some outcome := by
  have created : newEpochRotationResolver (rotationPrimitives branches) sampleGenesis .sync
      = .ok ⟨sampleGenesis, .sync, ∅, ∅, []⟩ := by
    have anchored : Peer.verifyGenesis (rotationPrimitives branches).toPrimitives sampleGenesis.token
        = .ok sampleGenesis := Peer.sample_genesis
    rw [newEpochRotationResolver]
    rw [anchored]
    exact guard_ok_iff.mpr ⟨by decide, rfl⟩
  refine rotations_converge (rotationPrimitives branches) sampleGenesis .sync _ created branchTokens
    branch_candidates ?_
  intro first member second member' same
  obtain ⟨index, _, rfl⟩ := Finset.mem_image.mp member
  obtain ⟨index', _, rfl⟩ := Finset.mem_image.mp member'
  have apart : (List.ofFn fun index : Fin 3 =>
      tokenHash (samplePrimitives sampleGenesis.document [] [] []) (branchToken index)).Nodup := by
    decide +kernel
  rw [List.nodup_ofFn.mp apart same]

end Sample

end Atterm.Epoch
