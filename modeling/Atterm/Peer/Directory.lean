/-
**The membership directory of a store.**

`gatherMemberships` verifies a queue of tokens, each bringing the membership its issuer signed with.
What it leaves does not depend on the turns it took: it holds the listed tokens and every membership
embedded in them, each as it verified at its issue time.

* `Listed` — the tokens a list reaches through the embedded memberships;
* `gatherMemberships_iff` — the directory holds exactly the listed tokens;
* `gatherMemberships_succeeds` — a small closed set without forks is gathered.
-/

import Atterm.Peer.Denials
import Atterm.Foundation.Champion

namespace Atterm.Peer

open Atterm.Foundation
open Std (ExtTreeMap)

theorem wrap_ok_iff {α : Type} {label : DocumentError → StoreError} {result : Except DocumentError α}
    {value : α} : wrap label result = .ok value ↔ result = .ok value := by
  cases result with
  | error error => simp [wrap]
  | ok found => simp [wrap]

variable {P : Primitives} {genesis : VerifiedGenesis}

theorem verifyGrant_token {token : String} {now : ℤ} {grant : VerifiedGrant}
    (accepted : verifyGrant P token genesis now = .ok grant) : grant.token = token := by
  obtain ⟨signed, authority, link⟩ := verifyGrantFrom_ok_iff.mp accepted
  exact link.token_eq

theorem verifyGrantAtIssuance_ok_iff {token : String} {grant : VerifiedGrant} :
    verifyGrantAtIssuance P token genesis = .ok grant ↔
      verifyGrant P token genesis (grant.document.issuedAt * second) = .ok grant := by
  unfold verifyGrantAtIssuance
  simp only [bind_ok_iff, guard_ok_iff]
  constructor
  · rintro ⟨signed, parsed, positive, accepted⟩
    obtain ⟨again, authority, link⟩ := verifyGrantFrom_ok_iff.mp accepted
    have same : again = signed := by
      have reparsed := link.parsed
      rw [parsed, Except.ok.injEq] at reparsed
      exact reparsed.symm
    have issuedAt : grant.document.issuedAt = signed.document.issuedAt := by
      rw [link.document_eq, same]
      rfl
    rw [issuedAt]
    exact accepted
  · intro accepted
    obtain ⟨signed, authority, link⟩ := verifyGrantFrom_ok_iff.mp accepted
    have issuedAt : grant.document.issuedAt = signed.document.issuedAt := by
      rw [link.document_eq]
      rfl
    refine ⟨signed, link.parsed, ?_, issuedAt ▸ accepted⟩
    rw [← issuedAt, not_le]
    exact link.valid.issuedAt_pos

theorem verifyGrantAtIssuance_token {token : String} {grant : VerifiedGrant}
    (accepted : verifyGrantAtIssuance P token genesis = .ok grant) : grant.token = token :=
  verifyGrant_token (verifyGrantAtIssuance_ok_iff.mp accepted)

/-! ### What the queue reaches -/

/-- The tokens of a list and the memberships embedded in them. -/
inductive Listed (P : Primitives) (genesis : VerifiedGenesis) (tokens : List String) : String → Prop
  | here {token : String} (member : token ∈ tokens) : Listed P genesis tokens token
  | issuer {token : String} {grant : VerifiedGrant} (listed : Listed P genesis tokens token)
      (verified : verifyGrantAtIssuance P token genesis = .ok grant)
      (embedded : grant.document.issuerMembership ≠ "") :
      Listed P genesis tokens grant.document.issuerMembership

theorem gatherMemberships_turn {fuel : ℕ} {token : String} {tokens : List String}
    {byToken result : ExtTreeMap String VerifiedGrant} {bySerial : ExtTreeMap String String}
    (gathered : gatherMemberships P genesis (fuel + 1) (token :: tokens) byToken bySerial
      = .ok result) :
    (byToken.contains token ∧ gatherMemberships P genesis fuel tokens byToken bySerial = .ok result) ∨
    (¬ byToken.contains token ∧ ∃ membership,
      verifyGrantAtIssuance P token genesis = .ok membership ∧
      (∀ existing, bySerial[membership.document.serial]? = some existing → existing = token) ∧
      gatherMemberships P genesis fuel
        (if membership.document.issuerMembership ≠ "" then
          tokens ++ [membership.document.issuerMembership] else tokens)
        (byToken.insert token membership)
        (bySerial.insert membership.document.serial token) = .ok result) := by
  rw [gatherMemberships] at gathered
  by_cases known : byToken.contains token
  · rw [if_pos known] at gathered
    exact Or.inl ⟨known, gathered⟩
  · rw [if_neg known] at gathered
    obtain ⟨membership, verified, rest⟩ := bind_ok gathered
    obtain ⟨unforked, rest⟩ := guard_ok rest
    obtain ⟨_, rest⟩ := guard_ok rest
    refine Or.inr ⟨known, membership, wrap_ok_iff.mp verified, fun existing found => ?_, rest⟩
    rw [found] at unforked
    simpa using unforked

/-- The queue and the directory between two turns: nothing but listed tokens, and none forgotten. -/
structure Gathering (P : Primitives) (genesis : VerifiedGenesis) (roots tokens : List String)
    (byToken : ExtTreeMap String VerifiedGrant) : Prop where
  held : ∀ (token : String) (grant : VerifiedGrant), byToken[token]? = some grant →
    verifyGrantAtIssuance P token genesis = .ok grant
  queued : ∀ token ∈ tokens, Listed P genesis roots token
  stored : ∀ token ∈ byToken, Listed P genesis roots token
  covered : ∀ token ∈ roots, token ∈ byToken ∨ token ∈ tokens
  closed : ∀ (token : String) (grant : VerifiedGrant), byToken[token]? = some grant →
    grant.document.issuerMembership ≠ "" →
    grant.document.issuerMembership ∈ byToken ∨ grant.document.issuerMembership ∈ tokens

theorem gathering_start (tokens : List String) : Gathering P genesis tokens tokens ∅ where
  held := fun token grant held => by
    rw [ExtTreeMap.getElem?_empty] at held
    cases held
  queued := fun _ member => .here member
  stored := fun token member => absurd member ExtTreeMap.not_mem_empty
  covered := fun _ member => Or.inr member
  closed := fun token grant held => by
    rw [ExtTreeMap.getElem?_empty] at held
    cases held

theorem Gathering.skip {roots tokens : List String} {token : String}
    {byToken : ExtTreeMap String VerifiedGrant}
    (gathering : Gathering P genesis roots (token :: tokens) byToken)
    (known : byToken.contains token) : Gathering P genesis roots tokens byToken := by
  have waiting : ∀ found, found ∈ byToken ∨ found ∈ token :: tokens →
      found ∈ byToken ∨ found ∈ tokens := by
    rintro found (stored | member)
    · exact Or.inl stored
    · rcases List.mem_cons.mp member with rfl | later
      · exact Or.inl (ExtTreeMap.mem_iff_contains.mpr known)
      · exact Or.inr later
  exact ⟨gathering.held, fun found member => gathering.queued found (List.mem_cons_of_mem _ member),
    gathering.stored, fun found member => waiting found (gathering.covered found member),
    fun found grant held some => waiting _ (gathering.closed found grant held some)⟩

theorem Gathering.store {roots tokens : List String} {token : String} {membership : VerifiedGrant}
    {byToken : ExtTreeMap String VerifiedGrant}
    (gathering : Gathering P genesis roots (token :: tokens) byToken)
    (verified : verifyGrantAtIssuance P token genesis = .ok membership) :
    Gathering P genesis roots
      (if membership.document.issuerMembership ≠ "" then
        tokens ++ [membership.document.issuerMembership] else tokens)
      (byToken.insert token membership) := by
  have mem_insert : ∀ found, found ∈ byToken.insert token membership ↔
      found = token ∨ found ∈ byToken := by
    intro found
    rw [ExtTreeMap.mem_insert, compare_eq_iff_eq]
    exact or_congr_left eq_comm
  have entry : ∀ found grant, (byToken.insert token membership)[found]? = some grant →
      (found = token ∧ grant = membership) ∨ byToken[found]? = some grant := by
    intro found grant held
    rw [ExtTreeMap.getElem?_insert] at held
    split_ifs at held with same
    · exact Or.inl ⟨(compare_eq_iff_eq.mp same).symm, (Option.some.inj held).symm⟩
    · exact Or.inr held
  have kept : ∀ found, found ∈ tokens → found ∈ (if membership.document.issuerMembership ≠ "" then
      tokens ++ [membership.document.issuerMembership] else tokens) := by
    intro found member
    split_ifs
    · exact List.mem_append_left _ member
    · exact member
  have waiting : ∀ found, found ∈ byToken ∨ found ∈ token :: tokens →
      found ∈ byToken.insert token membership ∨
        found ∈ (if membership.document.issuerMembership ≠ "" then
          tokens ++ [membership.document.issuerMembership] else tokens) := by
    rintro found (stored | member)
    · exact Or.inl ((mem_insert found).mpr (Or.inr stored))
    · rcases List.mem_cons.mp member with rfl | later
      · exact Or.inl ((mem_insert found).mpr (Or.inl rfl))
      · exact Or.inr (kept found later)
  have own : Listed P genesis roots token := gathering.queued token List.mem_cons_self
  refine ⟨?_, ?_, ?_, fun found member => waiting found (gathering.covered found member), ?_⟩
  · intro found grant held
    rcases entry found grant held with ⟨rfl, rfl⟩ | old
    · exact verified
    · exact gathering.held found grant old
  · intro found member
    split_ifs at member with embedded
    · rcases List.mem_append.mp member with later | last
      · exact gathering.queued found (List.mem_cons_of_mem _ later)
      · rw [List.mem_singleton.mp last]
        exact .issuer own verified embedded
    · exact gathering.queued found (List.mem_cons_of_mem _ member)
  · intro found member
    rcases (mem_insert found).mp member with rfl | old
    · exact own
    · exact gathering.stored found old
  · intro found grant held embedded
    rcases entry found grant held with ⟨rfl, rfl⟩ | old
    · rw [if_pos embedded]
      exact Or.inr (List.mem_append_right _ List.mem_cons_self)
    · exact waiting _ (gathering.closed found grant old embedded)

theorem gatherMemberships_gathering {fuel : ℕ} {roots tokens : List String}
    {byToken result : ExtTreeMap String VerifiedGrant} {bySerial : ExtTreeMap String String}
    (gathering : Gathering P genesis roots tokens byToken)
    (gathered : gatherMemberships P genesis fuel tokens byToken bySerial = .ok result) :
    Gathering P genesis roots [] result := by
  induction fuel generalizing tokens byToken bySerial with
  | zero =>
    cases tokens with
    | nil =>
      rw [gatherMemberships, Except.ok.injEq] at gathered
      exact gathered ▸ gathering
    | cons token rest => cases gathered
  | succ fuel ih =>
    cases tokens with
    | nil =>
      rw [gatherMemberships, Except.ok.injEq] at gathered
      exact gathered ▸ gathering
    | cons token rest =>
      rcases gatherMemberships_turn gathered with
        ⟨known, later⟩ | ⟨_, membership, verified, _, later⟩
      · exact ih (gathering.skip known) later
      · exact ih (gathering.store verified) later

theorem gatherMemberships_serials {fuel : ℕ} {tokens : List String}
    {byToken result : ExtTreeMap String VerifiedGrant} {bySerial : ExtTreeMap String String}
    (named : ∀ (token : String) (grant : VerifiedGrant), byToken[token]? = some grant →
      bySerial[grant.document.serial]? = some token)
    (gathered : gatherMemberships P genesis fuel tokens byToken bySerial = .ok result)
    {first second : String} {left right : VerifiedGrant} (held : result[first]? = some left)
    (held' : result[second]? = some right) (same : left.document.serial = right.document.serial) :
    first = second := by
  have done : ∀ (byToken : ExtTreeMap String VerifiedGrant) (bySerial : ExtTreeMap String String),
      (∀ (token : String) (grant : VerifiedGrant), byToken[token]? = some grant →
        bySerial[grant.document.serial]? = some token) →
      byToken[first]? = some left → byToken[second]? = some right → first = second := by
    intro byToken bySerial named held held'
    have serial := named first left held
    rw [same, named second right held', Option.some.injEq] at serial
    exact serial.symm
  induction fuel generalizing tokens byToken bySerial with
  | zero =>
    cases tokens with
    | nil =>
      rw [gatherMemberships, Except.ok.injEq] at gathered
      exact done byToken bySerial named (gathered ▸ held) (gathered ▸ held')
    | cons token rest => cases gathered
  | succ fuel ih =>
    cases tokens with
    | nil =>
      rw [gatherMemberships, Except.ok.injEq] at gathered
      exact done byToken bySerial named (gathered ▸ held) (gathered ▸ held')
    | cons token rest =>
      rcases gatherMemberships_turn gathered with
        ⟨_, later⟩ | ⟨_, membership, _, unforked, later⟩
      · exact ih named later
      · refine ih ?_ later
        intro found grant stored
        rw [ExtTreeMap.getElem?_insert] at stored ⊢
        split_ifs at stored with own
        · cases stored
          rw [if_pos (compare_eq_iff_eq.mpr rfl), compare_eq_iff_eq.mp own]
        · split_ifs with clash
          · have known := named found grant stored
            rw [← compare_eq_iff_eq.mp clash] at known
            rw [unforked found known]
          · exact named found grant stored

theorem Gathering.complete {roots : List String} {result : ExtTreeMap String VerifiedGrant}
    (done : Gathering P genesis roots [] result) {token : String}
    (listed : Listed P genesis roots token) : ∃ grant, result[token]? = some grant := by
  induction listed with
  | here member =>
    exact Option.isSome_iff_exists.mp (ExtTreeMap.isSome_getElem?_iff_mem.mpr
      ((done.covered _ member).resolve_right List.not_mem_nil))
  | issuer _ verified embedded ih =>
    obtain ⟨held, found⟩ := ih
    have same := done.held _ _ found
    rw [verified, Except.ok.injEq] at same
    subst same
    exact Option.isSome_iff_exists.mp (ExtTreeMap.isSome_getElem?_iff_mem.mpr
      ((done.closed _ _ found embedded).resolve_right List.not_mem_nil))

/-- **The directory holds exactly the listed tokens**, each as it verified at its issue time. -/
theorem gatherMemberships_iff {fuel : ℕ} {tokens : List String}
    {result : ExtTreeMap String VerifiedGrant}
    (gathered : gatherMemberships P genesis fuel tokens ∅ ∅ = .ok result) (token : String)
    (grant : VerifiedGrant) :
    result[token]? = some grant ↔
      Listed P genesis tokens token ∧ verifyGrantAtIssuance P token genesis = .ok grant := by
  have done := gatherMemberships_gathering (gathering_start tokens) gathered
  constructor
  · intro held
    exact ⟨done.stored token (ExtTreeMap.isSome_getElem?_iff_mem.mp (by rw [held]; rfl)),
      done.held token grant held⟩
  · rintro ⟨listed, verified⟩
    obtain ⟨held, found⟩ := done.complete listed
    have same := done.held _ _ found
    rw [verified, Except.ok.injEq] at same
    rw [found, same]

/-! ### A set that is gathered -/

/-- A small set of memberships without forks that holds the issuers embedded in it, with one pair of
keys for each device. -/
structure Gatherable (P : Primitives) (genesis : VerifiedGenesis) (known : List VerifiedGrant) :
    Prop where
  verified : ∀ grant ∈ known, verifyGrantAtIssuance P grant.token genesis = .ok grant
  closed : ∀ grant ∈ known, grant.document.issuerMembership ≠ "" →
    grant.document.issuerMembership ∈ known.map VerifiedGrant.token
  serials : ∀ first ∈ known, ∀ second ∈ known,
    first.document.serial = second.document.serial → first.token = second.token
  keys : ∀ first ∈ known, ∀ second ∈ known,
    first.document.subjectPeerID = second.document.subjectPeerID →
      first.publicKey = second.publicKey ∧ first.wrappingPublicKey = second.wrappingPublicKey
  few : known.length ≤ maxMembershipCandidates

theorem Gatherable.listed {known : List VerifiedGrant} (gatherable : Gatherable P genesis known)
    {tokens : List String} (inside : ∀ token ∈ tokens, token ∈ known.map VerifiedGrant.token)
    {token : String} (reached : Listed P genesis tokens token) :
    token ∈ known.map VerifiedGrant.token := by
  induction reached with
  | here queued => exact inside _ queued
  | issuer _ verified embedded ih =>
    obtain ⟨grant, member, rfl⟩ := List.mem_map.mp ih
    have same := gatherable.verified grant member
    rw [verified, Except.ok.injEq] at same
    subst same
    exact gatherable.closed _ member embedded

theorem size_lt_of_not_contains {known : List VerifiedGrant} {token : String}
    {byToken : ExtTreeMap String VerifiedGrant}
    (stored : ∀ found ∈ byToken, found ∈ known.map VerifiedGrant.token)
    (listed : token ∈ known.map VerifiedGrant.token) (fresh : ¬ byToken.contains token) :
    byToken.size < known.length := by
  have absent : token ∉ byToken.keys := fun member =>
    fresh (ExtTreeMap.mem_iff_contains.mp (ExtTreeMap.mem_keys.mp member))
  have distinct : (token :: byToken.keys).Nodup :=
    List.nodup_cons.mpr ⟨absent, ExtTreeMap.nodup_keys⟩
  have inside : token :: byToken.keys ⊆ known.map VerifiedGrant.token := by
    intro found member
    rcases List.mem_cons.mp member with rfl | held
    · exact listed
    · exact stored found (ExtTreeMap.mem_keys.mp held)
  have short := (distinct.subperm inside).length_le
  rw [List.length_cons, ExtTreeMap.length_keys, List.length_map] at short
  omega

/-- **A small closed set without forks is gathered.** -/
theorem gatherMemberships_succeeds {known : List VerifiedGrant} (gatherable : Gatherable P genesis known)
    {fuel : ℕ} {tokens : List String} {byToken : ExtTreeMap String VerifiedGrant}
    {bySerial : ExtTreeMap String String}
    (enough : tokens.length + (maxMembershipCandidates - byToken.size) ≤ fuel)
    (queued : ∀ token ∈ tokens, token ∈ known.map VerifiedGrant.token)
    (stored : ∀ token ∈ byToken, token ∈ known.map VerifiedGrant.token)
    (serials : ∀ (serial token : String), bySerial[serial]? = some token →
      ∃ grant ∈ known, grant.document.serial = serial ∧ grant.token = token) :
    ∃ result, gatherMemberships P genesis fuel tokens byToken bySerial = .ok result := by
  induction fuel generalizing tokens byToken bySerial with
  | zero =>
    cases tokens with
    | nil => exact ⟨byToken, by rw [gatherMemberships]⟩
    | cons token rest =>
      rw [List.length_cons] at enough
      omega
  | succ fuel ih =>
    cases tokens with
    | nil => exact ⟨byToken, by rw [gatherMemberships]⟩
    | cons token rest =>
      rw [List.length_cons] at enough
      have later : ∀ found ∈ rest, found ∈ known.map VerifiedGrant.token :=
        fun found member => queued found (List.mem_cons_of_mem _ member)
      rw [gatherMemberships]
      by_cases present : byToken.contains token
      · rw [if_pos present]
        exact ih (by omega) later stored serials
      rw [if_neg present]
      have listed := queued token List.mem_cons_self
      obtain ⟨membership, member, rfl⟩ := List.mem_map.mp listed
      have room := size_lt_of_not_contains stored listed present
      have few := gatherable.few
      have unforked : ¬ (bySerial[membership.document.serial]?).any
          (fun existing => decide (existing ≠ membership.token)) := by
        cases found : bySerial[membership.document.serial]? with
        | none => simp
        | some existing =>
          obtain ⟨other, inside, same, rfl⟩ := serials _ _ found
          simpa using gatherable.serials other inside membership member same
      suffices gathered : ∃ result, gatherMemberships P genesis fuel
          (if membership.document.issuerMembership ≠ "" then
            rest ++ [membership.document.issuerMembership] else rest)
          (byToken.insert membership.token membership)
          (bySerial.insert membership.document.serial membership.token) = .ok result by
        obtain ⟨result, done⟩ := gathered
        exact ⟨result, bind_ok_iff.mpr ⟨membership,
          wrap_ok_iff.mpr (gatherable.verified membership member), guard_ok_iff.mpr ⟨unforked,
            guard_ok_iff.mpr ⟨by omega, done⟩⟩⟩⟩
      refine ih ?_ ?_ ?_ ?_
      · rw [ExtTreeMap.size_insert, if_neg present]
        split_ifs
        · rw [List.length_append, List.length_singleton]
          omega
        · omega
      · intro found inside
        split_ifs at inside with embedded
        · rcases List.mem_append.mp inside with old | last
          · exact later found old
          · rw [List.mem_singleton.mp last]
            exact gatherable.closed membership member embedded
        · exact later found inside
      · intro found inside
        rw [ExtTreeMap.mem_insert, compare_eq_iff_eq] at inside
        rcases inside with rfl | old
        · exact listed
        · exact stored found old
      · intro serial found held
        rw [ExtTreeMap.getElem?_insert] at held
        split_ifs at held with same
        · exact ⟨membership, member, compare_eq_iff_eq.mp same, Option.some.inj held⟩
        · exact serials serial found held

/-! ### Bringing a store into canonical order -/

theorem canonicalLocal_succeeds {owner current : VerifiedGrant} {memberships : List VerifiedGrant}
    (same : ∀ membership ∈ memberships,
      membership.document.subjectPeerID = owner.document.subjectPeerID →
        membership.publicKey = owner.publicKey ∧
          membership.wrappingPublicKey = owner.wrappingPublicKey) :
    ∃ canonical, canonicalLocal owner current memberships = .ok canonical := by
  induction memberships generalizing current with
  | nil => exact ⟨current, rfl⟩
  | cons membership rest ih =>
    have later := fun found member => same found (List.mem_cons_of_mem _ member)
    rw [canonicalLocal]
    split_ifs with other changed
    · exact ih later
    · have keys := same membership List.mem_cons_self (not_not.mp other)
      rcases changed with key | wrapping
      · exact absurd keys.1 key
      · exact absurd keys.2 wrapping
    · exact ih later
    · exact ih later

/-- **Canonical order** changes the directory and the local membership, and nothing else. -/
theorem materializeMemberships_shape {state after : StoreState}
    (done : materializeMemberships P state = .ok after) :
    ∃ localMembership memberships, after = { state with localMembership, memberships } := by
  unfold materializeMemberships at done
  cases anchored : verifyGenesis P state.genesisToken with
  | error error =>
    rw [anchored] at done
    cases done
    exact ⟨state.localMembership, state.memberships.eraseDups, rfl⟩
  | ok genesis =>
    rw [anchored] at done
    obtain ⟨byToken, _, rest⟩ := bind_ok done
    obtain ⟨owner, _, rest⟩ := bind_ok rest
    obtain ⟨canonical, _, rest⟩ := bind_ok rest
    cases rest
    exact ⟨_, _, rfl⟩

theorem canonicalLocal_mem {owner current canonical : VerifiedGrant} {memberships : List VerifiedGrant}
    (found : canonicalLocal owner current memberships = .ok canonical) :
    canonical = current ∨ canonical ∈ memberships := by
  induction memberships generalizing current with
  | nil =>
    rw [canonicalLocal, Except.ok.injEq] at found
    exact Or.inl found.symm
  | cons membership rest ih =>
    rw [canonicalLocal] at found
    split_ifs at found with other changed after
    · exact (ih found).imp_right (List.mem_cons_of_mem _)
    · rcases ih found with rfl | later
      · exact Or.inr List.mem_cons_self
      · exact Or.inr (List.mem_cons_of_mem _ later)
    · exact (ih found).imp_right (List.mem_cons_of_mem _)

/-- **In a space the directory holds the listed tokens**, and they verify at their issue time. -/
theorem materializeMemberships_ok {state after : StoreState}
    (anchored : verifyGenesis P state.genesisToken = .ok genesis)
    (done : materializeMemberships P state = .ok after) :
    (∀ token, token ∈ after.memberships ↔ Listed P genesis state.candidates token) ∧
      (∀ token, Listed P genesis state.candidates token →
        ∃ grant, verifyGrantAtIssuance P token genesis = .ok grant) ∧
      after.localMembership ∈ after.memberships := by
  unfold materializeMemberships at done
  rw [anchored] at done
  obtain ⟨byToken, gathered, rest⟩ := bind_ok done
  obtain ⟨owner, verified, rest⟩ := bind_ok rest
  obtain ⟨canonical, chosen, rest⟩ := bind_ok rest
  cases rest
  have held := gatherMemberships_iff gathered
  have done := gatherMemberships_gathering (gathering_start _) gathered
  have entries : ∀ grant, grant ∈ (mapValues byToken).mergeSort issuedBefore ↔
      ∃ token : String, byToken[token]? = some grant := fun grant =>
    List.mem_mergeSort.trans (mem_mapValues_iff byToken grant)
  have tokens : ∀ token, token ∈ ((mapValues byToken).mergeSort issuedBefore).map
      VerifiedGrant.token ↔ Listed P genesis state.candidates token := by
    intro token
    rw [List.mem_map]
    constructor
    · rintro ⟨grant, member, rfl⟩
      obtain ⟨key, found⟩ := (entries grant).mp member
      obtain ⟨listed, accepted⟩ := (held key grant).mp found
      rw [verifyGrantAtIssuance_token accepted]
      exact listed
    · intro listed
      obtain ⟨grant, found⟩ := done.complete listed
      exact ⟨grant, (entries grant).mpr ⟨token, found⟩,
        verifyGrantAtIssuance_token ((held token grant).mp found).2⟩
  refine ⟨tokens, ?_, ?_⟩
  · intro token listed
    obtain ⟨grant, found⟩ := done.complete listed
    exact ⟨grant, ((held token grant).mp found).2⟩
  · show canonical.token ∈ ((mapValues byToken).mergeSort issuedBefore).map VerifiedGrant.token
    rcases canonicalLocal_mem chosen with rfl | member
    · rw [tokens, verifyGrantAtIssuance_token (wrap_ok_iff.mp verified)]
      refine .here ?_
      simp [StoreState.candidates]
    · exact List.mem_map.mpr ⟨canonical, member, rfl⟩

/-- **The directory has no forks.** -/
theorem materializeMemberships_serials {state after : StoreState}
    (anchored : verifyGenesis P state.genesisToken = .ok genesis)
    (done : materializeMemberships P state = .ok after) {first second : String}
    {left right : VerifiedGrant} (listed : Listed P genesis state.candidates first)
    (listed' : Listed P genesis state.candidates second)
    (verified : verifyGrantAtIssuance P first genesis = .ok left)
    (verified' : verifyGrantAtIssuance P second genesis = .ok right)
    (same : left.document.serial = right.document.serial) : first = second := by
  unfold materializeMemberships at done
  rw [anchored] at done
  obtain ⟨byToken, gathered, _⟩ := bind_ok done
  refine gatherMemberships_serials (fun token grant held => ?_) gathered
    ((gatherMemberships_iff gathered _ _).mpr ⟨listed, verified⟩)
    ((gatherMemberships_iff gathered _ _).mpr ⟨listed', verified'⟩) same
  rw [ExtTreeMap.getElem?_empty] at held
  cases held

theorem Listed.mono {first second : List String}
    (inside : ∀ token ∈ first, Listed P genesis second token) {token : String}
    (listed : Listed P genesis first token) : Listed P genesis second token := by
  induction listed with
  | here member => exact inside _ member
  | issuer _ verified embedded ih => exact .issuer ih verified embedded

/-- **A store whose memberships form a small closed set without forks** is brought into canonical
order. -/
theorem materializeMemberships_succeeds {known : List VerifiedGrant} {state : StoreState}
    {owner : VerifiedGrant} (anchored : verifyGenesis P state.genesisToken = .ok genesis)
    (gatherable : Gatherable P genesis known)
    (inside : ∀ token ∈ state.candidates, token ∈ known.map VerifiedGrant.token)
    (member : owner ∈ known) (own : owner.token = state.localMembership) :
    ∃ after, materializeMemberships P state = .ok after := by
  have enough : state.candidates.length +
      (maxMembershipCandidates - (∅ : ExtTreeMap String VerifiedGrant).size)
        ≤ gatherFuel state.candidates := by
    rw [ExtTreeMap.size_empty]
    exact le_rfl
  obtain ⟨byToken, gathered⟩ : ∃ byToken, gatherMemberships P genesis (gatherFuel state.candidates)
      state.candidates ∅ ∅ = .ok byToken := by
    refine gatherMemberships_succeeds gatherable enough inside
      (fun _ absent => absurd absent ExtTreeMap.not_mem_empty) fun serial token held => ?_
    rw [ExtTreeMap.getElem?_empty] at held
    cases held
  have listed : ∀ membership ∈ (mapValues byToken).mergeSort issuedBefore, membership ∈ known := by
    intro membership found
    obtain ⟨token, held⟩ := (mem_mapValues_iff byToken membership).mp (List.mem_mergeSort.mp found)
    obtain ⟨reached, verified⟩ := (gatherMemberships_iff gathered token membership).mp held
    obtain ⟨grant, member, rfl⟩ := List.mem_map.mp (gatherable.listed inside reached)
    have same := gatherable.verified grant member
    rw [verified, Except.ok.injEq] at same
    exact same ▸ member
  obtain ⟨canonical, chosen⟩ : ∃ canonical, canonicalLocal owner owner
      ((mapValues byToken).mergeSort issuedBefore) = .ok canonical :=
    canonicalLocal_succeeds fun membership found =>
      gatherable.keys membership (listed membership found) owner member
  have ownVerified : wrap .verifyLocalMembership
      (verifyGrantAtIssuance P state.localMembership genesis) = .ok owner :=
    wrap_ok_iff.mpr (own ▸ gatherable.verified owner member)
  refine ⟨{ state with
    localMembership := canonical.token
    memberships := ((mapValues byToken).mergeSort issuedBefore).map VerifiedGrant.token }, ?_⟩
  unfold materializeMemberships
  rw [anchored]
  exact bind_ok_iff.mpr ⟨byToken, gathered, bind_ok_iff.mpr ⟨owner, ownVerified,
    bind_ok_iff.mpr ⟨canonical, chosen, rfl⟩⟩⟩

/-! ### A store that holds such a set -/

/-- A store of a space, without denials, whose memberships are all in a set. -/
structure Holds (P : Primitives) (genesis : VerifiedGenesis) (known : List VerifiedGrant)
    (state : StoreState) : Prop where
  anchored : verifyGenesis P state.genesisToken = .ok genesis
  owner : state.localMembership ∈ known.map VerifiedGrant.token
  members : ∀ token ∈ state.candidates, token ∈ known.map VerifiedGrant.token
  denials : state.revocations = []

theorem verifyGenesis_empty : verifyGenesis P "" ≠ .ok genesis := by
  intro accepted
  obtain ⟨signed, parsed, _⟩ := bind_ok accepted
  exact absurd rfl (not_or.mp (guard_ok parsed).1).1

theorem verifyGrantAtIssuance_empty {grant : VerifiedGrant} :
    verifyGrantAtIssuance P "" genesis ≠ .ok grant := by
  intro accepted
  obtain ⟨signed, parsed, _⟩ := bind_ok accepted
  exact absurd rfl (not_or.mp (guard_ok parsed).1).1

theorem Gatherable.token_ne_empty {known : List VerifiedGrant} (gatherable : Gatherable P genesis known)
    {token : String} (listed : token ∈ known.map VerifiedGrant.token) : token ≠ "" := by
  obtain ⟨grant, member, rfl⟩ := List.mem_map.mp listed
  intro none
  have verified := gatherable.verified grant member
  rw [none] at verified
  exact verifyGrantAtIssuance_empty verified

theorem Holds.materialized {known : List VerifiedGrant} {state : StoreState}
    (holds : Holds P genesis known state) (gatherable : Gatherable P genesis known) :
    ∃ after, materializeMemberships P state = .ok after ∧ Holds P genesis known after ∧
      after.invitations = state.invitations := by
  obtain ⟨owner, member, own⟩ := List.mem_map.mp holds.owner
  obtain ⟨after, done⟩ := materializeMemberships_succeeds holds.anchored gatherable holds.members
    member own
  obtain ⟨tokens, _, localHeld⟩ := materializeMemberships_ok holds.anchored done
  have listed : ∀ token ∈ after.memberships, token ∈ known.map VerifiedGrant.token :=
    fun token held => gatherable.listed holds.members ((tokens token).mp held)
  obtain ⟨_, _, rfl⟩ := materializeMemberships_shape done
  refine ⟨_, done, ⟨holds.anchored, listed _ localHeld, ?_, holds.denials⟩, rfl⟩
  intro token candidate
  rcases List.mem_append.mp candidate with directory | issued
  · rcases List.mem_append.mp directory with held | owned
    · exact listed token held
    · rw [List.mem_singleton.mp owned]
      exact listed _ localHeld
  · exact holds.members token (List.mem_append_right _ issued)

theorem Holds.loaded {known : List VerifiedGrant} {state : StoreState}
    (holds : Holds P genesis known state) (gatherable : Gatherable P genesis known) :
    ∃ after, load P state = .ok after ∧ Holds P genesis known after ∧
      after.invitations = state.invitations := by
  obtain ⟨after, done, still, same⟩ := holds.materialized gatherable
  refine ⟨after, guard_ok_iff.mpr ⟨?_, bind_ok_iff.mpr ⟨after, done, ?_⟩⟩, still, same⟩
  · rintro (none | none)
    · exact verifyGenesis_empty (none ▸ holds.anchored)
    · exact gatherable.token_ne_empty holds.owner none
  · rw [still.denials]
    rfl

theorem Holds.applies {known : List VerifiedGrant} {state : StoreState}
    (holds : Holds P genesis known state) (gatherable : Gatherable P genesis known)
    {tokens : List String} {now : ℤ} (some : tokens ≠ [])
    (few : tokens.length ≤ maxMembershipCandidates) (dated : 0 < unix now)
    (inside : ∀ token ∈ tokens, token ∈ known.map VerifiedGrant.token) :
    ∃ after, StoreCall.run P true state (.applyMemberships tokens now) = .ok (none, after) := by
  obtain ⟨read, loaded, held, _⟩ := holds.loaded gatherable
  have joined : Holds P genesis known { read with memberships := read.memberships ++ tokens } := by
    refine ⟨held.anchored, held.owner, fun token candidate => ?_, held.denials⟩
    rcases List.mem_append.mp candidate with directory | issued
    · rcases List.mem_append.mp directory with members | owned
      · rcases List.mem_append.mp members with old | new
        · exact held.members token (List.mem_append_left _ (List.mem_append_left _ old))
        · exact inside token new
      · rw [List.mem_singleton.mp owned]
        exact held.owner
    · exact held.members token (List.mem_append_right _ issued)
  obtain ⟨filed, ordered, filedHolds, _⟩ := joined.materialized gatherable
  obtain ⟨changed, finished, changedHolds⟩ : ∃ changed,
      Peer.applyMemberships P tokens now read = .ok changed ∧ Holds P genesis known changed := by
    by_cases new : filed.memberships.any fun token => token ∉ read.memberships
    · refine ⟨{ filed with updatedAt := unix now }, bind_ok_iff.mpr ⟨filed, ordered, ?_⟩,
        filedHolds.anchored, filedHolds.owner, filedHolds.members, filedHolds.denials⟩
      rw [if_pos new]
      rfl
    · refine ⟨filed, bind_ok_iff.mpr ⟨filed, ordered, ?_⟩, filedHolds⟩
      rw [if_neg new]
      rfl
  obtain ⟨after, reordered, _⟩ := changedHolds.materialized gatherable
  have stored : write P true changed = .ok after := bind_ok_iff.mpr ⟨after, reordered, rfl⟩
  refine ⟨after, guard_ok_iff.mpr ⟨?_, bind_ok_iff.mpr ⟨after, bind_ok_iff.mpr ⟨read, loaded,
    bind_ok_iff.mpr ⟨changed, finished, stored⟩⟩, rfl⟩⟩⟩
  rintro (none | many | early)
  · exact some none
  · omega
  · omega

/-! ### The directory after new memberships -/

theorem materializeMemberships_listed {state after : StoreState}
    (anchored : verifyGenesis P state.genesisToken = .ok genesis)
    (done : materializeMemberships P state = .ok after) (token : String) :
    Listed P genesis after.candidates token ↔ Listed P genesis state.candidates token := by
  obtain ⟨tokens, _, localHeld⟩ := materializeMemberships_ok anchored done
  constructor
  · refine Listed.mono fun found candidate => ?_
    rcases List.mem_append.mp candidate with directory | issued
    · rcases List.mem_append.mp directory with held | owned
      · exact (tokens found).mp held
      · rw [List.mem_singleton.mp owned]
        exact (tokens _).mp localHeld
    · obtain ⟨_, _, rfl⟩ := materializeMemberships_shape done
      exact .here (List.mem_append_right _ issued)
  · refine Listed.mono fun found candidate => .here ?_
    exact List.mem_append_left _ (List.mem_append_left _ ((tokens found).mpr (.here candidate)))

theorem fileAll_candidates (state : StoreState) (docs : List Revocation) :
    (state.fileAll docs).candidates = state.candidates := by
  rw [StoreState.fileAll_eq]
  unfold StoreState.candidates
  rw [List.map_map]
  congr 3
  funext invite
  obtain ⟨revokedAt, shape⟩ := invite.deniedAll_shape
    (batchTimes state.localMembership invite.batchID docs)
  show (invite.deniedAll _).issuedMembership = invite.issuedMembership
  rw [shape]

theorem load_listed {disk state : StoreState}
    (anchored : verifyGenesis P disk.genesisToken = .ok genesis) (done : load P disk = .ok state) :
    verifyGenesis P state.genesisToken = .ok genesis ∧
      ∀ token, Listed P genesis state.candidates token ↔ Listed P genesis disk.candidates token := by
  unfold load at done
  obtain ⟨_, done⟩ := guard_ok done
  obtain ⟨canonical, ordered, done⟩ := bind_ok done
  have listed := materializeMemberships_listed anchored ordered
  obtain ⟨_, _, rfl⟩ := materializeMemberships_shape ordered
  split_ifs at done with denials
  · obtain ⟨⟨found, set⟩, _, filed⟩ := bind_ok done
    obtain ⟨docs, rfl, _⟩ := materialize_fold_ok filed
    refine ⟨?_, fun token => ?_⟩
    · rw [StoreState.fileAll_eq]
      exact anchored
    · rw [fileAll_candidates]
      exact listed token
  · cases done
    exact ⟨anchored, listed⟩

theorem mem_candidates {state : StoreState} {token : String} :
    token ∈ state.candidates ↔ token ∈ state.memberships ∨ token = state.localMembership ∨
      token ∈ (state.invitations.map Invitation.issuedMembership).filter (· ≠ "") := by
  unfold StoreState.candidates
  rw [List.mem_append, List.mem_append, List.mem_singleton, or_assoc]

/-- What a store knows after some tokens were applied. -/
structure Applied (P : Primitives) (genesis : VerifiedGenesis) (roots : List String)
    (after : StoreState) : Prop where
  tokens : ∀ token, token ∈ after.memberships ↔ Listed P genesis roots token
  verified : ∀ token, Listed P genesis roots token →
    ∃ grant, verifyGrantAtIssuance P token genesis = .ok grant
  owner : after.localMembership ∈ after.memberships
  serials : ∀ first second left right, Listed P genesis roots first → Listed P genesis roots second →
    verifyGrantAtIssuance P first genesis = .ok left →
    verifyGrantAtIssuance P second genesis = .ok right →
    left.document.serial = right.document.serial → first = second

theorem materializeMemberships_applied {state after : StoreState} {roots : List String}
    (anchored : verifyGenesis P state.genesisToken = .ok genesis)
    (same : ∀ token, Listed P genesis state.candidates token ↔ Listed P genesis roots token)
    (done : materializeMemberships P state = .ok after) : Applied P genesis roots after := by
  obtain ⟨tokens, verified, owner⟩ := materializeMemberships_ok anchored done
  refine ⟨fun token => (tokens token).trans (same token),
    fun token listed => verified token ((same token).mpr listed), owner, ?_⟩
  intro first second left right listed listed' accepted accepted' serial
  exact materializeMemberships_serials anchored done ((same first).mpr listed)
    ((same second).mpr listed') accepted accepted' serial

/-- **Applying memberships** leaves the directory of everything known before and of the new tokens. -/
theorem applyMemberships_applied {disk after : StoreState} {tokens : List String} {later : ℤ}
    {written : Bool} {answer : Option String}
    (anchored : verifyGenesis P disk.genesisToken = .ok genesis)
    (applied : StoreCall.run P written disk (.applyMemberships tokens later) = .ok (answer, after)) :
    Applied P genesis (disk.candidates ++ tokens) after := by
  obtain ⟨_, applied⟩ := guard_ok applied
  obtain ⟨stored, mutated, same⟩ := bind_ok applied
  cases same
  obtain ⟨state, loaded, mutated⟩ := bind_ok mutated
  obtain ⟨changed, operated, written⟩ := bind_ok mutated
  obtain ⟨filed, ordered, finished⟩ := bind_ok operated
  obtain ⟨canonical, reordered, stored⟩ := bind_ok written
  obtain ⟨_, stored⟩ := guard_ok stored
  cases stored
  obtain ⟨anchoredState, listedState⟩ := load_listed anchored loaded
  have joined : ∀ token,
      Listed P genesis { state with memberships := state.memberships ++ tokens }.candidates token ↔
        Listed P genesis (disk.candidates ++ tokens) token := by
    intro token
    constructor
    · refine Listed.mono fun found candidate => ?_
      have old : found ∈ state.candidates → Listed P genesis (disk.candidates ++ tokens) found :=
        fun member => ((listedState found).mp (.here member)).mono fun other inside =>
          .here (List.mem_append_left _ inside)
      rcases mem_candidates.mp candidate with directory | rest
      · rcases List.mem_append.mp directory with held | new
        · exact old (mem_candidates.mpr (Or.inl held))
        · exact .here (List.mem_append_right _ new)
      · exact old (mem_candidates.mpr (Or.inr rest))
    · refine Listed.mono fun found candidate => ?_
      rcases List.mem_append.mp candidate with held | new
      · refine ((listedState found).mpr (.here held)).mono fun other inside => .here ?_
        rcases mem_candidates.mp inside with directory | rest
        · exact mem_candidates.mpr (Or.inl (List.mem_append_left _ directory))
        · exact mem_candidates.mpr (Or.inr rest)
      · exact .here (mem_candidates.mpr (Or.inl (List.mem_append_right _ new)))
  have listedFiled : ∀ token, Listed P genesis filed.candidates token ↔ Listed P genesis
      { state with memberships := state.memberships ++ tokens }.candidates token :=
    materializeMemberships_listed anchoredState ordered
  have anchoredFiled : verifyGenesis P filed.genesisToken = .ok genesis := by
    obtain ⟨_, _, rfl⟩ := materializeMemberships_shape ordered
    exact anchoredState
  have kept : verifyGenesis P changed.genesisToken = .ok genesis ∧
      changed.candidates = filed.candidates := by
    split_ifs at finished <;> cases finished <;> exact ⟨anchoredFiled, rfl⟩
  refine materializeMemberships_applied kept.1 (fun token => ?_) reordered
  rw [kept.2, listedFiled, joined]

/-! ### The membership that counts -/

/-- One token of the loop of `canonicalPeerMemberships`. -/
def chooseMembership (P : Primitives) (genesis : VerifiedGenesis)
    (byPeer : ExtTreeMap String VerifiedGrant) (token : String) :
    Except DocumentError (ExtTreeMap String VerifiedGrant) :=
  match verifyGrantAtIssuance P token genesis with
  | .error error => .error ⟨error.kind, "verify Peer Space member directory: " ++ error.text⟩
  | .ok membership =>
    .ok (crown membershipCanonicalAfter (fun grant => grant.document.subjectPeerID) byPeer
      membership)

/-- `canonicalPeerMemberships`: of the memberships of one device, the canonical one. -/
def canonicalPeerMemberships (P : Primitives) (state : StoreState) (genesis : VerifiedGenesis) :
    Except DocumentError (ExtTreeMap String VerifiedGrant) :=
  (state.memberships ++ [state.localMembership]).foldlM (chooseMembership P genesis) ∅

theorem membershipCanonicalAfter_iff {candidate current : VerifiedGrant} :
    membershipCanonicalAfter candidate current = true ↔
      current.document.issuedAt < candidate.document.issuedAt ∨
        (candidate.document.issuedAt = current.document.issuedAt ∧
          (candidate.document.serial < current.document.serial ∨
            (candidate.document.serial = current.document.serial ∧
              candidate.token < current.token))) := by
  unfold membershipCanonicalAfter
  by_cases issued : candidate.document.issuedAt = current.document.issuedAt
  · by_cases serial : candidate.document.serial = current.document.serial
    · simp [issued, serial]
    · simp [issued, serial]
  · simp [issued]

theorem membershipCanonicalAfter_asymm (left right : VerifiedGrant)
    (after : membershipCanonicalAfter left right = true) :
    membershipCanonicalAfter right left = false := by
  rw [Bool.eq_false_iff]
  intro back
  rw [membershipCanonicalAfter_iff] at after back
  rcases after with later | ⟨same, smaller | ⟨serial, token⟩⟩ <;>
    rcases back with later' | ⟨same', smaller' | ⟨serial', token'⟩⟩
  · omega
  · omega
  · omega
  · omega
  · exact lt_asymm smaller smaller'
  · exact smaller.ne serial'.symm
  · omega
  · exact smaller'.ne serial.symm
  · exact lt_asymm token token'

theorem membershipCanonicalAfter_irrefl (membership : VerifiedGrant) :
    membershipCanonicalAfter membership membership ≠ true := by
  intro self
  rw [membershipCanonicalAfter_asymm membership membership self] at self
  cases self

theorem membershipCanonicalAfter_trans (left middle right : VerifiedGrant)
    (first : membershipCanonicalAfter left middle = true)
    (second : membershipCanonicalAfter middle right = true) :
    membershipCanonicalAfter left right = true := by
  rw [membershipCanonicalAfter_iff] at first second ⊢
  rcases first with later | ⟨same, smaller | ⟨serial, token⟩⟩ <;>
    rcases second with later' | ⟨same', smaller' | ⟨serial', token'⟩⟩
  · exact Or.inl (later'.trans later)
  · exact Or.inl (same' ▸ later)
  · exact Or.inl (same' ▸ later)
  · exact Or.inl (same.symm ▸ later')
  · exact Or.inr ⟨same.trans same', Or.inl (smaller.trans smaller')⟩
  · exact Or.inr ⟨same.trans same', Or.inl (serial' ▸ smaller)⟩
  · exact Or.inl (same.symm ▸ later')
  · exact Or.inr ⟨same.trans same', Or.inl (serial.symm ▸ smaller')⟩
  · exact Or.inr ⟨same.trans same', Or.inr ⟨serial.trans serial', token.trans token'⟩⟩

theorem membershipCanonicalAfter_total {left right : VerifiedGrant} (apart : left.token ≠ right.token) :
    membershipCanonicalAfter left right = true ∨ membershipCanonicalAfter right left = true := by
  rw [membershipCanonicalAfter_iff, membershipCanonicalAfter_iff]
  rcases lt_trichotomy left.document.issuedAt right.document.issuedAt with before | same | after
  · exact Or.inr (Or.inl before)
  · rcases lt_trichotomy left.document.serial right.document.serial with smaller | equal | larger
    · exact Or.inl (Or.inr ⟨same, Or.inl smaller⟩)
    · rcases lt_or_gt_of_ne apart with first | second
      · exact Or.inl (Or.inr ⟨same, Or.inr ⟨equal, first⟩⟩)
      · exact Or.inr (Or.inr ⟨same.symm, Or.inr ⟨equal.symm, second⟩⟩)
    · exact Or.inr (Or.inr ⟨same.symm, Or.inl larger⟩)
  · exact Or.inl (Or.inl after)

theorem canonicalPeerMemberships_fold (tokens : List String)
    (byPeer : ExtTreeMap String VerifiedGrant)
    (verified : ∀ token ∈ tokens, ∃ grant, verifyGrantAtIssuance P token genesis = .ok grant) :
    ∃ grants : List VerifiedGrant,
      (∀ grant, grant ∈ grants ↔ grant.token ∈ tokens ∧
        verifyGrantAtIssuance P grant.token genesis = .ok grant) ∧
      tokens.foldlM (chooseMembership P genesis) byPeer
        = .ok (grants.foldl
          (crown membershipCanonicalAfter fun grant => grant.document.subjectPeerID) byPeer) := by
  induction tokens generalizing byPeer with
  | nil => exact ⟨[], by simp, rfl⟩
  | cons token rest ih =>
    obtain ⟨first, accepted⟩ := verified token List.mem_cons_self
    obtain ⟨grants, members, done⟩ := ih
      (crown membershipCanonicalAfter (fun grant => grant.document.subjectPeerID) byPeer first)
      fun found member => verified found (List.mem_cons_of_mem _ member)
    refine ⟨first :: grants, fun grant => ?_, ?_⟩
    · rw [List.mem_cons, List.mem_cons, members]
      constructor
      · rintro (rfl | ⟨listed, again⟩)
        · have named := verifyGrantAtIssuance_token accepted
          exact ⟨Or.inl named, named ▸ accepted⟩
        · exact ⟨Or.inr listed, again⟩
      · rintro ⟨rfl | listed, again⟩
        · rw [accepted, Except.ok.injEq] at again
          exact Or.inl again.symm
        · exact Or.inr ⟨listed, again⟩
    · have chosen : chooseMembership P genesis byPeer token = .ok (crown membershipCanonicalAfter
          (fun grant => grant.document.subjectPeerID) byPeer first) := by
        rw [chooseMembership, accepted]
      rw [List.foldlM_cons, chosen]
      exact done

/-- **The membership of a device that counts** wins against every other one of that device. -/
theorem canonicalPeerMemberships_champion {state : StoreState}
    (verified : ∀ token ∈ state.memberships ++ [state.localMembership],
      ∃ grant, verifyGrantAtIssuance P token genesis = .ok grant) :
    ∃ directory, canonicalPeerMemberships P state genesis = .ok directory ∧
      ∀ member : VerifiedGrant, member.token ∈ state.memberships ++ [state.localMembership] →
        verifyGrantAtIssuance P member.token genesis = .ok member →
        ∃ canonical : VerifiedGrant, directory[member.document.subjectPeerID]? = some canonical ∧
          canonical.token ∈ state.memberships ++ [state.localMembership] ∧
          verifyGrantAtIssuance P canonical.token genesis = .ok canonical ∧
          canonical.document.subjectPeerID = member.document.subjectPeerID ∧
          ∀ other : VerifiedGrant, other.token ∈ state.memberships ++ [state.localMembership] →
            verifyGrantAtIssuance P other.token genesis = .ok other →
            other.document.subjectPeerID = member.document.subjectPeerID → other ≠ canonical →
            membershipCanonicalAfter canonical other = true := by
  obtain ⟨grants, members, done⟩ := canonicalPeerMemberships_fold
    (state.memberships ++ [state.localMembership]) ∅ verified
  refine ⟨_, done, fun member listed accepted => ?_⟩
  have own : ∀ grant, grant ∈ grants.filter (fun grant =>
      decide (grant.document.subjectPeerID = member.document.subjectPeerID)) ↔
        (grant.token ∈ state.memberships ++ [state.localMembership] ∧
          verifyGrantAtIssuance P grant.token genesis = .ok grant) ∧
          grant.document.subjectPeerID = member.document.subjectPeerID := by
    intro grant
    rw [List.mem_filter, members, decide_eq_true_eq]
  obtain ⟨canonical, champion⟩ : ∃ canonical, Champion membershipCanonicalAfter
      (grants.filter fun grant =>
        decide (grant.document.subjectPeerID = member.document.subjectPeerID)) canonical :=
    exists_champion (List.ne_nil_of_mem ((own member).mpr ⟨⟨listed, accepted⟩, rfl⟩))
    membershipCanonicalAfter_asymm membershipCanonicalAfter_trans (by
      intro left leftMember right rightMember different
      refine membershipCanonicalAfter_total fun same => different ?_
      have leftAccepted := ((own left).mp leftMember).1.2
      rw [same, ((own right).mp rightMember).1.2, Except.ok.injEq] at leftAccepted
      exact leftAccepted.symm)
  obtain ⟨⟨listed', accepted'⟩, subject⟩ := (own canonical).mp champion.member
  refine ⟨canonical, ?_, listed', accepted', subject, ?_⟩
  · rw [getElem?_foldl_crown, ExtTreeMap.getElem?_empty, foldl_challenge_eq champion]
  · intro other otherListed otherAccepted sameSubject different
    exact (champion.beats other ((own other).mpr ⟨⟨otherListed, otherAccepted⟩, sameSubject⟩)
      different).1

end Atterm.Peer
