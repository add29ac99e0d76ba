/-
**A membership over time.**

Everything `verifyGrant` checks about a token is settled by the token, except the two times of each
grant embedded in it. So once a membership has been verified, at another time it is accepted exactly
when every grant of its chain is in time, and access lasts to the first expiry on the chain.

* `embeddedChain` — the grants the verifier walks through;
* `verifyGrantFrom_at_iff` — acceptance at another time;
* `accessEnd` — the first expiry on a chain.
-/

import Atterm.Peer.GrantRules

namespace Atterm.Peer

open Atterm.Foundation

/-- A grant has been issued, within the tolerated skew, and has not expired. -/
def DeviceGrant.InTime (grant : DeviceGrant) (now : ℤ) : Prop :=
  grant.issuedAt ≤ unix (now + 5 * minute) ∧ (grant.expiresAt = 0 ∨ unix now < grant.expiresAt)

instance (grant : DeviceGrant) (now : ℤ) : Decidable (grant.InTime now) :=
  inferInstanceAs (Decidable (_ ∧ _))

/-- The grants the verifier walks through from a token, at most `remaining` of them. -/
def embeddedChain (P : Primitives) (genesis : VerifiedGenesis) : ℕ → String → List DeviceGrant
  | 0, _ => []
  | remaining + 1, token =>
    match parseDocument membershipTag P.readGrant token with
    | .error _ => []
    | .ok signed =>
      if signed.document.decoded.issuerPeerID = genesis.document.creatorPeerID then
        [signed.document.decoded]
      else
        signed.document.decoded ::
          embeddedChain P genesis remaining signed.document.decoded.issuerMembership

def ValidAt (P : Primitives) (genesis : VerifiedGenesis) (token : String) (now : ℤ) : Prop :=
  ∃ grant, verifyGrant P token genesis now = .ok grant

variable {P : Primitives} {genesis : VerifiedGenesis}

theorem embeddedChain_of_parsed {remaining : ℕ} {token : String} {signed : Signed GrantPayload}
    (parsed : parseDocument membershipTag P.readGrant token = .ok signed) :
    embeddedChain P genesis (remaining + 1) token =
      if signed.document.decoded.issuerPeerID = genesis.document.creatorPeerID then
        [signed.document.decoded]
      else
        signed.document.decoded ::
          embeddedChain P genesis remaining signed.document.decoded.issuerMembership := by
  rw [embeddedChain, parsed]

theorem ValidGrant.at_iff {now later : ℤ} {publicKey : Bytes} {doc : DeviceGrant}
    (valid : ValidGrant P genesis now publicKey doc) :
    ValidGrant P genesis later publicKey doc ↔ doc.InTime later := by
  constructor
  · intro again
    exact ⟨again.issuedAt_le, again.unexpired⟩
  · intro inTime
    exact { valid with issuedAt_le := inTime.1, unexpired := inTime.2 }

theorem verifyGrantFrom_same {now later : ℤ} {remaining remaining' : ℕ} {token : String}
    {first second : VerifiedGrant}
    (left : verifyGrantFrom P genesis now remaining token = .ok first)
    (right : verifyGrantFrom P genesis later remaining' token = .ok second) : first = second := by
  cases remaining with
  | zero => cases left
  | succ remaining =>
  cases remaining' with
  | zero => cases right
  | succ remaining' =>
    obtain ⟨signed, authority, link⟩ := verifyGrantFrom_ok_iff.mp left
    obtain ⟨signed', authority', link'⟩ := verifyGrantFrom_ok_iff.mp right
    have parsed := link.parsed
    rw [link'.parsed, Except.ok.injEq] at parsed
    subst parsed
    have document : first.document = second.document := by
      rw [link.document_eq, link'.document_eq]
    have key := link.publicKey
    have wrapping := link.wrappingPublicKey
    rw [document, link'.publicKey, Except.ok.injEq] at key
    rw [document, link'.wrappingPublicKey, Except.ok.injEq] at wrapping
    obtain ⟨token₁, document₁, publicKey₁, wrapping₁⟩ := first
    obtain ⟨token₂, document₂, publicKey₂, wrapping₂⟩ := second
    have tokens : token₁ = token₂ := link.token_eq.trans link'.token_eq.symm
    cases tokens
    cases document
    cases key
    cases wrapping
    rfl

/-- **Acceptance at another time**: every grant of the chain is in time. -/
theorem verifyGrantFrom_at_iff {now later : ℤ} {remaining : ℕ} {token : String}
    {grant : VerifiedGrant} (accepted : verifyGrantFrom P genesis now remaining token = .ok grant) :
    verifyGrantFrom P genesis later remaining token = .ok grant ↔
      ∀ entry ∈ embeddedChain P genesis remaining token, entry.InTime later := by
  induction remaining generalizing token grant with
  | zero => cases accepted
  | succ remaining ih =>
    obtain ⟨signed, authority, link⟩ := verifyGrantFrom_ok_iff.mp accepted
    rw [embeddedChain_of_parsed link.parsed]
    have own : ValidGrant P genesis later grant.publicKey grant.document ↔
        signed.document.decoded.InTime later := by
      rw [← link.document_eq]
      exact link.valid.at_iff
    -- the link at the other time is this one, with its own times and its issuer's checked again
    have relink : verifyGrantFrom P genesis later (remaining + 1) token = .ok grant ↔
        ValidGrant P genesis later grant.publicKey grant.document ∧
          issuerAuthority genesis grant.document (verifyGrantFrom P genesis later remaining)
            = .ok authority := by
      rw [verifyGrantFrom_ok_iff]
      constructor
      · rintro ⟨signed', authority', link'⟩
        have issued := link'.issued
        refine ⟨link'.valid, ?_⟩
        rcases issuerAuthority_ok_iff.mp link.issued with
            ⟨creator, same⟩ | ⟨delegated, embedded, issuer, verified, named, same⟩ <;>
          rcases issuerAuthority_ok_iff.mp issued with
            ⟨creator', same'⟩ | ⟨delegated', _, issuer', verified', named', same'⟩
        · rw [issued, same, same']
        · exact absurd creator delegated'
        · exact absurd creator' delegated
        · rw [issued, same, same', verifyGrantFrom_same verified verified']
      · rintro ⟨valid, issued⟩
        exact ⟨signed, authority, { link with valid := valid, issued := issued }⟩
    rw [relink, own]
    rcases issuerAuthority_ok_iff.mp link.issued with
      ⟨creator, same⟩ | ⟨delegated, embedded, issuer, verified, named, same⟩
    · rw [link.document_eq] at creator
      rw [if_pos creator, List.forall_mem_singleton, issuerAuthority_ok_iff, link.document_eq]
      exact and_iff_left (Or.inl ⟨creator, same⟩)
    · have again := ih verified
      have issued : issuerAuthority genesis grant.document
          (verifyGrantFrom P genesis later remaining) = .ok authority ↔
            verifyGrantFrom P genesis later remaining grant.document.issuerMembership
              = .ok issuer := by
        rw [issuerAuthority_ok_iff]
        constructor
        · rintro (⟨creator, _⟩ | ⟨_, _, issuer', verified', _⟩)
          · exact absurd creator delegated
          · rw [verified', verifyGrantFrom_same verified verified']
        · exact fun verified' => Or.inr ⟨delegated, embedded, issuer, verified', named, same⟩
      rw [issued, again, link.document_eq]
      rw [link.document_eq] at delegated
      rw [if_neg delegated, List.forall_mem_cons]

theorem embeddedChain_succ {now : ℤ} {remaining : ℕ} {token : String} {grant : VerifiedGrant}
    (accepted : verifyGrantFrom P genesis now remaining token = .ok grant) :
    embeddedChain P genesis (remaining + 1) token = embeddedChain P genesis remaining token := by
  induction remaining generalizing token grant with
  | zero => cases accepted
  | succ remaining ih =>
    obtain ⟨signed, authority, link⟩ := verifyGrantFrom_ok_iff.mp accepted
    rw [embeddedChain_of_parsed link.parsed, embeddedChain_of_parsed link.parsed]
    rcases issuerAuthority_ok_iff.mp link.issued with
      ⟨creator, _⟩ | ⟨delegated, _, issuer, verified, _⟩
    · rw [link.document_eq] at creator
      rw [if_pos creator, if_pos creator]
    · rw [link.document_eq] at delegated verified
      rw [if_neg delegated, if_neg delegated, ih verified]

theorem validAt_iff {now later : ℤ} {token : String} {grant : VerifiedGrant}
    (accepted : verifyGrant P token genesis now = .ok grant) :
    ValidAt P genesis token later ↔
      ∀ entry ∈ embeddedChain P genesis chainLimit token, entry.InTime later := by
  have iff : verifyGrant P token genesis later = .ok grant ↔ _ := verifyGrantFrom_at_iff accepted
  rw [← iff]
  constructor
  · rintro ⟨found, valid⟩
    rw [verifyGrantFrom_same accepted valid]
    exact valid
  · exact fun valid => ⟨grant, valid⟩

/-! ### How long access lasts -/

/-- The end of a grant; a grant without one lasts for ever. -/
def DeviceGrant.expiry (grant : DeviceGrant) : WithTop ℤ :=
  if grant.expiresAt = 0 then ⊤ else grant.expiresAt

def accessEnd (chain : List DeviceGrant) : WithTop ℤ :=
  chain.foldr (fun grant soonest => min grant.expiry soonest) ⊤

theorem DeviceGrant.lt_expiry_iff (grant : DeviceGrant) (time : ℤ) :
    (time : WithTop ℤ) < grant.expiry ↔ grant.expiresAt = 0 ∨ time < grant.expiresAt := by
  unfold DeviceGrant.expiry
  by_cases forever : grant.expiresAt = 0
  · simp [forever]
  · simp [forever]

theorem lt_accessEnd_iff (chain : List DeviceGrant) (time : ℤ) :
    (time : WithTop ℤ) < accessEnd chain ↔
      ∀ grant ∈ chain, grant.expiresAt = 0 ∨ time < grant.expiresAt := by
  induction chain with
  | nil => simp [accessEnd]
  | cons grant rest ih =>
    rw [List.forall_mem_cons, ← ih, ← grant.lt_expiry_iff time]
    exact lt_min_iff

theorem forall_lt_iff_le {now : ℤ} {first last : WithTop ℤ}
    (alive : (unix now : WithTop ℤ) < first) :
    (∀ later, now ≤ later → (unix later : WithTop ℤ) < first → (unix later : WithTop ℤ) < last) ↔
      first ≤ last := by
  constructor
  · intro within
    by_contra sooner
    rw [not_le] at sooner
    obtain ⟨moment, rfl⟩ := WithTop.ne_top_iff_exists.mp sooner.ne_top
    have exact : unix (moment * second) = moment :=
      Int.mul_ediv_cancel moment (by decide)
    by_cases passed : now ≤ moment * second
    · have again := within (moment * second) passed (by rw [exact]; exact sooner)
      rw [exact] at again
      exact lt_irrefl _ again
    · have current := within now le_rfl alive
      have reached : moment ≤ unix now := by
        rw [← exact]
        exact Int.ediv_le_ediv (by decide) (not_le.mp passed).le
      exact absurd (WithTop.coe_lt_coe.mp current) (not_lt.mpr reached)
  · intro ordered later _ before
    exact before.trans_le ordered

theorem inTime_iff_of_started {chain : List DeviceGrant} {now later : ℤ}
    (started : ∀ entry ∈ chain, entry.issuedAt ≤ unix (now + 5 * minute)) (after : now ≤ later) :
    (∀ entry ∈ chain, entry.InTime later) ↔ (unix later : WithTop ℤ) < accessEnd chain := by
  rw [lt_accessEnd_iff]
  have further : unix (now + 5 * minute) ≤ unix (later + 5 * minute) :=
    Int.ediv_le_ediv (by decide) (by omega)
  constructor
  · exact fun inTime entry member => (inTime entry member).2
  · exact fun alive entry member => ⟨(started entry member).trans further, alive entry member⟩

/-- **From a time at which it is valid, a membership stays valid until its access ends.** -/
theorem validAt_iff_lt_accessEnd {now later : ℤ} {token : String} {grant : VerifiedGrant}
    (accepted : verifyGrant P token genesis now = .ok grant) (after : now ≤ later) :
    ValidAt P genesis token later ↔
      (unix later : WithTop ℤ) < accessEnd (embeddedChain P genesis chainLimit token) := by
  rw [validAt_iff accepted]
  have current := (verifyGrantFrom_at_iff accepted).mp accepted
  exact inTime_iff_of_started (fun entry member => (current entry member).1) after

/-- **Another membership covers the access of a valid one** exactly when it has started and does not
end sooner. -/
theorem covers_access_iff {now issued : ℤ} {token other : String} {grant covering : VerifiedGrant}
    (accepted : verifyGrant P token genesis now = .ok grant)
    (verified : verifyGrant P other genesis issued = .ok covering) :
    (∀ time, now ≤ time → ValidAt P genesis token time → ValidAt P genesis other time) ↔
      (∀ entry ∈ embeddedChain P genesis chainLimit other,
        entry.issuedAt ≤ unix (now + 5 * minute)) ∧
      accessEnd (embeddedChain P genesis chainLimit token) ≤
        accessEnd (embeddedChain P genesis chainLimit other) := by
  have alive := (validAt_iff_lt_accessEnd accepted le_rfl).mp ⟨grant, accepted⟩
  constructor
  · intro covers
    have started : ∀ entry ∈ embeddedChain P genesis chainLimit other,
        entry.issuedAt ≤ unix (now + 5 * minute) := fun entry member =>
      ((validAt_iff verified).mp (covers now le_rfl ⟨grant, accepted⟩) entry member).1
    refine ⟨started, (forall_lt_iff_le alive).mp fun later after before => ?_⟩
    rw [← inTime_iff_of_started started after, ← validAt_iff verified]
    exact covers later after ((validAt_iff_lt_accessEnd accepted after).mpr before)
  · rintro ⟨started, ordered⟩ time after valid
    rw [validAt_iff verified, inTime_iff_of_started started after]
    exact ((validAt_iff_lt_accessEnd accepted after).mp valid).trans_le ordered

end Atterm.Peer
