/-
**Envelopes of the end-to-end encryption.**

An envelope is the number of the cipher, a nonce and the sealed bytes, bound to the session and to the
type of its frame. The cipher and the derivation of the session keys are parameters.

* `openUnsequenced_ok_iff` — what is opened under a key, a session and a type;
* `looksLikeSealed_sealUnsequenced` — every envelope looks like one.
-/

import Atterm.Foundation.BigEndian
import Atterm.Transport.Record

namespace Atterm.Relay

open Atterm.Foundation Atterm.Transport

def cipherXChaCha20Poly1305 : UInt8 := 1
def nonceSizeX : ℕ := 24
def envelopePrefixSize : ℕ := 1 + nonceSizeX
def minEnvelopeLen : ℕ := envelopePrefixSize + 16
def sessionKeySize : ℕ := 32

/-- `chacha20poly1305.NewX` under a key of the right size, and `DeriveSessionKey`. -/
structure E2EE where
  newX : Bytes → Aead
  deriveSessionKey : (accountKey : Bytes) → (sessionID : ℕ) → Bytes

/-- The documented behaviour of the two: the cipher opens what it sealed and nothing else, and a session
key has its size. -/
structure E2EE.Correct (E : E2EE) : Prop where
  cipher : ∀ key, (E.newX key).Correct
  authentic : ∀ key nonce ciphertext aad plaintext,
    (E.newX key).openBytes nonce ciphertext aad = some plaintext →
      ciphertext = (E.newX key).sealBytes nonce plaintext aad
  derived : ∀ accountKey sessionID,
    (E.deriveSessionKey accountKey sessionID).length = sessionKeySize

inductive EnvelopeError where
  | invalidEnvelope
  | unknownCipher (id : UInt8)
  | keySize
  | authFailed
deriving DecidableEq, Repr

def looksLikeSealed (data : Bytes) : Bool :=
  decide (minEnvelopeLen ≤ data.length) && data.head? == some cipherXChaCha20Poly1305

def unsequencedAAD (sessionID : ℕ) (frameType : UInt8) : Bytes :=
  bigEndian 16 sessionID ++ [frameType]

/-- What `rand.Read` fills. -/
abbrev Nonce := { nonce : Bytes // nonce.length = nonceSizeX }

def sealUnsequenced (E : E2EE) (nonce : Nonce) (sessionKey : Bytes) (sessionID : ℕ)
    (frameType : UInt8) (plaintext : Bytes) : Except EnvelopeError Bytes :=
  if sessionKey.length ≠ sessionKeySize then .error .keySize
  else .ok (cipherXChaCha20Poly1305 :: (nonce.val ++
    (E.newX sessionKey).sealBytes nonce.val plaintext (unsequencedAAD sessionID frameType)))

def openUnsequenced (E : E2EE) (sessionKey : Bytes) (sessionID : ℕ) (frameType : UInt8)
    (envelope : Bytes) : Except EnvelopeError Bytes :=
  if envelope.length < envelopePrefixSize then .error .invalidEnvelope
  else if envelope.headD 0 ≠ cipherXChaCha20Poly1305 then .error (.unknownCipher (envelope.headD 0))
  else if sessionKey.length ≠ sessionKeySize then .error .keySize
  else
    match (E.newX sessionKey).openBytes ((envelope.drop 1).take nonceSizeX)
        ((envelope.drop 1).drop nonceSizeX) (unsequencedAAD sessionID frameType) with
    | some plaintext => .ok plaintext
    | none => .error .authFailed

variable {E : E2EE} {sessionKey envelope plaintext : Bytes} {sessionID : ℕ} {frameType : UInt8}

/-- **What is opened was sealed**, under the same key, session and type. -/
theorem openUnsequenced_ok_iff (correct : E.Correct) :
    openUnsequenced E sessionKey sessionID frameType envelope = .ok plaintext ↔
      ∃ nonce, sealUnsequenced E nonce sessionKey sessionID frameType plaintext = .ok envelope := by
  constructor
  · intro opened
    rw [openUnsequenced] at opened
    split_ifs at opened with short cipher size
    cases found : (E.newX sessionKey).openBytes ((envelope.drop 1).take nonceSizeX)
        ((envelope.drop 1).drop nonceSizeX) (unsequencedAAD sessionID frameType) with
    | none =>
      rw [found] at opened
      exact absurd opened (by simp)
    | some bytes =>
      rw [found] at opened
      obtain rfl := Except.ok.inj opened
      cases envelope with
      | nil => exact absurd (show 0 < envelopePrefixSize by decide) short
      | cons id rest =>
        have long : nonceSizeX ≤ rest.length := by
          simp only [List.length_cons, envelopePrefixSize] at short
          omega
        have nonce : (rest.take nonceSizeX).length = nonceSizeX := by
          rw [List.length_take, Nat.min_eq_left long]
        refine ⟨⟨rest.take nonceSizeX, nonce⟩, ?_⟩
        have sealed := correct.authentic _ _ _ _ _ found
        rw [sealUnsequenced, if_neg size]
        show Except.ok (cipherXChaCha20Poly1305 :: (rest.take nonceSizeX ++
          (E.newX sessionKey).sealBytes (rest.take nonceSizeX) bytes _)) = _
        rw [show rest.take nonceSizeX = ((id :: rest).drop 1).take nonceSizeX from rfl, ← sealed,
          List.take_append_drop]
        exact congrArg (fun first => Except.ok (first :: rest)) (not_not.mp cipher).symm
  · rintro ⟨⟨nonce, size⟩, sealed⟩
    rw [sealUnsequenced] at sealed
    split_ifs at sealed with key
    obtain rfl := Except.ok.inj sealed
    rw [openUnsequenced, if_neg, if_neg, if_neg key]
    · simp only [List.drop_succ_cons, List.drop_zero]
      rw [List.take_left' size, List.drop_left' size, (correct.cipher sessionKey).opens]
    · exact not_not_intro rfl
    · simp only [List.length_cons, List.length_append, envelopePrefixSize, size]
      omega

theorem looksLikeSealed_sealUnsequenced (correct : E.Correct) {nonce : Nonce}
    (sealed : sealUnsequenced E nonce sessionKey sessionID frameType plaintext = .ok envelope) :
    looksLikeSealed envelope = true := by
  rw [sealUnsequenced] at sealed
  split_ifs at sealed
  obtain rfl := Except.ok.inj sealed
  have tagged := (correct.cipher sessionKey).tagged nonce.val plaintext
    (unsequencedAAD sessionID frameType)
  simp only [looksLikeSealed, minEnvelopeLen, envelopePrefixSize, List.length_cons,
    List.length_append, nonce.property, tagged, recordTagSize, List.head?_cons, Bool.and_eq_true,
    decide_eq_true_eq, beq_self_eq_true, and_true]
  omega

theorem length_sealUnsequenced (correct : E.Correct) {nonce : Nonce}
    (sealed : sealUnsequenced E nonce sessionKey sessionID frameType plaintext = .ok envelope) :
    envelope.length = plaintext.length + minEnvelopeLen := by
  rw [sealUnsequenced] at sealed
  split_ifs at sealed
  obtain rfl := Except.ok.inj sealed
  have tagged := (correct.cipher sessionKey).tagged nonce.val plaintext
    (unsequencedAAD sessionID frameType)
  simp only [minEnvelopeLen, envelopePrefixSize, List.length_cons, List.length_append,
    nonce.property, tagged, recordTagSize]
  omega

section Sample

/-- The sample cipher under every key, and keys of the right size. -/
def sampleE2EE : E2EE where
  newX _ := sampleAead
  deriveSessionKey accountKey sessionID :=
    (accountKey ++ bigEndian 16 sessionID ++ List.replicate sessionKeySize 0).take sessionKeySize

theorem sampleE2EE_correct : sampleE2EE.Correct where
  cipher _ := sampleAead_correct
  authentic key nonce ciphertext aad plaintext opened := by
    simp only [sampleE2EE, sampleAead] at opened ⊢
    split_ifs at opened with tagged
    obtain rfl := Option.some.inj opened
    rw [← tagged, List.take_append_drop]
  derived accountKey sessionID := by
    simp [sampleE2EE, sessionKeySize]

end Sample

end Atterm.Relay
