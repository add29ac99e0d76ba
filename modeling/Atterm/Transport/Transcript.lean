/-
**The transcript of a direct handshake.**

A transcript binds the relay's authorization to both ephemeral keys. Its encoding is what proofs are
made over and what the traffic keys are derived from. The curve and the hashes are parameters.

* `Transcript.marshalBinary_inj` — transcripts with one encoding are equal.
-/

import Atterm.Transport.Record

namespace Atterm.Transport

open Atterm.Foundation

def directTicketSize : ℕ := 32
def maxTranscriptString : ℕ := 128
def p256PublicKeySize : ℕ := 65
def sha256Size : ℕ := 32
def directionalKeySize : ℕ := 32
def trafficKeyMaterialLen : ℕ := 2 * directionalKeySize + 2 * directionalNonceSize

def octetsOf (text : String) : Bytes := text.toUTF8.toList

def transcriptDomain : Bytes := octetsOf "atterm-direct-handshake-v1"
def proofInfo : Bytes := octetsOf "atterm-direct-proof-v1"
def clientProofDomain : Bytes := octetsOf "atterm-direct-client-v1"
def hostProofDomain : Bytes := octetsOf "atterm-direct-host-v1"
def finishProofDomain : Bytes := octetsOf "atterm-direct-finish-v1"
def trafficInfo : Bytes := octetsOf "atterm-direct-traffic-v1"

/-- `utf8.ValidString` -/
def validString (value : Bytes) : Bool := ByteArray.validateUTF8 ⟨value.toArray⟩

/-- What the handshake takes from the cryptographic packages: P-256, SHA-256, HMAC and HKDF. -/
structure Crypto (κ : Type) where
  onCurve : Bytes → Bool
  publicKey : κ → Bytes
  ecdh : κ → Bytes → Option Bytes
  sha256 : Bytes → Bytes
  hmac : Bytes → Bytes → Bytes
  hkdf : (secret salt info : Bytes) → ℕ → Option Bytes

structure UUID where
  octets : Bytes
  size : octets.length = 16
deriving DecidableEq

theorem UUID.ext {a b : UUID} (same : a.octets = b.octets) : a = b := by
  cases a
  cases b
  cases same
  rfl

theorem length_nilOctets : (List.replicate 16 0 : Bytes).length = 16 := rfl

def UUID.nil : UUID := ⟨List.replicate 16 0, length_nilOctets⟩

abbrev Permission := UInt8

namespace Permission

def view : Permission := 1
def full : Permission := 3
def valid (permission : Permission) : Bool := decide (view ≤ permission) && decide (permission ≤ full)

end Permission

inductive Role where
  | client
  | host
deriving DecidableEq, Repr

def Role.proofDomain : Role → Bytes
  | .client => clientProofDomain
  | .host => hostProofDomain

/-- The authorization of a route and both ephemeral keys. -/
structure Transcript where
  attemptID : UUID
  ticket : Bytes
  sessionID : UUID
  userID : Bytes
  hostID : Bytes
  clientInstanceID : Bytes
  permission : Permission
  expiresAtUnixMillis : UInt64
  clientPublicKey : Bytes
  hostPublicKey : Bytes
deriving DecidableEq

/-- `ErrInvalidTranscript`. Which of several invalid claims or keys is named is left to the order of
a map. -/
inductive TranscriptError where
  | nilID
  | ticket (length : ℕ)
  | permission (permission : Permission)
  | zeroExpiry
  | claim
  | publicKey
deriving DecidableEq, Repr

def appendField (dst value : Bytes) : Bytes := dst ++ bigEndian 2 value.length ++ value

def validClaim (value : Bytes) : Bool :=
  decide (value ≠ []) && validString value && decide (value.length ≤ maxTranscriptString)

def validPublicKey {κ : Type} (crypto : Crypto κ) (publicKey : Bytes) : Bool :=
  decide (publicKey.length = p256PublicKeySize) && crypto.onCurve publicKey

/-- The canonical encoding, of valid transcripts only. -/
def Transcript.marshalBinary {κ : Type} (crypto : Crypto κ) (t : Transcript) :
    Except TranscriptError Bytes :=
  if t.attemptID = .nil ∨ t.sessionID = .nil then .error .nilID
  else if t.ticket.length ≠ directTicketSize then .error (.ticket t.ticket.length)
  else if Permission.valid t.permission = false then .error (.permission t.permission)
  else if t.expiresAtUnixMillis = 0 then .error .zeroExpiry
  else if validClaim t.userID = false ∨ validClaim t.hostID = false ∨
      validClaim t.clientInstanceID = false then .error .claim
  else if validPublicKey crypto t.clientPublicKey = false ∨
      validPublicKey crypto t.hostPublicKey = false then .error .publicKey
  else
    let out := transcriptDomain
    let out := out ++ t.attemptID.octets
    let out := appendField out t.ticket
    let out := out ++ t.sessionID.octets
    let out := appendField out t.userID
    let out := appendField out t.hostID
    let out := appendField out t.clientInstanceID
    let out := out ++ [t.permission]
    let out := out ++ bigEndian 8 t.expiresAtUnixMillis.toNat
    let out := appendField out t.clientPublicKey
    let out := appendField out t.hostPublicKey
    .ok out

/-! ### The encoding is injective -/

/-- What the fields of an encoded transcript satisfy. -/
structure Transcript.Valid {κ : Type} (crypto : Crypto κ) (t : Transcript) : Prop where
  ticket : t.ticket.length = directTicketSize
  userID : t.userID.length ≤ maxTranscriptString
  hostID : t.hostID.length ≤ maxTranscriptString
  clientInstanceID : t.clientInstanceID.length ≤ maxTranscriptString
  clientPublicKey : validPublicKey crypto t.clientPublicKey = true
  hostPublicKey : validPublicKey crypto t.hostPublicKey = true

theorem validClaim_length {value : Bytes} (valid : validClaim value = true) :
    value.length ≤ maxTranscriptString := by
  simp only [validClaim, Bool.and_eq_true, decide_eq_true_eq] at valid
  exact valid.2

theorem validPublicKey_length {κ : Type} {crypto : Crypto κ} {publicKey : Bytes}
    (valid : validPublicKey crypto publicKey = true) : publicKey.length = p256PublicKeySize := by
  simp only [validPublicKey, Bool.and_eq_true, decide_eq_true_eq] at valid
  exact valid.1

theorem Transcript.marshalBinary_ok {κ : Type} {crypto : Crypto κ} {t : Transcript} {out : Bytes}
    (encoded : t.marshalBinary crypto = .ok out) : t.Valid crypto ∧
      transcriptDomain ++ (t.attemptID.octets ++ (bigEndian 2 t.ticket.length ++ (t.ticket ++
        (t.sessionID.octets ++ (bigEndian 2 t.userID.length ++ (t.userID ++
          (bigEndian 2 t.hostID.length ++ (t.hostID ++
            (bigEndian 2 t.clientInstanceID.length ++ (t.clientInstanceID ++
              ([t.permission] ++ (bigEndian 8 t.expiresAtUnixMillis.toNat ++
                (bigEndian 2 t.clientPublicKey.length ++ (t.clientPublicKey ++
                  (bigEndian 2 t.hostPublicKey.length ++ t.hostPublicKey))))))))))))))) = out := by
  unfold Transcript.marshalBinary at encoded
  split_ifs at encoded with ids ticket permission expiry claims keys
  cases encoded
  simp only [not_or, Bool.not_eq_false] at claims keys
  refine ⟨⟨not_not.mp ticket, validClaim_length claims.1, validClaim_length claims.2.1,
    validClaim_length claims.2.2, keys.1, keys.2⟩, ?_⟩
  simp only [appendField, List.append_assoc]

theorem field_inj {value value' rest rest' : Bytes} (small : value.length < 256 ^ 2)
    (small' : value'.length < 256 ^ 2)
    (same : bigEndian 2 value.length ++ (value ++ rest) =
      bigEndian 2 value'.length ++ (value' ++ rest')) : value = value' ∧ rest = rest' := by
  obtain ⟨lengths, values⟩ := List.append_inj same (by rw [length_bigEndian, length_bigEndian])
  exact List.append_inj values ((bigEndian_inj small small').mp lengths)

/-- **Transcripts with one encoding are equal.** -/
theorem Transcript.marshalBinary_inj {κ : Type} {crypto : Crypto κ} {t t' : Transcript}
    {out : Bytes} (one : t.marshalBinary crypto = .ok out)
    (other : t'.marshalBinary crypto = .ok out) : t = t' := by
  obtain ⟨valid, fields⟩ := marshalBinary_ok one
  obtain ⟨valid', fields'⟩ := marshalBinary_ok other
  have same := fields.trans fields'.symm
  have claim {value : Bytes} (short : value.length ≤ maxTranscriptString) :
      value.length < 256 ^ 2 := lt_of_le_of_lt short (by decide)
  have key {value : Bytes} (valid : validPublicKey crypto value = true) :
      value.length < 256 ^ 2 := by
    rw [validPublicKey_length valid]
    decide
  have ticketSmall {value : Bytes} (size : value.length = directTicketSize) :
      value.length < 256 ^ 2 := by
    rw [size]
    decide
  obtain ⟨attemptID, same⟩ := List.append_inj (List.append_cancel_left same)
    (t.attemptID.size.trans t'.attemptID.size.symm)
  obtain ⟨ticket, same⟩ := field_inj (ticketSmall valid.ticket) (ticketSmall valid'.ticket) same
  obtain ⟨sessionID, same⟩ := List.append_inj same
    (t.sessionID.size.trans t'.sessionID.size.symm)
  obtain ⟨userID, same⟩ := field_inj (claim valid.userID) (claim valid'.userID) same
  obtain ⟨hostID, same⟩ := field_inj (claim valid.hostID) (claim valid'.hostID) same
  obtain ⟨clientInstanceID, same⟩ :=
    field_inj (claim valid.clientInstanceID) (claim valid'.clientInstanceID) same
  obtain ⟨permission, same⟩ := List.append_inj same rfl
  obtain ⟨expiry, same⟩ := List.append_inj same (by rw [length_bigEndian, length_bigEndian])
  obtain ⟨clientPublicKey, same⟩ :=
    field_inj (key valid.clientPublicKey) (key valid'.clientPublicKey) same
  have hostPublicKey := (List.append_inj same (by rw [length_bigEndian, length_bigEndian])).2
  have expires : t.expiresAtUnixMillis = t'.expiresAtUnixMillis := UInt64.toNat_inj.mp <|
    (bigEndian_inj t.expiresAtUnixMillis.toNat_lt t'.expiresAtUnixMillis.toNat_lt).mp expiry
  cases t
  cases t'
  simp only [Transcript.mk.injEq]
  exact ⟨UUID.ext attemptID, ticket, UUID.ext sessionID, userID, hostID, clientInstanceID,
    List.head_eq_of_cons_eq permission, expires, clientPublicKey, hostPublicKey⟩

/-! ### Proofs and keys -/

/-- Proofs over transcripts, and what the key schedule is bound to. -/
structure HandshakeAuthenticator where
  proofSize : ℤ
  buildProof : Bytes → Role → Option Bytes
  verifyProof : Bytes → Role → Bytes → Bool
  keyBinding : Bytes → Option Bytes

/-- The proofs of one account, made with a key that both ends hold. -/
def accountKeyAuthenticator {κ : Type} (crypto : Crypto κ) (accountKey : Bytes) :
    HandshakeAuthenticator :=
  let keyBinding (transcript : Bytes) : Option Bytes :=
    crypto.hkdf accountKey (crypto.sha256 transcript) proofInfo directionalKeySize
  let buildProof (transcript : Bytes) (role : Role) : Option Bytes :=
    (keyBinding transcript).map fun key =>
      crypto.hmac key (role.proofDomain ++ crypto.sha256 transcript)
  { proofSize := sha256Size
    buildProof := buildProof
    verifyProof := fun transcript role proof => decide (buildProof transcript role = some proof)
    keyBinding := keyBinding }

section Keys

variable {κ : Type} (crypto : Crypto κ)

def finishPayload (transcript : Bytes) : Bytes := finishProofDomain ++ crypto.sha256 transcript

/-- Confirms that the client has verified the host. -/
def buildFinishProof (auth : HandshakeAuthenticator) (transcript : Bytes) : Option Bytes :=
  (auth.keyBinding transcript).map fun key => crypto.hmac key (finishPayload crypto transcript)

/-- Record keys and nonce prefixes of both directions. -/
structure TrafficKeys where
  clientToHostKey : Bytes
  hostToClientKey : Bytes
  clientToHostNoncePrefix : Bytes
  hostToClientNoncePrefix : Bytes
deriving DecidableEq, Repr

def TrafficKeys.zero : TrafficKeys :=
  ⟨List.replicate 32 0, List.replicate 32 0, List.replicate 16 0, List.replicate 16 0⟩

/-- The keys of both directions, bound to the authenticator and the exact transcript. -/
def deriveTrafficKeys (privateKey : κ) (peerPublicKey transcript : Bytes)
    (auth : HandshakeAuthenticator) : Option TrafficKeys := do
  guard (crypto.onCurve peerPublicKey)
  let shared ← crypto.ecdh privateKey peerPublicKey
  let binding ← auth.keyBinding transcript
  let info := trafficInfo ++ crypto.sha256 transcript
  let material ← crypto.hkdf shared binding info trafficKeyMaterialLen
  some ⟨material.extract 0 32, material.extract 32 64, material.extract 64 80,
    material.extract 80 96⟩

theorem deriveTrafficKeys_congr {privateKey privateKey' : κ} {peer peer' transcript : Bytes}
    {auth auth' : HandshakeAuthenticator} {keys keys' : TrafficKeys}
    (shared : crypto.ecdh privateKey peer = crypto.ecdh privateKey' peer')
    (binding : auth.keyBinding transcript = auth'.keyBinding transcript)
    (one : deriveTrafficKeys crypto privateKey peer transcript auth = some keys)
    (other : deriveTrafficKeys crypto privateKey' peer' transcript auth' = some keys') :
    keys = keys' := by
  obtain ⟨-, -, one⟩ := Option.bind_eq_some_iff.mp one
  obtain ⟨-, -, other⟩ := Option.bind_eq_some_iff.mp other
  rw [shared, binding] at one
  exact Option.some.inj (one.symm.trans other)

end Keys

end Atterm.Transport
