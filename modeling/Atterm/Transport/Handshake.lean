/-
**The direct handshake.**

A client and a host authenticate one data channel in four messages: the client's hello, the host's
hello with its proof, the client's proof and finish, and the host's confirmation. Everything between
them may be read, changed, dropped and repeated.

* `HostHandshake.handle_cases`, `ClientHandshake.handle_cases` — what one message can do;
* `Handshake.invariant_step` — what one event keeps;
* `handshake_agreement` — a host that completes has seen a valid proof for its own transcript, and
  two ends that complete with each other hold the same transcript and the same keys.
-/

import Atterm.Foundation.Runs
import Atterm.Transport.Transcript

namespace Atterm.Transport

open Atterm.Foundation

def handshakeVersion : UInt8 := 1
def handshakeClientHello : UInt8 := 1
def handshakeHostHello : UInt8 := 2
def handshakeClientFinish : UInt8 := 3
def handshakeAuthOK : UInt8 := 4
def handshakeHeaderSize : ℕ := 2
def clientHelloMessageSize : ℕ := handshakeHeaderSize + 16 + directTicketSize + p256PublicKeySize
def authOKMessageSize : ℕ := handshakeHeaderSize
def maxAuthProofSize : ℤ := 1024

structure Authorization where
  attemptID : UUID
  ticket : Bytes
  sessionID : UUID
  userID : Bytes
  hostID : Bytes
  clientInstanceID : Bytes
  permission : Permission
  expiresAtUnixMillis : UInt64
deriving DecidableEq

/-- `ErrInvalidHandshake`, with what each check reports, and the errors of the transcript and the
keys. -/
inductive HandshakeError where
  | malformedAuthorization
  | proofSize (size : ℤ)
  | expired
  | alreadyComplete
  | expectedClientHello
  | attemptMismatch
  | ticketMismatch
  | transcript (error : TranscriptError)
  | buildHostProof
  | expectedClientFinish
  | clientProof
  | finishProof
  | keys
  | clientHelloUnavailable
  | clientHelloNotSent
  | malformedClientHello
  | clientPublicKey
  | malformedHostHello
  | hostPublicKey
  | hostProof
  | buildClientProof
  | buildFinishProof
  | malformedClientFinish
  | malformedAuthOK
deriving DecidableEq, Repr

def Authorization.transcript (a : Authorization) (clientPublicKey hostPublicKey : Bytes) :
    Transcript where
  attemptID := a.attemptID
  ticket := a.ticket
  sessionID := a.sessionID
  userID := a.userID
  hostID := a.hostID
  clientInstanceID := a.clientInstanceID
  permission := a.permission
  expiresAtUnixMillis := a.expiresAtUnixMillis
  clientPublicKey := clientPublicKey
  hostPublicKey := hostPublicKey

theorem Authorization.transcript_inj {a a' : Authorization}
    {clientPublicKey clientPublicKey' hostPublicKey hostPublicKey' : Bytes}
    (same : a.transcript clientPublicKey hostPublicKey =
      a'.transcript clientPublicKey' hostPublicKey') :
    a = a' ∧ clientPublicKey = clientPublicKey' ∧ hostPublicKey = hostPublicKey' := by
  cases a
  cases a'
  simp only [Authorization.transcript, Transcript.mk.injEq] at same
  simp only [Authorization.mk.injEq]
  tauto

def validateProofSize (auth : HandshakeAuthenticator) : Except HandshakeError ℕ :=
  if auth.proofSize ≤ 0 ∨ maxAuthProofSize < auth.proofSize then .error (.proofSize auth.proofSize)
  else .ok auth.proofSize.toNat

def tagged (message : Bytes) (type : UInt8) : Bool :=
  decide (message.getD 0 0 = handshakeVersion) && decide (message.getD 1 0 = type)

/-- What a message is answered with; the keys are there only when the end is authenticated. -/
structure HandshakeResult where
  response : Bytes
  authenticated : Bool
  trafficKeys : TrafficKeys
  transcriptHash : Bytes
deriving DecidableEq, Repr

def HandshakeResult.pending (response : Bytes) : HandshakeResult :=
  ⟨response, false, .zero, List.replicate 32 0⟩

/-! ### The host -/

inductive HostHandshakeState where
  | awaitClientHello
  | awaitClientFinish
  | complete
deriving DecidableEq, Repr

structure HostHandshake (κ : Type) where
  auth : HandshakeAuthenticator
  authorization : Authorization
  privateKey : κ
  clientPublicKey : Bytes
  hostPublicKey : Bytes
  transcript : Bytes
  proofSize : ℕ
  state : HostHandshakeState

section Host

variable {κ : Type} (crypto : Crypto κ)

def newHostHandshake (auth : HandshakeAuthenticator) (authorization : Authorization)
    (privateKey : κ) : Except HandshakeError (HostHandshake κ) :=
  if authorization.attemptID = .nil ∨ authorization.sessionID = .nil ∨
      authorization.ticket.length ≠ directTicketSize then .error .malformedAuthorization
  else
    match validateProofSize auth with
    | .error e => .error e
    | .ok proofSize => .ok
        { auth := auth
          authorization := authorization
          privateKey := privateKey
          clientPublicKey := []
          hostPublicKey := crypto.publicKey privateKey
          transcript := []
          proofSize := proofSize
          state := .awaitClientHello }

namespace HostHandshake

variable (h : HostHandshake κ) (message : Bytes)

def handleClientHello : Except HandshakeError HandshakeResult × HostHandshake κ :=
  if message.length ≠ clientHelloMessageSize ∨ tagged message handshakeClientHello = false then
    (.error .expectedClientHello, h)
  else if message.extract 2 18 ≠ h.authorization.attemptID.octets then (.error .attemptMismatch, h)
  else if message.extract 18 (18 + directTicketSize) ≠ h.authorization.ticket then
    (.error .ticketMismatch, h)
  else
    let clientPublicKey := message.drop (18 + directTicketSize)
    match (h.authorization.transcript clientPublicKey h.hostPublicKey).marshalBinary crypto with
    | .error e => (.error (.transcript e), h)
    | .ok transcript =>
      match h.auth.buildProof transcript .host with
      | none => (.error .buildHostProof, h)
      | some hostProof =>
        if hostProof.length ≠ h.proofSize then (.error .buildHostProof, h)
        else
          (.ok (.pending ([handshakeVersion, handshakeHostHello] ++
              (h.hostPublicKey ++ hostProof))),
            { h with
              transcript := transcript
              clientPublicKey := clientPublicKey
              state := .awaitClientFinish })

def handleClientFinish : Except HandshakeError HandshakeResult × HostHandshake κ :=
  if message.length ≠ handshakeHeaderSize + h.proofSize + sha256Size ∨
      tagged message handshakeClientFinish = false then (.error .expectedClientFinish, h)
  else if h.auth.verifyProof h.transcript .client (message.extract 2 (2 + h.proofSize)) = false then
    (.error .clientProof, h)
  else if buildFinishProof crypto h.auth h.transcript ≠ some (message.drop (2 + h.proofSize)) then
    (.error .finishProof, h)
  else
    match deriveTrafficKeys crypto h.privateKey h.clientPublicKey h.transcript h.auth with
    | none => (.error .keys, h)
    | some keys =>
      (.ok ⟨[handshakeVersion, handshakeAuthOK], true, keys, crypto.sha256 h.transcript⟩,
        { h with state := .complete })

def handle (now : UInt64) : Except HandshakeError HandshakeResult × HostHandshake κ :=
  if h.authorization.expiresAtUnixMillis ≤ now then (.error .expired, h)
  else
    match h.state with
    | .awaitClientHello => h.handleClientHello crypto message
    | .awaitClientFinish => h.handleClientFinish crypto message
    | .complete => (.error .alreadyComplete, h)

end HostHandshake

end Host

/-! ### The client -/

inductive ClientHandshakeState where
  | awaitHostHello
  | awaitAuthOK
  | complete
deriving DecidableEq, Repr

structure ClientHandshake (κ : Type) where
  auth : HandshakeAuthenticator
  authorization : Authorization
  privateKey : κ
  clientPublicKey : Bytes
  trafficKeys : TrafficKeys
  transcriptHash : Bytes
  proofSize : ℕ
  state : ClientHandshakeState
  helloSent : Bool

section Client

variable {κ : Type} (crypto : Crypto κ)

def newClientHandshake (auth : HandshakeAuthenticator) (authorization : Authorization)
    (privateKey : κ) : Except HandshakeError (ClientHandshake κ) :=
  if authorization.attemptID = .nil ∨ authorization.sessionID = .nil ∨
      authorization.ticket.length ≠ directTicketSize then .error .malformedAuthorization
  else
    match validateProofSize auth with
    | .error e => .error e
    | .ok proofSize => .ok
        { auth := auth
          authorization := authorization
          privateKey := privateKey
          clientPublicKey := crypto.publicKey privateKey
          trafficKeys := .zero
          transcriptHash := List.replicate 32 0
          proofSize := proofSize
          state := .awaitHostHello
          helloSent := false }

def encodeClientHello (attemptID : UUID) (ticket clientPublicKey : Bytes) :
    Except HandshakeError Bytes :=
  if attemptID = .nil ∨ ticket.length ≠ directTicketSize ∨
      clientPublicKey.length ≠ p256PublicKeySize then .error .malformedClientHello
  else if crypto.onCurve clientPublicKey = false then .error .clientPublicKey
  else .ok ([handshakeVersion, handshakeClientHello] ++
    (attemptID.octets ++ (ticket ++ clientPublicKey)))

def decodeHostHello (message : Bytes) (proofSize : ℕ) : Except HandshakeError (Bytes × Bytes) :=
  if message.length ≠ handshakeHeaderSize + p256PublicKeySize + proofSize ∨
      tagged message handshakeHostHello = false then .error .malformedHostHello
  else
    let publicKey := message.extract 2 (2 + p256PublicKeySize)
    if crypto.onCurve publicKey = false then .error .hostPublicKey
    else .ok (publicKey, message.drop (2 + p256PublicKeySize))

def encodeClientFinish (clientProof finishProof : Bytes) (proofSize : ℕ) :
    Except HandshakeError Bytes :=
  if proofSize = 0 ∨ maxAuthProofSize < proofSize ∨ clientProof.length ≠ proofSize ∨
      finishProof.length ≠ sha256Size then .error .malformedClientFinish
  else .ok ([handshakeVersion, handshakeClientFinish] ++ (clientProof ++ finishProof))

def isAuthOK (message : Bytes) : Bool :=
  decide (message.length = authOKMessageSize) && tagged message handshakeAuthOK

namespace ClientHandshake

variable (h : ClientHandshake κ) (message : Bytes)

def clientHello (now : UInt64) : Except HandshakeError Bytes × ClientHandshake κ :=
  if h.state ≠ .awaitHostHello ∨ h.helloSent = true then (.error .clientHelloUnavailable, h)
  else if h.authorization.expiresAtUnixMillis ≤ now then (.error .expired, h)
  else (encodeClientHello crypto h.authorization.attemptID h.authorization.ticket h.clientPublicKey,
    { h with helloSent := true })

def handleHostHello : Except HandshakeError HandshakeResult × ClientHandshake κ :=
  if h.helloSent = false then (.error .clientHelloNotSent, h)
  else
    match decodeHostHello crypto message h.proofSize with
    | .error e => (.error e, h)
    | .ok (hostPublicKey, hostProof) =>
      match (h.authorization.transcript h.clientPublicKey hostPublicKey).marshalBinary crypto with
      | .error e => (.error (.transcript e), h)
      | .ok transcript =>
        if h.auth.verifyProof transcript .host hostProof = false then (.error .hostProof, h)
        else
          match deriveTrafficKeys crypto h.privateKey hostPublicKey transcript h.auth with
          | none => (.error .keys, { h with trafficKeys := .zero })
          | some keys =>
            let h := { h with
              trafficKeys := keys
              transcriptHash := crypto.sha256 transcript }
            match h.auth.buildProof transcript .client with
            | none => (.error .buildClientProof, h)
            | some clientProof =>
              match buildFinishProof crypto h.auth transcript with
              | none => (.error .buildFinishProof, h)
              | some finishProof =>
                match encodeClientFinish clientProof finishProof h.proofSize with
                | .error e => (.error e, h)
                | .ok response =>
                  (.ok (.pending response), { h with state := .awaitAuthOK })

def handleAuthOK : Except HandshakeError HandshakeResult × ClientHandshake κ :=
  if isAuthOK message = false then (.error .malformedAuthOK, h)
  else (.ok ⟨[], true, h.trafficKeys, h.transcriptHash⟩, { h with state := .complete })

def handle (now : UInt64) : Except HandshakeError HandshakeResult × ClientHandshake κ :=
  if h.authorization.expiresAtUnixMillis ≤ now then (.error .expired, h)
  else
    match h.state with
    | .awaitHostHello => h.handleHostHello crypto message
    | .awaitAuthOK => h.handleAuthOK message
    | .complete => (.error .alreadyComplete, h)

end ClientHandshake

end Client

/-! ### What one message can do -/

section Cases

variable {κ : Type} (crypto : Crypto κ)

/-- **What a message does to the host**: nothing, take a hello, or take a finish and complete. -/
theorem HostHandshake.handle_cases (h : HostHandshake κ) (message : Bytes) (now : UInt64) :
    (∃ e, h.handle crypto message now = (.error e, h)) ∨
      (h.state = .awaitClientHello ∧ ∃ clientPublicKey transcript response,
        (h.authorization.transcript clientPublicKey h.hostPublicKey).marshalBinary crypto =
          .ok transcript ∧
        h.handle crypto message now = (.ok (.pending response),
          { h with
            transcript := transcript
            clientPublicKey := clientPublicKey
            state := .awaitClientFinish })) ∨
      (h.state = .awaitClientFinish ∧
        h.auth.verifyProof h.transcript .client (message.extract 2 (2 + h.proofSize)) = true ∧
        buildFinishProof crypto h.auth h.transcript = some (message.drop (2 + h.proofSize)) ∧
        ∃ keys, deriveTrafficKeys crypto h.privateKey h.clientPublicKey h.transcript h.auth =
            some keys ∧
          h.handle crypto message now =
            (.ok ⟨[handshakeVersion, handshakeAuthOK], true, keys, crypto.sha256 h.transcript⟩,
              { h with state := .complete })) := by
  rw [handle]
  by_cases late : h.authorization.expiresAtUnixMillis ≤ now
  · exact Or.inl ⟨.expired, if_pos late⟩
  · rw [if_neg late]
    cases state : h.state with
    | awaitClientHello =>
      dsimp only
      unfold handleClientHello
      split_ifs
      · exact Or.inl ⟨_, rfl⟩
      · exact Or.inl ⟨_, rfl⟩
      · exact Or.inl ⟨_, rfl⟩
      · dsimp only
        cases encoded : (h.authorization.transcript (message.drop (18 + directTicketSize))
            h.hostPublicKey).marshalBinary crypto with
        | error e => exact Or.inl ⟨_, rfl⟩
        | ok transcript =>
          dsimp only
          cases built : h.auth.buildProof transcript .host with
          | none => exact Or.inl ⟨_, rfl⟩
          | some hostProof =>
            dsimp only
            split_ifs
            · exact Or.inl ⟨_, rfl⟩
            · exact Or.inr (Or.inl ⟨rfl, _, _, _, encoded, rfl⟩)
    | awaitClientFinish =>
      dsimp only
      unfold handleClientFinish
      split_ifs with shape proof finish
      · exact Or.inl ⟨_, rfl⟩
      · exact Or.inl ⟨_, rfl⟩
      · exact Or.inl ⟨_, rfl⟩
      · cases derived : deriveTrafficKeys crypto h.privateKey h.clientPublicKey h.transcript
            h.auth with
        | none => exact Or.inl ⟨_, rfl⟩
        | some keys =>
          exact Or.inr (Or.inr ⟨rfl, by simpa using proof, not_not.mp finish, keys, rfl, rfl⟩)
    | complete => exact Or.inl ⟨_, rfl⟩

/-- The transcript that a client has proved, and the binding its finish proof is made with. -/
structure Released where
  transcript : Bytes
  binding : Bytes
deriving DecidableEq, Repr

/-- What the client proves when it accepts a host's hello. -/
def ClientHandshake.release (h : ClientHandshake κ) (message : Bytes) : Option Released :=
  match decodeHostHello crypto message h.proofSize with
  | .error _ => none
  | .ok (hostPublicKey, _) =>
    match (h.authorization.transcript h.clientPublicKey hostPublicKey).marshalBinary crypto with
    | .error _ => none
    | .ok transcript => (h.auth.keyBinding transcript).map fun binding => ⟨transcript, binding⟩

/-- **What a message does to the client**: nothing but to its keys, take a host's hello and prove its
own transcript, or take the confirmation and complete. -/
theorem ClientHandshake.handle_cases (h : ClientHandshake κ) (message : Bytes) (now : UInt64) :
    (∃ e, h.handle crypto message now = (.error e, h)) ∨
      (h.state = .awaitHostHello ∧ ∃ e keys hash, h.handle crypto message now =
        (.error e, { h with trafficKeys := keys, transcriptHash := hash })) ∨
      (h.state = .awaitHostHello ∧ ∃ hostPublicKey transcript binding keys response,
        (h.authorization.transcript h.clientPublicKey hostPublicKey).marshalBinary crypto =
          .ok transcript ∧
        h.auth.keyBinding transcript = some binding ∧
        deriveTrafficKeys crypto h.privateKey hostPublicKey transcript h.auth = some keys ∧
        h.release crypto message = some ⟨transcript, binding⟩ ∧
        h.handle crypto message now = (.ok (.pending response),
          { h with
            trafficKeys := keys
            transcriptHash := crypto.sha256 transcript
            state := .awaitAuthOK })) ∨
      (h.state = .awaitAuthOK ∧ h.handle crypto message now =
        (.ok ⟨[], true, h.trafficKeys, h.transcriptHash⟩, { h with state := .complete })) := by
  unfold handle handleHostHello handleAuthOK release
  by_cases late : h.authorization.expiresAtUnixMillis ≤ now
  · exact Or.inl ⟨.expired, if_pos late⟩
  · rw [if_neg late]
    cases state : h.state with
    | awaitHostHello =>
      dsimp only
      split_ifs
      · exact Or.inl ⟨_, rfl⟩
      · cases decoded : decodeHostHello crypto message h.proofSize with
        | error e => exact Or.inl ⟨_, rfl⟩
        | ok hello =>
          obtain ⟨hostPublicKey, hostProof⟩ := hello
          dsimp only
          cases encoded : (h.authorization.transcript h.clientPublicKey
              hostPublicKey).marshalBinary crypto with
          | error e => exact Or.inl ⟨_, rfl⟩
          | ok transcript =>
            dsimp only
            split_ifs
            · exact Or.inl ⟨_, rfl⟩
            · cases derived : deriveTrafficKeys crypto h.privateKey hostPublicKey transcript
                  h.auth with
              | none => exact Or.inr (Or.inl ⟨rfl, _, _, _, rfl⟩)
              | some keys =>
                dsimp only
                cases built : h.auth.buildProof transcript .client with
                | none => exact Or.inr (Or.inl ⟨rfl, _, _, _, rfl⟩)
                | some clientProof =>
                  dsimp only
                  cases finished : buildFinishProof crypto h.auth transcript with
                  | none => exact Or.inr (Or.inl ⟨rfl, _, _, _, rfl⟩)
                  | some finishProof =>
                    dsimp only
                    cases response : encodeClientFinish clientProof finishProof
                        h.proofSize with
                    | error e => exact Or.inr (Or.inl ⟨rfl, _, _, _, rfl⟩)
                    | ok response =>
                      obtain ⟨binding, bound, -⟩ := Option.map_eq_some_iff.mp finished
                      exact Or.inr (Or.inr (Or.inl ⟨rfl, _, _, binding, keys, _,
                        encoded, bound, derived, by rw [bound]; rfl, rfl⟩))
    | awaitAuthOK =>
      dsimp only
      split_ifs
      · exact Or.inl ⟨_, rfl⟩
      · exact Or.inr (Or.inr (Or.inr ⟨rfl, rfl⟩))
    | complete => exact Or.inl ⟨_, rfl⟩

end Cases

/-! ### The two ends -/

/-- What somebody makes of the channel: the client is asked for its hello, or a message of any origin
reaches one end. -/
inductive HandshakeEvent where
  | clientHello (now : UInt64)
  | toHost (message : Bytes) (now : UInt64)
  | toClient (message : Bytes) (now : UInt64)
deriving DecidableEq, Repr

/-- A host and a client, with what the client has proved, the message the host has completed on and
the results of both. -/
structure Handshake (κ : Type) where
  host : HostHandshake κ
  client : ClientHandshake κ
  released : Option Released
  hostDone : Option (Bytes × HandshakeResult)
  clientDone : Option HandshakeResult

namespace Handshake

variable {κ : Type} (crypto : Crypto κ)

def new (host : HostHandshake κ) (client : ClientHandshake κ) : Handshake κ :=
  ⟨host, client, none, none, none⟩

def step (w : Handshake κ) : HandshakeEvent → Handshake κ
  | .clientHello now => { w with client := (w.client.clientHello crypto now).2 }
  | .toHost message now =>
    match w.host.handle crypto message now with
    | (.error _, host) => { w with host := host }
    | (.ok result, host) =>
      { w with
        host := host
        hostDone := if result.authenticated then some (message, result) else w.hostDone }
  | .toClient message now =>
    match w.client.handle crypto message now with
    | (.error _, client) => { w with client := client }
    | (.ok result, client) =>
      { w with
        client := client
        released := if result.authenticated then w.released
          else w.client.release crypto message
        clientDone := if result.authenticated then some result else w.clientDone }

/-- The host accepts no proof that the client has not made: a client proof is for a transcript that
the client has proved, and a finish proof is made with the binding that the client has used. -/
def Unforged (w : Handshake κ) : HandshakeEvent → Prop
  | .toHost message _ => w.host.state = .awaitClientFinish →
      (w.host.auth.verifyProof w.host.transcript .client
          (message.extract 2 (2 + w.host.proofSize)) = true →
        ∃ r ∈ w.released, r.transcript = w.host.transcript) ∧
      ∀ binding ∈ w.host.auth.keyBinding w.host.transcript,
        crypto.hmac binding (finishPayload crypto w.host.transcript) =
            message.drop (2 + w.host.proofSize) →
          ∃ r ∈ w.released, r.binding = binding
  | _ => True

instance (w : Handshake κ) : (event : HandshakeEvent) → Decidable (w.Unforged crypto event)
  | .toHost _ _ => inferInstanceAs (Decidable (_ → (_ → _) ∧ _))
  | .clientHello _ => inferInstanceAs (Decidable True)
  | .toClient _ _ => inferInstanceAs (Decidable True)

/-- What holds of the host on its own: it keeps its authorization and its key, the transcript is of
its authorization, and it has completed on a valid proof for this transcript. -/
structure HostInvariant (fresh : HostHandshake κ) (w : Handshake κ) : Prop where
  same : w.host.auth = fresh.auth ∧ w.host.authorization = fresh.authorization ∧
    w.host.privateKey = fresh.privateKey ∧ w.host.hostPublicKey = fresh.hostPublicKey ∧
    w.host.proofSize = fresh.proofSize
  transcript : w.host.state ≠ .awaitClientHello →
    (w.host.authorization.transcript w.host.clientPublicKey w.host.hostPublicKey).marshalBinary
      crypto = .ok w.host.transcript
  complete : w.hostDone.isSome = true ↔ w.host.state = .complete
  proved : ∀ done ∈ w.hostDone,
    w.host.auth.verifyProof w.host.transcript .client
        (done.1.extract 2 (2 + w.host.proofSize)) = true ∧
      buildFinishProof crypto w.host.auth w.host.transcript =
        some (done.1.drop (2 + w.host.proofSize)) ∧
      done.2.transcriptHash = crypto.sha256 w.host.transcript ∧
      deriveTrafficKeys crypto w.host.privateKey w.host.clientPublicKey w.host.transcript
        w.host.auth = some done.2.trafficKeys

theorem hostInvariant_step {fresh : HostHandshake κ} {w : Handshake κ}
    (invariant : HostInvariant crypto fresh w) (event : HandshakeEvent) :
    HostInvariant crypto fresh (w.step crypto event) := by
  cases event with
  | clientHello now =>
    exact ⟨invariant.same, invariant.transcript, invariant.complete, invariant.proved⟩
  | toClient message now =>
    rw [step]
    rcases w.client.handle crypto message now with ⟨e | result, client⟩
    · exact ⟨invariant.same, invariant.transcript, invariant.complete, invariant.proved⟩
    · exact ⟨invariant.same, invariant.transcript, invariant.complete, invariant.proved⟩
  | toHost message now =>
    rw [step]
    rcases w.host.handle_cases crypto message now with ⟨e, refused⟩ |
      ⟨state, clientPublicKey, transcript, response, encoded, taken⟩ |
      ⟨state, proof, finish, keys, derived, taken⟩
    · rw [refused]
      exact invariant
    · rw [taken]
      have unfinished : w.hostDone = none := by
        by_contra finished
        have completed := invariant.complete.mp (Option.isSome_iff_ne_none.mpr finished)
        rw [state] at completed
        cases completed
      refine ⟨invariant.same, fun _ => encoded, ?_, ?_⟩
      · simp [HandshakeResult.pending, unfinished]
      · simp [HandshakeResult.pending, unfinished]
    · rw [taken]
      refine ⟨invariant.same, fun _ => ?_, ?_, ?_⟩
      · exact invariant.transcript (by rw [state]; decide)
      · simp
      · intro done finished
        cases finished
        exact ⟨proof, finish, rfl, derived⟩

/-- What holds of the client on its own: once it has proved a transcript, the transcript is of its
authorization and its keys are derived from it. -/
structure ClientInvariant (fresh : ClientHandshake κ) (w : Handshake κ) : Prop where
  same : w.client.auth = fresh.auth ∧ w.client.authorization = fresh.authorization ∧
    w.client.privateKey = fresh.privateKey ∧ w.client.clientPublicKey = fresh.clientPublicKey
  waiting : w.client.state = .awaitHostHello → w.released = none ∧ w.clientDone = none
  proved : w.client.state ≠ .awaitHostHello → ∃ r ∈ w.released, ∃ hostPublicKey,
    (w.client.authorization.transcript w.client.clientPublicKey hostPublicKey).marshalBinary
        crypto = .ok r.transcript ∧
      w.client.auth.keyBinding r.transcript = some r.binding ∧
      deriveTrafficKeys crypto w.client.privateKey hostPublicKey r.transcript w.client.auth =
        some w.client.trafficKeys ∧
      w.client.transcriptHash = crypto.sha256 r.transcript
  done : ∀ result ∈ w.clientDone, result.trafficKeys = w.client.trafficKeys ∧
    result.transcriptHash = w.client.transcriptHash

theorem clientInvariant_step {fresh : ClientHandshake κ} {w : Handshake κ}
    (invariant : ClientInvariant crypto fresh w) (event : HandshakeEvent) :
    ClientInvariant crypto fresh (w.step crypto event) := by
  cases event with
  | clientHello now =>
    rw [step, ClientHandshake.clientHello]
    split_ifs
    · exact invariant
    · exact invariant
    · exact ⟨invariant.same, invariant.waiting, invariant.proved, invariant.done⟩
  | toHost message now =>
    rw [step]
    rcases w.host.handle crypto message now with ⟨e | result, host⟩
    · exact ⟨invariant.same, invariant.waiting, invariant.proved, invariant.done⟩
    · exact ⟨invariant.same, invariant.waiting, invariant.proved, invariant.done⟩
  | toClient message now =>
    rw [step]
    rcases w.client.handle_cases crypto message now with ⟨e, refused⟩ |
      ⟨state, e, keys, hash, refused⟩ |
      ⟨state, hostPublicKey, transcript, binding, keys, response, encoded, bound, derived, proved,
        taken⟩ | ⟨state, taken⟩
    · rw [refused]
      exact invariant
    · -- the keys of a hello that fails are never delivered
      rw [refused]
      have unfinished := (invariant.waiting state).2
      refine ⟨invariant.same, invariant.waiting, fun wrong => absurd state wrong, ?_⟩
      simp [unfinished]
    · rw [taken]
      have unfinished := (invariant.waiting state).2
      refine ⟨invariant.same, fun wrong => ?_, fun _ => ?_, ?_⟩
      · cases wrong
      · exact ⟨⟨transcript, binding⟩, proved, hostPublicKey, encoded, bound, derived, rfl⟩
      · simp [HandshakeResult.pending, unfinished]
    · rw [taken]
      refine ⟨invariant.same, fun wrong => ?_, fun _ => ?_, ?_⟩
      · cases wrong
      · exact invariant.proved (by rw [state]; decide)
      · intro result finished
        cases finished
        exact ⟨rfl, rfl⟩

/-- A host that has completed has done so on what the client has proved. -/
def Agreed (w : Handshake κ) : Prop :=
  w.hostDone.isSome = true → ∃ r ∈ w.released, r.transcript = w.host.transcript ∧
    w.host.auth.keyBinding w.host.transcript = some r.binding

theorem agreed_step {freshHost : HostHandshake κ} {freshClient : ClientHandshake κ}
    {w : Handshake κ} (host : HostInvariant crypto freshHost w)
    (client : ClientInvariant crypto freshClient w) (agreed : w.Agreed) {event : HandshakeEvent}
    (unforged : w.Unforged crypto event) : (w.step crypto event).Agreed := by
  cases event with
  | clientHello now => exact agreed
  | toHost message now =>
    rw [step]
    rcases w.host.handle_cases crypto message now with ⟨e, refused⟩ |
      ⟨state, clientPublicKey, transcript, response, encoded, taken⟩ |
      ⟨state, proof, finish, keys, derived, taken⟩
    · rw [refused]
      exact agreed
    · rw [taken]
      intro finished
      have completed := host.complete.mp (by simpa [HandshakeResult.pending] using finished)
      rw [state] at completed
      cases completed
    · rw [taken]
      intro _
      obtain ⟨made, finished⟩ := unforged state
      obtain ⟨r, released, transcript⟩ := made proof
      obtain ⟨binding, bound, tag⟩ := Option.map_eq_some_iff.mp finish
      obtain ⟨r', released', used⟩ := finished binding bound tag
      -- the client proves one transcript only
      have same : r = r' := Option.some.inj (released.symm.trans released')
      subst same
      exact ⟨r, released, transcript, by rw [bound, used]⟩
  | toClient message now =>
    rw [step]
    rcases w.client.handle_cases crypto message now with ⟨e, refused⟩ |
      ⟨state, e, keys, hash, refused⟩ |
      ⟨state, hostPublicKey, transcript, binding, keys, response, encoded, bound, derived, proved,
        taken⟩ | ⟨state, taken⟩
    · rw [refused]
      exact agreed
    · rw [refused]
      exact agreed
    · rw [taken]
      intro finished
      obtain ⟨r, released, -⟩ := agreed finished
      rw [(client.waiting state).1] at released
      cases released
    · rw [taken]
      exact agreed

variable {crypto}

theorem newHostHandshake_ok {auth : HandshakeAuthenticator} {authorization : Authorization}
    {privateKey : κ} {host : HostHandshake κ}
    (made : newHostHandshake crypto auth authorization privateKey = .ok host) :
    host.auth = auth ∧ host.authorization = authorization ∧ host.privateKey = privateKey ∧
      host.hostPublicKey = crypto.publicKey privateKey ∧ host.state = .awaitClientHello := by
  unfold newHostHandshake at made
  split_ifs at made
  split at made
  · cases made
  · cases made
    exact ⟨rfl, rfl, rfl, rfl, rfl⟩

theorem newClientHandshake_ok {auth : HandshakeAuthenticator} {authorization : Authorization}
    {privateKey : κ} {client : ClientHandshake κ}
    (made : newClientHandshake crypto auth authorization privateKey = .ok client) :
    client.auth = auth ∧ client.authorization = authorization ∧ client.privateKey = privateKey ∧
      client.clientPublicKey = crypto.publicKey privateKey ∧ client.state = .awaitHostHello := by
  unfold newClientHandshake at made
  split_ifs at made
  split at made
  · cases made
  · cases made
    exact ⟨rfl, rfl, rfl, rfl, rfl⟩

theorem hostInvariant_new {host : HostHandshake κ} {client : ClientHandshake κ}
    (waiting : host.state = .awaitClientHello) : HostInvariant crypto host (.new host client) := by
  refine ⟨⟨rfl, rfl, rfl, rfl, rfl⟩, fun wrong => absurd waiting wrong, ?_, ?_⟩
  · simp [new, waiting]
  · simp [new]

theorem clientInvariant_new {host : HostHandshake κ} {client : ClientHandshake κ}
    (waiting : client.state = .awaitHostHello) :
    ClientInvariant crypto client (.new host client) := by
  refine ⟨⟨rfl, rfl, rfl, rfl⟩, fun _ => ⟨rfl, rfl⟩, fun wrong => absurd waiting wrong, ?_⟩
  simp [new]

theorem same_keys {freshHost : HostHandshake κ} {freshClient : ClientHandshake κ}
    {w : Handshake κ} (host : HostInvariant crypto freshHost w)
    (client : ClientInvariant crypto freshClient w) (agreed : w.Agreed)
    (shared : crypto.ecdh freshHost.privateKey freshClient.clientPublicKey =
      crypto.ecdh freshClient.privateKey freshHost.hostPublicKey)
    {done : Bytes × HandshakeResult} {result : HandshakeResult} (hostDone : w.hostDone = some done)
    (clientDone : w.clientDone = some result) :
    freshHost.authorization = freshClient.authorization ∧
      done.2.transcriptHash = result.transcriptHash ∧ done.2.trafficKeys = result.trafficKeys := by
  obtain ⟨r, released, transcript, binding⟩ := agreed (by rw [hostDone]; rfl)
  have completed : w.host.state = .complete := host.complete.mp (by rw [hostDone]; rfl)
  have encoded := host.transcript (by rw [completed]; decide)
  obtain ⟨-, -, hash, keys⟩ := host.proved done hostDone
  have past : w.client.state ≠ .awaitHostHello := by
    intro waiting
    rw [(client.waiting waiting).2] at clientDone
    cases clientDone
  obtain ⟨r', released', hostPublicKey, encoded', binding', keys', hash'⟩ := client.proved past
  obtain rfl : r = r' := Option.some.inj (released.symm.trans released')
  obtain ⟨sameKeys, sameHash⟩ := client.done result clientDone
  -- one encoding: the same authorization and the same two public keys
  rw [transcript] at encoded' binding' keys' hash'
  obtain ⟨authorization, clientPublicKey, rfl⟩ :=
    Authorization.transcript_inj (Transcript.marshalBinary_inj encoded encoded')
  obtain ⟨-, hostAuthorization, hostKey, hostPublic, -⟩ := host.same
  obtain ⟨-, clientAuthorization, clientKey, clientPublic⟩ := client.same
  refine ⟨?_, ?_, ?_⟩
  · rw [← hostAuthorization, ← clientAuthorization, authorization]
  · rw [hash, sameHash, hash']
  · rw [sameKeys]
    refine deriveTrafficKeys_congr crypto ?_ (binding.trans binding'.symm) keys keys'
    rw [hostKey, clientPublicKey, clientPublic, shared, clientKey, hostPublic]

end Handshake

/-- **The handshake agrees.** Whatever messages reach the two ends, in whatever order: the host
completes only on a client proof that is valid for the transcript of its own authorization and key;
and if the host accepts no proof that the client has not made, then two ends that complete with each
other have the same authorization, transcript hash and traffic keys. The encoding of transcripts, on
which this rests, is injective. -/
theorem handshake_agreement {κ : Type} {crypto : Crypto κ}
    {hostAuth clientAuth : HandshakeAuthenticator}
    {hostAuthorization clientAuthorization : Authorization} {hostKey clientKey : κ}
    {host : HostHandshake κ} {client : ClientHandshake κ}
    (agree : ∀ a b, crypto.ecdh a (crypto.publicKey b) = crypto.ecdh b (crypto.publicKey a))
    (madeHost : newHostHandshake crypto hostAuth hostAuthorization hostKey = .ok host)
    (madeClient : newClientHandshake crypto clientAuth clientAuthorization clientKey = .ok client)
    (events : List HandshakeEvent) {w : Handshake κ}
    (reached : run (Handshake.step crypto) (.new host client) events = w) :
    (w.host.state = .complete → ∃ message result, w.hostDone = some (message, result) ∧
        (hostAuthorization.transcript w.host.clientPublicKey
          (crypto.publicKey hostKey)).marshalBinary crypto = .ok w.host.transcript ∧
        hostAuth.verifyProof w.host.transcript .client
          (message.extract 2 (2 + w.host.proofSize)) = true) ∧
      (Meets (Handshake.step crypto) (Handshake.Unforged crypto) (.new host client) events →
        ∀ message hostResult clientResult, w.hostDone = some (message, hostResult) →
          w.clientDone = some clientResult →
          hostAuthorization = clientAuthorization ∧
            hostResult.transcriptHash = clientResult.transcriptHash ∧
            hostResult.trafficKeys = clientResult.trafficKeys) ∧
      ∀ (t t' : Transcript) out, t.marshalBinary crypto = .ok out →
        t'.marshalBinary crypto = .ok out → t = t' := by
  obtain ⟨auth, authorization, key, hostPublic, waiting⟩ := Handshake.newHostHandshake_ok madeHost
  obtain ⟨-, authorization', key', clientPublic, waiting'⟩ := Handshake.newClientHandshake_ok madeClient
  have alone : Handshake.HostInvariant crypto host w := by
    rw [← reached]
    exact run_invariant (Handshake.HostInvariant crypto host)
      (fun _ event invariant => Handshake.hostInvariant_step crypto invariant event)
      (Handshake.hostInvariant_new waiting) events
  refine ⟨fun completed => ?_, fun unforged message hostResult clientResult hostDone clientDone => ?_,
    fun t t' out one other => Transcript.marshalBinary_inj one other⟩
  · obtain ⟨done, finished⟩ := Option.isSome_iff_exists.mp (alone.complete.mpr completed)
    have encoded := alone.transcript (by rw [completed]; decide)
    have proof := (alone.proved done finished).1
    obtain ⟨sameAuth, sameAuthorization, -, samePublic, -⟩ := alone.same
    rw [sameAuthorization, authorization, samePublic, hostPublic] at encoded
    rw [sameAuth, auth] at proof
    exact ⟨done.1, done.2, finished, encoded, proof⟩
  · have both : Handshake.HostInvariant crypto host w ∧
        Handshake.ClientInvariant crypto client w ∧ w.Agreed := by
      rw [← reached]
      refine run_invariant_of_meets (fun w => Handshake.HostInvariant crypto host w ∧
          Handshake.ClientInvariant crypto client w ∧ w.Agreed)
        (fun _ event invariant genuine => ?_) ?_ unforged
      · obtain ⟨hostInvariant, clientInvariant, agreed⟩ := invariant
        exact ⟨Handshake.hostInvariant_step crypto hostInvariant event,
          Handshake.clientInvariant_step crypto clientInvariant event,
          Handshake.agreed_step crypto hostInvariant clientInvariant agreed genuine⟩
      · exact ⟨Handshake.hostInvariant_new waiting, Handshake.clientInvariant_new waiting',
          fun wrong => by cases wrong⟩
    have shared : crypto.ecdh host.privateKey client.clientPublicKey =
        crypto.ecdh client.privateKey host.hostPublicKey := by
      rw [key, clientPublic, key', hostPublic]
      exact agree hostKey clientKey
    have result := Handshake.same_keys both.1 both.2.1 both.2.2 shared hostDone clientDone
    rwa [authorization, authorization'] at result

/-! ### A run -/

def checksum (octets : Bytes) : UInt8 := octets.foldl (fun sum octet => sum * 31 + octet + 1) 7

/-- Numbers for keys, products for shared secrets, checksums for hashes. -/
def sampleCrypto : Crypto UInt8 where
  onCurve _ := true
  publicKey key := List.replicate 65 key
  ecdh key peer := some [key * peer.getD 0 0]
  sha256 octets := List.replicate 32 (checksum octets)
  hmac key octets := List.replicate 32 (checksum (key ++ octets))
  hkdf secret salt info length := some (List.replicate length (checksum (secret ++ salt ++ info)))

def sampleAuthorization : Authorization where
  attemptID := ⟨List.replicate 16 1, rfl⟩
  ticket := List.replicate 32 2
  sessionID := ⟨List.replicate 16 3, rfl⟩
  userID := [0x75]
  hostID := [0x68]
  clientInstanceID := [0x63]
  permission := 3
  expiresAtUnixMillis := 1000

def sampleAuth : HandshakeAuthenticator :=
  accountKeyAuthenticator sampleCrypto (List.replicate 32 4)

def sampleHost : HostHandshake UInt8 where
  auth := sampleAuth
  authorization := sampleAuthorization
  privateKey := 11
  clientPublicKey := []
  hostPublicKey := List.replicate 65 11
  transcript := []
  proofSize := 32
  state := .awaitClientHello

def sampleClient : ClientHandshake UInt8 where
  auth := sampleAuth
  authorization := sampleAuthorization
  privateKey := 13
  clientPublicKey := List.replicate 65 13
  trafficKeys := .zero
  transcriptHash := List.replicate 32 0
  proofSize := 32
  state := .awaitHostHello
  helloSent := false

def responseTo (result : Except HandshakeError HandshakeResult) : Bytes :=
  match result with
  | .ok result => result.response
  | .error _ => []

/-- The four messages, with a repeated hello and a finish of the wrong proof among them. -/
def sampleHandshake : List HandshakeEvent :=
  let (hello, client) := sampleClient.clientHello sampleCrypto 1
  let hello := match hello with
    | .ok hello => hello
    | .error _ => []
  let (hostHello, _) := sampleHost.handle sampleCrypto hello 2
  let (finish, _) := client.handle sampleCrypto (responseTo hostHello) 3
  [.clientHello 1, .toHost hello 2, .toHost hello 2, .toClient (responseTo hostHello) 3,
    .toHost ((responseTo finish).set 5 0) 4, .toHost (responseTo finish) 4,
    .toClient [handshakeVersion, handshakeAuthOK] 5]

theorem handshake_agreement_sample :
    let w := run (Handshake.step sampleCrypto) (.new sampleHost sampleClient) sampleHandshake
    w.hostDone.map (·.2.trafficKeys) = w.clientDone.map (·.trafficKeys) ∧
      w.hostDone.isSome = true := by
  intro w
  have agree : ∀ a b, sampleCrypto.ecdh a (sampleCrypto.publicKey b) =
      sampleCrypto.ecdh b (sampleCrypto.publicKey a) := by
    intro a b
    simp [sampleCrypto, mul_comm]
  have madeHost : newHostHandshake sampleCrypto sampleAuth sampleAuthorization 11 =
      .ok sampleHost := rfl
  have madeClient : newClientHandshake sampleCrypto sampleAuth sampleAuthorization 13 =
      .ok sampleClient := rfl
  have unforged : Meets (Handshake.step sampleCrypto) (Handshake.Unforged sampleCrypto)
      (.new sampleHost sampleClient) sampleHandshake := by
    decide +kernel
  obtain ⟨hostDone, host⟩ : ∃ done, w.hostDone = some done :=
    Option.isSome_iff_exists.mp (by decide +kernel)
  obtain ⟨clientDone, client⟩ : ∃ done, w.clientDone = some done :=
    Option.isSome_iff_exists.mp (by decide +kernel)
  have same := (handshake_agreement agree madeHost madeClient sampleHandshake rfl).2.1 unforged
    hostDone.1 hostDone.2 clientDone host client
  rw [host, client]
  exact ⟨congrArg some same.2.2, rfl⟩

end Atterm.Transport
