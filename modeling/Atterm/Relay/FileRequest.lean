/-
**File requests from a viewer to the desktop.**

The client sends the head of a request, with the paths sealed in a second segment when it has a session
key; the relay checks the head and writes the id of the client into it; the desktop decodes the
segments. Reading JSON is a parameter.

* `decodeSegments_encodeSegments` — segments are read back;
* `decodeFSRequest_encodeFSRequest` — a request that is not rewritten is decoded;
* `forwarded_never_decodes` — what the relay forwards.
-/

import Atterm.Foundation.JsonText
import Atterm.Relay.Inbound

namespace Atterm.Relay

open Atterm.Foundation Atterm.Transport

/-! ### Segments -/

def maxPayload : ℕ := 16 * 1024 * 1024

/-- `ErrFSSegmentsMalformed`, with what each check reports, and `ErrFSSegmentTooLarge`. -/
inductive SegmentError where
  | needOne
  | count (segments : ℕ)
  | empty
  | zero
  | truncatedLength (segment : ℕ)
  | truncatedBody (segment : ℕ)
  | trailing (bytes : ℕ)
  | tooLarge
deriving DecidableEq, Repr

def frameSegment (segment : Bytes) : Bytes := bigEndian 4 segment.length ++ segment

def encodeSegments (segments : List Bytes) : Except SegmentError Bytes :=
  if segments.length = 0 then .error .needOne
  else if 255 < segments.length then .error (.count segments.length)
  else if ∃ segment ∈ segments, maxPayload < segment.length then .error .tooLarge
  else .ok (UInt8.ofNat segments.length :: segments.flatMap frameSegment)

/-- The loop of `DecodeSegments`, from the segment with the given index on. -/
def readSegments : (left index : ℕ) → Bytes → Except SegmentError (List Bytes)
  | 0, _, rest => if rest.length ≠ 0 then .error (.trailing rest.length) else .ok []
  | left + 1, index, rest =>
    if rest.length < 4 then .error (.truncatedLength index)
    else if maxPayload < ofBigEndian (rest.take 4) then .error .tooLarge
    else if (rest.drop 4).length < ofBigEndian (rest.take 4) then .error (.truncatedBody index)
    else do
      let segments ← readSegments left (index + 1)
        ((rest.drop 4).drop (ofBigEndian (rest.take 4)))
      return (rest.drop 4).take (ofBigEndian (rest.take 4)) :: segments

def decodeSegments : Bytes → Except SegmentError (List Bytes)
  | [] => .error .empty
  | count :: rest => if count = 0 then .error .zero else readSegments count.toNat 0 rest

theorem readSegments_flatMap (segments : List Bytes) (index : ℕ)
    (small : ∀ segment ∈ segments, segment.length ≤ maxPayload) :
    readSegments segments.length index (segments.flatMap frameSegment) = .ok segments := by
  induction segments generalizing index with
  | nil => rfl
  | cons segment rest ih =>
    have fits : segment.length ≤ maxPayload := small segment List.mem_cons_self
    have length : ofBigEndian (bigEndian 4 segment.length) = segment.length :=
      ofBigEndian_bigEndian (lt_of_le_of_lt fits (by decide))
    have four : (bigEndian 4 segment.length).length = 4 := length_bigEndian 4 _
    have later := ih (index + 1) fun other inside => small other (List.mem_cons_of_mem _ inside)
    rw [List.flatMap_cons, frameSegment, List.append_assoc, List.length_cons, readSegments,
      List.take_left' four, List.drop_left' four, length, List.take_left' rfl,
      List.drop_left' rfl, later]
    rw [if_neg (by simp), if_neg (not_lt.mpr fits), if_neg (by simp)]
    rfl

/-- **Segments are read back.** -/
theorem decodeSegments_encodeSegments {segments : List Bytes} {payload : Bytes}
    (encoded : encodeSegments segments = .ok payload) : decodeSegments payload = .ok segments := by
  rw [encodeSegments] at encoded
  split_ifs at encoded with none many large
  obtain rfl := Except.ok.inj encoded
  have count : (UInt8.ofNat segments.length).toNat = segments.length := by
    rw [UInt8.toNat_ofNat', Nat.mod_eq_of_lt (by omega)]
  have some : UInt8.ofNat segments.length ≠ 0 := by
    intro zero
    rw [zero] at count
    exact none count.symm
  push Not at large
  rw [decodeSegments, if_neg some, count]
  exact readSegments_flatMap segments 0 large

/-! ### The head of a request -/

structure FSRequestPayload where
  requestID : String
  clientID : String
  op : String
  path : String
  maxBytes : Int64
  offset : Int64
  length : Int64
  watchID : String
  data : Bytes
  expectedModTime : Int64
  newPath : String
  recursive : Bool
  createIfMissing : Bool
deriving DecidableEq, Repr

/-- `json.Marshal` of a request. -/
def FSRequestPayload.marshal (p : FSRequestPayload) : Bytes :=
  jsonObject (("request_id", jsonString p.requestID) ::
    (omitEmpty "client_id" (p.clientID ≠ "") (jsonString p.clientID) ++
    ("op", jsonString p.op) ::
    (omitEmpty "path" (p.path ≠ "") (jsonString p.path) ++
    omitEmpty "max_bytes" (p.maxBytes ≠ 0) (jsonInt p.maxBytes) ++
    omitEmpty "offset" (p.offset ≠ 0) (jsonInt p.offset) ++
    omitEmpty "length" (p.length ≠ 0) (jsonInt p.length) ++
    omitEmpty "watch_id" (p.watchID ≠ "") (jsonString p.watchID) ++
    omitEmpty "data" (p.data ≠ []) (jsonBytes p.data) ++
    omitEmpty "expected_modtime" (p.expectedModTime ≠ 0) (jsonInt p.expectedModTime) ++
    omitEmpty "new_path" (p.newPath ≠ "") (jsonString p.newPath) ++
    omitEmpty "recursive" p.recursive (jsonBool true) ++
    omitEmpty "create_if_missing" p.createIfMissing (jsonBool true))))

structure SealedFSRequestFields where
  path : String
  newPath : String
deriving DecidableEq, Repr

def SealedFSRequestFields.marshal (fields : SealedFSRequestFields) : Bytes :=
  jsonObject (omitEmpty "path" (fields.path ≠ "") (jsonString fields.path) ++
    omitEmpty "new_path" (fields.newPath ≠ "") (jsonString fields.newPath))

/-- `json.Unmarshal` into the two structures; an error leaves what was read until then. -/
structure FSReading where
  request : Bytes → Except FSRequestPayload FSRequestPayload
  sealed : Bytes → Option SealedFSRequestFields

theorem intercalate_cons (separator first : Bytes) (later : List Bytes) :
    ∃ rest, List.intercalate separator (first :: later) = first ++ rest := by
  cases later with
  | nil => exact ⟨[], by simp [List.intercalate]⟩
  | cons second later =>
    rw [List.intercalate_cons_cons, List.append_assoc]
    exact ⟨_, rfl⟩

/-- **A JSON object that is not framed** announces 123 segments, the first of more than a gigabyte. -/
theorem decodeSegments_marshal (p : FSRequestPayload) :
    decodeSegments p.marshal = .error .tooLarge := by
  obtain ⟨rest, same⟩ : ∃ rest, p.marshal = 0x7b :: ([0x22, 0x72, 0x65, 0x71] ++ rest) := by
    rw [FSRequestPayload.marshal, jsonObject, List.map_cons]
    obtain ⟨rest, joined⟩ := intercalate_cons [0x2c]
      (jsonString "request_id" ++ 0x3a :: jsonString p.requestID) _
    rw [joined, show jsonString "request_id" = [0x22, 0x72, 0x65, 0x71] ++
      [0x75, 0x65, 0x73, 0x74, 0x5f, 0x69, 0x64, 0x22] from by decide]
    simp only [List.append_assoc]
    exact ⟨_, rfl⟩
  rw [same, decodeSegments, if_neg (by decide)]
  show readSegments (122 + 1) 0 _ = _
  have length : ofBigEndian (([0x22, 0x72, 0x65, 0x71] ++ rest : Bytes).take 4) = 577922417 := by
    rw [List.take_append_of_le_length (by decide)]
    decide
  rw [readSegments, if_neg (by simp), length, if_pos (by decide)]

/-! ### Encoding and decoding -/

/-- `TypeFSRequest`. -/
def typeFSRequest : UInt8 := 0x38

inductive FSRequestError where
  | segments (error : SegmentError)
  | envelope (error : EnvelopeError)
  | json
  | noSessionKey
deriving DecidableEq, Repr

section Coding

variable (E : E2EE) (J : FSReading)

def encodeFSRequest (nonce : Nonce) (p : FSRequestPayload) (sessionKey : Bytes) (sessionID : ℕ) :
    Except FSRequestError Bytes :=
  if sessionKey.length = 0 then (encodeSegments [p.marshal]).mapError .segments
  else
    match sealUnsequenced E nonce sessionKey sessionID typeFSRequest
        (SealedFSRequestFields.marshal ⟨p.path, p.newPath⟩) with
    | .error error => .error (.envelope error)
    | .ok envelope =>
      (encodeSegments [{ p with path := "", newPath := "" }.marshal, envelope]).mapError .segments

def decodeFSRequest (payload sessionKey : Bytes) (sessionID : ℕ) :
    Except FSRequestError FSRequestPayload :=
  match decodeSegments payload with
  | .error error => .error (.segments error)
  | .ok [] => .error (.segments .empty)
  | .ok (head :: later) =>
    match J.request head, later with
    | .error _, _ => .error .json
    | .ok out, [] => .ok out
    | .ok out, sealed :: _ =>
      if sessionKey.length = 0 then .error .noSessionKey
      else
        match openUnsequenced E sessionKey sessionID typeFSRequest sealed with
        | .error error => .error (.envelope error)
        | .ok body =>
          match J.sealed body with
          | none => .error .json
          | some fields => .ok { out with path := fields.path, newPath := fields.newPath }

/-- `DecodeFSHead`, with what was read before an error. -/
def decodeFSHead (payload : Bytes) : Except FSRequestPayload FSRequestPayload :=
  match decodeSegments payload with
  | .error _ | .ok [] => .error ⟨"", "", "", "", 0, 0, 0, "", [], 0, "", false, false⟩
  | .ok (head :: _) => J.request head

variable {E J} {nonce : Nonce} {p : FSRequestPayload} {sessionKey payload : Bytes} {sessionID : ℕ}

theorem encodeFSRequest_ok (encoded : encodeFSRequest E nonce p sessionKey sessionID = .ok payload) :
    (sessionKey.length = 0 ∧ decodeSegments payload = .ok [p.marshal]) ∨
      sessionKey.length ≠ 0 ∧ ∃ envelope,
        sealUnsequenced E nonce sessionKey sessionID typeFSRequest
          (SealedFSRequestFields.marshal ⟨p.path, p.newPath⟩) = .ok envelope ∧
        decodeSegments payload = .ok [{ p with path := "", newPath := "" }.marshal, envelope] := by
  have framed : ∀ segments, (encodeSegments segments).mapError FSRequestError.segments = .ok payload →
      decodeSegments payload = .ok segments := by
    intro segments written
    cases encoding : encodeSegments segments with
    | error error =>
      rw [encoding] at written
      exact absurd written (by simp [Except.mapError])
    | ok bytes =>
      rw [encoding] at written
      obtain rfl := Except.ok.inj written
      exact decodeSegments_encodeSegments encoding
  rw [encodeFSRequest] at encoded
  by_cases keyless : sessionKey.length = 0
  · rw [if_pos keyless] at encoded
    exact Or.inl ⟨keyless, framed _ encoded⟩
  · rw [if_neg keyless] at encoded
    refine Or.inr ⟨keyless, ?_⟩
    cases sealed : sealUnsequenced E nonce sessionKey sessionID typeFSRequest
        (SealedFSRequestFields.marshal ⟨p.path, p.newPath⟩) with
    | error error =>
      rw [sealed] at encoded
      exact absurd encoded (by simp)
    | ok envelope =>
      rw [sealed] at encoded
      exact ⟨envelope, rfl, framed _ encoded⟩

/-- **A request that nobody rewrites is decoded** with the same key, or without one, if the JSON that was
written for it is read back. -/
theorem decodeFSRequest_encodeFSRequest (correct : E.Correct)
    (plain : sessionKey.length = 0 → J.request p.marshal = .ok p)
    (head : sessionKey.length ≠ 0 → J.request { p with path := "", newPath := "" }.marshal =
      .ok { p with path := "", newPath := "" })
    (fields : sessionKey.length ≠ 0 → J.sealed (SealedFSRequestFields.marshal ⟨p.path, p.newPath⟩) =
      some ⟨p.path, p.newPath⟩)
    (encoded : encodeFSRequest E nonce p sessionKey sessionID = .ok payload) :
    decodeFSRequest E J payload sessionKey sessionID = .ok p := by
  rcases encodeFSRequest_ok encoded with ⟨keyless, segments⟩ | ⟨keyed, envelope, sealed, segments⟩
  · rw [decodeFSRequest, segments]
    simp only [plain keyless]
  · have opened := (openUnsequenced_ok_iff correct).mpr ⟨nonce, sealed⟩
    rw [decodeFSRequest, segments]
    simp only [head keyed, if_neg keyed, opened, fields keyed]

end Coding

/-! ### The relay -/

def isReadOnlyFSOperation (op : String) : Bool :=
  op ∈ ["list_dir", "file_meta", "read_file", "read_chunk", "watch_dir", "unwatch_dir"]

/-- A client connection that may be attached to a session, with what its checks read. The router is as
far as the checks ask it: who owns a watch, whether an id is free, whether the queue takes the frame. -/
structure FSClient where
  attached : Option (ℕ × Session)
  sub : ℕ
  scope : AuthScope
  clientID : String
  ownsWatch : String → Bool
  registers : FSRequestPayload → Bool
  queued : Bool

/-- What becomes of a frame: it is dropped, refused with the id of its request and a message, or its
payload is forwarded. -/
inductive FSOutcome where
  | dropped
  | refused (requestID message : String)
  | forwarded (payload : Bytes)
deriving DecidableEq, Repr

/-- The handling of TypeFSRequest in the client loop. -/
def forwardFSRequest (J : FSReading) (c : FSClient) (frameSessionID : ℕ) (payload : Bytes) :
    FSOutcome :=
  match c.attached with
  | none => .dropped
  | some (sessionID, session) =>
    match decodeFSHead J payload with
    | .error read => .refused read.requestID "invalid_request"
    | .ok request =>
      if request.requestID = "" ∨ request.op = "" ∨ frameSessionID ≠ sessionID then
        .refused request.requestID "invalid_request"
      else if request.op ≠ "open_external" ∧ isReadOnlyFSOperation request.op = false then
        .refused request.requestID "invalid_request"
      else if session.info.remotePermission ≠ remotePermissionFull then
        .refused request.requestID "permission_denied"
      else if session.driverFromUpstream = false then
        .refused request.requestID "upstream_unavailable"
      else if request.op = "open_external" ∧ c.scope ≠ .write then
        .refused request.requestID "permission_denied"
      else if request.op = "open_external" ∧ session.isDriver c.sub = false then
        .refused request.requestID "driver_required"
      else if request.op = "unwatch_dir" ∧ request.watchID = "" then
        .refused request.requestID "invalid_request"
      else if request.op = "unwatch_dir" ∧ c.ownsWatch request.watchID = false then
        .refused request.requestID "permission_denied"
      else if c.registers { request with clientID := c.clientID } = false then
        .refused request.requestID "duplicate_request_id"
      else if c.queued = false then .refused request.requestID "upstream_unavailable"
      else .forwarded { request with clientID := c.clientID }.marshal

theorem refusal_forwarded {check : Prop} [Decidable check] {requestID reason : String}
    {rest : FSOutcome} {out : Bytes}
    (forwards : (if check then .refused requestID reason else rest) = FSOutcome.forwarded out) :
    rest = .forwarded out := by
  by_cases refused : check
  · rw [if_pos refused] at forwards
    cases forwards
  · rwa [if_neg refused] at forwards

theorem forwardFSRequest_forwarded {J : FSReading} {c : FSClient} {frameSessionID : ℕ}
    {payload out : Bytes} (forwards : forwardFSRequest J c frameSessionID payload = .forwarded out) :
    ∃ request : FSRequestPayload, out = request.marshal := by
  rw [forwardFSRequest] at forwards
  cases attached : c.attached with
  | none =>
    rw [attached] at forwards
    exact absurd forwards (by simp)
  | some session =>
    rw [attached] at forwards
    cases head : decodeFSHead J payload with
    | error read =>
      simp only [head] at forwards
      exact absurd forwards (by simp)
    | ok request =>
      simp only [head] at forwards
      have checked := refusal_forwarded <| refusal_forwarded <| refusal_forwarded forwards
      have permitted := refusal_forwarded <| refusal_forwarded <| refusal_forwarded checked
      have watched := refusal_forwarded <| refusal_forwarded permitted
      have queued := refusal_forwarded <| refusal_forwarded watched
      exact ⟨_, (FSOutcome.forwarded.inj queued).symm⟩

/-- **No forwarded request is decoded**: whatever the client sent, under whatever key, the desktop finds
a first segment that is too large. -/
theorem forwarded_never_decodes (E : E2EE) (J : FSReading) (c : FSClient) {payload out : Bytes}
    {sessionID : ℕ} (forwards : forwardFSRequest J c sessionID payload = .forwarded out)
    (sessionKey : Bytes) :
    decodeFSRequest E J out sessionKey sessionID = .error (.segments .tooLarge) ∧
      ∀ p : FSRequestPayload,
        decodeFSRequest E J out sessionKey sessionID ≠ .ok { p with clientID := c.clientID } := by
  obtain ⟨request, rfl⟩ := forwardFSRequest_forwarded forwards
  have lost : decodeFSRequest E J request.marshal sessionKey sessionID =
      .error (.segments .tooLarge) := by
    rw [decodeFSRequest, decodeSegments_marshal]
  exact ⟨lost, fun p => by rw [lost]; simp⟩

section Sample

def sampleRequest : FSRequestPayload :=
  ⟨"r1", "", "list_dir", "/home", 0, 0, 0, "", [], 0, "", false, false⟩

def sampleReading : FSReading where
  request bytes := if bytes = sampleRequest.marshal then .ok sampleRequest else .error sampleRequest
  sealed _ := none

/-- A viewer with full permission on a mirror. -/
def sampleClient : FSClient where
  attached := some (7, Session.newMirror
    { SessionInfo.zero with remotePermission := remotePermissionFull })
  sub := 0
  scope := .write
  clientID := "c1"
  ownsWatch := fun _ => false
  registers := fun _ => true
  queued := true

def sampleNonce : Nonce := ⟨List.replicate nonceSizeX 0, rfl⟩

/-- Reads what a sealed sample request is written as. -/
def sealedReading : FSReading where
  request _ := .ok { sampleRequest with path := "", newPath := "" }
  sealed _ := some ⟨sampleRequest.path, sampleRequest.newPath⟩

theorem decodeFSRequest_encodeFSRequest_sealed : ∃ payload,
    encodeFSRequest sampleE2EE sampleNonce sampleRequest (List.replicate 32 1) 7 = .ok payload ∧
      decodeFSRequest sampleE2EE sealedReading payload (List.replicate 32 1) 7 = .ok sampleRequest := by
  obtain ⟨payload, encoded⟩ : ∃ payload,
      encodeFSRequest sampleE2EE sampleNonce sampleRequest (List.replicate 32 1) 7 = .ok payload :=
    ⟨_, rfl⟩
  exact ⟨payload, encoded, decodeFSRequest_encodeFSRequest sampleE2EE_correct
    (fun keyless => by cases keyless) (fun _ => rfl) (fun _ => rfl) encoded⟩

/-- The frame of the client, without a session key. -/
def sampleFramed : Bytes := UInt8.ofNat 1 :: frameSegment sampleRequest.marshal

theorem sampleFramed_forwarded : forwardFSRequest sampleReading sampleClient 7 sampleFramed =
    .forwarded { sampleRequest with clientID := "c1" }.marshal := by
  decide

theorem listing_never_decodes :
    decodeFSRequest sampleE2EE sampleReading { sampleRequest with clientID := "c1" }.marshal [] 7 =
      .error (.segments .tooLarge) :=
  (forwarded_never_decodes sampleE2EE sampleReading sampleClient sampleFramed_forwarded []).1

/-- The client asks for a directory, the relay forwards the request, and the desktop cannot decode it. -/
theorem listing_is_lost :
    encodeFSRequest sampleE2EE sampleNonce sampleRequest [] 7 = .ok sampleFramed ∧
      forwardFSRequest sampleReading sampleClient 7 sampleFramed =
        .forwarded { sampleRequest with clientID := "c1" }.marshal ∧
      decodeFSRequest sampleE2EE sampleReading { sampleRequest with clientID := "c1" }.marshal [] 7 ≠
        .ok { sampleRequest with clientID := "c1" } := by
  decide

end Sample

end Atterm.Relay
