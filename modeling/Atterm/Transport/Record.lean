/-
**Records of the direct route.**

One direction of a route seals its messages under a counter that never repeats, and the other end
opens only the next record. The header with the kind, the counter and the length is bound as
associated data; the cipher itself is a parameter.

* `RecordOpener.open_sealAt` — the next sealed record is opened;
* `RecordChannel.invariant_step` — what one step keeps of the two counters and the messages;
* `record_layer_correct` — messages arrive in order and unaltered, nonces are never reused, and both
  ends stop when the counter is exhausted.
-/

import Atterm.Foundation.BigEndian
import Atterm.Foundation.Runs
import Atterm.Foundation.Simulation

namespace Atterm.Transport

open Atterm.Foundation

abbrev Bytes := List UInt8

def recordVersion : UInt8 := 1
def recordHeaderSize : ℕ := 1 + 1 + 8 + 4
def recordTagSize : ℕ := 16

def maxRecordPlaintext : ℕ := 16 * 1024

/-- `chacha20poly1305.KeySize` -/
def recordKeySize : ℕ := 32
def directionalNonceSize : ℕ := 16

abbrev RecordKind := UInt8

namespace RecordKind

def frame : RecordKind := 1
def configInventory : RecordKind := 7
def configAck : RecordKind := 9
def catalogRequest : RecordKind := 14
def sessionCreated : RecordKind := 17

def valid (kind : RecordKind) : Bool := decide (frame ≤ kind) && decide (kind ≤ sessionCreated)

def configMessage (kind : RecordKind) : Bool :=
  decide (configInventory ≤ kind) && decide (kind ≤ configAck) ||
    decide (catalogRequest ≤ kind) && decide (kind ≤ sessionCreated)

end RecordKind

/-- `ErrInvalidRecord` and `ErrRecordSequence`, with what each check reports, and `ErrInvalidKey`. -/
inductive RecordError where
  | kind (kind : RecordKind)
  | plaintext (length : ℕ)
  | truncated
  | version (version : UInt8)
  | length (length : ℕ)
  | authentication
  | sequence (got want : UInt64)
  | exhausted
  | key (key noncePrefix : ℕ)
deriving DecidableEq, Repr

/-- A cipher under one key, with associated data. -/
structure Aead where
  sealBytes : (nonce plaintext aad : Bytes) → Bytes
  openBytes : (nonce ciphertext aad : Bytes) → Option Bytes

/-- What was sealed is opened, and the tag has its size. -/
structure Aead.Correct (aead : Aead) : Prop where
  opens : ∀ nonce plaintext aad,
    aead.openBytes nonce (aead.sealBytes nonce plaintext aad) aad = some plaintext
  tagged : ∀ nonce plaintext aad,
    (aead.sealBytes nonce plaintext aad).length = plaintext.length + recordTagSize

def makeRecordHeader (kind : RecordKind) (counter : UInt64) (plainLen : ℕ) : Bytes :=
  [recordVersion, kind] ++ (bigEndian 8 counter.toNat ++ bigEndian 4 plainLen)

def makeRecordNonce (noncePrefix : Bytes) (counter : UInt64) : Bytes :=
  noncePrefix ++ bigEndian 8 counter.toNat

def makeRecordAAD (transcriptHash header : Bytes) : Bytes := transcriptHash ++ header

structure RecordDirection where
  aead : Aead
  noncePrefix : Bytes
  transcriptHash : Bytes
  next : UInt64
  exhausted : Bool

/-- Emits strictly increasing records. -/
abbrev RecordSealer := RecordDirection

abbrev RecordOpener := RecordDirection

def newRecordDirection (newX : Bytes → Aead) (key noncePrefix transcriptHash : Bytes) :
    Except RecordError RecordDirection :=
  if key.length ≠ recordKeySize ∨ noncePrefix.length ≠ directionalNonceSize then
    .error (.key key.length noncePrefix.length)
  else .ok ⟨newX key, noncePrefix, transcriptHash, 0, false⟩

def newRecordSealer : (Bytes → Aead) → Bytes → Bytes → Bytes → Except RecordError RecordSealer :=
  newRecordDirection

def newRecordOpener : (Bytes → Aead) → Bytes → Bytes → Bytes → Except RecordError RecordOpener :=
  newRecordDirection

/-- After a record the counter moves on; it never wraps. -/
def RecordDirection.advance (d : RecordDirection) : RecordDirection :=
  if d.next = .ofNat (2 ^ 64 - 1) then { d with exhausted := true } else { d with next := d.next + 1 }

def RecordDirection.sealAt (d : RecordDirection) (counter : UInt64) (kind : RecordKind)
    (plaintext : Bytes) : Bytes :=
  let header := makeRecordHeader kind counter plaintext.length
  let nonce := makeRecordNonce d.noncePrefix counter
  let aad := makeRecordAAD d.transcriptHash header
  header ++ d.aead.sealBytes nonce plaintext aad

def RecordSealer.seal (s : RecordSealer) (kind : RecordKind) (plaintext : Bytes) :
    Except RecordError Bytes × RecordSealer :=
  if s.exhausted then (.error .exhausted, s)
  else if RecordKind.valid kind = false then (.error (.kind kind), s)
  else if maxRecordPlaintext < plaintext.length then (.error (.plaintext plaintext.length), s)
  else (.ok (s.sealAt s.next kind plaintext), s.advance)

/-- Validate structure, sequence and cipher before the counter moves on. -/
def RecordOpener.open (o : RecordOpener) (record : Bytes) :
    Except RecordError (RecordKind × Bytes) × RecordOpener :=
  if o.exhausted then (.error .exhausted, o)
  else if record.length < recordHeaderSize + recordTagSize then (.error .truncated, o)
  else if record.getD 0 0 ≠ recordVersion then (.error (.version (record.getD 0 0)), o)
  else
    let kind : RecordKind := record.getD 1 0
    if RecordKind.valid kind = false then (.error (.kind kind), o)
    else
      let counter := UInt64.ofNat (numberAt record 2 10)
      if counter ≠ o.next then (.error (.sequence counter o.next), o)
      else
        let plainLen := numberAt record 10 14
        if maxRecordPlaintext < plainLen ∨
            record.length ≠ recordHeaderSize + plainLen + recordTagSize then
          (.error (.length plainLen), o)
        else
          let header := record.take recordHeaderSize
          let nonce := makeRecordNonce o.noncePrefix counter
          let aad := makeRecordAAD o.transcriptHash header
          match o.aead.openBytes nonce (record.drop recordHeaderSize) aad with
          | none => (.error .authentication, o)
          | some plaintext => (.ok (kind, plaintext), o.advance)

/-! ### One record -/

theorem length_makeRecordHeader (kind : RecordKind) (counter : UInt64) (plainLen : ℕ) :
    (makeRecordHeader kind counter plainLen).length = recordHeaderSize := by
  simp [makeRecordHeader, recordHeaderSize]

theorem counter_makeRecordHeader (kind : RecordKind) (counter : UInt64) (plainLen : ℕ)
    (rest : Bytes) :
    numberAt (makeRecordHeader kind counter plainLen ++ rest) 2 10 = counter.toNat := by
  have fixed : ([recordVersion, kind] : Bytes).length = 2 := rfl
  rw [makeRecordHeader, List.append_assoc, List.append_assoc]
  exact (numberAt_skip fixed 0 8).trans (numberAt_head counter.toNat_lt)

theorem plainLen_makeRecordHeader (kind : RecordKind) (counter : UInt64) {plainLen : ℕ}
    (small : plainLen < 256 ^ 4) (rest : Bytes) :
    numberAt (makeRecordHeader kind counter plainLen ++ rest) 10 14 = plainLen := by
  have fixed : ([recordVersion, kind] : Bytes).length = 2 := rfl
  rw [makeRecordHeader, List.append_assoc, List.append_assoc]
  exact (numberAt_skip fixed 8 12).trans <|
    (numberAt_skip (length_bigEndian 8 _) 0 4).trans (numberAt_head small)

theorem RecordOpener.open_sealAt {o : RecordOpener} (correct : o.aead.Correct)
    (running : o.exhausted = false) {kind : RecordKind} (valid : RecordKind.valid kind = true)
    {plaintext : Bytes} (fits : plaintext.length ≤ maxRecordPlaintext) :
    o.open (o.sealAt o.next kind plaintext) = (.ok (kind, plaintext), o.advance) := by
  have small : plaintext.length < 256 ^ 4 := lt_of_le_of_lt fits (by decide)
  have header := length_makeRecordHeader kind o.next plaintext.length
  rw [RecordDirection.sealAt]
  generalize sealed : o.aead.sealBytes (makeRecordNonce o.noncePrefix o.next) plaintext
    (makeRecordAAD o.transcriptHash (makeRecordHeader kind o.next plaintext.length)) = ciphertext
  have tagged : ciphertext.length = plaintext.length + recordTagSize := by
    rw [← sealed]
    exact correct.tagged _ _ _
  have opens := correct.opens (makeRecordNonce o.noncePrefix o.next) plaintext
    (makeRecordAAD o.transcriptHash (makeRecordHeader kind o.next plaintext.length))
  rw [sealed] at opens
  have counter := counter_makeRecordHeader kind o.next plaintext.length ciphertext
  have plainLen := plainLen_makeRecordHeader kind o.next small ciphertext
  have length : (makeRecordHeader kind o.next plaintext.length ++ ciphertext).length =
      recordHeaderSize + plaintext.length + recordTagSize := by
    rw [List.length_append, header, tagged]
    omega
  have taken : (makeRecordHeader kind o.next plaintext.length ++ ciphertext).take recordHeaderSize =
      makeRecordHeader kind o.next plaintext.length := List.take_left' header
  have dropped : (makeRecordHeader kind o.next plaintext.length ++ ciphertext).drop
      recordHeaderSize = ciphertext := List.drop_left' header
  have kindAt : (makeRecordHeader kind o.next plaintext.length ++ ciphertext).getD 1 0 = kind := rfl
  rw [RecordOpener.open, if_neg (by simp [running]), if_neg (by omega),
    if_neg (fun wrong => wrong rfl)]
  simp only [kindAt, valid, counter, UInt64.ofNat_toNat, plainLen, taken, dropped, opens]
  rw [if_neg (by simp), if_neg (by simp), if_neg (by omega)]

/-- **What `Open` can do**: reject and stay, or open what the cipher opens under the next nonce and
the header, and move on. -/
theorem RecordOpener.open_cases (o : RecordOpener) (record : Bytes) :
    (∃ e, o.open record = (.error e, o)) ∨
      ∃ plaintext, o.exhausted = false ∧
        o.aead.openBytes (makeRecordNonce o.noncePrefix o.next) (record.drop recordHeaderSize)
          (makeRecordAAD o.transcriptHash (record.take recordHeaderSize)) = some plaintext ∧
        o.open record = (.ok (record.getD 1 0, plaintext), o.advance) := by
  unfold RecordOpener.open
  dsimp only
  split_ifs with stopped truncated version kind counter length
  · exact Or.inl ⟨_, rfl⟩
  · exact Or.inl ⟨_, rfl⟩
  · exact Or.inl ⟨_, rfl⟩
  · exact Or.inl ⟨_, rfl⟩
  · exact Or.inl ⟨_, rfl⟩
  · exact Or.inl ⟨_, rfl⟩
  · rw [not_not.mp counter]
    cases opened : o.aead.openBytes (makeRecordNonce o.noncePrefix o.next)
        (record.drop recordHeaderSize)
        (makeRecordAAD o.transcriptHash (record.take recordHeaderSize)) with
    | none => exact Or.inl ⟨_, rfl⟩
    | some plaintext => exact Or.inr ⟨plaintext, by simpa using stopped, rfl, rfl⟩

theorem RecordSealer.seal_cases (s : RecordSealer) (kind : RecordKind) (plaintext : Bytes) :
    ((s.exhausted = true ∨ RecordKind.valid kind = false ∨
        maxRecordPlaintext < plaintext.length) ∧ ∃ e, s.seal kind plaintext = (.error e, s)) ∨
      (s.exhausted = false ∧ RecordKind.valid kind = true ∧ plaintext.length ≤ maxRecordPlaintext ∧
        s.seal kind plaintext = (.ok (s.sealAt s.next kind plaintext), s.advance)) := by
  rw [RecordSealer.seal]
  cases stopped : s.exhausted with
  | true => exact Or.inl ⟨Or.inl rfl, .exhausted, if_pos rfl⟩
  | false =>
    rw [if_neg (by simp)]
    cases valid : RecordKind.valid kind with
    | false => exact Or.inl ⟨Or.inr (Or.inl rfl), .kind kind, if_pos rfl⟩
    | true =>
      rw [if_neg (by simp)]
      by_cases large : maxRecordPlaintext < plaintext.length
      · exact Or.inl ⟨Or.inr (Or.inr large), .plaintext plaintext.length, if_pos large⟩
      · exact Or.inr ⟨rfl, rfl, not_lt.mp large, if_neg large⟩

/-! ### The counter -/

namespace RecordDirection

def position (d : RecordDirection) : ℕ := if d.exhausted then 2 ^ 64 else d.next.toNat

theorem position_le (d : RecordDirection) : d.position ≤ 2 ^ 64 := by
  rw [position]
  split_ifs
  · exact le_rfl
  · exact d.next.toNat_lt.le

theorem exhausted_iff (d : RecordDirection) : d.exhausted = true ↔ d.position = 2 ^ 64 := by
  have bound := d.next.toNat_lt
  rw [position]
  split_ifs with stopped
  · simp [stopped]
  · refine ⟨fun wrong => absurd wrong stopped, fun full => ?_⟩
    omega

theorem position_advance {d : RecordDirection} (running : d.exhausted = false) :
    d.advance.position = d.position + 1 := by
  have bound := d.next.toNat_lt
  rw [advance]
  by_cases last : d.next = .ofNat (2 ^ 64 - 1)
  · rw [if_pos last, position, position, if_pos rfl, if_neg (by simp [running]), last]
    rfl
  · have below : d.next.toNat + 1 < 2 ^ 64 := by
      by_contra above
      refine last (UInt64.toNat_inj.mp ?_)
      have top : d.next.toNat = 2 ^ 64 - 1 := by omega
      rw [top]
      rfl
    rw [if_neg last, position, position, if_neg (by simp [running]), if_neg (by simp [running])]
    show (d.next + 1).toNat = _
    rw [UInt64.toNat_add]
    exact Nat.mod_eq_of_lt below

theorem next_eq {d : RecordDirection} (running : d.exhausted = false) :
    d.next = UInt64.ofNat d.position := by
  rw [position, if_neg (by simp [running]), UInt64.ofNat_toNat]

theorem advance_same (d : RecordDirection) : d.advance.aead = d.aead ∧
    d.advance.noncePrefix = d.noncePrefix ∧ d.advance.transcriptHash = d.transcriptHash := by
  rw [advance]
  split_ifs <;> exact ⟨rfl, rfl, rfl⟩

end RecordDirection

/-! ### The two ends -/

/-- A sealed message, with the nonce and the associated data it was sealed under. -/
structure Sent where
  kind : RecordKind
  plaintext : Bytes
  nonce : Bytes
  aad : Bytes
  record : Bytes
deriving DecidableEq, Repr

def Sent.message (sent : Sent) : RecordKind × Bytes := (sent.kind, sent.plaintext)

def RecordDirection.sentAt (d : RecordDirection) (counter : UInt64) (kind : RecordKind)
    (plaintext : Bytes) : Sent where
  kind := kind
  plaintext := plaintext
  nonce := makeRecordNonce d.noncePrefix counter
  aad := makeRecordAAD d.transcriptHash (makeRecordHeader kind counter plaintext.length)
  record := d.sealAt counter kind plaintext

/-- The sender seals a message, or somebody offers the receiver a record of any origin. -/
inductive RecordEvent where
  | send (kind : RecordKind) (plaintext : Bytes)
  | offer (record : Bytes)
deriving DecidableEq, Repr

/-- One direction of a route: its two ends, what has been sealed and what has been opened. -/
structure RecordChannel where
  sealer : RecordSealer
  opener : RecordOpener
  sent : List Sent
  received : List (RecordKind × Bytes)

namespace RecordChannel

def new (sealer : RecordSealer) (opener : RecordOpener) : RecordChannel := ⟨sealer, opener, [], []⟩

def step (c : RecordChannel) : RecordEvent → RecordChannel
  | .send kind plaintext =>
    match c.sealer.seal kind plaintext with
    | (.ok _, sealer) =>
      { c with
        sealer := sealer
        sent := c.sent ++ [c.sealer.sentAt c.sealer.next kind plaintext] }
    | (.error _, sealer) => { c with sealer := sealer }
  | .offer record =>
    match c.opener.open record with
    | (.ok message, opener) => { c with opener := opener, received := c.received ++ [message] }
    | (.error _, opener) => { c with opener := opener }

/-- What the cipher opens under a nonce and associated data was sealed under them. -/
def Unforged (aead : Aead) (sent : List Sent) (nonce ciphertext aad : Bytes) : Prop :=
  ∀ plaintext ∈ aead.openBytes nonce ciphertext aad,
    ∃ s ∈ sent, s.nonce = nonce ∧ s.aad = aad ∧ s.plaintext = plaintext ∧
      s.record.drop recordHeaderSize = ciphertext

instance (aead : Aead) (sent : List Sent) (nonce ciphertext aad : Bytes) :
    Decidable (Unforged aead sent nonce ciphertext aad) :=
  inferInstanceAs (Decidable (∀ plaintext ∈ aead.openBytes nonce ciphertext aad,
    ∃ s ∈ sent, s.nonce = nonce ∧ s.aad = aad ∧ s.plaintext = plaintext ∧
      s.record.drop recordHeaderSize = ciphertext))

/-- The record that is offered does not forge the cipher. -/
def Genuine (c : RecordChannel) : RecordEvent → Prop
  | .send _ _ => True
  | .offer record => Unforged c.opener.aead c.sent
      (makeRecordNonce c.opener.noncePrefix c.opener.next) (record.drop recordHeaderSize)
      (makeRecordAAD c.opener.transcriptHash (record.take recordHeaderSize))

instance (c : RecordChannel) : (event : RecordEvent) → Decidable (c.Genuine event)
  | .send _ _ => inferInstanceAs (Decidable True)
  | .offer _ => inferInstanceAs (Decidable (Unforged _ _ _ _ _))

/-- Both ends count what has passed, and the receiver has opened the first of the sealed
messages. -/
structure Invariant (fresh : RecordDirection) (c : RecordChannel) : Prop where
  sealer : c.sealer.aead = fresh.aead ∧ c.sealer.noncePrefix = fresh.noncePrefix ∧
    c.sealer.transcriptHash = fresh.transcriptHash
  opener : c.opener.aead = fresh.aead ∧ c.opener.noncePrefix = fresh.noncePrefix ∧
    c.opener.transcriptHash = fresh.transcriptHash
  sentCount : c.sealer.position = c.sent.length
  receivedCount : c.opener.position = c.received.length
  sent : ∀ i sent, c.sent[i]? = some sent →
    sent = fresh.sentAt (.ofNat i) sent.kind sent.plaintext ∧
      RecordKind.valid sent.kind = true ∧ sent.plaintext.length ≤ maxRecordPlaintext
  received : c.received <+: c.sent.map Sent.message

variable {fresh : RecordDirection} {c : RecordChannel}

theorem sentAt_congr {d d' : RecordDirection} (same : d.aead = d'.aead ∧
    d.noncePrefix = d'.noncePrefix ∧ d.transcriptHash = d'.transcriptHash) (counter : UInt64)
    (kind : RecordKind) (plaintext : Bytes) :
    d.sentAt counter kind plaintext = d'.sentAt counter kind plaintext := by
  obtain ⟨aead, noncePrefix, transcriptHash⟩ := same
  rw [RecordDirection.sentAt, RecordDirection.sentAt, RecordDirection.sealAt,
    RecordDirection.sealAt, aead, noncePrefix, transcriptHash]

theorem makeRecordNonce_inj {noncePrefix : Bytes} {i j : ℕ} (one : i < 2 ^ 64) (other : j < 2 ^ 64)
    (same : makeRecordNonce noncePrefix (.ofNat i) = makeRecordNonce noncePrefix (.ofNat j)) :
    i = j := by
  have octets := List.append_cancel_left same
  have numbers := (bigEndian_inj (UInt64.ofNat i).toNat_lt (UInt64.ofNat j).toNat_lt).mp octets
  rwa [UInt64.toNat_ofNat', UInt64.toNat_ofNat', Nat.mod_eq_of_lt one,
    Nat.mod_eq_of_lt other] at numbers

theorem Invariant.running (invariant : Invariant fresh c) {sent : Sent}
    (next : c.sent[c.received.length]? = some sent) : c.opener.exhausted = false := by
  have count : c.sent.length ≤ 2 ^ 64 := invariant.sentCount ▸ c.sealer.position_le
  have inside : c.received.length < c.sent.length := (List.getElem?_eq_some_iff.mp next).1
  by_contra stopped
  have full := c.opener.exhausted_iff.mp (by simpa using stopped)
  rw [invariant.receivedCount] at full
  omega

theorem Invariant.opens (invariant : Invariant fresh c) (correct : fresh.aead.Correct)
    {sent : Sent} (next : c.sent[c.received.length]? = some sent) :
    c.opener.open sent.record = (.ok sent.message, c.opener.advance) := by
  obtain ⟨written, valid, fits⟩ := invariant.sent _ _ next
  have running := invariant.running next
  have counter : c.opener.next = .ofNat c.received.length := by
    rw [RecordDirection.next_eq running, invariant.receivedCount]
  have record : sent.record = c.opener.sealAt c.opener.next sent.kind sent.plaintext := by
    have same := congrArg Sent.record written
    rw [← sentAt_congr invariant.opener, ← counter] at same
    exact same
  rw [record]
  exact RecordOpener.open_sealAt (by rw [invariant.opener.1]; exact correct) running valid fits

/-- **Only the next message is opened.** -/
theorem Invariant.opened (invariant : Invariant fresh c) (correct : fresh.aead.Correct)
    {record : Bytes} (genuine : c.Genuine (.offer record)) :
    (∃ e, c.opener.open record = (.error e, c.opener)) ∨
      ∃ sent, c.sent[c.received.length]? = some sent ∧ sent.record = record ∧
        c.opener.open record = (.ok sent.message, c.opener.advance) := by
  rcases c.opener.open_cases record with rejected | ⟨plaintext, running, opened, -⟩
  · exact Or.inl rejected
  · obtain ⟨sent, listed, nonce, aad, -, ciphertext⟩ := genuine plaintext opened
    obtain ⟨i, inside, at'⟩ := List.mem_iff_getElem.mp listed
    have found : c.sent[i]? = some sent := by rw [List.getElem?_eq_getElem inside, at']
    have written := (invariant.sent i sent found).1
    have count : c.sent.length ≤ 2 ^ 64 := invariant.sentCount ▸ c.sealer.position_le
    -- the nonce tells which message it is
    have below : c.opener.position < 2 ^ 64 := by
      refine lt_of_le_of_ne c.opener.position_le fun full => ?_
      rw [c.opener.exhausted_iff.mpr full] at running
      cases running
    have same : i = c.opener.position := by
      have repeated : makeRecordNonce fresh.noncePrefix (.ofNat i) =
          makeRecordNonce fresh.noncePrefix (.ofNat c.opener.position) := by
        rw [← RecordDirection.next_eq running, ← invariant.opener.2.1, ← nonce, invariant.opener.2.1]
        exact (congrArg Sent.nonce written).symm
      exact makeRecordNonce_inj (by omega) below repeated
    rw [invariant.receivedCount] at same
    subst same
    -- the associated data fixes the header, the cipher what follows it
    have header : makeRecordHeader sent.kind (.ofNat c.received.length) sent.plaintext.length =
        record.take recordHeaderSize := by
      have bound := (congrArg Sent.aad written).symm.trans aad
      rw [invariant.opener.2.2] at bound
      exact List.append_cancel_left bound
    have whole : sent.record = record := by
      have start : sent.record.take recordHeaderSize = record.take recordHeaderSize := by
        rw [congrArg Sent.record written, ← header]
        exact List.take_left' (length_makeRecordHeader _ _ _)
      rw [← List.take_append_drop recordHeaderSize sent.record, start, ciphertext,
        List.take_append_drop]
    exact Or.inr ⟨sent, found, whole, whole ▸ invariant.opens correct found⟩

theorem received_concat {received : List (RecordKind × Bytes)} {sent : List Sent} {next : Sent}
    (before : received <+: sent.map Sent.message) (found : sent[received.length]? = some next) :
    received ++ [next.message] <+: sent.map Sent.message := by
  have inside := (List.getElem?_eq_some_iff.mp found).1
  have at' := (List.getElem?_eq_some_iff.mp found).2
  rw [List.prefix_iff_eq_take] at before ⊢
  have step : (sent.map Sent.message).take (received.length + 1) =
      (sent.map Sent.message).take received.length ++ [next.message] := by
    rw [List.take_succ_eq_append_getElem (by simpa using inside), List.getElem_map, at']
  rw [List.length_append, List.length_singleton, step, ← before]

theorem invariant_new (start : fresh.position = 0) : Invariant fresh (new fresh fresh) :=
  ⟨⟨rfl, rfl, rfl⟩, ⟨rfl, rfl, rfl⟩, start, start, fun _ _ found => by simp [new] at found,
    List.nil_prefix⟩

/-- What the receiver has opened when it opens the next message. -/
def receive (c : RecordChannel) (sent : Sent) : RecordChannel :=
  { c with opener := c.opener.advance, received := c.received ++ [sent.message] }

theorem Invariant.receive (invariant : Invariant fresh c) {sent : Sent}
    (next : c.sent[c.received.length]? = some sent) : Invariant fresh (c.receive sent) := by
  obtain ⟨aead, noncePrefix, transcriptHash⟩ := c.opener.advance_same
  refine ⟨invariant.sealer, ?_, invariant.sentCount, ?_, invariant.sent,
    received_concat invariant.received next⟩
  · exact ⟨aead.trans invariant.opener.1, noncePrefix.trans invariant.opener.2.1,
      transcriptHash.trans invariant.opener.2.2⟩
  · show _ = (c.received ++ [sent.message]).length
    rw [List.length_append, List.length_singleton, ← invariant.receivedCount]
    exact RecordDirection.position_advance (invariant.running next)

/-- **What one step keeps**, of any record that is not forged. -/
theorem invariant_step (invariant : Invariant fresh c) (correct : fresh.aead.Correct)
    (event : RecordEvent) (genuine : c.Genuine event) : Invariant fresh (c.step event) := by
  cases event with
  | send kind plaintext =>
    rcases RecordSealer.seal_cases c.sealer kind plaintext with
      ⟨-, e, refused⟩ | ⟨running, valid, fits, sealed⟩
    · rw [step, refused]
      exact invariant
    · rw [step, sealed]
      obtain ⟨aead, noncePrefix, transcriptHash⟩ := c.sealer.advance_same
      have counter : c.sealer.next = .ofNat c.sent.length := by
        rw [RecordDirection.next_eq running, invariant.sentCount]
      refine ⟨?_, invariant.opener, ?_, invariant.receivedCount, fun i sent found => ?_, ?_⟩
      · exact ⟨aead.trans invariant.sealer.1, noncePrefix.trans invariant.sealer.2.1,
          transcriptHash.trans invariant.sealer.2.2⟩
      · rw [List.length_append, List.length_singleton, ← invariant.sentCount]
        exact RecordDirection.position_advance running
      · rw [List.getElem?_append] at found
        split_ifs at found with earlier
        · exact invariant.sent i sent found
        · have last : i = c.sent.length ∧
              c.sealer.sentAt c.sealer.next kind plaintext = sent := by
            rw [List.getElem?_singleton] at found
            split_ifs at found with first
            exact ⟨by omega, by simpa using found⟩
          obtain ⟨rfl, rfl⟩ := last
          rw [sentAt_congr invariant.sealer, counter]
          exact ⟨rfl, valid, fits⟩
      · rw [List.map_append]
        exact invariant.received.trans (List.prefix_append _ _)
  | offer record =>
    rcases invariant.opened correct genuine with ⟨e, rejected⟩ | ⟨sent, found, rfl, opened⟩
    · rw [step, rejected]
      exact invariant
    · rw [step, opened]
      exact invariant.receive found

theorem Invariant.drain (invariant : Invariant fresh c) (correct : fresh.aead.Correct) :
    (trace RecordOpener.open c.opener
        ((c.sent.drop c.received.length).map (·.record))).1 =
      (c.sent.drop c.received.length).map fun sent => .ok sent.message := by
  generalize pending : c.sent.drop c.received.length = rest
  induction rest generalizing c with
  | nil => rfl
  | cons sent rest ih =>
    have next : c.sent[c.received.length]? = some sent := by
      have head := congrArg (·[0]?) pending
      simpa [List.getElem?_drop] using head
    have later : (c.receive sent).sent.drop (c.receive sent).received.length = rest := by
      have tail := congrArg List.tail pending
      rw [List.tail_drop] at tail
      show c.sent.drop (c.received ++ [sent.message]).length = rest
      rw [List.length_append, List.length_singleton, tail]
      rfl
    have opened := invariant.opens correct next
    have others := ih (invariant.receive next) later
    simp only [List.map_cons, trace, opened]
    exact congrArg _ others

theorem Invariant.nodup (invariant : Invariant fresh c) {β : Type} (field : Sent → β)
    (apart : ∀ i j (one other : Sent), i < 2 ^ 64 → j < 2 ^ 64 →
      one = fresh.sentAt (.ofNat i) one.kind one.plaintext →
      other = fresh.sentAt (.ofNat j) other.kind other.plaintext → field one = field other →
      i = j) : (c.sent.map field).Nodup := by
  have count : c.sent.length ≤ 2 ^ 64 := invariant.sentCount ▸ c.sealer.position_le
  refine List.nodup_iff_getElem?_ne_getElem?.mpr fun i j before inside same => ?_
  rw [List.length_map] at inside
  have one := invariant.sent i _ (List.getElem?_eq_getElem (before.trans inside))
  have other := invariant.sent j _ (List.getElem?_eq_getElem inside)
  rw [List.getElem?_map, List.getElem?_map, List.getElem?_eq_getElem inside,
    List.getElem?_eq_getElem (before.trans inside)] at same
  have equal := apart i j _ _ (by omega) (by omega) one.1 other.1 (by simpa using same)
  omega

end RecordChannel

theorem newRecordDirection_ok {newX : Bytes → Aead} {key noncePrefix transcriptHash : Bytes}
    {d : RecordDirection} (made : newRecordDirection newX key noncePrefix transcriptHash = .ok d) :
    d = ⟨newX key, noncePrefix, transcriptHash, 0, false⟩ := by
  rw [newRecordDirection] at made
  split_ifs at made
  cases made
  rfl

/-- **What one end seals, the other opens**, as long as the counter lasts. -/
theorem RecordOpener.open_sealed {d : RecordDirection} {messages : List (RecordKind × Bytes)}
    (correct : d.aead.Correct) (room : d.position + messages.length ≤ 2 ^ 64)
    (sealable : ∀ m ∈ messages, RecordKind.valid m.1 = true ∧ m.2.length ≤ maxRecordPlaintext) :
    ∃ wire : List Bytes,
      (trace (fun s m => RecordSealer.seal s m.1 m.2) d messages).1 = wire.map .ok ∧
        (trace RecordOpener.open d wire).1 = messages.map .ok := by
  induction messages generalizing d with
  | nil => exact ⟨[], rfl, rfl⟩
  | cons m rest ih =>
    obtain ⟨valid, fits⟩ := sealable m List.mem_cons_self
    rw [List.length_cons] at room
    have running : d.exhausted = false := by
      rw [Bool.eq_false_iff, ne_eq, d.exhausted_iff]
      omega
    have written : RecordSealer.seal d m.1 m.2 = (.ok (d.sealAt d.next m.1 m.2), d.advance) := by
      rw [RecordSealer.seal, if_neg (by simp [running]), if_neg (by simp [valid]), if_neg (not_lt.mpr fits)]
    have opened := RecordOpener.open_sealAt correct running valid fits
    have next := RecordDirection.position_advance running
    obtain ⟨wire, others, read⟩ := ih (d := d.advance) (d.advance_same.1 ▸ correct) (by omega) fun m later =>
      sealable m (List.mem_cons_of_mem _ later)
    refine ⟨d.sealAt d.next m.1 m.2 :: wire, ?_, ?_⟩
    · simp only [trace, written, others, List.map_cons]
    · simp only [trace, opened, read, List.map_cons]

/-! ### Exhaustion -/

theorem RecordSealer.trace_exhausted {s : RecordSealer} (stopped : s.exhausted = true)
    (messages : List (RecordKind × Bytes)) :
    trace (fun s message => RecordSealer.seal s message.1 message.2) s messages =
      (messages.map fun _ => .error .exhausted, s) := by
  induction messages with
  | nil => rfl
  | cons message rest ih =>
    have refused : s.seal message.1 message.2 = (.error .exhausted, s) := by
      rw [RecordSealer.seal, if_pos stopped]
    simp only [trace, refused, ih, List.map_cons]

theorem RecordOpener.trace_exhausted {o : RecordOpener} (stopped : o.exhausted = true)
    (records : List Bytes) :
    trace RecordOpener.open o records = (records.map fun _ => .error .exhausted, o) := by
  induction records with
  | nil => rfl
  | cons record rest ih =>
    have refused : o.open record = (.error .exhausted, o) := by
      rw [RecordOpener.open, if_pos stopped]
    simp only [trace, refused, ih, List.map_cons]

open RecordChannel in
/-- **The record layer is correct.** Whatever records are offered to the receiver in between, as
long as the cipher is not forged: the receiver has opened the first of the sealed messages, in order;
the records still to come, offered in order, are all opened; every other record, reordered, repeated,
early or altered, is rejected and leaves the receiver as it is. No nonce is used twice, no two records
are equal, and an end that has counted to the last counter rejects everything from then on. -/
theorem record_layer_correct {newX : Bytes → Aead} {key noncePrefix transcriptHash : Bytes}
    {sealer : RecordSealer} {opener : RecordOpener} {events : List RecordEvent} {c : RecordChannel}
    (ideal : (newX key).Correct)
    (sealing : newRecordSealer newX key noncePrefix transcriptHash = .ok sealer)
    (opening : newRecordOpener newX key noncePrefix transcriptHash = .ok opener)
    (genuine : Meets RecordChannel.step Genuine (.new sealer opener) events)
    (reached : run RecordChannel.step (.new sealer opener) events = c) :
    c.received <+: c.sent.map Sent.message ∧
      (trace RecordOpener.open c.opener ((c.sent.drop c.received.length).map (·.record))).1 =
        ((c.sent.drop c.received.length).map fun sent => .ok sent.message) ∧
      (∀ record, c.Genuine (.offer record) →
        (∀ sent, c.sent[c.received.length]? = some sent → sent.record ≠ record) →
        ∃ e, c.opener.open record = (.error e, c.opener)) ∧
      (∀ kind plaintext, RecordKind.valid kind = true → plaintext.length ≤ maxRecordPlaintext →
        c.sealer.exhausted = false → (c.step (.send kind plaintext)).sent.map Sent.message =
          c.sent.map Sent.message ++ [(kind, plaintext)]) ∧
      (c.sent.map (·.nonce)).Nodup ∧ (c.sent.map (·.record)).Nodup ∧
      (c.sealer.exhausted = true ↔ c.sent.length = 2 ^ 64) ∧
      (c.opener.exhausted = true ↔ c.received.length = 2 ^ 64) ∧
      (c.sealer.exhausted = true → ∀ messages,
        trace (fun s (message : RecordKind × Bytes) => RecordSealer.seal s message.1 message.2)
            c.sealer messages =
          (messages.map fun _ => .error .exhausted, c.sealer)) ∧
      (c.opener.exhausted = true → ∀ records, trace RecordOpener.open c.opener records =
        (records.map fun _ => .error .exhausted, c.opener)) := by
  have one := newRecordDirection_ok sealing
  have other := newRecordDirection_ok opening
  subst one other
  have correct : (RecordDirection.mk (newX key) noncePrefix transcriptHash 0 false).aead.Correct :=
    ideal
  have invariant : Invariant ⟨newX key, noncePrefix, transcriptHash, 0, false⟩ c := by
    rw [← reached]
    exact run_invariant_of_meets (Invariant _)
      (fun _ event invariant genuine => invariant_step invariant correct event genuine)
      (invariant_new rfl) genuine
  refine ⟨invariant.received, invariant.drain correct, fun record genuine other => ?_,
    fun kind plaintext valid fits running => ?_, ?_, ?_, ?_, ?_, fun stopped messages => ?_,
    fun stopped records => ?_⟩
  · rcases invariant.opened correct genuine with rejected | ⟨sent, found, same, -⟩
    · exact rejected
    · exact absurd same (other sent found)
  · rcases RecordSealer.seal_cases c.sealer kind plaintext with
      ⟨stopped | wrong | large, -⟩ | ⟨-, -, -, sealed⟩
    · rw [running] at stopped
      cases stopped
    · rw [valid] at wrong
      cases wrong
    · exact absurd fits (not_le.mpr large)
    · rw [step, sealed]
      simp [Sent.message, RecordDirection.sentAt]
  · refine invariant.nodup _ fun i j one other small little first second same => ?_
    rw [congrArg Sent.nonce first, congrArg Sent.nonce second] at same
    exact makeRecordNonce_inj small little same
  · refine invariant.nodup _ fun i j one other small little first second same => ?_
    rw [congrArg Sent.record first, congrArg Sent.record second] at same
    have counters := congrArg (numberAt · 2 10) same
    simp only [RecordDirection.sentAt, RecordDirection.sealAt, counter_makeRecordHeader,
      UInt64.toNat_ofNat', Nat.mod_eq_of_lt small, Nat.mod_eq_of_lt little] at counters
    exact counters
  · rw [c.sealer.exhausted_iff, invariant.sentCount]
  · rw [c.opener.exhausted_iff, invariant.receivedCount]
  · exact RecordSealer.trace_exhausted stopped messages
  · exact RecordOpener.trace_exhausted stopped records

/-- A checksum of everything that is authenticated. -/
def sampleTag (nonce plaintext aad : Bytes) : Bytes :=
  List.replicate 16 ((nonce ++ plaintext ++ aad).foldl (fun sum octet => sum * 31 + octet + 1) 7)

def sampleAead : Aead where
  sealBytes nonce plaintext aad := plaintext ++ sampleTag nonce plaintext aad
  openBytes nonce ciphertext aad :=
    let plaintext := ciphertext.take (ciphertext.length - 16)
    if ciphertext.drop (ciphertext.length - 16) = sampleTag nonce plaintext aad then some plaintext
    else none

theorem sampleAead_correct : sampleAead.Correct where
  opens nonce plaintext aad := by
    simp [sampleAead, sampleTag]
  tagged nonce plaintext aad := by
    simp [sampleAead, sampleTag, recordTagSize]

/-- The second record comes early, the first arrives altered, then both arrive and one again. -/
def sampleRecords : List RecordEvent :=
  let d : RecordDirection := ⟨sampleAead, List.replicate 16 9, List.replicate 32 5, 0, false⟩
  let first := d.sealAt 0 1 [1, 2]
  let second := d.sealAt 1 4 []
  [.send 1 [1, 2], .send 4 [], .offer second, .offer (first.set 1 4), .offer first, .offer second,
    .offer first]

theorem record_layer_correct_sample :
    let d : RecordDirection := ⟨sampleAead, List.replicate 16 9, List.replicate 32 5, 0, false⟩
    let c := run RecordChannel.step (.new d d) sampleRecords
    c.received <+: c.sent.map Sent.message ∧ c.received = [(1, [1, 2]), (4, [])] := by
  intro d c
  have made : newRecordDirection (fun _ => sampleAead) (List.replicate 32 1) (List.replicate 16 9)
      (List.replicate 32 5) = .ok d := by
    rw [newRecordDirection, if_neg (by decide)]
  have genuine : Meets RecordChannel.step RecordChannel.Genuine (.new d d) sampleRecords := by
    decide +kernel
  exact ⟨(record_layer_correct sampleAead_correct made made genuine rfl).1, by decide +kernel⟩

end Atterm.Transport
