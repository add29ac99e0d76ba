/-
**The codec of the service proxy.**

A preview multiplexes its connections over sealed packets. One end seals under a sequence number that
never repeats, the other opens only what is newer than the last packet it has opened. The header is
bound as associated data together with the service; the cipher itself is a parameter.

* `parseHeader_ok_iff` — the packets that the relay lets through;
* `Codec.open_seal`, `Codec.open_stream` — a packet that is sealed later is opened, and so is a whole
  stream that arrives in order;
* `service_codec_correct` — what is opened was sealed, in order and once, and no nonce is used twice.
-/

import Atterm.Foundation.Runs
import Atterm.Foundation.Simulation
import Atterm.Transport.Record

namespace Atterm.Service

open Atterm.Foundation Atterm.Transport

def version : UInt8 := 1
def headerSize : ℕ := 24
def maxPlaintextSize : ℕ := 64 * 1024
def gcmTagSize : ℕ := 16
def maxPacketSize : ℕ := headerSize + maxPlaintextSize + gcmTagSize

/-- `ATSP` -/
def magic : Bytes := [0x41, 0x54, 0x53, 0x50]

abbrev Kind := UInt8

def kindOpen : Kind := 1
def kindData : Kind := 2
def kindClose : Kind := 3

def validKind (kind : Kind) : Bool := kind == kindOpen || kind == kindData || kind == kindClose

/-- `ErrInvalidPacket`, of the structure and of the cipher, and `ErrReplay`. -/
inductive CodecError where
  | invalidPacket
  | authentication
  | replay
deriving DecidableEq, Repr

/-- What a service, and a session, is known by. -/
abbrev UUID := { id : Bytes // id.length = 16 }

structure Header where
  kind : Kind
  connection : UInt32
  sequence : UInt64
  sealedLen : UInt32
deriving DecidableEq, Repr

def writeHeader (h : Header) : Bytes :=
  magic ++ ([version, h.kind, 0, 0] ++ (bigEndian 4 h.connection.toNat ++
    (bigEndian 8 h.sequence.toNat ++ bigEndian 4 h.sealedLen.toNat)))

def parseHeader (packet : Bytes) : Except CodecError Header :=
  if packet.length < headerSize + gcmTagSize ∨ maxPacketSize < packet.length then
    .error .invalidPacket
  else if packet.take 4 ≠ magic ∨ packet.getD 4 0 ≠ version ∨ packet.getD 6 0 ≠ 0 ∨
      packet.getD 7 0 ≠ 0 then
    .error .invalidPacket
  else
    let h : Header := {
      kind := packet.getD 5 0
      connection := .ofNat (numberAt packet 8 12)
      sequence := .ofNat (numberAt packet 12 20)
      sealedLen := .ofNat (numberAt packet 20 24) }
    if validKind h.kind = false ∨ h.connection = 0 ∨ h.sequence = 0 ∨
        h.sealedLen.toNat ≠ packet.length - headerSize then
      .error .invalidPacket
    else .ok h

def sequenceNonce (seq : UInt64) : Bytes := [0, 0, 0, 0] ++ bigEndian 8 seq.toNat

/-- Seals one direction and opens the other. -/
structure Codec where
  serviceID : UUID
  tx : Aead
  rx : Aead
  txSeq : UInt64
  rxSeq : UInt64

def Codec.aad (c : Codec) (header : Bytes) : Bytes := c.serviceID.val ++ header

def Codec.header (c : Codec) (kind : Kind) (connection : UInt32) (plaintext : Bytes) : Header where
  kind := kind
  connection := connection
  sequence := c.txSeq + 1
  sealedLen := .ofNat (plaintext.length + gcmTagSize)

def Codec.packet (c : Codec) (h : Header) (plaintext : Bytes) : Bytes :=
  writeHeader h ++ c.tx.sealBytes (sequenceNonce h.sequence) plaintext (c.aad (writeHeader h))

def Codec.seal (c : Codec) (kind : Kind) (connection : UInt32) (plaintext : Bytes) :
    Except CodecError Bytes × Codec :=
  if validKind kind = false ∨ connection = 0 ∨ maxPlaintextSize < plaintext.length then
    (.error .invalidPacket, c)
  else if c.txSeq = .ofNat (2 ^ 64 - 1) then (.error .invalidPacket, c)
  else (.ok (c.packet (c.header kind connection plaintext) plaintext), { c with txSeq := c.txSeq + 1 })

def Codec.open (c : Codec) (packet : Bytes) : Except CodecError (Header × Bytes) × Codec :=
  match parseHeader packet with
  | .error e => (.error e, c)
  | .ok h =>
    if h.sequence ≤ c.rxSeq then (.error .replay, c)
    else
      match c.rx.openBytes (sequenceNonce h.sequence) (packet.drop headerSize)
          (c.aad (packet.take headerSize)) with
      | none => (.error .authentication, c)
      | some plaintext => (.ok (h, plaintext), { c with rxSeq := h.sequence })

/-! ### The header -/

/-- A header that stands before a number of sealed octets. -/
structure Header.Heads (h : Header) (rest : Bytes) : Prop where
  kind : validKind h.kind = true
  connection : h.connection ≠ 0
  sequence : h.sequence ≠ 0
  sealedLen : h.sealedLen.toNat = rest.length
  tagged : gcmTagSize ≤ rest.length
  bounded : rest.length ≤ maxPlaintextSize + gcmTagSize

@[simp] theorem length_writeHeader (h : Header) : (writeHeader h).length = headerSize := by
  simp [writeHeader, magic, headerSize]

theorem fields_writeHeader (h : Header) (rest : Bytes) :
    numberAt (writeHeader h ++ rest) 8 12 = h.connection.toNat ∧
      numberAt (writeHeader h ++ rest) 12 20 = h.sequence.toNat ∧
      numberAt (writeHeader h ++ rest) 20 24 = h.sealedLen.toNat := by
  have fixed : (magic ++ [version, h.kind, 0, 0]).length = 8 := rfl
  have written : writeHeader h ++ rest = (magic ++ [version, h.kind, 0, 0]) ++
      (bigEndian 4 h.connection.toNat ++ (bigEndian 8 h.sequence.toNat ++
        (bigEndian 4 h.sealedLen.toNat ++ rest))) := by
    simp [writeHeader]
  rw [written]
  refine ⟨?_, ?_, ?_⟩
  · exact (numberAt_skip fixed 0 4).trans (numberAt_head h.connection.toNat_lt)
  · exact (numberAt_skip fixed 4 12).trans <| (numberAt_skip (length_bigEndian 4 _) 0 8).trans
      (numberAt_head h.sequence.toNat_lt)
  · exact (numberAt_skip fixed 12 16).trans <| (numberAt_skip (length_bigEndian 4 _) 8 12).trans <|
      (numberAt_skip (length_bigEndian 8 _) 0 4).trans (numberAt_head h.sealedLen.toNat_lt)

theorem extract_octet {octets : Bytes} {position : ℕ} (inside : position < octets.length) :
    octets.extract position (position + 1) = [octets.getD position 0] := by
  rw [List.extract_eq_take_drop, Nat.add_sub_cancel_left, List.drop_eq_getElem_cons inside,
    List.take_succ_cons, List.take_zero, List.getD_eq_getElem _ _ inside]

theorem extract_append_extract {octets : Bytes} {start middle stop : ℕ} (first : start ≤ middle)
    (second : middle ≤ stop) :
    octets.extract start middle ++ octets.extract middle stop = octets.extract start stop := by
  have split : stop - start = (middle - start) + (stop - middle) := by omega
  rw [List.extract_eq_take_drop, List.extract_eq_take_drop, List.extract_eq_take_drop, split,
    List.take_add, List.drop_drop, Nat.add_sub_cancel' first]

theorem bigEndian_numberAt {octets : Bytes} {start width : ℕ} (inside : start + width ≤ octets.length) :
    bigEndian width (numberAt octets start (start + width)) =
      octets.extract start (start + width) := by
  have length : (octets.extract start (start + width)).length = width := by
    rw [List.extract_eq_take_drop, List.length_take, List.length_drop]
    omega
  have read := bigEndian_ofBigEndian (octets.extract start (start + width))
  rwa [length] at read

theorem writeHeader_read {packet : Bytes} (long : headerSize ≤ packet.length)
    (start : packet.take 4 = magic) (current : packet.getD 4 0 = version)
    (first : packet.getD 6 0 = 0) (second : packet.getD 7 0 = 0) :
    writeHeader ⟨packet.getD 5 0, .ofNat (numberAt packet 8 12), .ofNat (numberAt packet 12 20),
      .ofNat (numberAt packet 20 24)⟩ = packet.take headerSize := by
  rw [headerSize] at long
  have octets : [version, packet.getD 5 0, 0, 0] = packet.extract 4 8 := by
    rw [← extract_append_extract (show 4 ≤ 5 by decide) (show 5 ≤ 8 by decide),
      ← extract_append_extract (show 5 ≤ 6 by decide) (show 6 ≤ 8 by decide),
      ← extract_append_extract (show 6 ≤ 7 by decide) (show 7 ≤ 8 by decide),
      extract_octet (by omega), extract_octet (by omega), extract_octet (by omega),
      extract_octet (by omega), current, first, second]
    rfl
  have connection : bigEndian 4 (UInt32.ofNat (numberAt packet 8 12)).toNat = packet.extract 8 12 := by
    rw [UInt32.toNat_ofNat', Nat.mod_eq_of_lt (show _ < 2 ^ 32 from numberAt_lt packet 8 12)]
    exact bigEndian_numberAt (by omega)
  have sequence : bigEndian 8 (UInt64.ofNat (numberAt packet 12 20)).toNat =
      packet.extract 12 20 := by
    rw [UInt64.toNat_ofNat', Nat.mod_eq_of_lt (show _ < 2 ^ 64 from numberAt_lt packet 12 20)]
    exact bigEndian_numberAt (by omega)
  have sealedLen : bigEndian 4 (UInt32.ofNat (numberAt packet 20 24)).toNat =
      packet.extract 20 24 := by
    rw [UInt32.toNat_ofNat', Nat.mod_eq_of_lt (show _ < 2 ^ 32 from numberAt_lt packet 20 24)]
    exact bigEndian_numberAt (by omega)
  have head : magic = packet.extract 0 4 := by
    rw [List.extract_eq_take_drop]
    exact start.symm
  rw [writeHeader, connection, sequence, sealedLen, octets, head,
    extract_append_extract (by decide) (by decide), extract_append_extract (by decide) (by decide),
    extract_append_extract (by decide) (by decide), extract_append_extract (by decide) (by decide),
    List.extract_eq_take_drop]
  rfl

theorem writeHeader_inj {one other : Header} (same : writeHeader one = writeHeader other) :
    one = other := by
  have first := fields_writeHeader one []
  have second := fields_writeHeader other []
  have kind : one.kind = other.kind := by
    have octet := congrArg (·.getD 5 0) same
    exact octet
  rw [same] at first
  have connection := UInt32.toNat_inj.mp (first.1.symm.trans second.1)
  have sequence := UInt64.toNat_inj.mp (first.2.1.symm.trans second.2.1)
  have sealedLen := UInt32.toNat_inj.mp (first.2.2.symm.trans second.2.2)
  cases one
  cases other
  simp only at kind connection sequence sealedLen
  rw [kind, connection, sequence, sealedLen]

/-- **The packets that pass**: a written header before as many octets as it says. -/
theorem parseHeader_ok_iff {packet : Bytes} {h : Header} :
    parseHeader packet = .ok h ↔ ∃ rest, packet = writeHeader h ++ rest ∧ h.Heads rest := by
  constructor
  · intro parsed
    rw [parseHeader] at parsed
    dsimp only at parsed
    split_ifs at parsed with size start fields
    · rw [headerSize, gcmTagSize] at size
      push Not at size start
      push Not at fields
      have written := writeHeader_read (show headerSize ≤ packet.length by rw [headerSize]; omega)
        start.1 start.2.1 start.2.2.1 start.2.2.2
      rw [Except.ok.inj parsed] at written
      have kept := Except.ok.inj parsed
      refine ⟨packet.drop headerSize, ?_, ?_⟩
      · rw [written, List.take_append_drop]
      · rw [← kept]
        refine ⟨by simpa using fields.1, fields.2.1, fields.2.2.1, ?_, ?_, ?_⟩
        · rw [List.length_drop]
          exact fields.2.2.2
        · rw [List.length_drop, headerSize, gcmTagSize]
          omega
        · have most := size.2
          rw [maxPacketSize, headerSize] at most
          rw [List.length_drop, headerSize]
          omega
  · rintro ⟨rest, rfl, kind, connection, sequence, sealedLen, tagged, bounded⟩
    have length : (writeHeader h ++ rest).length = headerSize + rest.length := by simp
    have fields := fields_writeHeader h rest
    rw [parseHeader, if_neg, if_neg]
    · simp only [fields.1, fields.2.1, fields.2.2, UInt32.ofNat_toNat, UInt64.ofNat_toNat]
      rw [if_neg]
      · rfl
      · push Not
        refine ⟨?_, connection, sequence, ?_⟩
        · show validKind h.kind ≠ false
          simp [kind]
        · rw [length, Nat.add_sub_cancel_left, sealedLen]
    · push Not
      exact ⟨rfl, rfl, rfl, rfl⟩
    · rw [length, maxPacketSize]
      omega

/-! ### One packet -/

variable {c : Codec} {packet plaintext : Bytes} {kind : Kind} {connection : UInt32} {h : Header}

/-- What `Seal` takes. -/
structure Sealable (c : Codec) (kind : Kind) (connection : UInt32) (plaintext : Bytes) : Prop where
  kind : validKind kind = true
  connection : connection ≠ 0
  bounded : plaintext.length ≤ maxPlaintextSize
  running : c.txSeq.toNat + 1 < 2 ^ 64

theorem Sealable.sequence (sealable : Sealable c kind connection plaintext) :
    (c.txSeq + 1).toNat = c.txSeq.toNat + 1 := by
  rw [UInt64.toNat_add]
  exact Nat.mod_eq_of_lt sealable.running

/-- **What `Seal` can do**: refuse and stay, or seal under the next sequence number. -/
theorem Codec.seal_cases (c : Codec) (kind : Kind) (connection : UInt32) (plaintext : Bytes) :
    c.seal kind connection plaintext = (.error .invalidPacket, c) ∨
      Sealable c kind connection plaintext ∧ c.seal kind connection plaintext =
        (.ok (c.packet (c.header kind connection plaintext) plaintext),
          { c with txSeq := c.txSeq + 1 }) := by
  rw [Codec.seal]
  by_cases wrong : validKind kind = false ∨ connection = 0 ∨ maxPlaintextSize < plaintext.length
  · exact Or.inl (if_pos wrong)
  · rw [if_neg wrong]
    by_cases last : c.txSeq = .ofNat (2 ^ 64 - 1)
    · exact Or.inl (if_pos last)
    · push Not at wrong
      refine Or.inr ⟨⟨by simpa using wrong.1, wrong.2.1, wrong.2.2, ?_⟩, if_neg last⟩
      by_contra beyond
      have bound := c.txSeq.toNat_lt
      have top : c.txSeq.toNat = 2 ^ 64 - 1 := by omega
      refine last (UInt64.toNat_inj.mp ?_)
      rw [top]
      rfl

theorem Sealable.heads (sealable : Sealable c kind connection plaintext) (correct : c.tx.Correct) :
    (c.header kind connection plaintext).Heads (c.tx.sealBytes (sequenceNonce (c.txSeq + 1)) plaintext
      (c.aad (writeHeader (c.header kind connection plaintext)))) := by
  have tagged := correct.tagged (sequenceNonce (c.txSeq + 1)) plaintext
    (c.aad (writeHeader (c.header kind connection plaintext)))
  have bounded := sealable.bounded
  have length : plaintext.length + gcmTagSize < 2 ^ 32 := by
    rw [maxPlaintextSize] at bounded
    rw [gcmTagSize]
    omega
  refine ⟨sealable.kind, sealable.connection, fun zero => ?_, ?_, ?_, ?_⟩
  · have next := sealable.sequence
    have nothing := congrArg UInt64.toNat zero
    simp only [Codec.header, next] at nothing
    cases nothing
  · rw [tagged]
    show (UInt32.ofNat (plaintext.length + gcmTagSize)).toNat = _
    rw [UInt32.toNat_ofNat', Nat.mod_eq_of_lt length]
    rfl
  · rw [tagged]
    exact Nat.le_add_left _ _
  · rw [tagged]
    exact Nat.add_le_add_right bounded _

/-- **What `Open` can do**: reject and stay, or open a newer packet. -/
theorem Codec.open_cases (c : Codec) (packet : Bytes) :
    (∃ e, c.open packet = (.error e, c)) ∨
      ∃ h plaintext, parseHeader packet = .ok h ∧ c.rxSeq < h.sequence ∧
        c.rx.openBytes (sequenceNonce h.sequence) (packet.drop headerSize)
          (c.aad (packet.take headerSize)) = some plaintext ∧
        c.open packet = (.ok (h, plaintext), { c with rxSeq := h.sequence }) := by
  unfold Codec.open
  cases parsed : parseHeader packet with
  | error e => exact Or.inl ⟨e, rfl⟩
  | ok h =>
    by_cases replayed : h.sequence ≤ c.rxSeq
    · exact Or.inl ⟨.replay, if_pos replayed⟩
    · cases opened : c.rx.openBytes (sequenceNonce h.sequence) (packet.drop headerSize)
          (c.aad (packet.take headerSize)) with
      | none => exact Or.inl ⟨.authentication, by simp only [if_neg replayed, opened]⟩
      | some plaintext =>
        exact Or.inr ⟨h, plaintext, rfl, UInt64.not_le.mp replayed, opened,
          by simp only [if_neg replayed, opened]⟩

/-- **A packet that is newer than all that was opened is opened.** -/
theorem Codec.open_seal {receiver sender : Codec} (correct : sender.tx.Correct)
    (paired : receiver.rx = sender.tx) (same : receiver.serviceID = sender.serviceID)
    (older : receiver.rxSeq ≤ sender.txSeq) (sealable : Sealable sender kind connection plaintext) :
    receiver.open (sender.packet (sender.header kind connection plaintext) plaintext) =
      (.ok (sender.header kind connection plaintext, plaintext),
        { receiver with rxSeq := sender.txSeq + 1 }) := by
  generalize header : sender.header kind connection plaintext = h
  have heads := sealable.heads correct
  rw [header] at heads
  have sequence : h.sequence = sender.txSeq + 1 := by rw [← header, Codec.header]
  have parsed : parseHeader (sender.packet h plaintext) = .ok h := by
    rw [parseHeader_ok_iff, Codec.packet, sequence]
    exact ⟨_, rfl, heads⟩
  have newer : ¬h.sequence ≤ receiver.rxSeq := by
    rw [sequence, UInt64.le_iff_toNat_le, sealable.sequence]
    have bound := UInt64.le_iff_toNat_le.mp older
    omega
  have dropped : (sender.packet h plaintext).drop headerSize = _ :=
    List.drop_left' (length_writeHeader h)
  have taken : (sender.packet h plaintext).take headerSize = writeHeader h :=
    List.take_left' (length_writeHeader h)
  have bound : receiver.aad (writeHeader h) = sender.aad (writeHeader h) := by
    rw [Codec.aad, Codec.aad, same]
  unfold Codec.open
  simp only [parsed, if_neg newer, dropped, taken, bound, paired, correct.opens]
  rw [sequence]

/-- **What one side seals, the other opens**, when nothing is lost on the way: the messages of a
connection arrive as they were queued. -/
theorem Codec.open_stream {messages : List (Kind × UInt32 × Bytes)} {sender receiver : Codec}
    (correct : sender.tx.Correct) (paired : receiver.rx = sender.tx)
    (same : receiver.serviceID = sender.serviceID) (older : receiver.rxSeq ≤ sender.txSeq)
    (valid : ∀ m ∈ messages, validKind m.1 = true ∧ m.2.1 ≠ 0 ∧ m.2.2.length ≤ maxPlaintextSize)
    (room : sender.txSeq.toNat + messages.length < 2 ^ 64) :
    ∃ (packets : List Bytes) (opened : List (Header × Bytes)),
      (trace (fun c (m : Kind × UInt32 × Bytes) => Codec.seal c m.1 m.2.1 m.2.2) sender messages).1 =
        packets.map .ok ∧ (trace Codec.open receiver packets).1 = opened.map .ok ∧
      opened.map (fun m => (m.1.kind, m.1.connection, m.2)) = messages := by
  induction messages generalizing sender receiver with
  | nil => exact ⟨[], [], rfl, rfl, rfl⟩
  | cons m rest ih =>
    obtain ⟨kind, connection, bounded⟩ := valid m (List.mem_cons_self ..)
    rw [List.length_cons] at room
    have sealable : Sealable sender m.1 m.2.1 m.2.2 := ⟨kind, connection, bounded, by omega⟩
    have sealed : sender.seal m.1 m.2.1 m.2.2 =
        (.ok (sender.packet (sender.header m.1 m.2.1 m.2.2) m.2.2),
          { sender with txSeq := sender.txSeq + 1 }) := by
      rw [Codec.seal, if_neg, if_neg]
      · intro last
        have top := sealable.running
        rw [last] at top
        exact absurd top (by decide)
      · push Not
        exact ⟨by simp [kind], connection, bounded⟩
    have next := sealable.sequence
    obtain ⟨packets, opened, sealing, opening, said⟩ := @ih
      { sender with txSeq := sender.txSeq + 1 } { receiver with rxSeq := sender.txSeq + 1 } correct
      paired same (UInt64.le_refl _) (fun m listed => valid m (List.mem_cons_of_mem _ listed))
      (by dsimp only; omega)
    refine ⟨sender.packet (sender.header m.1 m.2.1 m.2.2) m.2.2 :: packets,
      (sender.header m.1 m.2.1 m.2.2, m.2.2) :: opened, ?_, ?_, ?_⟩
    · simp only [trace, sealed, List.map_cons]
      rw [sealing]
    · simp only [trace, Codec.open_seal correct paired same older sealable, List.map_cons]
      rw [opening]
    · rw [List.map_cons, said]
      rfl

theorem sequenceNonce_inj {one other : UInt64} (same : sequenceNonce one = sequenceNonce other) :
    one = other := by
  have octets := List.append_cancel_left same
  exact UInt64.toNat_inj.mp ((bigEndian_inj one.toNat_lt other.toNat_lt).mp octets)

/-- **The headers that stand before some octets are those that are sealed.** -/
theorem heads_iff_sealed (c : Codec) {rest : Bytes} : h.Heads rest ↔
    ∃ sender kind connection plaintext, Sealable sender kind connection plaintext ∧
      sender.header kind connection plaintext = h ∧ rest.length = plaintext.length + gcmTagSize := by
  constructor
  · rintro ⟨kind, connection, sequence, sealedLen, tagged, bounded⟩
    have size : (List.replicate (rest.length - gcmTagSize) (0 : UInt8)).length + gcmTagSize =
        rest.length := by
      rw [List.length_replicate]
      omega
    have next : h.sequence - 1 + 1 = h.sequence := UInt64.sub_add_cancel _ _
    refine ⟨{ c with txSeq := h.sequence - 1 }, h.kind, h.connection,
      List.replicate (rest.length - gcmTagSize) 0, ⟨kind, connection, ?_, ?_⟩, ?_, size.symm⟩
    · rw [List.length_replicate]
      omega
    · show (h.sequence - 1).toNat + 1 < 2 ^ 64
      by_contra beyond
      have bound := (h.sequence - 1).toNat_lt
      have top : h.sequence - 1 = .ofNat (2 ^ 64 - 1) := by
        refine UInt64.toNat_inj.mp ?_
        have last : (h.sequence - 1).toNat = 2 ^ 64 - 1 := by omega
        rw [last]
        rfl
      refine sequence ?_
      rw [← next, top]
      rfl
    · rw [Codec.header, size, ← sealedLen, UInt32.ofNat_toNat]
      show (⟨h.kind, h.connection, h.sequence - 1 + 1, h.sealedLen⟩ : Header) = h
      rw [next]
  · rintro ⟨sender, kind, connection, plaintext, sealable, rfl, size⟩
    have bounded := sealable.bounded
    have small : plaintext.length + gcmTagSize < 2 ^ 32 := by
      rw [maxPlaintextSize] at bounded
      rw [gcmTagSize]
      omega
    refine ⟨sealable.kind, sealable.connection, fun zero => ?_, ?_, by omega, by omega⟩
    · have nothing := congrArg UInt64.toNat zero
      simp only [Codec.header, sealable.sequence] at nothing
      cases nothing
    · show (UInt32.ofNat (plaintext.length + gcmTagSize)).toNat = _
      rw [UInt32.toNat_ofNat', Nat.mod_eq_of_lt small, size]

/-! ### The two ends -/

/-- A sealed packet, with the nonce and the associated data it was sealed under. -/
structure SealedPacket where
  header : Header
  plaintext : Bytes
  nonce : Bytes
  aad : Bytes
  packet : Bytes
deriving DecidableEq, Repr

def SealedPacket.message (s : SealedPacket) : Header × Bytes := (s.header, s.plaintext)

def Codec.sealedPacket (c : Codec) (h : Header) (plaintext : Bytes) : SealedPacket where
  header := h
  plaintext := plaintext
  nonce := sequenceNonce h.sequence
  aad := c.aad (writeHeader h)
  packet := c.packet h plaintext

/-- One side seals a message, or somebody offers the other a packet of any origin. -/
inductive PacketEvent where
  | send (kind : Kind) (connection : UInt32) (plaintext : Bytes)
  | offer (packet : Bytes)
deriving DecidableEq, Repr

/-- One direction of a service: its two ends, what has been sealed and what has been opened. -/
structure PacketChannel where
  sender : Codec
  receiver : Codec
  sent : List SealedPacket
  received : List (Header × Bytes)

namespace PacketChannel

def new (sender receiver : Codec) : PacketChannel := ⟨sender, receiver, [], []⟩

def step (c : PacketChannel) : PacketEvent → PacketChannel
  | .send kind connection plaintext =>
    match c.sender.seal kind connection plaintext with
    | (.ok _, sender) =>
      { c with
        sender := sender
        sent := c.sent ++
          [c.sender.sealedPacket (c.sender.header kind connection plaintext) plaintext] }
    | (.error _, sender) => { c with sender := sender }
  | .offer packet =>
    match c.receiver.open packet with
    | (.ok message, receiver) =>
      { c with receiver := receiver, received := c.received ++ [message] }
    | (.error _, receiver) => { c with receiver := receiver }

/-- What the cipher opens under a nonce and associated data was sealed under them. -/
def Unforged (aead : Aead) (sent : List SealedPacket) (nonce ciphertext aad : Bytes) : Prop :=
  ∀ plaintext ∈ aead.openBytes nonce ciphertext aad,
    ∃ s ∈ sent, s.nonce = nonce ∧ s.aad = aad ∧ s.plaintext = plaintext

instance (aead : Aead) (sent : List SealedPacket) (nonce ciphertext aad : Bytes) :
    Decidable (Unforged aead sent nonce ciphertext aad) :=
  inferInstanceAs (Decidable (∀ plaintext ∈ aead.openBytes nonce ciphertext aad,
    ∃ s ∈ sent, s.nonce = nonce ∧ s.aad = aad ∧ s.plaintext = plaintext))

/-- The packet that is offered does not forge the cipher. -/
def Genuine (c : PacketChannel) : PacketEvent → Prop
  | .send _ _ _ => True
  | .offer packet =>
    Unforged c.receiver.rx c.sent (sequenceNonce (.ofNat (numberAt packet 12 20)))
      (packet.drop headerSize) (c.receiver.aad (packet.take headerSize))

instance (c : PacketChannel) : (event : PacketEvent) → Decidable (c.Genuine event)
  | .send _ _ _ => inferInstanceAs (Decidable True)
  | .offer _ => inferInstanceAs (Decidable (Unforged _ _ _ _ _))

/-- The packets are numbered upwards on both sides, and what was opened had been sealed. -/
structure Sound (c : PacketChannel) : Prop where
  sent : ∀ s ∈ c.sent, s = c.sender.sealedPacket s.header s.plaintext ∧
    s.header.sequence ≤ c.sender.txSeq
  ascending : c.sent.Pairwise (·.header.sequence < ·.header.sequence)
  received : ∀ m ∈ c.received, m ∈ c.sent.map SealedPacket.message ∧
    m.1.sequence ≤ c.receiver.rxSeq
  ordered : c.received.Pairwise (·.1.sequence < ·.1.sequence)

variable {c : PacketChannel}

theorem sound_new (sender receiver : Codec) : (new sender receiver).Sound where
  sent := by simp [new]
  ascending := .nil
  received := by simp [new]
  ordered := .nil

theorem pairwise_concat {α : Type*} {r : α → α → Prop} {items : List α} {last : α}
    (before : items.Pairwise r) (below : ∀ item ∈ items, r item last) :
    (items ++ [last]).Pairwise r := by
  refine List.pairwise_append.mpr ⟨before, List.pairwise_singleton _ _, fun item listed other tail => ?_⟩
  rw [List.mem_singleton.mp tail]
  exact below item listed

theorem Sound.send (sound : c.Sound) {kind : Kind} {connection : UInt32} {plaintext : Bytes}
    (sealable : Sealable c.sender kind connection plaintext) :
    Sound { c with
      sender := { c.sender with txSeq := c.sender.txSeq + 1 }
      sent := c.sent ++
        [c.sender.sealedPacket (c.sender.header kind connection plaintext) plaintext] } := by
  have later : ∀ s ∈ c.sent, s.header.sequence < c.sender.txSeq + 1 := by
    intro s listed
    have bound := UInt64.le_iff_toNat_le.mp (sound.sent s listed).2
    rw [UInt64.lt_iff_toNat_lt, sealable.sequence]
    omega
  refine ⟨fun s listed => ?_, pairwise_concat sound.ascending later, fun m listed => ?_,
    sound.ordered⟩
  · rcases List.mem_append.mp listed with earlier | last
    · exact ⟨(sound.sent s earlier).1, UInt64.le_of_lt (later s earlier)⟩
    · rw [List.mem_singleton.mp last]
      exact ⟨rfl, UInt64.le_refl _⟩
  · rw [List.map_append]
    exact ⟨List.mem_append_left _ (sound.received m listed).1, (sound.received m listed).2⟩

/-- **A packet that is opened had been sealed**, under the header that is read. -/
theorem Sound.opened (sound : c.Sound) {packet plaintext : Bytes} {h : Header}
    (genuine : c.Genuine (.offer packet)) (parsed : parseHeader packet = .ok h)
    (opened : c.receiver.rx.openBytes (sequenceNonce h.sequence) (packet.drop headerSize)
      (c.receiver.aad (packet.take headerSize)) = some plaintext) :
    (h, plaintext) ∈ c.sent.map SealedPacket.message := by
  obtain ⟨rest, rfl, heads⟩ := parseHeader_ok_iff.mp parsed
  have sequence : UInt64.ofNat (numberAt (writeHeader h ++ rest) 12 20) = h.sequence := by
    rw [(fields_writeHeader h rest).2.1, UInt64.ofNat_toNat]
  rw [Genuine, sequence] at genuine
  obtain ⟨s, listed, -, aad, said⟩ := genuine plaintext opened
  rw [(sound.sent s listed).1, List.take_left' (length_writeHeader h)] at aad
  -- the associated data fixes the header
  have header : writeHeader s.header = writeHeader h :=
    (List.append_inj' aad (by simp)).2
  refine List.mem_map.mpr ⟨s, listed, ?_⟩
  rw [SealedPacket.message, writeHeader_inj header, said]

theorem Sound.receive (sound : c.Sound) {h : Header} {plaintext : Bytes}
    (newer : c.receiver.rxSeq < h.sequence)
    (known : (h, plaintext) ∈ c.sent.map SealedPacket.message) :
    Sound { c with
      receiver := { c.receiver with rxSeq := h.sequence }
      received := c.received ++ [(h, plaintext)] } := by
  have earlier : ∀ m ∈ c.received, m.1.sequence < h.sequence := fun m listed =>
    UInt64.lt_of_le_of_lt (sound.received m listed).2 newer
  refine ⟨sound.sent, sound.ascending, fun m listed => ?_, pairwise_concat sound.ordered earlier⟩
  rcases List.mem_append.mp listed with old | new
  · exact ⟨(sound.received m old).1, UInt64.le_of_lt (earlier m old)⟩
  · rw [List.mem_singleton.mp new]
    exact ⟨known, UInt64.le_refl _⟩

/-- **What one step keeps**, of any packet that is not forged. -/
theorem sound_step (sound : c.Sound) (event : PacketEvent) (genuine : c.Genuine event) :
    (c.step event).Sound := by
  cases event with
  | send kind connection plaintext =>
    rcases c.sender.seal_cases kind connection plaintext with refused | ⟨sealable, sealed⟩
    · rw [step, refused]
      exact sound
    · rw [step, sealed]
      exact sound.send sealable
  | offer packet =>
    rcases c.receiver.open_cases packet with ⟨e, rejected⟩ |
      ⟨h, plaintext, parsed, newer, opened, accepted⟩
    · rw [step, rejected]
      exact sound
    · rw [step, accepted]
      exact sound.receive newer (sound.opened genuine parsed opened)

/-- **What is opened is part of what was sealed**, in the same order. -/
theorem Sound.sublist (sound : c.Sound) : c.received.Sublist (c.sent.map SealedPacket.message) := by
  have distinct : c.received.Nodup := sound.ordered.imp fun less same => by
    rw [same] at less
    exact UInt64.lt_irrefl _ less
  have listed := List.subperm_of_subset distinct fun m inside => (sound.received m inside).1
  have sealed : (c.sent.map SealedPacket.message).Pairwise (·.1.sequence < ·.1.sequence) :=
    List.pairwise_map.mpr sound.ascending
  have asymmetric : Std.Antisymm (α := Header × Bytes) (·.1.sequence < ·.1.sequence) :=
    ⟨fun _ _ one other => absurd one (UInt64.lt_asymm other)⟩
  exact List.sublist_of_subperm_of_pairwise listed sound.ordered sealed

theorem Sound.nodup (sound : c.Sound) : (c.sent.map SealedPacket.nonce).Nodup := by
  refine List.pairwise_map.mpr (sound.ascending.imp_of_mem fun {one other} first second less same => ?_)
  rw [(sound.sent one first).1, (sound.sent other second).1] at same
  have equal : one.header.sequence = other.header.sequence := sequenceNonce_inj same
  rw [equal] at less
  exact UInt64.lt_irrefl _ less

end PacketChannel

theorem Codec.open_error {c : Codec} {packet : Bytes} {e : CodecError}
    (rejected : (c.open packet).1 = .error e) : (c.open packet).2 = c := by
  rcases c.open_cases packet with ⟨e, same⟩ | ⟨h, plaintext, -, -, -, accepted⟩
  · rw [same]
  · rw [accepted] at rejected
    cases rejected

/-- **What is opened was sealed, in order and once.** The packets that are offered come from anywhere
but do not forge the cipher; a packet that is rejected leaves the receiver as it was, no nonce is used
twice, and the relay lets exactly those packets through that are headed as a sealed one is. -/
theorem service_codec_correct (sender receiver : Codec) :
    (∀ events, Meets PacketChannel.step PacketChannel.Genuine (.new sender receiver) events →
      let c := run PacketChannel.step (.new sender receiver) events
      c.received.Sublist (c.sent.map SealedPacket.message) ∧ c.received.Nodup ∧
        (c.sent.map SealedPacket.nonce).Nodup) ∧
      (∀ (c : Codec) (packet : Bytes) (e : CodecError),
        (c.open packet).1 = .error e → (c.open packet).2 = c) ∧
      ∀ packet, (∃ h, parseHeader packet = .ok h) ↔
        ∃ c kind connection plaintext rest, Sealable c kind connection plaintext ∧
          rest.length = plaintext.length + gcmTagSize ∧
          packet = writeHeader (c.header kind connection plaintext) ++ rest := by
  refine ⟨fun events genuine => ?_, fun c packet e => Codec.open_error, fun packet => ?_⟩
  · have sound : (run PacketChannel.step (.new sender receiver) events).Sound :=
      run_invariant_of_meets PacketChannel.Sound
        (fun _ event sound genuine => PacketChannel.sound_step sound event genuine)
        (PacketChannel.sound_new sender receiver) genuine
    refine ⟨sound.sublist, sound.ordered.imp fun less same => ?_, sound.nodup⟩
    rw [same] at less
    exact UInt64.lt_irrefl _ less
  · constructor
    · rintro ⟨h, parsed⟩
      obtain ⟨rest, rfl, heads⟩ := parseHeader_ok_iff.mp parsed
      obtain ⟨c, kind, connection, plaintext, sealable, rfl, size⟩ :=
        (heads_iff_sealed sender).mp heads
      exact ⟨c, kind, connection, plaintext, rest, sealable, size, rfl⟩
    · rintro ⟨c, kind, connection, plaintext, rest, sealable, size, rfl⟩
      have heads := (heads_iff_sealed sender).mpr
        ⟨c, kind, connection, plaintext, sealable, rfl, size⟩
      exact ⟨_, parseHeader_ok_iff.mpr ⟨rest, rfl, heads⟩⟩

/-- A service whose cipher is a checksum. -/
def sampleCodec : Codec := ⟨⟨List.replicate 16 5, rfl⟩, sampleAead, sampleAead, 0, 0⟩

theorem Codec.open_stream_sample : ∃ (packets : List Bytes) (opened : List (Header × Bytes)),
    (trace (fun c (m : Kind × UInt32 × Bytes) => Codec.seal c m.1 m.2.1 m.2.2) sampleCodec
      [(kindOpen, 7, []), (kindData, 7, [1, 2]), (kindClose, 7, [])]).1 = packets.map .ok ∧
    (trace Codec.open sampleCodec packets).1 = opened.map .ok ∧
    opened.map (fun m => (m.1.kind, m.1.connection, m.2)) =
      [(kindOpen, 7, []), (kindData, 7, [1, 2]), (kindClose, 7, [])] :=
  Codec.open_stream sampleAead_correct rfl rfl (UInt64.le_refl _) (by decide) (by decide)

/-- The third packet arrives before the second, the first is altered, then all arrive, one again. -/
def samplePackets : List PacketEvent :=
  let first := sampleCodec.packet (sampleCodec.header kindOpen 7 []) []
  let one := { sampleCodec with txSeq := 1 }
  let second := one.packet (one.header kindData 7 [1, 2]) [1, 2]
  let two := { sampleCodec with txSeq := 2 }
  let third := two.packet (two.header kindClose 7 []) []
  [.send kindOpen 7 [], .send kindData 7 [1, 2], .send kindClose 7 [], .offer (first.set 5 2),
    .offer first, .offer third, .offer second, .offer third]

theorem service_codec_correct_sample :
    let c := run PacketChannel.step (.new sampleCodec sampleCodec) samplePackets
    c.received.Sublist (c.sent.map SealedPacket.message) ∧
      c.received.map (·.1.kind) = [kindOpen, kindClose] := by
  intro c
  have genuine : Meets PacketChannel.step PacketChannel.Genuine (.new sampleCodec sampleCodec)
      samplePackets := by
    decide +kernel
  exact ⟨((service_codec_correct sampleCodec sampleCodec).1 samplePackets genuine).1, by decide +kernel⟩

/-- A sealed packet starts with its header also when an octet follows it, and is then rejected. -/
theorem longer_packet_rejected :
    let h := sampleCodec.header kindData 7 []
    let packet := sampleCodec.packet h [] ++ [0]
    Sealable sampleCodec kindData 7 [] ∧ writeHeader h <+: packet ∧
      (∃ h', parseHeader (sampleCodec.packet h []) = .ok h') ∧
      ¬∃ h', parseHeader packet = .ok h' := by
  refine ⟨⟨rfl, by decide, by decide, by decide⟩, ?_, ⟨_, rfl⟩, ?_⟩
  · exact ⟨sampleAead.sealBytes _ [] _ ++ [0], rfl⟩
  · rintro ⟨h', parsed⟩
    have rejected : parseHeader (sampleCodec.packet (sampleCodec.header kindData 7 []) [] ++ [0]) =
        .error .invalidPacket := rfl
    rw [rejected] at parsed
    cases parsed

end Atterm.Service
