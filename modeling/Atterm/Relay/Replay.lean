/-
**The replay that an attaching client gets.**

`Subscribe` sends the newest chunks behind the cursor of the client and then catches up with what came
meanwhile, until nothing is behind the cursor. Small chunks are joined into batches; a batch without a
byte is not sent and does not move the cursor. Nobody reads the queue of the subscriber before
`Subscribe` returns.

* `enqueueReplayChunks`, `enqueue_blank`, `enqueue_spends` — a replay of chunks;
* `enqueue_lastSeq` — where it leaves the cursor;
* `pass`, `subscribe`, `subscribe_ends_iff` — the loop, and when it ends.
-/

import Atterm.Foundation.Guard
import Atterm.Foundation.Passes
import Atterm.Relay.Ringbuf

namespace Atterm.Relay

open Atterm.Foundation

def subscriberQueueDepth : ℕ := 4096
def scrollbackBytes : ℕ := 4 * 1024 * 1024
def replayProgressIntervalBytes : ℕ := 64 * 1024
def replayCoalesceTargetBytes : ℕ := 16 * 1024

inductive ReplayPhase where
  | start
  | chunk
  | finish
deriving DecidableEq, Repr

inductive ReplayFrame where
  | out (seq : ℕ) (data : List UInt8)
  | progress (phase : ReplayPhase) (bytes totalBytes seq : ℕ)
deriving DecidableEq, Repr

/-- The frames in the queue of the subscriber, the cursor and the counts of the replay, and the batch
that is being joined. -/
structure Replay where
  queue : List ReplayFrame
  lastSeq : ℕ
  replayedBytes : ℕ
  nextProgress : ℕ
  batchData : List UInt8
  batchSeq : ℕ
deriving DecidableEq, Repr

namespace Replay

/-- A frame goes into the queue if there is room for it. -/
def send (r : Replay) (frame : ReplayFrame) : Except Replay Replay :=
  if r.queue.length < subscriberQueueDepth then .ok { r with queue := r.queue ++ [frame] } else .error r

/-- The progress frame after another interval. -/
def progressed (totalBytes : ℕ) (r : Replay) : Replay :=
  { r with
    queue := r.queue ++ [.progress .chunk r.replayedBytes totalBytes r.lastSeq]
    nextProgress := r.nextProgress + replayProgressIntervalBytes }

/-- The loop of `flush` that reports the progress. -/
def reportProgress (totalBytes : ℕ) (r : Replay) : Except Replay Replay :=
  if r.nextProgress ≤ r.replayedBytes ∧ 0 < r.nextProgress then
    if r.queue.length < subscriberQueueDepth then reportProgress totalBytes (r.progressed totalBytes)
    else .error r
  else .ok r
termination_by r.replayedBytes + 1 - r.nextProgress
decreasing_by
  simp only [progressed, replayProgressIntervalBytes]
  omega

/-- The batch as a frame in the queue. -/
def flushed (r : Replay) : Replay :=
  { r with
    queue := r.queue ++ [.out r.batchSeq r.batchData]
    lastSeq := r.batchSeq
    replayedBytes := r.replayedBytes + r.batchData.length
    batchData := []
    batchSeq := 0 }

def flush (totalBytes : ℕ) (r : Replay) : Except Replay Replay :=
  if r.batchData = [] then .ok r
  else if r.queue.length < subscriberQueueDepth then reportProgress totalBytes r.flushed
  else .error r

def join (r : Replay) (c : Chunk) : Replay :=
  { r with batchData := r.batchData ++ c.data, batchSeq := c.seq }

/-- The chunk would make the batch too large. -/
def Crowded (r : Replay) (c : Chunk) : Prop :=
  r.batchData ≠ [] ∧ replayCoalesceTargetBytes < r.batchData.length + c.data.length

instance (r : Replay) (c : Chunk) : Decidable (r.Crowded c) := inferInstanceAs (Decidable (_ ∧ _))

def makeRoom (totalBytes : ℕ) (r : Replay) (c : Chunk) : Except Replay Replay :=
  if r.Crowded c then r.flush totalBytes else .ok r

def flushFull (totalBytes : ℕ) (r : Replay) : Except Replay Replay :=
  if replayCoalesceTargetBytes ≤ r.batchData.length then r.flush totalBytes else .ok r

def add (totalBytes : ℕ) (r : Replay) (c : Chunk) : Except Replay Replay := do
  let r ← r.makeRoom totalBytes c
  (r.join c).flushFull totalBytes

def addAll (totalBytes : ℕ) (r : Replay) : List Chunk → Except Replay Replay
  | [] => .ok r
  | c :: rest => do
      let r ← r.add totalBytes c
      r.addAll totalBytes rest

def fresh (r : Replay) : Replay := { r with batchData := [], batchSeq := 0 }

def enqueueReplayChunks (r : Replay) (chunks : List Chunk) (totalBytes : ℕ) : Except Replay Replay := do
  let r ← r.fresh.addAll totalBytes chunks
  r.flush totalBytes

variable {totalBytes : ℕ} {r r' : Replay} {c : Chunk} {chunks : List Chunk}

def moved (r : Replay) (seq : ℕ) : Replay := { r with batchSeq := seq }

/-! ### Frames that are sent -/

theorem reportProgress_ok (reports : reportProgress totalBytes r = .ok r')
    (room : r.queue.length ≤ subscriberQueueDepth) :
    r'.lastSeq = r.lastSeq ∧ r'.batchData = r.batchData ∧ r.queue.length ≤ r'.queue.length ∧
      r'.queue.length ≤ subscriberQueueDepth := by
  induction r using reportProgress.induct totalBytes with
  | case1 r due free ih =>
    rw [reportProgress, if_pos due, if_pos free] at reports
    have longer : (r.progressed totalBytes).queue.length = r.queue.length + 1 :=
      List.length_append
    obtain ⟨lastSeq, batchData, grows, bounded⟩ := ih reports (by rw [longer]; exact free)
    exact ⟨lastSeq, batchData, by omega, bounded⟩
  | case2 r due full =>
    rw [reportProgress, if_pos due, if_neg full] at reports
    cases reports
  | case3 r idle =>
    rw [reportProgress, if_neg idle] at reports
    cases reports
    exact ⟨rfl, rfl, le_rfl, room⟩

/-- A batch with a byte became a frame. -/
structure Sent (r r' : Replay) : Prop where
  lastSeq : r'.lastSeq = r.batchSeq
  batchData : r'.batchData = []
  grows : r.queue.length < r'.queue.length
  bounded : r'.queue.length ≤ subscriberQueueDepth

theorem flush_nil (empty : r.batchData = []) : r.flush totalBytes = .ok r := by
  rw [flush, if_pos empty]

theorem flush_ok (flushes : r.flush totalBytes = .ok r') (full : r.batchData ≠ []) : Sent r r' := by
  rw [flush, if_neg full] at flushes
  by_cases free : r.queue.length < subscriberQueueDepth
  · rw [if_pos free] at flushes
    have longer : r.flushed.queue.length = r.queue.length + 1 := List.length_append
    obtain ⟨lastSeq, batchData, grows, bounded⟩ :=
      reportProgress_ok flushes (by rw [longer]; exact free)
    exact ⟨lastSeq, batchData, by omega, bounded⟩
  · rw [if_neg free] at flushes
    cases flushes

/-! ### A chunk -/

@[simp] theorem join_batchData : (r.join c).batchData = r.batchData ++ c.data := rfl

theorem add_ok (adds : r.add totalBytes c = .ok r') : ∃ r₁ : Replay,
    (r₁ = r ∧ ¬ r.Crowded c ∨ r.Crowded c ∧ Sent r r₁) ∧
    (r' = r₁.join c ∧ (r₁.join c).batchData.length < replayCoalesceTargetBytes ∨
      replayCoalesceTargetBytes ≤ (r₁.join c).batchData.length ∧ Sent (r₁.join c) r') := by
  obtain ⟨r₁, before, after⟩ := bind_ok adds
  rw [makeRoom] at before
  rw [flushFull] at after
  refine ⟨r₁, ?_, ?_⟩
  · by_cases crowded : r.Crowded c
    · rw [if_pos crowded] at before
      exact Or.inr ⟨crowded, flush_ok before crowded.1⟩
    · rw [if_neg crowded] at before
      cases before
      exact Or.inl ⟨rfl, crowded⟩
  · by_cases large : replayCoalesceTargetBytes ≤ (r₁.join c).batchData.length
    · rw [if_pos large] at after
      refine Or.inr ⟨large, flush_ok after fun empty => ?_⟩
      rw [empty] at large
      exact absurd large (by decide)
    · rw [if_neg large] at after
      cases after
      exact Or.inl ⟨rfl, Nat.lt_of_not_le large⟩

theorem add_seq (adds : r.add totalBytes c = .ok r') (full : c.data ≠ []) :
    r'.batchData = [] ∧ r'.lastSeq = c.seq ∨ r'.batchData ≠ [] ∧ r'.batchSeq = c.seq := by
  obtain ⟨r₁, -, ⟨rfl, -⟩ | ⟨-, sent⟩⟩ := add_ok adds
  · exact Or.inr ⟨fun empty => full (List.append_eq_nil_iff.mp empty).2, rfl⟩
  · exact Or.inl ⟨sent.batchData, sent.lastSeq⟩

theorem add_below (adds : r.add totalBytes c = .ok r') :
    r'.batchData.length < replayCoalesceTargetBytes := by
  obtain ⟨r₁, -, ⟨rfl, below⟩ | ⟨-, sent⟩⟩ := add_ok adds
  · exact below
  · rw [sent.batchData]
    decide

theorem add_blank (below : r.batchData.length < replayCoalesceTargetBytes) (empty : c.data = []) :
    r.add totalBytes c = .ok (r.moved c.seq) := by
  have joined : r.join c = r.moved c.seq := by
    rw [join, empty, List.append_nil, moved]
  have room : r.makeRoom totalBytes c = .ok r := by
    refine if_neg fun crowded => ?_
    have large := crowded.2
    rw [empty, List.length_nil, Nat.add_zero] at large
    exact (below.trans large).false
  rw [add, room]
  show (r.join c).flushFull totalBytes = _
  rw [joined, flushFull]
  exact if_neg (Nat.not_le_of_lt below)

/-! ### A list of chunks -/

def lastSeqOf (seq : ℕ) (chunks : List Chunk) : ℕ := chunks.foldl (fun _ c => c.seq) seq

theorem addAll_append (first second : List Chunk) :
    r.addAll totalBytes (first ++ second) =
      r.addAll totalBytes first >>= fun r => r.addAll totalBytes second := by
  induction first generalizing r with
  | nil => rfl
  | cons c rest ih =>
    show (r.add totalBytes c >>= fun r => r.addAll totalBytes (rest ++ second)) =
      (r.add totalBytes c >>= fun r => r.addAll totalBytes rest) >>= _
    rw [bind_assoc]
    exact congrArg _ (funext fun r => ih)

theorem addAll_blank (below : r.batchData.length < replayCoalesceTargetBytes) (blank : Blank chunks) :
    r.addAll totalBytes chunks = .ok (r.moved (lastSeqOf r.batchSeq chunks)) := by
  induction chunks generalizing r with
  | nil => rfl
  | cons c rest ih =>
    obtain ⟨empty, blank⟩ := List.forall_mem_cons.mp blank
    rw [addAll, add_blank below empty]
    exact @ih (r.moved c.seq) below blank

/-- **Chunks without a byte are not sent, and leave the cursor where it is.** -/
theorem enqueue_blank (blank : Blank chunks) : ∃ seq,
    r.enqueueReplayChunks chunks totalBytes = .ok (r.fresh.moved seq) := by
  have below : r.fresh.batchData.length < replayCoalesceTargetBytes :=
    (by decide : 0 < replayCoalesceTargetBytes)
  refine ⟨lastSeqOf 0 chunks, ?_⟩
  rw [enqueueReplayChunks, addAll_blank below blank]
  show (r.fresh.moved (lastSeqOf 0 chunks)).flush totalBytes = _
  exact flush_nil rfl

/-- The queue of a replay that began when it had some length. -/
structure Grown (length : ℕ) (r : Replay) : Prop where
  grows : length ≤ r.queue.length
  bounded : length < r.queue.length → r.queue.length ≤ subscriberQueueDepth

theorem Sent.grown {length : ℕ} (sent : Sent r r') (grown : Grown length r) : Grown length r' :=
  ⟨grown.grows.trans sent.grows.le, fun _ => sent.bounded⟩

theorem Grown.add {length : ℕ} (grown : Grown length r) (adds : r.add totalBytes c = .ok r') :
    Grown length r' := by
  obtain ⟨r₁, before, after⟩ := add_ok adds
  have grown₁ : Grown length (r₁.join c) := by
    rcases before with ⟨rfl, -⟩ | ⟨-, sent⟩
    · exact ⟨grown.1, grown.2⟩
    · exact ⟨(sent.grown grown).1, (sent.grown grown).2⟩
  rcases after with ⟨rfl, -⟩ | ⟨-, sent⟩
  · exact grown₁
  · exact sent.grown grown₁

/-- The replay has sent a frame since then, or has a byte to send. -/
def Spends (length : ℕ) (r : Replay) : Prop := r.batchData = [] → length < r.queue.length

theorem spends_of_add (adds : r.add totalBytes c = .ok r') {length : ℕ} (grown : Grown length r)
    (spends : Spends length r ∨ c.data ≠ []) : Spends length r' := by
  obtain ⟨r₁, before, after⟩ := add_ok adds
  rcases after with ⟨rfl, -⟩ | ⟨-, sent⟩
  · intro empty
    obtain ⟨empty, blank⟩ := List.append_eq_nil_iff.mp empty
    rcases before with ⟨rfl, -⟩ | ⟨-, sent⟩
    · exact (spends.resolve_right fun full => full blank) empty
    · exact grown.grows.trans_lt sent.grows
  · have grown₁ : length ≤ r₁.queue.length := by
      rcases before with ⟨rfl, -⟩ | ⟨-, sent⟩
      · exact grown.grows
      · exact (sent.grown grown).grows
    exact fun _ => grown₁.trans_lt sent.grows

theorem addAll_grown {length : ℕ} (adds : r.addAll totalBytes chunks = .ok r')
    (grown : Grown length r) : Grown length r' ∧ (Spends length r → Spends length r') := by
  induction chunks generalizing r with
  | nil =>
    cases adds
    exact ⟨grown, id⟩
  | cons c rest ih =>
    obtain ⟨r₁, first, rest⟩ := bind_ok adds
    obtain ⟨grown', spends⟩ := ih rest (grown.add first)
    exact ⟨grown', fun before => spends (spends_of_add first grown (Or.inl before))⟩

theorem addAll_split {before blanks : List Chunk}
    (adds : r.addAll totalBytes (before ++ c :: blanks) = .ok r') : ∃ r₁ r₂ : Replay,
      r.addAll totalBytes before = .ok r₁ ∧ r₁.add totalBytes c = .ok r₂ ∧
        r₂.addAll totalBytes blanks = .ok r' := by
  rw [addAll_append] at adds
  obtain ⟨r₁, first, rest⟩ := bind_ok adds
  obtain ⟨r₂, adds, rest⟩ := bind_ok rest
  exact ⟨r₁, r₂, first, adds, rest⟩

/-- **A replay with a byte in it sends a frame.** -/
theorem enqueue_spends (full : ¬ Blank chunks)
    (replays : r.enqueueReplayChunks chunks totalBytes = .ok r') :
    r.queue.length < r'.queue.length ∧ r'.queue.length ≤ subscriberQueueDepth := by
  obtain ⟨before, last, blanks, rfl, byte, -⟩ := exists_last_of_not_blank full
  obtain ⟨r₃, adds, flushes⟩ := bind_ok replays
  obtain ⟨r₁, r₂, first, add, rest⟩ := addAll_split adds
  have grown : Grown r.queue.length r.fresh := ⟨le_rfl, fun grown => absurd grown (lt_irrefl _)⟩
  obtain ⟨grown₁, -⟩ := addAll_grown first grown
  obtain ⟨grown₃, spends⟩ := addAll_grown rest (grown₁.add add)
  have spends₃ := spends (spends_of_add add grown₁ (Or.inr byte))
  by_cases empty : r₃.batchData = []
  · rw [flush_nil empty] at flushes
    cases flushes
    exact ⟨spends₃ empty, grown₃.bounded (spends₃ empty)⟩
  · have sent := flush_ok flushes empty
    exact ⟨grown₃.grows.trans_lt sent.grows, sent.bounded⟩

/-! ### Where a replay leaves the cursor -/

/-- The length of the batch once there is room for another chunk, and after that chunk. -/
def roomyLength (length : ℕ) (c : Chunk) : ℕ :=
  if length ≠ 0 ∧ replayCoalesceTargetBytes < length + c.data.length then 0 else length

def batchLength (length : ℕ) (c : Chunk) : ℕ :=
  if replayCoalesceTargetBytes ≤ roomyLength length c + c.data.length then 0
  else roomyLength length c + c.data.length

/-- The length of the batch that is still to be sent after some chunks. -/
def openBatch (chunks : List Chunk) : ℕ := chunks.foldl batchLength 0

theorem add_batchLength (adds : r.add totalBytes c = .ok r') :
    r'.batchData.length = batchLength r.batchData.length c := by
  obtain ⟨r₁, before, after⟩ := add_ok adds
  have crowded : r.Crowded c ↔ r.batchData.length ≠ 0 ∧
      replayCoalesceTargetBytes < r.batchData.length + c.data.length :=
    and_congr_left' (not_congr List.length_eq_zero_iff.symm)
  have roomy : r₁.batchData.length = roomyLength r.batchData.length c := by
    rw [roomyLength]
    rcases before with ⟨rfl, roomy⟩ | ⟨full, sent⟩
    · rw [if_neg (mt crowded.mpr roomy)]
    · rw [if_pos (crowded.mp full), sent.batchData]
      rfl
  rw [join_batchData, List.length_append, roomy] at after
  rw [batchLength]
  rcases after with ⟨rfl, below⟩ | ⟨large, sent⟩
  · rw [if_neg (Nat.not_le_of_lt below), join_batchData, List.length_append, roomy]
  · rw [if_pos large, sent.batchData]
    rfl

theorem addAll_batchLength (adds : r.addAll totalBytes chunks = .ok r') :
    r'.batchData.length = chunks.foldl batchLength r.batchData.length := by
  induction chunks generalizing r with
  | nil =>
    cases adds
    rfl
  | cons c rest ih =>
    obtain ⟨r₁, first, rest⟩ := bind_ok adds
    rw [ih rest, add_batchLength first]
    rfl

theorem foldl_batchLength_blank (blank : Blank chunks) : chunks.foldl batchLength 0 = 0 := by
  induction chunks with
  | nil => rfl
  | cons c rest ih =>
    obtain ⟨empty, blank⟩ := List.forall_mem_cons.mp blank
    have still : batchLength 0 c = 0 := by
      rw [batchLength, roomyLength, empty]
      rfl
    rw [List.foldl_cons, still]
    exact ih blank

theorem openBatch_large {before blanks : List Chunk}
    (large : replayCoalesceTargetBytes ≤ c.data.length) (blank : Blank blanks) :
    openBatch (before ++ c :: blanks) = 0 := by
  have sent (length : ℕ) : batchLength length c = 0 := by
    rw [batchLength]
    exact if_pos (large.trans (Nat.le_add_left _ _))
  rw [openBatch, List.foldl_append, List.foldl_cons, sent]
  exact foldl_batchLength_blank blank

theorem enqueue_lastSeq {before blanks : List Chunk} (byte : c.data ≠ []) (blank : Blank blanks)
    (replays : r.enqueueReplayChunks (before ++ c :: blanks) totalBytes = .ok r') :
    r'.lastSeq = if openBatch (before ++ c :: blanks) = 0 then c.seq else lastSeqOf c.seq blanks := by
  obtain ⟨r₃, adds, flushes⟩ := bind_ok replays
  obtain ⟨r₁, r₂, -, add, rest⟩ := addAll_split adds
  rw [addAll_blank (add_below add) blank] at rest
  cases rest
  have counted : r₂.batchData.length = openBatch (before ++ c :: blanks) := addAll_batchLength adds
  rw [← counted]
  by_cases empty : r₂.batchData = []
  · rw [if_pos (List.length_eq_zero_iff.mpr empty)]
    have quiet : (r₂.moved (lastSeqOf r₂.batchSeq blanks)).batchData = [] := empty
    rw [flush_nil quiet] at flushes
    cases flushes
    rcases add_seq add byte with ⟨-, sent⟩ | ⟨full, -⟩
    · exact sent
    · exact absurd empty full
  · rw [if_neg (mt List.length_eq_zero_iff.mp empty), (flush_ok flushes empty).lastSeq]
    rcases add_seq add byte with ⟨sent, -⟩ | ⟨-, joined⟩
    · exact absurd sent empty
    · rw [← joined]
      rfl

/-! ### Whether a replay fits -/

/-- How many frames the queue holds: those before the replay, the batches and the progress reports. A
batch that was sent and what came next were over the target together. -/
def Account (before slack : ℕ) (r : Replay) : Prop :=
  ∃ batches reports, r.queue.length = before + batches + reports ∧
    replayCoalesceTargetBytes * batches ≤ 2 * r.replayedBytes + slack ∧
    r.nextProgress = replayProgressIntervalBytes * (reports + 1) ∧
    replayProgressIntervalBytes * reports ≤ r.replayedBytes

variable {before slack : ℕ}

theorem Account.mono {more : ℕ} (account : Account before slack r) (le : slack ≤ more) :
    Account before more r := by
  obtain ⟨batches, reports, frames, sent, due, reported⟩ := account
  exact ⟨batches, reports, frames, by omega, due, reported⟩

theorem Account.room (account : Account before slack r) (few : before ≤ 2)
    (small : slack ≤ scrollbackBytes) (within : r.replayedBytes ≤ scrollbackBytes) :
    r.queue.length + 1 < subscriberQueueDepth := by
  obtain ⟨batches, reports, frames, sent, -, reported⟩ := account
  simp only [replayCoalesceTargetBytes, replayProgressIntervalBytes, scrollbackBytes,
    subscriberQueueDepth] at *
  omega

theorem reportProgress_fits (account : Account before slack r) (few : before ≤ 2)
    (small : slack ≤ scrollbackBytes) (within : r.replayedBytes ≤ scrollbackBytes) :
    ∃ r', reportProgress totalBytes r = .ok r' ∧ Account before slack r' ∧
      r'.replayedBytes = r.replayedBytes ∧ r'.batchData = r.batchData := by
  induction r using reportProgress.induct totalBytes with
  | case1 r due free ih =>
    rw [reportProgress, if_pos due, if_pos free]
    refine ih ?_ within
    obtain ⟨batches, reports, frames, sent, next, reported⟩ := account
    refine ⟨batches, reports + 1, ?_, sent, ?_, next ▸ due.1⟩
    · show (r.queue ++ [_]).length = _
      rw [List.length_append, frames]
      rfl
    · show r.nextProgress + _ = _
      rw [next]
      ring
  | case2 r due full => exact absurd (Nat.lt_of_succ_lt (account.room few small within)) full
  | case3 r idle =>
    rw [reportProgress, if_neg idle]
    exact ⟨r, rfl, account, rfl, rfl⟩

theorem flush_fits (left : ℕ) (account : Account before slack r) (few : before ≤ 2)
    (full : r.batchData ≠ []) (small : slack ≤ scrollbackBytes) (rest : left ≤ scrollbackBytes)
    (within : r.replayedBytes + r.batchData.length ≤ scrollbackBytes)
    (covers : slack + replayCoalesceTargetBytes ≤ 2 * r.batchData.length + left) :
    ∃ r', r.flush totalBytes = .ok r' ∧ Account before left r' ∧
      r'.replayedBytes = r.replayedBytes + r.batchData.length ∧ r'.batchData = [] := by
  have free : r.queue.length < subscriberQueueDepth :=
    Nat.lt_of_succ_lt (account.room few small (Nat.le_of_add_right_le within))
  rw [flush, if_neg full, if_pos free]
  refine reportProgress_fits ?_ few rest within
  obtain ⟨batches, reports, frames, sent, next, reported⟩ := account
  refine ⟨batches + 1, reports, ?_, ?_, next, Nat.le_add_right_of_le reported⟩
  · show (r.queue ++ [_]).length = _
    rw [List.length_append, frames, List.length_singleton]
    omega
  · show _ ≤ 2 * (r.replayedBytes + r.batchData.length) + left
    rw [Nat.mul_add_one]
    omega

theorem add_fits (account : Account before r.batchData.length r) (few : before ≤ 2)
    (within : r.replayedBytes + r.batchData.length + c.data.length ≤ scrollbackBytes) :
    ∃ r', r.add totalBytes c = .ok r' ∧ Account before r'.batchData.length r' ∧
      r'.replayedBytes + r'.batchData.length =
        r.replayedBytes + r.batchData.length + c.data.length := by
  have made : ∃ r₁, r.makeRoom totalBytes c = .ok r₁ ∧
      Account before (r₁.batchData.length + c.data.length) r₁ ∧
      r₁.replayedBytes + r₁.batchData.length = r.replayedBytes + r.batchData.length := by
    by_cases crowded : r.Crowded c
    · rw [makeRoom, if_pos crowded]
      have large := crowded.2
      obtain ⟨r₁, flushes, account, replayed, empty⟩ :=
        flush_fits c.data.length account few crowded.1 (by omega) (by omega) (by omega) (by omega)
      refine ⟨r₁, flushes, ?_, ?_⟩
      · rw [empty, List.length_nil, Nat.zero_add]
        exact account
      · rw [empty, replayed, List.length_nil, Nat.add_zero]
    · rw [makeRoom, if_neg crowded]
      exact ⟨r, rfl, account.mono (Nat.le_add_right _ _), rfl⟩
  obtain ⟨r₁, makes, account₁, kept⟩ := made
  have joined : (r₁.join c).batchData.length = r₁.batchData.length + c.data.length :=
    List.length_append
  have total : (r₁.join c).replayedBytes + (r₁.join c).batchData.length =
      r.replayedBytes + r.batchData.length + c.data.length := by
    rw [joined, ← kept]
    exact (Nat.add_assoc _ _ _).symm
  have account₂ : Account before (r₁.join c).batchData.length (r₁.join c) := by
    rw [joined]
    exact account₁
  rw [add, makes]
  show ∃ r', (r₁.join c).flushFull totalBytes = .ok r' ∧ _
  by_cases large : replayCoalesceTargetBytes ≤ (r₁.join c).batchData.length
  · have full : (r₁.join c).batchData ≠ [] := by
      intro empty
      rw [empty] at large
      exact absurd large (by decide)
    obtain ⟨r', flushes, account', replayed, empty⟩ :=
      flush_fits 0 account₂ few full (by omega) (Nat.zero_le _) (by omega) (by omega)
    rw [flushFull, if_pos large]
    refine ⟨r', flushes, ?_, ?_⟩
    · rw [empty]
      exact account'
    · rw [empty, replayed, List.length_nil, Nat.add_zero, total]
  · rw [flushFull, if_neg large]
    exact ⟨r₁.join c, rfl, account₂, total⟩

theorem addAll_fits (account : Account before r.batchData.length r) (few : before ≤ 2)
    (within : r.replayedBytes + r.batchData.length + replayBytes chunks ≤ scrollbackBytes) :
    ∃ r', r.addAll totalBytes chunks = .ok r' ∧ Account before r'.batchData.length r' ∧
      r'.replayedBytes + r'.batchData.length =
        r.replayedBytes + r.batchData.length + replayBytes chunks := by
  induction chunks generalizing r with
  | nil => exact ⟨r, rfl, account, rfl⟩
  | cons c rest ih =>
    rw [replayBytes_cons] at within ⊢
    have first : r.replayedBytes + r.batchData.length + c.data.length ≤ scrollbackBytes := by omega
    obtain ⟨r₁, adds, account₁, total₁⟩ := add_fits account few first
    obtain ⟨r', addsAll, account', total'⟩ := ih account₁ (by omega)
    refine ⟨r', ?_, account', by omega⟩
    rw [addAll, adds]
    exact addsAll

structure Unsent (r : Replay) : Prop where
  few : r.queue.length ≤ 2
  replayedBytes : r.replayedBytes = 0
  nextProgress : r.nextProgress = replayProgressIntervalBytes

/-- **A first replay of no more than the scrollback fits into the queue.** -/
theorem enqueue_fits (unsent : Unsent r) (within : replayBytes chunks ≤ scrollbackBytes) :
    ∃ r', r.enqueueReplayChunks chunks totalBytes = .ok r' := by
  have account : Account r.queue.length 0 r.fresh := by
    refine ⟨0, 0, rfl, Nat.zero_le _, ?_, Nat.zero_le _⟩
    exact unsent.nextProgress
  have start : r.fresh.replayedBytes + r.fresh.batchData.length = 0 := unsent.replayedBytes
  have whole : r.fresh.replayedBytes + r.fresh.batchData.length + replayBytes chunks ≤
      scrollbackBytes := by omega
  obtain ⟨r₁, adds, account₁, total⟩ := addAll_fits account unsent.few whole
  rw [enqueueReplayChunks, adds]
  by_cases empty : r₁.batchData = []
  · exact ⟨r₁, flush_nil empty⟩
  · obtain ⟨r', flushes, -⟩ := flush_fits replayCoalesceTargetBytes account₁ unsent.few empty
      (by omega) (by decide) (by omega) (by omega)
    exact ⟨r', flushes⟩

end Replay

/-! ### The catch-up loop -/

/-- What `Subscribe` comes to: the subscriber has joined the session, or is closed. -/
inductive Outcome where
  | attached (r : Replay)
  | dropped (r : Replay)
deriving DecidableEq, Repr

/-- The replay and the bytes that it was announced to have. -/
structure CatchUp where
  replay : Replay
  totalBytes : ℕ
deriving DecidableEq, Repr

def replayIsTruncated (oldestSeq sinceSeq chunkCount : ℕ) : Bool :=
  if chunkCount = 0 then false
  else if sinceSeq = 0 then decide (1 < oldestSeq)
  else decide (sinceSeq + 1 < oldestSeq)

def replayResetMarker (altScreen : Bool) : List UInt8 :=
  if altScreen = true then "\x1b[?1049h\x1b[2J\x1b[H".toUTF8.toList
  else "\x1b[2J\x1b[H".toUTF8.toList

/-- A frame that is left out if the queue is full. -/
def Replay.offer (r : Replay) (frame : ReplayFrame) : Replay :=
  match r.send frame with
  | .ok r => r
  | .error r => r

section Subscribe

variable (scroll : Buffer scrollbackBytes) (altScreen closed : Bool) (sinceSeq : ℕ)

def snapshotChunks : List Chunk := (capReplayTail (scroll.since sinceSeq)).1

/-- The announcement of the replay, and the marker that the view is torn. -/
def opening : Replay :=
  let r := Replay.offer ⟨[], sinceSeq, 0, replayProgressIntervalBytes, [], 0⟩
    (.progress .start 0 (replayBytes (snapshotChunks scroll sinceSeq)) 0)
  if (capReplayTail (scroll.since sinceSeq)).2 ||
      replayIsTruncated scroll.oldestSeq sinceSeq (snapshotChunks scroll sinceSeq).length then
    r.offer (.out 0 (replayResetMarker altScreen))
  else r

def snapshot : Except Replay CatchUp :=
  match (opening scroll altScreen sinceSeq).enqueueReplayChunks (snapshotChunks scroll sinceSeq)
      (replayBytes (snapshotChunks scroll sinceSeq)) with
  | .ok r => .ok ⟨r, replayBytes (snapshotChunks scroll sinceSeq)⟩
  | .error r => .error r

def finish (w : CatchUp) : Outcome :=
  if closed = true then .dropped w.replay
  else match w.replay.send (.progress .finish w.replay.replayedBytes w.totalBytes w.replay.lastSeq) with
    | .ok r => .attached r
    | .error r => .dropped r

/-- The bytes announced once what is behind the cursor is replayed too. -/
def announced (w : CatchUp) : ℕ := w.totalBytes + replayBytes (scroll.since w.replay.lastSeq)

/-- One pass of the catch-up loop, while no output is pushed. -/
def pass (w : CatchUp) : Outcome ⊕ CatchUp :=
  if closed = true ∨ scroll.since w.replay.lastSeq = [] then .inl (finish closed w)
  else
    match w.replay.enqueueReplayChunks (scroll.since w.replay.lastSeq) (announced scroll w) with
    | .ok r => .inr ⟨r, announced scroll w⟩
    | .error r => .inl (.dropped r)

def subscribe (passes : ℕ) : Option Outcome :=
  match snapshot scroll altScreen sinceSeq with
  | .ok w => loop (pass scroll closed) passes w
  | .error r => some (.dropped r)

/-- `Subscribe` returns after finitely many passes. -/
def SubscribeEnds : Prop := ∃ passes, (subscribe scroll altScreen closed sinceSeq passes).isSome

/-- The loop has come to where nothing but empty chunks is behind the cursor. -/
def Stalled (w : CatchUp) : Prop :=
  closed = false ∧ scroll.since w.replay.lastSeq ≠ [] ∧ Blank (scroll.since w.replay.lastSeq)

end Subscribe

variable {scroll : Buffer scrollbackBytes} {altScreen closed : Bool} {sinceSeq : ℕ} {w next : CatchUp}

theorem subscribeEnds_iff (taken : snapshot scroll altScreen sinceSeq = .ok w) :
    SubscribeEnds scroll altScreen closed sinceSeq ↔ Ends (pass scroll closed) w := by
  simp only [SubscribeEnds, subscribe, taken, Ends]

theorem pass_leaves (done : closed = true ∨ scroll.since w.replay.lastSeq = []) :
    Ends (pass scroll closed) w :=
  ends_of_leaves (if_pos done)

theorem again_iff : Again (pass scroll closed) w next ↔
    ¬ (closed = true ∨ scroll.since w.replay.lastSeq = []) ∧
      next.totalBytes = announced scroll w ∧
      w.replay.enqueueReplayChunks (scroll.since w.replay.lastSeq) (announced scroll w) =
        .ok next.replay := by
  obtain ⟨replay, totalBytes⟩ := next
  rw [Again, pass]
  by_cases done : closed = true ∨ scroll.since w.replay.lastSeq = []
  · rw [if_pos done]
    refine ⟨fun again => ?_, fun again => absurd done again.1⟩
    cases again
  · rw [if_neg done]
    cases w.replay.enqueueReplayChunks (scroll.since w.replay.lastSeq) (announced scroll w) with
    | error r =>
      refine ⟨fun again => ?_, fun again => ?_⟩
      · cases again
      · cases again.2.2
    | ok r =>
      constructor
      · intro again
        cases again
        exact ⟨done, rfl, rfl⟩
      · rintro ⟨-, rfl, replayed⟩
        cases replayed
        rfl

/-- **A loop with nothing but empty chunks behind its cursor goes round for ever.** -/
theorem stalled_again (stalled : Stalled scroll closed w) :
    ∃ next, Again (pass scroll closed) w next ∧ Stalled scroll closed next := by
  obtain ⟨going, behind, blank⟩ := stalled
  obtain ⟨seq, replayed⟩ : ∃ seq, w.replay.enqueueReplayChunks (scroll.since w.replay.lastSeq)
      (announced scroll w) = .ok (w.replay.fresh.moved seq) := Replay.enqueue_blank blank
  refine ⟨⟨w.replay.fresh.moved seq, announced scroll w⟩, again_iff.mpr ⟨?_, rfl, replayed⟩, going, behind, blank⟩
  rintro (closes | nothing)
  · rw [going] at closes
    cases closes
  · exact behind nothing

theorem again_spends (moving : ¬ Stalled scroll closed w) (again : Again (pass scroll closed) w next) :
    w.replay.queue.length < next.replay.queue.length ∧
      next.replay.queue.length ≤ subscriberQueueDepth := by
  obtain ⟨going, -, replayed⟩ := again_iff.mp again
  rw [not_or] at going
  refine Replay.enqueue_spends (fun blank => moving ?_) replayed
  exact ⟨Bool.eq_false_of_not_eq_true going.1, going.2, blank⟩

theorem ends_iff_never_stalled : Ends (pass scroll closed) w ↔
    ∀ reached, Relation.ReflTransGen (Again (pass scroll closed)) w reached →
      ¬ Stalled scroll closed reached :=
  ends_iff (fun w => w.replay.queue.length) subscriberQueueDepth (fun _ => stalled_again)
    (fun _ _ => again_spends)

theorem not_ends_of_stalled (stalled : Stalled scroll closed w) : ¬ Ends (pass scroll closed) w :=
  not_ends_of_stands (fun _ => stalled_again) stalled

/-- The newest chunk of the ring has a byte. -/
def LastFull (scroll : Buffer scrollbackBytes) : Prop :=
  ∃ c, scroll.chunks.getLast? = some c ∧ c.data ≠ []

theorem LastFull.not_blank (full : LastFull scroll) (behind : scroll.since sinceSeq ≠ []) :
    ¬ Blank (scroll.since sinceSeq) := by
  obtain ⟨c, last, byte⟩ := full
  obtain ⟨older, split⟩ : scroll.since sinceSeq <:+ scroll.chunks := Buffer.since_suffix
  rw [← split, List.getLast?_append_of_ne_nil _ behind] at last
  exact fun blank => byte (blank c (List.mem_of_getLast? last))

/-! ### The first replay -/

theorem offer_queue (r : Replay) (frame : ReplayFrame) : ∃ queue : List ReplayFrame,
    r.offer frame = { r with queue := queue } ∧ queue.length ≤ r.queue.length + 1 := by
  rw [Replay.offer, Replay.send]
  by_cases room : r.queue.length < subscriberQueueDepth
  · rw [if_pos room]
    exact ⟨_, rfl, List.length_append.le⟩
  · rw [if_neg room]
    exact ⟨r.queue, rfl, Nat.le_succ _⟩

theorem opening_unsent (scroll : Buffer scrollbackBytes) (altScreen : Bool) (sinceSeq : ℕ) :
    (opening scroll altScreen sinceSeq).Unsent ∧
      (opening scroll altScreen sinceSeq).lastSeq = sinceSeq := by
  obtain ⟨first, started, short⟩ :=
    offer_queue ⟨[], sinceSeq, 0, replayProgressIntervalBytes, [], 0⟩
      (.progress .start 0 (replayBytes (snapshotChunks scroll sinceSeq)) 0)
  rw [List.length_nil] at short
  rw [opening, started]
  split
  · obtain ⟨second, marked, short'⟩ := offer_queue
      ⟨first, sinceSeq, 0, replayProgressIntervalBytes, [], 0⟩ (.out 0 (replayResetMarker altScreen))
    rw [marked]
    exact ⟨⟨short'.trans (Nat.succ_le_succ short), rfl, rfl⟩, rfl⟩
  · exact ⟨⟨short.trans (Nat.le_succ 1), rfl, rfl⟩, rfl⟩

theorem snapshot_blank (blank : Blank (snapshotChunks scroll sinceSeq)) :
    ∃ w, snapshot scroll altScreen sinceSeq = .ok w ∧ w.replay.Unsent ∧ w.replay.lastSeq = sinceSeq := by
  obtain ⟨unsent, cursor⟩ := opening_unsent scroll altScreen sinceSeq
  obtain ⟨seq, replayed⟩ : ∃ seq, (opening scroll altScreen sinceSeq).enqueueReplayChunks
      (snapshotChunks scroll sinceSeq) (replayBytes (snapshotChunks scroll sinceSeq)) =
        .ok ((opening scroll altScreen sinceSeq).fresh.moved seq) := Replay.enqueue_blank blank
  refine ⟨⟨(opening scroll altScreen sinceSeq).fresh.moved seq, replayBytes
    (snapshotChunks scroll sinceSeq)⟩, ?_, ?_, cursor⟩
  · rw [snapshot, replayed]
  · exact ⟨unsent.few, unsent.replayedBytes, unsent.nextProgress⟩

/-! ### Rings in order -/

theorem since_lastSeqOf (ordered : scroll.Ordered) {before blanks : List Chunk} {c : Chunk}
    (split : scroll.chunks = before ++ c :: blanks) :
    scroll.since (Replay.lastSeqOf c.seq blanks) = [] := by
  rcases List.eq_nil_or_concat blanks with rfl | ⟨rest, last, rfl⟩
  · exact Buffer.since_eq ordered split
  · rw [List.concat_eq_append] at split ⊢
    have whole : scroll.chunks = (before ++ c :: rest) ++ last :: [] := by
      rw [split, List.append_assoc, List.cons_append]
    rw [Replay.lastSeqOf, List.foldl_append]
    exact Buffer.since_eq ordered whole

section Trailing

variable {before blanks : List Chunk} {c : Chunk}

theorem since_since_eq (ordered : scroll.Ordered)
    (behind : scroll.since sinceSeq = before ++ c :: blanks) : scroll.since c.seq = blanks := by
  obtain ⟨older, split⟩ : scroll.since sinceSeq <:+ scroll.chunks := Buffer.since_suffix
  rw [behind, ← List.append_assoc] at split
  exact Buffer.since_eq ordered split.symm

theorem since_within (behind : scroll.since sinceSeq = before ++ c :: blanks) (newer : blanks ≠ []) :
    replayBytes (scroll.since sinceSeq) ≤ scrollbackBytes := by
  have suffix : scroll.since sinceSeq <:+ scroll.chunks := Buffer.since_suffix
  rcases scroll.within with within | single
  · rw [scroll.counted] at within
    exact (replayBytes_suffix suffix).trans within
  · have long := suffix.length_le.trans single
    have some_newer := List.length_pos_iff.mpr newer
    rw [behind, List.length_append, List.length_cons] at long
    omega

/-- **A ring in order that ends in empty chunks: the loop ends only if the batch is still open when it
comes to them.** -/
theorem ends_iff_of_trailing (ordered : scroll.Ordered)
    (behind : scroll.since sinceSeq = before ++ c :: blanks) (byte : c.data ≠ []) (blank : Blank blanks)
    (newer : blanks ≠ []) : SubscribeEnds scroll altScreen false sinceSeq ↔
      Replay.openBatch (snapshotChunks scroll sinceSeq) ≠ 0 := by
  have cut := since_since_eq ordered behind
  have stalls (w : CatchUp) (cursor : w.replay.lastSeq = c.seq) : Stalled scroll false w := by
    rw [Stalled, cursor, cut]
    exact ⟨rfl, newer, blank⟩
  by_cases fits : c.data.length ≤ replayTailCapBytes
  · -- the first replay comes up to the empty chunks
    obtain ⟨kept, split⟩ : c :: blanks <:+ snapshotChunks scroll sinceSeq := by
      rw [snapshotChunks, behind]
      exact capReplayTail_keeps fits blank
    have within : replayBytes (snapshotChunks scroll sinceSeq) ≤ scrollbackBytes := by
      rcases @capReplayTail_small (scroll.since sinceSeq) with small | single
      · exact small.trans (by decide)
      · have long : (snapshotChunks scroll sinceSeq).length = 1 := single
        have some_newer := List.length_pos_iff.mpr newer
        rw [← split, List.length_append, List.length_cons] at long
        omega
    obtain ⟨r, replayed⟩ : ∃ r, (opening scroll altScreen sinceSeq).enqueueReplayChunks
        (snapshotChunks scroll sinceSeq) (replayBytes (snapshotChunks scroll sinceSeq)) = .ok r :=
      Replay.enqueue_fits (opening_unsent scroll altScreen sinceSeq).1 within
    have taken : snapshot scroll altScreen sinceSeq =
        .ok ⟨r, replayBytes (snapshotChunks scroll sinceSeq)⟩ := by
      rw [snapshot, replayed]
    rw [subscribeEnds_iff taken]
    rw [← split] at replayed ⊢
    have cursor := Replay.enqueue_lastSeq byte blank replayed
    by_cases opened : Replay.openBatch (kept ++ c :: blanks) = 0
    · rw [if_pos opened] at cursor
      exact iff_of_false (not_ends_of_stalled (stalls _ cursor)) (not_not.mpr opened)
    · rw [if_neg opened] at cursor
      refine iff_of_true (pass_leaves (Or.inr ?_)) opened
      obtain ⟨older, whole⟩ : scroll.since sinceSeq <:+ scroll.chunks := Buffer.since_suffix
      rw [behind, ← List.append_assoc] at whole
      show scroll.since r.lastSeq = []
      rw [cursor]
      exact since_lastSeqOf ordered whole.symm
  · -- the first replay is capped to the empty chunks, the next one sends the large chunk by itself
    have large := Nat.lt_of_not_le fits
    have capped : snapshotChunks scroll sinceSeq = blanks := by
      rw [snapshotChunks, behind]
      exact capReplayTail_drops large blank newer
    obtain ⟨w, taken, unsent, cursor⟩ : ∃ w, snapshot scroll altScreen sinceSeq = .ok w ∧
        w.replay.Unsent ∧ w.replay.lastSeq = sinceSeq := snapshot_blank (capped ▸ blank)
    have idle : Replay.openBatch (snapshotChunks scroll sinceSeq) = 0 := by
      rw [capped]
      exact Replay.foldl_batchLength_blank blank
    obtain ⟨r, replayed⟩ : ∃ r, w.replay.enqueueReplayChunks (scroll.since w.replay.lastSeq)
        (announced scroll w) = .ok r := by
      rw [cursor]
      exact Replay.enqueue_fits unsent (since_within behind newer)
    have again : Again (pass scroll false) w ⟨r, announced scroll w⟩ := by
      refine again_iff.mpr ⟨?_, rfl, replayed⟩
      rintro (closes | nothing)
      · cases closes
      · rw [cursor, behind] at nothing
        exact List.cons_ne_nil _ _ (List.append_eq_nil_iff.mp nothing).2
    rw [cursor, behind] at replayed
    have next := Replay.enqueue_lastSeq byte blank replayed
    rw [if_pos (Replay.openBatch_large ((by decide : replayCoalesceTargetBytes ≤
      replayTailCapBytes).trans large.le) blank)] at next
    rw [subscribeEnds_iff taken, ends_iff_of_again again]
    exact iff_of_false (not_ends_of_stalled (stalls _ next)) (not_not.mpr idle)

end Trailing

theorem not_ends_of_blank (behind : scroll.since sinceSeq ≠ []) (blank : Blank (scroll.since sinceSeq)) :
    ¬ SubscribeEnds scroll altScreen false sinceSeq := by
  have kept : Blank (snapshotChunks scroll sinceSeq) :=
    fun c inside => blank c (capReplayTail_suffix.subset inside)
  obtain ⟨w, taken, -, cursor⟩ : ∃ w, snapshot scroll altScreen sinceSeq = .ok w ∧
      w.replay.Unsent ∧ w.replay.lastSeq = sinceSeq := snapshot_blank kept
  rw [subscribeEnds_iff taken]
  refine not_ends_of_stalled ⟨rfl, ?_, ?_⟩
  · rw [cursor]
    exact behind
  · rw [cursor]
    exact blank

theorem ends_iff_never_stalled_of_snapshot : SubscribeEnds scroll altScreen closed sinceSeq ↔
    ∀ first reached, snapshot scroll altScreen sinceSeq = .ok first →
      Relation.ReflTransGen (Again (pass scroll closed)) first reached →
        ¬ Stalled scroll closed reached := by
  cases taken : snapshot scroll altScreen sinceSeq with
  | error r =>
    refine iff_of_true ⟨0, ?_⟩ (fun _ _ never => by cases never)
    rw [subscribe, taken]
    rfl
  | ok w =>
    rw [subscribeEnds_iff taken, ends_iff_never_stalled]
    constructor
    · intro never first reached same path
      cases same
      exact never reached path
    · exact fun never reached path => never w reached rfl path

theorem lastFull_iff {before : List Chunk} {c : Chunk} {blanks : List Chunk}
    (behind : scroll.since sinceSeq = before ++ c :: blanks) (byte : c.data ≠ []) (blank : Blank blanks) :
    LastFull scroll ↔ blanks = [] := by
  obtain ⟨older, split⟩ : scroll.since sinceSeq <:+ scroll.chunks := Buffer.since_suffix
  rw [LastFull, ← split, behind, ← List.append_assoc]
  cases last : blanks.getLast? with
  | none =>
    rw [List.getLast?_eq_none_iff] at last
    subst last
    exact iff_of_true ⟨c, List.getLast?_concat, byte⟩ rfl
  | some newest =>
    have inside := List.mem_of_getLast? last
    have newer : blanks ≠ [] := List.ne_nil_of_mem inside
    refine iff_of_false ?_ newer
    rintro ⟨d, found, full⟩
    rw [List.getLast?_append_of_ne_nil _ (List.cons_ne_nil c blanks),
      List.getLast?_cons_of_ne_nil newer, last] at found
    cases found
    exact full (blank newest inside)

/-- **When `Subscribe` comes to an end.** -/
theorem subscribe_ends_iff (scroll : Buffer scrollbackBytes) (altScreen closed : Bool) (sinceSeq : ℕ) :
    (SubscribeEnds scroll altScreen closed sinceSeq ↔
      ∀ first reached, snapshot scroll altScreen sinceSeq = .ok first →
        Relation.ReflTransGen (Again (pass scroll closed)) first reached →
          ¬ Stalled scroll closed reached) ∧
    (LastFull scroll → SubscribeEnds scroll altScreen closed sinceSeq) ∧
    (scroll.Ordered → (SubscribeEnds scroll altScreen closed sinceSeq ↔
      closed = true ∨ scroll.since sinceSeq = [] ∨ LastFull scroll ∨
        Replay.openBatch (snapshotChunks scroll sinceSeq) ≠ 0)) := by
  have whenFull (full : LastFull scroll) : SubscribeEnds scroll altScreen closed sinceSeq := by
    refine ends_iff_never_stalled_of_snapshot.mpr fun _ _ _ _ stalled => ?_
    exact full.not_blank stalled.2.1 stalled.2.2
  refine ⟨ends_iff_never_stalled_of_snapshot, whenFull, fun ordered => ?_⟩
  cases closed with
  | true =>
    refine iff_of_true (ends_iff_never_stalled_of_snapshot.mpr ?_) (Or.inl rfl)
    exact fun _ _ _ _ stalled => by cases stalled.1
  | false =>
    rw [or_iff_right Bool.false_ne_true]
    by_cases behind : scroll.since sinceSeq = []
    · have nothing : snapshotChunks scroll sinceSeq = [] := capReplayTail_eq_nil.mpr behind
      obtain ⟨w, taken, -, cursor⟩ : ∃ w, snapshot scroll altScreen sinceSeq = .ok w ∧
          w.replay.Unsent ∧ w.replay.lastSeq = sinceSeq :=
        snapshot_blank (nothing ▸ fun _ inside => by cases inside)
      refine iff_of_true ((subscribeEnds_iff taken).mpr (pass_leaves (Or.inr ?_))) (Or.inl behind)
      rw [cursor]
      exact behind
    · rw [or_iff_right behind]
      by_cases blank : Blank (scroll.since sinceSeq)
      · refine iff_of_false (not_ends_of_blank behind blank) ?_
        rintro (full | opened)
        · exact full.not_blank behind blank
        · refine opened (Replay.foldl_batchLength_blank fun c inside => ?_)
          exact blank c (capReplayTail_suffix.subset inside)
      · obtain ⟨before, c, blanks, split, byte, blank⟩ := exists_last_of_not_blank blank
        rw [lastFull_iff split byte blank]
        by_cases newer : blanks = []
        · exact iff_of_true (whenFull ((lastFull_iff split byte blank).mpr newer)) (Or.inl newer)
        · rw [or_iff_right newer]
          exact ends_iff_of_trailing ordered split byte blank newer

theorem subscribe_ends_after_byte :
    SubscribeEnds ((Buffer.new.push ⟨1, [36]⟩).push ⟨2, []⟩) false false 0 := by
  refine ((subscribe_ends_iff _ false false 0).2.2 ?_).mpr (Or.inr (Or.inr (Or.inr (by decide))))
  exact List.pairwise_pair.mpr (by decide)

theorem subscribe_spins : ¬ ∀ (scroll : Buffer scrollbackBytes) (altScreen : Bool) (sinceSeq : ℕ),
    SubscribeEnds scroll altScreen false sinceSeq := by
  intro ends
  exact not_ends_of_blank (by decide) (by decide) (ends (Buffer.new.push ⟨1, []⟩) false 0)

end Atterm.Relay
