/-
**What a replay says.**

The frames of a replay carry the bytes of its chunks, joined into batches; if the queue of the
subscriber is full, they carry the first of these bytes. The cap leaves the newest chunks, and says
whether the client sees a torn view.

* `payload`, `Built` — the bytes of frames, and frames put into the queue for bytes;
* `Replay.flush_built`, `Replay.add_built`, `Replay.addAll_built` — that every step keeps to this;
* `replay_content` — a replay and its cap.
-/

import Atterm.Relay.Replay
import Atterm.Relay.RingHistory

namespace Atterm.Relay

open Atterm.Foundation

def ReplayFrame.payload : ReplayFrame → List UInt8
  | .out _ data => data
  | .progress .. => []

def payload (frames : List ReplayFrame) : List UInt8 := frames.flatMap ReplayFrame.payload

@[simp] theorem payload_append (first second : List ReplayFrame) :
    payload (first ++ second) = payload first ++ payload second := List.flatMap_append

namespace Replay

/-- The frames that were put into the queue, and the batch that is still open, carry the batch from
before and then some bytes. -/
def Built (r r' : Replay) (bytes : List UInt8) : Prop :=
  ∃ frames, r'.queue = r.queue ++ frames ∧ payload frames ++ r'.batchData = r.batchData ++ bytes

variable {totalBytes : ℕ} {r r₁ r' : Replay} {c : Chunk} {chunks : List Chunk}

theorem Built.refl (r : Replay) : Built r r [] :=
  ⟨[], (List.append_nil _).symm, (List.append_nil _).symm⟩

theorem Built.trans {first second : List UInt8} (before : Built r r₁ first)
    (after : Built r₁ r' second) : Built r r' (first ++ second) := by
  obtain ⟨frames, queued, carried⟩ := before
  obtain ⟨frames', queued', carried'⟩ := after
  refine ⟨frames ++ frames', ?_, ?_⟩
  · rw [queued', queued, List.append_assoc]
  · rw [payload_append, List.append_assoc, carried', ← List.append_assoc, carried, List.append_assoc]

/-- The outcome of a step that brings some bytes: they are built, or only some of the first of them are
because the queue is full. -/
def Brings (r : Replay) (bytes : List UInt8) : Except Replay Replay → Prop
  | .ok r' => Built r r' bytes
  | .error r' => ∃ some_bytes, some_bytes <+: bytes ∧ Built r r' some_bytes

theorem Brings.after {first second : List UInt8} {outcome : Except Replay Replay}
    (brings : Brings r₁ second outcome) (built : Built r r₁ first) :
    Brings r (first ++ second) outcome := by
  cases outcome with
  | ok r' => exact built.trans brings
  | error r' =>
    obtain ⟨some_bytes, initial, later⟩ := brings
    exact ⟨first ++ some_bytes, (List.prefix_append_right_inj first).mpr initial, built.trans later⟩

theorem Brings.bind {first second : List UInt8} {step : Except Replay Replay}
    {next : Replay → Except Replay Replay} (brings : Brings r first step)
    (then_brings : ∀ r₁, step = .ok r₁ → Brings r₁ second (next r₁)) :
    Brings r (first ++ second) (step >>= next) := by
  cases step with
  | error r' =>
    obtain ⟨some_bytes, initial, built⟩ := brings
    exact ⟨some_bytes, initial.trans (List.prefix_append first second), built⟩
  | ok r₁ => exact (then_brings r₁ rfl).after brings

theorem reportProgress_built : Brings r [] (reportProgress totalBytes r) := by
  induction r using reportProgress.induct totalBytes with
  | case1 r due free ih =>
    rw [reportProgress, if_pos due, if_pos free]
    have reported : Built r (r.progressed totalBytes) [] :=
      ⟨[.progress .chunk r.replayedBytes totalBytes r.lastSeq], rfl, (List.append_nil _).symm⟩
    exact ih.after reported
  | case2 r due full =>
    rw [reportProgress, if_pos due, if_neg full]
    exact ⟨[], List.nil_prefix, Built.refl r⟩
  | case3 r idle =>
    rw [reportProgress, if_neg idle]
    exact Built.refl r

theorem flush_built : Brings r [] (r.flush totalBytes) := by
  rw [flush]
  split
  · exact Built.refl r
  · split
    · have sent : Built r r.flushed [] := by
        refine ⟨[.out r.batchSeq r.batchData], rfl, ?_⟩
        rw [List.append_nil]
        exact (List.append_nil _).trans (List.append_nil _)
      exact reportProgress_built.after sent
    · exact ⟨[], List.nil_prefix, Built.refl r⟩

theorem flush_batchData (flushes : r.flush totalBytes = .ok r') : r'.batchData = [] := by
  by_cases empty : r.batchData = []
  · rw [flush_nil empty] at flushes
    cases flushes
    exact empty
  · exact (flush_ok flushes empty).batchData

theorem makeRoom_built : Brings r [] (r.makeRoom totalBytes c) := by
  rw [makeRoom]
  split
  · exact flush_built
  · exact Built.refl r

theorem flushFull_built : Brings r [] (r.flushFull totalBytes) := by
  rw [flushFull]
  split
  · exact flush_built
  · exact Built.refl r

theorem add_built : Brings r c.data (r.add totalBytes c) := by
  refine Brings.bind makeRoom_built fun r₁ _ => ?_
  show Brings r₁ c.data _
  have joined : Built r₁ (r₁.join c) c.data := ⟨[], (List.append_nil _).symm, rfl⟩
  have brings := (@flushFull_built totalBytes (r₁.join c)).after joined
  rwa [List.append_nil] at brings

theorem addAll_built : Brings r (contentOf chunks) (r.addAll totalBytes chunks) := by
  induction chunks generalizing r with
  | nil => exact Built.refl r
  | cons c rest ih => exact Brings.bind add_built fun r₁ _ => ih

/-- **The frames of a replay carry the bytes of its chunks, or the first of them if the queue is full.** -/
theorem enqueue_built : match r.enqueueReplayChunks chunks totalBytes with
    | .ok r' => ∃ frames, r'.queue = r.queue ++ frames ∧ payload frames = contentOf chunks
    | .error r' => ∃ frames, r'.queue = r.queue ++ frames ∧ payload frames <+: contentOf chunks := by
  have brings : Brings r.fresh (contentOf chunks ++ []) (r.enqueueReplayChunks chunks totalBytes) :=
    Brings.bind addAll_built fun r₁ _ => flush_built
  rw [List.append_nil] at brings
  cases outcome : r.enqueueReplayChunks chunks totalBytes with
  | ok r' =>
    rw [outcome] at brings
    obtain ⟨frames, queued, carried⟩ := brings
    obtain ⟨r₁, -, flushes⟩ := bind_ok outcome
    rw [flush_batchData flushes, List.append_nil] at carried
    exact ⟨frames, queued, carried⟩
  | error r' =>
    rw [outcome] at brings
    obtain ⟨some_bytes, initial, frames, queued, carried⟩ := brings
    refine ⟨frames, queued, List.IsPrefix.trans ?_ initial⟩
    exact ⟨r'.batchData, carried⟩

end Replay

theorem capReplayTail_flag {chunks : List Chunk} : (capReplayTail chunks).2 = true ↔
    (capReplayTail chunks).1 ≠ chunks ∨
      ∃ c, (capReplayTail chunks).1 = [c] ∧ replayTailCapBytes < c.data.length := by
  have suffix := @capReplayTail_suffix chunks
  have shorter : (capReplayTail chunks).1.length < chunks.length ↔ (capReplayTail chunks).1 ≠ chunks := by
    constructor
    · exact fun short same => absurd (congrArg List.length same) short.ne
    · exact fun other => lt_of_le_of_ne suffix.length_le fun same => other (suffix.eq_of_length same)
  have large : replayTailCapBytes < (capWalk chunks).1 ↔
      ∃ c, (capReplayTail chunks).1 = [c] ∧ replayTailCapBytes < c.data.length := by
    rw [capWalk_kept.1]
    constructor
    · intro exceeded
      obtain ⟨c, single⟩ := List.length_eq_one_iff.mp
        (capReplayTail_small.resolve_left (Nat.not_le_of_lt exceeded))
      have kept : (capWalk chunks).2.1 = [c] := single
      rw [kept, replayBytes_cons, replayBytes_nil] at exceeded
      exact ⟨c, single, exceeded⟩
    · rintro ⟨c, single, exceeded⟩
      have kept : (capWalk chunks).2.1 = [c] := single
      rw [kept, replayBytes_cons, replayBytes_nil]
      exact exceeded
  rw [← shorter, ← large]
  exact Bool.or_eq_true_iff.trans (or_congr decide_eq_true_iff decide_eq_true_iff)

/-- **A replay keeps the content of its chunks, and the cap keeps the newest of them.** -/
theorem replay_content (r : Replay) (chunks : List Chunk) (totalBytes : ℕ) :
    (match r.enqueueReplayChunks chunks totalBytes with
      | .ok r' => ∃ frames, r'.queue = r.queue ++ frames ∧ payload frames = contentOf chunks
      | .error r' => ∃ frames, r'.queue = r.queue ++ frames ∧ payload frames <+: contentOf chunks) ∧
    (r.Unsent → replayBytes chunks ≤ scrollbackBytes →
      ∃ r', r.enqueueReplayChunks chunks totalBytes = .ok r') ∧
    (capReplayTail chunks).1 <:+ chunks ∧
    (replayBytes (capReplayTail chunks).1 ≤ replayTailCapBytes ∨ (capReplayTail chunks).1.length = 1) ∧
    ((capReplayTail chunks).2 = true ↔ (capReplayTail chunks).1 ≠ chunks ∨
      ∃ c, (capReplayTail chunks).1 = [c] ∧ replayTailCapBytes < c.data.length) :=
  ⟨Replay.enqueue_built, Replay.enqueue_fits, capReplayTail_suffix, capReplayTail_small,
    capReplayTail_flag⟩

theorem replay_content_small : ∃ r' frames,
    Replay.enqueueReplayChunks ⟨[], 0, 0, replayProgressIntervalBytes, [], 0⟩
      [⟨1, [7]⟩, ⟨2, []⟩, ⟨3, [8, 9]⟩] 3 = .ok r' ∧ r'.queue = frames ∧ payload frames = [7, 8, 9] := by
  obtain ⟨built, fits, -⟩ := replay_content ⟨[], 0, 0, replayProgressIntervalBytes, [], 0⟩
    [⟨1, [7]⟩, ⟨2, []⟩, ⟨3, [8, 9]⟩] 3
  obtain ⟨r', replays⟩ := fits ⟨by decide, rfl, rfl⟩ (by decide)
  rw [replays] at built
  obtain ⟨frames, queued, carried⟩ := built
  exact ⟨r', frames, replays, queued, carried⟩

/-- A single chunk over the cap is kept, and the view is called torn all the same. -/
theorem capReplayTail_flags_kept :
    ¬ ∀ chunks, ((capReplayTail chunks).2 = true ↔ (capReplayTail chunks).1 ≠ chunks) := by
  intro flags
  have large : ∃ data : List UInt8, replayTailCapBytes < data.length :=
    ⟨List.replicate (replayTailCapBytes + 1) 0, by rw [List.length_replicate]; exact Nat.lt_succ_self _⟩
  obtain ⟨data, exceeded⟩ := large
  have kept : (capReplayTail [⟨1, data⟩]).1 = [⟨1, data⟩] := by
    rcases List.suffix_cons_iff.mp (@capReplayTail_suffix [⟨1, data⟩]) with whole | nothing
    · exact whole
    · exact absurd (capReplayTail_eq_nil.mp (List.suffix_nil.mp nothing)) (List.cons_ne_nil _ _)
  exact (flags [⟨1, data⟩]).mp (capReplayTail_flag.mpr (Or.inr ⟨⟨1, data⟩, kept, exceeded⟩)) kept

end Atterm.Relay
