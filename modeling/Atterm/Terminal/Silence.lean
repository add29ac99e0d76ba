/-
**The silence heuristic over the runs of a session.**

A session that waits because of silence is restored, and a session that runs is kept running, by enough
bytes in one window of a second; each side counts for itself. A timer that has fired may still be waiting
for the lock when the session changes.

* `Session.restoreIndex_eq` — both sides decide on the same chunk, where the heuristic applies;
* `SilenceWorld.bookkept` — the flag of heuristic waiting and the restore side's accumulator fit the
  task state after every run;
* `SilenceWorld.untouched_iff_careful` — no step of the heuristic changes the task state of a session
  that its hooks drive exactly if no firing is late in such a session.
-/

import Atterm.Foundation.Runs
import Atterm.Terminal.Session

namespace Atterm.Terminal

open Atterm.Foundation
open Atterm.Relay (SessionInfo SessionSummary MetaPayload taskStateIdle taskStateRunning)

/-! ### The two sides -/

namespace Session

/-- The restore side decides to return to running on this chunk. -/
def restores (s : Session) (data : Bytes) (now : Instant) : Bool := (s.noteSilenceRestore data now).2

/-- The running side marks activity on this chunk. -/
def marks (s : Session) (data : Bytes) (now : Instant) : Bool :=
  s.noteRunningSilenceActivity data now = s.markSilenceActivity now

/-- The first chunk on which the restore side decides to return to running. -/
def restoreIndex (s : Session) : List (Bytes × Instant) → Option ℕ
  | [] => none
  | (data, now) :: chunks =>
    if s.restores data now then some 0
    else ((s.noteSilenceRestore data now).1.restoreIndex chunks).map (· + 1)

/-- The first chunk on which the running side marks activity. -/
def activityIndex (s : Session) : List (Bytes × Instant) → Option ℕ
  | [] => none
  | (data, now) :: chunks =>
    if s.marks data now then some 0
    else ((s.noteRunningSilenceActivity data now).activityIndex chunks).map (· + 1)

/-- The window and the bytes of an accumulator after a chunk. -/
def accumulated (started : Option Instant) (bytes : ℕ) (data : Bytes) (now : Instant) :
    Option Instant × ℕ :=
  if windowOver started now then (some now, data.length) else (started, bytes + data.length)

theorem length_le_accumulated (started : Option Instant) (bytes : ℕ) (data : Bytes) (now : Instant) :
    data.length ≤ (accumulated started bytes data now).2 := by
  rw [accumulated]
  split_ifs
  · exact le_rfl
  · exact Nat.le_add_left _ _

theorem accumulated_started (started : Option Instant) (bytes : ℕ) (data : Bytes) (now : Instant) :
    (accumulated started bytes data now).1 ≠ none := by
  rw [accumulated]
  split_ifs with ended
  · exact Option.some_ne_none now
  · rintro rfl
    exact ended rfl

theorem noteSilenceRestore_eq (s : Session) (data : Bytes) (now : Instant) :
    s.noteSilenceRestore data now =
      let noted := accumulated s.silenceRestoreStartedMono s.silenceRestoreBytes data now
      ({ s with silenceRestoreStartedMono := noted.1, silenceRestoreBytes := noted.2 },
        decide (s.silenceRestoreByteThreshold ≤ noted.2)) := by
  simp only [noteSilenceRestore, accumulated]
  split_ifs <;> rfl

theorem noteRunningSilenceActivity_eq {s : Session} (runs : s.info.taskState = taskStateRunning)
    (applies : s.silenceApplies = true) (data : Bytes) (now : Instant) :
    s.noteRunningSilenceActivity data now =
      let noted := accumulated s.silenceActivityStartedMono s.silenceActivityBytes data now
      if s.silenceRestoreByteThreshold ≤ noted.2 then s.markSilenceActivity now
      else { s with silenceActivityStartedMono := noted.1, silenceActivityBytes := noted.2 } := by
  have least := length_le_accumulated s.silenceActivityStartedMono s.silenceActivityBytes data now
  rw [noteRunningSilenceActivity, if_neg (not_not.mpr runs), applies]
  simp only
  by_cases large : s.silenceRestoreByteThreshold ≤ data.length
  · rw [if_neg (by decide), if_pos large, if_pos (large.trans (by exact_mod_cast least))]
  · rw [if_neg (by decide), if_neg large, accumulated]
    by_cases ended : windowOver s.silenceActivityStartedMono now = true
    · rw [if_pos ended, if_pos ended, if_neg large, if_neg large]
    · rw [if_neg ended, if_neg ended]
      rfl

structure Reset (s : Session) : Prop where
  restoreBytes : s.silenceRestoreBytes = 0
  restoreStarted : s.silenceRestoreStartedMono = none
  activityBytes : s.silenceActivityBytes = 0
  activityStarted : s.silenceActivityStartedMono = none

/-- The accumulator of the waiting session stands where that of the running one does. -/
structure Mirrors (waiting running : Session) : Prop where
  threshold : waiting.silenceRestoreByteThreshold = running.silenceRestoreByteThreshold
  bytes : waiting.silenceRestoreBytes = running.silenceActivityBytes
  started : waiting.silenceRestoreStartedMono = running.silenceActivityStartedMono
  runs : running.info.taskState = taskStateRunning
  applies : running.silenceApplies = true

variable {waiting running : Session}

/-- **One chunk**: both decide, or neither does and they stand alike again. -/
theorem Mirrors.note (mirrors : waiting.Mirrors running) (data : Bytes) (now : Instant) :
    waiting.restores data now = running.marks data now ∧
      (running.marks data now = false →
        (waiting.noteSilenceRestore data now).1.Mirrors (running.noteRunningSilenceActivity data now)) := by
  have noted := noteRunningSilenceActivity_eq mirrors.runs mirrors.applies data now
  rw [restores, marks, noteSilenceRestore_eq, noted, mirrors.threshold, mirrors.bytes, mirrors.started]
  simp only
  split_ifs with enough
  · exact ⟨by simp [enough], fun unmarked => absurd unmarked (by simp)⟩
  · have unmarked : ¬(({ running with
        silenceActivityStartedMono := (accumulated running.silenceActivityStartedMono
          running.silenceActivityBytes data now).1
        silenceActivityBytes := (accumulated running.silenceActivityStartedMono
          running.silenceActivityBytes data now).2 } : Session) = running.markSilenceActivity now) := by
      intro same
      exact accumulated_started _ _ _ _ (congrArg Session.silenceActivityStartedMono same)
    refine ⟨?_, fun _ => ⟨rfl, rfl, rfl, mirrors.runs, mirrors.applies⟩⟩
    rw [decide_eq_false enough, decide_eq_false unmarked]

theorem Mirrors.index (mirrors : waiting.Mirrors running) (chunks : List (Bytes × Instant)) :
    waiting.restoreIndex chunks = running.activityIndex chunks := by
  induction chunks generalizing waiting running with
  | nil => rfl
  | cons chunk chunks ih =>
    obtain ⟨data, now⟩ := chunk
    obtain ⟨same, later⟩ := mirrors.note data now
    rw [restoreIndex, activityIndex, same]
    split_ifs with marked
    · rfl
    · rw [ih (later (Bool.not_eq_true _ ▸ marked))]

/-- **Both sides decide on the same chunk**, from reset accumulators and in a session to which the
heuristic applies. -/
theorem restoreIndex_eq {s : Session} (reset : s.Reset) (runs : s.info.taskState = taskStateRunning)
    (applies : s.silenceApplies = true) (chunks : List (Bytes × Instant)) :
    s.restoreIndex chunks = s.activityIndex chunks :=
  Mirrors.index ⟨rfl, reset.restoreBytes.trans reset.activityBytes.symm,
    reset.restoreStarted.trans reset.activityStarted.symm, runs, applies⟩ chunks

def defaultSettings : SilenceSettings := ⟨true, 5000, 256, 1500⟩

def runningOf (type : String) : Session :=
  new { SessionInfo.zero with taskState := taskStateRunning, type } defaultSettings

theorem restoreIndex_eq_second :
    (runningOf "ai").restoreIndex
        [(List.replicate 200 0x61, ⟨0, 0⟩), (List.replicate 56 0x61, ⟨second, second⟩)] =
      (runningOf "ai").activityIndex
        [(List.replicate 200 0x61, ⟨0, 0⟩), (List.replicate 56 0x61, ⟨second, second⟩)] :=
  restoreIndex_eq ⟨rfl, rfl, rfl, rfl⟩ rfl (by decide) _

/-- A shell on the normal screen is kept running by a single byte, and not restored by it. -/
theorem shell_is_marked_at_once :
    (runningOf "shell").Reset ∧ (runningOf "shell").info.taskState = taskStateRunning ∧
      (runningOf "shell").restoreIndex [([0x61], ⟨0, 0⟩)] = none ∧
        (runningOf "shell").activityIndex [([0x61], ⟨0, 0⟩)] = some 0 :=
  ⟨⟨rfl, rfl, rfl, rfl⟩, rfl, by decide, by decide⟩

end Session

/-! ### Runs -/

/-- A session and the number of its timers that have fired and wait for the lock. -/
structure SilenceWorld where
  session : Session
  inFlight : ℕ
deriving DecidableEq, Repr

inductive SessionEvent where
  | pushOut (data : Bytes) (now : Instant)
  | applyHookState (next : String) (now : Instant)
  | updateMeta (m : MetaPayload) (now : Instant)
  | updateAdvertisedInfo (info : SessionInfo) (now : Instant)
  | updateCwdTitle (cwd title : String)
  | compareAndSwapTitle (oldTitle newTitle : String)
  | updateRemotePermission (value : String)
  | updateSize (cols rows : ℕ) (now : Instant)
  | inputAccepted
  | disableSilenceDetection
  | markContentOpaque
  | close
  /-- The timer fires. -/
  | expire
  /-- A timer that has fired gets the lock. -/
  | onSilenceFired (now : Instant)
deriving DecidableEq, Repr

namespace SilenceWorld

variable (computeSummary : List Bytes → Instant → Bool → SessionSummary)

def start (info : SessionInfo) (settings : SilenceSettings) : SilenceWorld :=
  ⟨Session.new info settings, 0⟩

def step (w : SilenceWorld) : SessionEvent → SilenceWorld
  | .pushOut data now => { w with session := w.session.pushOut computeSummary data now }
  | .applyHookState next now => { w with session := w.session.applyHookState next now }
  | .updateMeta m now => { w with session := w.session.updateMeta m now }
  | .updateAdvertisedInfo info now => { w with session := w.session.updateAdvertisedInfo info now }
  | .updateCwdTitle cwd title => { w with session := w.session.updateCwdTitle cwd title }
  | .compareAndSwapTitle oldTitle newTitle =>
    { w with session := w.session.compareAndSwapTitle oldTitle newTitle }
  | .updateRemotePermission value => { w with session := w.session.updateRemotePermission value }
  | .updateSize cols rows now => { w with session := w.session.updateSize cols rows now }
  | .inputAccepted => { w with session := w.session.inputAccepted }
  | .disableSilenceDetection => { w with session := w.session.disableSilenceDetection }
  | .markContentOpaque => { w with session := w.session.markContentOpaque }
  | .close => { w with session := w.session.close }
  | .expire =>
    if w.session.silenceTimer then
      ⟨{ w.session with silenceTimer := false }, w.inFlight + 1⟩
    else w
  | .onSilenceFired now =>
    if 0 < w.inFlight then ⟨w.session.onSilenceFired now, w.inFlight - 1⟩ else w

end SilenceWorld

/-! ### What the steps do to the bookkeeping -/

namespace Session

/-- The flag of heuristic waiting fits the task state, and without it the restore side has counted
nothing. -/
structure Bookkept (s : Session) : Prop where
  waits : s.waitingFromSilence = true → s.info.taskState = taskStateWaitingInput
  zero : s.waitingFromSilence = false →
    s.silenceRestoreBytes = 0 ∧ s.silenceRestoreStartedMono = none

/-- A session that its hooks drive does not wait because of silence. -/
def HookedQuiet (s : Session) : Prop := s.hookDriven = true → s.waitingFromSilence = false

/-- What a step other than a hook and a firing may do: neither flag is raised, heuristic waiting goes on
in its task state, and it is left with nothing counted. -/
structure Calms (s s' : Session) : Prop where
  hooked : s'.hookDriven = true → s.hookDriven = true
  waits : s'.waitingFromSilence = true → s.waitingFromSilence = true ∧
    (s.info.taskState = taskStateWaitingInput → s'.info.taskState = taskStateWaitingInput)
  zero : s'.waitingFromSilence = false →
    (s.waitingFromSilence = false → s.silenceRestoreBytes = 0 ∧ s.silenceRestoreStartedMono = none) →
      s'.silenceRestoreBytes = 0 ∧ s'.silenceRestoreStartedMono = none

variable {s s' s'' : Session}

theorem Calms.refl (s : Session) : s.Calms s :=
  ⟨id, fun waiting => ⟨waiting, id⟩, fun quiet zero => zero quiet⟩

theorem Calms.trans (first : s.Calms s') (second : s'.Calms s'') : s.Calms s'' where
  hooked hook := first.hooked (second.hooked hook)
  waits waiting :=
    have later := second.waits waiting
    have before := first.waits later.1
    ⟨before.1, fun state => later.2 (before.2 state)⟩
  zero quiet counted := second.zero quiet fun quiet' => first.zero quiet' counted

theorem Calms.keeps_books (calms : s.Calms s') (kept : s.Bookkept) : s'.Bookkept where
  waits waiting := (calms.waits waiting).2 (kept.waits (calms.waits waiting).1)
  zero quiet := calms.zero quiet kept.zero

theorem Calms.hookedQuiet (calms : s.Calms s') (quiet : s.HookedQuiet) : s'.HookedQuiet := by
  intro hook
  rw [← Bool.not_eq_true]
  intro waiting
  have before := quiet (calms.hooked hook)
  rw [(calms.waits waiting).1] at before
  exact absurd before (by decide)

theorem calms_of_same (hook : s'.hookDriven = s.hookDriven)
    (waiting : s'.waitingFromSilence = s.waitingFromSilence)
    (state : s'.info.taskState = s.info.taskState)
    (bytes : s'.silenceRestoreBytes = s.silenceRestoreBytes)
    (started : s'.silenceRestoreStartedMono = s.silenceRestoreStartedMono) : s.Calms s' := by
  constructor
  · rw [hook]
    exact id
  · rw [waiting, state]
    exact fun waits => ⟨waits, id⟩
  · rw [waiting, bytes, started]
    exact fun quiet zero => zero quiet

theorem calms_of_left (hook : s'.hookDriven = true → s.hookDriven = true)
    (waiting : s'.waitingFromSilence = false)
    (zero : s'.silenceRestoreBytes = 0 ∧ s'.silenceRestoreStartedMono = none ∨
      s.waitingFromSilence = false ∧ s'.silenceRestoreBytes = s.silenceRestoreBytes ∧
        s'.silenceRestoreStartedMono = s.silenceRestoreStartedMono) : s.Calms s' := by
  refine ⟨hook, fun waits => ?_, fun _ counted => ?_⟩
  · rw [waiting] at waits
    cases waits
  · rcases zero with zero | ⟨quiet, bytes, started⟩
    · exact zero
    · rw [bytes, started]
      exact counted quiet

theorem calms_reschedule (s : Session) : s.Calms s.rescheduleSilenceTimer :=
  calms_of_same rfl rfl rfl rfl rfl

theorem calms_idled (s : Session) : s.Calms s.idled := by
  rw [idled]
  split_ifs with stateless
  · refine ⟨id, fun waiting => ⟨waiting, fun state => ?_⟩, fun quiet zero => zero quiet⟩
    rw [stateless] at state
    exact absurd state (by decide)
  · exact Calms.refl s

/-- What leaves heuristic waiting: the flag is down, and the accumulator is clear if it was up. -/
structure Left (s s' : Session) : Prop where
  hooked : s'.hookDriven = s.hookDriven
  waiting : s'.waitingFromSilence = false
  zero : s'.silenceRestoreBytes = 0 ∧ s'.silenceRestoreStartedMono = none ∨
    s.waitingFromSilence = false ∧ s'.silenceRestoreBytes = s.silenceRestoreBytes ∧
      s'.silenceRestoreStartedMono = s.silenceRestoreStartedMono

theorem left_leaveWaiting (s : Session) : s.Left s.leaveWaiting := by
  rw [leaveWaiting]
  split_ifs with waiting
  · exact ⟨rfl, rfl, Or.inl ⟨rfl, rfl⟩⟩
  · rw [Bool.not_eq_true] at waiting
    exact ⟨rfl, waiting, Or.inr ⟨waiting, rfl, rfl⟩⟩

theorem left_leaveSilence (s : Session) : s.Left s.leaveSilence := by
  rw [leaveSilence]
  split_ifs with waiting
  · exact ⟨rfl, rfl, Or.inl ⟨rfl, rfl⟩⟩
  · rw [Bool.not_eq_true] at waiting
    exact ⟨rfl, waiting, Or.inr ⟨waiting, rfl, rfl⟩⟩

theorem calms_commandStarts (s : Session) (command : List Char) (now : Instant) :
    s.Calms (s.commandStarts command now) := by
  have left := left_leaveWaiting s
  refine calms_of_left ?_ left.waiting left.zero
  exact fun hook => left.hooked.symm.trans hook

section Chunks

variable (computeSummary : List Bytes → Instant → Bool → SessionSummary)

theorem calms_commandEnds (s : Session) (payload : Bytes) (now : Instant) :
    s.Calms (s.commandEnds computeSummary payload now) := by
  have left := left_leaveSilence s
  refine calms_of_left ?_ left.waiting left.zero
  exact fun hook => absurd hook Bool.false_ne_true

theorem calms_apply (now : Instant) (m : Marked) (payload : Bytes) :
    m.session.Calms (Marked.apply computeSummary now m payload).session := by
  rw [Marked.apply]
  split
  · exact calms_commandStarts m.session _ now
  · split_ifs
    · exact calms_commandEnds computeSummary m.session payload now
    · exact Calms.refl m.session

theorem calms_foldl_apply (now : Instant) (events : List Bytes) (m : Marked) :
    m.session.Calms (events.foldl (Marked.apply computeSummary now) m).session := by
  induction events generalizing m with
  | nil => exact Calms.refl m.session
  | cons payload events ih =>
    rw [List.foldl_cons]
    exact (calms_apply computeSummary now m payload).trans (ih _)

theorem calms_applyOSC133 (s : Session) (data : Bytes) (now : Instant) :
    s.Calms (s.applyOSC133 computeSummary data now).session := by
  have buffered : s.Calms { s with osc133Buf := (consumeOSC133 s.osc133Buf data).2 } :=
    calms_of_same rfl rfl rfl rfl rfl
  exact buffered.trans (calms_foldl_apply computeSummary now (consumeOSC133 s.osc133Buf data).1
    ⟨{ s with osc133Buf := (consumeOSC133 s.osc133Buf data).2 }, false, false⟩)

theorem calms_markedBy (s : Session) (data : Bytes) (now : Instant) :
    s.Calms (s.markedBy computeSummary data now).1.session := by
  have marks := (calms_idled s).trans (calms_applyOSC133 computeSummary s.idled data now)
  rw [markedBy]
  split
  · exact marks.trans (calms_of_same rfl rfl rfl rfl rfl)
  · exact marks

theorem calms_noteQuestion (m : Marked) (data : Bytes) (now : Instant) (grace : Bool) :
    m.session.Calms (noteQuestion m data now grace) := by
  simp only [noteQuestion]
  split_ifs with repaint asks
  · exact Calms.refl m.session
  · exact ⟨id, fun waiting => ⟨waiting, fun _ => rfl⟩, fun quiet zero => zero quiet⟩
  · exact calms_of_same rfl rfl rfl rfl rfl

theorem calms_observed (s : Session) (data : Bytes) (now : Instant) :
    s.Calms (s.observed computeSummary data now).1 := by
  have asked := (calms_markedBy computeSummary s data now).trans
    (calms_noteQuestion _ data now (s.markedBy computeSummary data now).2)
  exact asked.trans (calms_of_same rfl rfl rfl rfl rfl)

theorem flags_noteSilenceRestore (s : Session) (data : Bytes) (now : Instant) :
    (s.noteSilenceRestore data now).1.hookDriven = s.hookDriven ∧
      (s.noteSilenceRestore data now).1.waitingFromSilence = s.waitingFromSilence ∧
        (s.noteSilenceRestore data now).1.info = s.info := by
  simp only [noteSilenceRestore]
  split_ifs <;> exact ⟨rfl, rfl, rfl⟩

theorem calms_restoreFromSilence (s : Session) (data : Bytes) (now : Instant) (grace : Bool) :
    s.Calms (s.restoreFromSilence data now grace).1 := by
  obtain ⟨hook, waiting, info⟩ := flags_noteSilenceRestore s data now
  simp only [restoreFromSilence]
  split_ifs with waits
  · exact ⟨id, fun waiting => ⟨waiting, id⟩, fun _ _ => ⟨rfl, rfl⟩⟩
  · exact calms_of_left (fun hooked => hook.symm.trans hooked) rfl (Or.inl ⟨rfl, rfl⟩)
  · -- the chunk is counted, and the session waits on
    refine ⟨fun hooked => hook.symm.trans hooked, fun _ => ⟨waits.1, fun state => ?_⟩, fun quiet _ => ?_⟩
    · rw [info]
      exact state
    · rw [waiting, waits.1] at quiet
      cases quiet
  · exact Calms.refl s

theorem calms_noteRunningSilenceActivity (s : Session) (data : Bytes) (now : Instant) :
    s.Calms (s.noteRunningSilenceActivity data now) := by
  simp only [noteRunningSilenceActivity]
  split_ifs <;> exact calms_of_same rfl rfl rfl rfl rfl

theorem calms_noteSilence (s : Session) (data : Bytes) (now : Instant) (grace : Bool) :
    s.Calms (s.noteSilence data now grace) := by
  have restored := calms_restoreFromSilence s data now grace
  simp only [noteSilence]
  split_ifs
  · exact restored.trans (calms_of_same rfl rfl rfl rfl rfl)
  · exact restored
  · exact restored.trans (calms_noteRunningSilenceActivity _ data now)

theorem calms_updateTerminalState (s : Session) (data : Bytes) (now : Instant) :
    s.Calms (s.updateTerminalState computeSummary data now) := by
  rw [updateTerminalState]
  split_ifs
  · exact Calms.refl s
  · exact ((calms_observed computeSummary s data now).trans
      (calms_noteSilence _ data now _)).trans (calms_reschedule _)

theorem calms_pushOut (s : Session) (data : Bytes) (now : Instant) :
    s.Calms (s.pushOut computeSummary data now) := by
  simp only [pushOut]
  split_ifs
  · exact calms_of_same rfl rfl rfl rfl rfl
  · exact (calms_updateTerminalState computeSummary s data now).trans
      (calms_of_same rfl rfl rfl rfl rfl)

end Chunks

theorem flags_adopt (s : Session) (info : SessionInfo) (now : Instant) :
    (s.adopt info now).info = info ∧ (s.adopt info now).hookDriven = s.hookDriven ∧
      (s.adopt info now).waitingFromSilence = s.waitingFromSilence ∧
        (s.adopt info now).silenceRestoreBytes = s.silenceRestoreBytes ∧
          (s.adopt info now).silenceRestoreStartedMono = s.silenceRestoreStartedMono := by
  rw [adopt]
  split_ifs <;> exact ⟨rfl, rfl, rfl, rfl, rfl⟩

theorem calms_merged (s : Session) (info : SessionInfo) (now : Instant) :
    s.Calms (s.merged info now) := by
  obtain ⟨adopted, hook, waiting, bytes, started⟩ := flags_adopt s info now
  rw [merged]
  refine Calms.trans ?_ (calms_reschedule _)
  split_ifs with moved
  · have left := left_leaveSilence (s.adopt info now)
    have zero := left.zero
    rw [waiting, bytes, started] at zero
    exact calms_of_left (fun hooked => hook.symm.trans (left.hooked.symm.trans hooked)) left.waiting zero
  · rw [not_not] at moved
    refine ⟨fun hooked => hook.symm.trans hooked, fun waits => ⟨waiting.symm.trans waits, fun _ => ?_⟩,
      fun quiet zero => ?_⟩
    · rw [adopted, moved]
    · rw [bytes, started]
      exact zero (waiting.symm.trans quiet)

end Session

namespace SilenceWorld

variable (computeSummary : List Bytes → Instant → Bool → SessionSummary) {w : SilenceWorld}

/-- The calls that are neither a hook nor a firing. -/
def Plain : SessionEvent → Prop
  | .applyHookState .. | .onSilenceFired _ => False
  | _ => True

theorem calms_step (w : SilenceWorld) {event : SessionEvent} (plain : Plain event) :
    w.session.Calms (w.step computeSummary event).session := by
  cases event with
  | pushOut data now => exact Session.calms_pushOut computeSummary w.session data now
  | applyHookState next now => cases plain
  | updateMeta m now => exact Session.calms_merged w.session _ now
  | updateAdvertisedInfo info now => exact Session.calms_merged w.session _ now
  | updateCwdTitle cwd title => exact Session.calms_of_same rfl rfl rfl rfl rfl
  | compareAndSwapTitle oldTitle newTitle =>
    simp only [step, Session.compareAndSwapTitle]
    split_ifs <;> exact Session.calms_of_same rfl rfl rfl rfl rfl
  | updateRemotePermission value => exact Session.calms_of_same rfl rfl rfl rfl rfl
  | updateSize cols rows now => exact Session.calms_of_same rfl rfl rfl rfl rfl
  | inputAccepted => exact Session.calms_of_same rfl rfl rfl rfl rfl
  | disableSilenceDetection => exact Session.calms_of_left id rfl (Or.inl ⟨rfl, rfl⟩)
  | markContentOpaque => exact Session.calms_of_same rfl rfl rfl rfl rfl
  | close =>
    simp only [step, Session.close]
    split_ifs <;> exact Session.calms_of_same rfl rfl rfl rfl rfl
  | expire =>
    simp only [step]
    split_ifs <;> exact Session.calms_of_same rfl rfl rfl rfl rfl
  | onSilenceFired now => cases plain

theorem applyHookState_cases (s : Session) (next : String) (now : Instant) :
    s.applyHookState next now = s ∨ (s.applyHookState next now).waitingFromSilence = false ∧
      (s.applyHookState next now).silenceRestoreBytes = 0 ∧
        (s.applyHookState next now).silenceRestoreStartedMono = none := by
  rw [Session.applyHookState]
  split
  · exact Or.inl rfl
  · split
    · exact Or.inl rfl
    · exact Or.inr ⟨rfl, rfl, rfl⟩

/-- A late firing moves the task state. -/
def Flips (s : Session) (now : Instant) : Prop :=
  s.closed = false ∧ s.silenceDetectEnabled = true ∧ s.info.taskState = taskStateRunning ∧
    s.silenceApplies = true ∧ s.silent now = true

/-- **A firing** moves the task state, or changes nothing but the timer. -/
theorem onSilenceFired_cases (s : Session) (now : Instant) :
    (Flips s now ∧ (s.onSilenceFired now).info.taskState = taskStateWaitingInput ∧
        (s.onSilenceFired now).waitingFromSilence = true ∧
          (s.onSilenceFired now).hookDriven = s.hookDriven) ∨
      ¬Flips s now ∧ s.Calms (s.onSilenceFired now) ∧
        (s.onSilenceFired now).info.taskState = s.info.taskState := by
  rw [Session.onSilenceFired]
  split_ifs with closed disabled idle outside talking
  · exact Or.inr ⟨fun flips => absurd flips.1 (by simp [closed]), Session.Calms.refl s, rfl⟩
  · exact Or.inr ⟨fun flips => absurd flips.2.1 (by simpa using disabled), Session.Calms.refl s, rfl⟩
  · exact Or.inr ⟨fun flips => absurd flips.2.2.1 idle, Session.Calms.refl s, rfl⟩
  · exact Or.inr ⟨fun flips => absurd flips.2.2.2.1 (by simpa using outside),
      Session.Calms.refl s, rfl⟩
  · exact Or.inr ⟨fun flips => absurd flips.2.2.2.2 (by simpa using talking),
      Session.calms_reschedule s, rfl⟩
  · refine Or.inl ⟨⟨?_, ?_, ?_, ?_, ?_⟩, rfl, rfl, rfl⟩
    · simpa using closed
    · simpa using disabled
    · exact not_not.mp idle
    · simpa using outside
    · simpa using talking

/-! ### Bookkeeping -/

theorem bookkept_start (info : SessionInfo) (settings : SilenceSettings) :
    (start info settings).session.Bookkept :=
  ⟨fun waiting => absurd waiting Bool.false_ne_true, fun _ => ⟨rfl, rfl⟩⟩

theorem bookkept_step (kept : w.session.Bookkept) (event : SessionEvent) :
    (w.step computeSummary event).session.Bookkept := by
  by_cases plain : Plain event
  · exact (calms_step computeSummary w plain).keeps_books kept
  · cases event with
    | applyHookState next now =>
      rcases applyHookState_cases w.session next now with same | ⟨quiet, zero⟩
      · rw [step, same]
        exact kept
      · refine ⟨fun waiting => ?_, fun _ => zero⟩
        rw [step, quiet] at waiting
        cases waiting
    | onSilenceFired now =>
      rw [step]
      split_ifs
      · rcases onSilenceFired_cases w.session now with ⟨-, state, waiting, -⟩ | ⟨-, calms, -⟩
        · refine ⟨fun _ => state, fun quiet => ?_⟩
          rw [waiting] at quiet
          cases quiet
        · exact calms.keeps_books kept
      · exact kept
    | _ => exact absurd trivial plain

/-- **After every run**, a session that waits because of silence is in the waiting state, and the restore
side of any other session has counted nothing. -/
theorem bookkept (info : SessionInfo) (settings : SilenceSettings) (events : List SessionEvent) :
    (run (step computeSummary) (start info settings) events).session.Bookkept :=
  run_invariant (fun w : SilenceWorld => w.session.Bookkept)
    (fun _ event kept => bookkept_step computeSummary kept event) (bookkept_start info settings) events

/-! ### Hooks -/

/-- No step of the heuristic changes the task state of a session that its hooks drive: neither a firing,
nor what the heuristic does with a chunk. -/
def Untouched (w : SilenceWorld) : SessionEvent → Prop
  | .onSilenceFired now => w.session.hookDriven = true →
      (w.step computeSummary (.onSilenceFired now)).session.info.taskState = w.session.info.taskState
  | .pushOut data now =>
    let seen := w.session.observed computeSummary data now
    seen.1.hookDriven = true →
      (seen.1.noteSilence data now seen.2).info.taskState = seen.1.info.taskState
  | _ => True

/-- No firing that was in flight moves a session that its hooks drive. -/
def Careful (w : SilenceWorld) : SessionEvent → Prop
  | .onSilenceFired now =>
    0 < w.inFlight → w.session.hookDriven = true → ¬Flips w.session now
  | _ => True

theorem hookedQuiet_step (quiet : w.session.HookedQuiet) (event : SessionEvent)
    (careful : w.Careful event) : (w.step computeSummary event).session.HookedQuiet := by
  by_cases plain : Plain event
  · exact (calms_step computeSummary w plain).hookedQuiet quiet
  · cases event with
    | applyHookState next now =>
      rcases applyHookState_cases w.session next now with same | ⟨waiting, -⟩
      · rw [step, same]
        exact quiet
      · exact fun _ => waiting
    | onSilenceFired now =>
      rw [step]
      split_ifs with late
      · rcases onSilenceFired_cases w.session now with ⟨flips, -, -, hook⟩ | ⟨-, calms, -⟩
        · exact fun hooked => absurd flips (careful late (hook.symm.trans hooked))
        · exact calms.hookedQuiet quiet
      · exact quiet
    | _ => exact absurd trivial plain

theorem taskState_noteSilence {s : Session} (quiet : s.waitingFromSilence = false) (data : Bytes)
    (now : Instant) (grace : Bool) : (s.noteSilence data now grace).info.taskState = s.info.taskState := by
  have unrestored : s.restoreFromSilence data now grace = (s, false) := by
    rw [Session.restoreFromSilence, if_neg (by simp [quiet])]
  have noted : (s.noteRunningSilenceActivity data now).info = s.info := by
    simp only [Session.noteRunningSilenceActivity]
    split_ifs <;> rfl
  rw [Session.noteSilence, unrestored]
  cases grace with
  | true => rfl
  | false => exact congrArg SessionInfo.taskState noted

theorem untouched_iff (quiet : w.session.HookedQuiet) (event : SessionEvent) :
    w.Careful event ↔ w.Untouched computeSummary event := by
  cases event with
  | onSilenceFired now =>
    rw [Careful, Untouched, step]
    split_ifs with late
    · rcases onSilenceFired_cases w.session now with ⟨flips, state, -⟩ | ⟨calm, -, state⟩
      · -- waiting is not the state that a firing moves a session from
        rw [state, flips.2.2.1]
        refine ⟨fun careful hooked => absurd flips (careful late hooked), fun kept _ hooked => ?_⟩
        exact absurd (kept hooked) (by decide)
      · exact iff_of_true (fun _ _ => calm) fun _ => state
    · exact iff_of_true (fun fired => absurd fired late) fun _ => rfl
  | pushOut data now =>
    refine iff_of_true trivial fun hooked => taskState_noteSilence ?_ data now _
    exact (Session.calms_observed computeSummary w.session data now).hookedQuiet quiet hooked
  | _ => exact Iff.rfl

/-- **No step of the heuristic changes the task state of a session that its hooks drive**, all along
exactly the runs in which no late firing finds such a session silent. -/
theorem untouched_iff_careful (info : SessionInfo) (settings : SilenceSettings)
    (events : List SessionEvent) :
    Meets (step computeSummary) (Untouched computeSummary) (start info settings) events ↔
      Meets (step computeSummary) Careful (start info settings) events := by
  have initial : (start info settings).session.HookedQuiet :=
    fun hooked => absurd hooked Bool.false_ne_true
  exact (meets_congr (fun w : SilenceWorld => w.session.HookedQuiet)
    (fun w event quiet careful => hookedQuiet_step computeSummary quiet event careful)
    (fun w event quiet => untouched_iff computeSummary quiet event) initial events).symm

/-- Codex runs and is silent for five seconds. Its timer fires, and before the firing gets the lock a hook
tells that a turn has started. -/
def lateFiring : List SessionEvent :=
  [.pushOut [0x1b, 0x5d, 0x31, 0x33, 0x33, 0x3b, 0x43, 0x3b, 0x63, 0x6f, 0x64, 0x65, 0x78, 0x07] ⟨0, 0⟩,
    .expire, .applyHookState taskStateRunning ⟨5 * second, 5 * second⟩,
    .onSilenceFired ⟨5 * second, 5 * second⟩]

/-- The session after the first events, of summaries without a text. -/
def lateFiringAfter (count : ℕ) : Session :=
  (run (step fun _ now _ => ⟨"", [], now.unix⟩) (start SessionInfo.zero Session.defaultSettings)
    (lateFiring.take count)).session

theorem late_firing_moves_hooked :
    (lateFiringAfter 3).hookDriven = true ∧ (lateFiringAfter 3).info.taskState = taskStateRunning ∧
      (lateFiringAfter 4).hookDriven = true ∧
        (lateFiringAfter 4).info.taskState = taskStateWaitingInput := by
  decide +kernel

end SilenceWorld

end Atterm.Terminal
