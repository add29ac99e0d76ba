/-
**The task state of a session.**

The session reads the output of its terminal: the marks of the shell, questions, titles and the
alternate screen. Hooks of an AI client, metadata from elsewhere and the silence of the terminal move the
task state as well. A session is silent if for some time it had no output but small redraws.

A timer that runs may fire at any moment: how long it was set for is left out, as are the callbacks that
hear of a change, the subscribers and the throttling of list refreshes.

* `Session.updateTerminalState` — one chunk of output;
* `Session.onSilenceFired`, `Session.applyHookState`, `Session.updateMeta` and the other calls.
-/

import Atterm.Relay.Session
import Atterm.Terminal.AltScreen
import Atterm.Terminal.OscTitle

namespace Atterm.Terminal

open Atterm.Relay (SessionInfo SessionSummary MetaPayload mergeTaskMeta taskStateIdle taskStateRunning
  sessionTypeShell)

def taskStateWaitingInput : String := "waiting_input"
def taskStateCompleted : String := "completed"
def taskStateFailed : String := "failed"

/-- `time.Now()`: the monotonic clock and the wall clock, in nanoseconds. -/
structure Instant where
  mono : ℤ
  wall : ℤ
deriving DecidableEq, Repr

def second : ℤ := 1000000000
def millisecond : ℤ := 1000000

namespace Instant

def sub (now earlier : Instant) : ℤ := now.mono - earlier.mono

def unix (now : Instant) : ℤ := now.wall / second

end Instant

def silenceActivityBurstWindow : ℤ := second

structure Session where
  info : SessionInfo
  closed : Bool
  scroll : List Bytes
  altScreen : Bool
  termTail : Bytes
  osc133Buf : Bytes
  contentOpaque : Bool
  oscTitleBuf : Bytes
  cmdStarted : Option Instant
  /-- A timer was started, and neither stopped nor has it fired. -/
  silenceTimer : Bool
  waitingFromSilence : Bool
  hookDriven : Bool
  silenceThresholdMS : ℤ
  silenceDetectEnabled : Bool
  silenceRestoreBytes : ℕ
  silenceRestoreStartedMono : Option Instant
  silenceRestoreByteThreshold : ℤ
  silenceActivityBytes : ℕ
  silenceActivityStartedMono : Option Instant
  lastResizeMono : Option Instant
  silenceResizeGraceMS : ℤ
  lastOutputMono : Option Instant
  aiCommandFinished : Bool
deriving DecidableEq, Repr

/-- What the environment sets for the silence detection. -/
structure SilenceSettings where
  detectEnabled : Bool
  thresholdMS : ℤ
  restoreByteThreshold : ℤ
  resizeGraceMS : ℤ
deriving DecidableEq, Repr

namespace Session

def new (info : SessionInfo) (settings : SilenceSettings) : Session where
  info :=
    { info with
      taskState := if info.taskState = "" then taskStateIdle else info.taskState
      type := if info.type = "" then sessionTypeShell else info.type }
  closed := false
  scroll := []
  altScreen := false
  termTail := []
  osc133Buf := []
  contentOpaque := false
  oscTitleBuf := []
  cmdStarted := none
  silenceTimer := false
  waitingFromSilence := false
  hookDriven := false
  silenceThresholdMS := settings.thresholdMS
  silenceDetectEnabled := settings.detectEnabled
  silenceRestoreBytes := 0
  silenceRestoreStartedMono := none
  silenceRestoreByteThreshold := settings.restoreByteThreshold
  silenceActivityBytes := 0
  silenceActivityStartedMono := none
  lastResizeMono := none
  silenceResizeGraceMS := settings.resizeGraceMS
  lastOutputMono := none
  aiCommandFinished := false

/-! ### The silence heuristic -/

def inResizeGrace (s : Session) (now : Instant) : Bool :=
  match s.lastResizeMono with
  | none => false
  | some resized =>
    0 < s.silenceResizeGraceMS && 0 ≤ now.sub resized &&
      now.sub resized < s.silenceResizeGraceMS * millisecond

def silenceApplies (s : Session) : Bool := s.altScreen || s.info.type = sessionTypeAI

def markSilenceActivity (s : Session) (now : Instant) : Session :=
  { s with lastOutputMono := some now, silenceActivityBytes := 0, silenceActivityStartedMono := none }

def resetSilenceActivityBurst (s : Session) : Session :=
  { s with silenceActivityBytes := 0, silenceActivityStartedMono := none }

def resetSilenceRestore (s : Session) : Session :=
  { s with silenceRestoreBytes := 0, silenceRestoreStartedMono := none }

/-- The window of an accumulator has not begun, or is over. -/
def windowOver (started : Option Instant) (now : Instant) : Bool :=
  match started with
  | none => true
  | some started => silenceActivityBurstWindow < now.sub started

def noteSilenceRestore (s : Session) (data : Bytes) (now : Instant) : Session × Bool :=
  let s :=
    if windowOver s.silenceRestoreStartedMono now then
      { s with silenceRestoreStartedMono := some now, silenceRestoreBytes := data.length }
    else { s with silenceRestoreBytes := s.silenceRestoreBytes + data.length }
  (s, s.silenceRestoreByteThreshold ≤ s.silenceRestoreBytes)

def noteRunningSilenceActivity (s : Session) (data : Bytes) (now : Instant) : Session :=
  if s.info.taskState ≠ taskStateRunning then s
  else if !s.silenceApplies then s.markSilenceActivity now
  else if s.silenceRestoreByteThreshold ≤ data.length then s.markSilenceActivity now
  else
    let s :=
      if windowOver s.silenceActivityStartedMono now then
        { s with silenceActivityStartedMono := some now, silenceActivityBytes := data.length }
      else { s with silenceActivityBytes := s.silenceActivityBytes + data.length }
    if s.silenceRestoreByteThreshold ≤ s.silenceActivityBytes then s.markSilenceActivity now else s

def rescheduleSilenceTimer (s : Session) : Session :=
  { s with
    silenceTimer := s.silenceDetectEnabled && !s.closed && !s.hookDriven &&
      s.info.taskState = taskStateRunning && s.silenceApplies && 0 < s.silenceThresholdMS }

/-- The output has stopped for the threshold, in a session to which the heuristic applies. -/
def silent (s : Session) (now : Instant) : Bool :=
  match s.lastOutputMono with
  | none => false
  | some last => s.silenceThresholdMS * millisecond ≤ now.sub last

def onSilenceFired (s : Session) (now : Instant) : Session :=
  if s.closed then s
  else if !s.silenceDetectEnabled then s
  else if s.info.taskState ≠ taskStateRunning then s
  else if !s.silenceApplies then s
  else if !s.silent now then s.rescheduleSilenceTimer
  else
    resetSilenceActivityBurst
      { s with
        info := { s.info with taskState := taskStateWaitingInput, attentionAt := now.unix }
        waitingFromSilence := true
        silenceRestoreBytes := 0 }

/-- Every transition out of heuristic waiting that is no restore goes through here. -/
def leaveSilence (s : Session) : Session :=
  if s.waitingFromSilence then
    ({ s with waitingFromSilence := false } : Session).resetSilenceRestore.resetSilenceActivityBurst
  else s

/-- Output that comes while the session waits because of silence: whether it restores running. -/
def restoreFromSilence (s : Session) (data : Bytes) (now : Instant) (inResizeGrace : Bool) :
    Session × Bool :=
  if s.waitingFromSilence ∧ s.info.taskState = taskStateWaitingInput then
    if inResizeGrace then (s.resetSilenceRestore, false)
    else
      let noted := s.noteSilenceRestore data now
      if noted.2 then
        let s :=
          { noted.1 with
            info := { noted.1.info with taskState := taskStateRunning }
            waitingFromSilence := false }
        (s.resetSilenceRestore.markSilenceActivity now, true)
      else (noted.1, false)
  else (s, false)

def noteSilence (s : Session) (data : Bytes) (now : Instant) (inResizeGrace : Bool) : Session :=
  let restored := s.restoreFromSilence data now inResizeGrace
  if inResizeGrace then restored.1.resetSilenceActivityBurst
  else if restored.2 then restored.1
  else restored.1.noteRunningSilenceActivity data now

end Session

/-! ### Marks of the shell -/

/-- `strconv.Atoi` -/
def atoi (text : List Char) : Option ℤ :=
  let (negative, digits) :=
    match text with
    | '-' :: rest => (true, rest)
    | '+' :: rest => (false, rest)
    | _ => (false, text)
  if digits = [] ∨ !digits.all Char.isDigit then none
  else
    let value : ℤ := digits.foldl (fun n c => 10 * n + (c.toNat - 48)) 0
    let value := if negative then -value else value
    if -2 ^ 63 ≤ value ∧ value < 2 ^ 63 then some value else none

def parseOSC133Exit (payload : Bytes) : ℤ :=
  match payload.dropWhile (· ≠ 0x3b) with
  | [] => 0
  | _ :: rest =>
    let raw := trimSpace (runes rest)
    if raw = [] then 0 else (atoi raw).getD (-1)

/-- `unicode.ToLower`, as far as the result may be a letter of a question: two runes outside ASCII have
an ASCII letter as their lower case. -/
def lowerRune (c : Char) : Char :=
  if c = '\u0130' then 'i' else if c = '\u212a' then 'k' else c.toLower

def waitingPatterns : List String :=
  ["[y/n]", "continue?", "proceed?", "confirm", "press enter", "password:"]

def looksLikeWaitingInput (data : Bytes) : Bool :=
  let text := (runes data).map lowerRune
  waitingPatterns.any fun pattern => text.tails.any pattern.toList.isPrefixOf

def isAttentionType (type : String) : Bool := type ≠ "" && type ≠ sessionTypeShell

/-- The session and what `applyOSC133Locked` reports. -/
structure Marked where
  session : Session
  changed : Bool
  commandActivity : Bool
deriving DecidableEq, Repr

namespace Session

/-- The flag goes down and the restore side starts afresh. -/
def leaveWaiting (s : Session) : Session :=
  if s.waitingFromSilence then ({ s with waitingFromSilence := false } : Session).resetSilenceRestore
  else s

def startedInfo (s : Session) (command : List Char) (now : Instant) : SessionInfo :=
  let newType := ClassifyCommand command
  { s.info with
    taskState := taskStateRunning
    currentCommand := String.ofList command
    type :=
      if s.info.type = sessionTypeAI ∧ newType = sessionTypeShell ∧ s.aiCommandFinished then
        sessionTypeShell
      else if newType ≠ sessionTypeShell then newType
      else s.info.type
    commandStartedAt := now.unix
    commandEndedAt := 0
    commandDurationMS := 0
    commandExitCode := none }

/-- `C`: a command starts. -/
def commandStarts (s : Session) (command : List Char) (now : Instant) : Session :=
  let info := s.startedInfo command now
  ({ s.leaveWaiting with info, aiCommandFinished := false, cmdStarted := some now } :
    Session).markSilenceActivity now

def commandDuration (s : Session) (now : Instant) : ℤ :=
  let elapsed :=
    match s.cmdStarted with
    | some started => now.sub started
    | none => now.wall - s.info.commandStartedAt * second
  max 0 (elapsed.tdiv millisecond)

/-- The metadata once the command has ended. -/
def endedInfo (computeSummary : List Bytes → Instant → Bool → SessionSummary) (s : Session)
    (exitCode : ℤ) (now : Instant) : SessionInfo :=
  { s.info with
    taskState := if exitCode ≠ 0 then taskStateFailed else taskStateCompleted
    commandEndedAt := now.unix
    commandDurationMS := s.commandDuration now
    commandExitCode := some exitCode
    summary := some (computeSummary s.scroll now (exitCode ≠ 0))
    attentionAt := if isAttentionType s.info.type then now.unix else s.info.attentionAt }

/-- `D`: the command has ended. -/
def commandEnds (computeSummary : List Bytes → Instant → Bool → SessionSummary) (s : Session)
    (payload : Bytes) (now : Instant) : Session :=
  { s.leaveSilence with
    info := s.endedInfo computeSummary (parseOSC133Exit payload) now
    aiCommandFinished := ClassifyCommand s.info.currentCommand.toList = sessionTypeAI
    hookDriven := false
    silenceTimer := false }

end Session

section Calls

variable (computeSummary : List Bytes → Instant → Bool → SessionSummary)

namespace Marked

/-- One payload. The marks of a prompt only tell the first-prompt hook. -/
def apply (now : Instant) (m : Marked) (payload : Bytes) : Marked :=
  match startedCommand payload with
  | some command =>
    let session := m.session.commandStarts command now
    { session
      changed := m.changed || m.session.waitingFromSilence || session.info ≠ m.session.info
      commandActivity := true }
  | none =>
    if payload.head? = some 0x44 ∧
        ¬(m.session.info.taskState ≠ taskStateRunning ∧ m.session.info.commandStartedAt = 0) then
      { session := m.session.commandEnds computeSummary payload now
        changed := true
        commandActivity := true }
    else m

end Marked

namespace Session

def applyOSC133 (s : Session) (data : Bytes) (now : Instant) : Marked :=
  let (events, osc133Buf) := consumeOSC133 s.osc133Buf data
  events.foldl (Marked.apply computeSummary now) ⟨{ s with osc133Buf }, false, false⟩

/-- The titles of the session, as `TitleState` has them. -/
def titles (s : Session) : TitleState where
  title := s.info.title
  oscTitleBuf := s.oscTitleBuf
  osc133Buf := s.osc133Buf
  currentCommand := s.info.currentCommand.toList
  cwd := s.info.cwd

/-- The alternate screen of the session, as `ScreenState` has it. -/
def screen (s : Session) : ScreenState := ⟨s.altScreen, s.termTail⟩

def applyOSCTitle (s : Session) (data : Bytes) : Session :=
  let titles := s.titles.applyOSCTitle data
  { s with info := { s.info with title := titles.title }, oscTitleBuf := titles.oscTitleBuf }

def observeScreen (s : Session) (data : Bytes) : Session :=
  let screen := s.screen.observe data
  { s with altScreen := screen.altScreen, termTail := screen.termTail }

/-- A session without a task state is idle. -/
def idled (s : Session) : Session :=
  if s.info.taskState = "" then { s with info := { s.info with taskState := taskStateIdle } } else s

def endResizeGrace (s : Session) : Session := { s with lastResizeMono := none }

/-- The session after the marks of a chunk, and whether the chunk counts as a repaint. -/
def markedBy (s : Session) (data : Bytes) (now : Instant) : Marked × Bool :=
  let m := s.idled.applyOSC133 computeSummary data now
  if m.commandActivity then ({ m with session := m.session.endResizeGrace }, false)
  else (m, s.inResizeGrace now)

/-- The activity clock, and a question of the program. -/
def noteQuestion (m : Marked) (data : Bytes) (now : Instant) (inResizeGrace : Bool) : Session :=
  let s := m.session
  if inResizeGrace then s
  else
    let info := { s.info with lastOutputAt := now.unix }
    if !m.changed ∧ info.taskState ≠ taskStateRunning ∧ looksLikeWaitingInput data ∧
        info.taskState ≠ taskStateWaitingInput then
      { s with info := { info with taskState := taskStateWaitingInput, attentionAt := now.unix } }
    else { s with info }

/-- What a chunk shows before the silence heuristic looks at it. -/
def observed (s : Session) (data : Bytes) (now : Instant) : Session × Bool :=
  let marked := s.markedBy computeSummary data now
  (((noteQuestion marked.1 data now marked.2).applyOSCTitle data).observeScreen data, marked.2)

def updateTerminalState (s : Session) (data : Bytes) (now : Instant) : Session :=
  if data = [] then s
  else
    let seen := s.observed computeSummary data now
    (seen.1.noteSilence data now seen.2).rescheduleSilenceTimer

def pushOut (s : Session) (data : Bytes) (now : Instant) : Session :=
  let s := if s.contentOpaque then s else s.updateTerminalState computeSummary data now
  { s with scroll := s.scroll ++ [data] }

/-! ### The other calls -/

/-- `ApplyHookState` -/
def applyHookState (s : Session) (next : String) (now : Instant) : Session :=
  if next ≠ taskStateRunning ∧ next ≠ taskStateWaitingInput then s
  else if s.info.type ≠ sessionTypeAI then s
  else
    let lastResizeMono := if next = taskStateRunning then none else s.lastResizeMono
    let info :=
      { s.info with
        taskState := next
        attentionAt := if next = taskStateWaitingInput then now.unix else s.info.attentionAt }
    ({ s with lastResizeMono, info, hookDriven := true, waitingFromSilence := false,
              silenceTimer := false } : Session).resetSilenceRestore.resetSilenceActivityBurst

/-- The session with new metadata: a task that starts to run counts as activity. -/
def adopt (s : Session) (info : SessionInfo) (now : Instant) : Session :=
  if s.info.taskState ≠ taskStateRunning ∧ info.taskState = taskStateRunning then
    ({ s with info } : Session).markSilenceActivity now
  else { s with info }

/-- What `UpdateMeta` and `UpdateAdvertisedInfo` do once they have merged the task fields. -/
def merged (s : Session) (info : SessionInfo) (now : Instant) : Session :=
  (if info.taskState ≠ taskStateWaitingInput then (s.adopt info now).leaveSilence
    else s.adopt info now).rescheduleSilenceTimer

def updateMeta (s : Session) (m : MetaPayload) (now : Instant) : Session :=
  s.merged (mergeTaskMeta (Relay.Session.adoptPlace s.info m.cwd m.title) m) now

def updateAdvertisedInfo (s : Session) (info : SessionInfo) (now : Instant) : Session :=
  s.merged (Relay.Session.advertised s.info info) now

def updateCwdTitle (s : Session) (cwd title : String) : Session :=
  { s with info := Relay.Session.adoptPlace s.info cwd title }

def compareAndSwapTitle (s : Session) (oldTitle newTitle : String) : Session :=
  if newTitle = "" ∨ newTitle = oldTitle ∨ s.info.title ≠ oldTitle then s
  else { s with info := { s.info with title := newTitle } }

def updateRemotePermission (s : Session) (value : String) : Session :=
  { s with info := { s.info with remotePermission := value } }

def updateSize (s : Session) (cols rows : ℕ) (now : Instant) : Session :=
  { s with
    info :=
      { s.info with
        cols := if 0 < cols then cols else s.info.cols
        rows := if 0 < rows then rows else s.info.rows }
    lastResizeMono := if 0 < cols ∧ 0 < rows then some now else s.lastResizeMono }

/-- `SendInbound` of input that the queue takes. -/
def inputAccepted (s : Session) : Session := s.endResizeGrace

def disableSilenceDetection (s : Session) : Session :=
  ({ s with silenceDetectEnabled := false, silenceTimer := false,
            waitingFromSilence := false } : Session).resetSilenceRestore.resetSilenceActivityBurst

def markContentOpaque (s : Session) : Session := { s with contentOpaque := true }

def close (s : Session) : Session :=
  if s.closed then s else { s with closed := true, silenceTimer := false }

end Session

end Calls

end Atterm.Terminal
