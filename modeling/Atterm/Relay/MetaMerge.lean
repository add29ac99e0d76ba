/-
**What a mirror shows of the session on its host.**

The host sends the state of a session in two forms, an entry of an announcement and a META payload,
and the mirror merges them with two routines. An account key blanks what the relay may not read.

* `sameTask_mergeTaskInfo_iff` — what one merge carries over;
* `Mirrored.tracks_iff` — the mirror shows the last state of the host all along exactly the updates
  that carry what changed.
-/

import Atterm.Foundation.Runs
import Atterm.Relay.Session

namespace Atterm.Relay

open Atterm.Foundation

/-- A state of the session on its host; `New` gives every session a task state and a type, and
nothing takes them away. -/
structure Upstream where
  info : SessionInfo
  hasState : info.taskState ≠ ""
  hasType : info.type ≠ ""

def remotePermissionView : String := "view"
def remotePermissionControl : String := "control"
def remotePermissionFull : String := "full"

def normalizeRemotePermission (value : String) : String :=
  if value ∈ [remotePermissionView, remotePermissionControl, remotePermissionFull] then value
  else remotePermissionFull

/-- The envelope made with an unlocked account key, empty when there was nothing to seal; `none`
without a key. -/
abbrev Sealing := Option (List UInt8)

def stripContentFields (info : SessionInfo) : SessionInfo :=
  { info with summary := none, currentCommand := "", title := "", cwd := "" }

/-- `sealSessionInfoContent` and the stripping after it, as `writeAnnounce` applies them. -/
def sealedInfo (sealing : Sealing) (info : SessionInfo) : SessionInfo :=
  match sealing with
  | none => info
  | some envelope => stripContentFields
      { info with sealed := if envelope ≠ [] then envelope else info.sealed }

/-- The entry of a session in `buildAnnouncePayload`. -/
def announceEntry (permission : String) (sealing : Sealing) (info : SessionInfo) : SessionInfo :=
  { sealedInfo sealing info with remotePermission := normalizeRemotePermission permission }

def sealMetaContentFields (envelope : List UInt8) (m : MetaPayload) : MetaPayload :=
  if m.cwd = "" ∧ m.title = "" ∧ m.currentCommand = "" then m else { m with sealed := envelope }

def stripMetaContentFields (m : MetaPayload) : MetaPayload :=
  { m with summary := none, currentCommand := "", cwd := "", title := "" }

def sealedMeta (sealing : Sealing) (m : MetaPayload) : MetaPayload :=
  match sealing with
  | none => m
  | some envelope => stripMetaContentFields (sealMetaContentFields envelope m)

/-- One update of a mirror with the state of the host that it was produced from. -/
inductive Update where
  | announce (permission : String) (sealing : Sealing) (upstream : Upstream)
  | live (driverClientID driverClientName : String) (sealing : Sealing) (upstream : Upstream)

def Update.upstream : Update → Upstream
  | .announce _ _ upstream | .live _ _ _ upstream => upstream

def Update.sealing : Update → Sealing
  | .announce _ sealing _ | .live _ _ sealing _ => sealing

/-- A mirror, with the state of the host that its last update was produced from. -/
structure Mirrored where
  session : Session
  upstream : Upstream

namespace Mirrored

/-- The mirror that the first announcement of a session makes. -/
def start (permission : String) (sealing : Sealing) (upstream : Upstream) : Mirrored where
  session := Session.newMirror (announceEntry permission sealing upstream.info)
  upstream := upstream

def step (w : Mirrored) : Update → Mirrored
  | .announce permission sealing upstream =>
    { session := (w.session.updateAdvertisedInfo
        (announceEntry permission sealing upstream.info)).1
      upstream := upstream }
  | .live driverClientID driverClientName sealing upstream =>
    { session := (w.session.updateMeta (sealedMeta sealing
        (encodeMetaPayload upstream.info driverClientID driverClientName))).1
      upstream := upstream }

end Mirrored

section Merging

/-- Two states agree on the fields of the last task. -/
structure SameTask (shown actual : SessionInfo) : Prop where
  taskState : shown.taskState = actual.taskState
  currentCommand : shown.currentCommand = actual.currentCommand
  commandStartedAt : shown.commandStartedAt = actual.commandStartedAt
  commandEndedAt : shown.commandEndedAt = actual.commandEndedAt
  commandDurationMS : shown.commandDurationMS = actual.commandDurationMS
  commandExitCode : shown.commandExitCode = actual.commandExitCode
  lastOutputAt : shown.lastOutputAt = actual.lastOutputAt
  summary : shown.summary = actual.summary
  type : shown.type = actual.type
  attentionAt : shown.attentionAt = actual.attentionAt

/-- What is merged carries the task of a state, up to the fields that may be blanked. -/
structure CarriesTask (sent actual : SessionInfo) : Prop where
  hasState : actual.taskState ≠ ""
  taskState : sent.taskState = actual.taskState
  commandStartedAt : sent.commandStartedAt = actual.commandStartedAt
  commandEndedAt : sent.commandEndedAt = actual.commandEndedAt
  commandDurationMS : sent.commandDurationMS = actual.commandDurationMS
  commandExitCode : sent.commandExitCode = actual.commandExitCode
  lastOutputAt : sent.lastOutputAt = actual.lastOutputAt

/-- From one state to another, what no merge carries over stays: the type, the time of attention, and
a time that is there. -/
structure Keeps (old new : SessionInfo) : Prop where
  type : new.type = old.type
  attentionAt : new.attentionAt = old.attentionAt
  commandStartedAt : new.commandStartedAt = 0 → old.commandStartedAt = 0
  lastOutputAt : new.lastOutputAt = 0 → old.lastOutputAt = 0

variable {old sent actual shown : SessionInfo}

theorem Keeps.of_sameTask (same : SameTask shown old) :
    Keeps shown actual ↔ Keeps old actual := by
  have type := same.type
  have attention := same.attentionAt
  have started := same.commandStartedAt
  have output := same.lastOutputAt
  constructor
  · rintro ⟨h₁, h₂, h₃, h₄⟩
    exact ⟨h₁.trans type, h₂.trans attention, fun zero => started ▸ h₃ zero,
      fun zero => output ▸ h₄ zero⟩
  · rintro ⟨h₁, h₂, h₃, h₄⟩
    exact ⟨h₁.trans type.symm, h₂.trans attention.symm, fun zero => started.trans (h₃ zero),
      fun zero => output.trans (h₄ zero)⟩

theorem merged_time_iff {old new : ℤ} :
    (if new ≠ 0 then new else old) = new ↔ (new = 0 → old = 0) := by
  by_cases zero : new = 0
  · simp [zero]
  · simp [zero]

/-- **What one merge carries over.** -/
theorem sameTask_mergeTaskInfo_iff (carries : CarriesTask sent actual) :
    SameTask (mergeTaskInfo old sent) actual ↔
      Keeps old actual ∧ sent.currentCommand = actual.currentCommand ∧
        sent.summary = actual.summary := by
  have state : sent.taskState ≠ "" := fun blank => carries.hasState (carries.taskState ▸ blank)
  have task : hasTaskInfo sent = true := by simp [hasTaskInfo, state]
  have merged : ∀ shown, mergeTaskInfo old sent = shown → shown.taskState = sent.taskState ∧
      shown.commandStartedAt =
        (if sent.commandStartedAt ≠ 0 then sent.commandStartedAt else old.commandStartedAt) ∧
      shown.lastOutputAt =
        (if sent.lastOutputAt ≠ 0 then sent.lastOutputAt else old.lastOutputAt) := by
    rintro shown rfl
    simp [mergeTaskInfo, task, state]
  obtain ⟨shownState, started, output⟩ := merged _ rfl
  rw [carries.commandStartedAt] at started
  rw [carries.lastOutputAt] at output
  constructor
  · intro same
    refine ⟨⟨?_, ?_, ?_, ?_⟩, ?_, ?_⟩
    · simpa [mergeTaskInfo, task] using same.type.symm
    · simpa [mergeTaskInfo, task] using same.attentionAt.symm
    · exact merged_time_iff.mp (started.symm.trans same.commandStartedAt)
    · exact merged_time_iff.mp (output.symm.trans same.lastOutputAt)
    · simpa [mergeTaskInfo, task] using same.currentCommand
    · simpa [mergeTaskInfo, task] using same.summary
  · rintro ⟨keeps, command, summary⟩
    exact {
      taskState := shownState.trans carries.taskState
      currentCommand := by simpa [mergeTaskInfo, task] using command
      commandStartedAt := started.trans (merged_time_iff.mpr keeps.commandStartedAt)
      commandEndedAt := by simpa [mergeTaskInfo, task] using carries.commandEndedAt
      commandDurationMS := by simpa [mergeTaskInfo, task] using carries.commandDurationMS
      commandExitCode := by simpa [mergeTaskInfo, task] using carries.commandExitCode
      lastOutputAt := output.trans (merged_time_iff.mpr keeps.lastOutputAt)
      summary := by simpa [mergeTaskInfo, task] using summary
      type := by simpa [mergeTaskInfo, task] using keeps.type.symm
      attentionAt := by simpa [mergeTaskInfo, task] using keeps.attentionAt.symm }

end Merging

namespace Mirrored

/-- The relay may read the whole task: no account key is unlocked, or there is nothing to blank. -/
def Readable (sealing : Sealing) (info : SessionInfo) : Prop :=
  sealing ≠ none → info.currentCommand = "" ∧ info.summary = none

/-- The update carries everything in which the host's state differs from the one before. -/
def Carried (w : Mirrored) (update : Update) : Prop :=
  Keeps w.upstream.info update.upstream.info ∧ Readable update.sealing update.upstream.info ∧
    match update with
    | .announce .. => True
    | .live .. => update.upstream.info.summary = none

/-- The mirror shows the state of the host that its last update was produced from. -/
def Tracks (w : Mirrored) : Prop := SameTask w.session.info w.upstream.info

theorem sealedInfo_command_iff {sealing : Sealing} {info : SessionInfo} :
    (sealedInfo sealing info).currentCommand = info.currentCommand ∧
      (sealedInfo sealing info).summary = info.summary ↔ Readable sealing info := by
  cases sealing with
  | none => simp [sealedInfo, Readable]
  | some envelope =>
    show "" = info.currentCommand ∧ none = info.summary ↔ _
    exact ⟨fun blank _ => ⟨blank.1.symm, blank.2.symm⟩, fun readable =>
      ⟨(readable (by simp)).1.symm, (readable (by simp)).2.symm⟩⟩

theorem carriesTask_announceEntry (permission : String) (sealing : Sealing) (u : Upstream) :
    CarriesTask (announceEntry permission sealing u.info) u.info := by
  cases sealing with
  | none => exact ⟨u.hasState, rfl, rfl, rfl, rfl, rfl, rfl⟩
  | some envelope => exact ⟨u.hasState, rfl, rfl, rfl, rfl, rfl, rfl⟩

/-- The task that `mergeTaskMeta` takes from a payload. -/
def metaTask (m : MetaPayload) : SessionInfo :=
  { SessionInfo.zero with
    taskState := m.taskState
    currentCommand := m.currentCommand
    commandStartedAt := m.commandStartedAt
    commandEndedAt := m.commandEndedAt
    commandDurationMS := m.commandDurationMS
    commandExitCode := m.commandExitCode
    lastOutputAt := m.lastOutputAt }

theorem carriesTask_metaTask (id name : String) (sealing : Sealing) (u : Upstream) :
    CarriesTask (metaTask (sealedMeta sealing (encodeMetaPayload u.info id name))) u.info := by
  cases sealing with
  | none => exact ⟨u.hasState, rfl, rfl, rfl, rfl, rfl, rfl⟩
  | some envelope =>
    rw [sealedMeta, stripMetaContentFields, sealMetaContentFields]
    by_cases nothing : (encodeMetaPayload u.info id name).cwd = "" ∧
        (encodeMetaPayload u.info id name).title = "" ∧
        (encodeMetaPayload u.info id name).currentCommand = ""
    · rw [if_pos nothing]
      exact ⟨u.hasState, rfl, rfl, rfl, rfl, rfl, rfl⟩
    · rw [if_neg nothing]
      exact ⟨u.hasState, rfl, rfl, rfl, rfl, rfl, rfl⟩

theorem sameTask_advertised_iff {old info actual : SessionInfo} (carries : CarriesTask info actual) :
    SameTask (Session.advertised old info) actual ↔
      Keeps old actual ∧ info.currentCommand = actual.currentCommand ∧
        info.summary = actual.summary := by
  rw [Session.advertised, sameTask_mergeTaskInfo_iff carries]
  refine and_congr_left fun _ => ?_
  exact ⟨fun keeps => ⟨keeps.1, keeps.2, keeps.3, keeps.4⟩,
    fun keeps => ⟨keeps.1, keeps.2, keeps.3, keeps.4⟩⟩

theorem info_updateMeta (s : Session) (m : MetaPayload) :
    (s.updateMeta m).1.info = mergeTaskInfo (Session.adoptPlace s.info m.cwd m.title) (metaTask m) := by
  show (s.withMeta m).info = _
  rw [Session.withMeta]
  split_ifs
  · rfl
  · rfl

theorem tracks_announce_iff {w : Mirrored} {permission : String} {sealing : Sealing} {u : Upstream} :
    (w.step (.announce permission sealing u)).Tracks ↔
      Keeps w.session.info u.info ∧ Readable sealing u.info := by
  show SameTask (Session.advertised w.session.info (announceEntry permission sealing u.info)) u.info ↔ _
  rw [sameTask_advertised_iff (carriesTask_announceEntry permission sealing u)]
  exact and_congr_right fun _ => sealedInfo_command_iff

theorem tracks_live_iff {w : Mirrored} {id name : String} {sealing : Sealing} {u : Upstream} :
    (w.step (.live id name sealing u)).Tracks ↔
      Keeps w.session.info u.info ∧ Readable sealing u.info ∧ u.info.summary = none := by
  show SameTask (w.session.updateMeta _).1.info u.info ↔ _
  rw [info_updateMeta, sameTask_mergeTaskInfo_iff (carriesTask_metaTask id name sealing u)]
  refine and_congr ?_ ?_
  · exact ⟨fun keeps => ⟨keeps.1, keeps.2, keeps.3, keeps.4⟩,
      fun keeps => ⟨keeps.1, keeps.2, keeps.3, keeps.4⟩⟩
  · cases sealing with
    | none =>
      show u.info.currentCommand = u.info.currentCommand ∧ none = u.info.summary ↔ _
      exact ⟨fun lost => ⟨fun key => absurd rfl key, lost.2.symm⟩, fun lost => ⟨rfl, lost.2.symm⟩⟩
    | some envelope =>
      show "" = u.info.currentCommand ∧ none = u.info.summary ↔ _
      exact ⟨fun lost => ⟨fun _ => ⟨lost.1.symm, lost.2.symm⟩, lost.2.symm⟩,
        fun lost => ⟨(lost.1 (by simp)).1.symm, lost.2.symm⟩⟩

/-- **One update.** A mirror that shows the host's state goes on showing it exactly if the update
carries what changed. -/
theorem tracks_step_iff {w : Mirrored} (tracks : w.Tracks) (update : Update) :
    (w.step update).Tracks ↔ w.Carried update := by
  cases update with
  | announce permission sealing u =>
    rw [tracks_announce_iff, Keeps.of_sameTask tracks]
    exact and_congr_right fun _ => ⟨fun readable => ⟨readable, trivial⟩, fun both => both.1⟩
  | live id name sealing u =>
    rw [tracks_live_iff, Keeps.of_sameTask tracks]
    exact Iff.rfl

theorem tracks_start_iff {permission : String} {sealing : Sealing} {u : Upstream} :
    (start permission sealing u).Tracks ↔ Readable sealing u.info := by
  have state := u.hasState
  have type := u.hasType
  cases sealing with
  | none =>
    refine iff_of_true ?_ (by simp [Readable])
    constructor <;> simp [start, Session.newMirror, Session.new, announceEntry, sealedInfo, state,
      type]
  | some envelope =>
    rw [← sealedInfo_command_iff]
    constructor
    · intro same
      exact ⟨same.currentCommand, same.summary⟩
    · rintro ⟨command, summary⟩
      exact {
        taskState := if_neg state
        currentCommand := command
        commandStartedAt := rfl
        commandEndedAt := rfl
        commandDurationMS := rfl
        commandExitCode := rfl
        lastOutputAt := rfl
        summary := summary
        type := if_neg type
        attentionAt := rfl }

/-- **The mirror shows the host's state all along exactly the updates that carry what changed.** -/
theorem tracks_iff (permission : String) (sealing : Sealing) (u : Upstream) (updates : List Update) :
    (∀ first, first <+: updates → (run step (start permission sealing u) first).Tracks) ↔
      Readable sealing u.info ∧ Meets step Carried (start permission sealing u) updates := by
  by_cases readable : Readable sealing u.info
  · rw [and_iff_right readable]
    refine sound_iff_meets Tracks ?_ (fun _ tracks => tracks) ?_ (tracks_start_iff.mpr readable) updates
    · exact fun w update tracks carried => (tracks_step_iff tracks update).mpr carried
    · exact fun w update tracks careless shown =>
        careless ((tracks_step_iff tracks update).mp shown)
  · refine iff_of_false (fun all => ?_) fun both => readable both.1
    exact readable (tracks_start_iff.mp (all [] List.nil_prefix))

section Sample

def finished : Upstream where
  info :=
    { SessionInfo.zero with
      taskState := "completed"
      commandStartedAt := 100
      commandEndedAt := 105
      commandDurationMS := 5000
      commandExitCode := some 0
      lastOutputAt := 105
      type := sessionTypeShell
      summary := some ⟨"done", [], 105⟩ }
  hasState := by simp
  hasType := by simp [sessionTypeShell]

theorem live_summary_is_lost :
    ¬(run step (start remotePermissionFull none finished) [.live "" "" none finished]).Tracks := by
  intro tracks
  exact absurd tracks.summary (by decide)

end Sample

end Mirrored

end Atterm.Relay
