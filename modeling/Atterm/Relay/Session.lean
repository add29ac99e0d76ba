/-
**The session that a relay keeps for one terminal.**

A mirror session has all three subscriber hooks registered. A call changes the state under the lock
and does the rest after releasing it: each operation returns the new state and its `Effect`s in the
order of the source. Subscribers are numbered, as the source tells them apart by their pointers.

* `Session.subscribe`, `Session.removeSubscriber`, `Session.claimDriver`, `Session.close`;
* `Session.updateMeta`, `Session.updateAdvertisedInfo` — what a mirror adopts from its host;
* `mergeTaskInfo`, `mergeTaskMeta` — the task fields of the two.
-/

import Mathlib

namespace Atterm.Relay

structure SessionSummary where
  recentOutput : String
  errorLines : List String
  capturedAt : ℤ
deriving DecidableEq, Repr

/-- `proto.SessionInfo`: the fields that the merging of announcements and META reads. -/
structure SessionInfo where
  cwd : String
  title : String
  cols : ℕ
  rows : ℕ
  remotePermission : String
  taskState : String
  currentCommand : String
  commandStartedAt : ℤ
  commandEndedAt : ℤ
  commandDurationMS : ℤ
  commandExitCode : Option ℤ
  lastOutputAt : ℤ
  type : String
  summary : Option SessionSummary
  attentionAt : ℤ
  sealed : List UInt8
deriving DecidableEq, Repr

structure MetaPayload where
  cwd : String
  title : String
  driverClientID : String
  driverClientName : String
  cols : ℕ
  rows : ℕ
  taskState : String
  currentCommand : String
  commandStartedAt : ℤ
  commandEndedAt : ℤ
  commandDurationMS : ℤ
  commandExitCode : Option ℤ
  lastOutputAt : ℤ
  type : String
  summary : Option SessionSummary
  attentionAt : ℤ
  sealed : List UInt8
deriving DecidableEq, Repr

def taskStateIdle : String := "idle"
def taskStateRunning : String := "running"
def sessionTypeShell : String := "shell"

def encodeMetaPayload (info : SessionInfo) (driverClientID driverClientName : String) :
    MetaPayload where
  cwd := info.cwd
  title := info.title
  driverClientID := driverClientID
  driverClientName := driverClientName
  cols := info.cols
  rows := info.rows
  taskState := info.taskState
  currentCommand := info.currentCommand
  commandStartedAt := info.commandStartedAt
  commandEndedAt := info.commandEndedAt
  commandDurationMS := info.commandDurationMS
  commandExitCode := info.commandExitCode
  lastOutputAt := info.lastOutputAt
  type := info.type
  summary := info.summary
  attentionAt := info.attentionAt
  sealed := []

def hasTaskInfo (info : SessionInfo) : Bool :=
  info.taskState ≠ "" || info.currentCommand ≠ "" || info.commandStartedAt ≠ 0 ||
    info.commandEndedAt ≠ 0 || info.commandDurationMS ≠ 0 || info.commandExitCode ≠ none ||
    info.lastOutputAt ≠ 0 || info.summary ≠ none

/-- The merged metadata; whether it changed is whether it differs from the old one. -/
def mergeTaskInfo (old info : SessionInfo) : SessionInfo :=
  if !hasTaskInfo info then old else
    { old with
      taskState := if info.taskState ≠ "" then info.taskState else old.taskState
      currentCommand := info.currentCommand
      commandStartedAt :=
        if info.commandStartedAt ≠ 0 then info.commandStartedAt else old.commandStartedAt
      commandEndedAt := info.commandEndedAt
      commandDurationMS := info.commandDurationMS
      commandExitCode := info.commandExitCode
      lastOutputAt := if info.lastOutputAt ≠ 0 then info.lastOutputAt else old.lastOutputAt
      summary := info.summary }

/-- The zero value of `proto.SessionInfo`. -/
def SessionInfo.zero : SessionInfo where
  cwd := ""
  title := ""
  cols := 0
  rows := 0
  remotePermission := ""
  taskState := ""
  currentCommand := ""
  commandStartedAt := 0
  commandEndedAt := 0
  commandDurationMS := 0
  commandExitCode := none
  lastOutputAt := 0
  type := ""
  summary := none
  attentionAt := 0
  sealed := []

def mergeTaskMeta (old : SessionInfo) (m : MetaPayload) : SessionInfo :=
  mergeTaskInfo old
    { SessionInfo.zero with
      taskState := m.taskState
      currentCommand := m.currentCommand
      commandStartedAt := m.commandStartedAt
      commandEndedAt := m.commandEndedAt
      commandDurationMS := m.commandDurationMS
      commandExitCode := m.commandExitCode
      lastOutputAt := m.lastOutputAt }

/-- A client connection's outbox; `handle` stands for its pointer, `replaces` for the one of the
subscriber that it supersedes. -/
structure Subscriber where
  handle : ℕ
  clientID : String
  clientName : String
  noAutoDrive : Bool
  replaces : Option ℕ
deriving DecidableEq, Repr

structure Session where
  info : SessionInfo
  closed : Bool
  subs : Finset ℕ
  driverSubscriber : Option ℕ
  driverClientID : String
  driverClientName : String
  driverFromUpstream : Bool
deriving DecidableEq

/-- What a call does after it has released the lock. The first-subscriber and last-unsubscribe hooks
start in goroutines of their own. -/
inductive Effect where
  | closed (sub : ℕ)
  | broadcast (payload : MetaPayload)
  | snapshot (sub : ℕ) (payload : MetaPayload)
  | firstSubscribe
  | lastUnsubscribe
  | subscriberCount (count : ℕ)
deriving DecidableEq, Repr

namespace Session

def new (info : SessionInfo) : Session where
  info :=
    { info with
      taskState := if info.taskState = "" then taskStateIdle else info.taskState
      type := if info.type = "" then sessionTypeShell else info.type }
  closed := false
  subs := ∅
  driverSubscriber := none
  driverClientID := ""
  driverClientName := ""
  driverFromUpstream := false

/-- `newMirrorSession`. -/
def newMirror (info : SessionInfo) : Session := { new info with driverFromUpstream := true }

def isDriver (s : Session) (sub : ℕ) : Bool := s.driverSubscriber = some sub

def currentMeta (s : Session) : MetaPayload :=
  encodeMetaPayload s.info s.driverClientID s.driverClientName

def replaced (s : Session) (sub : Subscriber) : Option ℕ := sub.replaces.filter (· ∈ s.subs)

/-- The driver lease passes from the superseded subscriber to the new one. -/
def transfers (s : Session) (sub : Subscriber) : Bool :=
  (s.replaced sub).isSome && s.driverSubscriber = s.replaced sub

/-- The subscriber takes its place in the set, and the lease of the one that it supersedes. -/
def attached (s : Session) (sub : Subscriber) : Session :=
  { s with
    subs := insert sub.handle (s.subs \ (s.replaced sub).toFinset)
    driverSubscriber := if s.transfers sub then some sub.handle else s.driverSubscriber }

def autoDrives (s : Session) (sub : Subscriber) : Bool :=
  !s.driverFromUpstream && s.driverSubscriber.isNone && !sub.noAutoDrive

/-- The state after the subscriber was attached and, in a local session without driver, promoted. -/
def joined (s : Session) (sub : Subscriber) : Session :=
  if (s.attached sub).autoDrives sub then
    { s.attached sub with
      driverSubscriber := some sub.handle
      driverClientID := sub.clientID
      driverClientName := sub.clientName }
  else s.attached sub

def promotes (s : Session) (sub : Subscriber) : Bool :=
  s.transfers sub || (s.attached sub).autoDrives sub

/-- `Subscribe` from where it holds the lock for good. The call is not `admitted` when the queue of
the subscriber filled up during the replay. -/
def subscribe (s : Session) (sub : Subscriber) (admitted : Bool) : Session × List Effect :=
  if s.closed || !admitted then (s, [.closed sub.handle]) else
    (s.joined sub,
      (s.replaced sub).toList.map .closed ++
      [if s.promotes sub then .broadcast (s.joined sub).currentMeta
        else .snapshot sub.handle (s.joined sub).currentMeta] ++
      (if s.subs.card = 0 then [.firstSubscribe] else []) ++
      (if (s.joined sub).subs.card ≠ s.subs.card then
        [.subscriberCount (s.joined sub).subs.card] else []))

def claimDriver (s : Session) (sub : ℕ) (clientID clientName : String) : Session × List Effect :=
  if sub ∉ s.subs then (s, []) else
    ({ s with
        driverSubscriber := some sub
        driverClientID := clientID
        driverClientName := clientName },
      [.broadcast (encodeMetaPayload s.info clientID clientName)])

/-- The state without a subscriber; a leaving driver takes the lease with it. -/
def without (s : Session) (sub : ℕ) : Session :=
  if s.isDriver sub then
    { s with
      subs := s.subs.erase sub
      driverSubscriber := none
      driverClientID := ""
      driverClientName := "" }
  else { s with subs := s.subs.erase sub }

@[simp] theorem subs_without (s : Session) (sub : ℕ) :
    (s.without sub).subs = s.subs.erase sub := by
  rw [without]
  split_ifs <;> rfl

def removeSubscriber (s : Session) (sub : ℕ) : Session × List Effect :=
  (s.without sub,
    [.closed sub] ++
    (if s.isDriver sub then [.broadcast (encodeMetaPayload s.info "" "")] else []) ++
    (if sub ∈ s.subs ∧ (s.subs.erase sub).card = 0 then [.lastUnsubscribe] else []) ++
    (if sub ∈ s.subs then [.subscriberCount (s.subs.erase sub).card] else []))

/-- `Close`: the subscribers are closed, and no hook hears of it. -/
def close (s : Session) : Session := if s.closed then s else { s with closed := true, subs := ∅ }

/-- The fields that META and announcements treat alike before the task fields. -/
def adoptPlace (info : SessionInfo) (cwd title : String) : SessionInfo :=
  { info with
    cwd := if cwd ≠ "" then cwd else info.cwd
    title := if title ≠ "" then title else info.title }

/-- The state after `UpdateMeta`: a mirror adopts the driver that its host reports. -/
def withMeta (s : Session) (m : MetaPayload) : Session :=
  if s.driverFromUpstream then
    { s with
      info := mergeTaskMeta (adoptPlace s.info m.cwd m.title) m
      driverClientID := m.driverClientID
      driverClientName := m.driverClientName }
  else { s with info := mergeTaskMeta (adoptPlace s.info m.cwd m.title) m }

def updateMeta (s : Session) (m : MetaPayload) : Session × List Effect :=
  (s.withMeta m, if s.withMeta m ≠ s then [.broadcast (s.withMeta m).currentMeta] else [])

/-- The metadata after `UpdateAdvertisedInfo`. -/
def advertised (old info : SessionInfo) : SessionInfo :=
  mergeTaskInfo
    { adoptPlace old info.cwd info.title with
      sealed := if info.sealed ≠ [] then info.sealed else old.sealed
      remotePermission := info.remotePermission } info

def updateAdvertisedInfo (s : Session) (info : SessionInfo) : Session × List Effect :=
  ({ s with info := advertised s.info info },
    if advertised s.info info ≠ s.info then
      [.broadcast ({ s with info := advertised s.info info } : Session).currentMeta]
    else [])

end Session

end Atterm.Relay
