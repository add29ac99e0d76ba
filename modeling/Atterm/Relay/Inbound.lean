/-
**Input from a viewer to the terminal of the host.**

A frame of the driver passes the checks of the relay, the queue of the mirror, the queue of the uplink
and the wire, and the reader of the desktop opens it and hands it to the local session. Each of the
parties switches over the type of the frame by itself.

* `InboundWorld.step` — one step of one party;
* `InboundWorld.handed_iff` — which frames arrive as they were sent.
-/

import Atterm.Foundation.Runs
import Atterm.Relay.Envelope
import Atterm.Relay.MetaMerge

namespace Atterm.Relay

open Atterm.Foundation Atterm.Transport

inductive InboundType where
  | in
  | resize
  | pasteImage
  | pasteFile
deriving DecidableEq, Repr

/-- The byte of the frame type on the wire. -/
def InboundType.code : InboundType → UInt8
  | .in => 0x02
  | .resize => 0x04
  | .pasteImage => 0x33
  | .pasteFile => 0x37

structure InboundFrame where
  type : InboundType
  sessionID : ℕ
  payload : Bytes
deriving DecidableEq, Repr

inductive AuthScope where
  | read
  | write
deriving DecidableEq, Repr

inductive RemotePermission where
  | view
  | control
  | full
deriving DecidableEq, Repr

def parseRemotePermission (value : String) : RemotePermission :=
  if value = remotePermissionView then .view
  else if value = remotePermissionControl then .control
  else if value = remotePermissionFull ∨ value = "" then .full
  else .view

def frameAllowedByPermission (scope : AuthScope) (permission : RemotePermission)
    (type : InboundType) : Bool :=
  match scope with
  | .read => false
  | .write =>
    match type with
    | .in | .resize => permission ≠ .view
    | .pasteImage | .pasteFile => permission = .full

def localFrameAllowedByPermission (remotePermission : String) (type : InboundType) : Bool :=
  match type with
  | .in | .resize =>
    remotePermission = remotePermissionControl || remotePermission = remotePermissionFull
  | .pasteImage | .pasteFile => remotePermission = remotePermissionFull

def inboundQueueDepth : ℕ := 64
def uplinkOutBuffer : ℕ := 256

/-- The connection of one mirror: the scope of the viewer, the permission that the desktop was set to,
its account key if one is unlocked, and the local session. -/
structure InboundRoute where
  scope : AuthScope
  rawRemotePermission : String
  accountKey : Option Bytes
  sessionID : ℕ

section Desktop

variable (E : E2EE)

/-- `openInboundFrame`, or the frame as it is. -/
def openInboundFrame (accountKey : Option Bytes) (frame : InboundFrame) : InboundFrame :=
  match accountKey with
  | none => frame
  | some key =>
    if frame.type ≠ .in ∧ frame.type ≠ .pasteImage then frame
    else if looksLikeSealed frame.payload = false then frame
    else if key.length < sessionKeySize then frame
    else
      match openUnsequenced E (E.deriveSessionKey key frame.sessionID) frame.sessionID
          frame.type.code frame.payload with
      | .ok plaintext => { frame with payload := plaintext }
      | .error _ => frame

/-- What the desktop's reader hands to a local session: it knows no PASTE_FILE. -/
def desktopInbound (route : InboundRoute) (frame : InboundFrame) : Option InboundFrame :=
  match frame.type with
  | .in | .resize | .pasteImage =>
    if localFrameAllowedByPermission (normalizeRemotePermission route.rawRemotePermission)
        frame.type then
      some (openInboundFrame E route.accountKey frame)
    else none
  | .pasteFile => none

/-- The payload is an envelope that was sealed with the session key. -/
def SealedAs (accountKey : Option Bytes) (frame : InboundFrame) (plaintext : Bytes) : Prop :=
  ∃ key ∈ accountKey, sessionKeySize ≤ key.length ∧ ∃ nonce,
    sealUnsequenced E nonce (E.deriveSessionKey key frame.sessionID) frame.sessionID
      frame.type.code plaintext = .ok frame.payload

/-- What the client means: the plaintext of an envelope, else the payload itself. -/
def Means (accountKey : Option Bytes) (frame : InboundFrame) (plaintext : Bytes) : Prop :=
  SealedAs E accountKey frame plaintext ∨
    (∀ other, ¬SealedAs E accountKey frame other) ∧ plaintext = frame.payload

end Desktop

/-- The parties between a viewer and the local session. `accepted` is what the relay took from the
driver, `handed` what the local session was given, and `overflowed` tells that a queue was full. -/
structure InboundWorld where
  session : Session
  inbound : List InboundFrame
  out : List InboundFrame
  wire : List InboundFrame
  localQueue : List InboundFrame
  accepted : List InboundFrame
  handed : List InboundFrame
  overflowed : Bool

/-- One step: the viewer `sub` sends, the driver lease moves, or a party takes its next frame. -/
inductive InboundEvent where
  | send (sub : ℕ) (frame : InboundFrame)
  | lease (driver : Option ℕ)
  | forward
  | write
  | read
  | consume

namespace InboundWorld

def start (route : InboundRoute) : InboundWorld where
  session := Session.newMirror
    { SessionInfo.zero with
      remotePermission := normalizeRemotePermission route.rawRemotePermission }
  inbound := []
  out := []
  wire := []
  localQueue := []
  accepted := []
  handed := []
  overflowed := false

/-- The checks of the relay's client handler. -/
def accepts (route : InboundRoute) (w : InboundWorld) (sub : ℕ) (frame : InboundFrame) : Bool :=
  frameAllowedByPermission route.scope (parseRemotePermission w.session.info.remotePermission)
    frame.type && w.session.isDriver sub

/-- `SendLocalInbound` of a frame that the desktop's reader has treated. -/
def deliver (route : InboundRoute) (w : InboundWorld) (frame : InboundFrame) : InboundWorld :=
  if frame.sessionID ≠ route.sessionID then w
  else if w.localQueue.length < inboundQueueDepth then
    { w with localQueue := w.localQueue ++ [frame], handed := w.handed ++ [frame] }
  else { w with overflowed := true }

def step (E : E2EE) (route : InboundRoute) (w : InboundWorld) : InboundEvent → InboundWorld
  | .send sub frame =>
    if w.accepts route sub frame then
      if w.inbound.length < inboundQueueDepth then
        { w with inbound := w.inbound ++ [frame], accepted := w.accepted ++ [frame] }
      else { w with accepted := w.accepted ++ [frame], overflowed := true }
    else w
  | .lease driver => { w with session := { w.session with driverSubscriber := driver } }
  | .forward =>
    match w.inbound with
    | frame :: rest =>
      if w.out.length < uplinkOutBuffer then
        { w with inbound := rest, out := w.out ++ [frame] }
      else w
    | [] => w
  | .write =>
    match w.out with
    | frame :: rest => { w with out := rest, wire := w.wire ++ [frame] }
    | [] => w
  | .read =>
    match w.wire with
    | frame :: rest =>
      match desktopInbound E route frame with
      | some opened => { w with wire := rest }.deliver route opened
      | none => { w with wire := rest }
    | [] => w
  | .consume => { w with localQueue := w.localQueue.tail }

/-- Every accepted frame has been read or dropped. -/
def Quiet (w : InboundWorld) : Prop := w.inbound = [] ∧ w.out = [] ∧ w.wire = []

instance (w : InboundWorld) : Decidable w.Quiet :=
  inferInstanceAs (Decidable (w.inbound = [] ∧ w.out = [] ∧ w.wire = []))

/-- The local session is given what the driver sent, in order and in the clear. -/
def Complete (E : E2EE) (route : InboundRoute) (w : InboundWorld) : Prop :=
  List.Forall₂ (fun sent handed : InboundFrame => handed.type = sent.type ∧
    Means E route.accountKey sent handed.payload) w.accepted w.handed

/-- A frame that all the parties treat alike: no file, for the session that the viewer is attached to,
and no sealed size. -/
def Carried (E : E2EE) (route : InboundRoute) (frame : InboundFrame) : Prop :=
  frame.type ≠ .pasteFile ∧ frame.sessionID = route.sessionID ∧
    (frame.type = .resize → ∀ plaintext, ¬SealedAs E route.accountKey frame plaintext)

section Treatment

variable {E : E2EE} {route : InboundRoute} {w : InboundWorld} {frame : InboundFrame}

theorem localFrameAllowed_of_frameAllowed {scope : AuthScope} {raw : String} {type : InboundType}
    (allowed : frameAllowedByPermission scope
      (parseRemotePermission (normalizeRemotePermission raw)) type = true) :
    localFrameAllowedByPermission (normalizeRemotePermission raw) type = true := by
  have known : normalizeRemotePermission raw ∈
      [remotePermissionView, remotePermissionControl, remotePermissionFull] := by
    rw [normalizeRemotePermission]
    split_ifs with listed
    · exact listed
    · decide
  generalize normalizeRemotePermission raw = value at allowed known
  have cases : value = remotePermissionView ∨ value = remotePermissionControl ∨
      value = remotePermissionFull := by simpa using known
  rcases cases with rfl | rfl | rfl <;> cases scope <;> cases type <;> revert allowed <;> decide

/-- What reaches the session that the viewer is attached to. -/
def here (E : E2EE) (route : InboundRoute) (frame : InboundFrame) : Option InboundFrame :=
  (desktopInbound E route frame).filter (·.sessionID = route.sessionID)

/-- **A frame that the desktop opens** carries what the client means. -/
theorem means_openInboundFrame (correct : E.Correct) {accountKey : Option Bytes}
    (opens : frame.type = .in ∨ frame.type = .pasteImage) :
    Means E accountKey frame (openInboundFrame E accountKey frame).payload := by
  cases accountKey with
  | none =>
    refine Or.inr ⟨?_, rfl⟩
    rintro other ⟨key, inside, -⟩
    exact absurd inside (Option.not_mem_none key)
  | some key =>
    have mine : ∀ other, SealedAs E (some key) frame other → sessionKeySize ≤ key.length ∧
        ∃ nonce, sealUnsequenced E nonce (E.deriveSessionKey key frame.sessionID) frame.sessionID
          frame.type.code other = .ok frame.payload := by
      rintro other ⟨found, inside, long, sealed⟩
      obtain rfl := Option.some.inj inside
      exact ⟨long, sealed⟩
    have type : ¬(frame.type ≠ .in ∧ frame.type ≠ .pasteImage) := by
      rcases opens with same | same <;> simp [same]
    rw [openInboundFrame, if_neg type]
    by_cases plain : looksLikeSealed frame.payload = false
    · rw [if_pos plain]
      refine Or.inr ⟨fun other sealed => ?_, rfl⟩
      obtain ⟨-, nonce, sealed⟩ := mine other sealed
      rw [looksLikeSealed_sealUnsequenced correct sealed] at plain
      exact Bool.noConfusion plain
    · rw [if_neg plain]
      by_cases short : key.length < sessionKeySize
      · rw [if_pos short]
        exact Or.inr ⟨fun other sealed => absurd (mine other sealed).1 (not_le.mpr short), rfl⟩
      · rw [if_neg short]
        cases opened : openUnsequenced E (E.deriveSessionKey key frame.sessionID) frame.sessionID
            frame.type.code frame.payload with
        | ok plaintext =>
          exact Or.inl ⟨key, rfl, not_lt.mp short, (openUnsequenced_ok_iff correct).mp opened⟩
        | error error =>
          refine Or.inr ⟨fun other sealed => ?_, rfl⟩
          have opens := (openUnsequenced_ok_iff correct).mpr (mine other sealed).2
          rw [opened] at opens
          exact absurd opens (by simp)

theorem means_payload_iff (correct : E.Correct) {accountKey : Option Bytes} :
    Means E accountKey frame frame.payload ↔ ∀ plaintext, ¬SealedAs E accountKey frame plaintext := by
  constructor
  · rintro (⟨key, -, -, nonce, sealed⟩ | ⟨plain, -⟩)
    · have longer := length_sealUnsequenced correct sealed
      simp only [minEnvelopeLen, envelopePrefixSize, nonceSizeX] at longer
      omega
    · exact plain
  · exact fun plain => Or.inr ⟨plain, rfl⟩

theorem openInboundFrame_type (E : E2EE) (accountKey : Option Bytes) (frame : InboundFrame) :
    (openInboundFrame E accountKey frame).type = frame.type ∧
      (openInboundFrame E accountKey frame).sessionID = frame.sessionID := by
  cases accountKey with
  | none => exact ⟨rfl, rfl⟩
  | some key =>
    rw [openInboundFrame]
    split_ifs
    · exact ⟨rfl, rfl⟩
    · exact ⟨rfl, rfl⟩
    · exact ⟨rfl, rfl⟩
    · cases openUnsequenced E (E.deriveSessionKey key frame.sessionID) frame.sessionID
          frame.type.code frame.payload <;> exact ⟨rfl, rfl⟩

theorem here_eq {frame : InboundFrame} (allowed : localFrameAllowedByPermission
      (normalizeRemotePermission route.rawRemotePermission) frame.type = true) :
    here E route frame =
      if frame.type ≠ .pasteFile ∧ frame.sessionID = route.sessionID then
        some (openInboundFrame E route.accountKey frame)
      else none := by
  have same := (openInboundFrame_type E route.accountKey frame).2
  rw [here, desktopInbound]
  cases type : frame.type <;> simp_all [Option.filter]

/-- **One frame.** It reaches the session with the meaning of the client exactly if all parties treat
it alike. -/
theorem here_means_iff (correct : E.Correct) {frame : InboundFrame}
    (allowed : localFrameAllowedByPermission
      (normalizeRemotePermission route.rawRemotePermission) frame.type = true) :
    (∃ handed, here E route frame = some handed ∧ handed.type = frame.type ∧
      Means E route.accountKey frame handed.payload) ↔ Carried E route frame := by
  rw [here_eq allowed]
  by_cases reaches : frame.type ≠ .pasteFile ∧ frame.sessionID = route.sessionID
  · rw [if_pos reaches]
    have only : (∃ handed, some (openInboundFrame E route.accountKey frame) = some handed ∧
        handed.type = frame.type ∧ Means E route.accountKey frame handed.payload) ↔
          Means E route.accountKey frame (openInboundFrame E route.accountKey frame).payload := by
      constructor
      · rintro ⟨handed, same, -, means⟩
        rw [Option.some.inj same]
        exact means
      · exact fun means => ⟨_, rfl, (openInboundFrame_type E route.accountKey frame).1, means⟩
    rw [only, Carried, and_iff_right reaches.1, and_iff_right reaches.2]
    by_cases resize : frame.type = .resize
    · have whole : openInboundFrame E route.accountKey frame = frame := by
        cases route.accountKey <;> simp [openInboundFrame, resize]
      rw [whole, means_payload_iff correct]
      exact ⟨fun plain _ => plain, fun plain => plain resize⟩
    · refine iff_of_true (means_openInboundFrame correct ?_) fun same => absurd same resize
      cases type : frame.type <;> simp_all
  · rw [if_neg reaches]
    refine iff_of_false ?_ fun carried => reaches ⟨carried.1, carried.2.1⟩
    rintro ⟨handed, nothing, -⟩
    exact absurd nothing (by simp)

end Treatment

section Pipeline

variable {E : E2EE} {route : InboundRoute} {w : InboundWorld}

def underWay (w : InboundWorld) : List InboundFrame := w.wire ++ w.out ++ w.inbound

/-- What every step keeps as long as no queue was full. -/
structure Ordered (E : E2EE) (route : InboundRoute) (w : InboundWorld) : Prop where
  permission :
    w.session.info.remotePermission = normalizeRemotePermission route.rawRemotePermission
  allowed : ∀ frame ∈ w.accepted, localFrameAllowedByPermission
    (normalizeRemotePermission route.rawRemotePermission) frame.type = true
  handed : w.overflowed = false →
    w.handed ++ w.underWay.filterMap (here E route) = w.accepted.filterMap (here E route)

theorem ordered_start : (start route).Ordered E route where
  permission := rfl
  allowed := fun _ inside => absurd inside List.not_mem_nil
  handed := fun _ => rfl

theorem ordered_send (ordered : w.Ordered E route) (sub : ℕ) (frame : InboundFrame) :
    (w.step E route (.send sub frame)).Ordered E route := by
  rw [step]
  by_cases accepts : w.accepts route sub frame = true
  · rw [if_pos accepts]
    have passes : localFrameAllowedByPermission
        (normalizeRemotePermission route.rawRemotePermission) frame.type = true := by
      rw [InboundWorld.accepts, ordered.permission, Bool.and_eq_true] at accepts
      exact localFrameAllowed_of_frameAllowed accepts.1
    have allowed : ∀ other ∈ w.accepted ++ [frame], localFrameAllowedByPermission
        (normalizeRemotePermission route.rawRemotePermission) other.type = true := by
      intro other inside
      rcases List.mem_append.mp inside with before | last
      · exact ordered.allowed other before
      · rw [List.mem_singleton.mp last]
        exact passes
    by_cases room : w.inbound.length < inboundQueueDepth
    · rw [if_pos room]
      refine ⟨ordered.permission, allowed, fun smooth => ?_⟩
      have handed := ordered.handed smooth
      have last : w.wire ++ w.out ++ (w.inbound ++ [frame]) = w.underWay ++ [frame] :=
        (List.append_assoc _ _ _).symm
      show w.handed ++ (w.wire ++ w.out ++ (w.inbound ++ [frame])).filterMap (here E route) =
        (w.accepted ++ [frame]).filterMap (here E route)
      rw [last, List.filterMap_append, List.filterMap_append, ← List.append_assoc, handed]
    · rw [if_neg room]
      exact ⟨ordered.permission, allowed, fun smooth => Bool.noConfusion smooth⟩
  · rw [if_neg accepts]
    exact ordered

theorem ordered_read (ordered : w.Ordered E route) : (w.step E route .read).Ordered E route := by
  have handed := ordered.handed
  cases wire : w.wire with
  | nil =>
    have still : w.step E route .read = w := by simp only [step, wire]
    rw [still]
    exact ordered
  | cons frame rest =>
    rw [underWay, wire, List.cons_append, List.cons_append] at handed
    cases reached : desktopInbound E route frame with
    | none =>
      have read : w.step E route .read = { w with wire := rest } := by
        simp only [step, wire, reached]
      rw [read]
      refine ⟨ordered.permission, ordered.allowed, fun smooth => ?_⟩
      have dropped : here E route frame = none := by rw [here, reached]; rfl
      rw [← handed smooth, List.filterMap_cons_none dropped]
      rfl
    | some opened =>
      have read : w.step E route .read = { w with wire := rest }.deliver route opened := by
        simp only [step, wire, reached]
      rw [read, deliver]
      by_cases elsewhere : opened.sessionID ≠ route.sessionID
      · rw [if_pos elsewhere]
        refine ⟨ordered.permission, ordered.allowed, fun smooth => ?_⟩
        have dropped : here E route frame = none := by
          rw [here, reached]
          simp [Option.filter, elsewhere]
        rw [← handed smooth, List.filterMap_cons_none dropped]
        rfl
      · rw [if_neg elsewhere]
        have arrives : here E route frame = some opened := by
          rw [here, reached]
          simpa [Option.filter] using elsewhere
        by_cases room : w.localQueue.length < inboundQueueDepth
        · rw [if_pos room]
          refine ⟨ordered.permission, ordered.allowed, fun smooth => ?_⟩
          rw [← handed smooth, List.filterMap_cons_some arrives]
          exact List.append_assoc _ [opened] _
        · rw [if_neg room]
          exact ⟨ordered.permission, ordered.allowed, fun smooth => Bool.noConfusion smooth⟩

/-- **One step** of any party keeps the order. -/
theorem ordered_step (ordered : w.Ordered E route) (event : InboundEvent) :
    (w.step E route event).Ordered E route := by
  cases event with
  | send sub frame => exact ordered_send ordered sub frame
  | lease driver => exact ⟨ordered.permission, ordered.allowed, ordered.handed⟩
  | forward =>
    rw [step]
    cases inbound : w.inbound with
    | nil => exact ordered
    | cons frame rest =>
      by_cases room : w.out.length < uplinkOutBuffer
      · simp only [if_pos room]
        refine ⟨ordered.permission, ordered.allowed, fun smooth => ?_⟩
        have handed := ordered.handed smooth
        rw [underWay, inbound] at handed
        rw [← handed, underWay]
        simp
      · simp only [if_neg room]
        exact ordered
  | write =>
    rw [step]
    cases out : w.out with
    | nil => exact ordered
    | cons frame rest =>
      refine ⟨ordered.permission, ordered.allowed, fun smooth => ?_⟩
      have handed := ordered.handed smooth
      rw [underWay, out] at handed
      rw [← handed, underWay]
      simp
  | read => exact ordered_read ordered
  | consume => exact ⟨ordered.permission, ordered.allowed, ordered.handed⟩

theorem forall₂_filterMap_iff {α β : Type*} {related : α → β → Prop} {treat : α → Option β}
    (list : List α) : List.Forall₂ related list (list.filterMap treat) ↔
      ∀ a ∈ list, ∃ b, treat a = some b ∧ related a b := by
  induction list with
  | nil => simp
  | cons a rest ih =>
    cases treated : treat a with
    | none =>
      rw [List.filterMap_cons_none treated]
      refine iff_of_false (fun all => ?_) fun all => ?_
      · have longer := all.length_eq
        have shorter := List.length_filterMap_le treat rest
        rw [List.length_cons] at longer
        omega
      · obtain ⟨b, some, -⟩ := all a List.mem_cons_self
        rw [treated] at some
        exact absurd some (by simp)
    | some b =>
      rw [List.filterMap_cons_some treated, List.forall₂_cons, ih, List.forall_mem_cons]
      refine and_congr_left fun _ => ?_
      exact ⟨fun r => ⟨b, treated, r⟩, fun ⟨other, same, r⟩ => by
        rw [treated] at same
        rw [Option.some.inj same]
        exact r⟩

/-- **Inbound forwarding.** When no queue overflows, everything that the driver sent has arrived as it
was meant, once it is no longer under way, exactly if all parties treat every frame of it alike. -/
theorem handed_iff (correct : E.Correct) (route : InboundRoute) (events : List InboundEvent)
    (smooth : (run (step E route) (start route) events).overflowed = false)
    (quiet : (run (step E route) (start route) events).Quiet) :
    (run (step E route) (start route) events).Complete E route ↔
      ∀ frame ∈ (run (step E route) (start route) events).accepted, Carried E route frame := by
  have ordered : (run (step E route) (start route) events).Ordered E route :=
    run_invariant (Ordered E route) (fun w event ordered => ordered_step ordered event)
      ordered_start events
  generalize run (step E route) (start route) events = w at *
  have handed := ordered.handed smooth
  rw [underWay, quiet.1, quiet.2.1, quiet.2.2] at handed
  simp only [List.append_nil, List.filterMap_nil] at handed
  rw [Complete, handed, forall₂_filterMap_iff]
  exact forall₂_congr fun frame inside => here_means_iff correct (ordered.allowed frame inside)

end Pipeline

section Sample

/-- A viewer with full permission, and a desktop without account key. -/
def sampleRoute : InboundRoute := ⟨.write, "full", none, 7⟩

def passing (frame : InboundFrame) : List InboundEvent :=
  [.lease (some 0), .send 0 frame, .forward, .write, .read]

theorem typed_arrives :
    (run (step sampleE2EE sampleRoute) (start sampleRoute)
      (passing ⟨.in, 7, [104, 105]⟩)).Complete sampleE2EE sampleRoute := by
  refine (handed_iff sampleE2EE_correct sampleRoute _ (by decide) (by decide)).mpr ?_
  intro frame inside
  have same : frame = ⟨.in, 7, [104, 105]⟩ := by
    have only : (run (step sampleE2EE sampleRoute) (start sampleRoute)
      (passing ⟨.in, 7, [104, 105]⟩)).accepted = [⟨.in, 7, [104, 105]⟩] := by decide
    rw [only] at inside
    exact List.mem_singleton.mp inside
  subst same
  exact ⟨by decide, rfl, fun resize => absurd resize (by decide)⟩

theorem pasted_file_is_dropped :
    (run (step sampleE2EE sampleRoute) (start sampleRoute)
        (passing ⟨.pasteFile, 7, [123, 125]⟩)).accepted = [⟨.pasteFile, 7, [123, 125]⟩] ∧
      ¬(run (step sampleE2EE sampleRoute) (start sampleRoute)
        (passing ⟨.pasteFile, 7, [123, 125]⟩)).Complete sampleE2EE sampleRoute := by
  refine ⟨by decide, fun complete => ?_⟩
  have lengths := complete.length_eq
  exact absurd lengths (by decide)

end Sample

end InboundWorld

end Atterm.Relay
