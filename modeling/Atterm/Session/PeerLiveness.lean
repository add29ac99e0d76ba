/-
**The peer connection is never stuck and never leaks a route.**

After every step the connection owns a transport, a handover attempt, a reconnect timer or a pending
fallback, and every transport it no longer owns has been closed. Two steps break this. `attach` does
not look at the handover attempt: called while the old transport has failed and its replacement is
still being prepared, it starts a second transport under a new generation and leaves the attempt of
the old one behind, which then blocks every send. And `start` does not close a transport whose
`start()` throws, as `startDirectHandover` does.

* `routing` — what of a connection decides where its next transport comes from;
* `step_consistent` — every careful step keeps it;
* `never_stuck_iff` — the exact runs after whose every step nothing is stuck or leaked.
-/

import Atterm.Foundation.Runs
import Atterm.Session.PeerConnection
import Atterm.Session.PeerRouting

namespace Atterm.Session

open Atterm.Foundation

namespace PeerSessionConnection

/-- What of a connection decides where its next transport comes from. -/
def routing (c : PeerSessionConnection) : Routing :=
  { transport := c.transport
    generation := c.generation
    ready := c.ready
    detached := c.detached
    suspended := c.suspended
    reconnectTimer := c.reconnectTimer.isSome
    fallbackPending := c.fallbackPending
    handover := c.handover.map fun attempt => (attempt.generation, attempt.transport)
    attached := c.world.attached
    transports := c.world.transports
    fallbacks := c.world.fallbacks }

def Live (c : PeerSessionConnection) : Prop := c.detached = false ∧ c.suspended = false

variable {options : PeerSessionConnectionOptions} {c c' : PeerSessionConnection}

theorem isCurrent_iff {generation transport : ℕ} : c.isCurrent generation transport = true ↔
    (generation = c.generation ∧ c.transport = some transport) ∧ c.Live := by
  simp [isCurrent, Live, and_assoc]

theorem isHandoverCurrent_iff {attempt : PeerHandoverAttempt} (waiting : attempt.promoted = false) :
    c.isHandoverCurrent attempt = true ↔
      (c.handover = some attempt ∧ attempt.generation = c.generation) ∧ c.Live := by
  simp [isHandoverCurrent, waiting, Live, and_assoc]

/-! ### What sends leave alone -/

theorem flushInputs_routing (transport takes : ℕ) (inputs : List String)
    (c : PeerSessionConnection) :
    (flushInputs transport takes inputs c).routing = c.routing := by
  induction inputs generalizing takes c with
  | nil => simp [flushInputs]
  | cons value rest ih =>
    cases takes with
    | zero => rfl
    | succ takes => exact ih takes _

theorem flushResize_routing (c : PeerSessionConnection) (transport takes : ℕ) :
    (c.flushResize transport takes).routing = c.routing := by
  unfold flushResize
  cases c.pendingResize with
  | none => exact flushInputs_routing ..
  | some size =>
    by_cases full : takes = 0
    · simp only [full, if_pos]
      rfl
    · simp only [full, if_neg, not_false_eq_true]
      exact flushInputs_routing ..

theorem flush_routing (c : PeerSessionConnection) (takes : ℕ) :
    (c.flush takes).routing = c.routing := by
  unfold flush
  cases c.transport with
  | none => rfl
  | some transport =>
    dsimp only
    split_ifs
    · rfl
    · rfl
    · exact flushResize_routing ..
    · exact flushResize_routing ..

theorem send_routing (c : PeerSessionConnection) (frame : PeerFrame) (takes : ℕ) :
    (c.send frame takes).2.routing = c.routing := by
  unfold send
  split_ifs
  · cases c.transport with
    | none => rfl
    | some transport => rfl
  · rfl

theorem sendInput_routing (c : PeerSessionConnection) (value : String) (takes : ℕ) :
    (c.sendInput value takes).routing = c.routing := by
  rw [← send_routing c (.input value) takes]
  unfold sendInput
  dsimp only
  split_ifs <;> rfl

theorem request_routing (c : PeerSessionConnection) (frame : PeerFrame) (takes : ℕ) :
    (c.request frame takes).routing = c.routing := by
  unfold request
  cases c.transport with
  | none => rfl
  | some transport =>
    dsimp only
    split_ifs <;> rfl

theorem sendPaste_routing (c : PeerSessionConnection) (image : Bool) :
    (c.sendPaste image).routing = c.routing := by
  unfold sendPaste
  cases current : c.transport with
  | none => rfl
  | some transport =>
    dsimp only
    split_ifs
    · rfl
    · simp only [routing, current]

theorem pasteEncoded_routing (c : PeerSessionConnection) (paste : PendingPaste)
    (payload : List UInt8) (takes : ℕ) :
    (c.pasteEncoded paste payload takes).routing = c.routing := by
  unfold pasteEncoded
  split_ifs <;> rfl

theorem scheduleDirectFailback_routing (c : PeerSessionConnection) :
    (c.scheduleDirectFailback options).routing = c.routing := by
  unfold scheduleDirectFailback
  dsimp only
  split_ifs <;> rfl

theorem probeDirectFailback_routing (c : PeerSessionConnection) (generation : ℕ) :
    (c.probeDirectFailback generation).routing = c.routing := by
  unfold probeDirectFailback
  split_ifs <;> rfl

theorem failback_routing (c : PeerSessionConnection) : c.failback.routing = c.routing := by
  unfold failback
  cases c.failbackTimer with
  | none => rfl
  | some timer => exact probeDirectFailback_routing ..

/-! ### Recovery -/

theorem scheduleReconnect_consistent (idle : c.routing.Idle) (live : c.Live)
    (quiet : c.ready = false) : c.scheduleReconnect.routing.Consistent := by
  have untimed : c.reconnectTimer.isSome = false := idle.reconnectTimer
  unfold scheduleReconnect
  rw [if_neg (by simp [live.1, live.2, untimed])]
  exact idle.timed quiet

theorem recover_consistent {generation : ℕ} {error : String} (idle : c.routing.Idle)
    (live : c.Live) (same : generation = c.generation) :
    (recover options c generation error).routing.Consistent := by
  have quieted :
      ({ c with failbackTimer := none, authenticated := false, ready := false } :
        PeerSessionConnection).routing.Idle :=
    ⟨idle.transport, idle.handover, idle.reconnectTimer, idle.fallbackPending, idle.settled,
      idle.known⟩
  subst same
  unfold recover
  rw [if_neg (by simp [live.1, live.2])]
  dsimp only
  split_ifs
  · exact quieted.asking rfl live.1 live.2
  · exact scheduleReconnect_consistent quieted live rfl

/-- The transport of a launch is known to be closed or current afterwards. -/
def Launch.Contained : Launch → Prop
  | .starts => True
  | .factoryThrows _ => True
  | .startThrows _ => False

theorem start_consistent {launch : Launch} (idle : c.routing.Idle) (live : c.Live)
    (contained : Launch.Contained launch) : (start options c launch).routing.Consistent := by
  have begun :
      ({ c with
        generation := c.generation + 1
        fallbackPending := false
        authenticated := false
        ready := false } : PeerSessionConnection).routing.Idle :=
    ⟨idle.transport, idle.handover, idle.reconnectTimer, rfl, idle.settled, idle.known⟩
  cases launch with
  | starts => exact begun.launched rfl
  | startThrows error => exact contained.elim
  | factoryThrows error =>
    refine recover_consistent ?_ live rfl
    exact ⟨rfl, begun.handover, begun.reconnectTimer, rfl, begun.settled, begun.known⟩

variable (c') in
theorem closeTransport_idle (consistent : c.routing.Consistent)
    (transport : c'.transport = c.transport) (handover : c'.handover = c.handover)
    (transports : c'.world.transports = c.world.transports) :
    c'.clearReconnect.closeTransport.routing.Idle := by
  refine consistent.released rfl rfl rfl rfl ?_
  show (c'.world.transports.release? (c'.handover.map _)).release? c'.transport = _
  rw [transport, handover, transports]
  simp only [routing, Option.map_map]
  rfl

theorem fail_consistent {generation transport : ℕ} {error : String}
    (consistent : c.routing.Consistent) :
    (fail options c generation transport error).routing.Consistent := by
  unfold fail
  by_cases current : c.isCurrent generation transport
  · rw [if_neg (by simp [current])]
    obtain ⟨⟨rfl, holds⟩, live⟩ := isCurrent_iff.mp current
    have patient := consistent.patient (Or.inl (by simp [routing, holds]))
    dsimp only
    split_ifs with prepared
    · obtain ⟨attempt, handover, -⟩ := Option.map_eq_some_iff.mp prepared
      have handing : c.handover = some attempt := handover
      exact consistent.cut holds
        (by simp [routing, handing] : _ = some (attempt.generation, attempt.transport))
    · have alone : c.handover = none := by
        by_contra other
        obtain ⟨attempt, handover⟩ := Option.ne_none_iff_exists'.mp other
        have fresh : attempt.generation = c.generation :=
          consistent.current _ attempt.transport (by simp [routing, handover])
        exact prepared (by simp [close, handover, fresh])
      refine recover_consistent (consistent.released rfl ?_ patient.1 patient.2 ?_) live rfl
      · simp [routing, close, alone]
      · simp [routing, close, alone, holds, Ledger.release?]
  · rw [if_pos (by simp [current])]
    exact consistent

/-! ### Handover -/

theorem dropBoth_idle {attempt : PeerHandoverAttempt} (consistent : c.routing.Consistent)
    (prepared : c.handover = some attempt) (transport : c'.transport = none)
    (handover : c'.handover = none) (timer : c'.reconnectTimer = c.reconnectTimer)
    (fallback : c'.fallbackPending = c.fallbackPending)
    (transports : c'.world.transports =
      (c.world.transports.release attempt.transport).release? c.transport) : c'.routing.Idle := by
  have patient := consistent.patient (Or.inr (by simp [routing, prepared]))
  refine consistent.released transport (by simp [routing, handover]) ?_ ?_ ?_
  · exact (congrArg Option.isSome timer).trans patient.1
  · exact fallback.trans patient.2
  · refine transports.trans ?_
    simp [routing, prepared, Ledger.release?]

theorem failHandover_consistent {attempt : PeerHandoverAttempt} {error : String}
    (consistent : c.routing.Consistent) :
    (failHandover options c attempt error).routing.Consistent := by
  unfold failHandover
  split_ifs with dropped
  · exact consistent
  · have kept : c.isHandoverCurrent attempt = true ∧ attempt.promoted = false := by
      simpa using dropped
    obtain ⟨⟨handover, same⟩, live⟩ := (isHandoverCurrent_iff kept.2).mp kept.1
    exact recover_consistent (dropBoth_idle consistent handover rfl rfl rfl rfl rfl) live same

theorem cancelHandover_consistent {attempt : PeerHandoverAttempt}
    (consistent : c.routing.Consistent) : (c.cancelHandover attempt).routing.Consistent := by
  unfold cancelHandover
  split_ifs with dropped
  · exact consistent
  · have kept : c.isHandoverCurrent attempt = true ∧ attempt.promoted = false := by
      simpa using dropped
    obtain ⟨⟨handover, same⟩, live⟩ := (isHandoverCurrent_iff kept.2).mp kept.1
    exact scheduleReconnect_consistent (dropBoth_idle consistent handover rfl rfl rfl rfl rfl) live rfl

theorem promoteHandover_consistent {attempt : PeerHandoverAttempt} {replayedSeq takes : ℕ}
    (consistent : c.routing.Consistent) :
    (c.promoteHandover attempt replayedSeq takes).routing.Consistent := by
  unfold promoteHandover
  split_ifs with dropped
  · exact consistent
  · have kept : c.isHandoverCurrent attempt = true ∧ attempt.promoted = false := by
      simpa using dropped
    obtain ⟨⟨handover, same⟩, live⟩ := (isHandoverCurrent_iff kept.2).mp kept.1
    rw [flush_routing]
    exact consistent.promoted (by simp [routing, handover] :
      _ = some (attempt.generation, attempt.transport))

theorem startDirectHandover_consistent {generation : ℕ} {launch : Launch}
    (consistent : c.routing.Consistent) :
    (c.startDirectHandover options generation launch).routing.Consistent := by
  unfold startDirectHandover
  split_ifs with refused
  · exact consistent
  · have allowed : c.failbackAllowed generation = true := by simpa using refused
    have facts : ((((generation = c.generation ∧ c.route = .quickTunnel) ∧ c.ready = true) ∧
        c.detached = false) ∧ c.suspended = false) ∧ c.handover = none := by
      simpa [failbackAllowed] using allowed
    obtain ⟨⟨⟨⟨⟨rfl, -⟩, ready⟩, -⟩, -⟩, alone⟩ := facts
    have prepared := consistent.preparing ready (by simp [routing, alone])
    cases launch with
    | starts => exact prepared
    | startThrows error => exact failHandover_consistent prepared
    | factoryThrows error =>
      show (scheduleDirectFailback options _).routing.Consistent
      rw [scheduleDirectFailback_routing]
      exact consistent

/-! ### Steps -/

theorem detach_consistent (consistent : c.routing.Consistent) : c.detach.routing.Consistent :=
  (closeTransport_idle ({ c with detached := true, suspended := false }) consistent rfl rfl
    rfl).consistent rfl fun _ _ running => Bool.noConfusion running

theorem suspend_consistent (consistent : c.routing.Consistent) : c.suspend.routing.Consistent := by
  unfold suspend
  split_ifs
  · exact consistent
  · exact (closeTransport_idle ({ c with suspended := true }) consistent rfl rfl
      rfl).consistent rfl fun _ resumed _ => Bool.noConfusion resumed

theorem handleFrame_consistent {frame : PeerInbound} (consistent : c.routing.Consistent) :
    (c.handleFrame frame).routing.Consistent := by
  cases frame with
  | out seq =>
    show (if 0 < seq ∧ seq ≤ c.lastSeq then c
      else if 0 < seq then { c with lastSeq := seq } else c).routing.Consistent
    split_ifs <;> exact consistent
  | close => exact detach_consistent consistent
  | other => exact consistent

theorem becomeReady_consistent {generation transport replayedSeq takes : ℕ}
    (consistent : c.routing.Consistent) :
    (becomeReady options c generation transport replayedSeq takes).routing.Consistent := by
  unfold becomeReady
  split_ifs with invalid
  · exact fail_consistent consistent
  · have valid : (c.isCurrent generation transport = true ∧ c.authenticated = true) ∧
        c.lastSeq ≤ replayedSeq := by simpa using invalid
    obtain ⟨⟨rfl, holds⟩, live⟩ := isCurrent_iff.mp valid.1.1
    have readied : ({ c with lastSeq := replayedSeq, ready := true, reconnectAttempts := 0 } :
        PeerSessionConnection).routing.Consistent :=
      ⟨consistent.routed, consistent.current, consistent.settled, consistent.known,
        fun _ => by simp [routing, holds], consistent.waiting, consistent.alone, consistent.asked⟩
    dsimp only
    split_ifs
    · rw [scheduleDirectFailback_routing, flush_routing]
      exact readied
    · rw [flush_routing]
      exact readied

theorem callback_consistent {generation transport : ℕ} {call : Callback}
    (consistent : c.routing.Consistent) :
    (c.callback options generation transport call).routing.Consistent := by
  cases call with
  | authenticated =>
    show (if !c.isCurrent generation transport then c
      else { c with authenticated := true }).routing.Consistent
    split_ifs <;> exact consistent
  | frame frame =>
    show (if !c.isCurrent generation transport then c else c.handleFrame frame).routing.Consistent
    split_ifs
    · exact consistent
    · exact handleFrame_consistent consistent
  | ready replayedSeq takes => exact becomeReady_consistent consistent
  | failure error => exact fail_consistent consistent

theorem handoverCallback_consistent {generation transport : ℕ} {call : Callback}
    (consistent : c.routing.Consistent) :
    (c.handoverCallback options generation transport call).routing.Consistent := by
  unfold handoverCallback
  cases c.attempt? transport with
  | none => exact consistent
  | some attempt =>
    dsimp only
    by_cases stale : (!c.isHandoverCurrent attempt) = true
    · rw [if_pos stale]
      exact consistent
    · rw [if_neg stale]
      cases call with
      | authenticated =>
        dsimp only
        by_cases promoted : attempt.promoted = true
        · rw [if_pos promoted]
          exact consistent
        · have waiting : attempt.promoted = false := by simpa using promoted
          obtain ⟨⟨handover, -⟩, -⟩ :=
            (isHandoverCurrent_iff waiting).mp (by simpa using stale)
          rw [if_neg promoted]
          have same : ({ c with handover := some { attempt with authenticated := true } } :
              PeerSessionConnection).routing = c.routing := by simp [routing, handover]
          rw [same]
          exact consistent
      | frame frame => exact handleFrame_consistent consistent
      | ready replayedSeq takes =>
        dsimp only
        split_ifs
        · exact failHandover_consistent consistent
        · exact promoteHandover_consistent consistent
      | failure error =>
        dsimp only
        split_ifs
        · exact fail_consistent consistent
        · exact failHandover_consistent consistent

theorem nothing_to_close (transport : c.transport = none) (handover : c.handover = none) :
    c.world.transports = (c.routing.transports.release?
      (c.routing.handover.map Prod.snd)).release? c.routing.transport := by
  simp [routing, transport, handover, Ledger.release?]

theorem handover_eq_none (handover : c.routing.handover = none) : c.handover = none :=
  Option.map_eq_none_iff.mp handover

theorem reconnect_consistent {launch : Launch} (consistent : c.routing.Consistent)
    (contained : c.reconnectTimer.isSome → c.Live → Launch.Contained launch) :
    (c.reconnect options launch).routing.Consistent := by
  unfold reconnect
  cases timer : c.reconnectTimer with
  | none => exact consistent
  | some delay =>
    have timed : c.routing.reconnectTimer = true := by simp [routing, timer]
    obtain ⟨transport, handover⟩ := consistent.waiting (Or.inl timed)
    have idle : ({ c with reconnectTimer := none } : PeerSessionConnection).routing.Idle :=
      consistent.released transport handover rfl (consistent.alone timed)
        (nothing_to_close transport (handover_eq_none handover))
    dsimp only
    split_ifs with running
    · have live : c.Live := by simpa [Live] using running
      exact start_consistent idle live (contained (by simp [timer]) live)
    · have stopped : ¬(c.detached = false ∧ c.suspended = false) := by simpa using running
      exact idle.consistent (consistent.quiet transport) fun _ resumed running =>
        stopped ⟨running, resumed⟩

theorem quickTunnelFallback_consistent {generation : ℕ} {available : Bool} {launch : Launch}
    (consistent : c.routing.Consistent) (contained : available = true → generation = c.generation →
      c.fallbackPending = true → c.Live → c.transport = none → Launch.Contained launch) :
    ((c.withoutFallback generation).quickTunnelFallback options generation available
      launch).routing.Consistent := by
  unfold quickTunnelFallback withoutFallback
  dsimp only
  by_cases refused : (decide (generation ≠ c.generation) || !c.fallbackPending || c.detached ||
      c.suspended || c.transport.isSome) = true
  · rw [if_pos refused]
    refine ⟨consistent.routed, consistent.current, consistent.settled, consistent.known,
      consistent.carried, consistent.waiting, consistent.alone, fun pending => ?_⟩
    obtain ⟨asked, running, resumed⟩ := consistent.asked pending
    obtain ⟨transport, -⟩ := consistent.waiting (Or.inr pending)
    have other : c.generation ≠ generation := by
      rintro rfl
      have none : c.transport = none := transport
      have waits : c.fallbackPending = true := pending
      have runs : c.detached = false := running
      have resumes : c.suspended = false := resumed
      simp [none, waits, runs, resumes] at refused
    exact ⟨(List.mem_erase_of_ne other).mpr asked, running, resumed⟩
  · rw [if_neg refused]
    obtain ⟨⟨⟨⟨same, pending⟩, running⟩, resumed⟩, transport⟩ :
        ((((generation = c.generation ∧ c.fallbackPending = true) ∧ c.detached = false) ∧
          c.suspended = false) ∧ c.transport = none) := by simpa using refused
    obtain ⟨-, handover⟩ := consistent.waiting (Or.inr pending)
    have closed := nothing_to_close transport (handover_eq_none handover)
    have untimed := consistent.untimed pending
    split_ifs with taken
    · exact start_consistent (consistent.released transport handover untimed rfl closed)
        ⟨running, resumed⟩ (contained taken same pending ⟨running, resumed⟩ transport)
    · exact scheduleReconnect_consistent
        (consistent.released transport handover untimed rfl closed) ⟨running, resumed⟩
        (consistent.quiet transport)

theorem probeAnswered_consistent {probe : FailbackProbe} {available : Bool} {launch : Launch}
    (consistent : c.routing.Consistent) :
    (c.probeAnswered options probe available launch).routing.Consistent := by
  unfold probeAnswered
  generalize (if c.failbackProbe = some probe.probe then none else c.failbackProbe) = answered
  dsimp only
  split_ifs
  · exact consistent
  · rw [scheduleDirectFailback_routing]
    exact consistent
  · exact startDirectHandover_consistent consistent

theorem setRoute_consistent {route : NativePeerRoute} {launch : Launch}
    (consistent : c.routing.Consistent)
    (contained : c.Live → route ≠ c.route → Launch.Contained launch) :
    (c.setRoute options route launch).routing.Consistent := by
  unfold setRoute
  by_cases detached : c.detached = true
  · rw [if_pos detached]
    exact consistent
  · have running : c.detached = false := by simpa using detached
    rw [if_neg detached]
    by_cases same : route = c.route
    · rw [if_pos same]
      cases c.handover with
      | none => exact consistent
      | some attempt =>
        dsimp only
        split_ifs
        · exact cancelHandover_consistent consistent
        · exact consistent
    · rw [if_neg same]
      have idle := closeTransport_idle ({ c with route := route }) consistent rfl rfl rfl
      show (if !c.suspended then start options _ launch else _).routing.Consistent
      by_cases resumed : c.suspended = false
      · rw [if_pos (by simp [resumed])]
        exact start_consistent idle ⟨running, resumed⟩ (contained ⟨running, resumed⟩ same)
      · rw [if_neg (by simp [resumed])]
        exact idle.consistent rfl fun _ awake _ => resumed awake

theorem attach_consistent {launch : Launch} (consistent : c.routing.Consistent)
    (contained : c.detached = false → c.transport = none → c.reconnectTimer = none →
      c.fallbackPending = false → c.handover = none ∧ Launch.Contained launch) :
    (c.attach options launch).routing.Consistent := by
  unfold attach
  dsimp only
  split_ifs with detached owned
  · exact consistent
  · have kept : (c.transport.isSome = true ∨ c.reconnectTimer.isSome = true) ∨
        c.fallbackPending = true := by simpa using owned
    refine ⟨fun _ _ _ => ?_, consistent.current, consistent.settled, consistent.known,
      consistent.carried, consistent.waiting, consistent.alone, fun pending => ?_⟩
    · rcases kept with (current | timed) | pending
      · exact Or.inl current
      · exact Or.inr (Or.inr (Or.inl timed))
      · exact Or.inr (Or.inr (Or.inr pending))
    · obtain ⟨asked, running, -⟩ := consistent.asked pending
      exact ⟨asked, running, rfl⟩
  · have running : c.detached = false := by simpa using detached
    have free : (c.transport = none ∧ c.reconnectTimer = none) ∧ c.fallbackPending = false := by
      simpa using owned
    obtain ⟨⟨transport, timer⟩, fallback⟩ := free
    obtain ⟨alone, contained⟩ := contained running transport timer fallback
    have empty : c.routing.held = ∅ := Routing.held_eq_empty transport (by simp [routing, alone])
    refine start_consistent ⟨transport, ?_, ?_, fallback, empty ▸ consistent.settled,
      empty ▸ consistent.known⟩ ⟨running, rfl⟩ contained
    · simp [routing, alone]
    · simp [routing, timer]

/-- The launch of the transport that `start` makes in a step. -/
def starting (c : PeerSessionConnection) : PeerEvent → Option Launch
  | .attach launch =>
    if c.detached || c.transport.isSome || c.reconnectTimer.isSome || c.fallbackPending then none
    else some launch
  | .setRoute route launch =>
    if c.detached || decide (route = c.route) || c.suspended then none else some launch
  | .reconnect launch =>
    if c.reconnectTimer.isSome && !c.detached && !c.suspended then some launch else none
  | .fallbackAnswered generation available launch =>
    if decide (generation ∈ c.world.fallbacks) && available &&
        decide (generation = c.generation) && c.fallbackPending && !c.detached &&
        !c.suspended && !c.transport.isSome then some launch
    else none
  | _ => none

/-- **The careful steps.** `attach` does not start a transport while a handover attempt is pending,
and no transport's `start()` throws inside `start`. -/
def Careful (c : PeerSessionConnection) (event : PeerEvent) : Prop :=
  ∀ launch, c.starting event = some launch →
    Launch.Contained launch ∧ (event = .attach launch → c.handover = none)

/-- **Every careful step keeps the invariant.** -/
theorem step_consistent (event : PeerEvent) (consistent : c.routing.Consistent)
    (careful : c.Careful event) : (c.step options event).routing.Consistent := by
  cases event with
  | attach launch =>
    refine attach_consistent consistent fun running transport timer fallback => ?_
    obtain ⟨contained, alone⟩ := careful launch
      (by simp [starting, running, transport, timer, fallback])
    exact ⟨alone rfl, contained⟩
  | suspend => exact suspend_consistent consistent
  | detach => exact detach_consistent consistent
  | setRoute route launch =>
    refine setRoute_consistent consistent fun live other => ?_
    exact (careful launch (by simp [starting, live.1, live.2, other])).1
  | sendInput value takes =>
    show (c.sendInput value takes).routing.Consistent
    rw [sendInput_routing]
    exact consistent
  | sendResize cols rows takes =>
    have same : (c.sendResize cols rows takes).routing = c.routing := send_routing ..
    show (c.sendResize cols rows takes).routing.Consistent
    rw [same]
    exact consistent
  | claimDriver takes =>
    have same : (c.claimDriver takes).routing = c.routing := send_routing ..
    show (c.claimDriver takes).routing.Consistent
    rw [same]
    exact consistent
  | closeService serviceId takes =>
    show (c.send (.serviceClose serviceId) takes).2.routing.Consistent
    rw [send_routing]
    exact consistent
  | request frame takes =>
    show (if frame.isRequest then c.request frame takes else c).routing.Consistent
    split_ifs
    · rw [request_routing]
      exact consistent
    · exact consistent
  | sendPaste image =>
    show (c.sendPaste image).routing.Consistent
    rw [sendPaste_routing]
    exact consistent
  | pasteEncoded paste payload takes =>
    show (if paste ∈ c.world.pastes then (c.withoutPaste paste).pasteEncoded paste payload takes
      else c).routing.Consistent
    split_ifs
    · rw [pasteEncoded_routing]
      exact consistent
    · exact consistent
  | reconnect launch =>
    refine reconnect_consistent consistent fun timed live => ?_
    exact (careful launch (by simp [starting, timed, live.1, live.2])).1
  | failback =>
    show c.failback.routing.Consistent
    rw [failback_routing]
    exact consistent
  | fallbackAnswered generation available launch =>
    show (if generation ∈ c.world.fallbacks then (c.withoutFallback generation).quickTunnelFallback
      options generation available launch else c).routing.Consistent
    split_ifs with asked
    · refine quickTunnelFallback_consistent consistent
        fun taken same pending live transport => ?_
      subst same
      exact (careful launch
        (by simp [starting, asked, taken, pending, live.1, live.2, transport])).1
    · exact consistent
  | probeAnswered probe available launch =>
    show (if probe ∈ c.world.probes then
      (c.withoutProbe probe).probeAnswered options probe available launch
      else c).routing.Consistent
    split_ifs
    · exact probeAnswered_consistent (c := c.withoutProbe probe) consistent
    · exact consistent
  | callback callbacks call =>
    show (if callbacks ∈ c.world.callbacks then
      if callbacks.handover then
        c.handoverCallback options callbacks.generation callbacks.transport call
      else c.callback options callbacks.generation callbacks.transport call
      else c).routing.Consistent
    split_ifs
    · exact handoverCallback_consistent consistent
    · exact callback_consistent consistent
    · exact consistent

theorem new_consistent : (new options).routing.Consistent := by
  have empty : (new options).routing.held = ∅ := Routing.held_eq_empty rfl rfl
  refine Routing.Idle.consistent ⟨rfl, rfl, rfl, rfl, Ledger.settled_empty, Ledger.known_empty⟩ rfl
    fun attached _ _ => ?_
  exact Bool.noConfusion attached

/-! ### Never stuck, never leaking -/

/-- **What an honest route manager owes its pane.** A way to the next transport; an attempt of the
current generation; no transport left open; and sends that reach the current transport once it is
ready. -/
structure Sound (c : PeerSessionConnection) : Prop where
  routed : c.world.attached → c.suspended = false → c.detached = false →
    c.transport.isSome ∨ c.handover.isSome ∨ c.reconnectTimer.isSome ∨
      (c.fallbackPending ∧ c.generation ∈ c.world.fallbacks)
  current : ∀ attempt, c.handover = some attempt → attempt.generation = c.generation
  closed : ∀ id < c.world.transports.started, c.transport ≠ some id →
    (∀ attempt, c.handover = some attempt → attempt.transport ≠ id) →
    id ∈ c.world.transports.closed
  sends : c.ready → (∀ attempt, c.handover = some attempt → attempt.generation ≠ c.generation) →
    ∃ transport, c.transport = some transport ∧ ∀ frame takes,
      (c.send frame takes).2.world.offers =
        c.world.offers ++ [⟨transport, frame, decide (0 < takes)⟩]

theorem sound_of_consistent (consistent : c.routing.Consistent) : c.Sound where
  routed := fun attached resumed running => by
    rcases consistent.routed attached resumed running with current | prepared | timed | pending
    · exact Or.inl current
    · exact Or.inr (Or.inl (by simpa [routing] using prepared))
    · exact Or.inr (Or.inr (Or.inl timed))
    · exact Or.inr (Or.inr (Or.inr ⟨pending, (consistent.asked pending).1⟩))
  current := fun attempt handover =>
    consistent.current _ attempt.transport (by simp [routing, handover])
  closed := fun id below dropped unprepared => by
    refine (consistent.settled id below).resolve_left ?_
    rintro (current | ⟨generation, prepared⟩)
    · exact dropped current
    · obtain ⟨attempt, handover, same⟩ := Option.map_eq_some_iff.mp prepared
      exact unprepared attempt handover (congrArg Prod.snd same)
  sends := fun ready stale => by
    obtain ⟨transport, current⟩ := Option.isSome_iff_exists.mp (consistent.carried ready)
    have alone : c.handover = none := by
      by_contra other
      obtain ⟨attempt, handover⟩ := Option.ne_none_iff_exists'.mp other
      exact stale attempt handover
        (consistent.current _ attempt.transport (by simp [routing, handover]))
    refine ⟨transport, current, fun frame takes => ?_⟩
    have holds : c.transport = some transport := current
    have send : c.send frame takes =
        (decide (0 < takes), c.offer transport frame (decide (0 < takes))) := by
      simp [PeerSessionConnection.send, alone, ready, holds]
    rw [send]
    rfl

/-! ### The careless steps -/

variable (options) in
theorem recover_frame (c : PeerSessionConnection) (generation : ℕ) (error : String) :
    let recovered := recover options c generation error
    recovered.transport = c.transport ∧ recovered.handover = c.handover ∧
      recovered.generation = c.generation ∧ recovered.world.transports = c.world.transports := by
  unfold recover scheduleReconnect
  dsimp only
  split_ifs <;> exact ⟨rfl, rfl, rfl, rfl⟩

theorem start_orphans {attempt : PeerHandoverAttempt} {launch : Launch}
    (handover : c.handover = some attempt) (same : attempt.generation = c.generation) :
    ¬(start options c launch).Sound := by
  have next : (start options c launch).handover = some attempt ∧
      (start options c launch).generation = c.generation + 1 := by
    cases launch with
    | starts => exact ⟨handover, rfl⟩
    | factoryThrows error =>
      obtain ⟨-, kept, generation, -⟩ := recover_frame options
        { c with
          generation := c.generation + 1
          fallbackPending := false
          authenticated := false
          ready := false
          transport := none } (c.generation + 1) error
      exact ⟨kept.trans handover, generation⟩
    | startThrows error =>
      obtain ⟨-, kept, generation, -⟩ := recover_frame options
        { ({ c with
              generation := c.generation + 1
              fallbackPending := false
              authenticated := false
              ready := false } : PeerSessionConnection).made (c.generation + 1) false with
          transport := none } (c.generation + 1) error
      exact ⟨kept.trans handover, generation⟩
  intro sound
  have current := sound.current attempt next.1
  rw [next.2, same] at current
  omega

theorem start_leaks {error : String} (known : c.world.transports.Known c.routing.held) :
    ¬(start options c (.startThrows error)).Sound := by
  obtain ⟨transport, handover, -, transports⟩ := recover_frame options
    { ({ c with
          generation := c.generation + 1
          fallbackPending := false
          authenticated := false
          ready := false } : PeerSessionConnection).made (c.generation + 1) false with
      transport := none } (c.generation + 1) error
  intro sound
  have leaked := sound.closed c.world.transports.started
    (by
      show _ < (recover options _ _ _).world.transports.started
      rw [transports]
      exact Nat.lt_succ_self _)
    (by
      show (recover options _ _ _).transport ≠ _
      rw [transport]
      exact Option.some_ne_none _ |>.symm)
    (by
      intro attempt prepared same
      have kept : c.handover = some attempt := handover.symm.trans prepared
      have below := known attempt.transport
        (Or.inl (Or.inr ⟨attempt.generation, by simp [routing, kept]⟩))
      exact absurd (same ▸ below) (lt_irrefl _))
  have closed : c.world.transports.started ∈ c.world.transports.closed := by
    have kept : (start options c (.startThrows error)).world.transports.closed =
        c.world.transports.closed := by
      show (recover options _ _ _).world.transports.closed = _
      rw [transports]
      rfl
    exact kept ▸ leaked
  exact absurd (known _ (Or.inr closed)) (lt_irrefl _)

theorem step_attach {launch : Launch} (starts : c.starting (.attach launch) = some launch) :
    c.step options (.attach launch) =
      start options { c with suspended := false, world.attached := true } launch := by
  have free : ((c.detached = false ∧ c.transport = none) ∧ c.reconnectTimer = none) ∧
      c.fallbackPending = false := by simpa [starting] using starts
  obtain ⟨⟨⟨running, transport⟩, timer⟩, fallback⟩ := free
  simp [step, attach, running, transport, timer, fallback]

variable (options) in
theorem step_starting {event : PeerEvent} {launch : Launch} (consistent : c.routing.Consistent)
    (starts : c.starting event = some launch) : ∃ before : PeerSessionConnection,
      c.step options event = start options before launch ∧
        before.world.transports.Known before.routing.held := by
  cases event with
  | attach other =>
    have same : other = launch := by
      simp only [starting] at starts
      split_ifs at starts
      exact Option.some.inj starts
    subst same
    exact ⟨_, step_attach starts, consistent.known⟩
  | setRoute route other =>
    have facts : ((c.detached = false ∧ route ≠ c.route) ∧ c.suspended = false) ∧
        other = launch := by simpa [starting] using starts
    obtain ⟨⟨⟨running, differs⟩, resumed⟩, rfl⟩ := facts
    have idle := closeTransport_idle ({ c with route := route }) consistent rfl rfl rfl
    refine ⟨{ c with route := route }.clearReconnect.closeTransport, ?_, ?_⟩
    · show c.setRoute options route other = _
      rw [setRoute, if_neg (by simp [running]), if_neg differs]
      exact if_pos (by simp [closeTransport, close, clearReconnect, resumed])
    · rw [Routing.held_eq_empty idle.transport idle.handover]
      exact idle.known
  | reconnect other =>
    have facts : ((c.reconnectTimer.isSome = true ∧ c.detached = false) ∧
        c.suspended = false) ∧ other = launch := by simpa [starting] using starts
    obtain ⟨⟨⟨timed, running⟩, resumed⟩, rfl⟩ := facts
    obtain ⟨delay, timer⟩ := Option.isSome_iff_exists.mp timed
    refine ⟨{ c with reconnectTimer := none }, ?_, consistent.known⟩
    show c.reconnect options other = _
    unfold reconnect
    rw [timer]
    exact if_pos (by simp [running, resumed])
  | fallbackAnswered generation available other =>
    have facts : ((((((generation ∈ c.world.fallbacks ∧ available = true) ∧
        generation = c.generation) ∧ c.fallbackPending = true) ∧ c.detached = false) ∧
        c.suspended = false) ∧ c.transport = none) ∧ other = launch := by
      simpa [starting] using starts
    obtain ⟨⟨⟨⟨⟨⟨⟨asked, taken⟩, rfl⟩, pending⟩, running⟩, resumed⟩, transport⟩, rfl⟩ := facts
    refine ⟨{ c.withoutFallback c.generation with
      fallbackPending := false
      route := .quickTunnel
      reconnectAttempts := max 1 c.reconnectAttempts }, ?_, consistent.known⟩
    simp [step, asked, quickTunnelFallback, withoutFallback, pending, running, resumed,
      transport, taken]
  | suspend => exact absurd starts (by simp [starting])
  | detach => exact absurd starts (by simp [starting])
  | sendInput value takes => exact absurd starts (by simp [starting])
  | sendResize cols rows takes => exact absurd starts (by simp [starting])
  | claimDriver takes => exact absurd starts (by simp [starting])
  | closeService serviceId takes => exact absurd starts (by simp [starting])
  | request frame takes => exact absurd starts (by simp [starting])
  | sendPaste image => exact absurd starts (by simp [starting])
  | pasteEncoded paste payload takes => exact absurd starts (by simp [starting])
  | failback => exact absurd starts (by simp [starting])
  | probeAnswered probe available launch => exact absurd starts (by simp [starting])
  | callback callbacks call => exact absurd starts (by simp [starting])

/-- **Every other step breaks what is owed.** -/
theorem step_careless (event : PeerEvent) (consistent : c.routing.Consistent)
    (careless : ¬c.Careful event) : ¬(c.step options event).Sound := by
  unfold Careful at careless
  push Not at careless
  obtain ⟨launch, starts, wrong⟩ := careless
  by_cases contained : Launch.Contained launch
  · obtain ⟨rfl, prepared⟩ := wrong contained
    obtain ⟨attempt, handover⟩ := Option.ne_none_iff_exists'.mp prepared
    rw [step_attach starts]
    exact start_orphans handover
      (consistent.current _ attempt.transport (by simp [routing, handover]))
  · obtain ⟨before, same, known⟩ := step_starting options consistent starts
    rw [same]
    cases launch with
    | starts => exact absurd trivial contained
    | factoryThrows error => exact absurd trivial contained
    | startThrows error => exact start_leaks known

/-- **Never stuck, never leaking: exactly in the careful runs.** From a new connection, nothing is
stuck or leaked after any step of a run if and only if in every step `attach` does not start a
transport while a handover attempt is pending, and no transport's `start()` throws inside
`start`. -/
theorem never_stuck_iff (options : PeerSessionConnectionOptions) (events : List PeerEvent) :
    (∀ first, first <+: events → (run (step options) (new options) first).Sound) ↔
      Meets (step options) Careful (new options) events :=
  sound_iff_meets (fun c : PeerSessionConnection => c.routing.Consistent)
    (fun _ event consistent careful => step_consistent event consistent careful)
    (fun _ consistent => sound_of_consistent consistent)
    (fun _ event consistent careless => step_careless event consistent careless)
    new_consistent events

/-! ### A run that gets stuck -/

/-- The quick tunnel may fall back to the direct route. -/
def tunnelOptions : PeerSessionConnectionOptions := ⟨some .quickTunnel, true, true, none⟩

/-- A ready quick tunnel whose replacement is being prepared fails; then the pane is attached again,
and the transport of that call becomes ready. -/
def stuckEvents : List PeerEvent :=
  [.attach .starts,
    .callback ⟨0, 1, false⟩ .authenticated,
    .callback ⟨0, 1, false⟩ (.ready 0 0),
    .failback,
    .probeAnswered ⟨0, 1⟩ true .starts,
    .callback ⟨0, 1, false⟩ (.failure "peer closed"),
    .attach .starts,
    .callback ⟨2, 2, false⟩ .authenticated,
    .callback ⟨2, 2, false⟩ (.ready 0 0)]

/-- The stale attempt keeps its transport open and, although the new one is ready, no send reaches
it. -/
theorem attach_during_handover_is_stuck :
    let c := run (step tunnelOptions) (new tunnelOptions) stuckEvents
    (c.world.attached = true ∧ c.suspended = false ∧ c.detached = false) ∧
      (c.ready = true ∧ c.transport = some 2 ∧ c.generation = 2) ∧
      (∃ attempt, c.handover = some attempt ∧ attempt.generation = 1) ∧
      (∀ frame takes, c.send frame takes = (false, c)) ∧ ¬c.Sound := by
  have handover : (run (step tunnelOptions) (new tunnelOptions) stuckEvents).handover =
      some ⟨1, 1, false, false⟩ := by decide
  have generation : (run (step tunnelOptions) (new tunnelOptions) stuckEvents).generation = 2 := by
    decide
  refine ⟨by decide, by decide, ⟨_, handover, rfl⟩, fun frame takes => ?_,
    fun sound => ?_⟩
  · simp [send, handover]
  · have current := sound.current _ handover
    rw [generation] at current
    exact absurd current (by decide)

end PeerSessionConnection

end Atterm.Session
