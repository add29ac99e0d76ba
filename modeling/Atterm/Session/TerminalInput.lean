/-
**Terminal input, in order and once.**

What the user types is handed to a transport or queued, and the queue is handed on later. A value that
is handed on while others are queued overtakes them; a relay socket that is closing takes none.

* `SessionConnection.Orderly`, `PeerSessionConnection.Orderly` — the steps that keep the order;
* `SessionConnection.step_terminal_iff`, `PeerSessionConnection.step_terminal_iff` — and only they;
* `terminal_input_iff` — what was handed on and what is queued is what was typed, all along exactly the
  runs of such steps.
-/

import Atterm.Foundation.Runs
import Atterm.Session.SessionConnection

namespace Atterm.Session

open Atterm.Foundation

theorem cons_eq_concat_iff {α : Type} {value : α} {queue : List α} :
    value :: queue = queue ++ [value] ↔ ∀ other ∈ queue, other = value := by
  induction queue with
  | nil => simp
  | cons first rest ih =>
    constructor
    · intro same
      obtain ⟨rfl, behind⟩ := List.cons.inj same
      intro other inside
      rcases List.mem_cons.mp inside with rfl | later
      · rfl
      · exact ih.mp behind other later
    · intro all
      obtain rfl := all first List.mem_cons_self
      have behind := ih.mpr fun other inside => all other (List.mem_cons_of_mem _ inside)
      rw [List.cons_append, ← behind]

theorem append_cons_eq_iff {α : Type} {value : α} {handed queue : List α} :
    handed ++ [value] ++ queue = handed ++ queue ++ [value] ↔ ∀ other ∈ queue, other = value := by
  rw [List.append_assoc, List.append_assoc, List.append_right_inj, List.singleton_append]
  exact cons_eq_concat_iff

/-! ### The relay session -/

def SessionOffer.input? : SessionOffer → Option String
  | ⟨_, .input value, true⟩ => some value
  | _ => none

namespace SessionConnection

def terminal (c : SessionConnection) : List String :=
  c.world.offers.filterMap SessionOffer.input? ++ c.pendingInputs

variable (options : SessionConnectionOptions) (c : SessionConnection)

theorem terminal_queueInput (value : String) : (c.queueInput value).terminal = c.terminal ++ [value] :=
  (List.append_assoc _ _ _).symm

theorem terminal_offer {carrier : Carrier} {frame : SessionFrame} {accepted : Bool}
    (other : SessionOffer.input? ⟨carrier, frame, accepted⟩ = none) :
    (c.offer carrier frame accepted).terminal = c.terminal := by
  unfold terminal offer
  rw [List.filterMap_append, List.filterMap_cons_none other, List.filterMap_nil, List.append_nil]

theorem terminal_offer_input (carrier : Carrier) (value : String) :
    (c.offer carrier (.input value) true).terminal =
      c.world.offers.filterMap SessionOffer.input? ++ [value] ++ c.pendingInputs := by
  unfold terminal offer
  rw [List.filterMap_append]
  rfl

theorem terminal_closeSocket (socket : ℕ) : (c.closeSocket socket).terminal = c.terminal := by
  unfold closeSocket
  split_ifs <;> rfl

theorem terminal_openWS (generation : ℕ) (opens : Bool) :
    (c.openWS generation opens).terminal = c.terminal := by
  unfold openWS
  split_ifs <;> rfl

theorem terminal_claimDriver (takes : ℕ) : (c.claimDriver takes).terminal = c.terminal := by
  unfold claimDriver
  split_ifs
  · rfl
  · split
    · exact c.terminal_offer rfl
    · exact c.terminal_offer rfl
    · rfl

theorem terminal_sendResize (cols rows takes : ℕ) :
    (c.sendResize cols rows takes).terminal = c.terminal := by
  unfold sendResize
  split
  · exact c.terminal_offer rfl
  · rfl
  · exact c.terminal_offer rfl
  · exact c.terminal_offer rfl
  · rfl
  · rfl

theorem terminal_flushRelayInputs (socket : ℕ) :
    (c.flushRelayInputs socket).terminal = c.terminal := by
  have handed (inputs : List String) : (inputs.map fun value =>
      SessionOffer.mk (.relay socket) (.input value) true).filterMap SessionOffer.input? = inputs := by
    rw [List.filterMap_map]
    exact List.filterMap_some
  unfold terminal flushRelayInputs
  rw [List.filterMap_append, handed, List.append_nil]

theorem terminal_flushRelayResize (socket : ℕ) :
    (c.flushRelayResize socket).terminal = c.terminal := by
  unfold flushRelayResize
  split
  · rfl
  · exact c.terminal_offer rfl

theorem terminal_flushPendingRelayWrites (socket : ℕ) :
    (c.flushPendingRelayWrites socket).terminal = c.terminal := by
  unfold flushPendingRelayWrites
  dsimp only
  rw [terminal_flushRelayInputs, terminal_flushRelayResize]
  split_ifs
  · exact c.terminal_offer rfl
  · rfl

theorem terminal_flushDirectInputs (transport takes : ℕ) (inputs : List String)
    (c : SessionConnection) (queued : c.pendingInputs = inputs) :
    (flushDirectInputs transport takes inputs c).terminal = c.terminal := by
  induction inputs generalizing takes c with
  | nil => cases takes <;> rfl
  | cons value rest ih =>
    cases takes with
    | zero => exact c.terminal_offer rfl
    | succ takes =>
      rw [flushDirectInputs, ih takes _ rfl]
      unfold terminal offer
      rw [List.filterMap_append, queued]
      exact List.append_assoc _ _ _

theorem terminal_flushDirectResize (transport takes : ℕ) :
    (c.flushDirectResize transport takes).terminal = c.terminal := by
  unfold flushDirectResize
  rcases c.pendingResize with _ | ⟨cols, rows⟩
  · exact terminal_flushDirectInputs transport takes _ c rfl
  · dsimp only
    split_ifs
    · exact c.terminal_offer rfl
    · have offered : (c.offer (.direct transport) (.resize cols rows) true).terminal = c.terminal :=
        c.terminal_offer rfl
      refine Eq.trans (terminal_flushDirectInputs transport _ _ _ rfl) ?_
      exact offered

theorem terminal_flushPendingDirectWrites (transport takes : ℕ) :
    (c.flushPendingDirectWrites transport takes).terminal = c.terminal := by
  unfold flushPendingDirectWrites
  split_ifs
  · exact c.terminal_offer rfl
  · exact (terminal_flushDirectResize _ transport _).trans (c.terminal_offer rfl)
  · exact c.terminal_flushDirectResize transport takes

theorem terminal_maybeStartDirect (around : Surroundings) :
    (maybeStartDirect options c around).terminal = c.terminal := by
  unfold maybeStartDirect
  split_ifs
  · rfl
  · rfl
  · dsimp only
    split <;> rfl

theorem terminal_activateDirect (generation transport takes : ℕ) :
    (c.activateDirect generation transport takes).terminal = c.terminal := by
  unfold activateDirect
  dsimp only
  rw [terminal_flushPendingDirectWrites]
  split
  · rfl
  · exact terminal_closeSocket _ _

theorem terminal_maybeActivateDirect (generation takes : ℕ) :
    (c.maybeActivateDirect generation takes).terminal = c.terminal := by
  unfold maybeActivateDirect
  split
  · rfl
  · split_ifs
    · rfl
    · exact c.terminal_offer rfl
    · exact (terminal_activateDirect _ generation _ _).trans (c.terminal_offer rfl)
    · exact c.terminal_activateDirect generation _ takes

theorem terminal_directLost (generation : ℕ) (opens : Bool) :
    (c.directLost generation opens).terminal = c.terminal := by
  unfold directLost
  split
  · exact terminal_openWS _ _ opens
  · rfl

theorem terminal_handleDirectFailure (generation transport : ℕ) (opens : Bool) :
    (c.handleDirectFailure generation transport opens).terminal = c.terminal := by
  unfold handleDirectFailure
  split_ifs
  · rfl
  · rfl
  · rfl
  · exact terminal_directLost _ generation opens

theorem terminal_handleMeta (driverClientID : String) (route : Transport.Route) (takes : ℕ) :
    (handleMeta options c driverClientID route takes).terminal = c.terminal := by
  have changed (c : SessionConnection) :
      (changeDriver options c driverClientID).terminal = c.terminal := by
    unfold changeDriver
    split_ifs <;> rfl
  unfold handleMeta
  dsimp only
  split_ifs
  · exact terminal_claimDriver _ takes
  · rfl
  · exact changed _
  · exact changed c

theorem terminal_replayed (generation : ℕ) (around : Surroundings) :
    (replayed options c generation around).terminal = c.terminal := by
  unfold replayed
  dsimp only
  split_ifs with reattaching recovering
  · split
    · exact (terminal_flushPendingRelayWrites _ _).trans (terminal_claimDriver _ around.takes)
    · exact terminal_claimDriver _ around.takes
  · split
    · exact terminal_flushPendingRelayWrites _ _
    · rfl
  · exact terminal_maybeStartDirect options _ around

theorem terminal_handleProtocolFrame (frame : SessionInbound) (route : Transport.Route)
    (generation : ℕ) (around : Surroundings) :
    (handleProtocolFrame options c frame route generation around).terminal = c.terminal := by
  unfold handleProtocolFrame
  by_cases stale : c.route.acceptsRoute generation route = false
  · rw [if_pos stale]
  rw [if_neg stale]
  cases frame with
  | out seq data =>
    dsimp only
    split_ifs
    · rfl
    · rfl
    · exact terminal_maybeActivateDirect _ generation around.takes
    · exact terminal_maybeActivateDirect _ generation around.takes
    · rfl
    · rfl
  | close => rfl
  | driver driverClientID => exact c.terminal_handleMeta options driverClientID route around.takes
  | replayProgress ended =>
    dsimp only
    split_ifs
    · exact c.terminal_replayed options generation around
    · rfl
  | other => rfl

theorem terminal_release : c.release.terminal = c.terminal := by
  unfold release
  dsimp only
  split
  · rfl
  · exact terminal_closeSocket _ _

theorem terminal_attach (opens : Bool) : (c.attach opens).terminal = c.terminal := by
  unfold attach
  dsimp only
  split_ifs
  · rfl
  · rfl
  · exact terminal_openWS _ _ opens
  · rfl
  · exact terminal_openWS _ _ opens

theorem terminal_setPreferDirect (enabled : Bool) (around : Surroundings) :
    (setPreferDirect options c enabled around).terminal = c.terminal := by
  unfold setPreferDirect
  dsimp only
  split_ifs
  · rfl
  · exact terminal_maybeStartDirect options _ around
  · rfl
  · rfl
  · exact terminal_directLost _ _ around.opens
  · rfl

theorem terminal_opened (socket generation : ℕ) : (c.opened socket generation).terminal = c.terminal := by
  unfold opened
  dsimp only
  split_ifs
  · exact terminal_closeSocket _ socket
  · exact (terminal_flushPendingRelayWrites _ socket).trans (terminal_offer _ rfl)
  · exact terminal_offer _ rfl

theorem terminal_callback (transport generation : ℕ) (call : DirectCall) (around : Surroundings) :
    (callback options c transport generation call around).terminal = c.terminal := by
  unfold callback
  by_cases stale : c.direct ≠ some transport ∨ generation ≠ c.route.routeGeneration
  · rw [if_pos stale]
  rw [if_neg stale]
  cases call with
  | authenticated => rfl
  | frame frame => exact c.terminal_handleProtocolFrame options frame .direct generation around
  | ready replayedSeq =>
    dsimp only
    split
    · exact terminal_maybeActivateDirect _ generation around.takes
    · rfl
  | failure => exact c.terminal_handleDirectFailure generation transport around.opens

def typed : SessionEvent → List String
  | .sendInput value _ => [value]
  | .attach _ | .suspend | .detach | .setPreferDirect _ _ | .sendResize _ _ _ | .claimDriver _
  | .opened _ | .message _ _ _ | .closing _ | .closed _ | .reconnect _ | .callback _ _ _ => []

/-- An input is not handed on before a different one that is queued, and not given to a relay socket
that is closing. -/
def Orderly : SessionEvent → Prop
  | .sendInput value takes =>
    match c.route.inputRoute with
    | .none => True
    | .direct => c.direct.isSome → 0 < takes → ∀ other ∈ c.pendingInputs, other = value
    | .relay => ∀ socket ∈ c.ws, c.readyState socket = some .connecting ∨
        c.readyState socket = some .opened ∧ ∀ other ∈ c.pendingInputs, other = value
  | .attach _ | .suspend | .detach | .setPreferDirect _ _ | .sendResize _ _ _ | .claimDriver _
  | .opened _ | .message _ _ _ | .closing _ | .closed _ | .reconnect _ | .callback _ _ _ => True

theorem sendInput_terminal_iff (value : String) (takes : ℕ) :
    c.Orderly (.sendInput value takes) ↔
      (c.sendInput value takes).terminal = c.terminal ++ [value] := by
  unfold Orderly sendInput
  cases c.route.inputRoute with
  | none => exact iff_of_true trivial (c.terminal_queueInput value)
  | direct =>
    dsimp only
    cases c.direct with
    | none =>
      refine iff_of_true (fun some => ?_) (c.terminal_queueInput value)
      cases some
    | some transport =>
      dsimp only
      by_cases refused : takes = 0
      · rw [if_pos refused]
        refine iff_of_true (fun _ taken => absurd refused taken.ne') ?_
        rw [terminal_queueInput]
        exact congrArg (· ++ [value]) (c.terminal_offer rfl)
      · rw [if_neg refused, terminal_offer_input]
        refine Iff.trans ?_ append_cons_eq_iff.symm
        simp [Nat.pos_of_ne_zero refused]
  | relay =>
    dsimp only
    cases c.ws with
    | none =>
      refine iff_of_true (fun socket none => ?_) (c.terminal_queueInput value)
      cases none
    | some socket =>
      simp only [Option.mem_some_iff, forall_eq']
      by_cases connecting : c.readyState socket = some .connecting
      · rw [if_pos connecting]
        exact iff_of_true (Or.inl connecting) (c.terminal_queueInput value)
      rw [if_neg connecting]
      by_cases opened : c.readyState socket = some .opened
      · rw [if_neg (not_not.mpr opened), terminal_offer_input]
        refine Iff.trans ?_ append_cons_eq_iff.symm
        simp [opened]
      · rw [if_pos opened]
        refine iff_of_false (fun orderly => ?_) fun same => ?_
        · exact orderly.elim connecting fun opens => opened opens.1
        · have length := congrArg List.length same
          rw [List.length_append, List.length_singleton] at length
          omega

/-- **One step** keeps what was typed in order and once exactly if it is orderly. -/
theorem step_terminal_iff (event : SessionEvent) :
    c.Orderly event ↔ (c.step options event).terminal = c.terminal ++ typed event := by
  have silent {after : SessionConnection} (same : after.terminal = c.terminal) :
      True ↔ after.terminal = c.terminal ++ [] := by
    rw [List.append_nil]
    exact iff_of_true trivial same
  cases event with
  | sendInput value takes => exact c.sendInput_terminal_iff value takes
  | attach opens => exact silent (c.terminal_attach opens)
  | suspend =>
    refine silent ?_
    show c.suspend.terminal = _
    unfold suspend
    split_ifs
    · rfl
    · exact terminal_release _
  | detach => exact silent (terminal_release _)
  | setPreferDirect enabled around => exact silent (c.terminal_setPreferDirect options enabled around)
  | sendResize cols rows takes => exact silent (c.terminal_sendResize cols rows takes)
  | claimDriver takes => exact silent (c.terminal_claimDriver takes)
  | opened socket =>
    refine silent ?_
    simp only [step]
    split
    · exact c.terminal_opened socket _
    · rfl
  | message socket frame around =>
    refine silent ?_
    simp only [step]
    split
    · unfold message
      split_ifs
      · rfl
      · exact terminal_handleProtocolFrame options _ frame .relay _ around
    · rfl
  | closing socket =>
    refine silent ?_
    simp only [step]
    split <;> rfl
  | closed socket =>
    refine silent ?_
    simp only [step]
    split
    · rfl
    · rfl
    · unfold closed
      dsimp only
      split_ifs <;> rfl
  | reconnect opens =>
    refine silent ?_
    show (c.reconnect opens).terminal = _
    unfold reconnect
    split
    · rfl
    · exact terminal_openWS _ _ opens
  | callback transport call around =>
    refine silent ?_
    simp only [step]
    split
    · exact c.terminal_callback options transport _ call around
    · rfl

end SessionConnection

/-! ### The peer session -/

def Offer.input? : Offer → Option String
  | ⟨_, .input value, true⟩ => some value
  | _ => none

namespace PeerSessionConnection

def terminal (c : PeerSessionConnection) : List String :=
  c.world.offers.filterMap Offer.input? ++ c.pendingInputs

variable (options : PeerSessionConnectionOptions) (c : PeerSessionConnection)

theorem terminal_offer {transport : ℕ} {frame : PeerFrame} {accepted : Bool}
    (other : Offer.input? ⟨transport, frame, accepted⟩ = none) :
    (c.offer transport frame accepted).terminal = c.terminal := by
  unfold terminal offer
  rw [List.filterMap_append, List.filterMap_cons_none other, List.filterMap_nil, List.append_nil]

theorem terminal_flushInputs (transport takes : ℕ) (inputs : List String)
    (c : PeerSessionConnection) (queued : c.pendingInputs = inputs) :
    (flushInputs transport takes inputs c).terminal = c.terminal := by
  induction inputs generalizing takes c with
  | nil => cases takes <;> rfl
  | cons value rest ih =>
    cases takes with
    | zero => exact c.terminal_offer rfl
    | succ takes =>
      rw [flushInputs, ih takes _ rfl]
      unfold terminal offer
      rw [List.filterMap_append, queued]
      exact List.append_assoc _ _ _

theorem terminal_flushResize (transport takes : ℕ) :
    (c.flushResize transport takes).terminal = c.terminal := by
  unfold flushResize
  rcases c.pendingResize with _ | ⟨cols, rows⟩
  · exact terminal_flushInputs transport takes _ c rfl
  · dsimp only
    split_ifs
    · exact c.terminal_offer rfl
    · have offered : (c.offer transport (.resize cols rows) true).terminal = c.terminal :=
        c.terminal_offer rfl
      refine Eq.trans (terminal_flushInputs transport _ _ _ rfl) ?_
      exact offered

theorem terminal_flush (takes : ℕ) : (c.flush takes).terminal = c.terminal := by
  unfold flush
  rcases c.transport with _ | transport
  · rfl
  · dsimp only
    split_ifs
    · rfl
    · exact c.terminal_offer rfl
    · have offered : (c.offer transport .claimDriver true).terminal = c.terminal :=
        c.terminal_offer rfl
      exact (terminal_flushResize _ transport _).trans offered
    · exact c.terminal_flushResize transport takes

theorem terminal_scheduleReconnect : c.scheduleReconnect.terminal = c.terminal := by
  unfold scheduleReconnect
  split_ifs <;> rfl

theorem terminal_recover (generation : ℕ) (error : String) :
    (recover options c generation error).terminal = c.terminal := by
  unfold recover
  dsimp only
  split_ifs
  · rfl
  · rfl
  · exact terminal_scheduleReconnect _

theorem terminal_fail (generation transport : ℕ) (error : String) :
    (fail options c generation transport error).terminal = c.terminal := by
  unfold fail
  dsimp only
  split_ifs
  · rfl
  · rfl
  · exact terminal_recover options _ generation error

theorem terminal_start (launch : Launch) : (start options c launch).terminal = c.terminal := by
  unfold start
  cases launch with
  | factoryThrows error => exact terminal_recover options _ _ error
  | startThrows error => exact terminal_recover options _ _ error
  | starts => rfl

theorem terminal_scheduleDirectFailback :
    (scheduleDirectFailback options c).terminal = c.terminal := by
  unfold scheduleDirectFailback
  dsimp only
  split_ifs <;> rfl

theorem terminal_probeDirectFailback (generation : ℕ) :
    (c.probeDirectFailback generation).terminal = c.terminal := by
  unfold probeDirectFailback
  split_ifs <;> rfl

theorem terminal_failHandover (attempt : PeerHandoverAttempt) (error : String) :
    (failHandover options c attempt error).terminal = c.terminal := by
  unfold failHandover
  dsimp only
  split_ifs
  · rfl
  · exact terminal_recover options _ _ error

theorem terminal_cancelHandover (attempt : PeerHandoverAttempt) :
    (c.cancelHandover attempt).terminal = c.terminal := by
  unfold cancelHandover
  dsimp only
  split_ifs
  · rfl
  · exact terminal_scheduleReconnect _

theorem terminal_promoteHandover (attempt : PeerHandoverAttempt) (replayedSeq takes : ℕ) :
    (c.promoteHandover attempt replayedSeq takes).terminal = c.terminal := by
  unfold promoteHandover
  dsimp only
  split_ifs
  · rfl
  · exact terminal_flush _ takes

theorem terminal_startDirectHandover (generation : ℕ) (launch : Launch) :
    (startDirectHandover options c generation launch).terminal = c.terminal := by
  unfold startDirectHandover
  split_ifs
  · rfl
  · cases launch with
    | factoryThrows error => exact terminal_scheduleDirectFailback options _
    | startThrows error => exact terminal_failHandover options _ _ error
    | starts => rfl

theorem terminal_quickTunnelFallback (generation : ℕ) (available : Bool) (launch : Launch) :
    (quickTunnelFallback options c generation available launch).terminal = c.terminal := by
  unfold quickTunnelFallback
  dsimp only
  split_ifs
  · rfl
  · exact terminal_start options _ launch
  · exact terminal_scheduleReconnect _

theorem terminal_probeAnswered (probe : FailbackProbe) (available : Bool) (launch : Launch) :
    (probeAnswered options c probe available launch).terminal = c.terminal := by
  have answered (a : PeerSessionConnection) (same : a.terminal = c.terminal) :
      (if !a.failbackAllowed probe.generation then a
        else if !available then
          scheduleDirectFailback options { a with failbackAttempts := a.failbackAttempts + 1 }
        else startDirectHandover options a probe.generation launch).terminal = c.terminal := by
    split_ifs
    · exact same
    · exact (terminal_scheduleDirectFailback options _).trans same
    · exact (terminal_startDirectHandover options a _ launch).trans same
  exact answered _ rfl

theorem terminal_handleFrame (frame : PeerInbound) : (c.handleFrame frame).terminal = c.terminal := by
  cases frame with
  | out seq =>
    unfold handleFrame
    dsimp only
    split_ifs <;> rfl
  | close => rfl
  | other => rfl

theorem terminal_becomeReady (generation transport replayedSeq takes : ℕ) :
    (becomeReady options c generation transport replayedSeq takes).terminal = c.terminal := by
  unfold becomeReady
  dsimp only
  split_ifs
  · exact c.terminal_fail options generation transport _
  · exact (terminal_scheduleDirectFailback options _).trans (terminal_flush _ takes)
  · exact terminal_flush _ takes

theorem terminal_callback (generation transport : ℕ) (call : Callback) :
    (callback options c generation transport call).terminal = c.terminal := by
  cases call with
  | authenticated =>
    unfold callback
    dsimp only
    split_ifs <;> rfl
  | frame frame =>
    unfold callback
    dsimp only
    split_ifs
    · rfl
    · exact c.terminal_handleFrame frame
  | ready replayedSeq takes => exact c.terminal_becomeReady options generation transport replayedSeq takes
  | failure error => exact c.terminal_fail options generation transport error

theorem terminal_handoverCallback (generation transport : ℕ) (call : Callback) :
    (handoverCallback options c generation transport call).terminal = c.terminal := by
  unfold handoverCallback
  rcases c.attempt? transport with _ | attempt
  · rfl
  dsimp only
  by_cases stale : (!c.isHandoverCurrent attempt) = true
  · rw [if_pos stale]
  rw [if_neg stale]
  cases call with
  | authenticated =>
    dsimp only
    split_ifs <;> rfl
  | frame frame => exact c.terminal_handleFrame frame
  | ready replayedSeq takes =>
    dsimp only
    split_ifs
    · exact c.terminal_failHandover options attempt _
    · exact c.terminal_promoteHandover attempt replayedSeq takes
  | failure error =>
    dsimp only
    split_ifs
    · exact c.terminal_fail options generation attempt.transport error
    · exact c.terminal_failHandover options attempt error

theorem terminal_attach (launch : Launch) : (attach options c launch).terminal = c.terminal := by
  unfold attach
  dsimp only
  split_ifs
  · rfl
  · rfl
  · exact terminal_start options _ launch

theorem terminal_setRoute (route : NativePeerRoute) (launch : Launch) :
    (setRoute options c route launch).terminal = c.terminal := by
  unfold setRoute
  by_cases gone : c.detached = true
  · rw [if_pos gone]
  rw [if_neg gone]
  by_cases same : route = c.route
  · rw [if_pos same]
    rcases c.handover with _ | attempt
    · rfl
    · dsimp only
      by_cases back : route = .quickTunnel
      · rw [if_pos back]
        exact c.terminal_cancelHandover attempt
      · rw [if_neg back]
  · rw [if_neg same]
    dsimp only
    split_ifs
    · exact terminal_start options _ launch
    · rfl

theorem terminal_send {frame : PeerFrame}
    (other : ∀ transport accepted, Offer.input? ⟨transport, frame, accepted⟩ = none) (takes : ℕ) :
    (c.send frame takes).2.terminal = c.terminal := by
  unfold send
  split_ifs
  · rcases c.transport with _ | transport
    · rfl
    · exact c.terminal_offer (other transport _)
  · rfl

theorem terminal_request {frame : PeerFrame}
    (other : ∀ transport accepted, Offer.input? ⟨transport, frame, accepted⟩ = none) (takes : ℕ) :
    (c.request frame takes).terminal = c.terminal := by
  unfold request
  rcases c.transport with _ | transport
  · rfl
  · dsimp only
    split_ifs
    · rfl
    · rfl
    · exact c.terminal_offer (other transport _)

def typed : PeerEvent → List String
  | .sendInput value _ => [value]
  | _ => []

/-- An input is not handed on before a different one that is queued. -/
def Orderly : PeerEvent → Prop
  | .sendInput value takes => c.handover = none → c.ready = true → c.transport.isSome → 0 < takes →
      ∀ other ∈ c.pendingInputs, other = value
  | _ => True

theorem sendInput_terminal_iff (value : String) (takes : ℕ) :
    c.Orderly (.sendInput value takes) ↔
      (c.sendInput value takes).terminal = c.terminal ++ [value] := by
  have queued (a : PeerSessionConnection) (same : a.terminal = c.terminal) :
      ({ a with pendingInputs := a.pendingInputs ++ [value] } : PeerSessionConnection).terminal =
        c.terminal ++ [value] := by
    rw [← same]
    exact (List.append_assoc _ _ _).symm
  unfold Orderly sendInput send
  by_cases idle : (!c.handover.isSome && c.ready) = true
  · rw [if_pos idle]
    simp only [Bool.and_eq_true, Bool.not_eq_true', Option.isSome_eq_false_iff,
      Option.isNone_iff_eq_none] at idle
    obtain ⟨handover, ready⟩ := idle
    rcases c.transport with _ | transport
    · exact iff_of_true (fun _ _ some => by cases some) (queued c rfl)
    · by_cases refused : takes = 0
      · subst refused
        exact iff_of_true (fun _ _ _ taken => absurd taken (lt_irrefl 0))
          (queued _ (c.terminal_offer rfl))
      · have taken := Nat.pos_of_ne_zero refused
        have handed : (c.offer transport (.input value) true).terminal =
            c.world.offers.filterMap Offer.input? ++ [value] ++ c.pendingInputs := by
          unfold terminal offer
          rw [List.filterMap_append]
          rfl
        simp only [taken, decide_true, if_true]
        rw [handed]
        refine Iff.trans ?_ append_cons_eq_iff.symm
        simp [handover, ready]
  · rw [if_neg idle]
    refine iff_of_true (fun handover ready => ?_) (queued c rfl)
    exact absurd (by simp [handover, ready]) idle

/-- **One step** keeps what was typed in order and once exactly if it is orderly. -/
theorem step_terminal_iff (event : PeerEvent) :
    c.Orderly event ↔ (c.step options event).terminal = c.terminal ++ typed event := by
  have silent {after : PeerSessionConnection} (same : after.terminal = c.terminal) :
      True ↔ after.terminal = c.terminal ++ [] := by
    rw [List.append_nil]
    exact iff_of_true trivial same
  cases event with
  | sendInput value takes => exact c.sendInput_terminal_iff value takes
  | attach launch => exact silent (c.terminal_attach options launch)
  | suspend =>
    refine silent ?_
    show c.suspend.terminal = _
    unfold suspend
    split_ifs <;> rfl
  | detach => exact silent rfl
  | setRoute route launch => exact silent (c.terminal_setRoute options route launch)
  | sendResize cols rows takes => exact silent (c.terminal_send (fun _ _ => rfl) takes)
  | claimDriver takes => exact silent (c.terminal_send (fun _ _ => rfl) takes)
  | closeService serviceId takes => exact silent (c.terminal_send (fun _ _ => rfl) takes)
  | request frame takes =>
    refine silent ?_
    simp only [step]
    split_ifs with request
    · refine c.terminal_request (fun transport accepted => ?_) takes
      cases frame with
      | input value => cases request
      | resize | claimDriver | serviceOpen | serviceClose | sessionCreate | fsRequest | pasteImage
      | pasteFile => rfl
    · rfl
  | sendPaste image =>
    refine silent ?_
    show (c.sendPaste image).terminal = _
    unfold sendPaste
    rcases c.transport with _ | transport
    · rfl
    · dsimp only
      split_ifs <;> rfl
  | pasteEncoded paste payload takes =>
    refine silent ?_
    simp only [step]
    split_ifs
    · unfold pasteEncoded
      split_ifs
      · rfl
      · exact terminal_offer _ rfl
      · exact terminal_offer _ rfl
    · rfl
  | reconnect launch =>
    refine silent ?_
    show (reconnect options c launch).terminal = _
    unfold reconnect
    split
    · rfl
    · dsimp only
      split_ifs
      · exact terminal_start options _ launch
      · rfl
  | failback =>
    refine silent ?_
    show c.failback.terminal = _
    unfold failback
    split
    · rfl
    · exact terminal_probeDirectFailback _ _
  | fallbackAnswered generation available launch =>
    refine silent ?_
    simp only [step]
    split_ifs
    · exact terminal_quickTunnelFallback options _ generation available launch
    · rfl
  | probeAnswered probe available launch =>
    refine silent ?_
    simp only [step]
    split_ifs
    · exact terminal_probeAnswered options _ probe available launch
    · rfl
  | callback callbacks call =>
    refine silent ?_
    simp only [step]
    split_ifs
    · exact c.terminal_handoverCallback options callbacks.generation callbacks.transport call
    · exact c.terminal_callback options callbacks.generation callbacks.transport call
    · rfl

end PeerSessionConnection

/-! ### Every run -/

/-- **Terminal input stays in order**: in a run of either connection, what was handed on followed by
what is queued is what was typed, after every event, exactly if no input was handed on before a
different one in the queue and none was given to a relay socket that is closing. -/
theorem terminal_input_iff (sessionOptions : SessionConnectionOptions)
    (peerOptions : PeerSessionConnectionOptions) (sessionEvents : List SessionEvent)
    (peerEvents : List PeerEvent) :
    ((∀ first, first <+: sessionEvents →
        (run (SessionConnection.step sessionOptions) (.new sessionOptions) first).terminal =
          first.flatMap SessionConnection.typed) ↔
      Meets (SessionConnection.step sessionOptions) SessionConnection.Orderly (.new sessionOptions)
        sessionEvents) ∧
    ((∀ first, first <+: peerEvents →
        (run (PeerSessionConnection.step peerOptions) (.new peerOptions) first).terminal =
          first.flatMap PeerSessionConnection.typed) ↔
      Meets (PeerSessionConnection.step peerOptions) PeerSessionConnection.Orderly (.new peerOptions)
        peerEvents) :=
  ⟨passes_iff_meets SessionConnection.terminal SessionConnection.typed
      (fun c event => c.step_terminal_iff sessionOptions event) _ sessionEvents,
    passes_iff_meets PeerSessionConnection.terminal PeerSessionConnection.typed
      (fun c event => c.step_terminal_iff peerOptions event) _ peerEvents⟩

/-- A browser without a direct route. -/
def relayOnly : SessionConnectionOptions := ⟨false, false, false, "client", fun _ _ _ => none⟩

def quickTunnelOnly : PeerSessionConnectionOptions := ⟨some .quickTunnel, false, false, none⟩

/-- A key is pressed while the relay hangs up. -/
def typedWhileClosing : List SessionEvent :=
  [.attach true, .opened 0, .closing 0, .sendInput "a" 0]

/-- The transport refuses the first of two keys and takes the second. -/
def refusedThenTaken : List PeerEvent :=
  [.attach .starts, .callback ⟨0, 1, false⟩ .authenticated,
    .callback ⟨0, 1, false⟩ (.ready 0 0), .sendInput "a" 0, .sendInput "b" 1]

/-- **An input is lost, and one is overtaken.** -/
theorem input_lost_or_overtaken :
    (run (SessionConnection.step relayOnly) (.new relayOnly) typedWhileClosing).terminal = [] ∧
      typedWhileClosing.flatMap SessionConnection.typed = ["a"] ∧
      (run (PeerSessionConnection.step quickTunnelOnly) (.new quickTunnelOnly)
        refusedThenTaken).terminal = ["b", "a"] ∧
      refusedThenTaken.flatMap PeerSessionConnection.typed = ["a", "b"] := by
  decide

end Atterm.Session
