/-
**The switch to the WSS fallback is safe.**

A record that an end writes before its own switch must not follow the request or the acknowledgement:
the other end switches when it reads that one.

* `Careful` — no signal follows the client's request, and none the host's acknowledgement;
* `Stage` — how far the switch has come;
* `switches_of_meets` — no end fails, and when all is read both have activated or neither has.
-/

import Atterm.Transport.SwitchFlow

namespace Atterm.Transport

open Atterm.Foundation

namespace SignalEnd

def sends (role : Role) (e : SignalEnd) (signal : Signal) : Bool :=
  match (e.sendSignal role signal).1 with
  | .ok _ => true
  | .error _ => false

def completes (decode : Bytes → Option Signal) (e : SignalEnd) (record : PlainRecord) (now : ℤ) :
    Option Signal :=
  match (collect e.fragments record now).1 with
  | .ok (some payload) => decode payload
  | .ok none | .error _ => none

/-- No signal follows the request of a client, or the acknowledgement of a host. -/
def Calm (e : SignalEnd) (signal : Signal) : Role → Prop
  | .client => e.sendState.fallback = false
  | .host => signal.type ≠ .wssReady ∧ e.sendState.fallbackReady = false

/-- The record is read in time, the application takes what it completes, and a signal of the fallback
comes to an end that has bound it. -/
structure Receptive (decode : Bytes → Option Signal) (e : SignalEnd) (record : PlainRecord) (now : ℤ)
    (handled : Bool) : Prop where
  handled : handled = true
  signal : e.fallbackActive = false → lateSignal e.fragments record now = false
  fallback : e.fallbackActive = true → e.receiver.late record now = false
  bound : e.fallbackActive = false → ∀ signal ∈ e.completes decode record now,
    signal.type = .wssFallback ∨ signal.type = .wssReady → e.fallbackBound = true

theorem receptive_iff {decode : Bytes → Option Signal} {e : SignalEnd} {record : PlainRecord}
    {now : ℤ} {handled : Bool} : e.Receptive decode record now handled ↔ handled = true ∧
      (e.fallbackActive = false → lateSignal e.fragments record now = false) ∧
      (e.fallbackActive = true → e.receiver.late record now = false) ∧
      (e.fallbackActive = false → ∀ signal ∈ e.completes decode record now,
        signal.type = .wssFallback ∨ signal.type = .wssReady → e.fallbackBound = true) :=
  ⟨fun ⟨handled, signal, fallback, bound⟩ => ⟨handled, signal, fallback, bound⟩,
    fun ⟨handled, signal, fallback, bound⟩ => ⟨handled, signal, fallback, bound⟩⟩

instance (decode : Bytes → Option Signal) (e : SignalEnd) (record : PlainRecord) (now : ℤ)
    (handled : Bool) : Decidable (e.Receptive decode record now handled) :=
  decidable_of_iff' _ receptive_iff

instance (e : SignalEnd) (signal : Signal) : (role : Role) → Decidable (e.Calm signal role)
  | .client => inferInstanceAs (Decidable (e.sendState.fallback = false))
  | .host => inferInstanceAs (Decidable (signal.type ≠ .wssReady ∧ e.sendState.fallbackReady = false))

end SignalEnd

namespace SwitchWorld

variable (decode : Bytes → Option Signal)

def Careful (w : SwitchWorld) : SwitchEvent → Prop
  | .send role signal =>
    (w.ends role).sends role signal = true → (w.ends role).Calm signal role
  | .fallback role event => (w.ends role).fallbackActive = true →
      (traffic (w.ends role) (w.ends role.peer)).Careful (.writer event)
  | .read role now handled => (w.ends role).closed = false → (w.ends role).phase = .reading →
      ∀ record ∈ (w.wire role).head?, (w.ends role).Receptive decode record now handled
  | .bind _ | .start | .acknowledge _ | .activate _ | .close _ => True

instance (w : SwitchWorld) : (event : SwitchEvent) → Decidable (w.Careful decode event)
  | .send role signal => inferInstanceAs (Decidable
      ((w.ends role).sends role signal = true → (w.ends role).Calm signal role))
  | .fallback role event => inferInstanceAs (Decidable ((w.ends role).fallbackActive = true →
      (traffic (w.ends role) (w.ends role.peer)).Careful (.writer event)))
  | .read role now handled => inferInstanceAs (Decidable ((w.ends role).closed = false →
      (w.ends role).phase = .reading →
        ∀ record ∈ (w.wire role).head?, (w.ends role).Receptive decode record now handled))
  | .bind _ | .start | .acknowledge _ | .activate _ | .close _ => inferInstanceAs (Decidable True)

/-! ### How far the switch has come -/

/-- The signals leave the routes as they are. -/
def Plain (sent : List Transmission) : Prop :=
  ∀ t ∈ sent, t.signal.type ≠ .wssFallback ∧ t.signal.type ≠ .wssReady

theorem plain_nil : Plain [] := fun _ inside => absurd inside List.not_mem_nil

theorem Plain.concat {sent : List Transmission} (plain : Plain sent) {t : Transmission}
    (request : t.signal.type ≠ .wssFallback) (ready : t.signal.type ≠ .wssReady) :
    Plain (sent ++ [t]) := by
  intro other inside
  rcases List.mem_append.mp inside with old | new
  · exact plain other old
  · rw [List.mem_singleton.mp new]
    exact ⟨request, ready⟩

structure Standing (client host : SignalEnd) (requested ready : Bool) (phase : ReadPhase)
    (clientActive hostActive : Bool) : Prop where
  requested : client.sendState.fallback = requested
  ready : host.sendState.fallbackReady = ready
  reading : client.phase = .reading
  phase : host.phase = phase
  client : client.fallbackActive = clientActive
  host : host.fallbackActive = hostActive

/-- The host is about to activate the fallback, or has. -/
def Switching (phase : ReadPhase) (active : Bool) : Prop :=
  phase = .activating ∧ active = false ∨ phase = .reading ∧ active = true

/-- How far the switch has come, with the signals on their way to each end. -/
inductive Stage (client host : SignalEnd) (toHost toClient : List Transmission) : Prop
  | quiet (standing : Standing client host false false .reading false false)
      (plainHost : Plain toHost) (plainClient : Plain toClient)
  | requested (before : List Transmission) (request : Transmission)
      (standing : Standing client host true false .reading false false)
      (last : toHost = before ++ [request]) (type : request.signal.type = .wssFallback)
      (plainHost : Plain before) (plainClient : Plain toClient)
  | received (standing : Standing client host true false .acknowledging false false)
      (empty : toHost = []) (plainClient : Plain toClient)
  | answered (before : List Transmission) (ready : Transmission) (phase : ReadPhase) (active : Bool)
      (standing : Standing client host true true phase false active)
      (switching : Switching phase active) (empty : toHost = [])
      (last : toClient = before ++ [ready]) (type : ready.signal.type = .wssReady)
      (plainClient : Plain before)
  | switched (phase : ReadPhase) (active : Bool)
      (standing : Standing client host true true phase true active)
      (switching : Switching phase active) (empty : toHost = []) (none : toClient = [])

/-! ### What every careful run keeps -/

structure Sound (w : SwitchWorld) (sent : Role → List Transmission) : Prop where
  flow : ∀ role, Flow decode role (w.ends role) (w.ends role.peer) (w.wire role) (sent role)
  stage : Stage (w.ends .client) (w.ends .host) (sent .host) (sent .client)
  bound : (w.ends .host).phase ≠ .reading → (w.ends .host).fallbackBound = true
  intact : ∀ role, (w.ends role).failure = none

theorem sound_start : start.Sound decode fun _ => [] where
  flow := fun role => flow_new decode role
  stage := .quiet ⟨rfl, rfl, rfl, rfl, rfl, rfl⟩ plain_nil plain_nil
  bound := fun away => absurd rfl away
  intact := fun _ => rfl

variable {decode} {w : SwitchWorld} {sent : Role → List Transmission}
  {client host : SignalEnd} {toHost toClient : List Transmission}

structure Keeps (e after : SignalEnd) : Prop where
  fallback : after.sendState.fallback = e.sendState.fallback
  fallbackReady : after.sendState.fallbackReady = e.sendState.fallbackReady
  phase : after.phase = e.phase
  active : after.fallbackActive = e.fallbackActive

theorem Standing.congr {client' host' : SignalEnd} {requested ready clientActive hostActive : Bool}
    {phase : ReadPhase}
    (standing : Standing client host requested ready phase clientActive hostActive)
    (keeps : Keeps client client') (too : Keeps host host') :
    Standing client' host' requested ready phase clientActive hostActive :=
  ⟨keeps.fallback.trans standing.requested, too.fallbackReady.trans standing.ready,
    keeps.phase.trans standing.reading, too.phase.trans standing.phase,
    keeps.active.trans standing.client, too.active.trans standing.host⟩

theorem Stage.congr {client' host' : SignalEnd} (stage : Stage client host toHost toClient)
    (keeps : Keeps client client') (too : Keeps host host') :
    Stage client' host' toHost toClient := by
  cases stage with
  | quiet standing plainHost plainClient =>
    exact .quiet (standing.congr keeps too) plainHost plainClient
  | requested before request standing last type plainHost plainClient =>
    exact .requested before request (standing.congr keeps too) last type plainHost plainClient
  | received standing empty plainClient =>
    exact .received (standing.congr keeps too) empty plainClient
  | answered before ready phase active standing switching empty last type plainClient =>
    exact .answered before ready phase active (standing.congr keeps too) switching empty last type
      plainClient
  | switched phase active standing switching empty none =>
    exact .switched phase active (standing.congr keeps too) switching empty none

theorem Stage.toHost_cons {t : Transmission} {rest : List Transmission}
    (stage : Stage client host (t :: rest) toClient) : host.fallbackActive = false ∧
      ((t.signal.type = .wssFallback ∧ rest = [] ∧
          Standing client host true false .reading false false ∧ Plain toClient) ∨
        (t.signal.type ≠ .wssFallback ∧ t.signal.type ≠ .wssReady ∧
          Stage client host rest toClient)) := by
  cases stage with
  | quiet standing plainHost plainClient =>
    obtain ⟨request, ready⟩ := plainHost t List.mem_cons_self
    exact ⟨standing.host, Or.inr ⟨request, ready, .quiet standing
      (fun other inside => plainHost other (List.mem_cons_of_mem t inside)) plainClient⟩⟩
  | requested before request standing last type plainHost plainClient =>
    refine ⟨standing.host, ?_⟩
    cases before with
    | nil =>
      obtain ⟨rfl, rfl⟩ := List.cons.inj last
      exact Or.inl ⟨type, rfl, standing, plainClient⟩
    | cons first before =>
      obtain ⟨rfl, rfl⟩ := List.cons.inj last
      obtain ⟨notRequest, ready⟩ := plainHost t List.mem_cons_self
      exact Or.inr ⟨notRequest, ready, .requested before request standing rfl type
        (fun other inside => plainHost other (List.mem_cons_of_mem t inside)) plainClient⟩
  | received standing empty => cases empty
  | answered before ready phase active standing switching empty => cases empty
  | switched phase active standing switching empty => cases empty

theorem Stage.toClient_cons {t : Transmission} {rest : List Transmission}
    (stage : Stage client host toHost (t :: rest)) : client.fallbackActive = false ∧
      ((t.signal.type = .wssReady ∧ rest = [] ∧ toHost = [] ∧ ∃ phase active,
          Standing client host true true phase false active ∧ Switching phase active) ∨
        (t.signal.type ≠ .wssFallback ∧ t.signal.type ≠ .wssReady ∧
          Stage client host toHost rest)) := by
  have behind {before : List Transmission} (plain : Plain (t :: before)) : Plain before :=
    fun other inside => plain other (List.mem_cons_of_mem t inside)
  cases stage with
  | quiet standing plainHost plainClient =>
    obtain ⟨request, ready⟩ := plainClient t List.mem_cons_self
    exact ⟨standing.client, Or.inr ⟨request, ready,
      .quiet standing plainHost (behind plainClient)⟩⟩
  | requested before request standing last type plainHost plainClient =>
    obtain ⟨notRequest, ready⟩ := plainClient t List.mem_cons_self
    exact ⟨standing.client, Or.inr ⟨notRequest, ready,
      .requested before request standing last type plainHost (behind plainClient)⟩⟩
  | received standing empty plainClient =>
    obtain ⟨request, ready⟩ := plainClient t List.mem_cons_self
    exact ⟨standing.client, Or.inr ⟨request, ready,
      .received standing empty (behind plainClient)⟩⟩
  | answered before ready phase active standing switching empty last type plainClient =>
    refine ⟨standing.client, ?_⟩
    cases before with
    | nil =>
      obtain ⟨rfl, rfl⟩ := List.cons.inj last
      exact Or.inl ⟨type, rfl, empty, phase, active, standing, switching⟩
    | cons first before =>
      obtain ⟨rfl, rfl⟩ := List.cons.inj last
      obtain ⟨request, notReady⟩ := plainClient t List.mem_cons_self
      exact Or.inr ⟨request, notReady,
        .answered before ready phase active standing switching empty rfl type
          (behind plainClient)⟩
  | switched phase active standing switching empty none => cases none

theorem Stage.host_active (stage : Stage client host toHost toClient)
    (active : client.fallbackActive = true) (reading : host.phase = .reading) :
    host.fallbackActive = true := by
  cases stage with
  | quiet standing => cases active.symm.trans standing.client
  | requested before request standing => cases active.symm.trans standing.client
  | received standing => cases active.symm.trans standing.client
  | answered before ready phase hostActive standing => cases active.symm.trans standing.client
  | switched phase hostActive standing switching =>
    rcases switching with ⟨away, _⟩ | ⟨_, live⟩
    · rw [standing.phase, away] at reading
      cases reading
    · exact standing.host.trans live

theorem Stage.client_active (stage : Stage client host toHost [])
    (active : host.fallbackActive = true) : client.fallbackActive = true := by
  cases stage with
  | quiet standing => cases active.symm.trans standing.host
  | requested before request standing => cases active.symm.trans standing.host
  | received standing => cases active.symm.trans standing.host
  | answered before ready phase hostActive standing switching empty last =>
    cases before <;> cases last
  | switched phase hostActive standing => exact standing.client

/-! ### One end changes -/

theorem flows_set (role : Role) {e : SignalEnd} {wire : Role → List PlainRecord}
    (own : Flow decode role e (w.ends role.peer) (wire role) (sent role))
    (peer : Flow decode role.peer (w.ends role.peer) e (wire role.peer) (sent role.peer)) (r : Role) :
    Flow decode r (Function.update w.ends role e r) (Function.update w.ends role e r.peer) (wire r)
      (sent r) := by
  rcases role.eq_or_eq_peer r with rfl | rfl
  · rw [Function.update_self, Function.update_of_ne r.peer_ne]
    exact own
  · rw [Role.peer_peer, Function.update_self, Function.update_of_ne role.peer_ne]
    exact peer

theorem intact_set (role : Role) {e : SignalEnd} (intact : ∀ r, (w.ends r).failure = none)
    (own : e.failure = none) (r : Role) : (Function.update w.ends role e r).failure = none := by
  rcases role.eq_or_eq_peer r with rfl | rfl
  · rw [Function.update_self]
    exact own
  · rw [Function.update_of_ne role.peer_ne]
    exact intact role.peer

theorem stage_set {role : Role} {e : SignalEnd} (keeps : Keeps (w.ends role) e)
    (stage : Stage (w.ends .client) (w.ends .host) toHost toClient) :
    Stage (Function.update w.ends role e .client) (Function.update w.ends role e .host) toHost
      toClient := by
  have still (e : SignalEnd) : Keeps e e := ⟨rfl, rfl, rfl, rfl⟩
  cases role with
  | client => exact stage.congr keeps (still _)
  | host => exact stage.congr (still _) keeps

theorem bound_set {role : Role} {e : SignalEnd} (phase : e.phase = (w.ends role).phase)
    (bound : (w.ends role).fallbackBound = true → e.fallbackBound = true)
    (before : (w.ends .host).phase ≠ .reading → (w.ends .host).fallbackBound = true)
    (away : (Function.update w.ends role e .host).phase ≠ .reading) :
    (Function.update w.ends role e .host).fallbackBound = true := by
  cases role with
  | client => exact before away
  | host =>
    rw [Function.update_self] at away ⊢
    rw [phase] at away
    exact bound (before away)

/-- **An end that stands where it stood.** -/
theorem Sound.keep (sound : w.Sound decode sent) {role : Role} {e : SignalEnd}
    {wire : Role → List PlainRecord} {sent' : Role → List Transmission}
    (own : Flow decode role e (w.ends role.peer) (wire role) (sent' role))
    (peer : Flow decode role.peer (w.ends role.peer) e (wire role.peer) (sent' role.peer))
    (keeps : Keeps (w.ends role) e)
    (stage : Stage (w.ends .client) (w.ends .host) (sent' .host) (sent' .client))
    (bound : (w.ends role).fallbackBound = true → e.fallbackBound = true)
    (intact : e.failure = none) :
    (SwitchWorld.mk (Function.update w.ends role e) wire).Sound decode sent' where
  flow := flows_set role own peer
  stage := stage_set keeps stage
  bound := bound_set keeps.phase bound sound.bound
  intact := intact_set role sound.intact intact

theorem Sound.flow_peer (sound : w.Sound decode sent) (role : Role) :
    Flow decode role.peer (w.ends role.peer) (w.ends role) (w.wire role.peer) (sent role.peer) := by
  have flow := sound.flow role.peer
  rwa [Role.peer_peer] at flow

/-! ### Signals are sent -/

theorem Stage.client_sends (stage : Stage client host toHost toClient) {after : SignalEnd}
    {t : Transmission} (calm : client.sendState.fallback = false)
    (admitted : client.sendState.Admitted t.signal .client after.sendState)
    (phase : after.phase = client.phase) (active : after.fallbackActive = client.fallbackActive) :
    Stage after host (toHost ++ [t]) toClient := by
  have ready : t.signal.type ≠ .wssReady := fun type => by cases (admitted.ready type).1
  cases stage with
  | quiet standing plainHost plainClient =>
    obtain ⟨_, unready, reading, hostPhase, inactive, hostInactive⟩ := standing
    by_cases request : t.signal.type = .wssFallback
    · exact .requested toHost t ⟨(admitted.request request).2.2.2, unready, phase.trans reading,
        hostPhase, active.trans inactive, hostInactive⟩ rfl request plainHost plainClient
    · exact .quiet ⟨(admitted.fallback request).trans calm, unready, phase.trans reading, hostPhase,
        active.trans inactive, hostInactive⟩ (plainHost.concat request ready) plainClient
  | requested before request standing => cases calm.symm.trans standing.requested
  | received standing => cases calm.symm.trans standing.requested
  | answered before ready phase active standing => cases calm.symm.trans standing.requested
  | switched phase active standing => cases calm.symm.trans standing.requested

theorem Stage.host_sends (stage : Stage client host toHost toClient) {after : SignalEnd}
    {t : Transmission} (calm : t.signal.type ≠ .wssReady ∧ host.sendState.fallbackReady = false)
    (admitted : host.sendState.Admitted t.signal .host after.sendState)
    (phase : after.phase = host.phase) (active : after.fallbackActive = host.fallbackActive) :
    Stage client after toHost (toClient ++ [t]) := by
  obtain ⟨ready, fresh⟩ := calm
  have request : t.signal.type ≠ .wssFallback := fun type => by cases (admitted.request type).1
  have unready := (admitted.fallbackReady ready).trans fresh
  have stands {requested : Bool} {hostPhase : ReadPhase} {clientActive hostActive : Bool}
      (standing : Standing client host requested false hostPhase clientActive hostActive) :
      Standing client after requested false hostPhase clientActive hostActive :=
    ⟨standing.requested, unready, standing.reading, phase.trans standing.phase, standing.client,
      active.trans standing.host⟩
  cases stage with
  | quiet standing plainHost plainClient =>
    exact .quiet (stands standing) plainHost (plainClient.concat request ready)
  | requested before first standing last type plainHost plainClient =>
    exact .requested before first (stands standing) last type plainHost
      (plainClient.concat request ready)
  | received standing empty plainClient =>
    exact .received (stands standing) empty (plainClient.concat request ready)
  | answered before ready phase active standing => cases fresh.symm.trans standing.ready
  | switched phase active standing => cases fresh.symm.trans standing.ready

/-- **An end sends a signal.** -/
theorem sound_sendSignal (sound : w.Sound decode sent) {role : Role} {signal : Signal}
    (calm : (w.ends role).sends role signal = true → (w.ends role).Calm signal role)
    (decoded : signal.versioned.type.known = true →
      decode (encodeSignal signal.versioned) = some signal.versioned) :
    ∃ sent', (w.sendSignal role signal).Sound decode sent' := by
  have flow := sound.flow role
  have flowPeer := sound.flow_peer role
  rcases (w.ends role).sendSignal_cases role signal with
    ⟨error, sendState, messageID, refused, within, fallback, ready⟩ |
    ⟨t, sendState, messageID, written, opened, inactive, same, bounded, accepted⟩
  · have moved : w.sendSignal role signal = w.set role
        { w.ends role with sendState := sendState, nextMessageID := messageID } := by
      simp only [sendSignal, refused]
    rw [moved]
    exact ⟨sent, sound.keep
      ⟨flow.wire, flow.bounded, flow.decoded, flow.admitted, flow.fallback, flow.idle⟩
      (flowPeer.sender_changes within rfl id) ⟨fallback, ready, rfl, rfl⟩ sound.stage id
      (sound.intact role)⟩
  · have moved : w.sendSignal role signal = (w.set role
        { w.ends role with sendState := sendState, nextMessageID := messageID }).write role
          t.records := by
      simp only [sendSignal, written]
    have calm := calm (by simp only [SignalEnd.sends, written])
    have admitted := DirectionState.admitted_of_accept accepted
    have type : t.signal.type = signal.type := by
      rw [same, Signal.versioned]
      split_ifs <;> rfl
    rw [moved]
    refine ⟨Function.update sent role.peer (sent role.peer ++ [t]), ?_, ?_, ?_, ?_⟩
    · refine flows_set role ?_ ?_
      · rw [write_own, Function.update_of_ne role.peer_ne.symm]
        exact ⟨flow.wire, flow.bounded, flow.decoded, flow.admitted, flow.fallback, flow.idle⟩
      · rw [write_peer, Function.update_self]
        refine flowPeer.send inactive ?_ bounded ?_ rfl rfl
        · rw [Role.peer_peer]
          exact accepted
        · rw [Transmission.payload, same]
          rw [same] at accepted
          exact decoded (DirectionState.known_of_accept accepted)
    · cases role with
      | client => exact sound.stage.client_sends calm admitted rfl rfl
      | host =>
        exact sound.stage.host_sends ⟨by rw [type]; exact calm.1, calm.2⟩ admitted rfl rfl
    · exact bound_set rfl id sound.bound
    · exact intact_set role sound.intact (sound.intact role)

theorem calm_request {e : SignalEnd} (sends : e.sends .client requestSignal = true) :
    e.Calm requestSignal .client := by
  rcases e.sendSignal_cases .client requestSignal with
    ⟨error, sendState, messageID, refused, _⟩ |
    ⟨t, sendState, messageID, written, _, _, same, _, accepted⟩
  · simp only [SignalEnd.sends, refused] at sends
    cases sends
  · have type : t.signal.type = .wssFallback := by
      rw [same]
      decide
    exact ((DirectionState.admitted_of_accept accepted).request type).2.2.1

theorem Stage.client_reading (stage : Stage client host toHost toClient) :
    client.phase = .reading := by
  cases stage with
  | quiet standing => exact standing.reading
  | requested before request standing => exact standing.reading
  | received standing => exact standing.reading
  | answered before ready phase active standing => exact standing.reading
  | switched phase active standing => exact standing.reading

/-- **The acknowledgement.** -/
theorem sound_acknowledge (sound : w.Sound decode sent) (role : Role)
    (decoded : decode (encodeSignal readySignal) = some readySignal) :
    ∃ sent', (w.acknowledge role).Sound decode sent' := by
  unfold acknowledge
  by_cases busy : (w.ends role).closed = true ∨ (w.ends role).phase ≠ .acknowledging
  · rw [if_pos busy]
    exact ⟨sent, sound⟩
  rw [if_neg busy]
  push Not at busy
  obtain ⟨opened, acknowledging⟩ := busy
  have opened := Bool.eq_false_iff.mpr opened
  cases role with
  | client => cases acknowledging.symm.trans sound.stage.client_reading
  | host =>
    cases sound.stage with
    | quiet standing => cases acknowledging.symm.trans standing.phase
    | requested before request standing => cases acknowledging.symm.trans standing.phase
    | answered before ready phase active standing switching =>
      rcases switching with ⟨rfl, _⟩ | ⟨rfl, _⟩
      · cases acknowledging.symm.trans standing.phase
      · cases acknowledging.symm.trans standing.phase
    | switched phase active standing switching =>
      rcases switching with ⟨rfl, _⟩ | ⟨rfl, _⟩
      · cases acknowledging.symm.trans standing.phase
      · cases acknowledging.symm.trans standing.phase
    | received standing empty plainClient =>
      obtain ⟨t, same, written, bounded, accepted⟩ :=
        SignalEnd.sendSignal_ready opened standing.host standing.ready
      have flow := sound.flow .host
      rw [written]
      refine ⟨Function.update sent .client (sent .client ++ [t]), ?_, ?_, ?_, ?_⟩
      · refine flows_set .host ?_ ?_
        · exact ⟨flow.wire, flow.bounded, flow.decoded, flow.admitted, flow.fallback, flow.idle⟩
        · refine (sound.flow .client).send standing.host accepted bounded ?_ rfl rfl
          rw [Transmission.payload, same]
          exact decoded
      · exact .answered (sent .client) t .activating false
          ⟨standing.requested, rfl, standing.reading, rfl, standing.client, standing.host⟩
          (Or.inl ⟨rfl, rfl⟩) empty rfl (by rw [same]; rfl) plainClient
      · intro _
        refine sound.bound ?_
        rw [acknowledging]
        decide
      · exact intact_set .host sound.intact (sound.intact .host)

/-- **The activation**, after the acknowledgement. -/
theorem sound_activate (sound : w.Sound decode sent) (role : Role) :
    (w.activate role).Sound decode sent := by
  unfold activate
  by_cases busy : (w.ends role).phase ≠ .activating
  · rw [if_pos busy]
    exact sound
  rw [if_neg busy]
  have activating := not_not.mp busy
  cases role with
  | client => cases activating.symm.trans sound.stage.client_reading
  | host =>
    have bound := sound.bound (by rw [activating]; decide)
    have flow := sound.flow .host
    have activated (inactive : (w.ends .host).fallbackActive = false) :
        (w.ends .host).activateWSSFallback = .ok { w.ends .host with fallbackActive := true } := by
      rw [SignalEnd.activateWSSFallback, if_neg (by simp [inactive]), if_neg (by simp [bound])]
    -- what the host's activation keeps, and what the stage becomes
    have sound' (inactive : (w.ends .host).fallbackActive = false)
        (stage : ∀ after : SignalEnd, after.sendState = (w.ends .host).sendState →
          after.phase = .reading → after.fallbackActive = true →
            Stage (w.ends .client) after (sent .host) (sent .client)) :
        (w.set .host { w.ends .host with fallbackActive := true, phase := .reading }).Sound decode sent := by
      refine ⟨flows_set .host ?_ ?_, stage _ rfl rfl rfl, fun _ => bound,
        intact_set .host sound.intact (sound.intact .host)⟩
      · exact ⟨flow.wire, flow.bounded, flow.decoded, flow.admitted, flow.fallback, flow.idle⟩
      · exact (sound.flow .client).sender_changes (.refl _) rfl fun idle => by cases idle
    cases sound.stage with
    | quiet standing => cases activating.symm.trans standing.phase
    | requested before request standing => cases activating.symm.trans standing.phase
    | received standing => cases activating.symm.trans standing.phase
    | answered before ready phase active standing switching empty last type plainClient =>
      rcases switching with ⟨rfl, rfl⟩ | ⟨rfl, rfl⟩
      · rw [activated standing.host]
        refine sound' standing.host fun after state reading live => ?_
        exact .answered before ready .reading true ⟨standing.requested, by rw [state]; exact
          standing.ready, standing.reading, reading, standing.client, live⟩
          (Or.inr ⟨rfl, rfl⟩) empty last type plainClient
      · cases activating.symm.trans standing.phase
    | switched phase active standing switching empty none =>
      rcases switching with ⟨rfl, rfl⟩ | ⟨rfl, rfl⟩
      · rw [activated standing.host]
        refine sound' standing.host fun after state reading live => ?_
        exact .switched .reading true ⟨standing.requested, by rw [state]; exact
          standing.ready, standing.reading, reading, standing.client, live⟩
          (Or.inr ⟨rfl, rfl⟩) empty none
      · cases activating.symm.trans standing.phase

/-- **The writer of an end takes a step.** -/
theorem sound_stepWriter (sound : w.Sound decode sent) {role : Role} {event : WriterEvent}
    (careful : (traffic (w.ends role) (w.ends role.peer)).Careful (.writer event))
    (live : (w.ends role).fallbackActive = false →
      ((w.ends role).writer.step role event).written = (w.ends role).writer.written) :
    (w.stepWriter role event).Sound decode sent := by
  have flow := sound.flow role
  have flowPeer := sound.flow_peer role
  have written := flowPeer.write careful (by rwa [Role.peer_peer])
  rw [Role.peer_peer] at written
  refine sound.keep ?_ ?_ ⟨rfl, rfl, rfl, rfl⟩ sound.stage id (sound.intact role)
  · rw [Function.update_of_ne role.peer_ne.symm]
    exact ⟨flow.wire, flow.bounded, flow.decoded, flow.admitted, flow.fallback, flow.idle⟩
  · rw [Function.update_self]
    exact written

/-! ### Records are read -/

theorem readRecord_completes {role : Role} {e : SignalEnd} {record : PlainRecord} {now : ℤ}
    {t : Transmission} {next : DirectionState} (inactive : e.fallbackActive = false)
    (collected : collect e.fragments record now = (.ok (some t.payload), none))
    (bounded : t.payload.length ≤ maxSignalMessageSize) (decoded : decode t.payload = some t.signal)
    (accepted : e.receiveState.accept t.signal role.peer = .ok next) :
    e.readRecord decode role record now true =
      if t.signal.type = .wssFallback then
        if role ≠ .host ∨ e.fallbackBound = false then .error .unsupported
        else .ok { e with fragments := none, receiveState := next, phase := .acknowledging }
      else if t.signal.type = .wssReady then
        if e.sendState.fallback = false then .error .unsolicited
        else { e with fragments := none, receiveState := next }.activateWSSFallback
      else
        .ok
          { e with
            fragments := none
            receiveState := next
            signals := e.signals ++ [t.signal] } := by
  have positive := t.payload_pos
  have dormant : ¬e.fallbackActive = true := by simp [inactive]
  rw [SignalEnd.readRecord, if_neg dormant, collected]
  dsimp only
  rw [SignalEnd.deliverSignal, if_neg (by omega), decoded]
  dsimp only
  rw [accepted]
  rfl

theorem Sound.read_fallback (sound : w.Sound decode sent) {role : Role} {record : PlainRecord}
    {after : List PlainRecord} (wire : w.wire role = record :: after) (quiet : sent role = [])
    (reading : (w.ends role).phase = .reading) {now : ℤ} {handled : Bool}
    (receptive : (w.ends role).Receptive decode record now handled) : ∃ e,
      (w.ends role).readRecord decode role record now handled = .ok e ∧
        (SwitchWorld.mk (Function.update w.ends role e) (Function.update w.wire role after)).Sound
          decode sent := by
  have flow := sound.flow role
  rw [wire, quiet] at flow
  have sender : (w.ends role.peer).fallbackActive = true := by
    by_contra idle
    obtain ⟨records, empty, _, rfl⟩ := flow.wire
    rw [flow.unread_idle (Bool.eq_false_iff.mpr idle)] at empty
    cases empty
  have active : (w.ends role).fallbackActive = true := by
    cases role with
    | client =>
      have stage := sound.stage
      rw [quiet] at stage
      exact stage.client_active sender
    | host => exact sound.stage.host_active sender reading
  obtain ⟨data, delivery, receiver, received, kept⟩ := flow.receives (receptive.fallback active)
  refine ⟨_, ?_, sound.keep (e := { w.ends role with
    received := (w.ends role).received + 1
    receiver := receiver
    delivered := (w.ends role).delivered ++ delivery.toList }) ?_ ?_ ⟨rfl, rfl, rfl, rfl⟩ sound.stage
      id (sound.intact role)⟩
  · have taken : ¬(handled = false ∧ delivery.any Delivery.configMessage = true) := by
      rw [receptive.handled]
      simp
    rw [SignalEnd.readRecord, if_pos active, SignalEnd.receiveFallback, if_neg (by simp [data]),
      received]
    exact if_neg taken
  · rw [Function.update_self, quiet]
    exact kept
  · have flow := sound.flow_peer role
    rw [Function.update_of_ne role.peer_ne]
    exact ⟨flow.wire, flow.bounded, flow.decoded, flow.admitted, flow.fallback, flow.idle⟩

theorem Sound.read_plain (sound : w.Sound decode sent) {role : Role} {t : Transmission}
    {rest : List Transmission} {after : List PlainRecord} {next : DirectionState}
    (inactive : (w.ends role).fallbackActive = false) {record : PlainRecord} {now : ℤ}
    (collected : collect (w.ends role).fragments record now = (.ok (some t.payload), none))
    (bounded : t.payload.length ≤ maxSignalMessageSize) (decoded : decode t.payload = some t.signal)
    (accepted : (w.ends role).receiveState.accept t.signal role.peer = .ok next)
    (flow : Flow decode role { w.ends role with fragments := none, receiveState := next }
      (w.ends role.peer) after rest)
    (request : t.signal.type ≠ .wssFallback) (ready : t.signal.type ≠ .wssReady)
    (stage : Stage (w.ends .client) (w.ends .host) (Function.update sent role rest .host)
      (Function.update sent role rest .client)) :
    ∃ e, (w.ends role).readRecord decode role record now true = .ok e ∧
      (SwitchWorld.mk (Function.update w.ends role e) (Function.update w.wire role after)).Sound
        decode (Function.update sent role rest) := by
  refine ⟨_, ?_, sound.keep (e := { w.ends role with
    fragments := none
    receiveState := next
    signals := (w.ends role).signals ++ [t.signal] }) ?_ ?_ ⟨rfl, rfl, rfl, rfl⟩ stage id
      (sound.intact role)⟩
  · rw [readRecord_completes inactive collected bounded decoded accepted, if_neg request,
      if_neg ready]
  · rw [Function.update_self, Function.update_self]
    exact ⟨flow.wire, flow.bounded, flow.decoded, flow.admitted, flow.fallback, flow.idle⟩
  · have flow := sound.flow_peer role
    rw [Function.update_of_ne role.peer_ne, Function.update_of_ne role.peer_ne]
    exact ⟨flow.wire, flow.bounded, flow.decoded, flow.admitted, flow.fallback, flow.idle⟩

theorem Sound.read_signal (sound : w.Sound decode sent) {role : Role} {record : PlainRecord}
    {after : List PlainRecord} (wire : w.wire role = record :: after) {t : Transmission}
    {rest : List Transmission} (first : sent role = t :: rest) {now : ℤ} {handled : Bool}
    (receptive : (w.ends role).Receptive decode record now handled) : ∃ e sent',
      (w.ends role).readRecord decode role record now handled = .ok e ∧
        (SwitchWorld.mk (Function.update w.ends role e) (Function.update w.wire role after)).Sound
          decode sent' := by
  obtain rfl := receptive.handled
  have flow := sound.flow role
  rw [wire, first] at flow
  have stage := sound.stage
  have inactive : (w.ends role).fallbackActive = false := by
    cases role with
    | client =>
      rw [first] at stage
      exact stage.toClient_cons.1
    | host =>
      rw [first] at stage
      exact stage.toHost_cons.1
  have dormant : ¬(w.ends role).fallbackActive = true := by simp [inactive]
  obtain ⟨record', after', split, collects⟩ := flow.collects now
  obtain ⟨rfl, rfl⟩ := List.cons.inj split
  have bounded := flow.bounded t List.mem_cons_self
  have decoded := flow.decoded t List.mem_cons_self
  rcases collects (receptive.signal inactive) with ⟨fragments, collected, kept⟩ |
    ⟨collected, next, accepted, kept⟩
  · refine ⟨{ w.ends role with fragments := fragments }, sent, ?_, sound.keep ?_ ?_
      ⟨rfl, rfl, rfl, rfl⟩ stage id (sound.intact role)⟩
    · rw [SignalEnd.readRecord, if_neg dormant, collected]
    · rw [Function.update_self, first]
      exact kept
    · have flow := sound.flow_peer role
      rw [Function.update_of_ne role.peer_ne]
      exact ⟨flow.wire, flow.bounded, flow.decoded, flow.admitted, flow.fallback, flow.idle⟩
  have completes : (w.ends role).completes decode record now = some t.signal := by
    rw [SignalEnd.completes, collected]
    exact decoded
  have flowPeer := sound.flow_peer role
  have bound := receptive.bound inactive t.signal completes
  have delivered := readRecord_completes inactive collected bounded decoded accepted
  cases role with
  | host =>
    rw [first] at stage
    rcases stage.toHost_cons.2 with ⟨type, rfl, standing, plainClient⟩ | ⟨request, ready, later⟩
    · have bound := bound (Or.inl type)
      refine ⟨_, Function.update sent .host [], ?_, flows_set .host (e := {
        w.ends .host with fragments := none, receiveState := next, phase := .acknowledging }) ?_ ?_,
        ?_, fun _ => bound, intact_set .host sound.intact (sound.intact .host)⟩
      · rw [delivered, if_pos type, if_neg (by simp [bound])]
      · exact ⟨kept.wire, kept.bounded, kept.decoded, kept.admitted, kept.fallback, kept.idle⟩
      · exact ⟨flowPeer.wire, flowPeer.bounded, flowPeer.decoded, flowPeer.admitted,
          flowPeer.fallback, flowPeer.idle⟩
      · exact .received ⟨standing.requested, standing.ready, standing.reading, rfl, standing.client,
          standing.host⟩ rfl plainClient
    · obtain ⟨e, read, sound⟩ := sound.read_plain inactive collected bounded decoded accepted kept
        request ready later
      exact ⟨e, _, read, sound⟩
  | client =>
    rw [first] at stage
    rcases stage.toClient_cons.2 with ⟨type, rfl, empty, phase, active, standing, switching⟩ |
      ⟨request, ready, later⟩
    · have bound := bound (Or.inr type)
      have other : t.signal.type ≠ .wssFallback := by
        rw [type]
        decide
      refine ⟨_, Function.update sent .client [], ?_, flows_set .client (e := {
        w.ends .client with fragments := none, receiveState := next, fallbackActive := true }) ?_ ?_,
        ?_, sound.bound, intact_set .client sound.intact (sound.intact .client)⟩
      · rw [delivered, if_neg other, if_pos type, if_neg (by simp [standing.requested]),
          SignalEnd.activateWSSFallback, if_neg dormant, if_neg (by simp [bound])]
      · exact ⟨kept.wire, kept.bounded, kept.decoded, kept.admitted, kept.fallback, kept.idle⟩
      · exact flowPeer.sender_changes (.refl _) rfl fun idle => by cases idle
      · exact .switched phase active ⟨standing.requested, standing.ready, standing.reading,
          standing.phase, rfl, standing.host⟩ switching empty rfl
    · obtain ⟨e, read, sound⟩ := sound.read_plain inactive collected bounded decoded accepted kept
        request ready later
      exact ⟨e, _, read, sound⟩

/-- **An end reads a record.** -/
theorem sound_read (sound : w.Sound decode sent) {role : Role} {now : ℤ} {handled : Bool}
    (careful : w.Careful decode (.read role now handled)) :
    ∃ sent', (w.read decode role now handled).Sound decode sent' := by
  unfold read
  dsimp only
  cases wire : w.wire role with
  | nil => exact ⟨sent, sound⟩
  | cons record after =>
    dsimp only
    by_cases busy : (w.ends role).closed = true ∨ (w.ends role).phase ≠ .reading
    · rw [if_pos busy]
      exact ⟨sent, sound⟩
    rw [if_neg busy]
    push Not at busy
    obtain ⟨opened, reading⟩ := busy
    have receptive : (w.ends role).Receptive decode record now handled := by
      refine careful (Bool.eq_false_iff.mpr opened) reading record ?_
      rw [wire]
      rfl
    cases signals : sent role with
    | nil =>
      obtain ⟨e, done, kept⟩ := sound.read_fallback wire signals reading receptive
      rw [done]
      exact ⟨sent, kept⟩
    | cons t rest =>
      obtain ⟨e, sent', done, kept⟩ := sound.read_signal wire signals receptive
      rw [done]
      exact ⟨sent', kept⟩

end SwitchWorld

/-- The signals that the event may send, of a known type. -/
def SwitchEvent.signals : SwitchEvent → List Signal
  | .send _ signal => [signal.versioned].filter (·.type.known)
  | .start => [requestSignal]
  | .acknowledge _ => [readySignal]
  | .bind _ | .fallback _ _ | .read _ _ _ | .activate _ | .close _ => []

namespace SwitchWorld

variable {decode : Bytes → Option Signal} {w : SwitchWorld} {sent : Role → List Transmission}

/-- **One step.** A careful step keeps how far the switch has come in line with what is on its way. -/
theorem sound_step (sound : w.Sound decode sent) {event : SwitchEvent}
    (reads : ∀ signal ∈ event.signals, decode (encodeSignal signal) = some signal)
    (careful : w.Careful decode event) : ∃ sent', (w.step decode event).Sound decode sent' := by
  cases event with
  | bind role =>
    have flow := sound.flow role
    have flowPeer := sound.flow_peer role
    simp only [step]
    split_ifs
    · exact ⟨sent, sound⟩
    · exact ⟨sent, sound.keep
        ⟨flow.wire, flow.bounded, flow.decoded, flow.admitted, flow.fallback, flow.idle⟩
        (flowPeer.sender_changes (.refl _) rfl id) ⟨rfl, rfl, rfl, rfl⟩ sound.stage (fun _ => rfl)
        (sound.intact role)⟩
  | send role signal =>
    refine sound_sendSignal sound careful fun known => reads _ ?_
    exact List.mem_filter.mpr ⟨List.mem_singleton_self _, known⟩
  | start =>
    simp only [step]
    split_ifs
    · exact ⟨sent, sound⟩
    · have versioned : requestSignal.versioned = requestSignal := by decide
      refine sound_sendSignal sound calm_request fun _ => ?_
      rw [versioned]
      exact reads requestSignal (List.mem_singleton_self _)
  | fallback role event =>
    simp only [step]
    split_ifs with active
    · exact ⟨sent, sound_stepWriter sound (careful active) fun idle => by
        cases active.symm.trans idle⟩
    · exact ⟨sent, sound⟩
  | read role now handled => exact sound_read sound careful
  | acknowledge role =>
    exact sound_acknowledge sound role (reads readySignal (List.mem_singleton_self _))
  | activate role => exact ⟨sent, sound_activate sound role⟩
  | close role => exact ⟨sent, sound_stepWriter sound trivial fun _ => rfl⟩

theorem exists_sound (events : List SwitchEvent) (sound : w.Sound decode sent)
    (reads : ∀ event ∈ events, ∀ signal ∈ event.signals, decode (encodeSignal signal) = some signal)
    (meets : Meets (step decode) (Careful decode) w events) :
    ∃ sent', (run (step decode) w events).Sound decode sent' := by
  induction events generalizing w sent with
  | nil => exact ⟨sent, sound⟩
  | cons event rest ih =>
    obtain ⟨next, kept⟩ := sound_step sound (reads event List.mem_cons_self) meets.1
    exact ih kept (fun later inside => reads later (List.mem_cons_of_mem event inside)) meets.2

/-! ### The switch -/

/-- No record made an end fail; and when all is read, each end has activated the fallback exactly if
the client has requested it. -/
structure Switches (w : SwitchWorld) : Prop where
  intact : ∀ role, (w.ends role).failure = none
  together : (∀ role, w.wire role = []) → (w.ends .host).phase = .reading →
    ∀ role, (w.ends role).fallbackActive = (w.ends .client).sendState.fallback

theorem Sound.switches (sound : w.Sound decode sent) : w.Switches where
  intact := sound.intact
  together := by
    intro read reading role
    have nothing (role : Role) : sent role = [] := by
      have flow := sound.flow role
      rw [read role] at flow
      exact flow.sent_eq_nil
    have standing : (w.ends .client).fallbackActive = (w.ends .client).sendState.fallback ∧
        (w.ends .host).fallbackActive = (w.ends .client).sendState.fallback := by
      cases sound.stage with
      | quiet standing =>
        exact ⟨standing.client.trans standing.requested.symm,
          standing.host.trans standing.requested.symm⟩
      | requested before request standing last =>
        rw [nothing .host] at last
        cases before <;> cases last
      | received standing => cases reading.symm.trans standing.phase
      | answered before ready phase active standing switching empty last =>
        rw [nothing .client] at last
        cases before <;> cases last
      | switched phase active standing switching =>
        refine ⟨standing.client.trans standing.requested.symm, ?_⟩
        rcases switching with ⟨rfl, _⟩ | ⟨_, rfl⟩
        · cases reading.symm.trans standing.phase
        · exact standing.host.trans standing.requested.symm
    cases role with
    | client => exact standing.1
    | host => exact standing.2

/-- **The switch is safe**, when no signal follows the request of the client and none the
acknowledgement of the host, when the fallback's writers give up no message half-way, and when every
record is read in time by an end that can take it. -/
theorem switches_of_meets (decode : Bytes → Option Signal) (events : List SwitchEvent)
    (reads : ∀ event ∈ events, ∀ signal ∈ event.signals, decode (encodeSignal signal) = some signal)
    (meets : Meets (step decode) (Careful decode) start events) :
    (run (step decode) start events).Switches := by
  obtain ⟨sent, sound⟩ := exists_sound events (sound_start decode) reads meets
  exact sound.switches

/-- What `encoding/json` reads of four signals. -/
def readsSamples (payload : Bytes) : Option Signal :=
  [requestSignal, readySignal, ⟨signalVersion, .offer, "sdp"⟩, ⟨signalVersion, .iceEnd, ""⟩].find?
    fun signal => decide (encodeSignal signal = payload)

/-- An offer, the switch, and a frame of the client before the host has activated. -/
def orderly : List SwitchEvent :=
  [.bind .host, .bind .client, .send .client ⟨0, .offer, "sdp"⟩, .start, .read .host 0 true,
    .read .host 0 true, .send .host ⟨1, .iceEnd, ""⟩, .acknowledge .host, .read .client 0 true,
    .read .client 0 true, .fallback .client (.send ⟨.frame [7], 1, _, rfl⟩),
    .fallback .client (.append 0), .fallback .client (.advance false),
    .fallback .client (.advance false), .activate .host, .read .host 0 true]

theorem orderly_switches : (run (step readsSamples) start orderly).Switches ∧
    ((run (step readsSamples) start orderly).ends .host).delivered =
      [.record RecordKind.frame [7]] :=
  ⟨switches_of_meets readsSamples orderly (by decide) (by decide),
    by decide⟩

/-- A client ends its candidates after the request. -/
def candidatesEndLate : List SwitchEvent :=
  [.bind .host, .bind .client, .start, .send .client ⟨1, .iceEnd, ""⟩, .read .host 0 true,
    .acknowledge .host, .activate .host, .read .host 0 true]

/-- A host ends its candidates between the acknowledgement and the activation. -/
def candidatesEndBetween : List SwitchEvent :=
  [.bind .host, .bind .client, .start, .read .host 0 true, .acknowledge .host,
    .send .host ⟨1, .iceEnd, ""⟩, .activate .host, .read .client 0 true, .read .client 0 true]

/-- **A signal crosses the switch**, and ends the reading of the other end. -/
theorem signal_crosses_the_switch :
    ((run (step readsSamples) start candidatesEndLate).ends .host).failure =
        some (.kind RecordKind.signal) ∧
      ((run (step readsSamples) start candidatesEndBetween).ends .client).failure =
        some (.kind RecordKind.signal) ∧
      ¬(run (step readsSamples) start candidatesEndLate).Switches := by
  have host : ((run (step readsSamples) start candidatesEndLate).ends .host).failure =
      some (.kind RecordKind.signal) := by decide
  refine ⟨host, by decide, fun switches => ?_⟩
  rw [switches.intact .host] at host
  cases host

end SwitchWorld

end Atterm.Transport
