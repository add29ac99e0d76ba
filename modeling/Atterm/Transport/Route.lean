/-
**Handing a terminal over between routes.**

A `RouteTracker` keeps one output cursor and one input writer while a session moves between the
relay and a direct connection. Adapters carry the generation they were opened under. The tracker is
the same on both sides of the repository but for the type of its generations, which stays a
parameter.

* `Handover.invariant_step` — what one call keeps of the cursor and the two streams;
* `handover_gapless` — the accepted outputs of every run are consecutive;
* `early_direct_gap` — a direct stream that delivers before its replay has begun leaves a gap.
-/

import Atterm.Foundation.Runs

namespace Atterm.Transport

open Atterm.Foundation

/-- The terminal byte path. -/
inductive Route where
  | none
  | relay
  | direct
deriving DecidableEq, Repr

inductive RouteState where
  | relayAttached
  | directConnecting
  | directReplay
  | directActive
  | relayReattaching
deriving DecidableEq, Repr

/-- `ErrInvalidRouteTransition`, with what each call reports. -/
inductive RouteError (γ : Type) where
  | beginDirect (state : RouteState)
  | beginReplay (generation : γ) (state : RouteState)
  | ready (generation : γ) (replayed start : ℕ) (state : RouteState)
  | activate (generation : γ) (directObserved committed : ℕ) (ready : Bool) (state : RouteState)
  | abort (generation : γ) (state : RouteState)
  | directLost (generation : γ) (state : RouteState)
  | relayAttached (generation : γ) (state : RouteState)
deriving DecidableEq, Repr

/-- One output cursor and one input writer across the overlap of two routes. -/
structure RouteTracker (γ : Type) where
  state : RouteState
  generation : γ
  committedSeq : ℕ
  directStartSeq : ℕ
  directObservedSeq : ℕ
  directReady : Bool
deriving DecidableEq, Repr

namespace RouteTracker

variable {γ : Type}

/-- Start from an attached relay and its committed cursor. -/
def new [OfNat γ 1] (committedSeq : ℕ) : RouteTracker γ :=
  ⟨.relayAttached, 1, committedSeq, 0, 0, false⟩

variable (r : RouteTracker γ) (generation : γ)

/-- Start an attempt while the relay remains the writer. -/
def beginDirect : Except (RouteError γ) γ × RouteTracker γ :=
  if r.state ≠ .relayAttached then (.error (.beginDirect r.state), r)
  else (.ok r.generation,
    { r with
      state := .directConnecting
      directStartSeq := r.committedSeq
      directObservedSeq := r.committedSeq
      directReady := false })

/-- Admit output from both routes; input stays with the relay. -/
def beginDirectReplay [DecidableEq γ] : Except (RouteError γ) Unit × RouteTracker γ :=
  if generation ≠ r.generation ∨ r.state ≠ .directConnecting then
    (.error (.beginReplay generation r.state), r)
  else (.ok (), { r with state := .directReplay })

/-- Record the end of the direct subscriber's initial replay. -/
def noteDirectReady [DecidableEq γ] (replayedSeq : ℕ) : Except (RouteError γ) Unit × RouteTracker γ :=
  if generation ≠ r.generation ∨ r.state ≠ .directReplay ∨ replayedSeq < r.directStartSeq then
    (.error (.ready generation replayedSeq r.directStartSeq r.state), r)
  else (.ok (),
    { r with
      directObservedSeq :=
        if r.directObservedSeq < replayedSeq then replayedSeq else r.directObservedSeq
      directReady := true })

/-- The direct route has observed every sequence committed from the relay. -/
def canActivateDirect [DecidableEq γ] : Bool :=
  decide (generation = r.generation) && decide (r.state = .directReplay) && r.directReady &&
    decide (r.committedSeq ≤ r.directObservedSeq)

/-- Switch the sole input writer after the direct route has caught up. -/
def activateDirect [DecidableEq γ] : Except (RouteError γ) Unit × RouteTracker γ :=
  if r.canActivateDirect generation = false then
    (.error (.activate generation r.directObservedSeq r.committedSeq r.directReady r.state), r)
  else (.ok (), { r with state := .directActive })

/-- Keep the relay when the setup fails before the switch. -/
def abortDirect [DecidableEq γ] [Add γ] [OfNat γ 1] :
    Except (RouteError γ) Unit × RouteTracker γ :=
  if generation ≠ r.generation ∨ (r.state ≠ .directConnecting ∧ r.state ≠ .directReplay) then
    (.error (.abort generation r.state), r)
  else (.ok (), { r with generation := r.generation + 1, state := .relayAttached })

/-- Invalidate old callbacks and freeze the input until the relay is attached again. -/
def directLost [DecidableEq γ] [Add γ] [OfNat γ 1] :
    Except (RouteError γ) γ × RouteTracker γ :=
  if generation ≠ r.generation ∨ r.state ≠ .directActive then
    (.error (.directLost generation r.state), r)
  else (.ok (r.generation + 1),
    { r with generation := r.generation + 1, state := .relayReattaching })

/-- Complete the fallback from the committed cursor. -/
def relayAttached [DecidableEq γ] : Except (RouteError γ) Unit × RouteTracker γ :=
  if generation ≠ r.generation ∨ r.state ≠ .relayReattaching then
    (.error (.relayAttached generation r.state), r)
  else (.ok (), { r with state := .relayAttached })

def inputRoute : Route :=
  match r.state with
  | .relayAttached => .relay
  | .directConnecting => .relay
  | .directReplay => .relay
  | .directActive => .direct
  | .relayReattaching => .none

def admits : RouteState → Route → Bool
  | .relayAttached, route => decide (route = .relay)
  | .directConnecting, route => decide (route = .relay)
  | .relayReattaching, route => decide (route = .relay)
  | .directReplay, route => decide (route = .relay ∨ route = .direct)
  | .directActive, route => decide (route = .direct)

/-- Commit a new sequence once; `false` is a stale route, an inactive one or a duplicate. -/
def acceptOutput [DecidableEq γ] (route : Route) (seq : ℕ) : Bool × RouteTracker γ :=
  if generation ≠ r.generation ∨ seq = 0 then (false, r)
  else if admits r.state route = false then (false, r)
  else
    let observed :=
      if route = .direct ∧ r.state = .directReplay ∧ r.directObservedSeq < seq then
        { r with directObservedSeq := seq }
      else r
    if seq ≤ observed.committedSeq then (false, observed)
    else (true, { observed with committedSeq := seq })

end RouteTracker

/-! ### Calls and streams -/

inductive RouteCall (γ : Type) where
  | beginDirect
  | beginDirectReplay (generation : γ)
  | noteDirectReady (generation : γ) (replayedSeq : ℕ)
  | activateDirect (generation : γ)
  | abortDirect (generation : γ)
  | directLost (generation : γ)
  | relayAttached (generation : γ)
  | acceptOutput (generation : γ) (route : Route) (seq : ℕ)

def RouteCall.generation? {γ : Type} : RouteCall γ → Option γ
  | .beginDirect => none
  | .beginDirectReplay generation => some generation
  | .noteDirectReady generation _ => some generation
  | .activateDirect generation => some generation
  | .abortDirect generation => some generation
  | .directLost generation => some generation
  | .relayAttached generation => some generation
  | .acceptOutput generation _ _ => some generation

/-- A tracker with the sequence each stream has delivered last and the outputs accepted so far. -/
structure Handover (γ : Type) where
  tracker : RouteTracker γ
  relaySeq : ℕ
  directSeq : ℕ
  outputs : List ℕ
deriving DecidableEq, Repr

variable {γ : Type}

def RouteTracker.call [DecidableEq γ] [Add γ] [OfNat γ 1] (r : RouteTracker γ) :
    RouteCall γ → RouteTracker γ
  | .beginDirect => r.beginDirect.2
  | .beginDirectReplay generation => (r.beginDirectReplay generation).2
  | .noteDirectReady generation replayedSeq => (r.noteDirectReady generation replayedSeq).2
  | .activateDirect generation => (r.activateDirect generation).2
  | .abortDirect generation => (r.abortDirect generation).2
  | .directLost generation => (r.directLost generation).2
  | .relayAttached generation => (r.relayAttached generation).2
  | .acceptOutput generation route seq => (r.acceptOutput generation route seq).2

namespace Handover

def new [OfNat γ 1] (committedSeq : ℕ) : Handover γ :=
  ⟨.new committedSeq, committedSeq, committedSeq, []⟩

/-- One call. A direct attempt is offered the committed cursor; after a fallback the relay resumes
from it. -/
def step [DecidableEq γ] [Add γ] [OfNat γ 1] (h : Handover γ) (call : RouteCall γ) : Handover γ :=
  let tracker := h.tracker.call call
  match call with
  | .beginDirect =>
    { h with
      tracker := tracker
      directSeq := if h.tracker.state = .relayAttached then h.tracker.committedSeq
        else h.directSeq }
  | .directLost generation =>
    { h with
      tracker := tracker
      relaySeq := if generation = h.tracker.generation ∧ h.tracker.state = .directActive then
        h.tracker.committedSeq else h.relaySeq }
  | .acceptOutput generation route seq =>
    { tracker := tracker
      relaySeq := if generation = h.tracker.generation ∧ route = .relay then seq else h.relaySeq
      directSeq := if generation = h.tracker.generation ∧ route = .direct then seq
        else h.directSeq
      outputs := if (h.tracker.acceptOutput generation route seq).1 then h.outputs ++ [seq]
        else h.outputs }
  | _ => { h with tracker := tracker }

def Attempting (h : Handover γ) : Prop :=
  h.tracker.state = .directConnecting ∨ h.tracker.state = .directReplay ∨
    h.tracker.state = .directActive

instance (h : Handover γ) : Decidable h.Attempting := inferInstanceAs (Decidable (_ ∨ _ ∨ _))

/-- Each stream delivers consecutive sequences; calls of other generations are arbitrary. -/
def Consecutive (h : Handover γ) : RouteCall γ → Prop
  | .acceptOutput generation route seq => generation = h.tracker.generation →
      (route = .relay → seq = h.relaySeq + 1) ∧
        (route = .direct → h.Attempting → seq = h.directSeq + 1)
  | _ => True

instance [DecidableEq γ] (h : Handover γ) : (call : RouteCall γ) → Decidable (h.Consecutive call)
  | .acceptOutput _ _ _ => inferInstanceAs (Decidable (_ → _ ∧ (_ → _ → _)))
  | .beginDirect | .beginDirectReplay _ | .noteDirectReady _ _ | .activateDirect _
  | .abortDirect _ | .directLost _ | .relayAttached _ => inferInstanceAs (Decidable True)

/-- The direct stream delivers nothing before its replay has begun. -/
def Replayed (h : Handover γ) : RouteCall γ → Prop
  | .acceptOutput generation route _ => generation = h.tracker.generation → route = .direct →
      h.tracker.state ≠ .directConnecting
  | _ => True

instance [DecidableEq γ] (h : Handover γ) : (call : RouteCall γ) → Decidable (h.Replayed call)
  | .acceptOutput _ _ _ => inferInstanceAs (Decidable (_ → _ → _))
  | .beginDirect | .beginDirectReplay _ | .noteDirectReady _ _ | .activateDirect _
  | .abortDirect _ | .directLost _ | .relayAttached _ => inferInstanceAs (Decidable True)

/-! ### What a call keeps -/

/-- The cursor has reached both streams while they are admitted, and the outputs lead up to it. -/
structure Invariant (start : ℕ) (h : Handover γ) : Prop where
  outputs : h.outputs = List.range' (start + 1) h.outputs.length
  committed : h.tracker.committedSeq = start + h.outputs.length
  relay : h.tracker.state ≠ .directActive → h.relaySeq ≤ h.tracker.committedSeq
  direct : h.Attempting → h.directSeq ≤ h.tracker.committedSeq

theorem invariant_new [OfNat γ 1] (start : ℕ) : Invariant start (new start : Handover γ) :=
  ⟨rfl, rfl, fun _ => le_rfl, fun _ => le_rfl⟩

/-- **What `AcceptOutput` can do**: leave the cursor, or commit a sequence of the current generation
on a route that is admitted. -/
theorem acceptOutput_cases [DecidableEq γ] (r : RouteTracker γ) (generation : γ) (route : Route) (seq : ℕ) :
    (generation ≠ r.generation ∧ r.acceptOutput generation route seq = (false, r)) ∨
      (generation = r.generation ∧ ∃ observed,
        ((seq = 0 ∨ RouteTracker.admits r.state route = false ∨ seq ≤ r.committedSeq) ∧
          r.acceptOutput generation route seq = (false, { r with directObservedSeq := observed })) ∨
        (RouteTracker.admits r.state route = true ∧ r.committedSeq < seq ∧
          r.acceptOutput generation route seq =
            (true, { r with directObservedSeq := observed, committedSeq := seq }))) := by
  by_cases current : generation = r.generation
  · refine Or.inr ⟨current, ?_⟩
    unfold RouteTracker.acceptOutput
    by_cases zero : seq = 0
    · exact ⟨r.directObservedSeq, Or.inl ⟨Or.inl zero, by rw [if_pos (Or.inr zero)]⟩⟩
    · rw [if_neg (by simp [current, zero])]
      cases admitted : RouteTracker.admits r.state route with
      | false => exact ⟨r.directObservedSeq, Or.inl ⟨Or.inr (Or.inl rfl), by simp⟩⟩
      | true =>
        simp only [Bool.true_eq_false, if_false]
        split_ifs with later below below
        · exact ⟨seq, Or.inl ⟨Or.inr (Or.inr below), rfl⟩⟩
        · exact ⟨seq, Or.inr ⟨trivial, not_le.mp below, rfl⟩⟩
        · exact ⟨r.directObservedSeq, Or.inl ⟨Or.inr (Or.inr below), rfl⟩⟩
        · exact ⟨r.directObservedSeq, Or.inr ⟨trivial, not_le.mp below, rfl⟩⟩
  · exact Or.inl ⟨current, by rw [RouteTracker.acceptOutput, if_pos (Or.inl current)]⟩

theorem admits_relay {state : RouteState} :
    RouteTracker.admits state .relay = true ↔ state ≠ .directActive := by
  cases state <;> decide

theorem admits_direct {state : RouteState} : RouteTracker.admits state .direct = true ↔
    state = .directReplay ∨ state = .directActive := by
  cases state <;> decide

theorem Invariant.rejected {start : ℕ} {h : Handover γ} (invariant : Invariant start h)
    {route : Route} {seq observed : ℕ}
    (consecutive : h.Consecutive (.acceptOutput h.tracker.generation route seq))
    (replayed : h.Replayed (.acceptOutput h.tracker.generation route seq))
    (rejected : seq = 0 ∨ RouteTracker.admits h.tracker.state route = false ∨
      seq ≤ h.tracker.committedSeq) :
    Invariant start { h with
      tracker := { h.tracker with directObservedSeq := observed }
      relaySeq := if route = .relay then seq else h.relaySeq
      directSeq := if route = .direct then seq else h.directSeq } := by
  obtain ⟨relay, direct⟩ := consecutive rfl
  refine ⟨invariant.outputs, invariant.committed, fun inactive => ?_, fun attempting => ?_⟩
  · simp only
    split_ifs with same
    · subst same
      have next := relay rfl
      rcases rejected with zero | refused | below
      · omega
      · rw [admits_relay.mpr inactive] at refused
        cases refused
      · exact below
    · exact invariant.relay inactive
  · simp only
    split_ifs with same
    · subst same
      have next := direct rfl attempting
      rcases rejected with zero | refused | below
      · omega
      · -- the replay has begun, so the direct route is admitted
        have begun : h.tracker.state = .directReplay ∨ h.tracker.state = .directActive :=
          attempting.resolve_left (replayed rfl rfl)
        rw [admits_direct.mpr begun] at refused
        cases refused
      · exact below
    · exact invariant.direct attempting

theorem Invariant.accepted {start : ℕ} {h : Handover γ} (invariant : Invariant start h)
    {route : Route} {seq observed : ℕ}
    (consecutive : h.Consecutive (.acceptOutput h.tracker.generation route seq))
    (admitted : RouteTracker.admits h.tracker.state route = true)
    (above : h.tracker.committedSeq < seq) :
    Invariant start
      { tracker := { h.tracker with directObservedSeq := observed, committedSeq := seq }
        relaySeq := if route = .relay then seq else h.relaySeq
        directSeq := if route = .direct then seq else h.directSeq
        outputs := h.outputs ++ [seq] } := by
  obtain ⟨relay, direct⟩ := consecutive rfl
  have next : seq = h.tracker.committedSeq + 1 := by
    cases route with
    | none => cases state : h.tracker.state <;> simp [state, RouteTracker.admits] at admitted
    | relay =>
      have behind := invariant.relay (admits_relay.mp admitted)
      have following := relay rfl
      omega
    | direct =>
      have attempting : h.Attempting := Or.inr (admits_direct.mp admitted)
      have behind := invariant.direct attempting
      have following := direct rfl attempting
      omega
  have committed := invariant.committed
  refine ⟨?_, ?_, fun inactive => ?_, fun attempting => ?_⟩
  · have last : seq = start + 1 + h.outputs.length := by omega
    have before := invariant.outputs
    rw [List.length_append, List.length_singleton, List.range'_concat, ← before, last]
    simp
  · simp only [List.length_append, List.length_singleton]
    omega
  · simp only
    split_ifs
    · exact le_rfl
    · exact (invariant.relay inactive).trans above.le
  · simp only
    split_ifs
    · exact le_rfl
    · exact (invariant.direct attempting).trans above.le

variable [DecidableEq γ] [Add γ] [OfNat γ 1]

/-- **What one call keeps**, if the streams are consecutive and a direct stream waits for its
replay. -/
theorem invariant_step {start : ℕ} {h : Handover γ} (invariant : Invariant start h)
    (call : RouteCall γ) (consecutive : h.Consecutive call) (replayed : h.Replayed call) :
    Invariant start (h.step call) := by
  cases call with
  | beginDirect =>
    simp only [step, RouteTracker.call, RouteTracker.beginDirect]
    by_cases attached : h.tracker.state = .relayAttached
    · rw [if_neg (by simpa using attached), if_pos attached]
      exact ⟨invariant.outputs, invariant.committed,
        fun _ => invariant.relay (by rw [attached]; decide), fun _ => le_rfl⟩
    · rw [if_pos attached, if_neg attached]
      exact invariant
  | beginDirectReplay generation =>
    simp only [step, RouteTracker.call, RouteTracker.beginDirectReplay]
    split_ifs with refused
    · exact invariant
    · push Not at refused
      exact ⟨invariant.outputs, invariant.committed,
        fun _ => invariant.relay (by rw [refused.2]; decide),
        fun _ => invariant.direct (Or.inl refused.2)⟩
  | noteDirectReady generation replayedSeq =>
    simp only [step, RouteTracker.call, RouteTracker.noteDirectReady]
    split_ifs with refused
    · exact invariant
    · exact ⟨invariant.outputs, invariant.committed, invariant.relay, invariant.direct⟩
    · exact ⟨invariant.outputs, invariant.committed, invariant.relay, invariant.direct⟩
  | activateDirect generation =>
    simp only [step, RouteTracker.call, RouteTracker.activateDirect]
    split_ifs with refused
    · exact invariant
    · have replaying : h.tracker.state = .directReplay := by
        simp only [RouteTracker.canActivateDirect, Bool.not_eq_false, Bool.and_eq_true,
          decide_eq_true_eq] at refused
        exact refused.1.1.2
      exact ⟨invariant.outputs, invariant.committed, fun inactive => absurd rfl inactive,
        fun _ => invariant.direct (Or.inr (Or.inl replaying))⟩
  | abortDirect generation =>
    simp only [step, RouteTracker.call, RouteTracker.abortDirect]
    split_ifs with refused
    · exact invariant
    · refine ⟨invariant.outputs, invariant.committed, fun _ => invariant.relay fun active => ?_,
        fun attempting => ?_⟩
      · exact refused (Or.inr (by rw [active]; decide))
      · rcases attempting with wrong | wrong | wrong <;> cases wrong
  | directLost generation =>
    simp only [step, RouteTracker.call, RouteTracker.directLost]
    by_cases lost : generation = h.tracker.generation ∧ h.tracker.state = .directActive
    · rw [if_neg (by simpa using lost), if_pos lost]
      refine ⟨invariant.outputs, invariant.committed, fun _ => le_rfl, fun attempting => ?_⟩
      rcases attempting with wrong | wrong | wrong <;> cases wrong
    · rw [if_pos (by tauto), if_neg lost]
      exact invariant
  | relayAttached generation =>
    simp only [step, RouteTracker.call, RouteTracker.relayAttached]
    split_ifs with refused
    · exact invariant
    · push Not at refused
      refine ⟨invariant.outputs, invariant.committed,
        fun _ => invariant.relay (by rw [refused.2]; decide), fun attempting => ?_⟩
      rcases attempting with wrong | wrong | wrong <;> cases wrong
  | acceptOutput generation route seq =>
    simp only [step, RouteTracker.call]
    rcases acceptOutput_cases h.tracker generation route seq with
      ⟨stale, same⟩ | ⟨rfl, observed, ⟨rejected, same⟩ | ⟨admitted, above, same⟩⟩
    · rw [same]
      simpa [stale] using invariant
    · rw [same]
      simpa using invariant.rejected consecutive replayed rejected
    · rw [same]
      simpa using invariant.accepted consecutive admitted above

theorem invariant_run {start : ℕ} {calls : List (RouteCall γ)}
    (meets : Meets step (fun h call => Consecutive h call ∧ Replayed h call) (new start) calls) :
    Invariant start (run step (new start : Handover γ) calls) :=
  run_invariant_of_meets (Invariant start)
    (fun _ call invariant condition => invariant_step invariant call condition.1 condition.2)
    (invariant_new start) meets

/-! ### Any streams -/

/-- **What a call does to the outputs**: nothing, or add one above the cursor. -/
theorem step_outputs (h : Handover γ) (call : RouteCall γ) :
    ((h.step call).outputs = h.outputs ∧
        (h.step call).tracker.committedSeq = h.tracker.committedSeq) ∨
      ∃ seq, h.tracker.committedSeq < seq ∧ (h.step call).outputs = h.outputs ++ [seq] ∧
        (h.step call).tracker.committedSeq = seq := by
  cases call with
  | acceptOutput generation route seq =>
    simp only [step, RouteTracker.call]
    rcases acceptOutput_cases h.tracker generation route seq with
      ⟨-, same⟩ | ⟨rfl, observed, ⟨-, same⟩ | ⟨-, above, same⟩⟩
    · rw [same]
      exact .inl ⟨rfl, rfl⟩
    · rw [same]
      exact .inl ⟨rfl, rfl⟩
    · rw [same]
      exact .inr ⟨seq, above, rfl, rfl⟩
  | _ =>
    refine .inl ⟨rfl, ?_⟩
    simp only [step, RouteTracker.call, RouteTracker.beginDirect, RouteTracker.beginDirectReplay,
      RouteTracker.noteDirectReady, RouteTracker.activateDirect, RouteTracker.abortDirect,
      RouteTracker.directLost, RouteTracker.relayAttached]
    split_ifs <;> rfl

structure Increasing (start : ℕ) (h : Handover γ) : Prop where
  ordered : (start :: h.outputs).Pairwise (· < ·)
  last : h.tracker.committedSeq = (h.outputs.getLast?).getD start
  below : ∀ seq ∈ start :: h.outputs, seq ≤ h.tracker.committedSeq

theorem increasing_step {start : ℕ} {h : Handover γ} (increasing : Increasing start h)
    (call : RouteCall γ) : Increasing start (h.step call) := by
  rcases step_outputs h call with ⟨outputs, committed⟩ | ⟨seq, above, outputs, committed⟩
  · exact ⟨outputs ▸ increasing.ordered, by rw [outputs, committed, increasing.last],
      by rw [outputs, committed]; exact increasing.below⟩
  · have below : ∀ other ∈ start :: h.outputs, other < seq := fun other inside =>
      (increasing.below other inside).trans_lt above
    refine ⟨?_, ?_, ?_⟩
    · rw [outputs, ← List.cons_append, List.pairwise_append]
      refine ⟨increasing.ordered, List.pairwise_singleton _ _, fun other inside last here => ?_⟩
      cases List.mem_singleton.mp here
      exact below other inside
    · rw [outputs, committed, List.getLast?_concat]
      rfl
    · rw [outputs, committed, ← List.cons_append]
      intro other inside
      rcases List.mem_append.mp inside with before | here
      · exact (below other before).le
      · exact (List.mem_singleton.mp here).le

/-- **No output is shown twice or out of order**, whatever either stream delivers: lost, repeated and
reordered sequences, stale generations and attempts at any time. -/
theorem outputs_increase (start : ℕ) (calls : List (RouteCall γ)) :
    (start :: (run step (new start : Handover γ) calls).outputs).Pairwise (· < ·) ∧
      (run step (new start : Handover γ) calls).tracker.committedSeq =
        ((run step (new start : Handover γ) calls).outputs.getLast?).getD start := by
  have started : Increasing start (new start : Handover γ) :=
    ⟨List.pairwise_singleton _ _, rfl, fun seq inside => (List.mem_singleton.mp inside).le⟩
  have kept := run_invariant (Increasing start) (fun _ call increasing => increasing_step increasing call)
    started calls
  exact ⟨kept.ordered, kept.last⟩

end Handover

def RouteTracker.Writes (r : RouteTracker γ) (route : Route) : Prop :=
  route ≠ .none ∧ r.inputRoute = route

theorem RouteTracker.call_stale [DecidableEq γ] [Add γ] [OfNat γ 1] {r : RouteTracker γ}
    {call : RouteCall γ} {generation : γ} (carries : call.generation? = some generation)
    (stale : generation ≠ r.generation) : r.call call = r := by
  cases call with
  | beginDirect => cases carries
  | beginDirectReplay other =>
    cases carries
    rw [call, beginDirectReplay, if_pos (Or.inl stale)]
  | noteDirectReady other replayedSeq =>
    cases carries
    rw [call, noteDirectReady, if_pos (Or.inl stale)]
  | activateDirect other =>
    cases carries
    rw [call, activateDirect, if_pos (by simp [canActivateDirect, stale])]
  | abortDirect other =>
    cases carries
    rw [call, abortDirect, if_pos (Or.inl stale)]
  | directLost other =>
    cases carries
    rw [call, directLost, if_pos (Or.inl stale)]
  | relayAttached other =>
    cases carries
    rw [call, relayAttached, if_pos (Or.inl stale)]
  | acceptOutput other route seq =>
    cases carries
    rw [call, acceptOutput, if_pos (Or.inl stale)]

/-- **Handover is gapless.** In every run of a tracker in which the relay stream and each direct
stream deliver consecutive sequences, and a direct stream delivers none before its replay has begun:
the accepted outputs are the consecutive sequences after the first cursor, at most one route may
write input, and a call of a stale generation changes nothing. -/
theorem handover_gapless {start : ℕ} {calls : List (RouteCall UInt64)}
    (meets : Meets Handover.step (fun h call => Handover.Consecutive h call ∧ h.Replayed call)
      (.new start) calls) {h : Handover UInt64} (reached : run Handover.step (.new start) calls = h) :
    h.outputs = List.range' (start + 1) h.outputs.length ∧
      h.tracker.committedSeq = start + h.outputs.length ∧
      (∀ first second, h.tracker.Writes first → h.tracker.Writes second → first = second) ∧
      ∀ (call : RouteCall UInt64) generation, call.generation? = some generation →
        generation ≠ h.tracker.generation → h.tracker.call call = h.tracker := by
  have invariant := Handover.invariant_run meets
  rw [reached] at invariant
  refine ⟨invariant.outputs, invariant.committed, fun first second one other => ?_,
    fun call generation carries stale => RouteTracker.call_stale carries stale⟩
  exact one.2.symm.trans other.2

/-- The relay and a direct stream overlap, the direct route takes over and is lost again. -/
def overlapCalls : List (RouteCall UInt64) :=
  [.acceptOutput 1 .relay 1, .beginDirect, .acceptOutput 1 .relay 2, .beginDirectReplay 1,
    .acceptOutput 1 .direct 2, .acceptOutput 1 .direct 3, .acceptOutput 1 .relay 3,
    .noteDirectReady 1 3, .activateDirect 1, .acceptOutput 1 .relay 4, .acceptOutput 1 .direct 4,
    .directLost 1, .acceptOutput 1 .direct 5, .acceptOutput 2 .relay 5, .relayAttached 2]

theorem handover_gapless_overlap :
    (run Handover.step (.new 0) overlapCalls).outputs = [1, 2, 3, 4, 5] := by
  have meets : Meets Handover.step
      (fun h call => Handover.Consecutive h call ∧ h.Replayed call) (.new 0) overlapCalls := by
    decide
  have gapless := (handover_gapless meets rfl).1
  have length : (run Handover.step (.new 0) overlapCalls).outputs.length = 5 := by decide
  rw [length] at gapless
  exact gapless

/-- **A direct stream that delivers before its replay has begun leaves a gap**: its first output is
dropped, and its second is committed without it. -/
theorem early_direct_gap :
    let calls : List (RouteCall UInt64) :=
      [.beginDirect, .acceptOutput 1 .direct 1, .beginDirectReplay 1, .acceptOutput 1 .direct 2]
    Meets Handover.step Handover.Consecutive (.new 0) calls ∧
      (run Handover.step (.new 0) calls).outputs = [2] := by
  decide

end Atterm.Transport
