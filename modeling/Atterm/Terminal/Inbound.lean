/-
**Input to a session that ends.**

`SendInbound` offers a frame to the channel of the agent, an input frame under the lock of the session and any
other frame without it. `Close` sets the closed flag and closes the channel under that lock. Any number of
calls take their steps in any order.

* `InboundWorld.step` — one step of one call, a receive, or a new size of the terminal;
* `InboundWorld.Safe` — no call has panicked, and none that began after a `Close` has sent;
* `InboundWorld.safe_iff_careful` — the runs that are safe.
-/

import Atterm.Foundation.Channel
import Atterm.Foundation.Runs

namespace Atterm.Terminal

open Atterm.Foundation

/-- `proto.Frame`: whether its type is `TypeIn`, and its payload. -/
structure InboundFrame where
  typeIn : Bool
  payload : List UInt8
deriving DecidableEq, Repr

def inboundQueueDepth : ℕ := 64

inductive CallState where
  | input (f : InboundFrame)         -- `SendInbound` of an input frame, before `mu.Lock`
  | inputLocked (f : InboundFrame)   -- before the `select`
  | accepted                         -- before `mu.Unlock` and `onInput`
  | refused                          -- before `mu.Unlock`
  | other (f : InboundFrame)         -- `SendInbound` of any other frame, before the `select`
  | closing                          -- `Close`, before `mu.Lock`
  | marked                           -- before `close(s.inbound)`
  | unlocking                        -- before `mu.Unlock`
  | sent (ok : Bool)                 -- `SendInbound` has returned
  | done                             -- `Close` has returned
  | panicked
deriving DecidableEq, Repr

/-- A `SendInbound` that has not come to its `select` yet. -/
def CallState.sending : CallState → Bool
  | input _ => true
  | inputLocked _ => true
  | other _ => true
  | _ => false

def CallState.isOver : CallState → Bool
  | sent _ => true
  | done => true
  | panicked => true
  | _ => false

/-- The session, its lock, and the calls. `late` are the calls that began after a `Close` had returned. -/
structure InboundWorld where
  inbound : Channel InboundFrame
  closed : Bool
  lastResizeMono : Option ℤ
  onInputs : ℕ
  mu : Option ℕ
  calls : ℕ → Option CallState
  late : ℕ → Prop

inductive InboundStep where
  | sendInbound (call : ℕ) (f : InboundFrame)
  | close (call : ℕ)
  | advance (call : ℕ)
  | receive
  | updateSize (now : ℤ)
deriving DecidableEq, Repr

namespace InboundWorld

def start : InboundWorld where
  inbound := .make inboundQueueDepth
  closed := false
  lastResizeMono := none
  onInputs := 0
  mu := none
  calls := fun _ => none
  late := fun _ => False

def move (w : InboundWorld) (call : ℕ) (state : CallState) : InboundWorld :=
  { w with calls := Function.update w.calls call (some state) }

/-- A call waits for the lock, and goes on when it has it. -/
def lock (w : InboundWorld) (call : ℕ) (state : CallState) : InboundWorld :=
  if w.mu = none then { w.move call state with mu := some call } else w

def unlock (w : InboundWorld) (call : ℕ) (state : CallState) : InboundWorld :=
  { w.move call state with mu := none }

/-- The `select` of an input frame. -/
def offerInput (w : InboundWorld) (call : ℕ) (f : InboundFrame) : InboundWorld :=
  match w.inbound.offer f with
  | .sent inbound => { w.move call .accepted with inbound := inbound, lastResizeMono := none }
  | .full => w.move call .refused
  | .panics => w.move call .panicked

/-- The `select` of any other frame. -/
def offerOther (w : InboundWorld) (call : ℕ) (f : InboundFrame) : InboundWorld :=
  match w.inbound.offer f with
  | .sent inbound => { w.move call (.sent true) with inbound := inbound }
  | .full => w.move call (.sent false)
  | .panics => w.move call .panicked

/-- `Close` with the lock: a session that is closed stays as it is. -/
def enterClose (w : InboundWorld) (call : ℕ) : InboundWorld :=
  if w.mu = none then
    if w.closed then w.move call .done
    else { w.move call .marked with mu := some call, closed := true }
  else w

def advance (w : InboundWorld) (call : ℕ) : InboundWorld :=
  match w.calls call with
  | some (.input f) => w.lock call (.inputLocked f)
  | some (.inputLocked f) => w.offerInput call f
  | some .accepted => { w.unlock call (.sent true) with onInputs := w.onInputs + 1 }
  | some .refused => w.unlock call (.sent false)
  | some (.other f) => w.offerOther call f
  | some .closing => w.enterClose call
  | some .marked => { w.move call .unlocking with inbound := w.inbound.close }
  | some .unlocking => w.unlock call .done
  | some (.sent _) => w
  | some .done => w
  | some .panicked => w
  | none => w

/-- A `Close` has returned. -/
def Ended (w : InboundWorld) : Prop := ∃ call, w.calls call = some .done

def step (w : InboundWorld) : InboundStep → InboundWorld
  | .sendInbound call f =>
    if w.calls call = none then
      { w.move call (if f.typeIn then .input f else .other f) with
        late := fun c => w.late c ∨ c = call ∧ w.Ended }
    else w
  | .close call => if w.calls call = none then w.move call .closing else w
  | .advance call => w.advance call
  | .receive => { w with inbound := w.inbound.take }
  | .updateSize now => if w.mu = none then { w with lastResizeMono := some now } else w

/-! ### What is asked of a run -/

/-- No call has panicked, and those that began after a `Close` had returned return false. -/
structure Safe (w : InboundWorld) : Prop where
  noPanic : ∀ call, w.calls call ≠ some .panicked
  lateFalse : ∀ call, w.late call → w.calls call ≠ some (.sent true)

/-- A `SendInbound` is under way. -/
def Sending (w : InboundWorld) (call : ℕ) : Prop := ∃ s, w.calls call = some s ∧ s.sending = true

/-- No `SendInbound` begins on a closed channel, and none is under way when the channel is closed. -/
def Careful (w : InboundWorld) : InboundStep → Prop
  | .sendInbound call _ => w.calls call = none → w.inbound.closed = false
  | .advance call => w.calls call = some .marked → ∀ other, ¬w.Sending other
  | _ => True

/-- Every call has returned, or panicked. -/
def Over (w : InboundWorld) : Prop := ∀ call s, w.calls call = some s → s.isOver = true

/-! ### Careful runs are safe -/

def hasLock : CallState → Bool
  | .inputLocked _ => true
  | .accepted => true
  | .refused => true
  | .marked => true
  | .unlocking => true
  | _ => false

/-- What holds along a careful run. -/
structure Inv (w : InboundWorld) : Prop where
  holds : ∀ call s, w.calls call = some s → hasLock s = true → w.mu = some call
  noPanic : ∀ call, w.calls call ≠ some .panicked
  notLate : ∀ call, ¬w.late call
  quiet : w.inbound.closed = true → ∀ call s, w.calls call = some s → s.sending = false
  shut : w.closed = true → w.inbound.closed = true ∨ ∃ call, w.calls call = some .marked
  ended : ∀ call, w.calls call = some .unlocking ∨ w.calls call = some .done → w.inbound.closed = true

theorem inv_start : Inv start where
  holds := fun _ _ none => nomatch none
  noPanic := fun _ none => nomatch none
  notLate := fun _ late => late
  quiet := fun closed => nomatch closed
  shut := fun closed => nomatch closed
  ended := fun _ other => nomatch other

theorem Inv.offer_ne_panics {w : InboundWorld} (inv : w.Inv) {call : ℕ} {s : CallState}
    (here : w.calls call = some s) (sending : s.sending = true) (f : InboundFrame) :
    w.inbound.offer f ≠ .panics := by
  intro panics
  have quiet := inv.quiet ((Channel.offer_panics_iff _ _).mp panics) call s here
  cases sending.symm.trans quiet

theorem Inv.offerInput {w : InboundWorld} (inv : w.Inv) {call : ℕ} {f : InboundFrame}
    (here : w.calls call = some (.inputLocked f)) : (w.offerInput call f).Inv := by
  have open_ := inv.offer_ne_panics here rfl f
  obtain ⟨holds, noPanic, notLate, quiet, shut, ended⟩ := inv
  rw [InboundWorld.offerInput]
  cases offered : w.inbound.offer f with
  | sent inbound =>
    rw [Channel.offer_sent offered]
    constructor <;> simp only [move, Function.update_apply] <;> grind [hasLock, CallState.sending]
  | full => constructor <;> simp only [move, Function.update_apply] <;> grind [hasLock, CallState.sending]
  | panics => exact absurd offered open_

theorem Inv.offerOther {w : InboundWorld} (inv : w.Inv) {call : ℕ} {f : InboundFrame}
    (here : w.calls call = some (.other f)) : (w.offerOther call f).Inv := by
  have open_ := inv.offer_ne_panics here rfl f
  obtain ⟨holds, noPanic, notLate, quiet, shut, ended⟩ := inv
  rw [InboundWorld.offerOther]
  cases offered : w.inbound.offer f with
  | sent inbound =>
    rw [Channel.offer_sent offered]
    constructor <;> simp only [move, Function.update_apply] <;> grind [hasLock, CallState.sending]
  | full => constructor <;> simp only [move, Function.update_apply] <;> grind [hasLock, CallState.sending]
  | panics => exact absurd offered open_

theorem Inv.lock {w : InboundWorld} (inv : w.Inv) {call : ℕ} {f : InboundFrame}
    (here : w.calls call = some (.input f)) : (w.lock call (.inputLocked f)).Inv := by
  obtain ⟨holds, noPanic, notLate, quiet, shut, ended⟩ := inv
  rw [InboundWorld.lock]
  split_ifs with free
  · constructor <;> simp only [move, Function.update_apply] <;> grind [hasLock, CallState.sending]
  · exact ⟨holds, noPanic, notLate, quiet, shut, ended⟩

theorem Inv.enterClose {w : InboundWorld} (inv : w.Inv) {call : ℕ} (_ : w.calls call = some .closing) :
    (w.enterClose call).Inv := by
  obtain ⟨holds, noPanic, notLate, quiet, shut, ended⟩ := inv
  rw [InboundWorld.enterClose]
  split_ifs with free closed
  · constructor <;> simp only [move, Function.update_apply] <;> grind [hasLock, CallState.sending]
  · constructor <;> simp only [move, Function.update_apply] <;> grind [hasLock, CallState.sending]
  · exact ⟨holds, noPanic, notLate, quiet, shut, ended⟩

theorem Inv.unlock {w : InboundWorld} (inv : w.Inv) {call : ℕ} {s state : CallState}
    (here : w.calls call = some s) (locked : hasLock s = true) (unmarked : s ≠ .marked)
    (returned : (∃ ok, state = .sent ok) ∨ state = .done ∧ w.inbound.closed = true) :
    (w.unlock call state).Inv := by
  obtain ⟨holds, noPanic, notLate, quiet, shut, ended⟩ := inv
  constructor <;> simp only [InboundWorld.unlock, move, Function.update_apply] <;>
    grind [hasLock, CallState.sending]

theorem Inv.advance {w : InboundWorld} (inv : w.Inv) {call : ℕ} (careful : w.Careful (.advance call)) :
    (w.advance call).Inv := by
  rw [InboundWorld.advance]
  cases here : w.calls call with
  | none => exact inv
  | some s =>
    cases s with
    | input f => exact inv.lock here
    | inputLocked f => exact inv.offerInput here
    | accepted =>
      have unlocked := inv.unlock here rfl CallState.noConfusion (.inl ⟨true, rfl⟩)
      exact ⟨unlocked.1, unlocked.2, unlocked.3, unlocked.4, unlocked.5, unlocked.6⟩
    | refused => exact inv.unlock here rfl CallState.noConfusion (.inl ⟨false, rfl⟩)
    | other f => exact inv.offerOther here
    | closing => exact inv.enterClose here
    | marked =>
      have quietNow : ∀ other, ¬w.Sending other := careful here
      obtain ⟨holds, noPanic, notLate, quiet, shut, ended⟩ := inv
      simp only [Sending, not_exists, not_and, Bool.not_eq_true] at quietNow
      constructor <;> simp only [move, Function.update_apply, Channel.close] <;>
        grind [hasLock, CallState.sending]
    | unlocking => exact inv.unlock here rfl CallState.noConfusion (.inr ⟨rfl, inv.ended call (.inl here)⟩)
    | sent ok => exact inv
    | done => exact inv
    | panicked => exact inv

theorem Inv.step {w : InboundWorld} {event : InboundStep} (inv : w.Inv) (careful : w.Careful event) :
    (w.step event).Inv := by
  cases event with
  | sendInbound call f =>
    rw [InboundWorld.step]
    by_cases fresh : w.calls call = none
    · rw [if_pos fresh]
      have opened : w.inbound.closed = false := careful fresh
      have running : ¬w.Ended := fun ⟨other, done⟩ => by
        cases opened.symm.trans (inv.ended other (.inr done))
      obtain ⟨holds, noPanic, notLate, quiet, shut, ended⟩ := inv
      cases f.typeIn <;> constructor <;> simp only [move, Function.update_apply] <;>
        grind [hasLock, CallState.sending]
    · rwa [if_neg fresh]
  | close call =>
    rw [InboundWorld.step]
    split_ifs with fresh
    · obtain ⟨holds, noPanic, notLate, quiet, shut, ended⟩ := inv
      constructor <;> simp only [move, Function.update_apply] <;> grind [hasLock, CallState.sending]
    · exact inv
  | advance call => exact inv.advance careful
  | receive => exact ⟨inv.1, inv.2, inv.3, inv.4, inv.5, inv.6⟩
  | updateSize now =>
    rw [InboundWorld.step]
    split_ifs
    · exact ⟨inv.1, inv.2, inv.3, inv.4, inv.5, inv.6⟩
    · exact inv

/-! ### Other runs are not, once their calls are over -/

/-- A call that sends on a closed channel, sooner or later. -/
def Doomed (w : InboundWorld) : Prop :=
  ∃ call, w.calls call = some .panicked ∨ w.inbound.closed = true ∧ w.Sending call

theorem doomed_of_not_careful (w : InboundWorld) (event : InboundStep) (careless : ¬w.Careful event) :
    (w.step event).Doomed := by
  cases event with
  | sendInbound call f =>
    obtain ⟨fresh, closed⟩ : w.calls call = none ∧ w.inbound.closed = true := by
      simpa [Careful] using careless
    rw [step, if_pos fresh]
    refine ⟨call, .inr ⟨closed, _, Function.update_self call _ _, ?_⟩⟩
    split_ifs <;> rfl
  | close call => exact absurd trivial careless
  | advance call =>
    obtain ⟨marked, other, sending⟩ : w.calls call = some .marked ∧ ∃ other, w.Sending other := by
      simpa [Careful] using careless
    obtain ⟨s, there, under⟩ := sending
    have apart : other ≠ call := by
      rintro rfl
      cases there.symm.trans marked
      cases under
    rw [step, InboundWorld.advance, marked]
    refine ⟨other, .inr ⟨rfl, s, ?_, under⟩⟩
    exact (Function.update_of_ne apart _ _).trans there
  | receive => exact absurd trivial careless
  | updateSize now => exact absurd trivial careless

theorem advance_other (w : InboundWorld) (call : ℕ) :
    (∀ other, other ≠ call → (w.advance call).calls other = w.calls other) ∧
      (w.inbound.closed = true → (w.advance call).inbound.closed = true) := by
  rw [InboundWorld.advance]
  cases w.calls call with
  | none => exact ⟨fun _ _ => rfl, id⟩
  | some s =>
    cases s with
    | input f =>
      dsimp only
      rw [InboundWorld.lock]
      split_ifs
      · exact ⟨fun other apart => Function.update_of_ne apart _ _, id⟩
      · exact ⟨fun _ _ => rfl, id⟩
    | inputLocked f =>
      dsimp only
      rw [InboundWorld.offerInput]
      cases offered : w.inbound.offer f with
      | sent inbound =>
        rw [Channel.offer_sent offered]
        exact ⟨fun other apart => Function.update_of_ne apart _ _, id⟩
      | full => exact ⟨fun other apart => Function.update_of_ne apart _ _, id⟩
      | panics => exact ⟨fun other apart => Function.update_of_ne apart _ _, id⟩
    | other f =>
      dsimp only
      rw [InboundWorld.offerOther]
      cases offered : w.inbound.offer f with
      | sent inbound =>
        rw [Channel.offer_sent offered]
        exact ⟨fun other apart => Function.update_of_ne apart _ _, id⟩
      | full => exact ⟨fun other apart => Function.update_of_ne apart _ _, id⟩
      | panics => exact ⟨fun other apart => Function.update_of_ne apart _ _, id⟩
    | closing =>
      dsimp only
      rw [InboundWorld.enterClose]
      split_ifs
      · exact ⟨fun other apart => Function.update_of_ne apart _ _, id⟩
      · exact ⟨fun other apart => Function.update_of_ne apart _ _, id⟩
      · exact ⟨fun _ _ => rfl, id⟩
    | marked => exact ⟨fun other apart => Function.update_of_ne apart _ _, fun _ => rfl⟩
    | accepted => exact ⟨fun other apart => Function.update_of_ne apart _ _, id⟩
    | refused => exact ⟨fun other apart => Function.update_of_ne apart _ _, id⟩
    | unlocking => exact ⟨fun other apart => Function.update_of_ne apart _ _, id⟩
    | sent ok => exact ⟨fun _ _ => rfl, id⟩
    | done => exact ⟨fun _ _ => rfl, id⟩
    | panicked => exact ⟨fun _ _ => rfl, id⟩

theorem advance_doomed {w : InboundWorld} {call : ℕ} (closed : w.inbound.closed = true) {s : CallState}
    (there : w.calls call = some s) (sending : s.sending = true) :
    (w.advance call).calls call = some .panicked ∨ (w.advance call).Sending call := by
  have panics : ∀ f, w.inbound.offer f = .panics := fun f => (Channel.offer_panics_iff _ f).mpr closed
  rw [InboundWorld.advance, there]
  cases s with
  | input f =>
    dsimp only
    rw [InboundWorld.lock]
    split_ifs
    · exact .inr ⟨_, Function.update_self call _ _, rfl⟩
    · exact .inr ⟨_, there, rfl⟩
  | inputLocked f =>
    dsimp only
    rw [InboundWorld.offerInput, panics]
    exact .inl (Function.update_self call _ _)
  | other f =>
    dsimp only
    rw [InboundWorld.offerOther, panics]
    exact .inl (Function.update_self call _ _)
  | _ => cases sending

theorem Doomed.step {w : InboundWorld} (event : InboundStep) (doomed : w.Doomed) : (w.step event).Doomed := by
  obtain ⟨call, state⟩ := doomed
  have known : w.calls call ≠ none := by
    rcases state with panicked | ⟨_, s, there, _⟩
    · rw [panicked]
      exact Option.some_ne_none _
    · rw [there]
      exact Option.some_ne_none _
  cases event with
  | sendInbound other f =>
    rw [InboundWorld.step]
    by_cases fresh : w.calls other = none
    · rw [if_pos fresh]
      have apart : call ≠ other := fun same => known (same ▸ fresh)
      refine ⟨call, ?_⟩
      simpa only [Sending, move, Function.update_of_ne apart] using state
    · rw [if_neg fresh]
      exact ⟨call, state⟩
  | close other =>
    rw [InboundWorld.step]
    by_cases fresh : w.calls other = none
    · rw [if_pos fresh]
      have apart : call ≠ other := fun same => known (same ▸ fresh)
      refine ⟨call, ?_⟩
      simpa only [Sending, move, Function.update_of_ne apart] using state
    · rw [if_neg fresh]
      exact ⟨call, state⟩
  | advance other =>
    obtain ⟨rest, closed⟩ := advance_other w other
    by_cases same : call = other
    · subst same
      rcases state with panicked | ⟨shut, s, there, sending⟩
      · refine ⟨call, .inl ?_⟩
        rw [InboundWorld.step, InboundWorld.advance, panicked]
        exact panicked
      · rcases advance_doomed shut there sending with panics | still
        · exact ⟨call, .inl panics⟩
        · exact ⟨call, .inr ⟨closed shut, still⟩⟩
    · refine ⟨call, state.imp (fun panicked => (rest call same).trans panicked) ?_⟩
      exact fun ⟨shut, s, there, sending⟩ => ⟨closed shut, s, (rest call same).trans there, sending⟩
  | receive => exact ⟨call, state⟩
  | updateSize now =>
    rw [InboundWorld.step]
    split_ifs <;> exact ⟨call, state⟩

theorem Inv.safe {w : InboundWorld} (inv : w.Inv) : w.Safe where
  noPanic := inv.noPanic
  lateFalse := fun call late => absurd late (inv.notLate call)

/-- **A run is safe if it is careful**, and a run whose calls are over is safe only then. -/
theorem safe_iff_careful (events : List InboundStep) :
    (Meets step Careful start events → (run step start events).Safe) ∧
      ((run step start events).Over → (run step start events).Safe → Meets step Careful start events) := by
  constructor
  · exact fun careful =>
      (run_invariant_of_meets Inv (fun _ _ inv careful => inv.step careful) inv_start careful).safe
  · intro finished safe
    refine meets_of_spared Doomed doomed_of_not_careful (fun _ event doomed => doomed.step event) ?_
    rintro ⟨call, panicked | ⟨_, s, there, sending⟩⟩
    · exact safe.noPanic call panicked
    · have done := finished call s there
      cases s <;> simp [CallState.sending, CallState.isOver] at sending done

theorem sendInbound_after_close :
    ¬(run step start [.close 0, .advance 0, .advance 0, .advance 0, .sendInbound 1 ⟨false, []⟩,
      .advance 1]).Safe := by
  intro safe
  exact safe.noPanic 1 rfl

end InboundWorld

end Atterm.Terminal
