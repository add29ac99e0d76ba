/-
**The viewer count that a session reports.**

`Subscribe` and `Unsubscribe` count the subscribers under the lock and report the count after
releasing it, so reports of concurrent calls are delivered in any order; `Close` empties the set and
reports nothing. The badge of the host shows no viewer before the first report.

* `ViewersWorld.reports` — the counts as reports that are delivered late;
* `ViewersWorld.final_of_meets` — when the last report is right.
-/

import Atterm.Foundation.Reports
import Atterm.Foundation.Runs
import Atterm.Relay.Session

namespace Atterm.Relay

open Atterm.Foundation

def counts (effects : List Effect) : List ℕ :=
  effects.filterMap fun effect =>
    match effect with
    | .subscriberCount count => some count
    | _ => none

/-- A session, the counts that its calls computed and have not reported yet, and the last one that the
hook was given. -/
structure ViewersWorld where
  session : Session
  pending : List ℕ
  last : Option ℕ

/-- What a call does under the lock, or the report that it makes after that. -/
inductive ViewersStep where
  | subscribe (sub : Subscriber) (admitted : Bool)
  | unsubscribe (sub : ℕ)
  | close
  | report (count : ℕ)

namespace ViewersWorld

def start (s : Session) : ViewersWorld := ⟨s, [], none⟩

def after (w : ViewersWorld) (result : Session × List Effect) : ViewersWorld :=
  { w with session := result.1, pending := counts result.2 ++ w.pending }

def step (w : ViewersWorld) : ViewersStep → ViewersWorld
  | .subscribe sub admitted => w.after (w.session.subscribe sub admitted)
  | .unsubscribe sub => w.after (w.session.removeSubscriber sub)
  | .close => { w with session := w.session.close }
  | .report count =>
    if count ∈ w.pending then
      { w with pending := w.pending.erase count, last := some count }
    else w

def Quiet (w : ViewersWorld) : Prop := w.pending = []

/-- The last reported count is the number of subscribers. -/
def Final (w : ViewersWorld) : Prop := w.last.getD 0 = w.session.subs.card

/-- A count that is out of date is reported while one of the current number is still to come, and the
session is closed when no viewer is attached or reported. -/
def Careful (w : ViewersWorld) : ViewersStep → Prop
  | .report count =>
    count ∈ w.pending →
      count = w.session.subs.card ∨ w.session.subs.card ∈ w.pending.erase count
  | .close => w.session.closed = true ∨ w.session.subs = ∅ ∨ w.last.getD 0 = 0 ∨ 0 ∈ w.pending
  | .subscribe .. | .unsubscribe _ => True

instance (w : ViewersWorld) : Decidable w.Quiet := inferInstanceAs (Decidable (w.pending = []))

instance (w : ViewersWorld) : Decidable w.Final :=
  inferInstanceAs (Decidable (w.last.getD 0 = w.session.subs.card))

instance (w : ViewersWorld) : (event : ViewersStep) → Decidable (w.Careful event)
  | .report count => inferInstanceAs (Decidable (count ∈ w.pending →
      count = w.session.subs.card ∨ w.session.subs.card ∈ w.pending.erase count))
  | .close => inferInstanceAs (Decidable (w.session.closed = true ∨ w.session.subs = ∅ ∨
      w.last.getD 0 = 0 ∨ 0 ∈ w.pending))
  | .subscribe .. | .unsubscribe _ => inferInstanceAs (Decidable True)

/-- The counts as reports that are delivered late. -/
def reports (w : ViewersWorld) : Reports ℕ := ⟨w.session.subs.card, w.pending, w.last.getD 0⟩

variable {w : ViewersWorld}

theorem covered_after (covered : w.reports.Covered) {result : Session × List Effect}
    (counted : (result.1.subs.card = w.session.subs.card ∧ counts result.2 = []) ∨
      counts result.2 = [result.1.subs.card]) : (w.after result).reports.Covered := by
  rcases counted with ⟨same, silent⟩ | counted
  · show w.last.getD 0 = result.1.subs.card ∨ result.1.subs.card ∈ counts result.2 ++ w.pending
    rw [same, silent]
    exact covered
  · show w.last.getD 0 = result.1.subs.card ∨ result.1.subs.card ∈ counts result.2 ++ w.pending
    rw [counted]
    exact Or.inr List.mem_cons_self

theorem counts_append (first second : List Effect) :
    counts (first ++ second) = counts first ++ counts second := List.filterMap_append

theorem counts_closed (subs : List ℕ) : counts (subs.map .closed) = [] := by
  induction subs with
  | nil => rfl
  | cons sub rest ih => exact ih

theorem counts_subscribe (s : Session) (sub : Subscriber) (admitted : Bool) :
    ((s.subscribe sub admitted).1.subs.card = s.subs.card ∧
      counts (s.subscribe sub admitted).2 = []) ∨
      counts (s.subscribe sub admitted).2 = [(s.subscribe sub admitted).1.subs.card] := by
  rw [Session.subscribe]
  by_cases refused : (s.closed || !admitted) = true
  · rw [if_pos refused]
    exact Or.inl ⟨rfl, rfl⟩
  · rw [if_neg refused]
    have quiet : counts ((s.replaced sub).toList.map .closed ++
        [if s.promotes sub then .broadcast (s.joined sub).currentMeta
          else .snapshot sub.handle (s.joined sub).currentMeta] ++
        (if s.subs.card = 0 then [.firstSubscribe] else [])) = [] := by
      rw [counts_append, counts_append, counts_closed]
      split_ifs <;> rfl
    by_cases changed : (s.joined sub).subs.card ≠ s.subs.card
    · refine Or.inr ?_
      rw [counts_append, quiet, if_pos changed]
      rfl
    · refine Or.inl ⟨not_not.mp changed, ?_⟩
      rw [counts_append, quiet, if_neg changed]
      rfl

theorem counts_removeSubscriber (s : Session) (sub : ℕ) :
    ((s.removeSubscriber sub).1.subs.card = s.subs.card ∧
      counts (s.removeSubscriber sub).2 = []) ∨
      counts (s.removeSubscriber sub).2 = [(s.removeSubscriber sub).1.subs.card] := by
  have quiet : counts ([.closed sub] ++
      (if s.isDriver sub then [.broadcast (encodeMetaPayload s.info "" "")] else []) ++
      (if sub ∈ s.subs ∧ (s.subs.erase sub).card = 0 then [.lastUnsubscribe] else [])) = [] := by
    split_ifs <;> rfl
  rw [Session.removeSubscriber, counts_append, quiet]
  show ((s.without sub).subs.card = s.subs.card ∧ _) ∨ _ = [(s.without sub).subs.card]
  rw [Session.subs_without]
  by_cases inside : sub ∈ s.subs
  · rw [if_pos inside]
    exact Or.inr rfl
  · rw [if_neg inside, Finset.erase_eq_of_notMem inside]
    exact Or.inl ⟨rfl, rfl⟩

theorem reports_report (w : ViewersWorld) (count : ℕ) :
    (w.step (.report count)).reports = w.reports.deliver count := by
  rw [step, Reports.deliver]
  show (if count ∈ w.pending then _ else w).reports = if count ∈ w.pending then _ else w.reports
  split_ifs <;> rfl

theorem covered_close_iff (covered : w.reports.Covered) :
    (w.step .close).reports.Covered ↔ w.Careful .close := by
  show w.last.getD 0 = w.session.close.subs.card ∨ w.session.close.subs.card ∈ w.pending ↔ _
  rw [Session.close]
  by_cases closed : w.session.closed = true
  · rw [if_pos closed]
    exact iff_of_true covered (Or.inl closed)
  · rw [if_neg closed]
    show w.last.getD 0 = 0 ∨ 0 ∈ w.pending ↔ _
    constructor
    · exact fun right => Or.inr (Or.inr right)
    · rintro (shut | empty | right)
      · exact absurd shut closed
      · have nobody : w.session.subs.card = 0 := Finset.card_eq_zero.mpr empty
        rcases covered with right | late
        · exact Or.inl (right.trans nobody)
        · exact Or.inr (nobody ▸ late)
      · exact right

/-- **One step.** Reports that are covered stay so exactly after a careful step. -/
theorem covered_step_iff (covered : w.reports.Covered) (event : ViewersStep) :
    (w.step event).reports.Covered ↔ w.Careful event := by
  cases event with
  | subscribe sub admitted =>
    exact iff_of_true (covered_after covered (counts_subscribe _ _ _)) trivial
  | unsubscribe sub =>
    exact iff_of_true (covered_after covered (counts_removeSubscriber _ _)) trivial
  | close => exact covered_close_iff covered
  | report count =>
    rw [reports_report]
    exact Reports.covered_deliver_iff covered

theorem covered_of_meets {s : Session} (empty : s.subs = ∅) {events : List ViewersStep}
    (meets : Meets step Careful (start s) events) :
    (run step (start s) events).reports.Covered := by
  have initial : (start s).reports.Covered := Or.inl (Finset.card_eq_zero.mpr empty).symm
  exact run_invariant_of_meets (fun w : ViewersWorld => w.reports.Covered)
    (fun w event covered careful => (covered_step_iff covered event).mpr careful) initial meets

theorem not_covered_finish (stale : ¬w.reports.Covered) (rest : List ℕ) :
    ¬(run step w (rest.map .report)).reports.Covered := by
  induction rest generalizing w with
  | nil => exact stale
  | cons count rest ih =>
    refine ih ?_
    rw [reports_report]
    exact Reports.not_covered_deliver stale

/-- **Careful runs report the right count at last**, once all calls have returned. The first careless
step is never made good: when the calls under way only return, the last count is wrong. -/
theorem final_of_meets {s : Session} (empty : s.subs = ∅) {events : List ViewersStep}
    (meets : Meets step Careful (start s) events) :
    ((run step (start s) events).Quiet → (run step (start s) events).Final) ∧
      ∀ event, ¬(run step (start s) events).Careful event → ∀ rest : List ℕ,
        ¬(run step (start s) (events ++ event :: rest.map .report)).Final := by
  have covered := covered_of_meets empty meets
  refine ⟨covered.settled, fun event careless rest => ?_⟩
  have stale : ¬((run step (start s) events).step event).reports.Covered :=
    fun right => careless ((covered_step_iff covered event).mp right)
  rw [run_append, run_cons]
  exact Reports.not_covered_settled (not_covered_finish stale rest)

section Sample

def viewer (handle : ℕ) : Subscriber := ⟨handle, "", "", false, none⟩

def sampleMirror : Session := Session.newMirror SessionInfo.zero

theorem watched_final :
    (run step (start sampleMirror) [.subscribe (viewer 0) true, .report 1]).Final := by
  have meets : Meets step Careful (start sampleMirror) [.subscribe (viewer 0) true, .report 1] := by
    decide
  exact (final_of_meets rfl meets).1 (by decide)

/-- The session is closed while a viewer is attached, and nobody reports that it is gone. -/
theorem closed_is_not_reported :
    (run step (start sampleMirror) [.subscribe (viewer 0) true, .report 1, .close]).Quiet ∧
      ¬(run step (start sampleMirror) [.subscribe (viewer 0) true, .report 1, .close]).Final := by
  decide

end Sample

end ViewersWorld

end Atterm.Relay
