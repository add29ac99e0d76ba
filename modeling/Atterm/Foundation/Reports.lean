/-
**Reports that are delivered late.**

A value changes at one place, and every change starts a report that is delivered later, in any order.
The reports are `Covered` when the last one that was delivered, or one that is still to come, is of the
current value.

* `Covered.settled`, `not_covered_settled` — whether the last report is right once none is to come;
* `covered_deliver_iff` — which deliveries keep the reports covered;
* `not_covered_deliver` — no delivery covers them again.
-/

import Mathlib

namespace Atterm.Foundation

/-- A value, the reports of it that are still to be delivered, and the last one that was. -/
structure Reports (α : Type*) where
  current : α
  pending : List α
  last : α

namespace Reports

variable {α : Type*} [DecidableEq α] {r : Reports α} {value : α}

def deliver (r : Reports α) (value : α) : Reports α :=
  if value ∈ r.pending then { r with pending := r.pending.erase value, last := value } else r

/-- The last report is right, or a right one is still to come. -/
def Covered (r : Reports α) : Prop := r.last = r.current ∨ r.current ∈ r.pending

/-- A report that is out of date is delivered while one of the current value is still to come. -/
def OnTime (r : Reports α) (value : α) : Prop :=
  value ∈ r.pending → value = r.current ∨ r.current ∈ r.pending.erase value

omit [DecidableEq α] in
theorem Covered.settled (covered : r.Covered) (quiet : r.pending = []) : r.last = r.current := by
  refine covered.resolve_right fun late => ?_
  rw [quiet] at late
  exact absurd late List.not_mem_nil

omit [DecidableEq α] in
theorem not_covered_settled (stale : ¬r.Covered) : r.last ≠ r.current :=
  fun right => stale (Or.inl right)

/-- **Which deliveries keep the reports covered.** -/
theorem covered_deliver_iff (covered : r.Covered) : (r.deliver value).Covered ↔ r.OnTime value := by
  by_cases started : value ∈ r.pending
  · rw [deliver, if_pos started]
    exact ⟨fun right _ => right, fun onTime => onTime started⟩
  · rw [deliver, if_neg started]
    exact iff_of_true covered fun inside => absurd inside started

/-- **Late reports stay late**: no delivery covers the reports again. -/
theorem not_covered_deliver (stale : ¬r.Covered) : ¬(r.deliver value).Covered := by
  by_cases started : value ∈ r.pending
  · rw [deliver, if_pos started]
    rintro (right | late)
    · have current : value = r.current := right
      exact stale (Or.inr (current ▸ started))
    · exact stale (Or.inr (List.mem_of_mem_erase late))
  · rw [deliver, if_neg started]
    exact stale

end Reports

end Atterm.Foundation
