/-
**Where the next transport comes from.**

The part of a peer connection that decides whether it is stuck or leaks: what it owns, what it waits
for, and which transports were started and closed.

* `Routing.Consistent` — how these fit together between two steps; `Routing.Idle` — nothing is owned
  and nothing is awaited;
* `Idle.timed`, `Idle.asking`, `Idle.launched`, `Consistent.released`, `Consistent.cut`,
  `Consistent.preparing`, `Consistent.promoted` — the moves between the two.
-/

import Atterm.Foundation.Ledger

namespace Atterm.Session

open Atterm.Foundation

/-- What of a connection decides where its next transport comes from. -/
structure Routing where
  transport : Option ℕ
  generation : ℕ
  ready : Bool
  detached : Bool
  suspended : Bool
  reconnectTimer : Bool
  fallbackPending : Bool
  /-- The generation and the transport of the handover attempt. -/
  handover : Option (ℕ × ℕ)
  attached : Bool
  transports : Ledger
  fallbacks : List ℕ

def Routing.held (r : Routing) : Set ℕ :=
  {id | r.transport = some id} ∪ {id | ∃ generation, r.handover = some (generation, id)}

/-- **How the fields fit together between two steps.** -/
structure Routing.Consistent (r : Routing) : Prop where
  routed : r.attached → r.suspended = false → r.detached = false →
    r.transport.isSome ∨ r.handover.isSome ∨ r.reconnectTimer ∨ r.fallbackPending
  current : ∀ generation transport, r.handover = some (generation, transport) →
    generation = r.generation
  settled : r.transports.Settled r.held
  known : r.transports.Known r.held
  carried : r.ready → r.transport.isSome
  waiting : r.reconnectTimer ∨ r.fallbackPending → r.transport = none ∧ r.handover = none
  alone : r.reconnectTimer → r.fallbackPending = false
  asked : r.fallbackPending →
    r.generation ∈ r.fallbacks ∧ r.detached = false ∧ r.suspended = false

/-- Nothing is owned and nothing is awaited. -/
structure Routing.Idle (r : Routing) : Prop where
  transport : r.transport = none
  handover : r.handover = none
  reconnectTimer : r.reconnectTimer = false
  fallbackPending : r.fallbackPending = false
  settled : r.transports.Settled ∅
  known : r.transports.Known ∅

namespace Routing

variable {r : Routing}

theorem held_eq_empty (transport : r.transport = none) (handover : r.handover = none) :
    r.held = ∅ := by
  ext id
  simp [held, transport, handover]

theorem held_eq_singleton {id : ℕ} (transport : r.transport = some id)
    (handover : r.handover = none) : r.held = {id} := by
  ext other
  simp [held, transport, handover, eq_comm]

theorem Idle.consistent (idle : r.Idle) (quiet : r.ready = false)
    (stopped : r.attached → r.suspended = false → r.detached = false → False) : r.Consistent where
  routed := fun attached resumed running => (stopped attached resumed running).elim
  current := by simp [idle.handover]
  settled := held_eq_empty idle.transport idle.handover ▸ idle.settled
  known := held_eq_empty idle.transport idle.handover ▸ idle.known
  carried := by simp [quiet]
  waiting := fun _ => ⟨idle.transport, idle.handover⟩
  alone := fun _ => idle.fallbackPending
  asked := by simp [idle.fallbackPending]

theorem Idle.timed (idle : r.Idle) (quiet : r.ready = false) :
    { r with reconnectTimer := true }.Consistent :=
  have empty := held_eq_empty (r := { r with reconnectTimer := true }) idle.transport idle.handover
  { routed := fun _ _ _ => Or.inr (Or.inr (Or.inl rfl))
    current := by simp [idle.handover]
    settled := empty ▸ idle.settled
    known := empty ▸ idle.known
    carried := by simp [quiet]
    waiting := fun _ => ⟨idle.transport, idle.handover⟩
    alone := fun _ => idle.fallbackPending
    asked := by simp [idle.fallbackPending] }

theorem Idle.asking (idle : r.Idle) (quiet : r.ready = false) (running : r.detached = false)
    (resumed : r.suspended = false) :
    { r with fallbackPending := true, fallbacks := r.generation :: r.fallbacks }.Consistent :=
  have empty := held_eq_empty
    (r := { r with fallbackPending := true, fallbacks := r.generation :: r.fallbacks })
    idle.transport idle.handover
  { routed := fun _ _ _ => Or.inr (Or.inr (Or.inr rfl))
    current := by simp [idle.handover]
    settled := empty ▸ idle.settled
    known := empty ▸ idle.known
    carried := by simp [quiet]
    waiting := fun _ => ⟨idle.transport, idle.handover⟩
    alone := by simp [idle.reconnectTimer]
    asked := fun _ => ⟨List.mem_cons_self, running, resumed⟩ }

theorem Idle.launched (idle : r.Idle) (quiet : r.ready = false) :
    { r with
      transport := some r.transports.started
      transports := r.transports.begin }.Consistent :=
  have single := held_eq_singleton (r := { r with
    transport := some r.transports.started
    transports := r.transports.begin }) rfl idle.handover
  { routed := fun _ _ _ => Or.inl rfl
    current := by simp [idle.handover]
    settled := single ▸ idle.settled.begin (by simp)
    known := single ▸ idle.known.begin (by simp)
    carried := by simp [quiet]
    waiting := by simp [idle.reconnectTimer, idle.fallbackPending]
    alone := by simp [idle.reconnectTimer]
    asked := by simp [idle.fallbackPending] }

theorem Consistent.patient (consistent : r.Consistent)
    (owned : r.transport.isSome ∨ r.handover.isSome) :
    r.reconnectTimer = false ∧ r.fallbackPending = false := by
  by_contra waits
  have waiting : r.reconnectTimer = true ∨ r.fallbackPending = true := by
    rcases Bool.eq_false_or_eq_true r.reconnectTimer with timed | idle
    · exact Or.inl timed
    · exact Or.inr (by simpa [idle] using waits)
  obtain ⟨transport, handover⟩ := consistent.waiting waiting
  simp [transport, handover] at owned

theorem Consistent.untimed (consistent : r.Consistent) (pending : r.fallbackPending = true) :
    r.reconnectTimer = false := by
  by_contra timed
  have alone := consistent.alone (by simpa using timed)
  exact Bool.noConfusion (pending.symm.trans alone)

theorem Consistent.quiet (consistent : r.Consistent) (transport : r.transport = none) :
    r.ready = false := by
  by_contra ready
  have carried := consistent.carried (by simpa using ready)
  simp [transport] at carried

/-- **Giving up what is owned closes all of it.** -/
theorem Consistent.released {next : Routing} (consistent : r.Consistent)
    (transport : next.transport = none) (handover : next.handover = none)
    (untimed : next.reconnectTimer = false) (unasked : next.fallbackPending = false)
    (closed : next.transports =
      (r.transports.release? (r.handover.map Prod.snd)).release? r.transport) : next.Idle where
  transport := transport
  handover := handover
  reconnectTimer := untimed
  fallbackPending := unasked
  settled := by
    have dropped : (r.transports.release? (r.handover.map Prod.snd)).Settled
        {id | r.transport = some id} := by
      refine consistent.settled.release? fun id inside => ?_
      rcases inside with current | ⟨generation, attempt⟩
      · exact Or.inr current
      · exact Or.inl (by simp [attempt])
    rw [closed]
    exact dropped.release? fun id inside => Or.inl inside
  known := by
    have dropped : (r.transports.release? (r.handover.map Prod.snd)).Known
        {id | r.transport = some id} := by
      refine consistent.known.release? (fun id inside => ?_) fun id inside => Or.inl inside
      obtain ⟨⟨generation, transport⟩, attempt, rfl⟩ := Option.map_eq_some_iff.mp inside
      exact Or.inr ⟨generation, attempt⟩
    rw [closed]
    exact dropped.release? (fun id inside => inside) (Set.empty_subset _)

theorem Consistent.cut {id generation transport : ℕ} (consistent : r.Consistent)
    (current : r.transport = some id) (attempt : r.handover = some (generation, transport)) :
    { r with
      transport := none
      ready := false
      transports := r.transports.release id }.Consistent :=
  have patient := consistent.patient (Or.inl (by simp [current]))
  { routed := fun _ _ _ => Or.inr (Or.inl (by simp [attempt]))
    current := consistent.current
    settled := by
      refine consistent.settled.release fun other inside => ?_
      rcases inside with same | inside
      · exact Or.inl (Option.some.inj (same.symm.trans current))
      · exact Or.inr (Or.inr inside)
    known := by
      refine consistent.known.release (Or.inl current) fun other inside => ?_
      rcases inside with none | inside
      · exact absurd none (by simp)
      · exact Or.inr inside
    carried := by simp
    waiting := by simp [patient.1, patient.2]
    alone := fun _ => patient.2
    asked := by simp [patient.2] }

theorem Consistent.preparing (consistent : r.Consistent) (ready : r.ready = true)
    (alone : r.handover = none) :
    { r with
      handover := some (r.generation, r.transports.started)
      transports := r.transports.begin }.Consistent :=
  have patient := consistent.patient (Or.inl (consistent.carried ready))
  { routed := fun _ _ _ => Or.inr (Or.inl rfl)
    current := by
      intro generation transport same
      exact (congrArg Prod.fst (Option.some.inj same)).symm
    settled := by
      refine consistent.settled.begin (Set.insert_subset_iff.mpr ⟨?_, fun id inside => ?_⟩)
      · exact Or.inr ⟨_, rfl⟩
      · rcases inside with inside | ⟨generation, inside⟩
        · exact Or.inl inside
        · simp [alone] at inside
    known := by
      refine consistent.known.begin fun id inside => ?_
      rcases inside with inside | ⟨generation, inside⟩
      · exact Or.inr (Or.inl inside)
      · exact Or.inl (congrArg Prod.snd (Option.some.inj inside)).symm
    carried := consistent.carried
    waiting := by simp [patient.1, patient.2]
    alone := by simp [patient.1]
    asked := by simp [patient.2] }

theorem Consistent.promoted {generation transport : ℕ} (consistent : r.Consistent)
    (attempt : r.handover = some (generation, transport)) :
    { r with
      transport := some transport
      ready := true
      handover := none
      transports := r.transports.release? r.transport }.Consistent :=
  have patient := consistent.patient (Or.inr (by simp [attempt]))
  have single := held_eq_singleton (r := { r with
    transport := some transport
    ready := true
    handover := none
    transports := r.transports.release? r.transport }) rfl rfl
  { routed := fun _ _ _ => Or.inl rfl
    current := by simp
    settled := single ▸ consistent.settled.release? (fun id inside => by
      rcases inside with inside | ⟨_, inside⟩
      · exact Or.inl inside
      · rw [attempt] at inside
        exact Or.inr (congrArg Prod.snd (Option.some.inj inside)).symm)
    known := single ▸ consistent.known.release? (fun id inside => Or.inl inside) (by
      rintro id rfl
      exact Or.inr ⟨generation, attempt⟩)
    carried := fun _ => rfl
    waiting := by simp [patient.1, patient.2]
    alone := by simp [patient.1]
    asked := by simp [patient.2] }

end Routing

end Atterm.Session
