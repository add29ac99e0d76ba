/-
**A preview survives the end of a connection.**

Data that is under way when the other end, or the relay, has closed its connection is an error for
whoever reads it, and an error ends the whole service.

* `PreviewWorld.Careful` — a connection is given up while no data is coming for it, and data is queued
  while it will still be open where it arrives;
* `PreviewWorld.Flowing`, `flowing_step` — what every careful step keeps;
* `preview_survives_of_meets` — in a careful run nobody tears the service down.
-/

import Atterm.Foundation.Runs
import Atterm.Service.Preview

namespace Atterm.Service

open Atterm.Foundation Atterm.Transport

@[simp] theorem ServiceRole.peer_peer (role : ServiceRole) : role.peer.peer = role := by
  cases role <;> rfl

theorem ServiceRole.peer_ne (role : ServiceRole) : role.peer ≠ role := by
  cases role <;> decide

theorem ServiceRole.eq_or_eq_peer (role other : ServiceRole) : other = role ∨ other = role.peer := by
  cases role <;> cases other <;> simp [ServiceRole.peer]

namespace ServiceHostMessage

theorem touch_open (id : UInt32) (data : Bytes) : touch ⟨kindOpen, id, data⟩ = .opens id := if_pos rfl

end ServiceHostMessage

def Unused (packets : List ServiceHostMessage) (id : UInt32) : Prop :=
  ∀ m ∈ packets, m.touch ≠ .uses id

instance (packets : List ServiceHostMessage) (id : UInt32) : Decidable (Unused packets id) :=
  inferInstanceAs (Decidable (∀ m ∈ packets, m.touch ≠ .uses id))

theorem Unused.append {one other : List ServiceHostMessage} {id : UInt32} (first : Unused one id)
    (second : Unused other id) : Unused (one ++ other) id := fun m listed =>
  (List.mem_append.mp listed).elim (first m) (second m)

namespace PreviewEnd

variable (e : PreviewEnd)

theorem mem_has {id : UInt32} : id ∈ e.has ↔ (e.connections.lookup id).isSome := by
  rw [has, List.mem_toFinset, AList.lookup_isSome]
  rfl

@[simp] theorem has_register (id : UInt32) (phase : PumpPhase) :
    (e.register id phase).has = insert id e.has := by
  ext other
  rw [mem_has, Finset.mem_insert, mem_has]
  show ((e.connections.insert id e.next).lookup other).isSome ↔ _
  by_cases same : other = id
  · subst same
    simp
  · rw [AList.lookup_insert_ne same]
    simp [same]

@[simp] theorem has_closeConnection (id : UInt32) : (e.closeConnection id).has = e.has.erase id := by
  ext other
  rw [mem_has, Finset.mem_erase, mem_has]
  show ((e.connections.erase id).lookup other).isSome ↔ _
  by_cases same : other = id
  · subst same
    simp
  · rw [AList.lookup_erase_ne same]
    simp [same]

@[simp] theorem has_setPump (conn : ℕ) (pump : Option Pump) : (e.setPump conn pump).has = e.has := rfl

/-- The packet makes the end give the connection up: a write, or a dial, that fails, and a connection
that the host does not take. -/
def GivesUp (role : ServiceRole) (m : ServiceHostMessage) (works : Bool) : Prop :=
  m.kind = kindData ∧ works = false ∨ role = .host ∧ m.kind = kindOpen ∧
    (works = false ∨ (e.connections.lookup m.id).isSome ∨ 16 ≤ e.connections.keys.length)

instance (role : ServiceRole) (m : ServiceHostMessage) (works : Bool) :
    Decidable (e.GivesUp role m works) :=
  inferInstanceAs (Decidable (_ ∨ _))

end PreviewEnd

namespace PreviewWorld

/-- Data for the connection will find it open at the relay and at the other end, when the packets ahead
of it have been read, and no close of it comes the other way. -/
def Reaches (w : PreviewWorld) (role : ServiceRole) (id : UInt32) : Prop :=
  id ∈ replay ServiceHostMessage.touch w.relay (w.sent role) ∧
    id ∈ replay ServiceHostMessage.touch (w.ends role.peer).has (w.forwarded role ++ w.sent role) ∧
    ∀ m ∈ w.sent role.peer, m.touch ≠ .closes id

instance (w : PreviewWorld) (role : ServiceRole) (id : UInt32) : Decidable (w.Reaches role id) :=
  inferInstanceAs (Decidable (_ ∧ _ ∧ ∀ m ∈ w.sent role.peer, m.touch ≠ .closes id))

def MayQueue (w : PreviewWorld) (role : ServiceRole) (m : ServiceHostMessage) : Prop :=
  match m.touch with
  | .opens _ => True
  | .uses id => w.Reaches role id
  | .closes id => Unused (w.sent role.peer) id

instance (w : PreviewWorld) (role : ServiceRole) (m : ServiceHostMessage) :
    Decidable (w.MayQueue role m) := by
  unfold MayQueue
  exact match m.touch with
  | .opens _ => inferInstanceAs (Decidable True)
  | .uses id => inferInstanceAs (Decidable (w.Reaches role id))
  | .closes id => inferInstanceAs (Decidable (Unused (w.sent role.peer) id))

/-- **A connection is given up, and its close queued, while no data is under way to where it is
closed**; and data is queued while it reaches an open connection. -/
def Careful (w : PreviewWorld) : PreviewEvent → Prop
  | .accept | .read _ _ _ | .observe _ => True
  | .finish role conn => ∀ pump ∈ (w.ends role).pumps conn,
      (w.ends role).connections.lookup pump.id = some conn →
        Unused (w.forwarded role.peer ++ w.sent role.peer) pump.id
  | .enqueue role conn => ∀ pump ∈ (w.ends role).pumps conn, ∀ m ∈ pump.message, w.MayQueue role m
  | .enqueueLoop role => ∀ id ∈ (w.ends role).loop, w.MayQueue role ⟨kindClose, id, []⟩
  | .deliver role works => ∀ m ∈ (w.forwarded role.peer).head?, (w.ends role).GivesUp role m works →
      Unused ((w.forwarded role.peer).tail ++ w.sent role.peer) m.id

instance (w : PreviewWorld) : (event : PreviewEvent) → Decidable (w.Careful event)
  | .accept | .read _ _ _ | .observe _ => inferInstanceAs (Decidable True)
  | .finish role conn => inferInstanceAs (Decidable (∀ pump ∈ (w.ends role).pumps conn,
      (w.ends role).connections.lookup pump.id = some conn →
        Unused (w.forwarded role.peer ++ w.sent role.peer) pump.id))
  | .enqueue role conn => inferInstanceAs (Decidable (∀ pump ∈ (w.ends role).pumps conn,
      ∀ m ∈ pump.message, w.MayQueue role m))
  | .enqueueLoop role => inferInstanceAs (Decidable (∀ id ∈ (w.ends role).loop,
      w.MayQueue role ⟨kindClose, id, []⟩))
  | .deliver role works => inferInstanceAs (Decidable (∀ m ∈ (w.forwarded role.peer).head?,
      (w.ends role).GivesUp role m works →
        Unused ((w.forwarded role.peer).tail ++ w.sent role.peer) m.id))

/-- Only a client that opens too many connections at once has the service torn down. -/
def Survives (w : PreviewWorld) : Prop := ∀ e ∈ w.error, e = "service connection limit exceeded"

/-- A packet as the ends queue it: only the client opens connections, and only data is not empty. -/
def Plain (role : ServiceRole) (m : ServiceHostMessage) : Prop :=
  m.kind = kindOpen ∧ role = .client ∧ m.data = [] ∨ m.kind = kindData ∨
    m.kind = kindClose ∧ m.data = []

/-- **What every careful run keeps**: who reads a packet finds its connection open, and no data meets a
close that comes the other way. -/
structure Flowing (w : PreviewWorld) : Prop where
  relay : ∀ role, Served ServiceHostMessage.touch w.relay (w.sent role)
  peer : ∀ role, Served ServiceHostMessage.touch (w.ends role.peer).has
    (w.forwarded role ++ w.sent role)
  crossing : ∀ role id, (∃ m ∈ w.sent role.peer, m.touch = .closes id) → Unused (w.sent role) id
  plain : ∀ role, ∀ m ∈ w.forwarded role ++ w.sent role, Plain role m
  accepting : ∀ conn pump, (w.ends .host).pumps conn = some pump → pump.phase ≠ .opening

variable {w : PreviewWorld}

theorem flowing_start : start.Flowing where
  relay := fun _ => trivial
  peer := fun _ => trivial
  crossing := fun _ _ ⟨_, listed, _⟩ => by cases listed
  plain := fun _ _ listed => by cases listed
  accepting := fun _ _ found => by cases found

theorem Flowing.setEnd (sound : w.Flowing) {role : ServiceRole} {e : PreviewEnd}
    (keeps : Served ServiceHostMessage.touch e.has (w.forwarded role.peer ++ w.sent role.peer))
    (accepting : role = .host → ∀ conn pump, e.pumps conn = some pump → pump.phase ≠ .opening) :
    (w.setEnd role e).Flowing where
  relay := sound.relay
  crossing := sound.crossing
  plain := sound.plain
  peer := fun other => by
    show Served _ (Function.update w.ends role e other.peer).has (w.forwarded other ++ w.sent other)
    rcases role.eq_or_eq_peer other with rfl | rfl
    · rw [Function.update_of_ne other.peer_ne]
      exact sound.peer other
    · rw [ServiceRole.peer_peer, Function.update_self]
      exact keeps
  accepting := fun conn pump found => by
    have found : (Function.update w.ends role e .host).pumps conn = some pump := found
    by_cases host : role = .host
    · subst host
      rw [Function.update_self] at found
      exact accepting rfl conn pump found
    · rw [Function.update_of_ne (Ne.symm host)] at found
      exact sound.accepting conn pump found

/-- **A message is queued.** -/
theorem Flowing.send (sound : w.Flowing) {role : ServiceRole} {m : ServiceHostMessage}
    (plain : Plain role m) (may : w.MayQueue role m) : (w.send role m).Flowing where
  accepting := sound.accepting
  relay := fun other => by
    show Served _ w.relay (Function.update w.sent role (w.sent role ++ [m]) other)
    by_cases same : other = role
    · subst same
      rw [Function.update_self]
      refine served_concat.mpr ⟨sound.relay other, fun id uses => ?_⟩
      rw [MayQueue, uses] at may
      exact may.1
    · rw [Function.update_of_ne same]
      exact sound.relay other
  peer := fun other => by
    show Served _ (w.ends other.peer).has
      (w.forwarded other ++ Function.update w.sent role (w.sent role ++ [m]) other)
    by_cases same : other = role
    · subst same
      rw [Function.update_self, ← List.append_assoc]
      refine served_concat.mpr ⟨sound.peer other, fun id uses => ?_⟩
      rw [MayQueue, uses] at may
      exact may.2.1
    · rw [Function.update_of_ne same]
      exact sound.peer other
  plain := fun other m' listed => by
    have listed : m' ∈ w.forwarded other ++
        Function.update w.sent role (w.sent role ++ [m]) other := listed
    by_cases same : other = role
    · subst same
      rw [Function.update_self, ← List.append_assoc] at listed
      rcases List.mem_append.mp listed with earlier | last
      · exact sound.plain other m' earlier
      · rw [List.mem_singleton.mp last]
        exact plain
    · rw [Function.update_of_ne same] at listed
      exact sound.plain other m' listed
  crossing := fun other id closing => by
    have closing : ∃ m' ∈ Function.update w.sent role (w.sent role ++ [m]) other.peer,
        m'.touch = .closes id := closing
    show Unused (Function.update w.sent role (w.sent role ++ [m]) other) id
    rcases role.eq_or_eq_peer other with rfl | rfl
    · rw [Function.update_of_ne other.peer_ne] at closing
      rw [Function.update_self]
      refine (sound.crossing other id closing).append fun m' last uses => ?_
      rw [List.mem_singleton.mp last] at uses
      rw [MayQueue, uses] at may
      obtain ⟨m'', listed, closes⟩ := closing
      exact may.2.2 m'' listed closes
    · rw [ServiceRole.peer_peer, Function.update_self] at closing
      rw [Function.update_of_ne role.peer_ne]
      obtain ⟨m', listed, closes⟩ := closing
      rcases List.mem_append.mp listed with earlier | last
      · refine sound.crossing role.peer id ⟨m', ?_, closes⟩
        rwa [ServiceRole.peer_peer]
      · rw [List.mem_singleton.mp last] at closes
        rw [MayQueue, closes] at may
        exact may

theorem observeConnections_cases {relay : Finset UInt32} {role : ServiceRole} {m : ServiceHostMessage}
    (plain : Plain role m) (served : ∀ id, m.touch = .uses id → id ∈ relay) :
    observeConnections relay role m.kind m.id = .error "service connection limit exceeded" ∨
      observeConnections relay role m.kind m.id = .ok (replayOne relay m.touch) := by
  obtain ⟨kind, id, data⟩ := m
  rcases plain with ⟨rfl, rfl, rfl⟩ | rfl | ⟨rfl, rfl⟩
  · rw [observeConnections, if_pos rfl, if_neg (by simp), ServiceHostMessage.touch_open, replayOne]
    by_cases known : id ∈ relay
    · rw [if_pos known, Finset.insert_eq_self.mpr known]
      exact .inr rfl
    · rw [if_neg known]
      by_cases full : serviceMaxConnections ≤ relay.card
      · exact .inl (if_pos full)
      · exact .inr (if_neg full)
  · exact .inr (if_pos (served id rfl))
  · exact .inr rfl

/-- **The relay reads a packet**, and passes it on if it does not open too many connections. -/
theorem Flowing.observe (sound : w.Flowing) (intact : w.error = none) (role : ServiceRole) :
    (w.observe role).error = some "service connection limit exceeded" ∨
      (w.observe role).error = none ∧ (w.observe role).Flowing := by
  unfold PreviewWorld.observe
  cases queue : w.sent role with
  | nil => exact .inr ⟨intact, sound⟩
  | cons m rest =>
    have relay := sound.relay role
    rw [queue] at relay
    have plain : Plain role m := sound.plain role m (by simp [queue])
    -- what is left of either queue is part of it
    have fewer : ∀ other m', m' ∈ Function.update w.sent role rest other → m' ∈ w.sent other := by
      intro other m' listed
      by_cases same : other = role
      · subst same
        rw [Function.update_self] at listed
        rw [queue]
        exact List.mem_cons_of_mem _ listed
      · rwa [Function.update_of_ne same] at listed
    -- what is under way to the other end is the same
    have whole : ∀ other, Function.update w.forwarded role (w.forwarded role ++ [m]) other ++
        Function.update w.sent role rest other = w.forwarded other ++ w.sent other := by
      intro other
      by_cases same : other = role
      · subst same
        rw [Function.update_self, Function.update_self, queue, List.append_assoc,
          List.singleton_append]
      · rw [Function.update_of_ne same, Function.update_of_ne same]
    rcases observeConnections_cases plain relay.1 with refused | passed
    · simp only [refused]
      exact .inl trivial
    · simp only [passed]
      refine .inr ⟨intact, fun other => ?_, fun other => ?_, ?_, fun other m' listed => ?_,
        sound.accepting⟩
      · show Served _ (replayOne w.relay m.touch) (Function.update w.sent role rest other)
        rcases role.eq_or_eq_peer other with rfl | rfl
        · rw [Function.update_self]
          exact relay.2
        · rw [Function.update_of_ne role.peer_ne]
          have served := sound.relay role.peer
          cases touched : m.touch with
          | opens id => exact served.mono (Finset.subset_insert _ _)
          | uses id => exact served
          | closes id =>
            refine served.erase (sound.crossing role.peer id ⟨m, ?_, touched⟩)
            rw [ServiceRole.peer_peer, queue]
            exact List.mem_cons_self ..
      · rw [whole]
        exact sound.peer other
      · rintro other id ⟨m', listed, closes⟩ m'' inside
        exact sound.crossing other id ⟨m', fewer _ _ listed, closes⟩ m'' (fewer _ _ inside)
      · rw [whole] at listed
        exact sound.plain other m' listed

/-- **The read loop of an end handles a packet**: its connection is open, so that there is no error. -/
theorem Flowing.readPacket (sound : w.Flowing) {role : ServiceRole} {m : ServiceHostMessage}
    {rest : List ServiceHostMessage} (queue : w.forwarded role.peer = m :: rest) {works : Bool}
    (careful : (w.ends role).GivesUp role m works → Unused (rest ++ w.sent role.peer) m.id) :
    ∃ e, (w.ends role).readPacket role m works = .ok e ∧
      Served ServiceHostMessage.touch e.has (rest ++ w.sent role.peer) ∧
      (role = .host → ∀ conn pump, e.pumps conn = some pump → pump.phase ≠ .opening) := by
  have served := sound.peer role.peer
  rw [ServiceRole.peer_peer, queue] at served
  have plain : Plain role.peer m := sound.plain role.peer m (by simp [queue])
  have accepting : role = .host → ∀ conn pump, (w.ends role).pumps conn = some pump →
      pump.phase ≠ .opening := by
    rintro rfl
    exact sound.accepting
  obtain ⟨kind, id, data⟩ := m
  have writes : kind = kindData → (w.ends role).connections.lookup id ≠ none ∧
      Served ServiceHostMessage.touch ((w.ends role).writeData id works).has
        (rest ++ w.sent role.peer) ∧ ((w.ends role).writeData id works).pumps = (w.ends role).pumps := by
    rintro rfl
    have known := ((w.ends role).mem_has).mp (served.1 id rfl)
    refine ⟨fun none => by simp [none] at known, ?_⟩
    rw [PreviewEnd.writeData]
    cases works with
    | true => exact ⟨served.2, rfl⟩
    | false =>
      refine ⟨?_, rfl⟩
      show Served _ ((w.ends role).closeConnection id).has _
      rw [PreviewEnd.has_closeConnection]
      exact served.2.erase (careful (.inl ⟨rfl, rfl⟩))
  rcases plain with ⟨rfl, opener, rfl⟩ | rfl | ⟨rfl, rfl⟩
  · -- only the host reads an open
    have host : role = .host := by
      cases role
      · cases opener
      · rfl
    subst host
    have later : Served ServiceHostMessage.touch (insert id (w.ends .host).has) _ := served.2
    have refused : (w.ends .host).GivesUp .host ⟨kindOpen, id, []⟩ works →
        Served ServiceHostMessage.touch (w.ends .host).has (rest ++ w.sent ServiceRole.host.peer) := by
      intro gives
      refine (later.erase (careful gives)).mono fun other inside => ?_
      obtain ⟨differs, among⟩ := Finset.mem_erase.mp inside
      exact (Finset.mem_insert.mp among).resolve_left differs
    refine ⟨(w.ends .host).openTarget id works, rfl, ?_, fun _ conn pump found => ?_⟩
    · rw [PreviewEnd.openTarget]
      by_cases full : ((w.ends .host).connections.lookup id).isSome ∨
          16 ≤ (w.ends .host).connections.keys.length
      · rw [if_pos full]
        exact refused (.inr ⟨rfl, rfl, .inr full⟩)
      · rw [if_neg full]
        cases works with
        | false => exact refused (.inr ⟨rfl, rfl, .inl rfl⟩)
        | true =>
          rw [if_neg (by simp), PreviewEnd.has_register]
          exact later
    · rw [PreviewEnd.openTarget] at found
      split_ifs at found
      · exact sound.accepting conn pump found
      · exact sound.accepting conn pump found
      · have found : Function.update (w.ends .host).pumps (w.ends .host).next (some ⟨id, .reading⟩)
            conn = some pump := found
        by_cases new : conn = (w.ends .host).next
        · subst new
          rw [Function.update_self] at found
          cases found
          simp
        · rw [Function.update_of_ne new] at found
          exact sound.accepting conn pump found
  · obtain ⟨known, kept, pumps⟩ := writes rfl
    refine ⟨(w.ends role).writeData id works, ?_, kept, ?_⟩
    · have there : ((w.ends role).connections.lookup id).isNone = false := by
        cases found : (w.ends role).connections.lookup id with
        | none => exact absurd found known
        | some conn => rfl
      cases role with
      | client =>
        rw [PreviewEnd.readPacket, if_pos rfl, if_neg (by simp [there])]
      | host =>
        rw [PreviewEnd.readPacket, if_neg (show kindData ≠ kindOpen by decide), if_pos rfl,
          if_neg (by simp [there])]
    · rw [pumps]
      exact accepting
  · refine ⟨(w.ends role).closeConnection id, ?_, ?_, accepting⟩
    · cases role <;> rfl
    · rw [PreviewEnd.has_closeConnection]
      exact served.2

/-- **An end reads a packet.** -/
theorem Flowing.deliver (sound : w.Flowing) {role : ServiceRole} {works : Bool}
    (careful : w.Careful (.deliver role works)) :
    (w.deliver role works).error = w.error ∧ (w.deliver role works).Flowing := by
  unfold PreviewWorld.deliver
  cases queue : w.forwarded role.peer with
  | nil => exact ⟨rfl, sound⟩
  | cons m rest =>
    cases waiting : (w.ends role).loop with
    | some id => exact ⟨rfl, sound⟩
    | none =>
      rw [Careful, queue] at careful
      obtain ⟨e, read, kept, accepting⟩ := sound.readPacket queue (careful m rfl)
      simp only [read]
      refine ⟨rfl, sound.relay, fun other => ?_, sound.crossing, fun other m' listed => ?_,
        fun conn pump found => ?_⟩
      · show Served _ (Function.update w.ends role e other.peer).has
          (Function.update w.forwarded role.peer rest other ++ w.sent other)
        rcases role.eq_or_eq_peer other with rfl | rfl
        · rw [Function.update_of_ne other.peer_ne, Function.update_of_ne other.peer_ne.symm]
          exact sound.peer other
        · rw [ServiceRole.peer_peer, Function.update_self, Function.update_self]
          exact kept
      · have listed : m' ∈ Function.update w.forwarded role.peer rest other ++ w.sent other := listed
        by_cases same : other = role.peer
        · subst same
          rw [Function.update_self] at listed
          refine sound.plain role.peer m' ?_
          rw [queue]
          exact List.mem_cons_of_mem _ listed
        · rw [Function.update_of_ne same] at listed
          exact sound.plain other m' listed
      · have found : (Function.update w.ends role e .host).pumps conn = some pump := found
        by_cases host : role = .host
        · subst host
          rw [Function.update_self] at found
          exact accepting rfl conn pump found
        · rw [Function.update_of_ne (Ne.symm host)] at found
          exact sound.accepting conn pump found

theorem Flowing.keeps (sound : w.Flowing) {role : ServiceRole} {e : PreviewEnd}
    (more : (w.ends role).has ⊆ e.has)
    (accepting : role = .host → ∀ conn pump, e.pumps conn = some pump → pump.phase ≠ .opening) :
    (w.setEnd role e).Flowing := by
  refine sound.setEnd ?_ accepting
  have served := sound.peer role.peer
  rw [ServiceRole.peer_peer] at served
  exact served.mono more

theorem Flowing.pumps (sound : w.Flowing) {role : ServiceRole} {conn : ℕ} {pump : Option Pump}
    (going : ∀ p ∈ pump, p.phase ≠ .opening) (host : role = .host) (other : ℕ) (p : Pump)
    (found : Function.update (w.ends role).pumps conn pump other = some p) : p.phase ≠ .opening := by
  subst host
  by_cases same : other = conn
  · subst same
    rw [Function.update_self] at found
    exact going p found
  · rw [Function.update_of_ne same] at found
    exact sound.accepting other p found

theorem MayQueue.setEnd {role : ServiceRole} {m : ServiceHostMessage} (may : w.MayQueue role m)
    (e : PreviewEnd) : (w.setEnd role e).MayQueue role m := by
  have peer : (w.setEnd role e).ends role.peer = w.ends role.peer :=
    Function.update_of_ne role.peer_ne _ _
  unfold MayQueue Reaches at may ⊢
  rw [peer]
  exact may

theorem has_acceptConn (e : PreviewEnd) (nextID : UInt32) : e.has ⊆ (e.acceptConn nextID).1.has := by
  rw [PreviewEnd.acceptConn]
  dsimp only
  split_ifs
  · exact Finset.Subset.refl _
  · exact Finset.Subset.refl _
  · rw [PreviewEnd.has_register]
    exact Finset.subset_insert _ _

theorem plain_message {role : ServiceRole} {pump : Pump} {m : ServiceHostMessage}
    (queues : pump.message = some m) (accepting : role = .host → pump.phase ≠ .opening) :
    Plain role m := by
  obtain ⟨id, phase⟩ := pump
  cases phase with
  | opening =>
    cases queues
    cases role
    · exact .inl ⟨rfl, rfl, rfl⟩
    · exact absurd rfl (accepting rfl)
  | reading => cases queues
  | sending data =>
    cases queues
    exact .inr (.inl rfl)
  | closing =>
    cases queues
    exact .inr (.inr ⟨rfl, rfl⟩)

theorem Pump.queued_phase {pump next : Pump} (goes : pump.queued = some next) :
    next.phase = .reading := by
  obtain ⟨id, phase⟩ := pump
  cases phase <;> cases goes <;> rfl

/-- **What one careful step keeps.** -/
theorem flowing_step (sound : w.Flowing) (intact : w.error = none) (event : PreviewEvent)
    (careful : w.Careful event) :
    (w.step event).error = some "service connection limit exceeded" ∨
      (w.step event).error = none ∧ (w.step event).Flowing := by
  unfold step
  rw [if_neg (by simp [intact])]
  cases event with
  | accept =>
    have kept := sound.keeps (has_acceptConn (w.ends .client) w.nextID) fun host => by cases host
    exact .inr ⟨intact, kept.relay, kept.peer, kept.crossing, kept.plain, kept.accepting⟩
  | read role conn data =>
    dsimp only
    split
    · split_ifs
      · exact .inr ⟨intact, sound⟩
      · refine .inr ⟨intact, sound.keeps (Finset.Subset.refl _) (sound.pumps fun p going => ?_)⟩
        cases going
        simp
    · exact .inr ⟨intact, sound⟩
  | finish role conn =>
    dsimp only
    split
    · rename_i id found
      have closing : ∀ p ∈ some (Pump.mk id .closing), p.phase ≠ .opening := by
        intro p going
        cases going
        simp
      rw [PreviewEnd.closeConnectionIf]
      split_ifs with mine
      · have unused := careful _ found mine
        refine .inr ⟨intact, sound.setEnd ?_ (sound.pumps closing)⟩
        rw [PreviewEnd.has_setPump, PreviewEnd.has_closeConnection]
        have served := sound.peer role.peer
        rw [ServiceRole.peer_peer] at served
        exact served.erase unused
      · exact .inr ⟨intact, sound.keeps (Finset.Subset.refl _) (sound.pumps closing)⟩
    · exact .inr ⟨intact, sound⟩
  | enqueue role conn =>
    dsimp only
    split
    · rename_i pump found
      split
      · rename_i m queues
        have plain : Plain role m := plain_message queues fun host => by
          subst host
          exact sound.accepting conn pump found
        have goes : ∀ p ∈ pump.queued, p.phase ≠ .opening := fun p going => by
          rw [Pump.queued_phase going]
          simp
        have kept := sound.keeps (Finset.Subset.refl (w.ends role).has) (e := (w.ends role).setPump
          conn pump.queued) (sound.pumps goes)
        exact .inr ⟨intact, kept.send plain ((careful pump found m queues).setEnd _)⟩
      · exact .inr ⟨intact, sound⟩
    · exact .inr ⟨intact, sound⟩
  | enqueueLoop role =>
    dsimp only
    split
    · rename_i id found
      have accepting : role = .host → ∀ conn pump, (w.ends role).pumps conn = some pump →
          pump.phase ≠ .opening := by
        rintro rfl
        exact sound.accepting
      have kept := sound.keeps (Finset.Subset.refl (w.ends role).has)
        (e := { w.ends role with loop := none }) accepting
      exact .inr ⟨intact, kept.send (.inr (.inr ⟨rfl, rfl⟩)) ((careful id found).setEnd _)⟩
    · exact .inr ⟨intact, sound⟩
  | observe role => exact sound.observe intact role
  | deliver role works =>
    obtain ⟨same, kept⟩ := sound.deliver careful
    exact .inr ⟨same.trans intact, kept⟩

/-- Nobody but the relay's limit has ended the service, and while it runs the packets find their
connections open. -/
structure Sound (w : PreviewWorld) : Prop where
  survives : w.Survives
  flowing : w.error = none → w.Flowing

theorem sound_step (sound : w.Sound) (event : PreviewEvent) (careful : w.Careful event) :
    (w.step event).Sound := by
  cases failed : w.error with
  | some e =>
    have still : w.step event = w := if_pos (by simp [failed])
    rw [still]
    exact sound
  | none =>
    rcases flowing_step (sound.flowing failed) failed event careful with limit | ⟨intact, flowing⟩
    · refine ⟨fun e wrong => ?_, fun intact => ?_⟩
      · rw [limit] at wrong
        exact (Option.some.inj wrong).symm
      · rw [limit] at intact
        cases intact
    · refine ⟨fun e wrong => ?_, fun _ => flowing⟩
      rw [intact] at wrong
      cases wrong

/-- **In a careful run nobody tears the service down** over a packet whose connection has ended: the
only error is the relay's, when a client opens more connections than a lease may have. -/
theorem preview_survives_of_meets {events : List PreviewEvent}
    (careful : Meets step Careful start events) : (run step start events).Survives :=
  have sound : (run step start events).Sound :=
    run_invariant_of_meets Sound (fun _ event sound careful => sound_step sound event careful)
      ⟨fun _ wrong => (Option.some_ne_none _ wrong.symm).elim, fun _ => flowing_start⟩ careful
  sound.survives

/-- Two connections open, one sends and is answered, the host's target ends the other one, and its
close reaches the client. -/
def quietClose : List PreviewEvent :=
  [.accept, .enqueue .client 0, .accept, .observe .client, .enqueue .client 1, .deliver .host true,
    .observe .client, .deliver .host true, .read .client 0 [1], .enqueue .client 0, .observe .client,
    .deliver .host true, .read .host 0 [2], .enqueue .host 0, .observe .host, .deliver .client true,
    .finish .host 1, .enqueue .host 1, .observe .host, .deliver .client true, .finish .client 1,
    .enqueue .client 1, .observe .client, .deliver .host true]

theorem quiet_close_survives : (run step start quietClose).Survives ∧
    (run step start quietClose).error = none ∧
    ((run step start quietClose).ends .client).has = {1} :=
  ⟨preview_survives_of_meets (by decide), by decide, by decide⟩

theorem crossing_data_tears_down :
    (run step start [.accept, .enqueue .client 0, .observe .client, .deliver .host true,
      .read .host 0 [2], .enqueue .host 0, .observe .host, .finish .client 0,
      .deliver .client true]).error = some "data for unopened local connection" := by
  decide

end PreviewWorld

end Atterm.Service
