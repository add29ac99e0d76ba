/-
**The prioritized writer of the WSS fallback.**

Calls take one of the slots and queue their records by priority. One loop writes a record at a time:
it pops the first request of the highest priority, drops it if its context was cancelled, and puts it
back at the head of its queue if records are left.

* `WSSWriter.step` — the calls, the loop, and the close of the channel;
* `WSSWriter.Sound` — what every run keeps;
* `sound_step` — the writer keeps it.
-/

import Atterm.Foundation.Runs
import Atterm.Transport.WSSChannel

namespace Atterm.Transport

open Atterm.Foundation

def wssMaxQueuedRequests : ℕ := 64

abbrev SendRequest := Portion Call

/-- What a request is completed with: no error, that of its context, or a closed channel. -/
inductive Outcome where
  | sent
  | cancelled
  | closed
deriving DecidableEq, Repr

inductive WriterLoop where
  | popping
  | serving (request : SendRequest)
  | waiting
  | returned

structure WSSWriter where
  slots : ℕ
  /-- The calls that have a slot and are not queued yet. -/
  entering : List Call
  queues : WSSPriority → List SendRequest
  loop : WriterLoop
  notified : Bool
  stopped : Bool
  /-- The channel is closed. -/
  closed : Bool
  cancelled : List ℕ
  completions : List (Call × Outcome)
  /-- How many calls there were. -/
  calls : ℕ
  /-- The calls that were queued, in order. -/
  queued : List Call
  /-- The records that were written, in order. -/
  written : List (Portion Call)
  /-- The assemblers of which a message was given up half-way. -/
  abandoned : List Channel

inductive WriterEvent where
  | send (submission : Submission)
  | append (id : ℕ)
  | cancel (id : ℕ)
  | close
  | advance (done : Bool)

def priorities : List WSSPriority := [.control, .terminal, .service, .config]

namespace WSSWriter

def new : WSSWriter where
  slots := 0
  entering := []
  queues := fun _ => []
  loop := .popping
  notified := false
  stopped := false
  closed := false
  cancelled := []
  completions := []
  calls := 0
  queued := []
  written := []
  abandoned := []

section Step

variable (role : Role)

def priority (call : Call) : WSSPriority := call.message.priority role

/-- `enqueue`, up to the slot. -/
def reserve (w : WSSWriter) (submission : Submission) : WSSWriter :=
  if w.slots < wssMaxQueuedRequests then
    { w with
      slots := w.slots + 1
      entering := w.entering ++ [⟨submission, w.calls⟩]
      calls := w.calls + 1 }
  else w

/-- `enqueue`, from the slot on. -/
def append (w : WSSWriter) (id : ℕ) : WSSWriter :=
  match w.entering.find? fun call => call.id = id with
  | none => w
  | some call =>
    let entering := w.entering.filter fun call => call.id ≠ id
    if w.stopped then { w with entering := entering, slots := w.slots - 1 }
    else
      { w with
        entering := entering
        queues := Function.update w.queues (priority role call)
          (w.queues (priority role call) ++ [⟨call, 0⟩])
        queued := w.queued ++ [call]
        notified := true }

def pop (queues : WSSPriority → List SendRequest) :
    Option (SendRequest × (WSSPriority → List SendRequest)) :=
  match priorities.find? fun priority => (queues priority).isEmpty = false with
  | none => none
  | some priority =>
    match queues priority with
    | [] => none
    | request :: rest => some (request, Function.update queues priority rest)

/-- The assembler that is left with a part of the message. -/
def leaves (request : SendRequest) : List Channel :=
  if request.index = 0 then [] else request.item.channel.toList

def complete (w : WSSWriter) (request : SendRequest) (outcome : Outcome) : WSSWriter :=
  { w with
    completions := w.completions ++ [(request.item, outcome)]
    slots := w.slots - 1
    loop := .popping }

def requeue (w : WSSWriter) (request : SendRequest) : WSSWriter :=
  { w with
    queues := Function.update w.queues (priority role request.item)
      (request :: w.queues (priority role request.item))
    notified := true
    loop := .popping }

def serve (w : WSSWriter) (request : SendRequest) : WSSWriter :=
  if request.item.id ∈ w.cancelled then
    { w with abandoned := w.abandoned ++ leaves request }.complete request .cancelled
  else if w.closed then
    { w with abandoned := w.abandoned ++ leaves request }.complete request .closed
  else
    let w := { w with written := w.written ++ [request] }
    if request.index + 1 = request.item.records.length then w.complete request .sent
    else w.requeue role ⟨request.item, request.index + 1⟩

/-- What `stop` completes. -/
def pending (w : WSSWriter) : List SendRequest := priorities.flatMap w.queues

def stop (w : WSSWriter) : WSSWriter :=
  { w with
    stopped := true
    queues := fun _ => []
    completions := w.completions ++ w.pending.map fun request => (request.item, .closed)
    slots := w.slots - w.pending.length
    abandoned := w.abandoned ++ w.pending.flatMap leaves
    loop := .returned }

/-- The loop goes on; `done` is chosen among the channels it waits for. -/
def advance (w : WSSWriter) (done : Bool) : WSSWriter :=
  match w.loop with
  | .popping =>
    match pop w.queues with
    | some (request, queues) => { w with queues := queues, loop := .serving request }
    | none => { w with loop := .waiting }
  | .serving request => w.serve role request
  | .waiting =>
    if done && w.closed then w.stop
    else if w.notified then { w with notified := false, loop := .popping }
    else w
  | .returned => w

def step (w : WSSWriter) : WriterEvent → WSSWriter
  | .send submission => w.reserve submission
  | .append id => w.append role id
  | .cancel id => { w with cancelled := id :: w.cancelled }
  | .close => { w with closed := true }
  | .advance done => w.advance role done

end Step

/-! ### Lanes -/

section Lanes

variable (role : Role)

def held (loop : WriterLoop) (p : WSSPriority) : List SendRequest :=
  match loop with
  | .serving request => if priority role request.item = p then [request] else []
  | .popping | .waiting | .returned => []

def lane (w : WSSWriter) (p : WSSPriority) : List SendRequest := held role w.loop p ++ w.queues p

/-- The assembler's messages wait in one queue. -/
def home : Channel → WSSPriority
  | .terminal | .signal =>
    match role with
    | .client => .control
    | .host => .terminal
  | .config => .config

def total (lane : WSSPriority → List SendRequest) : ℕ :=
  (priorities.map fun p => (lane p).length).sum

theorem mem_priorities (p : WSSPriority) : p ∈ priorities := by
  cases p <;> decide

theorem total_update (lane : WSSPriority → List SendRequest) (p : WSSPriority)
    (items : List SendRequest) :
    total (Function.update lane p items) + (lane p).length = total lane + items.length := by
  cases p <;> simp [total, priorities, Function.update] <;> omega

variable {role} {w : WSSWriter}

theorem held_self (request : SendRequest) :
    held role (.serving request) (priority role request.item) = [request] := if_pos rfl

theorem held_of_ne {request : SendRequest} {p : WSSPriority}
    (other : p ≠ priority role request.item) : held role (.serving request) p = [] :=
  if_neg other.symm

variable (role) in
theorem lane_serving {request : SendRequest} (serving : w.loop = .serving request) :
    w.lane role = Function.update w.queues (priority role request.item)
      (request :: w.queues (priority role request.item)) := by
  funext p
  unfold lane
  rw [serving]
  by_cases own : p = priority role request.item
  · subst own
    rw [held_self, Function.update_self]
    rfl
  · rw [held_of_ne own, Function.update_of_ne own]
    rfl

theorem pop_eq_some {queues after : WSSPriority → List SendRequest} {request : SendRequest}
    (popped : pop queues = some (request, after)) :
    ∃ p, queues p = request :: after p ∧ after = Function.update queues p (after p) := by
  unfold pop at popped
  cases found : priorities.find? fun priority => (queues priority).isEmpty = false with
  | none =>
    rw [found] at popped
    cases popped
  | some p =>
    rw [found] at popped
    dsimp only at popped
    cases waiting : queues p with
    | nil =>
      rw [waiting] at popped
      cases popped
    | cons first rest =>
      rw [waiting] at popped
      obtain ⟨rfl, rfl⟩ := Prod.mk.inj (Option.some.inj popped)
      refine ⟨p, ?_, ?_⟩
      · rw [Function.update_self, waiting]
      · rw [Function.update_self]

theorem pop_eq_none {queues : WSSPriority → List SendRequest} (popped : pop queues = none)
    (p : WSSPriority) : queues p = [] := by
  unfold pop at popped
  cases found : priorities.find? fun priority => (queues priority).isEmpty = false with
  | none =>
    have empty := List.find?_eq_none.mp found p (mem_priorities p)
    simpa using empty
  | some p =>
    have busy := List.find?_some found
    rw [found] at popped
    dsimp only at popped
    cases waiting : queues p with
    | nil => simp [waiting] at busy
    | cons first rest =>
      rw [waiting] at popped
      cases popped

end Lanes

/-! ### What every run keeps -/

/-- The calls that were sent whole, in the order of their last records. -/
def sentCalls (w : WSSWriter) : List Call :=
  (w.completions.filter fun completion => completion.2 = .sent).map Prod.fst

/-- The calls of a queue are completed in its order, what is not completed is in its lane, and every
record before the next one was written. -/
structure Sound (role : Role) (w : WSSWriter) : Prop where
  order : ∀ p, (w.completions.map Prod.fst).filter (priority role · = p) ++
    (w.lane role p).map Portion.item = w.queued.filter (priority role · = p)
  own : ∀ p, ∀ request ∈ w.lane role p, priority role request.item = p
  inside : ∀ p, ∀ request ∈ w.lane role p, request.index < request.item.records.length
  slots : w.slots = w.entering.length + total (w.lane role)
  awake : w.loop = .waiting → w.notified = false → ∀ p, w.queues p = []
  halted : w.stopped = true ↔ w.loop = .returned
  empty : w.stopped = true → ∀ p, w.queues p = []
  distinct : ((w.entering ++ w.queued).map Call.id).Nodup
  numbered : ∀ call ∈ w.entering ++ w.queued, call.id < w.calls
  sent : w.sentCalls = w.written.filterMap wssCutting.finished
  begun : ∀ p, ∀ request ∈ w.lane role p, ∀ i < request.index, ⟨request.item, i⟩ ∈ w.written
  complete : ∀ part ∈ w.written, ∀ i ≤ part.index, ⟨part.item, i⟩ ∈ w.written

variable {role : Role} {w : WSSWriter}

theorem sound_new (role : Role) : new.Sound role where
  order := fun _ => rfl
  own := fun _ _ inside => absurd inside List.not_mem_nil
  inside := fun _ _ inside => absurd inside List.not_mem_nil
  slots := rfl
  awake := fun _ _ _ => rfl
  halted := by simp [new]
  empty := fun _ _ => rfl
  distinct := List.nodup_nil
  numbered := fun _ inside => absurd inside List.not_mem_nil
  sent := rfl
  begun := fun _ _ inside => absurd inside List.not_mem_nil
  complete := fun _ inside => absurd inside List.not_mem_nil

theorem sound_reserve (sound : w.Sound role) (submission : Submission) :
    (w.reserve submission).Sound role := by
  unfold reserve
  by_cases free : w.slots < wssMaxQueuedRequests
  · rw [if_pos free]
    have fresh : ∀ call ∈ w.entering ++ w.queued, call.id ≠ w.calls :=
      fun call inside => (sound.numbered call inside).ne
    have shuffled : ((w.entering ++ [(⟨submission, w.calls⟩ : Call)]) ++ w.queued).Perm
        (⟨submission, w.calls⟩ :: (w.entering ++ w.queued)) := by
      rw [List.append_assoc]
      exact List.perm_middle
    refine ⟨sound.order, sound.own, sound.inside, ?_, sound.awake, sound.halted, sound.empty, ?_, ?_,
      sound.sent, sound.begun, sound.complete⟩
    · have slots := sound.slots
      show w.slots + 1 = (w.entering ++ [_]).length + total (w.lane role)
      rw [List.length_append, List.length_singleton]
      omega
    · refine (shuffled.map Call.id).nodup_iff.mpr (List.nodup_cons.mpr ⟨?_, sound.distinct⟩)
      intro inside
      obtain ⟨call, member, same⟩ := List.mem_map.mp inside
      exact fresh call member same
    · intro call inside
      rcases List.mem_cons.mp (shuffled.mem_iff.mp inside) with rfl | old
      · exact Nat.lt_succ_self _
      · exact Nat.lt_succ_of_lt (sound.numbered call old)
  · rw [if_neg free]
    exact sound

theorem perm_cons_filter {calls : List Call} (distinct : (calls.map Call.id).Nodup) {call : Call}
    (inside : call ∈ calls) : calls.Perm (call :: calls.filter fun other => other.id ≠ call.id) := by
  induction calls with
  | nil => cases inside
  | cons first rest ih =>
    rw [List.map_cons, List.nodup_cons] at distinct
    rcases List.mem_cons.mp inside with rfl | later
    · have others : rest.filter (fun other => other.id ≠ call.id) = rest := by
        rw [List.filter_eq_self]
        intro other member
        rw [decide_eq_true_eq]
        exact fun same => distinct.1 (same ▸ List.mem_map_of_mem member)
      rw [List.filter_cons_of_neg (by simp), others]
    · have differs : first.id ≠ call.id :=
        fun same => distinct.1 (same ▸ List.mem_map_of_mem later)
      rw [List.filter_cons_of_pos (by simpa using differs)]
      exact ((ih distinct.2 later).cons first).trans (List.Perm.swap call first _)

variable (role) in
theorem append_cases (distinct : ((w.entering ++ w.queued).map Call.id).Nodup) (id : ℕ) :
    w.append role id = w ∨ ∃ call rest, w.entering.Perm (call :: rest) ∧ w.append role id =
      if w.stopped then { w with entering := rest, slots := w.slots - 1 }
      else
        { w with
          entering := rest
          queues := Function.update w.queues (priority role call)
            (w.queues (priority role call) ++ [⟨call, 0⟩])
          queued := w.queued ++ [call]
          notified := true } := by
  cases found : w.entering.find? fun call => call.id = id with
  | none =>
    refine Or.inl ?_
    rw [append, found]
  | some call =>
    have named : call.id = id := by simpa using List.find?_some found
    rw [List.map_append] at distinct
    have enters := perm_cons_filter (List.Nodup.of_append_left distinct)
      (List.mem_of_find?_eq_some found)
    refine Or.inr ⟨call, _, enters, ?_⟩
    rw [append, found, named]

theorem lane_append (call : Call) (queued : List Call) (entering : List Call) :
    ({ w with
        entering := entering
        queues := Function.update w.queues (priority role call)
          (w.queues (priority role call) ++ [⟨call, 0⟩])
        queued := queued
        notified := true } : WSSWriter).lane role =
      Function.update (w.lane role) (priority role call)
        (w.lane role (priority role call) ++ [⟨call, 0⟩]) := by
  funext p
  by_cases own : p = priority role call
  · subst own
    simp only [lane, Function.update_self, List.append_assoc]
  · simp only [lane, Function.update_of_ne own]

theorem sound_append (sound : w.Sound role) (id : ℕ) : (w.append role id).Sound role := by
  rcases append_cases role sound.distinct id with same | ⟨call, rest, enters, appended⟩
  · rw [same]
    exact sound
  · have shuffled : (w.entering ++ w.queued).Perm (call :: (rest ++ w.queued)) :=
      enters.append_right w.queued
    have distinct := (shuffled.map Call.id).nodup_iff.mp sound.distinct
    have slots := sound.slots
    have count := enters.length_eq
    rw [List.length_cons] at count
    rw [appended]
    by_cases stopped : w.stopped = true
    · rw [if_pos stopped]
      refine ⟨sound.order, sound.own, sound.inside, ?_, sound.awake, sound.halted, sound.empty,
        ?_, ?_, sound.sent, sound.begun, sound.complete⟩
      · show w.slots - 1 = rest.length + total (w.lane role)
        omega
      · exact (List.nodup_cons.mp distinct).2
      · exact fun other inside =>
          sound.numbered other (shuffled.mem_iff.mpr (List.mem_cons_of_mem _ inside))
    · rw [if_neg stopped]
      have running : w.stopped = false := Bool.eq_false_iff.mpr stopped
      have moved : (rest ++ (w.queued ++ [call])).Perm (call :: (rest ++ w.queued)) := by
        rw [← List.append_assoc]
        exact List.perm_append_singleton call _
      have members : ∀ p, ∀ request ∈ Function.update (w.lane role) (priority role call)
          (w.lane role (priority role call) ++ [⟨call, 0⟩]) p,
          request ∈ w.lane role p ∨ (p = priority role call ∧ request = ⟨call, 0⟩) := by
        intro p request inside
        by_cases own : p = priority role call
        · subst own
          rw [Function.update_self, List.mem_append, List.mem_singleton] at inside
          exact inside.imp_right fun new => ⟨rfl, new⟩
        · rw [Function.update_of_ne own] at inside
          exact Or.inl inside
      refine ⟨?_, ?_, ?_, ?_, ?_, sound.halted, ?_, ?_, ?_, sound.sent, ?_, sound.complete⟩
      · intro p
        rw [lane_append]
        by_cases own : p = priority role call
        · subst own
          rw [Function.update_self, List.filter_append, List.map_append, ← List.append_assoc,
            sound.order, List.filter_singleton]
          simp
        · rw [Function.update_of_ne own, List.filter_append, List.filter_singleton, sound.order]
          simp [Ne.symm own]
      · rw [lane_append]
        intro p request inside
        rcases members p request inside with old | ⟨rfl, rfl⟩
        · exact sound.own p request old
        · rfl
      · rw [lane_append]
        intro p request inside
        rcases members p request inside with old | ⟨rfl, rfl⟩
        · exact sound.inside p request old
        · exact call.length_records_pos
      · rw [lane_append]
        have grown := total_update (w.lane role) (priority role call)
          (w.lane role (priority role call) ++ [⟨call, 0⟩])
        rw [List.length_append, List.length_singleton] at grown
        show w.slots = rest.length + total _
        omega
      · intro _ quiet
        cases quiet
      · exact fun halted => absurd halted stopped
      · exact (moved.map Call.id).nodup_iff.mpr distinct
      · intro other inside
        exact sound.numbered other (shuffled.mem_iff.mpr (moved.mem_iff.mp inside))
      · rw [lane_append]
        intro p request inside i below
        rcases members p request inside with old | ⟨rfl, rfl⟩
        · exact sound.begun p request old i below
        · exact absurd below (Nat.not_lt_zero i)

/-! ### The loop -/

theorem lane_pop {request : SendRequest} {queues : WSSPriority → List SendRequest}
    (own : ∀ p, ∀ request ∈ w.lane role p, priority role request.item = p)
    (popping : w.loop = .popping) (popped : pop w.queues = some (request, queues)) :
    ({ w with queues := queues, loop := .serving request } : WSSWriter).lane role = w.lane role := by
  obtain ⟨p, waiting, rest⟩ := pop_eq_some popped
  have lanes : w.lane role = w.queues := by
    funext q
    rw [lane, popping]
    rfl
  have at_home : priority role request.item = p := by
    refine own p request ?_
    rw [lanes, waiting]
    exact List.mem_cons_self
  rw [lane_serving _ rfl, lanes, at_home]
  show Function.update queues p (request :: queues p) = w.queues
  rw [← waiting, rest, Function.update_idem, Function.update_eq_self]

theorem Sound.congr {after : WSSWriter} (sound : w.Sound role)
    (lanes : after.lane role = w.lane role) (completions : after.completions = w.completions)
    (queued : after.queued = w.queued) (entering : after.entering = w.entering)
    (slots : after.slots = w.slots) (calls : after.calls = w.calls)
    (written : after.written = w.written)
    (awake : after.loop = .waiting → after.notified = false → ∀ p, after.queues p = [])
    (halted : after.stopped = true ↔ after.loop = .returned)
    (empty : after.stopped = true → ∀ p, after.queues p = []) : after.Sound role where
  order := by
    rw [lanes, completions, queued]
    exact sound.order
  own := lanes ▸ sound.own
  inside := lanes ▸ sound.inside
  slots := by
    rw [lanes, slots, entering]
    exact sound.slots
  awake := awake
  halted := halted
  empty := empty
  distinct := by
    rw [entering, queued]
    exact sound.distinct
  numbered := by
    rw [entering, queued, calls]
    exact sound.numbered
  sent := by
    rw [sentCalls, completions, written]
    exact sound.sent
  begun := by
    rw [lanes, written]
    exact sound.begun
  complete := by
    rw [written]
    exact sound.complete

theorem sound_popping (sound : w.Sound role) (popping : w.loop = .popping) :
    (match pop w.queues with
      | some (request, queues) => { w with queues := queues, loop := .serving request }
      | none => { w with loop := .waiting } : WSSWriter).Sound role := by
  have running : ¬w.stopped = true := by
    rw [sound.halted, popping]
    simp
  cases popped : pop w.queues with
  | none =>
    have empty := pop_eq_none popped
    refine sound.congr ?_ rfl rfl rfl rfl rfl rfl (fun _ _ => empty) ?_ fun _ => empty
    · funext p
      simp only [lane, popping]
      rfl
    · exact iff_of_false running (by simp)
  | some result =>
    obtain ⟨request, queues⟩ := result
    refine sound.congr (lane_pop sound.own popping popped) rfl rfl rfl rfl rfl rfl ?_ ?_ ?_
    · exact fun waiting => absurd waiting (by simp)
    · exact iff_of_false running (by simp)
    · exact fun halted => absurd halted running

theorem sound_served (sound : w.Sound role) {request : SendRequest}
    (serving : w.loop = .serving request) {after : WSSWriter} {rest : List SendRequest}
    (loop : after.loop = .popping) (queues : after.queues =
      Function.update w.queues (priority role request.item) rest)
    (rest_or : (rest = w.queues (priority role request.item) ∧
        ∃ outcome, after.completions = w.completions ++ [(request.item, outcome)] ∧
          after.slots = w.slots - 1) ∨
      (rest = ⟨request.item, request.index + 1⟩ :: w.queues (priority role request.item) ∧
        request.index + 1 < request.item.records.length ∧
        ⟨request.item, request.index⟩ ∈ after.written ∧
        after.completions = w.completions ∧ after.slots = w.slots))
    (sent : after.sentCalls = after.written.filterMap wssCutting.finished)
    (written : ∀ part ∈ w.written, part ∈ after.written)
    (complete : ∀ part ∈ after.written, ∀ i ≤ part.index, ⟨part.item, i⟩ ∈ after.written)
    (queued : after.queued = w.queued) (entering : after.entering = w.entering)
    (calls : after.calls = w.calls) (stopped : after.stopped = w.stopped) :
    after.Sound role := by
  have lanes := lane_serving role serving
  have after_lanes : after.lane role = after.queues := by
    funext p
    rw [lane, loop]
    rfl
  have running : ¬w.stopped = true := by
    rw [sound.halted, serving]
    simp
  have here : w.lane role (priority role request.item) =
      request :: w.queues (priority role request.item) := by
    rw [lanes, Function.update_self]
  have elsewhere : ∀ p, p ≠ priority role request.item → w.lane role p = w.queues p := by
    intro p other
    rw [lanes, Function.update_of_ne other]
  have members : ∀ p, ∀ other ∈ after.queues p, other ∈ w.lane role p ∨
      (p = priority role request.item ∧ other = ⟨request.item, request.index + 1⟩ ∧
        request.index + 1 < request.item.records.length ∧ request ∈ after.written) := by
    intro p other inside
    by_cases own : p = priority role request.item
    · subst own
      rw [queues, Function.update_self] at inside
      rw [here]
      rcases rest_or with ⟨rfl, _⟩ | ⟨rfl, more, wrote, _⟩
      · exact Or.inl (List.mem_cons_of_mem _ inside)
      · rcases List.mem_cons.mp inside with rfl | behind
        · exact Or.inr ⟨rfl, rfl, more, wrote⟩
        · exact Or.inl (List.mem_cons_of_mem _ behind)
    · rw [queues, Function.update_of_ne own] at inside
      rw [elsewhere p own]
      exact Or.inl inside
  have head : request ∈ w.lane role (priority role request.item) := here ▸ List.mem_cons_self
  refine ⟨?_, ?_, ?_, ?_, ?_, ?_, ?_, ?_, ?_, sent, ?_, complete⟩
  · intro p
    have order := sound.order p
    rw [after_lanes, queues, queued, ← order]
    by_cases own : p = priority role request.item
    · subst own
      rw [here, Function.update_self]
      rcases rest_or with ⟨rfl, outcome, completions, _⟩ | ⟨rfl, _, _, completions, _⟩
      · rw [completions, List.map_append, List.filter_append, List.append_assoc]
        simp
      · rw [completions]
        rfl
    · rw [elsewhere p own, Function.update_of_ne own]
      rcases rest_or with ⟨rfl, outcome, completions, _⟩ | ⟨rfl, _, _, completions, _⟩
      · rw [completions, List.map_append, List.filter_append]
        simp [Ne.symm own]
      · rw [completions]
  · rw [after_lanes]
    intro p other inside
    rcases members p other inside with old | ⟨rfl, rfl, _⟩
    · exact sound.own p other old
    · rfl
  · rw [after_lanes]
    intro p other inside
    rcases members p other inside with old | ⟨rfl, rfl, more, _⟩
    · exact sound.inside p other old
    · exact more
  · have slots := sound.slots
    have before := total_update w.queues (priority role request.item)
      (request :: w.queues (priority role request.item))
    have behind := total_update w.queues (priority role request.item) rest
    rw [lanes] at slots
    rw [List.length_cons] at before
    rw [after_lanes, queues, entering]
    rcases rest_or with ⟨rfl, _, _, count⟩ | ⟨rfl, _, _, _, count⟩
    · omega
    · rw [List.length_cons] at behind
      omega
  · rw [loop]
    exact fun waiting => absurd waiting (by simp)
  · rw [loop, stopped]
    exact iff_of_false running (by simp)
  · rw [stopped]
    exact fun halted => absurd halted running
  · rw [entering, queued]
    exact sound.distinct
  · rw [entering, queued, calls]
    exact sound.numbered
  · rw [after_lanes]
    intro p other inside i below
    rcases members p other inside with old | ⟨rfl, rfl, _, wrote⟩
    · exact written _ (sound.begun p other old i below)
    · exact complete request wrote i (Nat.lt_succ_iff.mp below)

theorem complete_concat (sound : w.Sound role) {request : SendRequest}
    (serving : w.loop = .serving request) : ∀ part ∈ w.written ++ [request], ∀ i ≤ part.index,
      (⟨part.item, i⟩ : SendRequest) ∈ w.written ++ [request] := by
  have head : request ∈ w.lane role (priority role request.item) := by
    rw [lane_serving _ serving, Function.update_self]
    exact List.mem_cons_self
  intro part inside i before
  rcases List.mem_append.mp inside with old | new
  · exact List.mem_append_left _ (sound.complete part old i before)
  · obtain rfl := List.mem_singleton.mp new
    rcases before.lt_or_eq with earlier | rfl
    · exact List.mem_append_left _ (sound.begun _ part head i earlier)
    · exact List.mem_append_right _ (List.mem_singleton.mpr rfl)

theorem sentCalls_unsent {outcome : Outcome} (failed : outcome ≠ .sent) (call : Call) :
    ((w.completions ++ [(call, outcome)]).filter fun completion => completion.2 = .sent).map Prod.fst
      = w.sentCalls := by
  rw [List.filter_append, List.filter_singleton]
  simp [failed, sentCalls]

theorem sound_drop (sound : w.Sound role) {request : SendRequest}
    (serving : w.loop = .serving request) {outcome : Outcome} (failed : outcome ≠ .sent)
    (abandoned : List Channel) :
    ({ w with abandoned := abandoned }.complete request outcome).Sound role := by
  refine sound_served sound serving rfl (Function.update_eq_self _ _).symm
    (Or.inl ⟨rfl, outcome, rfl, rfl⟩) ?_ (fun _ => id) sound.complete rfl rfl rfl rfl
  exact (sentCalls_unsent failed request.item).trans sound.sent

variable (role) in
theorem serve_dropped {request : SendRequest}
    (dropped : request.item.id ∈ w.cancelled ∨ w.closed = true) :
    (w.serve role request).loop = .popping ∧ (w.serve role request).queues = w.queues ∧
      (w.serve role request).written = w.written ∧
      (w.serve role request).abandoned = w.abandoned ++ leaves request := by
  unfold serve
  by_cases cancelled : request.item.id ∈ w.cancelled
  · rw [if_pos cancelled]
    exact ⟨rfl, rfl, rfl, rfl⟩
  · rw [if_neg cancelled, if_pos (dropped.resolve_left cancelled)]
    exact ⟨rfl, rfl, rfl, rfl⟩

variable (role) in
theorem serve_wrote {request : SendRequest}
    (kept : ¬(request.item.id ∈ w.cancelled ∨ w.closed = true))
    (inside : request.index < request.item.records.length) :
    (w.serve role request).loop = .popping ∧
      (w.serve role request).queues = Function.update w.queues (priority role request.item)
        (wssCutting.remaining request (w.queues (priority role request.item))) ∧
      (w.serve role request).written = w.written ++ [request] ∧
      (w.serve role request).abandoned = w.abandoned := by
  obtain ⟨live, opened⟩ := not_or.mp kept
  unfold serve
  rw [if_neg live, if_neg opened]
  by_cases last : request.index + 1 = request.item.records.length
  · have finished : ¬request.index + 1 < wssCutting.length request.item := last.not_lt
    rw [Cutting.remaining, if_neg finished]
    dsimp only
    rw [if_pos last]
    exact ⟨rfl, (Function.update_eq_self _ _).symm, rfl, rfl⟩
  · have more : request.index + 1 < wssCutting.length request.item := by
      show request.index + 1 < request.item.records.length
      omega
    rw [Cutting.remaining, if_pos more]
    dsimp only
    rw [if_neg last]
    exact ⟨rfl, rfl, rfl, rfl⟩

theorem inside_serving (sound : w.Sound role) {request : SendRequest}
    (serving : w.loop = .serving request) : request.index < request.item.records.length := by
  refine sound.inside (priority role request.item) request ?_
  rw [lane_serving _ serving, Function.update_self]
  exact List.mem_cons_self

theorem lane_popping (popping : w.loop = .popping) : w.lane role = w.queues := by
  funext p
  rw [lane, popping]
  rfl

theorem sound_serve (sound : w.Sound role) {request : SendRequest}
    (serving : w.loop = .serving request) : (w.serve role request).Sound role := by
  unfold serve
  by_cases cancelled : request.item.id ∈ w.cancelled
  · rw [if_pos cancelled]
    exact sound_drop sound serving (by decide) _
  · rw [if_neg cancelled]
    by_cases closed : w.closed = true
    · rw [if_pos closed]
      exact sound_drop sound serving (by decide) _
    · rw [if_neg closed]
      have written : ∀ part ∈ w.written, part ∈ w.written ++ [request] :=
        fun part => List.mem_append_left _
      have inside := inside_serving sound serving
      by_cases last : request.index + 1 = request.item.records.length
      · have finished : wssCutting.finished request = some request.item := if_pos last
        dsimp only
        rw [if_pos last]
        refine sound_served sound serving rfl (Function.update_eq_self _ _).symm
          (Or.inl ⟨rfl, .sent, rfl, rfl⟩) ?_ written (complete_concat sound serving) rfl rfl rfl rfl
        show ((w.completions ++ [(request.item, Outcome.sent)]).filter
          fun completion => completion.2 = .sent).map Prod.fst = (w.written ++ [request]).filterMap _
        rw [List.filter_append, List.map_append, List.filterMap_append, ← sound.sent]
        simp [finished, sentCalls]
      · have unfinished : wssCutting.finished request = none := if_neg last
        dsimp only
        rw [if_neg last]
        refine sound_served sound serving rfl rfl
          (Or.inr ⟨rfl, by omega, List.mem_append_right _ (List.mem_singleton.mpr rfl), rfl, rfl⟩)
          ?_ written (complete_concat sound serving) rfl rfl rfl rfl
        show w.sentCalls = (w.written ++ [request]).filterMap _
        rw [List.filterMap_append, ← sound.sent]
        simp [unfinished]

variable (role) in
theorem flatMap_filter {lane : WSSPriority → List SendRequest}
    (own : ∀ p, ∀ request ∈ lane p, priority role request.item = p) (p : WSSPriority) :
    ((priorities.flatMap lane).map Portion.item).filter (priority role · = p) =
      (lane p).map Portion.item := by
  have filtered : ∀ q, ((lane q).map Portion.item).filter (priority role · = p) =
      if q = p then (lane q).map Portion.item else [] := by
    intro q
    by_cases same : q = p
    · rw [if_pos same, List.filter_eq_self]
      intro call inside
      obtain ⟨request, waiting, rfl⟩ := List.mem_map.mp inside
      rw [decide_eq_true_eq, own q request waiting, same]
    · rw [if_neg same, List.filter_eq_nil_iff]
      intro call inside
      obtain ⟨request, waiting, rfl⟩ := List.mem_map.mp inside
      rw [decide_eq_true_eq, own q request waiting]
      exact same
  simp only [priorities, List.flatMap_cons, List.flatMap_nil, List.map_append,
    List.filter_append, filtered, List.map_nil, List.filter_nil]
  cases p <;> simp

theorem length_pending : w.pending.length = total w.queues := by
  simp [pending, total, List.length_flatMap]

theorem sound_stop (sound : w.Sound role) (waiting : w.loop = .waiting) : w.stop.Sound role := by
  have lanes : w.lane role = w.queues := by
    funext p
    rw [lane, waiting]
    rfl
  have after : w.stop.lane role = fun _ => [] := rfl
  have own := sound.own
  rw [lanes] at own
  refine ⟨?_, ?_, ?_, ?_, ?_, ?_, fun _ _ => rfl, sound.distinct, sound.numbered, ?_, ?_,
    sound.complete⟩
  · intro p
    show ((w.completions ++ w.pending.map fun request => (request.item, Outcome.closed)).map
      Prod.fst).filter _ ++ [] = w.queued.filter _
    rw [List.append_nil, List.map_append, List.filter_append, ← sound.order p, lanes, List.map_map,
      ← flatMap_filter role own p]
    rfl
  · exact fun p request inside => absurd inside List.not_mem_nil
  · exact fun p request inside => absurd inside List.not_mem_nil
  · have slots := sound.slots
    rw [lanes] at slots
    show w.slots - w.pending.length = w.entering.length + 0
    rw [length_pending]
    omega
  · exact fun halted => absurd halted (by simp [stop])
  · exact iff_of_true rfl rfl
  · show ((w.completions ++ w.pending.map fun request => (request.item, Outcome.closed)).filter
      fun completion => completion.2 = .sent).map Prod.fst = w.written.filterMap _
    rw [List.filter_append, List.map_append, ← sound.sent]
    have none : ((w.pending.map fun request => (request.item, Outcome.closed)).filter
        fun completion => completion.2 = .sent) = [] := by
      rw [List.filter_eq_nil_iff]
      intro completion inside
      obtain ⟨request, _, rfl⟩ := List.mem_map.mp inside
      simp
    rw [none]
    exact List.append_nil _
  · exact fun p request inside => absurd inside List.not_mem_nil

/-- **One step.** Whatever happens, the writer keeps it. -/
theorem sound_step (sound : w.Sound role) (event : WriterEvent) : (w.step role event).Sound role := by
  cases event with
  | send submission => exact sound_reserve sound submission
  | append id => exact sound_append sound id
  | cancel id =>
    exact sound.congr rfl rfl rfl rfl rfl rfl rfl sound.awake sound.halted sound.empty
  | close => exact sound.congr rfl rfl rfl rfl rfl rfl rfl sound.awake sound.halted sound.empty
  | advance done =>
    show (w.advance role done).Sound role
    unfold advance
    cases loop : w.loop with
    | popping => exact sound_popping sound loop
    | serving request => exact sound_serve sound loop
    | returned => exact sound
    | waiting =>
      dsimp only
      by_cases finished : (done && w.closed) = true
      · rw [if_pos finished]
        exact sound_stop sound loop
      · rw [if_neg finished]
        by_cases notified : w.notified = true
        · rw [if_pos notified]
          have running : ¬w.stopped = true := by
            rw [sound.halted, loop]
            simp
          refine sound.congr ?_ rfl rfl rfl rfl rfl rfl ?_ ?_ sound.empty
          · funext p
            simp only [lane, loop]
            rfl
          · exact fun waiting => absurd waiting (by simp)
          · exact iff_of_false running (by simp)
        · rw [if_neg notified]
          exact sound

variable (role) in
theorem written_step (w : WSSWriter) (event : WriterEvent) :
    w.written <+: (w.step role event).written := by
  have same := List.prefix_refl w.written
  cases event with
  | send submission =>
    show w.written <+: (w.reserve submission).written
    unfold reserve
    split_ifs <;> exact same
  | append id =>
    show w.written <+: (w.append role id).written
    unfold append
    split
    · exact same
    · dsimp only
      split_ifs <;> exact same
  | cancel id => exact same
  | close => exact same
  | advance done =>
    show w.written <+: (w.advance role done).written
    unfold advance
    cases w.loop with
    | popping =>
      dsimp only
      split <;> exact same
    | serving request =>
      dsimp only
      unfold serve
      split_ifs
      · exact same
      · exact same
      · exact List.prefix_append _ _
      · exact List.prefix_append _ _
    | waiting =>
      dsimp only
      split_ifs <;> exact same
    | returned => exact same

/-! ### The loop, left alone -/

def left (lane : WSSPriority → List SendRequest) : ℕ :=
  (priorities.map fun p => ((lane p).map fun request =>
    request.item.records.length - request.index).sum).sum

theorem left_update (lane : WSSPriority → List SendRequest) (p : WSSPriority)
    (items : List SendRequest) :
    left (Function.update lane p items) +
        ((lane p).map fun request => request.item.records.length - request.index).sum =
      left lane + (items.map fun request => request.item.records.length - request.index).sum := by
  cases p <;> simp [left, priorities, Function.update] <;> omega

/-- How far the loop is from having nothing to do. -/
def distance (role : Role) (w : WSSWriter) : ℕ :=
  3 * left (w.lane role) +
    match w.loop with
    | .waiting => 2
    | .popping => 1
    | .serving _ | .returned => 0

theorem distance_serve (sound : w.Sound role) {request : SendRequest}
    (serving : w.loop = .serving request) :
    (w.serve role request).distance role < w.distance role := by
  have inside := inside_serving sound serving
  have before := left_update w.queues (priority role request.item)
    (request :: w.queues (priority role request.item))
  rw [List.map_cons, List.sum_cons] at before
  unfold distance
  rw [lane_serving _ serving, serving]
  by_cases dropped : request.item.id ∈ w.cancelled ∨ w.closed = true
  · obtain ⟨loop, queues, _⟩ := serve_dropped role dropped
    rw [lane_popping loop, loop, queues]
    dsimp only
    omega
  · obtain ⟨loop, queues, _⟩ := serve_wrote role dropped inside
    rw [lane_popping loop, loop, queues]
    have later := left_update w.queues (priority role request.item)
      (wssCutting.remaining request (w.queues (priority role request.item)))
    by_cases more : request.index + 1 < wssCutting.length request.item
    · have further : request.index + 1 < request.item.records.length := more
      rw [Cutting.remaining, if_pos more] at later ⊢
      rw [List.map_cons, List.sum_cons] at later
      dsimp only at later ⊢
      omega
    · rw [Cutting.remaining, if_neg more] at later ⊢
      dsimp only
      omega

theorem distance_advance (sound : w.Sound role) (busy : ¬∀ p, w.lane role p = []) :
    (w.advance role false).distance role < w.distance role := by
  have lanes : (∀ request, w.loop ≠ .serving request) → w.lane role = w.queues := by
    intro idle
    funext p
    unfold lane held
    cases loop : w.loop with
    | serving request => exact absurd loop (idle request)
    | popping | waiting | returned => rfl
  unfold advance
  cases loop : w.loop with
  | serving request => exact distance_serve sound loop
  | popping =>
    have at_rest := lanes (by simp [loop])
    cases popped : pop w.queues with
    | none =>
      rw [at_rest] at busy
      exact absurd (pop_eq_none popped) busy
    | some result =>
      obtain ⟨request, queues⟩ := result
      dsimp only
      unfold distance
      rw [lane_pop sound.own loop popped, loop]
      dsimp only
      omega
  | waiting =>
    have at_rest := lanes (by simp [loop])
    by_cases notified : w.notified = true
    · dsimp only
      rw [Bool.false_and, if_neg Bool.false_ne_true, if_pos notified]
      unfold distance
      have same : ({ w with notified := false, loop := .popping } : WSSWriter).lane role
          = w.lane role := by
        funext p
        simp only [lane, loop]
        rfl
      rw [same, loop]
      dsimp only
      omega
    · rw [at_rest] at busy
      exact absurd (sound.awake loop (Bool.eq_false_iff.mpr notified)) busy
  | returned =>
    have at_rest := lanes (by simp [loop])
    rw [at_rest] at busy
    exact absurd (sound.empty (sound.halted.mpr loop)) busy

/-- **The loop, left alone, completes what is queued.** -/
theorem exists_settled (sound : w.Sound role) : ∃ rounds,
    ∀ p, (run (step role) w (List.replicate rounds (.advance false))).lane role p = [] := by
  have preserves : ∀ w : WSSWriter, w.Sound role → (w.step role (.advance false)).Sound role :=
    fun w sound => sound_step sound _
  have closer : ∀ w : WSSWriter, w.Sound role → ¬(∀ p, w.lane role p = []) →
      (w.step role (.advance false)).distance role < w.distance role :=
    fun w sound busy => distance_advance sound busy
  exact exists_reached (WSSWriter.Sound role) (fun w => ∀ p, w.lane role p = []) (distance role)
    preserves closer sound

/-- **Every queued call is completed, or is in its lane, once.** -/
theorem Sound.accounted (sound : w.Sound role) : (w.completions.map Prod.fst ++
    (priorities.flatMap (w.lane role)).map Portion.item).Perm w.queued := by
  classical
  refine List.perm_iff_count.mpr fun call => ?_
  have counted : ∀ calls : List Call, (calls.filter (priority role · = priority role call)).count call
      = calls.count call := fun calls => List.count_filter (by simp)
  rw [← counted, List.filter_append, flatMap_filter role sound.own, sound.order, counted]

theorem Sound.settled (sound : w.Sound role) (done : ∀ p, w.lane role p = []) :
    (w.completions.map Prod.fst).Perm w.queued ∧ w.slots = w.entering.length := by
  have lanes : w.lane role = fun _ => [] := funext done
  have accounted := sound.accounted
  have slots := sound.slots
  rw [lanes] at accounted slots
  have none : (priorities.flatMap fun _ : WSSPriority => ([] : List SendRequest)) = [] := rfl
  rw [none, List.map_nil, List.append_nil] at accounted
  exact ⟨accounted, slots⟩

/-- What the writer promises about its calls, whatever happens. -/
structure Promises (role : Role) (w : WSSWriter) : Prop where
  once : (w.completions.map fun completion => completion.1.id).Nodup
  inOrder : ∀ p, (w.completions.map Prod.fst).filter (priority role · = p) <+:
    w.queued.filter (priority role · = p)
  freed : (w.completions.map Prod.fst).Perm w.queued → w.slots = w.entering.length
  settles : ∃ rounds,
    let after := run (step role) w (List.replicate rounds (.advance false))
    after.queued = w.queued ∧ after.entering = w.entering ∧
      (after.completions.map Prod.fst).Perm w.queued ∧ after.slots = w.entering.length

variable (role) in
theorem advance_frame (w : WSSWriter) (done : Bool) : (w.advance role done).queued = w.queued ∧
    (w.advance role done).entering = w.entering := by
  unfold advance
  cases w.loop with
  | popping =>
    dsimp only
    cases pop w.queues with
    | none => exact ⟨rfl, rfl⟩
    | some result => exact ⟨rfl, rfl⟩
  | serving request =>
    dsimp only
    unfold serve
    split_ifs <;> exact ⟨rfl, rfl⟩
  | waiting =>
    dsimp only
    split_ifs <;> exact ⟨rfl, rfl⟩
  | returned => exact ⟨rfl, rfl⟩

variable (role) in
theorem run_advance_frame (w : WSSWriter) (rounds : ℕ) :
    let after := run (step role) w (List.replicate rounds (.advance false))
    after.queued = w.queued ∧ after.entering = w.entering := by
  induction rounds generalizing w with
  | zero => exact ⟨rfl, rfl⟩
  | succ rounds ih =>
    obtain ⟨queued, entering⟩ := ih (w.advance role false)
    obtain ⟨queued_first, entering_first⟩ := advance_frame role w false
    exact ⟨queued.trans queued_first, entering.trans entering_first⟩

theorem Sound.promises (sound : w.Sound role) : w.Promises role where
  once := by
    have ids := (sound.accounted.map Call.id).nodup_iff.mpr
      ((List.map_append ▸ sound.distinct).of_append_right)
    rw [List.map_append] at ids
    have completed := ids.of_append_left
    rw [List.map_map] at completed
    exact completed
  inOrder := fun p => ⟨_, sound.order p⟩
  freed := by
    intro all
    have none : ∀ p, w.lane role p = [] := by
      intro p
      have count := congrArg List.length (sound.order p)
      rw [List.length_append, (all.filter _).length_eq, List.length_map] at count
      exact List.length_eq_zero_iff.mp (by omega)
    exact (sound.settled none).2
  settles := by
    obtain ⟨rounds, done⟩ := exists_settled sound
    obtain ⟨queued, entering⟩ := run_advance_frame role w rounds
    have after := run_invariant (WSSWriter.Sound role)
      (fun _ event sound => sound_step sound event) sound (List.replicate rounds (.advance false))
    obtain ⟨all, slots⟩ := after.settled done
    exact ⟨rounds, queued, entering, queued ▸ all, slots.trans (congrArg List.length entering)⟩

end WSSWriter

end Atterm.Transport
