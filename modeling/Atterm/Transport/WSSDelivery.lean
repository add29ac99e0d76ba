/-
**What arrives of the messages of the WSS fallback.**

The peer reads the written records in order, each at a time of its own. A message that is given up
after a part of it was written stays in the peer's assembler, and so does one that takes too long.

* `WSSWorld.step` — the writer at one end and the receiver at the other;
* `WSSWorld.Sound` — what every careful run keeps;
* `delivers_of_meets` — what the writer promises, and when the peer is handed what was written.
-/

import Atterm.Transport.WSSWriter

namespace Atterm.Transport

open Atterm.Foundation

structure WSSWorld where
  writer : WSSWriter
  /-- How many of the written records the peer has read. -/
  read : ℕ
  receiver : WSSReceiver
  delivered : List Delivery
  /-- What ended the peer's reading. -/
  rejection : Option FragmentError

inductive WSSEvent where
  | writer (event : WriterEvent)
  | receive (now : ℤ)

namespace WSSWorld

def start : WSSWorld := ⟨.new, 0, .new, [], none⟩

def unread (w : WSSWorld) : Option PlainRecord :=
  w.writer.written[w.read]?.bind fun part => part.item.records[part.index]?

variable (role : Role)

def receive (w : WSSWorld) (now : ℤ) : WSSWorld :=
  match w.rejection, w.unread with
  | none, some record =>
    match w.receiver.receive record now with
    | (.ok delivery, receiver) =>
      { w with
        read := w.read + 1
        receiver := receiver
        delivered := w.delivered ++ delivery.toList }
    | (.error error, receiver) =>
      { w with read := w.read + 1, receiver := receiver, rejection := some error }
  | _, _ => w

def step (w : WSSWorld) : WSSEvent → WSSWorld
  | .writer event => { w with writer := w.writer.step role event }
  | .receive now => w.receive now

/-- No part of a message is written to an assembler of which a message was given up half-way, and
every part is read in time. -/
def Careful (w : WSSWorld) : WSSEvent → Prop
  | .writer (.advance _) =>
    match w.writer.loop with
    | .serving request =>
      ¬(request.item.id ∈ w.writer.cancelled ∨ w.writer.closed = true) →
        ∀ c ∈ request.item.channel, c ∉ w.writer.abandoned
    | .popping | .waiting | .returned => True
  | .writer (.send _) | .writer (.append _) | .writer (.cancel _) | .writer .close => True
  | .receive now => w.rejection = none → ∀ record ∈ w.unread, w.receiver.late record now = false

instance (w : WSSWorld) : (event : WSSEvent) → Decidable (w.Careful event)
  | .writer (.advance _) => by
    unfold Careful
    dsimp only
    split <;> infer_instance
  | .writer (.send _) | .writer (.append _) | .writer (.cancel _) | .writer .close =>
    inferInstanceAs (Decidable True)
  | .receive now => inferInstanceAs (Decidable (w.rejection = none → ∀ record ∈ w.unread,
      w.receiver.late record now = false))

/-! ### What every careful run keeps -/

def expected (written : List (Portion Call)) : Channel → Option (Portion Call) :=
  run wssCutting.follow (fun _ => none) written

/-- The messages whose last parts are among what was written. -/
def arrivals (written : List (Portion Call)) : List Delivery :=
  (written.filterMap wssCutting.finished).map fun call => call.message.delivery

structure Sound (w : WSSWorld) : Prop where
  writer : w.writer.Sound role
  lined : wssCutting.Lined (WSSWriter.home role) (w.writer.lane role) (expected w.writer.written)
    (· ∈ w.writer.abandoned)
  fits : Meets wssCutting.follow wssCutting.Fits (fun _ => none) w.writer.written
  inside : ∀ part ∈ w.writer.written, part.index < part.item.records.length
  read_le : w.read ≤ w.writer.written.length
  receiver : w.receiver.Expects (expected (w.writer.written.take w.read))
  delivered : w.delivered = arrivals (w.writer.written.take w.read)
  accepted : w.rejection = none

variable {role} {w : WSSWorld}

theorem sound_start : start.Sound role where
  writer := WSSWriter.sound_new role
  lined := by
    have idle := Cutting.Lined.empty wssCutting (WSSWriter.home role)
    have lanes : WSSWriter.new.lane role = fun _ => [] := rfl
    have intact : (fun c => c ∈ start.writer.abandoned) = fun _ : Channel => False := by
      funext c
      simp [start, WSSWriter.new]
    show wssCutting.Lined _ (WSSWriter.new.lane role) (fun _ => none) _
    rw [lanes, intact]
    exact idle
  fits := trivial
  inside := fun _ inside => absurd inside List.not_mem_nil
  read_le := le_refl 0
  receiver := WSSReceiver.expects_new
  delivered := rfl
  accepted := rfl

theorem at_home {call : Call} {c : Channel} (channel : c ∈ wssCutting.channel call) :
    WSSWriter.home role c = WSSWriter.priority role call := by
  rcases call.whole_or_cut with whole | ⟨frame, cut⟩ | ⟨kind, message, cut⟩
  · exact absurd (whole.channel.symm.trans channel) (by simp)
  · obtain rfl := Option.some.inj (cut.channel.symm.trans channel)
    rw [WSSWriter.priority, cut.1]
    rfl
  · obtain rfl := Option.some.inj (cut.channel.symm.trans channel)
    rw [WSSWriter.priority, cut.1]
    rfl

theorem expected_concat (written : List (Portion Call)) (part : Portion Call) :
    expected (written ++ [part]) = wssCutting.follow (expected written) part := by
  rw [expected, run_append]
  rfl

theorem Sound.unwritten (sound : w.Sound role) {writer : WSSWriter} (kept : writer.Sound role)
    (written : writer.written = w.writer.written)
    (lined : wssCutting.Lined (WSSWriter.home role) (writer.lane role) (expected w.writer.written)
      (· ∈ writer.abandoned)) : { w with writer := writer }.Sound role where
  writer := kept
  lined := by
    dsimp only
    rw [written]
    exact lined
  fits := by
    dsimp only
    rw [written]
    exact sound.fits
  inside := by
    dsimp only
    rw [written]
    exact sound.inside
  read_le := by
    dsimp only
    rw [written]
    exact sound.read_le
  receiver := by
    dsimp only
    rw [written]
    exact sound.receiver
  delivered := by
    dsimp only
    rw [written]
    exact sound.delivered
  accepted := sound.accepted

theorem mem_leaves {request : SendRequest} {c : Channel} :
    c ∈ WSSWriter.leaves request ↔ c ∈ wssCutting.channel request.item ∧ 0 < request.index := by
  unfold WSSWriter.leaves
  by_cases first : request.index = 0
  · rw [if_pos first]
    simp [first]
  · rw [if_neg first, Option.mem_toList]
    exact (and_iff_left (Nat.pos_of_ne_zero first)).symm

theorem sound_dropped (sound : w.Sound role) {request : SendRequest}
    (serving : w.writer.loop = .serving request)
    (dropped : request.item.id ∈ w.writer.cancelled ∨ w.writer.closed = true) :
    { w with writer := w.writer.serve role request }.Sound role := by
  obtain ⟨loop, queues, written, abandoned⟩ := WSSWriter.serve_dropped role dropped
  refine sound.unwritten (WSSWriter.sound_serve sound.writer serving) written ?_
  have lanes := WSSWriter.lane_serving role serving
  have lined := sound.lined
  rw [lanes] at lined
  have rest := lined.drop (Function.update_self _ _ _)
  rw [Function.update_idem, Function.update_eq_self] at rest
  have broken : (fun c => c ∈ (w.writer.serve role request).abandoned) = fun c =>
      c ∈ w.writer.abandoned ∨ (c ∈ wssCutting.channel request.item ∧ 0 < request.index) := by
    funext c
    rw [abandoned, List.mem_append, mem_leaves]
  rw [WSSWriter.lane_popping loop, queues, broken]
  exact rest

theorem sound_wrote (sound : w.Sound role) {request : SendRequest}
    (serving : w.writer.loop = .serving request)
    (kept : ¬(request.item.id ∈ w.writer.cancelled ∨ w.writer.closed = true))
    (intact : ∀ c ∈ request.item.channel, c ∉ w.writer.abandoned) :
    { w with writer := w.writer.serve role request }.Sound role := by
  have inside := WSSWriter.inside_serving sound.writer serving
  obtain ⟨loop, queues, written, abandoned⟩ := WSSWriter.serve_wrote role kept inside
  have lanes := WSSWriter.lane_serving role serving
  have lined := sound.lined
  rw [lanes] at lined
  have first := Function.update_self (WSSWriter.priority role request.item)
    (request :: w.writer.queues (WSSWriter.priority role request.item)) w.writer.queues
  have fits := lined.fits first intact
  have rest := lined.send first intact
  rw [Function.update_idem] at rest
  have before : w.writer.written.take w.read = (w.writer.written ++ [request]).take w.read :=
    (List.take_append_of_le_length sound.read_le).symm
  refine ⟨WSSWriter.sound_serve sound.writer serving, ?_, ?_, ?_, ?_, ?_, ?_, sound.accepted⟩
  · dsimp only
    rw [WSSWriter.lane_popping loop, queues, written, abandoned, expected_concat]
    exact rest
  · dsimp only
    rw [written]
    exact (meets_append wssCutting.follow).mpr ⟨sound.fits, fits, trivial⟩
  · dsimp only
    rw [written]
    intro part member
    rcases List.mem_append.mp member with old | new
    · exact sound.inside part old
    · rw [List.mem_singleton.mp new]
      exact inside
  · dsimp only
    rw [written, List.length_append]
    exact Nat.le_add_right_of_le sound.read_le
  · dsimp only
    rw [written, ← before]
    exact sound.receiver
  · dsimp only
    rw [written, ← before]
    exact sound.delivered

theorem sound_append (sound : w.Sound role) (id : ℕ) :
    { w with writer := w.writer.append role id }.Sound role := by
  have kept := WSSWriter.sound_append sound.writer id
  rcases WSSWriter.append_cases role sound.writer.distinct id with same | ⟨call, rest, _, appended⟩
  · rw [same]
    exact sound
  · rw [appended] at kept ⊢
    by_cases stopped : w.writer.stopped = true
    · rw [if_pos stopped] at kept ⊢
      exact sound.unwritten kept rfl sound.lined
    · rw [if_neg stopped] at kept ⊢
      refine sound.unwritten kept rfl ?_
      rw [WSSWriter.lane_append]
      exact sound.lined.enter call fun c channel => at_home channel

theorem sound_stop (sound : w.Sound role) (waiting : w.writer.loop = .waiting) :
    { w with writer := w.writer.stop }.Sound role := by
  refine sound.unwritten (WSSWriter.sound_stop sound.writer waiting) rfl ?_
  have lanes : w.writer.lane role = w.writer.queues := by
    funext p
    rw [WSSWriter.lane, waiting]
    rfl
  have cleared := sound.lined.clear
  rw [lanes] at cleared
  have broken : (fun c => c ∈ w.writer.stop.abandoned) = fun c => c ∈ w.writer.abandoned ∨
      ∃ p, ∃ part ∈ w.writer.queues p, c ∈ wssCutting.channel part.item ∧ 0 < part.index := by
    funext c
    refine propext ?_
    show c ∈ w.writer.abandoned ++ w.writer.pending.flatMap WSSWriter.leaves ↔ _
    simp only [List.mem_append, List.mem_flatMap, WSSWriter.pending, mem_leaves]
    refine or_congr_right ⟨?_, ?_⟩
    · rintro ⟨part, ⟨p, _, member⟩, left⟩
      exact ⟨p, part, member, left⟩
    · rintro ⟨p, part, member, left⟩
      exact ⟨part, ⟨p, WSSWriter.mem_priorities p, member⟩, left⟩
  rw [broken]
  exact cleared

theorem sound_advance (sound : w.Sound role) {done : Bool}
    (careful : w.Careful (.writer (.advance done))) :
    { w with writer := w.writer.advance role done }.Sound role := by
  have kept := WSSWriter.sound_step sound.writer (.advance done)
  have advanced : w.writer.step role (.advance done) = w.writer.advance role done := rfl
  rw [advanced] at kept
  cases loop : w.writer.loop with
  | serving request =>
    have served : w.writer.advance role done = w.writer.serve role request := by
      simp only [WSSWriter.advance, loop]
    rw [served]
    simp only [Careful, loop] at careful
    by_cases dropped : request.item.id ∈ w.writer.cancelled ∨ w.writer.closed = true
    · exact sound_dropped sound loop dropped
    · exact sound_wrote sound loop dropped (careful dropped)
  | popping =>
    cases popped : WSSWriter.pop w.writer.queues with
    | none =>
      have moved : w.writer.advance role done = { w.writer with loop := .waiting } := by
        simp only [WSSWriter.advance, loop, popped]
      have lanes : ({ w.writer with loop := .waiting } : WSSWriter).lane role
          = w.writer.lane role := by
        funext p
        simp only [WSSWriter.lane, loop]
        rfl
      rw [moved] at kept ⊢
      refine sound.unwritten kept rfl ?_
      rw [lanes]
      exact sound.lined
    | some result =>
      obtain ⟨request, queues⟩ := result
      have moved : w.writer.advance role done =
          { w.writer with queues := queues, loop := .serving request } := by
        simp only [WSSWriter.advance, loop, popped]
      rw [moved] at kept ⊢
      refine sound.unwritten kept rfl ?_
      rw [WSSWriter.lane_pop sound.writer.own loop popped]
      exact sound.lined
  | waiting =>
    by_cases finished : (done && w.writer.closed) = true
    · have moved : w.writer.advance role done = w.writer.stop := by
        simp only [WSSWriter.advance, loop, if_pos finished]
      rw [moved]
      exact sound_stop sound loop
    · by_cases notified : w.writer.notified = true
      · have moved : w.writer.advance role done =
            { w.writer with notified := false, loop := .popping } := by
          simp only [WSSWriter.advance, loop, if_neg finished, if_pos notified]
        have lanes : ({ w.writer with notified := false, loop := .popping } : WSSWriter).lane role
            = w.writer.lane role := by
          funext p
          simp only [WSSWriter.lane, loop]
          rfl
        rw [moved] at kept ⊢
        refine sound.unwritten kept rfl ?_
        rw [lanes]
        exact sound.lined
      · have still : w.writer.advance role done = w.writer := by
          simp only [WSSWriter.advance, loop, if_neg finished, if_neg notified]
        rw [still]
        exact sound
  | returned =>
    have still : w.writer.advance role done = w.writer := by simp only [WSSWriter.advance, loop]
    rw [still]
    exact sound

/-! ### The peer reads -/

theorem arrivals_concat (written : List (Portion Call)) (part : Portion Call) :
    arrivals (written ++ [part]) =
      arrivals written ++ ((wssCutting.finished part).map fun call => call.message.delivery).toList := by
  unfold arrivals
  rw [List.filterMap_append, List.map_append]
  cases finished : wssCutting.finished part with
  | none => simp [finished]
  | some call => simp [finished]

theorem unread_cases (inside : ∀ part ∈ w.writer.written, part.index < part.item.records.length) :
    (w.unread = none ∧ w.writer.written[w.read]? = none) ∨
      ∃ part record, w.writer.written[w.read]? = some part ∧
        part.item.records[part.index]? = some record ∧ w.unread = some record := by
  unfold unread
  cases next : w.writer.written[w.read]? with
  | none => exact Or.inl ⟨rfl, rfl⟩
  | some part =>
    have within := inside part (List.mem_of_getElem? next)
    exact Or.inr ⟨part, _, rfl, List.getElem?_eq_getElem within,
      List.getElem?_eq_getElem within⟩

theorem take_succ_of_getElem? {written : List (Portion Call)} {count : ℕ} {part : Portion Call}
    (next : written[count]? = some part) : written.take (count + 1) = written.take count ++ [part] := by
  rw [List.take_add_one, next]
  rfl

theorem sound_receive (sound : w.Sound role) {now : ℤ} (careful : w.Careful (.receive now)) :
    (w.receive now).Sound role := by
  rcases unread_cases sound.inside with ⟨nothing, _⟩ | ⟨part, record, next, recorded, unread⟩
  · have still : w.receive now = w := by simp only [receive, sound.accepted, nothing]
    rw [still]
    exact sound
  · have timely := careful sound.accepted record unread
    have fits : wssCutting.Fits (expected (w.writer.written.take w.read)) part := by
      have all := sound.fits
      rw [← List.take_append_drop (w.read + 1) w.writer.written, take_succ_of_getElem? next,
        List.append_assoc] at all
      exact ((meets_append wssCutting.follow).mp all).2.1
    obtain ⟨after, received, expects⟩ := WSSReceiver.receive_fits sound.receiver fits
      (sound.inside part (List.mem_of_getElem? next)) recorded timely
    have moved : w.receive now = { w with
        read := w.read + 1
        receiver := after
        delivered := w.delivered ++
          ((wssCutting.finished part).map fun call => call.message.delivery).toList } := by
      simp only [receive, sound.accepted, unread, received]
    rw [moved]
    refine ⟨sound.writer, sound.lined, sound.fits, sound.inside, ?_, ?_, ?_, sound.accepted⟩
    · exact (List.getElem?_eq_some_iff.mp next).1
    · dsimp only
      rw [take_succ_of_getElem? next, expected_concat]
      exact expects
    · dsimp only
      rw [take_succ_of_getElem? next, arrivals_concat, sound.delivered]

/-- **One step.** A careful step keeps the receiver in line with the writer. -/
theorem sound_step (sound : w.Sound role) {event : WSSEvent} (careful : w.Careful event) :
    (w.step role event).Sound role := by
  cases event with
  | receive now => exact sound_receive sound careful
  | writer event =>
    cases event with
    | append id => exact sound_append sound id
    | advance done => exact sound_advance sound careful
    | cancel id =>
      exact sound.unwritten (WSSWriter.sound_step sound.writer (.cancel id)) rfl sound.lined
    | close => exact sound.unwritten (WSSWriter.sound_step sound.writer .close) rfl sound.lined
    | send submission =>
      have kept := WSSWriter.sound_step sound.writer (.send submission)
      show { w with writer := w.writer.reserve submission }.Sound role
      have reserved : w.writer.step role (.send submission) = w.writer.reserve submission := rfl
      rw [reserved] at kept
      unfold WSSWriter.reserve at kept ⊢
      by_cases free : w.writer.slots < wssMaxQueuedRequests
      · rw [if_pos free] at kept ⊢
        exact sound.unwritten kept rfl sound.lined
      · rw [if_neg free] at kept ⊢
        exact sound

theorem sound_of_meets {events : List WSSEvent} (meets : Meets (step role) Careful start events) :
    (run (step role) start events).Sound role :=
  run_invariant_of_meets (WSSWorld.Sound role) (fun _ _ sound careful => sound_step sound careful)
    sound_start meets

/-! ### After a careless step -/

theorem rejection_receive (rejected : w.rejection ≠ none) (now : ℤ) :
    (w.receive now).rejection ≠ none := by
  cases rejection : w.rejection with
  | none => exact absurd rejection rejected
  | some error =>
    have still : w.receive now = w := by simp only [receive, rejection]
    rw [still]
    exact rejected

theorem rejection_receives (rejected : w.rejection ≠ none) (times : List ℤ) :
    (run (step role) w (times.map .receive)).rejection ≠ none := by
  induction times generalizing w with
  | nil => exact rejected
  | cons now rest ih => exact ih (rejection_receive rejected now)

theorem rejection_of_error {record : PlainRecord} {now : ℤ} (accepted : w.rejection = none)
    (unread : w.unread = some record)
    (refused : ∃ e, (w.receiver.receive record now).1 = .error e) :
    (w.receive now).rejection ≠ none := by
  obtain ⟨error, refused⟩ := refused
  rcases received : w.receiver.receive record now with ⟨result, after⟩
  rw [received] at refused
  obtain rfl : result = .error error := refused
  have moved : (w.receive now).rejection = some error := by
    simp only [receive, accepted, unread, received]
  rw [moved]
  exact Option.some_ne_none error

/-- The last part that was written is not the one that its channel expects, and the peer has not read
it yet. -/
structure Clashing (w : WSSWorld) (good : List (Portion Call)) (bad : Portion Call) : Prop where
  written : w.writer.written = good ++ [bad]
  read_le : w.read ≤ good.length
  fits : Meets wssCutting.follow wssCutting.Fits (fun _ => none) good
  inside : ∀ part ∈ w.writer.written, part.index < part.item.records.length
  first : bad.index = 0
  occupied : ∃ c other, wssCutting.channel bad.item = some c ∧ expected good c = some other
  receiver : w.receiver.Expects (expected (w.writer.written.take w.read))
  accepted : w.rejection = none

theorem Clashing.receive {good : List (Portion Call)} {bad : Portion Call}
    (clashing : w.Clashing good bad) (now : ℤ) : (w.receive now).rejection ≠ none ∨
      ((w.receive now).Clashing good bad ∧ (w.receive now).read = w.read + 1) := by
  have before : w.writer.written.take w.read = good.take w.read := by
    rw [clashing.written]
    exact List.take_append_of_le_length clashing.read_le
  rcases unread_cases clashing.inside with ⟨_, ended⟩ | ⟨part, record, next, recorded, unread⟩
  · have length : w.writer.written.length = good.length + 1 := by
      rw [clashing.written, List.length_append, List.length_singleton]
    have finished := List.getElem?_eq_none_iff.mp ended
    exact absurd clashing.read_le (by omega)
  · have receiver := clashing.receiver
    rw [before] at receiver
    by_cases last : w.read = good.length
    · have own : part = bad := by
        rw [clashing.written, last, List.getElem?_concat_length] at next
        exact (Option.some.inj next).symm
      subst own
      obtain ⟨c, other, channel, occupied⟩ := clashing.occupied
      rw [last, List.take_length] at receiver
      exact Or.inl (rejection_of_error clashing.accepted unread
        (WSSReceiver.receive_clash receiver channel clashing.first occupied recorded))
    · have within : w.read < good.length := lt_of_le_of_ne clashing.read_le last
      have own : good[w.read]? = some part := by
        rw [clashing.written, List.getElem?_append_left within] at next
        exact next
      cases late : w.receiver.late record now with
      | true =>
        exact Or.inl (rejection_of_error clashing.accepted unread (WSSReceiver.receive_late late))
      | false =>
        have fits : wssCutting.Fits (expected (good.take w.read)) part := by
          have all := clashing.fits
          rw [← List.take_append_drop (w.read + 1) good, take_succ_of_getElem? own,
            List.append_assoc] at all
          exact ((meets_append wssCutting.follow).mp all).2.1
        obtain ⟨after, received, expects⟩ := WSSReceiver.receive_fits receiver fits
          (clashing.inside part (List.mem_of_getElem? next)) recorded late
        have moved : w.receive now = { w with
            read := w.read + 1
            receiver := after
            delivered := w.delivered ++
              ((wssCutting.finished part).map fun call => call.message.delivery).toList } := by
          simp only [WSSWorld.receive, clashing.accepted, unread, received]
        rw [moved]
        refine Or.inr ⟨⟨clashing.written, within, clashing.fits, clashing.inside, clashing.first,
          clashing.occupied, ?_, clashing.accepted⟩, rfl⟩
        dsimp only
        rw [take_succ_of_getElem? next, before, expected_concat]
        exact expects

theorem Clashing.receives {good : List (Portion Call)} {bad : Portion Call} {times : List ℤ}
    (clashing : w.Clashing good bad) (enough : good.length < w.read + times.length) :
    (run (step role) w (times.map .receive)).rejection ≠ none := by
  induction times generalizing w with
  | nil => exact absurd enough (not_lt.mpr clashing.read_le)
  | cons now rest ih =>
    rw [List.length_cons] at enough
    rcases clashing.receive now with rejected | ⟨later, read⟩
    · exact rejection_receives rejected rest
    · exact ih later (by rw [step, read]; omega)

/-- **A careless step is found out**: read to its end, what was written is refused. -/
theorem rejected_of_careless (sound : w.Sound role) {event : WSSEvent} (careless : ¬w.Careful event)
    {times : List ℤ}
    (enough : (w.step role event).writer.written.length ≤ (w.step role event).read + times.length) :
    (run (step role) (w.step role event) (times.map .receive)).rejection ≠ none := by
  cases event with
  | receive now =>
    simp only [Careful, Classical.not_imp, not_forall, Bool.not_eq_false] at careless
    obtain ⟨accepted, record, unread, late⟩ := careless
    exact rejection_receives (rejection_of_error accepted unread (WSSReceiver.receive_late late)) _
  | writer event =>
    cases event with
    | send submission => exact absurd trivial careless
    | append id => exact absurd trivial careless
    | cancel id => exact absurd trivial careless
    | close => exact absurd trivial careless
    | advance done =>
      cases loop : w.writer.loop with
      | popping => simp only [Careful, loop, not_true_eq_false] at careless
      | waiting => simp only [Careful, loop, not_true_eq_false] at careless
      | returned => simp only [Careful, loop, not_true_eq_false] at careless
      | serving request =>
        simp only [Careful, loop, Classical.not_imp, not_forall, not_not] at careless
        obtain ⟨kept, c, channel, abandoned⟩ := careless
        have inside := WSSWriter.inside_serving sound.writer loop
        obtain ⟨_, _, written, _⟩ := WSSWriter.serve_wrote role kept inside
        have served : w.step role (.writer (.advance done))
            = { w with writer := w.writer.serve role request } := by
          simp only [step, WSSWriter.step, WSSWriter.advance, loop]
        have member : request ∈ w.writer.lane role (WSSWriter.priority role request.item) := by
          rw [WSSWriter.lane_serving _ loop, Function.update_self]
          exact List.mem_cons_self
        obtain ⟨first, other, occupied, _⟩ := sound.lined.clash member channel abandoned
        have clashing : ({ w with writer := w.writer.serve role request } : WSSWorld).Clashing
            w.writer.written request := by
          refine ⟨written, sound.read_le, sound.fits, ?_, first, ⟨c, other, channel, occupied⟩,
            ?_, sound.accepted⟩
          · dsimp only
            rw [written]
            intro part inside'
            rcases List.mem_append.mp inside' with old | new
            · exact sound.inside part old
            · rw [List.mem_singleton.mp new]
              exact inside
          · dsimp only
            rw [written, List.take_append_of_le_length sound.read_le]
            exact sound.receiver
        rw [served] at enough ⊢
        refine clashing.receives ?_
        dsimp only at enough ⊢
        rw [written, List.length_append, List.length_singleton] at enough
        omega

/-! ### What is delivered -/

/-- The peer is handed exactly the messages of which all records were written, in the order of their
last records. -/
structure Delivers (w : WSSWorld) : Prop where
  accepted : w.rejection = none
  handed : w.delivered <+: w.writer.sentCalls.map fun call => call.message.delivery
  all : w.read = w.writer.written.length →
    w.delivered = w.writer.sentCalls.map fun call => call.message.delivery
  whole : ∀ call, call ∈ w.writer.sentCalls ↔
    ∀ index < call.records.length, ⟨call, index⟩ ∈ w.writer.written

theorem Sound.delivers (sound : w.Sound role) : w.Delivers where
  accepted := sound.accepted
  handed := by
    rw [sound.delivered, sound.writer.sent]
    exact ((List.take_prefix _ _).filterMap _).map _
  all := by
    intro finished
    rw [sound.delivered, sound.writer.sent, finished, List.take_length]
    rfl
  whole := by
    intro call
    rw [sound.writer.sent, List.mem_filterMap]
    constructor
    · rintro ⟨part, written, finished⟩ index below
      unfold Cutting.finished at finished
      by_cases last : part.index + 1 = wssCutting.length part.item
      · rw [if_pos last] at finished
        obtain rfl := Option.some.inj finished
        have count : part.index + 1 = part.item.records.length := last
        exact sound.writer.complete part written index (by omega)
      · rw [if_neg last] at finished
        cases finished
    · intro written
      have positive := call.length_records_pos
      refine ⟨_, written (call.records.length - 1) (by omega), if_pos ?_⟩
      show call.records.length - 1 + 1 = call.records.length
      omega

theorem writer_sound (events : List WSSEvent) :
    (run (step role) start events).writer.Sound role := by
  refine run_invariant (fun w : WSSWorld => w.writer.Sound role) ?_ (WSSWriter.sound_new role) events
  intro w event sound
  cases event with
  | writer event => exact WSSWriter.sound_step sound event
  | receive now =>
    have same : (w.receive now).writer = w.writer := by
      unfold receive
      split
      · split <;> rfl
      · rfl
    show (w.receive now).writer.Sound role
    rw [same]
    exact sound

/-- **The prioritized writer delivers whole messages.** Whatever happens, it completes every queued call
once and in the order of its queue, and frees its slot. While nothing is written to an assembler of
which a message was given up half-way, and every fragment is read in time, the peer is handed exactly
the messages that were written whole; after any other step it ends with an error. -/
theorem delivers_of_meets (role : Role) (events : List WSSEvent) :
    (run (step role) start events).writer.Promises role ∧
      (Meets (step role) Careful start events →
        (∀ first, first <+: events → (run (step role) start first).Delivers) ∧
          ∀ event, ¬(run (step role) start events).Careful event → ∀ times : List ℤ,
            (run (step role) start (events ++ [event])).writer.written.length ≤
              (run (step role) start (events ++ [event])).read + times.length →
            (run (step role) start (events ++ event :: times.map .receive)).rejection ≠ none) := by
  refine ⟨(writer_sound events).promises, fun meets => ⟨?_, ?_⟩⟩
  · rintro first ⟨later, rfl⟩
    exact (sound_of_meets ((meets_append (step role)).mp meets).1).delivers
  · intro event careless times enough
    rw [run_append] at enough ⊢
    exact rejected_of_careless (sound_of_meets meets) careless enough

section Sample

/-- A frame of one octet more than a record, in two fragments. -/
def longFrame (messageID : UInt64) : Submission where
  message := .frame (List.replicate 16385 0x2a)
  messageID := messageID
  records := ((pieces fragmentDataSize messageID (List.replicate 16385 0x2a)).map
    terminalFragment).map (⟨RecordKind.fragment, ·⟩)
  encoded := by
    have length : (List.replicate 16385 (0x2a : UInt8)).length = 16385 := List.length_replicate
    have large : ¬(List.replicate 16385 (0x2a : UInt8)).length ≤ maxRecordPlaintext := by
      rw [length]
      decide
    have bounded : ¬maxFrameSize < (List.replicate 16385 (0x2a : UInt8)).length := by
      rw [length]
      decide
    rw [Message.records, if_neg bounded, frameRecords, if_neg large]
    refine Submission.fragmentRecords_ok_iff.mpr ⟨_, ?_, rfl⟩
    exact fragmentFrame_ok_iff.mpr ⟨not_le.mp large, not_lt.mp bounded, rfl⟩

def ping : Submission := ⟨.record 4 [1], 0, [⟨4, [1]⟩], rfl⟩

/-- A host begins a long frame, and a control record overtakes its second fragment. -/
def overtaking : List WSSEvent :=
  [.writer (.send (longFrame 1)), .writer (.append 0), .writer (.advance false),
    .writer (.advance false), .writer (.send ping), .writer (.append 1), .writer (.advance false),
    .writer (.advance false), .receive 0, .receive 1, .writer (.advance false),
    .writer (.advance false), .receive 2]

theorem overtaking_delivers : (run (step .host) start overtaking).Delivers :=
  ((delivers_of_meets .host overtaking).2 (by decide +kernel)).1 _ (List.prefix_refl _)

/-- A frame is cancelled after its first fragment. -/
def givenUp : List WSSEvent :=
  [.writer (.send (longFrame 1)), .writer (.append 0), .writer (.advance false),
    .writer (.advance false), .writer (.cancel 0), .writer (.advance false), .writer (.advance false),
    .writer (.send (longFrame 2)), .writer (.append 1), .writer (.advance false)]

theorem given_up_breaks_the_next : ¬∀ role events, (run (step role) start events).rejection = none := by
  intro accepted
  have meets : Meets (step .host) Careful start givenUp := by decide +kernel
  have careless : ¬(run (step .host) start givenUp).Careful (.writer (.advance false)) := by
    decide +kernel
  have read : ((run (step .host) start givenUp).step .host
      (.writer (.advance false))).writer.written.length ≤
        ((run (step .host) start givenUp).step .host (.writer (.advance false))).read +
          [(0 : ℤ), 0].length := by decide +kernel
  have rejected := rejected_of_careless (sound_of_meets meets) careless read
  have same := run_append (step .host) start givenUp
    (.writer (.advance false) :: [(0 : ℤ), 0].map .receive)
  rw [run_cons] at same
  exact rejected ((congrArg rejection same).symm.trans (accepted .host _))

end Sample

end WSSWorld

/-- **The encrypted wire is transparent**: the parts of whatever calls, in whatever order the writer takes
them, are all sealed by an end, and are opened as they were written by the other, if the two stand alike. -/
theorem parts_sealed {d : RecordDirection} (correct : d.aead.Correct) (parts : List (Portion Call))
    (room : d.position + parts.length ≤ 2 ^ 64) :
    let messages := parts.filterMap fun part =>
      part.item.records[part.index]?.map fun record => (record.kind, record.payload)
    ∃ wire : List Bytes,
      (trace (fun s m => RecordSealer.seal s m.1 m.2) d messages).1 = wire.map .ok ∧
        (trace RecordOpener.open d wire).1 = messages.map .ok := by
  intro messages
  have fewer : messages.length ≤ parts.length := List.length_filterMap_le _ _
  refine RecordOpener.open_sealed correct (by omega) fun m inside => ?_
  obtain ⟨part, -, taken⟩ := List.mem_filterMap.mp inside
  obtain ⟨record, found, rfl⟩ := Option.map_eq_some_iff.mp taken
  exact part.item.sealable (List.mem_of_getElem? found)

theorem parts_sealed_ping :
    let d : RecordDirection := ⟨sampleAead, List.replicate 16 9, List.replicate 32 5, 7, false⟩
    ∃ wire : List Bytes,
      (trace (fun s m => RecordSealer.seal s m.1 m.2) d [(4, [1]), (4, [1])]).1 = wire.map .ok ∧
        (trace RecordOpener.open d wire).1 = [.ok (4, [1]), .ok (4, [1])] :=
  parts_sealed sampleAead_correct [⟨⟨WSSWorld.ping, 0⟩, 0⟩, ⟨⟨WSSWorld.ping, 1⟩, 0⟩] (by decide)

end Atterm.Transport
