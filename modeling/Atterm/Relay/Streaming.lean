/-
**Streaming on demand.**

The first subscriber of a mirror starts a goroutine that asks the host to stream, the last one to leave
starts one that asks it to stop. Each sets the flag of the mirror in one critical section and enqueues
its frame after that.

* `StreamWorld.Follows` — the flag and the last frame say whether somebody watches;
* `StreamWorld.follows_of_meets` — which orders of the goroutines leave them so.
-/

import Atterm.Foundation.Reports
import Atterm.Foundation.Runs
import Atterm.Relay.Session

namespace Atterm.Relay

open Atterm.Foundation

inductive StreamFrame where
  | streamRequest
  | streamStop
deriving DecidableEq, Repr

def StreamFrame.asks : Bool → StreamFrame
  | true => .streamRequest
  | false => .streamStop

/-- The critical section of `startStream` and `stopStream`: the flag, and the frame to enqueue. -/
def setStreaming (value streaming : Bool) : Bool × Option StreamFrame :=
  if streaming = value then (streaming, none) else (value, some (.asks value))

def startStream (streaming : Bool) : Bool × Option StreamFrame := setStreaming true streaming

def stopStream (streaming : Bool) : Bool × Option StreamFrame := setStreaming false streaming

/-- The hooks that the effects of a call start, `true` for the first-subscriber hook. -/
def startedHooks (effects : List Effect) : List Bool :=
  effects.filterMap fun effect =>
    match effect with
    | .firstSubscribe => some true
    | .lastUnsubscribe => some false
    | _ => none

/-- A mirror session and its flag, the hooks that have not entered their critical section, the frames
of those that have and did not enqueue yet, and what was enqueued. -/
structure StreamWorld where
  session : Session
  streaming : Bool
  hooks : List Bool
  frames : List StreamFrame
  out : List StreamFrame

inductive StreamStep where
  | subscribe (sub : Subscriber) (admitted : Bool)
  | unsubscribe (sub : ℕ)
  | enter (first : Bool)
  | enqueue (frame : StreamFrame)

namespace StreamWorld

def start (info : SessionInfo) : StreamWorld := ⟨Session.newMirror info, false, [], [], []⟩

def after (w : StreamWorld) (result : Session × List Effect) : StreamWorld :=
  { w with session := result.1, hooks := startedHooks result.2 ++ w.hooks }

/-- A hook runs its critical section. -/
def enter (w : StreamWorld) (first : Bool) : StreamWorld :=
  { w with
    hooks := w.hooks.erase first
    streaming := (if first then startStream w.streaming else stopStream w.streaming).1
    frames :=
      (if first then startStream w.streaming else stopStream w.streaming).2.toList ++ w.frames }

def step (w : StreamWorld) : StreamStep → StreamWorld
  | .subscribe sub admitted => w.after (w.session.subscribe sub admitted)
  | .unsubscribe sub => w.after (w.session.removeSubscriber sub)
  | .enter first => if first ∈ w.hooks then w.enter first else w
  | .enqueue frame =>
    if frame ∈ w.frames then { w with frames := w.frames.erase frame, out := w.out ++ [frame] }
    else w

def watched (w : StreamWorld) : Bool := w.session.subs.card ≠ 0

/-- The last frame asks for the stream; before the first frame the host does not stream. -/
def requested (w : StreamWorld) : Bool := w.out.getLast? = some .streamRequest

def Quiet (w : StreamWorld) : Prop := w.hooks = [] ∧ w.frames = []

/-- The flag is set exactly when somebody watches, and the last frame agrees with it. -/
def Follows (w : StreamWorld) : Prop := w.streaming = w.watched ∧ w.requested = w.streaming

/-- A hook that does not fit the viewers enters while one that does is still to come. A frame that does
not fit the flag is enqueued while one that does, or a hook that turns the flag over, is still to
come. -/
def Careful (w : StreamWorld) : StreamStep → Prop
  | .enter first => first ∈ w.hooks → first = w.watched ∨ w.watched ∈ w.hooks.erase first
  | .enqueue frame => frame ∈ w.frames →
      frame = .asks w.streaming ∨ .asks w.streaming ∈ w.frames.erase frame ∨
        (!w.streaming) ∈ w.hooks
  | .subscribe .. | .unsubscribe _ => True

instance (w : StreamWorld) : Decidable w.Quiet :=
  inferInstanceAs (Decidable (w.hooks = [] ∧ w.frames = []))

instance (w : StreamWorld) : Decidable w.Follows :=
  inferInstanceAs (Decidable (w.streaming = w.watched ∧ w.requested = w.streaming))

instance (w : StreamWorld) : (event : StreamStep) → Decidable (w.Careful event)
  | .enter first => inferInstanceAs (Decidable (first ∈ w.hooks →
      first = w.watched ∨ w.watched ∈ w.hooks.erase first))
  | .enqueue frame => inferInstanceAs (Decidable (frame ∈ w.frames →
      frame = .asks w.streaming ∨ .asks w.streaming ∈ w.frames.erase frame ∨
        (!w.streaming) ∈ w.hooks))
  | .subscribe .. | .unsubscribe _ => inferInstanceAs (Decidable True)

/-- The hooks as late reports of whether somebody watches, whose last one is the flag. -/
def reports (w : StreamWorld) : Reports Bool := ⟨w.watched, w.hooks, w.streaming⟩

/-- The last frame fits the flag, or a frame or a hook that makes it fit is still to come. -/
def Asked (w : StreamWorld) : Prop :=
  w.requested = w.streaming ∨ .asks w.streaming ∈ w.frames ∨ (!w.streaming) ∈ w.hooks

variable {w : StreamWorld}

theorem startedHooks_append (first second : List Effect) :
    startedHooks (first ++ second) = startedHooks first ++ startedHooks second :=
  List.filterMap_append

theorem startedHooks_closed (subs : List ℕ) : startedHooks (subs.map .closed) = [] := by
  induction subs with
  | nil => rfl
  | cons sub rest ih => exact ih

theorem card_joined_ne_zero (s : Session) (sub : Subscriber) : (s.joined sub).subs.card ≠ 0 := by
  have inside : sub.handle ∈ (s.joined sub).subs := by
    rw [Session.joined]
    split_ifs <;> exact Finset.mem_insert_self _ _
  exact Finset.card_ne_zero_of_mem inside

theorem startedHooks_subscribe (s : Session) (sub : Subscriber) (admitted : Bool) :
    (((s.subscribe sub admitted).1.subs.card ≠ 0 ↔ s.subs.card ≠ 0) ∧
      startedHooks (s.subscribe sub admitted).2 = []) ∨
      startedHooks (s.subscribe sub admitted).2 =
        [decide ((s.subscribe sub admitted).1.subs.card ≠ 0)] := by
  rw [Session.subscribe]
  by_cases refused : (s.closed || !admitted) = true
  · rw [if_pos refused]
    exact Or.inl ⟨Iff.rfl, rfl⟩
  · rw [if_neg refused]
    have before : startedHooks ((s.replaced sub).toList.map .closed ++
        [if s.promotes sub then .broadcast (s.joined sub).currentMeta
          else .snapshot sub.handle (s.joined sub).currentMeta]) = [] := by
      rw [startedHooks_append, startedHooks_closed]
      split_ifs <;> rfl
    have counted : startedHooks (if (s.joined sub).subs.card ≠ s.subs.card then
        [.subscriberCount (s.joined sub).subs.card] else []) = [] := by
      split_ifs <;> rfl
    have watched := card_joined_ne_zero s sub
    by_cases empty : s.subs.card = 0
    · refine Or.inr ?_
      rw [startedHooks_append, startedHooks_append, before, counted, if_pos empty,
        decide_eq_true watched]
      rfl
    · refine Or.inl ⟨iff_of_true watched empty, ?_⟩
      rw [startedHooks_append, startedHooks_append, before, counted, if_neg empty]
      rfl

theorem startedHooks_removeSubscriber (s : Session) (sub : ℕ) :
    (((s.removeSubscriber sub).1.subs.card ≠ 0 ↔ s.subs.card ≠ 0) ∧
      startedHooks (s.removeSubscriber sub).2 = []) ∨
      startedHooks (s.removeSubscriber sub).2 =
        [decide ((s.removeSubscriber sub).1.subs.card ≠ 0)] := by
  have before : startedHooks ([.closed sub] ++
      (if s.isDriver sub then [.broadcast (encodeMetaPayload s.info "" "")] else [])) = [] := by
    split_ifs <;> rfl
  have counted : startedHooks (if sub ∈ s.subs then [.subscriberCount (s.subs.erase sub).card]
      else []) = [] := by
    split_ifs <;> rfl
  rw [Session.removeSubscriber, startedHooks_append, startedHooks_append, before, counted]
  show (((s.without sub).subs.card ≠ 0 ↔ _) ∧ _) ∨ _ = [decide ((s.without sub).subs.card ≠ 0)]
  rw [Session.subs_without]
  by_cases last : sub ∈ s.subs ∧ (s.subs.erase sub).card = 0
  · rw [if_pos last, decide_eq_false (not_not_intro last.2)]
    exact Or.inr rfl
  · rw [if_neg last]
    refine Or.inl ⟨?_, rfl⟩
    by_cases inside : sub ∈ s.subs
    · exact iff_of_true (fun empty => last ⟨inside, empty⟩) (Finset.card_ne_zero_of_mem inside)
    · rw [Finset.erase_eq_of_notMem inside]

theorem covered_after (covered : w.reports.Covered) {result : Session × List Effect}
    (started : ((result.1.subs.card ≠ 0 ↔ w.session.subs.card ≠ 0) ∧ startedHooks result.2 = []) ∨
      startedHooks result.2 = [decide (result.1.subs.card ≠ 0)]) :
    (w.after result).reports.Covered := by
  show w.streaming = decide (result.1.subs.card ≠ 0) ∨
    decide (result.1.subs.card ≠ 0) ∈ startedHooks result.2 ++ w.hooks
  rcases started with ⟨same, silent⟩ | started
  · rw [silent, decide_eq_decide.mpr same]
    exact covered
  · rw [started]
    exact Or.inr List.mem_cons_self

theorem asked_after (asked : w.Asked) (result : Session × List Effect) : (w.after result).Asked :=
  asked.imp_right fun later => later.imp_right fun turns => List.mem_append_right _ turns

theorem enter_eq (w : StreamWorld) (first : Bool) :
    w.enter first = { w with
      hooks := w.hooks.erase first
      streaming := first
      frames := if w.streaming = first then w.frames else .asks first :: w.frames } := by
  cases first with
  | true => cases streaming : w.streaming <;> simp [enter, startStream, setStreaming, streaming]
  | false => cases streaming : w.streaming <;> simp [enter, stopStream, setStreaming, streaming]

theorem reports_enter (w : StreamWorld) (first : Bool) :
    (w.step (.enter first)).reports = w.reports.deliver first := by
  rw [step, Reports.deliver]
  show (if first ∈ w.hooks then _ else w).reports = if first ∈ w.hooks then _ else w.reports
  split_ifs
  · rw [enter_eq]
    rfl
  · rfl

theorem reports_enqueue (w : StreamWorld) (frame : StreamFrame) :
    (w.step (.enqueue frame)).reports = w.reports := by
  rw [step]
  split_ifs <;> rfl

theorem asked_enter (asked : w.Asked) (first : Bool) : (w.step (.enter first)).Asked := by
  rw [step]
  by_cases started : first ∈ w.hooks
  · rw [if_pos started, enter_eq]
    by_cases same : w.streaming = first
    · show w.requested = first ∨ .asks first ∈ (if w.streaming = first then w.frames else _) ∨
        (!first) ∈ w.hooks.erase first
      rw [if_pos same, ← same]
      exact asked.imp_right fun later => later.imp_right fun turns =>
        (List.mem_erase_of_ne (Bool.not_ne_self _)).mpr turns
    · refine Or.inr (Or.inl ?_)
      show .asks first ∈ if w.streaming = first then w.frames else .asks first :: w.frames
      rw [if_neg same]
      exact List.mem_cons_self
  · rw [if_neg started]
    exact asked

theorem not_asked_enter (unasked : ¬w.Asked) (first : Bool) : ¬(w.step (.enter first)).Asked := by
  rw [step]
  by_cases started : first ∈ w.hooks
  · have same : w.streaming = first := by
      by_contra other
      exact unasked (Or.inr (Or.inr ((Bool.eq_not_of_ne (Ne.symm other)) ▸ started)))
    rw [if_pos started, enter_eq]
    show ¬(w.requested = first ∨ .asks first ∈ (if w.streaming = first then w.frames else _) ∨
        (!first) ∈ w.hooks.erase first)
    rw [if_pos same, ← same]
    exact fun right => unasked (right.imp_right fun later => later.imp_right List.mem_of_mem_erase)
  · rw [if_neg started]
    exact unasked

theorem requested_concat (w : StreamWorld) (frame : StreamFrame) (out : List StreamFrame) :
    decide ((out ++ [frame]).getLast? = some .streamRequest) = w.streaming ↔
      frame = .asks w.streaming := by
  rw [List.getLast?_concat]
  cases frame <;> cases w.streaming <;> simp [StreamFrame.asks]

theorem asked_enqueue_iff (asked : w.Asked) (frame : StreamFrame) :
    (w.step (.enqueue frame)).Asked ↔ w.Careful (.enqueue frame) := by
  rw [step]
  by_cases started : frame ∈ w.frames
  · rw [if_pos started]
    show decide ((w.out ++ [frame]).getLast? = some .streamRequest) = w.streaming ∨
      .asks w.streaming ∈ w.frames.erase frame ∨ (!w.streaming) ∈ w.hooks ↔ _
    rw [requested_concat]
    exact ⟨fun right _ => right, fun careful => careful started⟩
  · rw [if_neg started]
    exact iff_of_true asked fun inside => absurd inside started

theorem not_asked_enqueue (unasked : ¬w.Asked) (frame : StreamFrame) :
    ¬(w.step (.enqueue frame)).Asked := by
  rw [step]
  by_cases started : frame ∈ w.frames
  · rw [if_pos started]
    show ¬(decide ((w.out ++ [frame]).getLast? = some .streamRequest) = w.streaming ∨
      .asks w.streaming ∈ w.frames.erase frame ∨ (!w.streaming) ∈ w.hooks)
    rw [requested_concat]
    rintro (fits | later | turns)
    · exact unasked (Or.inr (Or.inl (fits ▸ started)))
    · exact unasked (Or.inr (Or.inl (List.mem_of_mem_erase later)))
    · exact unasked (Or.inr (Or.inr turns))
  · rw [if_neg started]
    exact unasked

/-- What careful steps keep. -/
structure Sound (w : StreamWorld) : Prop where
  covered : w.reports.Covered
  asked : w.Asked

/-- **One step.** A sound world stays sound exactly after a careful step. -/
theorem sound_step_iff (sound : w.Sound) (event : StreamStep) :
    (w.step event).Sound ↔ w.Careful event := by
  cases event with
  | subscribe sub admitted =>
    refine iff_of_true ⟨?_, asked_after sound.asked _⟩ trivial
    exact covered_after sound.covered (startedHooks_subscribe _ _ _)
  | unsubscribe sub =>
    refine iff_of_true ⟨?_, asked_after sound.asked _⟩ trivial
    exact covered_after sound.covered (startedHooks_removeSubscriber _ _)
  | enter first =>
    have entered : (w.step (.enter first)).reports.Covered ↔ w.Careful (.enter first) := by
      rw [reports_enter]
      exact Reports.covered_deliver_iff sound.covered
    exact ⟨fun right => entered.mp right.covered,
      fun careful => ⟨entered.mpr careful, asked_enter sound.asked first⟩⟩
  | enqueue frame =>
    have timely := asked_enqueue_iff sound.asked frame
    refine ⟨fun right => timely.mp right.asked, fun careful => ⟨?_, timely.mpr careful⟩⟩
    rw [reports_enqueue]
    exact sound.covered

/-- A goroutine that was started goes on. -/
def Finishes : StreamStep → Prop
  | .enter _ | .enqueue _ => True
  | .subscribe .. | .unsubscribe _ => False

/-- **What is not sound is not made good by the goroutines under way.** -/
theorem not_sound_finish (unsound : ¬w.Sound) {rest : List StreamStep}
    (finishes : ∀ event ∈ rest, Finishes event) : ¬(run step w rest).Sound := by
  induction rest generalizing w with
  | nil => exact unsound
  | cons event rest ih =>
    refine ih ?_ fun other inside => finishes other (List.mem_cons_of_mem _ inside)
    intro sound
    cases event with
    | subscribe sub admitted => exact finishes _ List.mem_cons_self
    | unsubscribe sub => exact finishes _ List.mem_cons_self
    | enter first =>
      refine unsound ⟨?_, ?_⟩
      · by_contra stale
        exact Reports.not_covered_deliver stale (reports_enter w first ▸ sound.covered)
      · by_contra unasked
        exact not_asked_enter unasked first sound.asked
    | enqueue frame =>
      refine unsound ⟨reports_enqueue w frame ▸ sound.covered, ?_⟩
      by_contra unasked
      exact not_asked_enqueue unasked frame sound.asked

theorem Sound.follows (sound : w.Sound) (quiet : w.Quiet) : w.Follows := by
  refine ⟨sound.covered.settled quiet.1, sound.asked.resolve_right ?_⟩
  rw [quiet.1, quiet.2]
  rintro (later | turns)
  · exact absurd later List.not_mem_nil
  · exact absurd turns List.not_mem_nil

theorem sound_of_follows (follows : w.Follows) : w.Sound := ⟨Or.inl follows.1, Or.inl follows.2⟩

theorem sound_start (info : SessionInfo) : (start info).Sound := sound_of_follows ⟨rfl, rfl⟩

/-- **Streaming follows the viewers in careful runs**, once all hooks have finished. The first careless
step is never made good: when the hooks under way only finish, the flag or the last frame is wrong. -/
theorem follows_of_meets {info : SessionInfo} {events : List StreamStep}
    (meets : Meets step Careful (start info) events) :
    ((run step (start info) events).Quiet → (run step (start info) events).Follows) ∧
      ∀ event, ¬(run step (start info) events).Careful event →
        ∀ rest, (∀ later ∈ rest, Finishes later) →
          ¬(run step (start info) (events ++ event :: rest)).Follows := by
  have sound := run_invariant_of_meets Sound
    (fun w event sound careful => (sound_step_iff sound event).mpr careful) (sound_start info) meets
  refine ⟨sound.follows, fun event careless rest finishes follows => ?_⟩
  rw [run_append, run_cons] at follows
  refine not_sound_finish (fun right => ?_) finishes (sound_of_follows follows)
  exact careless ((sound_step_iff sound event).mp right)

section Sample

def watcher (handle : ℕ) : Subscriber := ⟨handle, "", "", false, none⟩

/-- A viewer comes, and its hook enters and asks for the stream. -/
def watching : List StreamStep :=
  [.subscribe (watcher 0) true, .enter true, .enqueue .streamRequest]

theorem watching_follows : (run step (start SessionInfo.zero) watching).Follows := by
  have meets : Meets step Careful (start SessionInfo.zero) watching := by decide
  exact (follows_of_meets meets).1 (by decide)

/-- The viewer attaches again, and the hook of its return enters before that of its leaving. -/
def overtaken : List StreamStep :=
  watching ++ [.unsubscribe 0, .subscribe (watcher 1) true, .enter true, .enter false,
    .enqueue .streamStop]

theorem overtaken_is_frozen :
    (run step (start SessionInfo.zero) overtaken).Quiet ∧
      ¬(run step (start SessionInfo.zero) overtaken).Follows := by
  decide

end Sample

end StreamWorld

end Atterm.Relay
