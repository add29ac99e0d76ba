/-
**The driver of a mirror session.**

A mirror knows its driver twice: `driverSubscriber` decides whose input is forwarded, `driverClientID`
is what it advertises. `DriverWorld` remembers the ids that every subscriber attached or claimed with
and the id in the last META frame.

* `DriverWorld.Agrees` — a local driver is advertised under an id of its own;
* `DriverWorld.agrees_iff` — which runs keep the two in agreement.
-/

import Atterm.Foundation.Runs
import Atterm.Relay.Session

namespace Atterm.Relay

open Atterm.Foundation

/-- The driver id of the META frame that an effect sends. -/
def Effect.advertises : Effect → Option String
  | .broadcast payload | .snapshot _ payload => some payload.driverClientID
  | _ => none

/-- The driver id in the last META frame after some effects. -/
def advertisedAfter (last : Option String) (effects : List Effect) : Option String :=
  effects.foldl (fun last effect => effect.advertises.or last) last

theorem advertisedAfter_append (last : Option String) (first second : List Effect) :
    advertisedAfter last (first ++ second) = advertisedAfter (advertisedAfter last first) second :=
  List.foldl_append

theorem advertisedAfter_closed (last : Option String) (subs : List ℕ) :
    advertisedAfter last (subs.map .closed) = last := by
  induction subs with
  | nil => rfl
  | cons sub rest ih => exact ih

/-- A mirror session with the history that it does not keep. -/
structure DriverWorld where
  session : Session
  next : ℕ
  ids : ℕ → List String
  advertised : Option String

inductive DriverCall where
  | subscribe (clientID clientName : String) (noAutoDrive : Bool) (replaces : Option ℕ)
      (admitted : Bool)
  | unsubscribe (sub : ℕ)
  | claimDriver (sub : ℕ) (clientID clientName : String)
  | updateMeta (m : MetaPayload)

namespace DriverWorld

def start (info : SessionInfo) : DriverWorld where
  session := Session.newMirror info
  next := 0
  ids := fun _ => []
  advertised := none

/-- The world after a call that left a session and its effects. -/
def after (w : DriverWorld) (result : Session × List Effect) : DriverWorld :=
  { w with session := result.1, advertised := advertisedAfter w.advertised result.2 }

/-- A subscriber attaches or claims with an id. -/
def learn (w : DriverWorld) (sub : ℕ) (clientID : String) : DriverWorld :=
  { w with ids := fun other => if other = sub then clientID :: w.ids other else w.ids other }

/-- The outbox that the next `Subscribe` makes. -/
def subscriber (w : DriverWorld) (clientID clientName : String) (noAutoDrive : Bool)
    (replaces : Option ℕ) : Subscriber :=
  ⟨w.next, clientID, clientName, noAutoDrive, replaces⟩

def step (w : DriverWorld) : DriverCall → DriverWorld
  | .subscribe clientID clientName noAutoDrive replaces admitted =>
    { (w.learn w.next clientID).after (w.session.subscribe
        (w.subscriber clientID clientName noAutoDrive replaces) admitted) with
      next := w.next + 1 }
  | .unsubscribe sub => w.after (w.session.removeSubscriber sub)
  | .claimDriver sub clientID clientName =>
    (if sub ∈ w.session.subs then w.learn sub clientID else w).after
      (w.session.claimDriver sub clientID clientName)
  | .updateMeta m => w.after (w.session.updateMeta m)

/-- Whoever's input is forwarded is the driver that the session advertises, under an id that it
attached or claimed with. -/
def Agrees (w : DriverWorld) : Prop :=
  ∀ sub, w.session.isDriver sub = true →
    w.session.driverClientID ∈ w.ids sub ∧ ∀ id ∈ w.advertised, id ∈ w.ids sub

/-- The host reports a driver that the local driver knows itself by, and a subscriber takes the lease
over under the id that is advertised. -/
def Careful (w : DriverWorld) : DriverCall → Prop
  | .subscribe clientID clientName noAutoDrive replaces admitted =>
    admitted = true →
      w.session.transfers (w.subscriber clientID clientName noAutoDrive replaces) = true →
        clientID = w.session.driverClientID
  | .updateMeta m => ∀ sub, w.session.isDriver sub = true → m.driverClientID ∈ w.ids sub
  | .unsubscribe _ | .claimDriver .. => True

/-- What every call keeps: an open mirror, subscribers with numbers that were given out, and a last
META frame with the current driver. -/
structure Ordered (w : DriverWorld) : Prop where
  mirror : w.session.driverFromUpstream = true
  live : w.session.closed = false
  below : ∀ sub ∈ w.session.subs, sub < w.next
  fresh : ∀ sub, w.next ≤ sub → w.ids sub = []
  current : ∀ id ∈ w.advertised, id = w.session.driverClientID

/-- The agreement in terms of the session's own id. -/
def Known (w : DriverWorld) : Prop :=
  ∀ sub, w.session.isDriver sub = true → w.session.driverClientID ∈ w.ids sub

theorem Ordered.known_iff {w : DriverWorld} (ordered : w.Ordered) : w.Agrees ↔ w.Known := by
  constructor
  · exact fun agrees sub driver => (agrees sub driver).1
  · intro known sub driver
    refine ⟨known sub driver, fun id last => ?_⟩
    rw [ordered.current id last]
    exact known sub driver

theorem ordered_start (info : SessionInfo) : (start info).Ordered where
  mirror := rfl
  live := rfl
  below := by simp [start, Session.newMirror, Session.new]
  fresh := fun _ _ => rfl
  current := by simp [start]

theorem known_start (info : SessionInfo) : (start info).Known := by
  intro sub driver
  simp [start, Session.newMirror, Session.new, Session.isDriver] at driver

section Session

variable {s : Session} {sub : Subscriber}

theorem joined_mirror (mirror : s.driverFromUpstream = true) : s.joined sub = s.attached sub := by
  have local? : (s.attached sub).autoDrives sub = false := by
    simp [Session.autoDrives, Session.attached, mirror]
  rw [Session.joined, local?, if_neg Bool.false_ne_true]

variable (sub) in
theorem subscribe_mirror (mirror : s.driverFromUpstream = true) (live : s.closed = false)
    (last : Option String) :
    (s.subscribe sub true).1 = s.attached sub ∧
      advertisedAfter last (s.subscribe sub true).2 = some s.driverClientID := by
  have enters : (s.closed || !true) = false := by simp [live]
  rw [Session.subscribe, enters, if_neg Bool.false_ne_true, joined_mirror mirror]
  refine ⟨rfl, ?_⟩
  rw [advertisedAfter_append, advertisedAfter_append, advertisedAfter_append, advertisedAfter_closed]
  have sent : advertisedAfter last [if s.promotes sub then .broadcast (s.attached sub).currentMeta
      else .snapshot sub.handle (s.attached sub).currentMeta] = some s.driverClientID := by
    split_ifs
    · rfl
    · rfl
  rw [sent]
  split_ifs <;> rfl

theorem removeSubscriber_advertises (sub : ℕ) (last : Option String) :
    advertisedAfter last (s.removeSubscriber sub).2 =
      if s.isDriver sub then some "" else last := by
  rw [Session.removeSubscriber, advertisedAfter_append, advertisedAfter_append,
    advertisedAfter_append]
  split_ifs <;> rfl

theorem without_fields (sub : ℕ) :
    (s.without sub).driverFromUpstream = s.driverFromUpstream ∧
      (s.without sub).closed = s.closed := by
  rw [Session.without]
  split_ifs <;> exact ⟨rfl, rfl⟩

theorem withMeta_mirror (mirror : s.driverFromUpstream = true) (m : MetaPayload) :
    (s.withMeta m).driverClientID = m.driverClientID ∧
      (s.withMeta m).driverSubscriber = s.driverSubscriber ∧
        (s.withMeta m).subs = s.subs ∧ (s.withMeta m).closed = s.closed ∧
          (s.withMeta m).driverFromUpstream = true := by
  rw [Session.withMeta, if_pos mirror]
  exact ⟨rfl, rfl, rfl, rfl, mirror⟩

end Session

variable {w : DriverWorld}

theorem ordered_subscribe (ordered : w.Ordered) (clientID clientName : String) (noAutoDrive : Bool)
    (replaces : Option ℕ) (admitted : Bool) :
    (w.step (.subscribe clientID clientName noAutoDrive replaces admitted)).Ordered := by
  have fresh : ∀ sub, w.next + 1 ≤ sub → (w.learn w.next clientID).ids sub = [] := by
    intro sub above
    show (if sub = w.next then _ else w.ids sub) = []
    rw [if_neg (by omega)]
    exact ordered.fresh sub (by omega)
  cases admitted with
  | false =>
    have stays : w.session.subscribe (w.subscriber clientID clientName noAutoDrive replaces) false =
        (w.session, [.closed w.next]) := by
      simp [Session.subscribe, subscriber]
    rw [step, stays]
    exact ⟨ordered.mirror, ordered.live, fun sub inside => Nat.lt_succ_of_lt (ordered.below sub inside),
      fresh, ordered.current⟩
  | true =>
    obtain ⟨joins, last⟩ := subscribe_mirror (w.subscriber clientID clientName noAutoDrive replaces)
      ordered.mirror ordered.live w.advertised
    refine ⟨?_, ?_, ?_, fresh, ?_⟩
    · exact (congrArg Session.driverFromUpstream joins).trans ordered.mirror
    · exact (congrArg Session.closed joins).trans ordered.live
    · intro sub inside
      have member : sub ∈ (w.session.attached (w.subscriber clientID clientName noAutoDrive
          replaces)).subs := (congrArg Session.subs joins) ▸ inside
      rcases Finset.mem_insert.mp member with rfl | member
      · exact Nat.lt_succ_self _
      · exact Nat.lt_succ_of_lt (ordered.below sub (Finset.mem_sdiff.mp member).1)
    · intro id advertised
      have same : some id = some w.session.driverClientID := (Option.mem_def.mp advertised).symm.trans last
      exact (Option.some.inj same).trans (congrArg Session.driverClientID joins).symm

theorem ordered_unsubscribe (ordered : w.Ordered) (sub : ℕ) : (w.step (.unsubscribe sub)).Ordered := by
  obtain ⟨mirror, live⟩ := without_fields (s := w.session) sub
  refine ⟨mirror.trans ordered.mirror, live.trans ordered.live, ?_, ordered.fresh, ?_⟩
  · intro other inside
    have member : other ∈ (w.session.without sub).subs := inside
    rw [Session.subs_without] at member
    exact ordered.below other (Finset.mem_of_mem_erase member)
  · intro id advertised
    have last : advertisedAfter w.advertised (w.session.removeSubscriber sub).2 = some id := advertised
    rw [removeSubscriber_advertises] at last
    show id = (w.session.without sub).driverClientID
    rw [Session.without]
    by_cases driver : w.session.isDriver sub = true
    · rw [if_pos driver] at last ⊢
      exact (Option.some.inj last).symm
    · rw [if_neg driver] at last ⊢
      exact ordered.current id last

theorem ordered_claimDriver (ordered : w.Ordered) (sub : ℕ) (clientID clientName : String) :
    (w.step (.claimDriver sub clientID clientName)).Ordered := by
  by_cases inside : sub ∈ w.session.subs
  · have claimed : w.session.claimDriver sub clientID clientName =
        ({ w.session with
            driverSubscriber := some sub
            driverClientID := clientID
            driverClientName := clientName },
          [.broadcast (encodeMetaPayload w.session.info clientID clientName)]) :=
      if_neg (not_not_intro inside)
    rw [step, if_pos inside, claimed]
    refine ⟨ordered.mirror, ordered.live, ordered.below, ?_, ?_⟩
    · intro other above
      show (if other = sub then _ else w.ids other) = []
      have apart : other ≠ sub := by
        rintro rfl
        exact absurd (ordered.below _ inside) (not_lt.mpr above)
      rw [if_neg apart]
      exact ordered.fresh other above
    · intro id advertised
      exact (Option.some.inj advertised).symm
  · have unclaimed : w.session.claimDriver sub clientID clientName = (w.session, []) := if_pos inside
    rw [step, if_neg inside, unclaimed]
    exact ⟨ordered.mirror, ordered.live, ordered.below, ordered.fresh, ordered.current⟩

theorem ordered_updateMeta (ordered : w.Ordered) (m : MetaPayload) :
    (w.step (.updateMeta m)).Ordered := by
  obtain ⟨id, -, subs, live, mirror⟩ := withMeta_mirror ordered.mirror m
  refine ⟨mirror, live.trans ordered.live, fun sub inside => ordered.below sub (subs ▸ inside),
    ordered.fresh, fun other advertised => ?_⟩
  show other = (w.session.withMeta m).driverClientID
  have last : advertisedAfter w.advertised (w.session.updateMeta m).2 = some other := advertised
  by_cases changed : w.session.withMeta m ≠ w.session
  · rw [Session.updateMeta, if_pos changed] at last
    exact (Option.some.inj last).symm
  · rw [Session.updateMeta, if_neg changed] at last
    rw [not_not.mp changed]
    exact ordered.current other last

theorem ordered_step (ordered : w.Ordered) (call : DriverCall) : (w.step call).Ordered := by
  cases call with
  | subscribe clientID clientName noAutoDrive replaces admitted =>
    exact ordered_subscribe ordered clientID clientName noAutoDrive replaces admitted
  | unsubscribe sub => exact ordered_unsubscribe ordered sub
  | claimDriver sub clientID clientName => exact ordered_claimDriver ordered sub clientID clientName
  | updateMeta m => exact ordered_updateMeta ordered m

/-- **One subscription.** The advertised driver stays known exactly if the lease passes under the id
that is advertised. -/
theorem known_subscribe_iff (ordered : w.Ordered) (known : w.Known) {clientID clientName : String}
    {noAutoDrive : Bool} {replaces : Option ℕ} {admitted : Bool} :
    (w.step (.subscribe clientID clientName noAutoDrive replaces admitted)).Known ↔
      w.Careful (.subscribe clientID clientName noAutoDrive replaces admitted) := by
  have learns : ∀ sub id, id ∈ w.ids sub → id ∈ (w.learn w.next clientID).ids sub := by
    intro sub id inside
    show id ∈ if sub = w.next then clientID :: w.ids sub else w.ids sub
    split_ifs
    · exact List.mem_cons_of_mem _ inside
    · exact inside
  cases admitted with
  | false =>
    have stays : w.session.subscribe (w.subscriber clientID clientName noAutoDrive replaces) false =
        (w.session, [.closed w.next]) := by
      simp [Session.subscribe, subscriber]
    rw [step, stays]
    exact iff_of_true (fun sub driver => learns sub _ (known sub driver))
      fun admitted => absurd admitted Bool.false_ne_true
  | true =>
    have joins := (subscribe_mirror (w.subscriber clientID clientName noAutoDrive replaces)
      ordered.mirror ordered.live w.advertised).1
    have lease := congrArg Session.driverSubscriber joins
    have stays := congrArg Session.driverClientID joins
    by_cases transfers :
        w.session.transfers (w.subscriber clientID clientName noAutoDrive replaces) = true
    · have driver : ∀ sub, (w.step (.subscribe clientID clientName noAutoDrive replaces
          true)).session.isDriver sub = true ↔ sub = w.next := by
        intro sub
        show decide ((w.session.subscribe _ true).1.driverSubscriber = some sub) = true ↔ _
        rw [lease, Session.attached, if_pos transfers]
        simp [subscriber, eq_comm]
      constructor
      · intro after _ _
        have mine := after w.next ((driver w.next).mpr rfl)
        change (w.session.subscribe _ true).1.driverClientID ∈
          (if w.next = w.next then clientID :: w.ids w.next else w.ids w.next) at mine
        rw [stays, if_pos rfl, ordered.fresh w.next le_rfl] at mine
        exact (List.mem_singleton.mp mine).symm
      · intro careful sub is
        rw [(driver sub).mp is]
        show (w.session.subscribe _ true).1.driverClientID ∈
          (if w.next = w.next then clientID :: w.ids w.next else w.ids w.next)
        rw [stays, if_pos rfl, careful rfl transfers]
        exact List.mem_cons_self
    · refine iff_of_true (fun sub driver => ?_) fun _ moved => absurd moved transfers
      have before : w.session.isDriver sub = true := by
        change decide ((w.session.subscribe _ true).1.driverSubscriber = some sub) = true at driver
        rw [lease, Session.attached, if_neg transfers] at driver
        exact driver
      show (w.session.subscribe _ true).1.driverClientID ∈ (w.learn w.next clientID).ids sub
      rw [stays]
      exact learns sub _ (known sub before)

theorem known_unsubscribe (known : w.Known) (sub : ℕ) : (w.step (.unsubscribe sub)).Known := by
  intro other driver
  change (w.session.without sub).isDriver other = true at driver
  show (w.session.without sub).driverClientID ∈ w.ids other
  rw [Session.without] at driver ⊢
  by_cases leaves : w.session.isDriver sub = true
  · rw [if_pos leaves] at driver
    simp [Session.isDriver] at driver
  · rw [if_neg leaves] at driver ⊢
    exact known other driver

theorem known_claimDriver (known : w.Known) (sub : ℕ) (clientID clientName : String) :
    (w.step (.claimDriver sub clientID clientName)).Known := by
  by_cases inside : sub ∈ w.session.subs
  · intro other driver
    have mine : other = sub := by
      simpa [step, after, Session.claimDriver, inside, Session.isDriver, eq_comm] using driver
    rw [mine]
    simp [step, after, Session.claimDriver, inside, learn]
  · intro other driver
    have stays : w.session.claimDriver sub clientID clientName = (w.session, []) := if_pos inside
    rw [step, if_neg inside, stays] at driver ⊢
    exact known other driver

/-- **One update.** The advertised driver stays known exactly if the host reports one that the local
driver knows itself by. -/
theorem known_updateMeta_iff (ordered : w.Ordered) {m : MetaPayload} :
    (w.step (.updateMeta m)).Known ↔ w.Careful (.updateMeta m) := by
  obtain ⟨id, lease, -, -, -⟩ := withMeta_mirror ordered.mirror m
  have driver : ∀ sub, (w.session.withMeta m).isDriver sub = w.session.isDriver sub := by
    intro sub
    rw [Session.isDriver, lease]
    rfl
  refine forall_congr' fun sub => ?_
  show ((w.session.withMeta m).isDriver sub = true → (w.session.withMeta m).driverClientID ∈ w.ids sub)
    ↔ _
  rw [driver, id]

theorem known_step_iff (ordered : w.Ordered) (known : w.Known) (call : DriverCall) :
    (w.step call).Known ↔ w.Careful call := by
  cases call with
  | subscribe clientID clientName noAutoDrive replaces admitted =>
    exact known_subscribe_iff ordered known
  | unsubscribe sub => exact iff_of_true (known_unsubscribe known sub) trivial
  | claimDriver sub clientID clientName =>
    exact iff_of_true (known_claimDriver known sub clientID clientName) trivial
  | updateMeta m => exact known_updateMeta_iff ordered

/-- **Driver agreement.** The forwarded subscriber is the advertised driver all along exactly the runs
in which the host reports no other driver past a local one, and no lease passes to another id. -/
theorem agrees_iff (info : SessionInfo) (calls : List DriverCall) :
    (∀ first, first <+: calls → (run step (start info) first).Agrees) ↔
      Meets step Careful (start info) calls := by
  refine sound_iff_meets (fun w => w.Ordered ∧ w.Known) ?_ ?_ ?_
    ⟨ordered_start info, known_start info⟩ calls
  · exact fun w call both careful =>
      ⟨ordered_step both.1 call, (known_step_iff both.1 both.2 call).mpr careful⟩
  · exact fun w both => both.1.known_iff.mpr both.2
  · intro w call both careless agrees
    have known := (ordered_step both.1 call).known_iff.mp agrees
    exact careless ((known_step_iff both.1 both.2 call).mp known)

theorem adopted_driver_does_not_drive :
    ¬(run step (start SessionInfo.zero) [.subscribe "phone" "" false none true,
      .claimDriver 0 "phone" "",
      .updateMeta (encodeMetaPayload SessionInfo.zero "desktop" "")]).Agrees := by
  intro agrees
  exact absurd (agrees 0 (by decide)).1 (by decide)

end DriverWorld

end Atterm.Relay
