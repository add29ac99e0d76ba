/-
**Uplinks that overlap.**

A host may reconnect before its old connection is torn down, and announce the sessions again. Every
connection has a reader that runs `reconcile`, the handling of CLOSE and `cleanup` step by step, and
all of them share one registry, where `Add` leaves an existing session and `Remove` goes by id.

* `UplinkWorld.step` — one step of one connection;
* `UplinkWorld.Intact` — every mirrored session is the registered one;
* `UplinkWorld.intact_of_meets` — which runs leave the mirrors intact.
-/

import Atterm.Foundation.Exclusive
import Atterm.Foundation.Runs

namespace Atterm.Relay

open Atterm.Foundation

/-- A session in the registry: `ref` stands for its pointer. -/
structure Registered where
  ref : ℕ
  ownerUserID : String
deriving DecidableEq, Repr

inductive AddResult where
  | stored
  | existing
  | ownerMismatch
deriving DecidableEq, Repr

/-- What `Registry.Add` finds under an id. -/
def addResult (existing? : Option Registered) (ownerUserID : String) : AddResult :=
  match existing? with
  | none => .stored
  | some existing =>
    if existing.ownerUserID ≠ "" ∧ ownerUserID ≠ "" ∧ existing.ownerUserID ≠ ownerUserID then
      .ownerMismatch
    else .existing

/-- Where the reader of a connection is. `adding` goes through an announcement, `added` has registered a
session and not filed its mirror, `dropped` and `closing` have deleted a mirror and not removed its
session; `refused` has met a session of another owner, and `tearing` is `cleanup`. -/
inductive Phase where
  | absent
  | reading
  | adding (rest seen : List ℕ)
  | added (id ref : ℕ) (rest seen : List ℕ)
  | removing (gone : List ℕ)
  | dropped (id : ℕ) (gone : List ℕ)
  | closing (id : ℕ)
  | refused
  | tearing (ids : List ℕ)
deriving DecidableEq, Repr

/-- One connection, with the sessions in its `mirrors` map. -/
structure Uplink where
  ownerUserID : String
  phase : Phase
  mirrors : List (ℕ × ℕ)
deriving DecidableEq, Repr

namespace Uplink

def ids (u : Uplink) : List ℕ := u.mirrors.map Prod.fst

/-- The ids that the connection has registered and not removed, beside the mirrored ones. -/
def underWay : Phase → List ℕ
  | .added id _ _ _ | .dropped id _ | .closing id => [id]
  | .tearing ids => ids
  | .absent | .reading | .adding .. | .removing _ | .refused => []

/-- All ids whose sessions the connection takes for its own. -/
def claims (u : Uplink) : List ℕ := underWay u.phase ++ u.ids

/-- The session that is registered and not filed. -/
def unfiled : Phase → List (ℕ × ℕ)
  | .added id ref _ _ => [(id, ref)]
  | .absent | .reading | .adding .. | .removing _ | .dropped .. | .closing _ | .refused
  | .tearing _ => []

def held (u : Uplink) : List (ℕ × ℕ) := unfiled u.phase ++ u.mirrors

/-- The mirrors that an announcement no longer has. -/
def gone : Phase → List ℕ
  | .removing gone | .dropped _ gone => gone
  | .absent | .reading | .adding .. | .added .. | .closing _ | .refused | .tearing _ => []

/-- The connection is not torn down. -/
def Live (u : Uplink) : Prop := ∀ ids, u.phase ≠ .tearing ids

def dropMirror (u : Uplink) (id : ℕ) : List (ℕ × ℕ) := u.mirrors.filter (·.1 ≠ id)

end Uplink

/-- The registry, the number of the next session, and the connections. -/
structure UplinkWorld where
  registry : ℕ → Option Registered
  next : ℕ
  uplinks : ℕ → Uplink

inductive UplinkEvent where
  | connect (c : ℕ) (ownerUserID : String) (sessions : List ℕ)
  | announce (c : ℕ) (sessions : List ℕ)
  | advance (c : ℕ)
  | drop (c id : ℕ)
  | close (c id : ℕ)
  | fail (c : ℕ)
  | unregister (c id : ℕ)
deriving DecidableEq, Repr

def UplinkEvent.connection : UplinkEvent → ℕ
  | .connect c _ _ | .announce c _ | .advance c | .drop c _ | .close c _ | .fail c
  | .unregister c _ => c

namespace UplinkWorld

def start : UplinkWorld := ⟨fun _ => none, 0, fun _ => ⟨"", .absent, []⟩⟩

def put (w : UplinkWorld) (c : ℕ) (u : Uplink) : UplinkWorld :=
  { w with uplinks := Function.update w.uplinks c u }

/-- `removeSession`, as far as the registry goes. -/
def removeSession (w : UplinkWorld) (id : ℕ) : UplinkWorld :=
  { w with registry := Function.update w.registry id none }

/-- The `Add` of a new mirror session. -/
def register (w : UplinkWorld) (c id : ℕ) (rest seen : List ℕ) : UplinkWorld :=
  match addResult (w.registry id) (w.uplinks c).ownerUserID with
  | .ownerMismatch => { w with next := w.next + 1 }.put c { w.uplinks c with phase := .refused }
  | .existing => { w with next := w.next + 1 }.put c
      { w.uplinks c with phase := .added id w.next rest seen }
  | .stored =>
    { w with
      registry :=
        Function.update w.registry id (some ⟨w.next, (w.uplinks c).ownerUserID⟩)
      next := w.next + 1 }.put c { w.uplinks c with phase := .added id w.next rest seen }

/-- The next step of a reader, as far as it has no choice. -/
def advance (w : UplinkWorld) (c : ℕ) : UplinkWorld :=
  match (w.uplinks c).phase with
  | .adding [] seen => w.put c
      { w.uplinks c with phase := .removing ((w.uplinks c).ids.filter (· ∉ seen)) }
  | .adding (id :: rest) seen =>
    if id ∈ (w.uplinks c).ids then
      w.put c { w.uplinks c with phase := .adding rest seen }
    else w.register c id rest seen
  | .added id ref rest seen => w.put c
      { w.uplinks c with
        phase := .adding rest seen
        mirrors := (id, ref) :: (w.uplinks c).mirrors }
  | .removing [] => w.put c { w.uplinks c with phase := .reading }
  | .dropped id gone => (w.removeSession id).put c { w.uplinks c with phase := .removing gone }
  | .closing id => (w.removeSession id).put c { w.uplinks c with phase := .reading }
  | .absent | .reading | .removing _ | .refused | .tearing _ => w

/-- One step. The maps that `reconcile` and `cleanup` range over come in any order, so the events name
the id. The ids of an announcement are those that parse. -/
def step (w : UplinkWorld) : UplinkEvent → UplinkWorld
  | .connect c ownerUserID sessions =>
    if (w.uplinks c).phase = .absent then
      w.put c ⟨ownerUserID, .adding sessions sessions, []⟩
    else w
  | .announce c sessions =>
    if (w.uplinks c).phase = .reading then
      w.put c { w.uplinks c with phase := .adding sessions sessions }
    else w
  | .advance c => w.advance c
  | .drop c id =>
    match (w.uplinks c).phase with
    | .removing gone =>
      if id ∈ gone then
        w.put c
          { w.uplinks c with
            phase := .dropped id (gone.erase id)
            mirrors := (w.uplinks c).dropMirror id }
      else w
    | _ => w
  | .close c id =>
    if (w.uplinks c).phase = .reading ∧ id ∈ (w.uplinks c).ids then
      w.put c
        { w.uplinks c with
          phase := .closing id
          mirrors := (w.uplinks c).dropMirror id }
    else w
  | .fail c =>
    if (w.uplinks c).phase = .reading ∨ (w.uplinks c).phase = .refused then
      w.put c { w.uplinks c with phase := .tearing (w.uplinks c).ids, mirrors := [] }
    else w
  | .unregister c id =>
    match (w.uplinks c).phase with
    | .tearing ids =>
      if id ∈ ids then
        (w.removeSession id).put c { w.uplinks c with phase := .tearing (ids.erase id) }
      else w
    | _ => w

/-- Every id that a live connection mirrors is registered, and with the very session of the mirror. -/
def Intact (w : UplinkWorld) : Prop :=
  ∀ c, (w.uplinks c).Live → ∀ mirror ∈ (w.uplinks c).mirrors,
    (w.registry mirror.1).map Registered.ref = some mirror.2

/-- An announced id that the connection does not mirror is registered by nobody, or by another owner,
when the connection comes to it. -/
def Careful (w : UplinkWorld) : UplinkEvent → Prop
  | .advance c => ∀ id rest seen, (w.uplinks c).phase = .adding (id :: rest) seen →
      id ∉ (w.uplinks c).ids →
        addResult (w.registry id) (w.uplinks c).ownerUserID ≠ .existing
  | _ => True

def claims (w : UplinkWorld) (c : ℕ) : List ℕ := (w.uplinks c).claims

/-- What careful steps keep. -/
structure Sound (w : UplinkWorld) : Prop where
  exclusive : Exclusive w.registry w.claims
  held : ∀ c, ∀ mirror ∈ (w.uplinks c).held,
    (w.registry mirror.1).map Registered.ref = some mirror.2
  gone : ∀ c, Uplink.gone (w.uplinks c).phase ⊆ (w.uplinks c).ids
  goneNodup : ∀ c, (Uplink.gone (w.uplinks c).phase).Nodup

variable {w : UplinkWorld} {c : ℕ} {u : Uplink} {id : ℕ}

@[simp] theorem uplinks_put_self (w : UplinkWorld) (c : ℕ) (u : Uplink) :
    (w.put c u).uplinks c = u := Function.update_self ..

theorem uplinks_put_of_ne {other : ℕ} (distinct : other ≠ c) (w : UplinkWorld) (u : Uplink) :
    (w.put c u).uplinks other = w.uplinks other := Function.update_of_ne distinct ..

theorem claims_put (w : UplinkWorld) (c : ℕ) (u : Uplink) :
    (w.put c u).claims = Function.update w.claims c u.claims := by
  funext other
  by_cases same : other = c
  · subst same
    rw [Function.update_self, claims, uplinks_put_self]
  · rw [Function.update_of_ne same, claims, uplinks_put_of_ne same]
    rfl

theorem fst_mem_claims {mirror : ℕ × ℕ} (inside : mirror ∈ u.held) : mirror.1 ∈ u.claims := by
  rcases List.mem_append.mp inside with unfiled | filed
  · refine List.mem_append_left _ ?_
    cases phase : u.phase <;> simp [phase, Uplink.unfiled] at unfiled
    rw [unfiled]
    exact List.mem_singleton_self _
  · exact List.mem_append_right _ (List.mem_map_of_mem filed)

theorem Sound.intact (sound : w.Sound) : w.Intact :=
  fun c _ mirror inside => sound.held c mirror (List.mem_append_right _ inside)

theorem sound_start : start.Sound where
  exclusive := Exclusive.empty _
  held := fun _ _ inside => absurd inside List.not_mem_nil
  gone := fun _ => List.Subset.refl _
  goneNodup := fun _ => List.nodup_nil

structure Fits (u : Uplink) (claims : List ℕ) (held : List (ℕ × ℕ)) : Prop where
  claims : u.claims ⊆ claims
  nodup : u.claims.Nodup
  held : u.held ⊆ held
  gone : Uplink.gone u.phase ⊆ u.ids
  goneNodup : (Uplink.gone u.phase).Nodup

theorem Sound.replace (sound : w.Sound) {next : UplinkWorld}
    (others : ∀ other, other ≠ c → next.uplinks other = w.uplinks other)
    (exclusive : Exclusive next.registry next.claims)
    (kept : ∀ other, other ≠ c → ∀ mirror ∈ (w.uplinks other).held,
      next.registry mirror.1 = w.registry mirror.1)
    (mine : ∀ mirror ∈ (next.uplinks c).held,
      (next.registry mirror.1).map Registered.ref = some mirror.2)
    (gone : Uplink.gone (next.uplinks c).phase ⊆ (next.uplinks c).ids)
    (goneNodup : (Uplink.gone (next.uplinks c).phase).Nodup) : next.Sound where
  exclusive := exclusive
  held := by
    intro other mirror inside
    by_cases same : other = c
    · subst same
      exact mine mirror inside
    · rw [others other same] at inside
      rw [kept other same mirror inside]
      exact sound.held other mirror inside
  gone := by
    intro other
    by_cases same : other = c
    · subst same
      exact gone
    · rw [others other same]
      exact sound.gone other
  goneNodup := by
    intro other
    by_cases same : other = c
    · subst same
      exact goneNodup
    · rw [others other same]
      exact sound.goneNodup other

/-- **A connection moves without touching the registry.** -/
theorem Sound.put (sound : w.Sound) (fits : Fits u (w.claims c) (w.uplinks c).held) :
    (w.put c u).Sound := by
  refine sound.replace (fun other distinct => uplinks_put_of_ne distinct w u) ?_ (fun _ _ _ _ => rfl)
    ?_ ?_ ?_
  · rw [claims_put]
    exact sound.exclusive.keep fits.claims fits.nodup
  · rw [uplinks_put_self]
    exact fun mirror inside => sound.held c mirror (fits.held inside)
  · rw [uplinks_put_self]
    exact fits.gone
  · rw [uplinks_put_self]
    exact fits.goneNodup

/-- **A connection removes a session of its own.** -/
theorem Sound.removeSession (sound : w.Sound) (mine : id ∈ w.claims c)
    (fits : Fits u (w.claims c) (w.uplinks c).held) (left : id ∉ u.claims) :
    ((w.removeSession id).put c u).Sound := by
  refine sound.replace (fun other distinct => uplinks_put_of_ne distinct _ u) ?_ ?_ ?_ ?_ ?_
  · rw [claims_put]
    exact sound.exclusive.release mine fits.claims left fits.nodup
  · intro other distinct mirror inside
    exact sound.exclusive.release_other mine distinct (fst_mem_claims inside)
  · rw [uplinks_put_self]
    intro mirror inside
    have apart : mirror.1 ≠ id := fun same => left (same ▸ fst_mem_claims inside)
    show (Function.update w.registry id none mirror.1).map Registered.ref = _
    rw [Function.update_of_ne apart]
    exact sound.held c mirror (fits.held inside)
  · rw [uplinks_put_self]
    exact fits.gone
  · rw [uplinks_put_self]
    exact fits.goneNodup

/-- **A connection registers a session under a free id.** -/
theorem Sound.store (sound : w.Sound) (free : w.registry id = none) (entry : Registered) (next : ℕ)
    (fits : Fits u (id :: w.claims c) ((id, entry.ref) :: (w.uplinks c).held)) :
    (({ w with registry := Function.update w.registry id (some entry), next := next } :
      UplinkWorld).put c u).Sound := by
  have apart : ∀ other, ∀ found ∈ w.claims other, found ≠ id := by
    rintro other found inside rfl
    exact sound.exclusive.present other found inside free
  refine sound.replace (fun other distinct => uplinks_put_of_ne distinct _ u) ?_ ?_ ?_ ?_ ?_
  · rw [claims_put]
    exact sound.exclusive.enter free fits.claims fits.nodup entry
  · intro other _ mirror inside
    exact Function.update_of_ne (apart other _ (fst_mem_claims inside)) ..
  · rw [uplinks_put_self]
    intro mirror inside
    show (Function.update w.registry id (some entry) mirror.1).map Registered.ref = _
    rcases List.mem_cons.mp (fits.held inside) with rfl | before
    · rw [Function.update_self]
      rfl
    · rw [Function.update_of_ne (apart c _ (fst_mem_claims before))]
      exact sound.held c mirror before
  · rw [uplinks_put_self]
    exact fits.gone
  · rw [uplinks_put_self]
    exact fits.goneNodup

theorem claims_of_phase {phase : Phase} (at_ : (w.uplinks c).phase = phase) :
    w.claims c = Uplink.underWay phase ++ (w.uplinks c).ids := by
  rw [claims, Uplink.claims, at_]

theorem held_of_phase {phase : Phase} (at_ : (w.uplinks c).phase = phase) :
    (w.uplinks c).held = Uplink.unfiled phase ++ (w.uplinks c).mirrors := by
  rw [Uplink.held, at_]

theorem Sound.move (sound : w.Sound) {phase next : Phase} (at_ : (w.uplinks c).phase = phase)
    (claims : Uplink.underWay next = Uplink.underWay phase)
    (held : Uplink.unfiled next = Uplink.unfiled phase)
    (gone : Uplink.gone next ⊆ (w.uplinks c).ids) (goneNodup : (Uplink.gone next).Nodup) :
    (w.put c { w.uplinks c with phase := next }).Sound := by
  have same : ({ w.uplinks c with phase := next } : Uplink).claims = w.claims c := by
    rw [claims_of_phase at_, ← claims]
    rfl
  refine sound.put ⟨?_, ?_, ?_, gone, goneNodup⟩
  · rw [same]
    exact List.Subset.refl _
  · rw [same]
    exact sound.exclusive.nodup c
  · rw [held_of_phase at_, ← held]
    exact List.Subset.refl _

theorem Sound.finish (sound : w.Sound) {phase next : Phase} (at_ : (w.uplinks c).phase = phase)
    (claims : Uplink.underWay phase = [id]) (done : Uplink.underWay next = [])
    (filed : Uplink.unfiled next = []) (same : Uplink.gone next = Uplink.gone phase) :
    ((w.removeSession id).put c { w.uplinks c with phase := next }).Sound := by
  have all : w.claims c = id :: (w.uplinks c).ids := by
    rw [claims_of_phase at_, claims]
    rfl
  have left : ({ w.uplinks c with phase := next } : Uplink).claims = (w.uplinks c).ids := by
    rw [Uplink.claims, done]
    rfl
  have nodup := List.nodup_cons.mp (all ▸ sound.exclusive.nodup c)
  have gone := sound.gone c
  have goneNodup := sound.goneNodup c
  rw [at_, ← same] at gone goneNodup
  refine sound.removeSession (all ▸ List.mem_cons_self) ⟨?_, ?_, ?_, gone, goneNodup⟩ ?_
  · rw [left, all]
    exact List.subset_cons_self _ _
  · rw [left]
    exact nodup.2
  · rw [Uplink.held, filed]
    exact List.subset_append_right _ _
  · rw [left]
    exact nodup.1

theorem sound_register (sound : w.Sound) {rest seen : List ℕ}
    (at_ : (w.uplinks c).phase = .adding (id :: rest) seen) (new : id ∉ (w.uplinks c).ids)
    (careful : addResult (w.registry id) (w.uplinks c).ownerUserID ≠ .existing) :
    (w.register c id rest seen).Sound := by
  have ids : w.claims c = (w.uplinks c).ids := claims_of_phase at_
  rw [register]
  cases found : addResult (w.registry id) (w.uplinks c).ownerUserID with
  | existing => exact absurd found careful
  | ownerMismatch =>
    exact Sound.move (w := { w with next := w.next + 1 }) ⟨sound.1, sound.2, sound.3, sound.4⟩ at_ rfl
      rfl (List.nil_subset _) List.nodup_nil
  | stored =>
    have free : w.registry id = none := by
      cases entry : w.registry id with
      | none => rfl
      | some existing =>
        rw [entry, addResult] at found
        split_ifs at found
    refine sound.store free ⟨w.next, (w.uplinks c).ownerUserID⟩ (w.next + 1)
      ⟨?_, ?_, ?_, List.nil_subset _, List.nodup_nil⟩
    · rw [ids]
      exact List.Subset.refl _
    · exact List.nodup_cons.mpr ⟨new, ids ▸ sound.exclusive.nodup c⟩
    · rw [held_of_phase at_]
      exact List.Subset.refl _

theorem sound_advance (sound : w.Sound) (careful : w.Careful (.advance c)) :
    (w.advance c).Sound := by
  rw [advance]
  cases at_ : (w.uplinks c).phase with
  | adding rest seen =>
    cases rest with
    | nil =>
      refine sound.move at_ rfl rfl (fun _ => List.mem_of_mem_filter)
        (List.Nodup.filter _ ?_)
      have nodup := sound.exclusive.nodup c
      rw [claims_of_phase at_] at nodup
      exact nodup
    | cons id rest =>
      by_cases mirrored : id ∈ (w.uplinks c).ids
      · simp only [if_pos mirrored]
        exact sound.move at_ rfl rfl (List.nil_subset _) List.nodup_nil
      · simp only [if_neg mirrored]
        exact sound_register sound at_ mirrored (careful id rest seen at_ mirrored)
  | added id ref rest seen =>
    refine sound.put ⟨?_, ?_, ?_, List.nil_subset _, List.nodup_nil⟩
    · rw [claims_of_phase at_]
      exact List.Subset.refl _
    · have nodup := sound.exclusive.nodup c
      rw [claims_of_phase at_] at nodup
      exact nodup
    · rw [held_of_phase at_]
      exact List.Subset.refl _
  | removing gone =>
    cases gone with
    | nil => exact sound.move at_ rfl rfl (List.nil_subset _) List.nodup_nil
    | cons id gone => exact sound
  | dropped id gone => exact sound.finish at_ rfl rfl rfl rfl
  | closing id => exact sound.finish at_ rfl rfl rfl rfl
  | absent => exact sound
  | reading => exact sound
  | refused => exact sound
  | tearing ids => exact sound

theorem ids_dropMirror (u : Uplink) (id : ℕ) :
    (u.dropMirror id).map Prod.fst = u.ids.filter (· ≠ id) := by
  rw [Uplink.dropMirror, Uplink.ids, List.filter_map]
  rfl

theorem Sound.dropMirror (sound : w.Sound) {phase next : Phase} (at_ : (w.uplinks c).phase = phase)
    (idle : Uplink.underWay phase = []) (inside : id ∈ (w.uplinks c).ids)
    (claims : Uplink.underWay next = [id]) (filed : Uplink.unfiled next = [])
    (gone : Uplink.gone next ⊆ (w.uplinks c).ids.filter (· ≠ id))
    (goneNodup : (Uplink.gone next).Nodup) :
    (w.put c { w.uplinks c with
      phase := next
      mirrors := (w.uplinks c).dropMirror id }).Sound := by
  have all : w.claims c = (w.uplinks c).ids := by
    rw [claims_of_phase at_, idle]
    rfl
  have nodup : (w.uplinks c).ids.Nodup := all ▸ sound.exclusive.nodup c
  have left : ({ w.uplinks c with
      phase := next
      mirrors := (w.uplinks c).dropMirror id } : Uplink).claims =
        id :: (w.uplinks c).ids.filter (· ≠ id) := by
    rw [Uplink.claims, claims, Uplink.ids, ids_dropMirror]
    rfl
  refine sound.put ⟨?_, ?_, ?_, ?_, goneNodup⟩
  · rw [left, all]
    exact List.cons_subset.mpr ⟨inside, fun _ => List.mem_of_mem_filter⟩
  · rw [left]
    exact List.nodup_cons.mpr ⟨by simp, nodup.filter _⟩
  · rw [Uplink.held, filed]
    exact fun mirror kept => List.mem_append_right _ (List.mem_of_mem_filter kept)
  · rw [Uplink.ids, ids_dropMirror]
    exact gone

theorem sound_step (sound : w.Sound) (event : UplinkEvent) (careful : w.Careful event) :
    (w.step event).Sound := by
  cases event with
  | connect c owner sessions =>
    rw [step]
    split_ifs
    · refine sound.put ⟨?_, List.nodup_nil, ?_, List.nil_subset _, List.nodup_nil⟩
      · exact List.nil_subset _
      · exact List.nil_subset _
    · exact sound
  | announce c sessions =>
    rw [step]
    split_ifs with reading
    · exact sound.move reading rfl rfl (List.nil_subset _) List.nodup_nil
    · exact sound
  | advance c => exact sound_advance sound careful
  | drop c id =>
    rw [step]
    cases at_ : (w.uplinks c).phase with
    | removing gone =>
      by_cases inside : id ∈ gone
      · simp only [if_pos inside]
        have listed := sound.gone c
        have nodup := sound.goneNodup c
        rw [at_] at listed nodup
        refine sound.dropMirror at_ rfl (listed inside) rfl rfl ?_ (nodup.erase id)
        intro other kept
        rw [List.mem_filter, decide_eq_true_eq]
        exact ⟨listed (List.mem_of_mem_erase kept), fun same =>
          (List.Nodup.not_mem_erase nodup) (same ▸ kept)⟩
      · simp only [if_neg inside]
        exact sound
    | _ => exact sound
  | close c id =>
    rw [step]
    split_ifs with reading
    · exact sound.dropMirror reading.1 rfl reading.2 rfl rfl (List.nil_subset _) List.nodup_nil
    · exact sound
  | fail c =>
    rw [step]
    split_ifs with ended
    · have all : w.claims c = (w.uplinks c).ids := by
        rcases ended with at_ | at_ <;> exact claims_of_phase at_
      have left : ({ w.uplinks c with
          phase := .tearing (w.uplinks c).ids
          mirrors := [] } : Uplink).claims = (w.uplinks c).ids := List.append_nil _
      refine sound.put ⟨?_, ?_, List.nil_subset _, List.nil_subset _, List.nodup_nil⟩
      · rw [left, all]
        exact List.Subset.refl _
      · rw [left, ← all]
        exact sound.exclusive.nodup c
    · exact sound
  | unregister c id =>
    rw [step]
    cases at_ : (w.uplinks c).phase with
    | tearing ids =>
      by_cases inside : id ∈ ids
      · simp only [if_pos inside]
        have all := claims_of_phase at_
        have nodup := sound.exclusive.nodup c
        have gone := sound.gone c
        rw [all] at nodup
        have whole : ∀ other ∈ ids.erase id ++ (w.uplinks c).ids,
            other ∈ ids ++ (w.uplinks c).ids ∧ other ≠ id := by
          intro other kept
          rcases List.mem_append.mp kept with later | filed
          · exact ⟨List.mem_append_left _ (List.mem_of_mem_erase later), fun same =>
              (List.Nodup.not_mem_erase (List.nodup_append.mp nodup).1) (same ▸ later)⟩
          · exact ⟨List.mem_append_right _ filed, fun same =>
              (List.nodup_append.mp nodup).2.2 id inside other filed same.symm⟩
        refine sound.removeSession (all ▸ List.mem_append_left _ inside)
          ⟨?_, ?_, ?_, List.nil_subset _, List.nodup_nil⟩ ?_
        · rw [all]
          exact fun other kept => (whole other kept).1
        · exact nodup.sublist ((List.erase_sublist).append_right _)
        · rw [held_of_phase at_]
          exact List.Subset.refl _
        · exact fun kept => (whole id kept).2 rfl
      · simp only [if_neg inside]
        exact sound
    | _ => exact sound

/-- A reader is about to file a session that is not the registered one. -/
def Doomed (w : UplinkWorld) (c : ℕ) : Prop :=
  ∃ id ref rest seen, (w.uplinks c).phase = .added id ref rest seen ∧ ref < w.next ∧
    ∀ entry ∈ w.registry id, entry.ref ≠ ref

/-- Every session that is registered has been numbered. -/
def Numbered (w : UplinkWorld) : Prop :=
  ∀ id, ∀ entry ∈ w.registry id, entry.ref < w.next

/-- What a step of one connection does to the others and to the registry: sessions go, and the new
ones have new numbers. -/
structure Renewed (w after : UplinkWorld) (c : ℕ) : Prop where
  others : ∀ other, other ≠ c → after.uplinks other = w.uplinks other
  numbers : w.next ≤ after.next
  entries : ∀ id, ∀ entry ∈ after.registry id,
    entry ∈ w.registry id ∨ w.next ≤ entry.ref ∧ entry.ref < after.next

theorem Renewed.refl (w : UplinkWorld) (c : ℕ) : w.Renewed w c :=
  ⟨fun _ _ => rfl, le_rfl, fun _ _ inside => Or.inl inside⟩

theorem Renewed.put {after : UplinkWorld} (renewed : w.Renewed after c) (u : Uplink) :
    w.Renewed (after.put c u) c where
  others := fun other distinct =>
    (uplinks_put_of_ne distinct after u).trans (renewed.others other distinct)
  numbers := renewed.numbers
  entries := renewed.entries

theorem renewed_removeSession (w : UplinkWorld) (c id : ℕ) : w.Renewed (w.removeSession id) c := by
  refine ⟨fun _ _ => rfl, le_rfl, fun found entry inside => ?_⟩
  by_cases same : found = id
  · subst same
    change entry ∈ Function.update w.registry found none found at inside
    rw [Function.update_self] at inside
    exact absurd inside (Option.not_mem_none entry)
  · change entry ∈ Function.update w.registry id none found at inside
    rw [Function.update_of_ne same] at inside
    exact Or.inl inside

theorem renewed_register (w : UplinkWorld) (c id : ℕ) (rest seen : List ℕ) :
    w.Renewed (w.register c id rest seen) c := by
  have counted : w.Renewed { w with next := w.next + 1 } c :=
    ⟨fun _ _ => rfl, Nat.le_succ w.next, fun _ _ inside => Or.inl inside⟩
  have stored : w.Renewed
      { w with
        registry := Function.update w.registry id (some ⟨w.next, (w.uplinks c).ownerUserID⟩)
        next := w.next + 1 } c := by
    refine ⟨fun _ _ => rfl, Nat.le_succ w.next, fun found entry inside => ?_⟩
    by_cases same : found = id
    · subst same
      change entry ∈ Function.update w.registry found _ found at inside
      rw [Function.update_self] at inside
      rw [← Option.some.inj inside]
      exact Or.inr ⟨le_rfl, Nat.lt_succ_self _⟩
    · change entry ∈ Function.update w.registry id _ found at inside
      rw [Function.update_of_ne same] at inside
      exact Or.inl inside
  rw [register]
  cases addResult (w.registry id) (w.uplinks c).ownerUserID with
  | ownerMismatch => exact counted.put _
  | existing => exact counted.put _
  | stored => exact stored.put _

theorem renewed_advance (w : UplinkWorld) (c : ℕ) : w.Renewed (w.advance c) c := by
  have still := Renewed.refl w c
  rw [advance]
  cases (w.uplinks c).phase with
  | adding rest seen =>
    cases rest with
    | nil => exact still.put _
    | cons id rest =>
      by_cases mirrored : id ∈ (w.uplinks c).ids
      · simp only [if_pos mirrored]
        exact still.put _
      · simp only [if_neg mirrored]
        exact renewed_register w c id rest seen
  | added id ref rest seen => exact still.put _
  | removing gone =>
    cases gone with
    | nil => exact still.put _
    | cons id gone => exact still
  | dropped id gone => exact (renewed_removeSession w c id).put _
  | closing id => exact (renewed_removeSession w c id).put _
  | absent => exact still
  | reading => exact still
  | refused => exact still
  | tearing ids => exact still

theorem renewed_step (w : UplinkWorld) (event : UplinkEvent) :
    w.Renewed (w.step event) event.connection := by
  have still := Renewed.refl w event.connection
  cases event with
  | connect c owner sessions =>
    rw [step]
    split_ifs
    · exact still.put _
    · exact still
  | announce c sessions =>
    rw [step]
    split_ifs
    · exact still.put _
    · exact still
  | advance c => exact renewed_advance w c
  | drop c id =>
    rw [step]
    split
    · split_ifs
      · exact still.put _
      · exact still
    · exact still
  | close c id =>
    rw [step]
    split_ifs
    · exact still.put _
    · exact still
  | fail c =>
    rw [step]
    split_ifs
    · exact still.put _
    · exact still
  | unregister c id =>
    rw [step]
    split
    · split_ifs
      · exact (renewed_removeSession w c id).put _
      · exact still
    · exact still

theorem numbered_step (numbered : w.Numbered) (event : UplinkEvent) : (w.step event).Numbered := by
  intro id entry inside
  have renewed := renewed_step w event
  rcases renewed.entries id entry inside with before | new
  · exact (numbered id entry before).trans_le renewed.numbers
  · exact new.2

theorem Doomed.run (doomed : w.Doomed c) {rest : List UplinkEvent}
    (others : ∀ event ∈ rest, event.connection ≠ c) : (run step w rest).Doomed c := by
  induction rest generalizing w with
  | nil => exact doomed
  | cons event rest ih =>
    refine ih ?_ fun later inside => others later (List.mem_cons_of_mem _ inside)
    have renewed := renewed_step w event
    obtain ⟨id, ref, left, seen, phase, below, other⟩ := doomed
    have mine := renewed.others c (others event List.mem_cons_self).symm
    refine ⟨id, ref, left, seen, mine ▸ phase, below.trans_le renewed.numbers, ?_⟩
    intro entry inside
    rcases renewed.entries id entry inside with before | new
    · exact other entry before
    · exact (below.trans_le new.1).ne'

/-- **A doomed session is filed**, and the mirror is not the registered session. -/
theorem Doomed.not_intact (doomed : w.Doomed c) : ¬(w.step (.advance c)).Intact := by
  obtain ⟨id, ref, rest, seen, phase, -, other⟩ := doomed
  intro intact
  have filed : w.step (.advance c) = w.put c
      { w.uplinks c with
        phase := .adding rest seen
        mirrors := (id, ref) :: (w.uplinks c).mirrors } := by
    show w.advance c = _
    rw [advance, phase]
  rw [filed] at intact
  have mine := intact c (by simp [Uplink.Live]) (id, ref) (by simp)
  obtain ⟨entry, found, same⟩ := Option.map_eq_some_iff.mp mine
  exact other entry found same

theorem doomed_of_careless (numbered : w.Numbered) {event : UplinkEvent}
    (careless : ¬w.Careful event) : (w.step event).Doomed event.connection := by
  cases event with
  | advance c =>
    simp only [Careful, not_forall, not_not] at careless
    obtain ⟨id, rest, seen, phase, new, existing⟩ := careless
    have made : w.step (.advance c) = { w with next := w.next + 1 }.put c
        { w.uplinks c with phase := .added id w.next rest seen } := by
      show w.advance c = _
      rw [advance, phase]
      show (if id ∈ (w.uplinks c).ids then _ else w.register c id rest seen) = _
      rw [if_neg new, register, existing]
    rw [made]
    refine ⟨id, w.next, rest, seen, ?_, Nat.lt_succ_self _, fun entry inside => ?_⟩
    · show (UplinkWorld.uplinks (UplinkWorld.put _ c _) c).phase = _
      rw [uplinks_put_self]
    · exact (numbered id entry inside).ne
  | connect c owner sessions => exact absurd trivial careless
  | announce c sessions => exact absurd trivial careless
  | drop c id => exact absurd trivial careless
  | close c id => exact absurd trivial careless
  | fail c => exact absurd trivial careless
  | unregister c id => exact absurd trivial careless

/-- **Overlapping uplinks leave the mirrors intact in careful runs.** A careless step breaks them: as
soon as the connection goes on, whatever the others do until then, it mirrors a session that is not the
registered one. -/
theorem intact_of_meets {events : List UplinkEvent} (meets : Meets step Careful start events) :
    (∀ first, first <+: events → (run step start first).Intact) ∧
      ∀ event, ¬(run step start events).Careful event →
        ∀ rest : List UplinkEvent, (∀ later ∈ rest, later.connection ≠ event.connection) →
          ¬(run step start (events ++ event :: rest ++ [.advance event.connection])).Intact := by
  constructor
  · rintro first ⟨later, rfl⟩
    exact (run_invariant_of_meets Sound (fun w event sound careful => sound_step sound event careful)
      sound_start ((meets_append step).mp meets).1).intact
  · intro event careless rest others
    have numbered : (run step start events).Numbered := run_invariant Numbered
      (fun w event numbered => numbered_step numbered event)
      (fun _ _ inside => absurd inside (Option.not_mem_none _)) events
    rw [run_append, run_append, run_cons]
    exact (Doomed.run (doomed_of_careless numbered careless) others).not_intact

section Sample

def announcing : List UplinkEvent := [.connect 0 "alice" [7], .advance 0, .advance 0]

instance decidableCareful (w : UplinkWorld) : (event : UplinkEvent) → Decidable (w.Careful event)
  | .advance c =>
    match phase : (w.uplinks c).phase with
    | .adding (id :: rest) seen =>
      decidable_of_iff (id ∉ (w.uplinks c).ids →
        addResult (w.registry id) (w.uplinks c).ownerUserID ≠ .existing)
        ⟨fun h other rest' seen' at_ => by
          rw [phase, Phase.adding.injEq, List.cons.injEq] at at_
          exact at_.1.1 ▸ h, fun h => h id rest seen phase⟩
    | .adding [] _ | .absent | .reading | .added .. | .removing _ | .dropped .. | .closing _
    | .refused | .tearing _ =>
      isTrue fun _ _ _ at_ => by simp [phase] at at_
  | .connect .. | .announce .. | .drop .. | .close .. | .fail _ | .unregister .. => isTrue trivial

theorem announcing_intact : (run step start announcing).Intact := by
  have meets : Meets step Careful start announcing := by decide
  exact (intact_of_meets meets).1 _ (List.prefix_refl _)

/-- The host reconnects before its old connection is torn down, and the second mirror is a session that
nobody can attach to. -/
theorem reconnected_is_not_intact :
    ¬(run step start (announcing ++ [.connect 1 "alice" [7], .advance 1, .advance 1])).Intact := by
  intro intact
  have phase : ((run step start (announcing ++ [.connect 1 "alice" [7], .advance 1,
      .advance 1])).uplinks 1).phase = .adding [] [7] := by decide
  have live : ((run step start (announcing ++ [.connect 1 "alice" [7], .advance 1,
      .advance 1])).uplinks 1).Live := by
    intro ids torn
    rw [phase] at torn
    exact absurd torn (by simp)
  exact absurd (intact 1 live (7, 1) (by decide)) (by decide)

end Sample

end UplinkWorld

end Atterm.Relay
