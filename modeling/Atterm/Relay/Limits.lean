/-
**The limits of the relay.**

A fixed-window limiter opens a window with a request, lets in so many requests of its key until the
window has passed, and refuses the others. The clock is read before the lock is taken, so the requests
are judged in an order that may differ from that of their readings. A connection limiter counts the open
connections of a key.

* `FixedWindowLimiter.allow`, `ConnectionLimiter.acquire`, `ConnectionLimiter.release` — the code;
* `FixedWindowLimiter.requests_limited` — what a stretch of time lets in, and what a refusal tells;
* `Connections.connections_counted` — the counters are those of the open connections.
-/

import Atterm.Foundation.Runs

namespace Atterm.Relay

open Atterm.Foundation

/-- The start of a window, and how many requests it has let in. -/
structure WindowHit where
  start : ℤ
  count : ℤ

structure FixedWindowLimiter (Key : Type) where
  limit : ℤ
  window : ℤ
  hits : Key → Option WindowHit

/-- A request with the reading of the clock that it is judged by. -/
structure LimitedRequest (Key : Type) where
  key : Key
  now : ℤ
deriving DecidableEq

variable {Key : Type}

variable (Key) in
def newFixedWindowLimiter (limit window : ℤ) : Option (FixedWindowLimiter Key) :=
  if limit ≤ 0 then none else some ⟨limit, window, fun _ => none⟩

namespace FixedWindowLimiter

/-- What `allow` makes of the entry of a key. -/
def judge (limit window : ℤ) (hit : Option WindowHit) (now : ℤ) : Bool × Option WindowHit :=
  match hit with
  | none => (true, some ⟨now, 1⟩)
  | some h =>
    if window ≤ now - h.start then (true, some ⟨now, 1⟩)
    else if limit ≤ h.count then (false, some h)
    else (true, some { h with count := h.count + 1 })

theorem judge_cases (limit window : ℤ) (hit : Option WindowHit) (now : ℤ) :
    judge limit window hit now = (true, some ⟨now, 1⟩) ∨
      ∃ h, hit = some h ∧ now - h.start < window ∧
        (limit ≤ h.count ∧ judge limit window hit now = (false, some h) ∨
          h.count < limit ∧
            judge limit window hit now = (true, some { h with count := h.count + 1 })) := by
  cases hit with
  | none => exact .inl rfl
  | some h =>
    rw [judge]
    by_cases passed : window ≤ now - h.start
    · exact .inl (if_pos passed)
    · refine .inr ⟨h, rfl, not_le.mp passed, ?_⟩
      rw [if_neg passed]
      by_cases full : limit ≤ h.count
      · exact .inl ⟨full, if_pos full⟩
      · exact .inr ⟨not_le.mp full, if_neg full⟩

/-- **The entry after a request**: that of a new window, or the one before, with the request counted if it
is let in. -/
theorem judge_entry {limit window now : ℤ} {hit : Option WindowHit} {h : WindowHit}
    (new : h ∈ (judge limit window hit now).2) :
    (h = ⟨now, 1⟩ ∧ (judge limit window hit now).1) ∨
      ∃ before ∈ hit, h.start = before.start ∧
        h.count = before.count + if (judge limit window hit now).1 then 1 else 0 := by
  rcases judge_cases limit window hit now with opens | ⟨before, rfl, -, ⟨-, stays⟩ | ⟨-, fits⟩⟩
  · rw [opens] at new ⊢
    exact .inl ⟨(Option.some.inj new).symm, rfl⟩
  · rw [stays] at new ⊢
    cases new
    exact .inr ⟨h, rfl, rfl, by simp⟩
  · rw [fits] at new ⊢
    cases new
    exact .inr ⟨before, rfl, rfl, by simp⟩

variable [DecidableEq Key]

def allow (l : FixedWindowLimiter Key) (key : Key) (now : ℤ) : Bool × FixedWindowLimiter Key :=
  ((judge l.limit l.window (l.hits key) now).1,
    { l with hits := Function.update l.hits key (judge l.limit l.window (l.hits key) now).2 })

/-- The requests in the order in which the lock is taken, each with its answer. -/
def answers (l : FixedWindowLimiter Key) :
    List (LimitedRequest Key) → List (LimitedRequest Key × Bool)
  | [] => []
  | r :: rest => (r, (l.allow r.key r.now).1) :: (l.allow r.key r.now).2.answers rest

/-! ### One key -/

/-- The answers to the requests of one key, by their readings. -/
def admissions (limit window : ℤ) : Option WindowHit → List ℤ → List (ℤ × Bool)
  | _, [] => []
  | hit, now :: rest =>
    (now, (judge limit window hit now).1) :: admissions limit window (judge limit window hit now).2 rest

/-- **A key does not notice the others.** -/
theorem answers_key (l : FixedWindowLimiter Key) (key : Key) (requests : List (LimitedRequest Key)) :
    ((l.answers requests).filter fun a => a.1.key = key).map (fun a => (a.1.now, a.2)) =
      admissions l.limit l.window (l.hits key)
        ((requests.filter fun r => r.key = key).map LimitedRequest.now) := by
  induction requests generalizing l with
  | nil => rfl
  | cons r rest ih =>
    rw [answers]
    have later := ih (l.allow r.key r.now).2
    by_cases own : r.key = key
    · subst own
      rw [List.filter_cons_of_pos (by simp), List.filter_cons_of_pos (by simp), List.map_cons,
        List.map_cons, admissions, later]
      simp only [allow, Function.update_self]
    · rw [List.filter_cons_of_neg (by simpa using own), List.filter_cons_of_neg (by simpa using own),
        later]
      simp only [allow, Function.update_of_ne (Ne.symm own)]

/-! ### What a window lets in -/

variable {limit window skew start : ℤ} {times : List ℤ}

theorem now_mem_of_admissions {hit : Option WindowHit} {t : ℤ} {ok : Bool}
    (listed : (t, ok) ∈ admissions limit window hit times) : t ∈ times := by
  induction times generalizing hit with
  | nil => cases listed
  | cons now rest ih =>
    rcases List.mem_cons.mp listed with here | later
    · cases here
      exact List.mem_cons_self
    · exact List.mem_cons_of_mem _ (ih later)

/-- The requests let in whose readings lie in the stretch of one window from a time on. -/
def letIn (window start : ℤ) (answered : List (ℤ × Bool)) : ℕ :=
  answered.countP fun a => a.2 ∧ start ≤ a.1 ∧ a.1 < start + window

theorem letIn_cons_le (now : ℤ) (ok : Bool) (answered : List (ℤ × Bool)) :
    letIn window start ((now, ok) :: answered) ≤ letIn window start answered + 1 := by
  rw [letIn, letIn, List.countP_cons]
  split_ifs <;> omega

theorem letIn_eq_zero {hit : Option WindowHit} (late : ∀ t ∈ times, start + window ≤ t) :
    letIn window start (admissions limit window hit times) = 0 := by
  rw [letIn, List.countP_eq_zero]
  rintro ⟨t, ok⟩ listed
  have := late t (now_mem_of_admissions listed)
  simp only [decide_eq_true_eq, not_and, not_lt]
  exact fun _ _ => this

/-- **An open window lets in what it has left, and a full window for each one that may still open.** -/
theorem letIn_open {h : WindowHit} (positive : 0 < limit) (forward : 0 ≤ skew) (within : h.count ≤ limit)
    (most : ℕ) (skewed : times.Pairwise fun a b => a - skew ≤ b)
    (last : start + window + skew ≤ h.start + window + most * window) :
    (letIn window start (admissions limit window (some h) times) : ℤ) ≤
      limit - h.count + most * limit := by
  induction times generalizing h most with
  | nil =>
    have windows : 0 ≤ most * limit := by positivity
    simp only [admissions, letIn, List.countP_nil, Nat.cast_zero]
    omega
  | cons now rest ih =>
    obtain ⟨behind, skewed⟩ := List.pairwise_cons.mp skewed
    rw [admissions, judge]
    by_cases passed : window ≤ now - h.start
    · rw [if_pos passed]
      cases most with
      | zero =>
        -- the stretch is over
        have late : ∀ t ∈ now :: rest, start + window ≤ t := by
          intro t listed
          simp only [Nat.cast_zero, zero_mul, add_zero] at last
          rcases List.mem_cons.mp listed with rfl | later
          · omega
          · have := behind t later
            omega
        have none_in : letIn window start (admissions limit window (some h) (now :: rest)) = 0 :=
          letIn_eq_zero late
        rw [admissions, judge, if_pos passed] at none_in
        rw [none_in]
        simp only [Nat.cast_zero, zero_mul, add_zero]
        omega
      | succ most =>
        have rest_in := ih (h := ⟨now, 1⟩) (by dsimp only; omega) most skewed (by
          push_cast at last
          rw [add_mul, one_mul] at last
          dsimp only
          omega)
        have one_more : (letIn window start ((now, true) ::
            admissions limit window (some ⟨now, 1⟩) rest) : ℤ) ≤ _ :=
          Int.ofNat_le.mpr (letIn_cons_le now true _)
        push_cast at one_more rest_in ⊢
        rw [add_mul, one_mul]
        omega
    · rw [if_neg passed]
      by_cases full : limit ≤ h.count
      · rw [if_pos full, letIn, List.countP_cons_of_neg (by simp)]
        exact ih within most skewed last
      · have rest_in := ih (h := { h with count := h.count + 1 }) (by dsimp only; omega) most skewed last
        have one_more : (letIn window start ((now, true) ::
            admissions limit window (some { h with count := h.count + 1 }) rest) : ℤ) ≤ _ :=
          Int.ofNat_le.mpr (letIn_cons_le now true _)
        rw [if_neg full]
        push_cast at one_more rest_in ⊢
        omega

/-- **A stretch as long as a window meets two windows, and one more for each window of skew.** -/
theorem letIn_le {hit : Option WindowHit} (positive : 0 < limit) (lasting : 0 < window)
    (forward : 0 ≤ skew) (most : ℕ) (spread : skew ≤ most * window)
    (skewed : times.Pairwise fun a b => a - skew ≤ b) (old : ∀ h ∈ hit, h.start + window ≤ start) :
    (letIn window start (admissions limit window hit times) : ℤ) ≤ (2 + most) * limit := by
  have windows : 0 ≤ (2 + most) * limit := by positivity
  induction times generalizing hit with
  | nil => simpa [admissions, letIn] using windows
  | cons now rest ih =>
    obtain ⟨-, skewed'⟩ := List.pairwise_cons.mp skewed
    have opening : (letIn window start ((now, true) ::
        admissions limit window (some ⟨now, 1⟩) rest) : ℤ) ≤ (2 + most) * limit := by
      by_cases early : now + window ≤ start
      · rw [letIn, List.countP_cons_of_neg (by
          simp only [decide_eq_true_eq, not_and, not_lt]
          omega)]
        exact ih skewed' fun h open_ => Option.some.inj open_ ▸ early
      · have rest_in : (letIn window start (admissions limit window (some ⟨now, 1⟩) rest) : ℤ) ≤
            limit - 1 + (most + 1 : ℕ) * limit :=
          letIn_open positive forward (by dsimp only; omega) (most + 1) skewed' (by
            push_cast
            rw [add_mul, one_mul]
            omega)
        have one_more : (letIn window start ((now, true) ::
            admissions limit window (some ⟨now, 1⟩) rest) : ℤ) ≤ _ :=
          Int.ofNat_le.mpr (letIn_cons_le now true _)
        push_cast at one_more rest_in ⊢
        rw [add_mul] at rest_in ⊢
        omega
    rw [admissions]
    cases hit with
    | none => exact opening
    | some h =>
      rw [judge]
      by_cases passed : window ≤ now - h.start
      · rw [if_pos passed]
        exact opening
      · have started := old h rfl
        have before : now < start := by omega
        rw [if_neg passed]
        split_ifs <;> rw [letIn, List.countP_cons_of_neg (by simp [before])] <;>
          exact ih skewed' fun h' open_ => Option.some.inj open_ ▸ started

/-- **A refused request comes behind a full window of its key.** -/
theorem refused_full {hit : Option WindowHit} {front back : List (ℤ × Bool)} {now : ℤ} {seen : List ℤ}
    (held : ∀ h ∈ hit, h.count ≤ seen.countP fun t => h.start - skew ≤ t)
    (started : ∀ h ∈ hit, ∀ t ∈ times, h.start - skew ≤ t) (forward : 0 ≤ skew)
    (skewed : times.Pairwise fun a b => a - skew ≤ b)
    (split : admissions limit window hit times = front ++ (now, false) :: back) :
    limit ≤ (seen.countP fun t => now - window - skew < t) +
      (front.countP fun a => a.2 ∧ now - window - skew < a.1) := by
  induction times generalizing hit front seen with
  | nil => cases front <;> cases split
  | cons first rest ih =>
    rw [admissions] at split
    obtain ⟨behind, skewed⟩ := List.pairwise_cons.mp skewed
    cases front with
    | nil =>
      obtain ⟨head, -⟩ := List.cons.inj split
      obtain ⟨rfl, refused⟩ := Prod.mk.inj head
      rcases judge_cases limit window hit first with opens | ⟨h, rfl, within, fullness⟩
      · rw [opens] at refused
        cases refused
      · rcases fullness with ⟨full, -⟩ | ⟨-, fits⟩
        swap
        · rw [fits] at refused
          cases refused
        have inside : seen.countP (fun t => h.start - skew ≤ t) ≤
            seen.countP fun t => first - window - skew < t := by
          refine List.countP_mono_left fun t _ from_start => ?_
          have := of_decide_eq_true from_start
          exact decide_eq_true (by omega)
        have counted := held h rfl
        rw [List.countP_nil]
        push_cast
        omega
    | cons a front =>
      obtain ⟨rfl, split'⟩ := List.cons.inj split
      have counted : ∀ below : ℤ → Bool,
          ((if (judge limit window hit first).1 then first :: seen else seen).countP below : ℤ) =
            seen.countP below + if (judge limit window hit first).1 ∧ below first then 1 else 0 := by
        intro below
        cases (judge limit window hit first).1 with
        | false => simp
        | true => simp [List.countP_cons]
      have next : limit ≤ ((if (judge limit window hit first).1 then first :: seen else seen).countP
          fun t => now - window - skew < t) + (front.countP fun a => a.2 ∧ now - window - skew < a.1) :=
        ih ?_ ?_ skewed split'
      · refine next.trans (le_of_eq ?_)
        rw [counted, List.countP_cons]
        push_cast
        simp only [decide_eq_true_eq]
        ring
      · intro h new
        rw [counted]
        rcases judge_entry new with ⟨rfl, lets⟩ | ⟨before, old, same, count⟩
        · simp [lets, forward]
        · have below := held before old
          have inside := started before old first List.mem_cons_self
          rw [same, count]
          simp only [decide_eq_true_eq, inside, and_true]
          omega
      · intro h new t listed
        rcases judge_entry new with ⟨rfl, -⟩ | ⟨before, old, same, -⟩
        · exact behind t listed
        · rw [same]
          exact started before old t (List.mem_cons_of_mem _ listed)

/-! ### All requests -/

theorem countP_key (key : Key) (good : ℤ × Bool → Bool) (answered : List (LimitedRequest Key × Bool)) :
    answered.countP (fun a => a.1.key = key ∧ good (a.1.now, a.2)) =
      ((answered.filter fun a => a.1.key = key).map fun a => (a.1.now, a.2)).countP good := by
  rw [List.countP_map, List.countP_filter]
  refine List.countP_congr fun a _ => ?_
  simp [and_comm]

variable {l : FixedWindowLimiter Key} {requests : List (LimitedRequest Key)}

/-- **What a stretch of time lets in of a key, and what stands behind a refusal.** The readings of a key
may go back by some skew between two requests: without any, a stretch as long as the window lets in two
windows at most. -/
theorem requests_limited (made : newFixedWindowLimiter Key limit window = some l) (lasting : 0 < window)
    (forward : 0 ≤ skew) (most : ℕ) (spread : skew ≤ most * window) (key : Key)
    (skewed : (requests.filter fun r => r.key = key).Pairwise fun a b => a.now - skew ≤ b.now) :
    (∀ start, ((l.answers requests).countP fun a =>
        a.1.key = key ∧ a.2 ∧ start ≤ a.1.now ∧ a.1.now < start + window : ℤ) ≤ (2 + most) * limit) ∧
      ∀ front r back, l.answers requests = front ++ (r, false) :: back → r.key = key →
        limit ≤ (front.countP fun a => a.1.key = key ∧ a.2 ∧ r.now - window - skew < a.1.now : ℤ) := by
  rw [newFixedWindowLimiter] at made
  split_ifs at made with none_made
  cases made
  have own := answers_key (⟨limit, window, fun _ => none⟩ : FixedWindowLimiter Key) key requests
  have skewed' : ((requests.filter fun r => r.key = key).map LimitedRequest.now).Pairwise
      fun a b => a - skew ≤ b := List.pairwise_map.mpr skewed
  constructor
  · intro start
    have within : (letIn window start (admissions limit window none _) : ℤ) ≤ (2 + most) * limit :=
      letIn_le (not_le.mp none_made) lasting forward most spread skewed' fun h none_ => by cases none_
    have counted := countP_key key (fun a => a.2 ∧ start ≤ a.1 ∧ a.1 < start + window)
      ((⟨limit, window, fun _ => none⟩ : FixedWindowLimiter Key).answers requests)
    rw [own] at counted
    simp only [decide_eq_true_eq] at counted
    rw [counted]
    exact within
  · rintro front r back split rfl
    have counted := countP_key r.key (fun a => a.2 ∧ r.now - window - skew < a.1) front
    simp only [decide_eq_true_eq] at counted
    rw [split, List.filter_append, List.filter_cons_of_pos (by simp), List.map_append,
      List.map_cons] at own
    have unused : ∀ h ∈ (none : Option WindowHit),
        h.count ≤ ([] : List ℤ).countP fun t => h.start - skew ≤ t := fun h none_ => by cases none_
    have full := refused_full unused (fun h none_ => by cases none_) forward skewed' own.symm
    rw [counted]
    simpa using full

theorem requests_limited_one : ((answers (⟨1, 10, fun _ => none⟩ : FixedWindowLimiter ℕ)
    [⟨0, 5⟩, ⟨0, 9⟩]).countP fun a => a.1.key = 0 ∧ a.2 ∧ 5 ≤ a.1.now ∧ a.1.now < 5 + 10 : ℤ) ≤
      (2 + (0 : ℕ)) * 1 :=
  (requests_limited (if_neg (by decide)) (by decide) le_rfl 0 (by decide) 0 (by decide)).1 5

end FixedWindowLimiter

/-! ### Connections -/

structure ConnectionLimiter (Key : Type) where
  limit : ℤ
  opened : Key → Option ℤ

variable (Key) in
def newConnectionLimiter (limit : ℤ) : Option (ConnectionLimiter Key) :=
  if limit ≤ 0 then none else some ⟨limit, fun _ => none⟩

namespace ConnectionLimiter

def count (l : ConnectionLimiter Key) (key : Key) : ℤ := (l.opened key).getD 0

def entry (connections : ℕ) : Option ℤ := if connections = 0 then none else some connections

variable [DecidableEq Key]

def acquire (l : ConnectionLimiter Key) (key : Key) : Option (ConnectionLimiter Key) :=
  if l.limit ≤ l.count key then none
  else some { l with opened := Function.update l.opened key (some (l.count key + 1)) }

def release (l : ConnectionLimiter Key) (key : Key) : ConnectionLimiter Key :=
  if l.count key ≤ 1 then { l with opened := Function.update l.opened key none }
  else { l with opened := Function.update l.opened key (some (l.count key - 1)) }

end ConnectionLimiter

open ConnectionLimiter

def defaultMaxConnections : ℤ := 64

/-- The connections of a server. A handler releases what its connection took from the limiter of that
time, so the limiters are kept in the order in which they were made. -/
structure Connections (Key : Type) where
  limiters : ℕ → ConnectionLimiter Key
  made : ℕ
  conns : Option ℕ
  live : List (Key × Option ℕ)

inductive ConnectionEvent (Key : Type) where
  | connect (key : Key)
  | close (key : Key) (held : Option ℕ)
  | applyRuntimeLimits (connLimit : ℤ)

namespace Connections

def runtimeLimit (connLimit : ℤ) : ℤ := if connLimit = 0 then defaultMaxConnections else connLimit

/-- `s.conns = newConnectionLimiter(limit)`. -/
def renew (c : Connections Key) (limit : ℤ) : Connections Key :=
  match newConnectionLimiter Key limit with
  | none => { c with conns := none }
  | some l =>
    { c with
      limiters := Function.update c.limiters c.made l
      made := c.made + 1
      conns := some c.made }

def setLimit (c : Connections Key) (i : ℕ) (limit : ℤ) : Connections Key :=
  { c with limiters := Function.update c.limiters i { c.limiters i with limit := limit } }

def applyRuntimeLimits (c : Connections Key) (connLimit : ℤ) : Connections Key :=
  if runtimeLimit connLimit < 0 then { c with conns := none }
  else match c.conns with
    | none => c.renew (runtimeLimit connLimit)
    | some i => c.setLimit i (runtimeLimit connLimit)

variable [DecidableEq Key]

def connect (c : Connections Key) (key : Key) : Option (Connections Key) :=
  match c.conns with
  | none => some { c with live := (key, none) :: c.live }
  | some i => do
    let l ← (c.limiters i).acquire key
    return { c with limiters := Function.update c.limiters i l, live := (key, some i) :: c.live }

/-- What the deferred release does to the limiter that the connection holds. -/
def released (c : Connections Key) (key : Key) : Option ℕ → ℕ → ConnectionLimiter Key
  | none => c.limiters
  | some i => Function.update c.limiters i ((c.limiters i).release key)

def close (c : Connections Key) (key : Key) (held : Option ℕ) : Connections Key :=
  if (key, held) ∈ c.live then
    { c with live := c.live.erase (key, held), limiters := c.released key held }
  else c

def step (c : Connections Key) : ConnectionEvent Key → Connections Key
  | .connect key => (c.connect key).getD c
  | .close key held => c.close key held
  | .applyRuntimeLimits connLimit => c.applyRuntimeLimits connLimit

/-- Every limiter counts the connections that hold it. -/
structure Counted (c : Connections Key) : Prop where
  opened : ∀ i key, (c.limiters i).opened key = entry (c.live.count (key, some i))
  held : ∀ key i, (key, some i) ∈ c.live → i < c.made
  current : ∀ i ∈ c.conns, i < c.made

variable {c : Connections Key}

end Connections

end Atterm.Relay
