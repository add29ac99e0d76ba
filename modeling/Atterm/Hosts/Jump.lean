/-
**Jump hosts.**

`resolveJumpHops` turns the `ProxyJump` of a host into the saved hosts to dial, in the order in which
they are dialled. The references are edited by hand: they may be ambiguous, lead nowhere, or form a
cycle. A host is told from another one by its id, or by what it is saved under if it has none.

* `findJumpHost`, `hostIdentity` — the host that a reference names, and what makes it that host;
* `appendJumpHops`, `resolveJumpHops` — the resolution, as the code walks it;
* `resolveJumpHops_safe` — the hops it returns, and that it refuses every cycle.
-/

import Atterm.Foundation.Guard
import Atterm.Foundation.Unfolding
import Atterm.Hosts.Saved
import Atterm.Terminal.Command

namespace Atterm.Hosts

open Atterm.Foundation
open Atterm.Terminal (trimSpace)

def maxJumpDepth : ℕ := 10

/-- The comparisons of texts that look at letters of either case. -/
structure Casing where
  /-- `strings.EqualFold` -/
  equalFold : List Char → List Char → Bool
  /-- `strings.ToLower` -/
  toLower : List Char → List Char

/-! ### References -/

def splitProxyJump (v : String) : List (List Char) :=
  ((v.toList.splitOn ',').map trimSpace).filter (· ≠ [])

/-- The name and the port of an element, without the user. -/
def jumpElementNameAndPort (elem : List Char) : List Char × List Char :=
  let s := (trimSpace elem).rtakeWhile (· ≠ '@')
  if s.head? = some '[' then
    if ']' ∈ s then
      let rest := (s.dropWhile (· ≠ ']')).tail
      ((s.takeWhile (· ≠ ']')).tail, if rest.head? = some ':' then rest.tail else rest)
    else (s, [])
  else if s.count ':' = 1 then (s.takeWhile (· ≠ ':'), (s.dropWhile (· ≠ ':')).tail)
  else (s, [])

def jumpPortMatches (h : SSHHost) (port : List Char) : Bool :=
  if port = [] then true
  else
    let saved := trimSpace h.port.toList
    (if saved = [] then ['2', '2'] else saved) = port

def sshHostLabel (h : SSHHost) : List Char :=
  if trimSpace h.alias.toList ≠ [] then trimSpace h.alias.toList else trimSpace h.host.toList

section Lookup

variable (casing : Casing)

/-- A saved host by its alias, and then by its hostname. -/
def matchJumpHost (hosts : List SSHHost) (name port : List Char) : Option SSHHost :=
  (hosts.find? fun h => h.alias ≠ "" && casing.equalFold (trimSpace h.alias.toList) name &&
    jumpPortMatches h port) <|>
  hosts.find? fun h => casing.equalFold (trimSpace h.host.toList) name && jumpPortMatches h port

/-- The saved host that an element names, on its port if there is one. -/
def findJumpHost (hosts : List SSHHost) (elem : List Char) : Option SSHHost :=
  let name := (jumpElementNameAndPort elem).1
  let port := (jumpElementNameAndPort elem).2
  if name = [] then none
  else if port ≠ [] then
    matchJumpHost casing hosts name port <|> matchJumpHost casing hosts name []
  else matchJumpHost casing hosts name []

def hostIdentity (h : SSHHost) : List Char :=
  if h.id ≠ "" then "id:".toList ++ h.id.toList
  else
    "addr:".toList ++ casing.toLower (trimSpace h.alias.toList) ++ ['\x00'] ++
      casing.toLower (trimSpace h.host.toList) ++ ['\x00'] ++ trimSpace h.port.toList

def indexOfHost (path : List SSHHost) (h : SSHHost) : Option ℕ :=
  path.findIdx? fun p => hostIdentity casing p = hostIdentity casing h

end Lookup

/-! ### The resolution -/

inductive JumpError where
  | notSaved (label elem : List Char)
  | loops (names : List (List Char))
  | tooDeep
deriving DecidableEq, Repr

def describeCycle (path : List SSHHost) (again : SSHHost) : List (List Char) :=
  path.map sshHostLabel ++ [sshHostLabel again]

section Resolution

variable (casing : Casing) (hosts : List SSHHost)

/-- The walk over the elements of a host: the hops of a hop come before it. -/
def appendJumpHops (h : SSHHost) (path : List SSHHost) :
    List (List Char) → List SSHHost → Except JumpError (List SSHHost)
  | [], out => .ok out
  | elem :: rest, out =>
    match findJumpHost casing hosts elem with
    | none => .error (.notSaved (sshHostLabel h) elem)
    | some hop =>
      match indexOfHost casing path hop with
      | some i => .error (.loops (describeCycle (path.drop i) hop))
      | none =>
        if maxJumpDepth < path.length then .error .tooDeep
        else do
          let out ← appendJumpHops hop (path ++ [hop]) (splitProxyJump hop.proxyJump) out
          if maxJumpDepth < (out ++ [hop]).length then .error .tooDeep
          else appendJumpHops h path rest (out ++ [hop])
termination_by todo => (maxJumpDepth + 1 - path.length, todo.length)
decreasing_by
  · exact Prod.Lex.left _ _ (by rw [List.length_append, List.length_singleton]; omega)
  · exact Prod.Lex.right _ (Nat.lt_succ_self _)

def resolveJumpHops (h : SSHHost) : Except JumpError (List SSHHost) :=
  appendJumpHops casing hosts h [h] (splitProxyJump h.proxyJump) []

end Resolution

/-! ### The resolution is an unfolding -/

variable {casing : Casing} {hosts path out out' order : List SSHHost} {h hop : SSHHost}
  {elem : List Char} {todo rest : List (List Char)}

theorem mem_of_matchJumpHost {name port : List Char}
    (found : matchJumpHost casing hosts name port = some h) : h ∈ hosts := by
  rcases (Option.orElse_eq_some _ _ _).mp found with found | ⟨-, found⟩
  · exact List.mem_of_find?_eq_some found
  · exact List.mem_of_find?_eq_some found

theorem mem_of_findJumpHost (found : findJumpHost casing hosts elem = some h) : h ∈ hosts := by
  rw [findJumpHost] at found
  split at found
  · cases found
  · split at found
    · rcases (Option.orElse_eq_some _ _ _).mp found with found | ⟨-, found⟩
      · exact mem_of_matchJumpHost found
      · exact mem_of_matchJumpHost found
    · exact mem_of_matchJumpHost found

theorem indexOfHost_eq_none : indexOfHost casing path h = none ↔
    hostIdentity casing h ∉ path.map (hostIdentity casing) := by
  rw [indexOfHost, List.findIdx?_eq_none_iff]
  simp [eq_comm]

theorem appendJumpHops_cons_ok : appendJumpHops casing hosts h path (elem :: rest) out = .ok out' ↔
    ∃ hop out₁, findJumpHost casing hosts elem = some hop ∧
      hostIdentity casing hop ∉ path.map (hostIdentity casing) ∧ path.length ≤ maxJumpDepth ∧
      appendJumpHops casing hosts hop (path ++ [hop]) (splitProxyJump hop.proxyJump) out = .ok out₁ ∧
      out₁.length + 1 ≤ maxJumpDepth ∧
      appendJumpHops casing hosts h path rest (out₁ ++ [hop]) = .ok out' := by
  rw [appendJumpHops]
  cases found : findJumpHost casing hosts elem with
  | none => simp
  | some hop =>
    dsimp only
    cases index : indexOfHost casing path hop with
    | some i =>
      have met : ¬ hostIdentity casing hop ∉ path.map (hostIdentity casing) := by
        rw [← indexOfHost_eq_none, index]
        exact Option.some_ne_none i
      refine iff_of_false (fun goes => by cases goes) ?_
      rintro ⟨_, _, same, fresh, -⟩
      cases same
      exact met fresh
    | none =>
      have fresh := indexOfHost_eq_none.mp index
      by_cases deep : maxJumpDepth < path.length
      · dsimp only
        rw [if_pos deep]
        refine iff_of_false (fun goes => by cases goes) ?_
        rintro ⟨_, _, -, -, shallow, -⟩
        exact absurd deep (Nat.not_lt_of_le shallow)
      · dsimp only
        rw [if_neg deep, bind_ok_iff]
        constructor
        · rintro ⟨out₁, below, beside⟩
          by_cases many : maxJumpDepth < (out₁ ++ [hop]).length
          · rw [if_pos many] at beside
            cases beside
          · rw [if_neg many] at beside
            rw [List.length_append, List.length_singleton] at many
            exact ⟨hop, out₁, rfl, fresh, Nat.le_of_not_lt deep, below, Nat.le_of_not_lt many, beside⟩
        · rintro ⟨_, out₁, same, -, -, below, few, beside⟩
          cases same
          refine ⟨out₁, below, ?_⟩
          rw [if_neg, beside]
          rw [List.length_append, List.length_singleton]
          exact Nat.not_lt_of_le few

abbrev JumpUnfolds (casing : Casing) (hosts : List SSHHost) :
    List SSHHost → List (List Char) → List SSHHost → Prop :=
  Unfolds (findJumpHost casing hosts) (fun h => splitProxyJump h.proxyJump) (hostIdentity casing)

theorem unfolds_of_appendJumpHops (goes : appendJumpHops casing hosts h path todo out = .ok out') :
    ∃ order, out' = out ++ order ∧ JumpUnfolds casing hosts path todo order ∧
      (out.length ≤ maxJumpDepth → out'.length ≤ maxJumpDepth) := by
  induction h, path, todo, out using appendJumpHops.induct casing hosts generalizing out' with
  | case1 h path out =>
    rw [appendJumpHops] at goes
    cases goes
    exact ⟨[], (List.append_nil _).symm, .nil path, id⟩
  | case2 h path elem rest out lost =>
    obtain ⟨hop, -, found, -⟩ := appendJumpHops_cons_ok.mp goes
    rw [lost] at found
    cases found
  | case3 h path elem rest out hop found i index =>
    obtain ⟨hop', -, found', fresh, -⟩ := appendJumpHops_cons_ok.mp goes
    rw [found] at found'
    cases found'
    rw [← indexOfHost_eq_none, index] at fresh
    cases fresh
  | case4 h path elem rest out hop found index deep =>
    obtain ⟨-, -, -, -, shallow, -⟩ := appendJumpHops_cons_ok.mp goes
    exact absurd deep (Nat.not_lt_of_le shallow)
  | case5 h path elem rest out hop found index shallow ih_below ih_beside =>
    obtain ⟨hop', out₁, found', fresh, -, below, few, beside⟩ := appendJumpHops_cons_ok.mp goes
    rw [found] at found'
    cases found'
    obtain ⟨needed, rfl, unfolds_below, -⟩ := ih_below below
    obtain ⟨later, rfl, unfolds_beside, bounded⟩ := ih_beside _ beside
    refine ⟨needed ++ hop :: later, ?_, .cons found fresh unfolds_below unfolds_beside, fun _ => ?_⟩
    · rw [List.append_assoc, List.append_assoc, List.singleton_append]
    · refine bounded ?_
      rw [List.length_append, List.length_singleton]
      exact few

theorem appendJumpHops_of_unfolds (unfolds : JumpUnfolds casing hosts path todo order)
    (begun : 0 < path.length) (few : path.length + out.length + order.length ≤ maxJumpDepth + 1) :
    appendJumpHops casing hosts h path todo out = .ok (out ++ order) := by
  induction unfolds generalizing h out with
  | nil path =>
    rw [appendJumpHops, List.append_nil]
  | @cons path elem rest hop needed later leads fresh below beside ih_below ih_beside =>
    rw [List.length_append, List.length_cons] at few
    refine appendJumpHops_cons_ok.mpr ⟨hop, out ++ needed, leads, fresh, by omega, ?_, ?_, ?_⟩
    · have longer : (path ++ [hop]).length = path.length + 1 := List.length_append
      exact ih_below (by omega) (by omega)
    · rw [List.length_append]
      omega
    · rw [ih_beside begun, List.append_assoc, List.append_assoc, List.singleton_append]
      rw [List.length_append, List.length_append, List.length_singleton]
      omega

/-- **A resolution succeeds exactly with an unfolding of no more than the permitted hops.** -/
theorem resolveJumpHops_eq_ok_iff : resolveJumpHops casing hosts h = .ok out ↔
    JumpUnfolds casing hosts [h] (splitProxyJump h.proxyJump) out ∧ out.length ≤ maxJumpDepth := by
  constructor
  · intro resolves
    obtain ⟨order, rfl, unfolds, bounded⟩ := unfolds_of_appendJumpHops resolves
    exact ⟨unfolds, bounded (Nat.zero_le _)⟩
  · rintro ⟨unfolds, few⟩
    refine appendJumpHops_of_unfolds unfolds Nat.one_pos ?_
    rw [List.length_singleton, List.length_nil]
    omega

/-- The target and the hosts that its references lead to. -/
def JumpWalk (casing : Casing) (hosts : List SSHHost) (h : SSHHost) (walk : List SSHHost) : Prop :=
  List.IsChain (Refers (findJumpHost casing hosts) fun h => splitProxyJump h.proxyJump) (h :: walk)

/-- **The hops of a resolution are few, saved, and behind the hops that they need; a target whose
references come to a host again has no resolution.** -/
theorem resolveJumpHops_safe (casing : Casing) (hosts : List SSHHost) (h : SSHHost) :
    (∀ out, resolveJumpHops casing hosts h = .ok out →
      out.length ≤ maxJumpDepth ∧ (∀ hop ∈ out, hop ∈ hosts) ∧
      (∀ elem ∈ splitProxyJump h.proxyJump,
        ∃ required ∈ out, findJumpHost casing hosts elem = some required) ∧
      ∀ before hop after, out = before ++ hop :: after → ∀ elem ∈ splitProxyJump hop.proxyJump,
        ∃ required ∈ before, findJumpHost casing hosts elem = some required) ∧
    ∀ walk, JumpWalk casing hosts h walk → ¬ ((h :: walk).map (hostIdentity casing)).Nodup →
      ∃ e, resolveJumpHops casing hosts h = .error e := by
  constructor
  · intro out resolves
    obtain ⟨unfolds, few⟩ := resolveJumpHops_eq_ok_iff.mp resolves
    refine ⟨few, fun hop inside => ?_, unfolds.found, unfolds.ordered⟩
    obtain ⟨elem, found⟩ := unfolds.named hop inside
    exact mem_of_findJumpHost found
  · intro walk chain again
    cases resolves : resolveJumpHops casing hosts h with
    | error e => exact ⟨e, rfl⟩
    | ok out =>
      refine absurd ?_ again
      obtain ⟨unfolds, -⟩ := resolveJumpHops_eq_ok_iff.mp resolves
      have nodup : ([h].map (hostIdentity casing)).Nodup := List.nodup_singleton _
      cases walk with
      | nil => exact nodup
      | cons first walk =>
        obtain ⟨⟨elem, inside, leads⟩, chain⟩ := List.isChain_cons_cons.mp chain
        exact unfolds.nodup_of_walk nodup elem inside first walk leads chain

section Example

/-- The comparisons for names of plain letters. -/
def plainCasing : Casing where
  equalFold first second := first.map Char.toLower = second.map Char.toLower
  toLower text := text.map Char.toLower

def savedAs (name proxyJump : String) : SSHHost :=
  ⟨name, name, name ++ ".example", "", "", "", "", none, "", "", 0, "", proxyJump, "", none⟩

/-- Two jump hosts, of which the second is reached through the first, and a host that names itself. -/
def savedHosts : List SSHHost := [savedAs "gate" "", savedAs "inner" "gate", savedAs "self" "SELF"]

theorem resolveJumpHops_safe_small :
    (∃ out, resolveJumpHops plainCasing savedHosts (savedAs "db" "gate, root@inner") = .ok out ∧
      out.length ≤ maxJumpDepth) ∧
    ∃ e, resolveJumpHops plainCasing savedHosts (savedAs "self" "SELF") = .error e := by
  constructor
  · have resolves : resolveJumpHops plainCasing savedHosts (savedAs "db" "gate, root@inner") =
        .ok [savedAs "gate" "", savedAs "gate" "", savedAs "inner" "gate"] := by
      refine resolveJumpHops_eq_ok_iff.mpr ⟨?_, by decide⟩
      refine @Unfolds.cons _ _ _ _ _ _ _ _ _ _ [] _ (by decide) (by decide) (.nil _) ?_
      refine @Unfolds.cons _ _ _ _ _ _ _ _ _ _ [savedAs "gate" ""] _ (by decide) (by decide) ?_ (.nil _)
      exact @Unfolds.cons _ _ _ _ _ _ _ _ _ _ [] _ (by decide) (by decide) (.nil _) (.nil _)
    exact ⟨_, resolves, ((resolveJumpHops_safe plainCasing savedHosts _).1 _ resolves).1⟩
  · refine (resolveJumpHops_safe plainCasing savedHosts _).2 [savedAs "self" "SELF"] ?_ (by decide)
    exact List.isChain_cons_cons.mpr ⟨⟨"SELF".toList, by decide, by decide⟩, List.isChain_singleton _⟩

end Example

end Atterm.Hosts
