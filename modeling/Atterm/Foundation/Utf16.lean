/-
**UTF-16 strings.**

A string of JavaScript is a list of code units, of which two make one character outside the basic plane.
Nothing keeps the units of a pair together.

* `codePoints` — the characters of a string, a lone surrogate being one of its own.
-/

import Mathlib

namespace Atterm.Foundation

abbrev JsString := List UInt16

/-- The code unit of a character of the basic plane. -/
def unit (c : Char) : UInt16 := c.val.toUInt16

def units (s : String) : JsString := s.toList.map unit

def isHighSurrogate (u : UInt16) : Bool := 0xD800 ≤ u && u ≤ 0xDBFF
def isLowSurrogate (u : UInt16) : Bool := 0xDC00 ≤ u && u ≤ 0xDFFF

/-- `Array.from` of a string. -/
def codePoints : JsString → List JsString
  | [] => []
  | [u] => [[u]]
  | u :: v :: rest =>
    if isHighSurrogate u && isLowSurrogate v then [u, v] :: codePoints rest
    else [u] :: codePoints (v :: rest)

theorem mem_of_mem_codePoints {s char : JsString} {u : UInt16} (listed : char ∈ codePoints s)
    (inside : u ∈ char) : u ∈ s := by
  induction s using codePoints.induct with
  | case1 => cases listed
  | case2 v =>
    rw [codePoints, List.mem_singleton] at listed
    exact listed ▸ inside
  | case3 v w rest pair ih =>
    rw [codePoints, if_pos pair, List.mem_cons] at listed
    rcases listed with rfl | later
    · exact List.mem_append_left rest inside
    · exact List.mem_cons_of_mem _ (List.mem_cons_of_mem _ (ih later))
  | case4 v w rest apart ih =>
    rw [codePoints, if_neg apart, List.mem_cons] at listed
    rcases listed with rfl | later
    · exact List.mem_append_left (w :: rest) inside
    · exact List.mem_cons_of_mem _ (ih later)

end Atterm.Foundation
