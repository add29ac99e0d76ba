/-
**The lines of an OpenSSH client configuration.**

A file is read line by line; a line is a keyword and what follows it, and a value is split at blanks
outside quotes. Texts are lists of runes.

* `Reader`, `scan` — what a file gives to the scanner, and the lines that the scanner makes of it;
* `splitKeyValue`, `splitFields` — the keyword of a line, and the fields of a value;
* `Opener`, `resolveIncludePaths` — the files around, and the paths that an `Include` names.
-/

import Mathlib
import Atterm.Terminal.Command

namespace Atterm.SSHConfig

open Atterm.Terminal (trimSpace)

/-- A file that is read: its text, and the error behind it if the reading failed. -/
structure Reader where
  text : List Char
  failure : Option (List Char)
deriving DecidableEq, Repr

/-- The files around. An opener that lists no directories has no `glob`. -/
structure Opener where
  openFile : List Char → Except (List Char) Reader
  glob : Option (List Char → Except (List Char) (List (List Char)))

/-! ### Lines -/

/-- The pieces before each line feed, and the last one if it is not empty. -/
def splitLines : List Char → List (List Char)
  | [] => []
  | c :: text =>
    if c = '\n' then [] :: splitLines text
    else
      match splitLines text with
      | [] => [[c]]
      | line :: lines => (c :: line) :: lines

def dropCR (line : List Char) : List Char :=
  if line.getLast? = some '\r' then line.dropLast else line

/-- The scanner's buffer grows to 1 MiB, and a line has to fit with its line feed. -/
def fits (line : List Char) : Bool :=
  (line.map Char.utf8Size).sum < 2 ^ 20

/-- `bufio.Scanner` with `bufio.ScanLines`: the lines, and the error that ended them. -/
def scan (r : Reader) : List (List Char) × Option (List Char) :=
  let lines := splitLines r.text
  (((lines.takeWhile fits).map dropCR),
    if lines.all fits then r.failure else some "bufio.Scanner: token too long".toList)

def isBlank (c : Char) : Bool := c = ' ' || c = '\t'

/-- `stripComment` from somewhere in a line; a comment may begin at its start or behind a blank. -/
def stripFrom (inQuote mayBegin : Bool) : List Char → List Char
  | [] => []
  | c :: s =>
    if c = '"' then c :: stripFrom (!inQuote) false s
    else if c = '#' ∧ !inQuote ∧ mayBegin then []
    else c :: stripFrom inQuote (isBlank c) s

def stripComment (s : List Char) : List Char := stripFrom false true s

/-- `unicode.ToLower`, as far as the result may be a letter of a keyword: two runes outside ASCII have an
ASCII letter as their lower case. -/
def lowerRune (c : Char) : Char :=
  if c = '\u0130' then 'i' else if c = '\u212a' then 'k' else c.toLower

def toLower (s : List Char) : List Char := s.map lowerRune

/-- `strings.TrimPrefix(rest, "=")` -/
def trimEquals : List Char → List Char
  | '=' :: rest => rest
  | rest => rest

def splitKeyValue (line : List Char) : Option (List Char × List Char) :=
  let line := trimSpace (stripComment line)
  if line = [] then none
  else
    let ends := fun c : Char => isBlank c || c = '='
    let key := line.takeWhile (fun c => !ends c)
    let rest := line.dropWhile (fun c => !ends c)
    some (toLower key, trimSpace (trimEquals (trimSpace rest)))

/-- What `splitFields` keeps between two runes: the fields that are done, the one it is in, and whether
that one counts. -/
structure Splitting where
  fields : List (List Char)
  cur : List Char
  inQuote : Bool
  has : Bool

def Splitting.flush (s : Splitting) : Splitting :=
  if s.has then ⟨s.fields ++ [s.cur], [], s.inQuote, false⟩ else s

def Splitting.rune (s : Splitting) (r : Char) : Splitting :=
  if r = '"' then ⟨s.fields, s.cur, !s.inQuote, true⟩
  else if !s.inQuote ∧ isBlank r then s.flush
  else ⟨s.fields, s.cur ++ [r], s.inQuote, true⟩

def splitFields (s : List Char) : List (List Char) :=
  (s.foldl Splitting.rune ⟨[], [], false, false⟩).flush.fields

/-! ### Paths -/

/-- `path.IsAbs` -/
def isAbs (path : List Char) : Bool := path.head? = some '/'

/-- One element of a path onto the elements before it, the last one first. -/
def cleanElement (rooted : Bool) (above : List (List Char)) (element : List Char) : List (List Char) :=
  if element = [] ∨ element = ['.'] then above
  else if element = ['.', '.'] then
    match above with
    | [] => if rooted then [] else [element]
    | last :: before => if last = ['.', '.'] then element :: above else before
  else element :: above

/-- `path.Clean` -/
def clean (path : List Char) : List Char :=
  let rooted := isAbs path
  let elements := ((path.splitOn '/').foldl (cleanElement rooted) []).reverse
  let joined := ['/'].intercalate elements
  if rooted then '/' :: joined else if joined = [] then ['.'] else joined

/-- `path.Join` of two elements -/
def joinPath (first second : List Char) : List Char :=
  if first = [] ∧ second = [] then []
  else if first = [] then clean second
  else if second = [] then clean first
  else clean (first ++ ['/'] ++ second)

def includeGlobHasWildcard (s : List Char) : Bool :=
  s.any (fun c => c = '*' || c = '?' || c = '[')

def resolveIncludePaths (pat base : List Char) (opener : Opener) :
    Except (List Char) (List (List Char)) :=
  let resolved := if isAbs pat then pat else joinPath base pat
  if !includeGlobHasWildcard resolved then .ok [resolved]
  else
    match opener.glob with
    | none =>
      .error "opener does not support directory listing, cannot expand wildcard".toList
    | some glob =>
      match glob resolved with
      | .error err => .error err
      | .ok found => .ok (found.mergeSort (fun a b => decide (a ≤ b)))

/-- Quotes keep blanks and an empty field; a comment is cut outside them only. -/
example : splitFields "a \"b c\"  \"\" d".toList = ["a".toList, "b c".toList, [], "d".toList] ∧
    splitKeyValue "User = \"al #1\" # note".toList = some ("user".toList, "\"al #1\"".toList) := by
  decide

example : joinPath "/home/me/.ssh".toList "../x/./y".toList = "/home/me/x/y".toList ∧
    joinPath "a".toList "../../b".toList = "../b".toList ∧ clean [] = ['.'] := by
  decide

end Atterm.SSHConfig
