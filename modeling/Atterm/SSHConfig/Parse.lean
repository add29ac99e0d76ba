/-
**Parsing an OpenSSH client configuration.**

Included files are spliced into one stream of lines, the stream is grouped into blocks at its Host and
Match lines, and a field of an alias is the first value found in the blocks that match it.

* `flatten` — the stream of lines, by recursion on how deep files may still be nested;
* `groupBlocks`, `resolveEntry` — the blocks of the stream, and what they say of one alias;
* `Parse` — the entries, and what was skipped with its reason.
-/

import Atterm.SSHConfig.Patterns

namespace Atterm.SSHConfig

theorem path_lawful : LawfulBEq (List Char) := inferInstance

attribute [local instance] path_lawful

inductive Field where
  | hostName
  | user
  | port
  | identityFile
  | proxyJump
  | proxyCommand
deriving DecidableEq, Repr

structure Entry where
  «alias» : List Char
  hostName : List Char
  user : List Char
  port : List Char
  identityFile : List Char
  proxyJump : List Char
  proxyCommand : List Char
deriving DecidableEq, Repr

def Entry.get (e : Entry) : Field → List Char
  | .hostName => e.hostName
  | .user => e.user
  | .port => e.port
  | .identityFile => e.identityFile
  | .proxyJump => e.proxyJump
  | .proxyCommand => e.proxyCommand

def Entry.set (e : Entry) (value : List Char) : Field → Entry
  | .hostName => { e with hostName := value }
  | .user => { e with user := value }
  | .port => { e with port := value }
  | .identityFile => { e with identityFile := value }
  | .proxyJump => { e with proxyJump := value }
  | .proxyCommand => { e with proxyCommand := value }

structure Skipped where
  «alias» : List Char
  reason : List Char
deriving DecidableEq, Repr

def maxIncludeDepth : ℕ := 16

def kwHost : List Char := "host".toList
def kwMatch : List Char := "match".toList
def kwInclude : List Char := "include".toList

def Field.keyword : Field → List Char
  | .hostName => "hostname".toList
  | .user => "user".toList
  | .port => "port".toList
  | .identityFile => "identityfile".toList
  | .proxyJump => "proxyjump".toList
  | .proxyCommand => "proxycommand".toList

def Field.all : List Field := [.hostName, .user, .port, .identityFile, .proxyJump, .proxyCommand]

def fieldOf (key : List Char) : Option Field := Field.all.find? (fun f => f.keyword = key)

structure RawLine where
  key : List Char
  rest : List Char
deriving DecidableEq, Repr

structure Directive where
  key : List Char
  value : List Char
deriving DecidableEq, Repr

structure Block where
  patterns : List Pattern
  isMatch : Bool
  rawMatch : List Char
  synthetic : Bool
  lines : List Directive
deriving DecidableEq, Repr

/-! ### Reading the files -/

/-- What reading comes to: the lines or an error, and what was skipped on the way. -/
structure Outcome where
  lines : Except (List Char) (List RawLine)
  skipped : List Skipped

def Outcome.none : Outcome := ⟨.ok [], []⟩

def Outcome.line (l : RawLine) : Outcome := ⟨.ok [l], []⟩

def Outcome.skip («alias» reason : List Char) : Outcome := ⟨.ok [], [⟨«alias», reason⟩]⟩

/-- One reading behind another, unless that one failed. -/
def Outcome.andThen (first second : Outcome) : Outcome :=
  match first.lines with
  | .error err => ⟨.error err, first.skipped⟩
  | .ok lines => ⟨second.lines.map (lines ++ ·), first.skipped ++ second.skipped⟩

def inOrder {α : Type} (reading : α → Outcome) : List α → Outcome
  | [] => .none
  | a :: rest => (reading a).andThen (inOrder reading rest)

/-- Reading a file with the paths that are being included. -/
abbrev Flatten := List (List Char) → Reader → Outcome

/-- One path of an `Include`. -/
def splicePath (opener : Opener) (sub : Flatten) (visited : List (List Char)) (p : List Char) : Outcome :=
  if p ∈ visited then .skip p "Include cycle detected, skipped".toList
  else
    match opener.openFile p with
    | .error err => .skip p ("could not read Include file ".toList ++ p ++ ": ".toList ++ err)
    | .ok file => sub (p :: visited) file

/-- One pattern of an `Include`. -/
def splicePattern (base : List Char) (opener : Opener) (sub : Flatten) (visited : List (List Char))
    (pat : List Char) : Outcome :=
  match resolveIncludePaths pat base opener with
  | .error err =>
    .skip pat ("could not expand Include path ".toList ++ pat ++ ": ".toList ++ err)
  | .ok paths => inOrder (splicePath opener sub visited) paths

/-- One line of a file; there is no `sub` at the limit of nesting. -/
def readLine (base : List Char) (opener : Opener) (sub : Option Flatten) (visited : List (List Char))
    (line : List Char) : Outcome :=
  match splitKeyValue line with
  | .none => .none
  | some (key, rest) =>
    if key ≠ kwInclude then .line ⟨key, rest⟩
    else
      match sub with
      | .none => .skip rest "Include nesting exceeds the limit (16 levels), skipped".toList
      | some sub => inOrder (splicePattern base opener sub visited) (splitFields rest)

/-- The lines of a file, and at last the error that its scan ended with. -/
def readFile (base : List Char) (opener : Opener) (sub : Option Flatten) : Flatten :=
  fun visited r =>
    (inOrder (readLine base opener sub visited) (scan r).1).andThen
      ⟨(scan r).2.elim (.ok []) .error, []⟩

/-- `flatten` at the depth that leaves this many levels. -/
def flatten (base : List Char) (opener : Opener) : ℕ → Flatten
  | 0 => readFile base opener .none
  | levels + 1 => readFile base opener (some (flatten base opener levels))

/-! ### Blocks -/

def joinFields (rest : List Char) : List Char := [' '].intercalate (splitFields rest)

def Block.push (b : Block) (d : Directive) : Block := { b with lines := b.lines ++ [d] }

def groupFrom (cur : Block) : List RawLine → List Block
  | [] => [cur]
  | l :: lines =>
    if l.key = kwHost then cur :: groupFrom ⟨parsePatterns l.rest, false, [], false, []⟩ lines
    else if l.key = kwMatch then cur :: groupFrom ⟨[], true, l.rest, false, []⟩ lines
    else groupFrom (cur.push ⟨l.key, joinFields l.rest⟩) lines

def syntheticBlock : Block := ⟨[⟨false, ['*']⟩], false, [], true, []⟩

def groupBlocks (lines : List RawLine) : List Block := groupFrom syntheticBlock lines

def resolveLine (e : Entry) (d : Directive) : Entry :=
  match fieldOf d.key with
  | none => e
  | some f => if e.get f ≠ [] then e else e.set d.value f

def resolveBlock («alias» : List Char) (e : Entry) (b : Block) : Entry :=
  if b.isMatch || !matchPatterns b.patterns «alias» then e else b.lines.foldl resolveLine e

def resolveEntry («alias» : List Char) (blocks : List Block) : Entry :=
  let e := blocks.foldl (resolveBlock «alias») ⟨«alias», [], [], [], [], [], []⟩
  if e.hostName = [] then e.set «alias» .hostName else e

/-! ### Parse -/

/-- The aliases of one Host line behind those that have been seen. -/
def addAliases (aliasOrder : List (List Char)) (patterns : List Pattern) : List (List Char) :=
  patterns.foldl (fun order p =>
    if p.negate || p.text = [] || hostPatternHasWildcard p.text then order
    else if p.text ∈ order then order
    else order ++ [p.text]) aliasOrder

/-- The pass over the blocks: the aliases, and the blocks that give none. -/
def passBlock (acc : List (List Char) × List Skipped) (b : Block) : List (List Char) × List Skipped :=
  if b.synthetic then acc
  else if b.isMatch then
    (acc.1, acc.2 ++
      [⟨b.rawMatch, "Match block depends on runtime conditions, not imported".toList⟩])
  else if !hasPositivePattern b.patterns then
    (acc.1, acc.2 ++ [⟨patternsText b.patterns,
      "Host line has no usable pattern (empty, or all negated), not imported".toList⟩])
  else (addAliases acc.1 b.patterns, acc.2)

/-- The entries or an error, and what was skipped. -/
def Parse (r : Reader) (base : List Char) (opener : Opener) :
    Except (List Char) (List Entry) × List Skipped :=
  let reading := flatten base opener maxIncludeDepth [] r
  match reading.lines with
  | .error err => (.error err, reading.skipped)
  | .ok lines =>
    let blocks := groupBlocks lines
    let pass := blocks.foldl passBlock ([], reading.skipped)
    (.ok (pass.1.map fun «alias» => resolveEntry «alias» blocks), pass.2)

end Atterm.SSHConfig
