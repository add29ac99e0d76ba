/-
**Command lines and the type of a session.**

A session is of the type of the command that it runs. `ClassifyCommand` looks at the first two words of
the command line behind `sudo`, `time`, `nice`, `env` and settings of the environment.

The texts are the runes of strings: a byte that belongs to no rune reads as the replacement rune, as it
does for the functions of the `strings` package.

* `commandExecutableTokens`, `ClassifyCommand` — the two functions of `classify.go`.
-/

import Atterm.Terminal.Osc133

namespace Atterm.Terminal

theorem text_lawful : LawfulBEq (List Char) := inferInstance

attribute [local instance] text_lawful

/-! ### Strings -/

def runesLoop : ℕ → Bytes → List Char
  | 0, _ => []
  | _ + 1, [] => []
  | rounds + 1, b :: rest =>
    match (ByteArray.mk ((b :: rest).take 4).toArray).utf8DecodeChar? 0 with
    | some c => c :: runesLoop rounds ((b :: rest).drop c.utf8Size)
    | none => '\uFFFD' :: runesLoop rounds rest

def runes (bytes : Bytes) : List Char := runesLoop bytes.length bytes

/-- `unicode.IsSpace` -/
def isSpace (c : Char) : Bool :=
  c.toNat ∈ [0x09, 0x0a, 0x0b, 0x0c, 0x0d, 0x20, 0x85, 0xa0, 0x1680, 0x2028, 0x2029, 0x202f, 0x205f,
    0x3000] || (0x2000 ≤ c.toNat && c.toNat ≤ 0x200a)

/-- `strings.TrimSpace` -/
def trimSpace (text : List Char) : List Char :=
  ((text.dropWhile isSpace).reverse.dropWhile isSpace).reverse

/-- `strings.Fields` -/
def fields (text : List Char) : List (List Char) :=
  (text.splitOnP isSpace).filter (· ≠ [])

/-- `filepath.Base` -/
def base (path : List Char) : List Char :=
  if path = [] then ['.']
  else
    match (path.reverse.dropWhile (· = '/')).takeWhile (· ≠ '/') with
    | [] => ['/']
    | last => last.reverse

/-! ### Commands -/

def wrapperCommands : List (List Char) :=
  ["sudo".toList, "time".toList, "nice".toList, "env".toList]

/-- The regular expression `^[A-Z_][A-Z0-9_]*=`. -/
def envAssign (token : List Char) : Bool :=
  match token with
  | [] => false
  | c :: rest =>
    (c.isUpper || c = '_') &&
      ((rest.dropWhile fun d => d.isUpper || d.isDigit || d = '_').head? = some '=')

def commandExecutableTokens (cmd : List Char) : List Char × List Char :=
  match (fields cmd).dropWhile fun t => t ∈ wrapperCommands || envAssign t with
  | [] => ([], [])
  | first :: rest => (base first, rest.headD [])

def sessionTypeAI : String := "ai"
def sessionTypeTest : String := "test"
def sessionTypeBuild : String := "build"
def sessionTypeDeploy : String := "deploy"

def ClassifyCommand (cmd : List Char) : String :=
  let (first, second) := commandExecutableTokens cmd
  if first ∈ ["codex".toList, "claude".toList, "gemini".toList, "aider".toList] then sessionTypeAI
  else if first ∈ ["kubectl".toList, "terraform".toList] then sessionTypeDeploy
  else if first = "docker-compose".toList then sessionTypeBuild
  else if first = "docker".toList ∧ second ∈ ["build".toList, "compose".toList] then sessionTypeBuild
  else if first ∈ ["go".toList, "npm".toList, "pnpm".toList, "yarn".toList, "cargo".toList] ∧
      second = "test".toList then sessionTypeTest
  else "shell"

example : ClassifyCommand "FOO=1 sudo /usr/bin/claude --resume".toList = "ai" := by decide +kernel

end Atterm.Terminal
