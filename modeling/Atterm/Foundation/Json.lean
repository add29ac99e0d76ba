/-
**JSON texts.**

A document is read the way `encoding/json` reads it: bytes that are not UTF-8 become the replacement
character, numbers stay literals until a field asks for one, and a document ends with nothing but space
behind it. What the encoder writes is read back as it was.

* `Json.text`, `Json.bytes` — the encoder, without space between the tokens;
* `readValue`, `Json.read` — the reader;
* `readChars_quoted`, `readValue_text`, `Json.read_bytes` — the round trip.
-/

import Mathlib

namespace Atterm.Foundation

inductive Json where
  | null
  | bool (value : Bool)
  | num (literal : List Char)
  | str (text : String)
  | arr (elems : List Json)
  | obj (members : List (String × Json))

/-! ### The encoder -/

def hexRune (digit : ℕ) : Char :=
  if digit < 10 then Char.ofNat (0x30 + digit) else Char.ofNat (0x61 + (digit - 10))

/-- `\u` and four digits. -/
def unicodeRunes (code : ℕ) : List Char :=
  ['\\', 'u', hexRune (code / 4096 % 16), hexRune (code / 256 % 16), hexRune (code / 16 % 16),
    hexRune (code % 16)]

/-- A character in a JSON string, with the escapes of `encoding/json`. -/
def escapeRune (char : Char) : List Char :=
  if char = '"' ∨ char = '\\' then ['\\', char]
  else if char = '\x08' then ['\\', 'b']
  else if char = '\x0c' then ['\\', 'f']
  else if char = '\n' then ['\\', 'n']
  else if char = '\r' then ['\\', 'r']
  else if char = '\t' then ['\\', 't']
  else if char.toNat < 0x20 ∨ char.toNat ∈ [0x3c, 0x3e, 0x26, 0x2028, 0x2029] then
    unicodeRunes char.toNat
  else [char]

def quotedText (text : String) : List Char := '"' :: (text.toList.flatMap escapeRune ++ ['"'])

mutual

def Json.text : Json → List Char
  | .null => ['n', 'u', 'l', 'l']
  | .bool true => ['t', 'r', 'u', 'e']
  | .bool false => ['f', 'a', 'l', 's', 'e']
  | .num literal => literal
  | .str text => quotedText text
  | .arr elems => '[' :: (elemsText elems ++ [']'])
  | .obj members => '{' :: (membersText members ++ ['}'])

def elemsText : List Json → List Char
  | [] => []
  | [value] => value.text
  | value :: next :: rest => value.text ++ ',' :: elemsText (next :: rest)

def membersText : List (String × Json) → List Char
  | [] => []
  | [(name, value)] => quotedText name ++ ':' :: value.text
  | (name, value) :: next :: rest =>
    quotedText name ++ ':' :: value.text ++ ',' :: membersText (next :: rest)

end

def Json.bytes (value : Json) : List UInt8 := value.text.flatMap String.utf8EncodeChar

/-! ### The reader -/

def isSpace (char : Char) : Bool := char = ' ' || char = '\t' || char = '\r' || char = '\n'

def skipSpace (text : List Char) : List Char := text.dropWhile isSpace

def hexValue (char : Char) : Option ℕ :=
  if '0' ≤ char ∧ char ≤ '9' then some (char.toNat - '0'.toNat)
  else if 'a' ≤ char ∧ char ≤ 'f' then some (char.toNat - 'a'.toNat + 10)
  else if 'A' ≤ char ∧ char ≤ 'F' then some (char.toNat - 'A'.toNat + 10)
  else none

/-- Four hexadecimal digits. -/
def hexCode : List Char → Option (ℕ × List Char)
  | a :: b :: c :: d :: rest =>
    match hexValue a, hexValue b, hexValue c, hexValue d with
    | some a, some b, some c, some d => some (a * 4096 + b * 256 + c * 16 + d, rest)
    | _, _, _, _ => none
  | _ => none

/-- The second half of a surrogate pair. -/
def lowSurrogate (high : ℕ) : List Char → Option (Char × List Char)
  | '\\' :: 'u' :: rest =>
    match hexCode rest with
    | some (low, rest) =>
      if high < 0xdc00 ∧ 0xdc00 ≤ low ∧ low < 0xe000 then
        some (Char.ofNat ((high - 0xd800) * 0x400 + (low - 0xdc00) + 0x10000), rest)
      else none
    | none => none
  | _ => none

/-- What follows `\u`; half a surrogate pair is replaced. -/
def readUnicode (text : List Char) : Option (Char × List Char) :=
  match hexCode text with
  | none => none
  | some (code, rest) =>
    if 0xd800 ≤ code ∧ code < 0xe000 then
      some ((lowSurrogate code rest).getD ('\ufffd', rest))
    else some (Char.ofNat code, rest)

def escapeOf (char : Char) : Option Char :=
  if char = '"' ∨ char = '\\' ∨ char = '/' then some char
  else if char = 'b' then some '\x08'
  else if char = 'f' then some '\x0c'
  else if char = 'n' then some '\n'
  else if char = 'r' then some '\r'
  else if char = 't' then some '\t'
  else none

def readEscape : List Char → Option (Char × List Char)
  | [] => none
  | escaped :: rest =>
    if escaped = 'u' then readUnicode rest
    else (escapeOf escaped).map fun char => (char, rest)

def readRune : List Char → Option (Char × List Char)
  | [] => none
  | char :: rest =>
    if char = '\\' then readEscape rest
    else if char.toNat < 0x20 then none
    else some (char, rest)

/-- The characters of a string up to its closing quote. -/
def readChars : ℕ → List Char → Option (List Char × List Char)
  | 0, _ => none
  | fuel + 1, text =>
    if text.head? = some '"' then some ([], text.tail)
    else match readRune text with
      | none => none
      | some (char, rest) => (readChars fuel rest).map fun read => (char :: read.1, read.2)

def isExponent : List Char → Bool
  | [] => true
  | mark :: rest =>
    let digits := if rest.head? = some '+' ∨ rest.head? = some '-' then rest.tail else rest
    (mark = 'e' || mark = 'E') && digits ≠ [] && digits.all Char.isDigit

def isFraction (text : List Char) : Bool :=
  if text.head? = some '.' then
    text.tail.takeWhile Char.isDigit ≠ [] && isExponent (text.tail.dropWhile Char.isDigit)
  else isExponent text

/-- A whole part without leading zeros, a fraction and an exponent. -/
def isUnsigned (text : List Char) : Bool :=
  let whole := text.takeWhile Char.isDigit
  whole ≠ [] && (whole = ['0'] || whole.head? ≠ some '0') && isFraction (text.dropWhile Char.isDigit)

def isNumber (literal : List Char) : Bool :=
  if literal.head? = some '-' then isUnsigned literal.tail else isUnsigned literal

def numberRune (char : Char) : Bool :=
  char.isDigit || char = '-' || char = '+' || char = '.' || char = 'e' || char = 'E'

def readNumber (text : List Char) : Option (Json × List Char) :=
  if isNumber (text.takeWhile numberRune) then
    some (.num (text.takeWhile numberRune), text.dropWhile numberRune)
  else none

def readWord (text : List Char) : Option (Json × List Char) :=
  if ['n', 'u', 'l', 'l'] <+: text then some (.null, text.drop 4)
  else if ['t', 'r', 'u', 'e'] <+: text then some (.bool true, text.drop 4)
  else if ['f', 'a', 'l', 's', 'e'] <+: text then some (.bool false, text.drop 5)
  else none

mutual

def readValue : ℕ → List Char → Option (Json × List Char)
  | 0, _ => none
  | fuel + 1, text =>
    match skipSpace text with
    | [] => none
    | char :: rest =>
      if char = '"' then
        (readChars fuel rest).map fun read => (.str (String.ofList read.1), read.2)
      else if char = '[' then
        if (skipSpace rest).head? = some ']' then some (.arr [], (skipSpace rest).tail)
        else (readElems fuel rest).map fun read => (.arr read.1, read.2)
      else if char = '{' then
        if (skipSpace rest).head? = some '}' then some (.obj [], (skipSpace rest).tail)
        else (readMembers fuel rest).map fun read => (.obj read.1, read.2)
      else if numberRune char then readNumber (char :: rest)
      else readWord (char :: rest)

def readElems : ℕ → List Char → Option (List Json × List Char)
  | 0, _ => none
  | fuel + 1, text =>
    match readValue fuel text with
    | none => none
    | some (value, rest) =>
      if (skipSpace rest).head? = some ',' then
        (readElems fuel (skipSpace rest).tail).map fun read => (value :: read.1, read.2)
      else if (skipSpace rest).head? = some ']' then some ([value], (skipSpace rest).tail)
      else none

def readMembers : ℕ → List Char → Option (List (String × Json) × List Char)
  | 0, _ => none
  | fuel + 1, text =>
    if (skipSpace text).head? = some '"' then
      match readChars fuel (skipSpace text).tail with
      | none => none
      | some (name, afterName) =>
        if (skipSpace afterName).head? = some ':' then
          match readValue fuel (skipSpace afterName).tail with
          | none => none
          | some (value, rest) =>
            if (skipSpace rest).head? = some ',' then
              (readMembers fuel (skipSpace rest).tail).map fun read =>
                ((String.ofList name, value) :: read.1, read.2)
            else if (skipSpace rest).head? = some '}' then
              some ([(String.ofList name, value)], (skipSpace rest).tail)
            else none
        else none
    else none

end

/-- The characters of some bytes; what is no UTF-8 is replaced byte by byte. -/
def decodeRunes : ℕ → List UInt8 → List Char
  | 0, _ => []
  | _ + 1, [] => []
  | fuel + 1, byte :: rest =>
    match (byte :: rest).toByteArray.utf8DecodeChar? 0 with
    | some char => char :: decodeRunes fuel ((byte :: rest).drop char.utf8Size)
    | none => '\ufffd' :: decodeRunes fuel rest

def Json.read (bytes : List UInt8) : Option Json :=
  match readValue (bytes.length + 1) (decodeRunes bytes.length bytes) with
  | some (value, rest) => if skipSpace rest = [] then some value else none
  | none => none

/-! ### Strings -/

theorem hexValue_hexRune {digit : ℕ} (small : digit < 16) : hexValue (hexRune digit) = some digit := by
  have checked : ∀ digit < 16, hexValue (hexRune digit) = some digit := by decide
  exact checked digit small

theorem readUnicode_runes {code : ℕ} (small : code < 0xd800) (rest : List Char) :
    readRune (unicodeRunes code ++ rest) = some (Char.ofNat code, rest) := by
  show readUnicode (hexRune (code / 4096 % 16) :: hexRune (code / 256 % 16) ::
    hexRune (code / 16 % 16) :: hexRune (code % 16) :: rest) = _
  have whole : code / 4096 % 16 * 4096 + code / 256 % 16 * 256 + code / 16 % 16 * 16 + code % 16 =
      code := by omega
  simp only [readUnicode, hexCode, hexValue_hexRune (Nat.mod_lt _ (by decide : 0 < 16)), whole]
  rw [if_neg (by omega)]

/-- **A character that is written is read back.** -/
theorem readRune_escapeRune (char : Char) (rest : List Char) :
    readRune (escapeRune char ++ rest) = some (char, rest) := by
  rw [escapeRune]
  split_ifs with quote backspace formFeed newline return_ tab special
  · rcases quote with rfl | rfl <;> rfl
  · subst backspace
    rfl
  · subst formFeed
    rfl
  · subst newline
    rfl
  · subst return_
    rfl
  · subst tab
    rfl
  · rw [readUnicode_runes _ rest, Char.ofNat_toNat]
    rcases special with control | listed
    · omega
    · simp only [List.mem_cons, List.not_mem_nil, or_false] at listed
      omega
  · rw [not_or] at quote special
    rw [List.singleton_append, readRune, if_neg quote.2, if_neg special.1]

theorem escapeRune_head (char : Char) (rest : List Char) :
    (escapeRune char ++ rest).head? ≠ some '"' := by
  intro same
  rw [escapeRune] at same
  split_ifs at same with quote
  all_goals first
    | cases same
      done
    | exact quote (Or.inl (Option.some.inj same))

theorem escapeRune_length (char : Char) : 1 ≤ (escapeRune char).length := by
  rw [escapeRune]
  split_ifs <;> simp [unicodeRunes]

theorem length_le_escaped (text : List Char) : text.length ≤ (text.flatMap escapeRune).length := by
  induction text with
  | nil => exact le_rfl
  | cons char rest ih =>
    rw [List.flatMap_cons, List.length_append, List.length_cons]
    have one := escapeRune_length char
    omega

/-- **A string that is written is read back up to its quote.** -/
theorem readChars_quoted {fuel : ℕ} (text rest : List Char) (enough : text.length < fuel) :
    readChars fuel (text.flatMap escapeRune ++ '"' :: rest) = some (text, rest) := by
  induction text generalizing fuel with
  | nil =>
    obtain ⟨fuel, rfl⟩ := Nat.exists_eq_add_one_of_ne_zero (Nat.ne_zero_of_lt enough)
    rw [readChars]
    rfl
  | cons char more ih =>
    obtain ⟨fuel, rfl⟩ := Nat.exists_eq_add_one_of_ne_zero (Nat.ne_zero_of_lt enough)
    rw [List.length_cons] at enough
    rw [readChars, List.flatMap_cons, List.append_assoc, if_neg (escapeRune_head char _),
      readRune_escapeRune]
    show (readChars fuel _).map _ = _
    rw [ih (Nat.lt_of_succ_lt_succ enough)]
    rfl

/-! ### Values -/

mutual

/-- The numbers of a document are literals. -/
def Json.Valid : Json → Prop
  | .num literal => isNumber literal = true ∧ literal.all numberRune = true
  | .arr elems => ElemsValid elems
  | .obj members => MembersValid members
  | .null | .bool _ | .str _ => True

def ElemsValid : List Json → Prop
  | [] => True
  | value :: rest => value.Valid ∧ ElemsValid rest

def MembersValid : List (String × Json) → Prop
  | [] => True
  | member :: rest => member.2.Valid ∧ MembersValid rest

end

def Follows (rest : List Char) : Prop := ∀ char ∈ rest.head?, numberRune char = false

theorem isNumber_head {literal : List Char} (number : isNumber literal = true) :
    ∃ char rest, literal = char :: rest ∧ (char = '-' ∨ char.isDigit = true) := by
  cases literal with
  | nil => cases number
  | cons char rest =>
    refine ⟨char, rest, rfl, ?_⟩
    by_contra other
    rw [not_or] at other
    rw [isNumber, List.head?_cons, if_neg (fun same => other.1 (Option.some.inj same)), isUnsigned,
      List.takeWhile_cons_of_neg other.2] at number
    cases number

theorem readNumber_literal {literal rest : List Char} (number : isNumber literal = true)
    (runes : literal.all numberRune = true) (follows : Follows rest) :
    readNumber (literal ++ rest) = some (.num literal, rest) := by
  have runes' : ∀ char ∈ literal, numberRune char = true := List.all_eq_true.mp runes
  have ends : rest.takeWhile numberRune = [] ∧ rest.dropWhile numberRune = rest := by
    cases rest with
    | nil => exact ⟨rfl, rfl⟩
    | cons char more =>
      have other : ¬ numberRune char = true := by
        rw [follows char rfl]
        exact Bool.false_ne_true
      exact ⟨List.takeWhile_cons_of_neg other, List.dropWhile_cons_of_neg other⟩
  rw [readNumber, List.takeWhile_append_of_pos runes', List.dropWhile_append_of_pos runes', ends.1,
    ends.2, List.append_nil, if_pos number]

theorem isSpace_of_head {char : Char} (head : char = '-' ∨ char.isDigit = true) :
    isSpace char = false ∧ char ≠ ']' ∧ char ≠ '"' ∧ char ≠ '[' ∧ char ≠ '{' ∧
      numberRune char = true := by
  rcases head with rfl | digit
  · decide
  · have other {mark : Char} (plain : mark.isDigit = false) : char ≠ mark := by
      rintro rfl
      rw [plain] at digit
      cases digit
    refine ⟨?_, other rfl, other rfl, other rfl, other rfl, ?_⟩
    · simp only [isSpace, Bool.or_eq_false_iff, decide_eq_false_iff_not]
      exact ⟨⟨⟨other rfl, other rfl⟩, other rfl⟩, other rfl⟩
    · simp [numberRune, digit]

theorem skipSpace_cons {char : Char} (rest : List Char) (ink : isSpace char = false) :
    skipSpace (char :: rest) = char :: rest :=
  List.dropWhile_cons_of_neg (by rw [ink]; exact Bool.false_ne_true)

theorem Json.text_head (value : Json) (valid : value.Valid) :
    ∃ char rest, value.text = char :: rest ∧ isSpace char = false ∧ char ≠ ']' := by
  cases value with
  | null => exact ⟨'n', ['u', 'l', 'l'], by rw [Json.text], rfl, by decide⟩
  | bool value =>
    cases value with
    | true => exact ⟨'t', ['r', 'u', 'e'], by rw [Json.text], rfl, by decide⟩
    | false => exact ⟨'f', ['a', 'l', 's', 'e'], by rw [Json.text], rfl, by decide⟩
  | num literal =>
    rw [Json.Valid] at valid
    obtain ⟨char, rest, rfl, head⟩ := isNumber_head valid.1
    obtain ⟨ink, open_, -⟩ := isSpace_of_head head
    exact ⟨char, rest, by rw [Json.text], ink, open_⟩
  | str text => exact ⟨'"', _, by rw [Json.text, quotedText], rfl, by decide⟩
  | arr elems => exact ⟨'[', _, by rw [Json.text], rfl, by decide⟩
  | obj members => exact ⟨'{', _, by rw [Json.text], rfl, by decide⟩

theorem readWord_null (rest : List Char) :
    readWord ('n' :: 'u' :: 'l' :: 'l' :: rest) = some (.null, rest) := by
  rw [readWord]
  exact if_pos (List.prefix_append ['n', 'u', 'l', 'l'] rest)

theorem not_prefix_of_head {char other : Char} {word rest : List Char} (different : char ≠ other) :
    ¬ char :: word <+: other :: rest :=
  fun same => different (List.cons_prefix_cons.mp same).1

theorem readWord_true (rest : List Char) :
    readWord ('t' :: 'r' :: 'u' :: 'e' :: rest) = some (.bool true, rest) := by
  rw [readWord, if_neg (not_prefix_of_head (by decide))]
  exact if_pos (List.prefix_append ['t', 'r', 'u', 'e'] rest)

theorem readWord_false (rest : List Char) :
    readWord ('f' :: 'a' :: 'l' :: 's' :: 'e' :: rest) = some (.bool false, rest) := by
  rw [readWord, if_neg (not_prefix_of_head (by decide)), if_neg (not_prefix_of_head (by decide))]
  exact if_pos (List.prefix_append ['f', 'a', 'l', 's', 'e'] rest)

theorem readValue_word {fuel : ℕ} {char : Char} {rest : List Char} (ink : isSpace char = false)
    (word : char ≠ '"' ∧ char ≠ '[' ∧ char ≠ '{' ∧ numberRune char = false) :
    readValue (fuel + 1) (char :: rest) = readWord (char :: rest) := by
  rw [readValue, skipSpace_cons rest ink]
  show (if char = '"' then _ else _) = _
  rw [if_neg word.1, if_neg word.2.1, if_neg word.2.2.1, word.2.2.2, if_neg Bool.false_ne_true]

theorem readValue_num {fuel : ℕ} {literal rest : List Char} (number : isNumber literal = true)
    (runes : literal.all numberRune = true) (follows : Follows rest) :
    readValue (fuel + 1) (literal ++ rest) = some (.num literal, rest) := by
  obtain ⟨char, more, rfl, head⟩ := isNumber_head number
  obtain ⟨ink, -, noQuote, noBracket, noBrace, rune⟩ := isSpace_of_head head
  rw [← readNumber_literal number runes follows, List.cons_append, readValue,
    skipSpace_cons _ ink]
  show (if char = '"' then _ else _) = _
  rw [if_neg noQuote, if_neg noBracket, if_neg noBrace, if_pos rune]

theorem readValue_str {fuel : ℕ} {text : String} {rest : List Char}
    (enough : (quotedText text).length < fuel + 2) :
    readValue (fuel + 1) (quotedText text ++ rest) = some (.str text, rest) := by
  rw [quotedText, List.length_cons, List.length_append, List.length_singleton] at enough
  have short := length_le_escaped text.toList
  rw [quotedText, List.cons_append, List.append_assoc, readValue, skipSpace_cons _ rfl]
  show (readChars fuel (text.toList.flatMap escapeRune ++ '"' :: rest)).map _ = _
  rw [readChars_quoted text.toList rest (by omega)]
  show some (Json.str (String.ofList text.toList), rest) = _
  rw [String.ofList_toList]

theorem follows_of_mark {mark : Char} {rest : List Char} (plain : numberRune mark = false) :
    Follows (mark :: rest) := by
  intro char head
  cases head
  exact plain

theorem elemsText_cons (value : Json) (rest : List Json) :
    ∃ tail, ∀ more, elemsText (value :: rest) ++ more = value.text ++ (tail ++ more) := by
  cases rest with
  | nil => exact ⟨[], fun more => by rw [elemsText]; rfl⟩
  | cons next rest =>
    refine ⟨',' :: elemsText (next :: rest), fun more => ?_⟩
    rw [elemsText, List.append_assoc]

theorem elemsText_head {value : Json} (valid : value.Valid) (rest : List Json) (more : List Char) :
    (skipSpace (elemsText (value :: rest) ++ more)).head? ≠ some ']' := by
  obtain ⟨tail, same⟩ := elemsText_cons value rest
  obtain ⟨char, text, head, ink, open_⟩ := value.text_head valid
  rw [same, head, List.cons_append, skipSpace_cons _ ink]
  exact fun same => open_ (Option.some.inj same)

theorem membersText_cons (member : String × Json) (rest : List (String × Json)) :
    ∃ tail, membersText (member :: rest) = '"' :: tail := by
  obtain ⟨name, value⟩ := member
  cases rest with
  | nil => exact ⟨_, by rw [membersText, quotedText]; rfl⟩
  | cons next rest => exact ⟨_, by rw [membersText, quotedText]; rfl⟩

theorem readMembers_member {fuel : ℕ} {name : String} {value : Json} {text rest : List Char}
    (enough : (quotedText name).length < fuel + 2) (reads : readValue fuel text = some (value, rest)) :
    readMembers (fuel + 1) (quotedText name ++ ':' :: text) =
      if (skipSpace rest).head? = some ',' then
        (readMembers fuel (skipSpace rest).tail).map fun read => ((name, value) :: read.1, read.2)
      else if (skipSpace rest).head? = some '}' then some ([(name, value)], (skipSpace rest).tail)
      else none := by
  rw [quotedText, List.length_cons, List.length_append, List.length_singleton] at enough
  have short := length_le_escaped name.toList
  have chars : readChars fuel (name.toList.flatMap escapeRune ++ '"' :: ':' :: text) =
      some (name.toList, ':' :: text) := readChars_quoted _ _ (by omega)
  have colon : skipSpace (':' :: text) = ':' :: text := skipSpace_cons _ rfl
  rw [quotedText, List.cons_append, List.append_assoc, readMembers, skipSpace_cons _ rfl]
  simp only [List.head?_cons, List.tail_cons, List.singleton_append, if_true, chars, colon, reads,
    String.ofList_toList]

mutual

theorem readValue_text : ∀ (value : Json) (fuel : ℕ) (rest : List Char), value.Valid → Follows rest →
    value.text.length < fuel → readValue fuel (value.text ++ rest) = some (value, rest)
  | _, 0, _, _, _, enough => absurd enough (Nat.not_lt_zero _)
  | .null, fuel + 1, rest, _, _, _ => by
    rw [Json.text]
    exact (readValue_word rfl (by decide)).trans (readWord_null rest)
  | .bool true, fuel + 1, rest, _, _, _ => by
    rw [Json.text]
    exact (readValue_word rfl (by decide)).trans (readWord_true rest)
  | .bool false, fuel + 1, rest, _, _, _ => by
    rw [Json.text]
    exact (readValue_word rfl (by decide)).trans (readWord_false rest)
  | .num literal, fuel + 1, rest, valid, follows, _ => by
    rw [Json.Valid] at valid
    rw [Json.text]
    exact readValue_num valid.1 valid.2 follows
  | .str text, fuel + 1, rest, _, _, enough => by
    rw [Json.text] at enough ⊢
    exact readValue_str (enough.trans (Nat.lt_succ_self _))
  | .arr [], fuel + 1, rest, _, _, _ => by
    rw [Json.text, elemsText, readValue]
    rfl
  | .arr (value :: more), fuel + 1, rest, valid, _, enough => by
    rw [Json.Valid] at valid
    rw [Json.text, List.length_cons, List.length_append, List.length_singleton] at enough
    have head := elemsText_head (ElemsValid.eq_2 value more ▸ valid).1 more (']' :: rest)
    have elems := readElems_text (value :: more) fuel rest (List.cons_ne_nil _ _) valid (by omega)
    rw [Json.text, List.cons_append, List.append_assoc, readValue, skipSpace_cons _ rfl]
    show (if (skipSpace (elemsText (value :: more) ++ ']' :: rest)).head? = some ']' then _
      else (readElems fuel (elemsText (value :: more) ++ ']' :: rest)).map _) = _
    rw [if_neg head, elems]
    rfl
  | .obj [], fuel + 1, rest, _, _, _ => by
    rw [Json.text, membersText, readValue]
    rfl
  | .obj (member :: more), fuel + 1, rest, valid, _, enough => by
    rw [Json.Valid] at valid
    rw [Json.text, List.length_cons, List.length_append, List.length_singleton] at enough
    have members := readMembers_text (member :: more) fuel rest (List.cons_ne_nil _ _) valid
      (by omega)
    obtain ⟨tail, head⟩ := membersText_cons member more
    rw [Json.text, List.cons_append, List.append_assoc, readValue, skipSpace_cons _ rfl]
    show (if (skipSpace (membersText (member :: more) ++ '}' :: rest)).head? = some '}' then _
      else (readMembers fuel (membersText (member :: more) ++ '}' :: rest)).map _) = _
    rw [if_neg, members]
    · rfl
    · rw [head, List.cons_append, skipSpace_cons _ rfl]
      exact fun same => absurd (Option.some.inj same) (by decide)

theorem readElems_text : ∀ (elems : List Json) (fuel : ℕ) (rest : List Char), elems ≠ [] →
    ElemsValid elems → (elemsText elems).length + 1 < fuel →
      readElems fuel (elemsText elems ++ ']' :: rest) = some (elems, rest)
  | [], _, _, some_elem, _, _ => absurd rfl some_elem
  | _ :: _, 0, _, _, _, enough => absurd enough (Nat.not_lt_zero _)
  | [value], fuel + 1, rest, _, valid, enough => by
    rw [ElemsValid] at valid
    rw [elemsText] at enough ⊢
    rw [readElems, readValue_text value fuel (']' :: rest) valid.1 (follows_of_mark rfl) (by omega)]
    rfl
  | value :: next :: more, fuel + 1, rest, _, valid, enough => by
    rw [ElemsValid] at valid
    rw [elemsText, List.length_append, List.length_cons] at enough
    rw [elemsText, List.append_assoc, List.cons_append, readElems,
      readValue_text value fuel _ valid.1 (follows_of_mark rfl) (by omega)]
    show (readElems fuel (elemsText (next :: more) ++ ']' :: rest)).map _ = _
    rw [readElems_text (next :: more) fuel rest (List.cons_ne_nil _ _) valid.2 (by omega)]
    rfl

theorem readMembers_text : ∀ (members : List (String × Json)) (fuel : ℕ) (rest : List Char),
    members ≠ [] → MembersValid members → (membersText members).length + 1 < fuel →
      readMembers fuel (membersText members ++ '}' :: rest) = some (members, rest)
  | [], _, _, some_member, _, _ => absurd rfl some_member
  | _ :: _, 0, _, _, _, enough => absurd enough (Nat.not_lt_zero _)
  | [(name, value)], fuel + 1, rest, _, valid, enough => by
    rw [MembersValid] at valid
    rw [membersText, List.length_append, List.length_cons] at enough
    rw [membersText, List.append_assoc, List.cons_append,
      readMembers_member (by omega) (readValue_text value fuel ('}' :: rest) valid.1
        (follows_of_mark rfl) (by omega))]
    rfl
  | (name, value) :: next :: more, fuel + 1, rest, _, valid, enough => by
    rw [MembersValid] at valid
    rw [membersText, List.length_append, List.length_append, List.length_cons,
      List.length_cons] at enough
    rw [membersText, List.append_assoc, List.append_assoc, List.cons_append, List.cons_append,
      readMembers_member (by omega) (readValue_text value fuel _ valid.1
        (follows_of_mark rfl) (by omega))]
    show (readMembers fuel (membersText (next :: more) ++ '}' :: rest)).map _ = _
    rw [readMembers_text (next :: more) fuel rest (List.cons_ne_nil _ _) valid.2 (by omega)]
    rfl

end

/-! ### Documents -/

theorem decodeRunes_utf8 {fuel : ℕ} (text : List Char)
    (enough : (text.flatMap String.utf8EncodeChar).length ≤ fuel) :
    decodeRunes fuel (text.flatMap String.utf8EncodeChar) = text := by
  induction text generalizing fuel with
  | nil =>
    cases fuel with
    | zero => rfl
    | succ fuel => rfl
  | cons char rest ih =>
    have size : (String.utf8EncodeChar char).length = char.utf8Size := String.length_utf8EncodeChar _
    have some_byte := char.utf8Size_pos
    rw [List.flatMap_cons, List.length_append, size] at enough
    obtain ⟨fuel, rfl⟩ := Nat.exists_eq_add_one_of_ne_zero (by omega : fuel ≠ 0)
    have decoded : (String.utf8EncodeChar char ++
        rest.flatMap String.utf8EncodeChar).toByteArray.utf8DecodeChar? 0 = some char := by
      rw [List.toByteArray_append]
      exact ByteArray.utf8DecodeChar?_utf8EncodeChar_append
    have dropped : (String.utf8EncodeChar char ++
        rest.flatMap String.utf8EncodeChar).drop char.utf8Size =
          rest.flatMap String.utf8EncodeChar := by
      rw [← size, List.drop_left]
    rw [List.flatMap_cons]
    cases bytes : String.utf8EncodeChar char ++ rest.flatMap String.utf8EncodeChar with
    | nil =>
      have none_left := congrArg List.length bytes
      rw [List.length_append, size, List.length_nil] at none_left
      omega
    | cons byte more =>
      rw [bytes] at decoded dropped
      rw [decodeRunes, decoded]
      show char :: decodeRunes fuel ((byte :: more).drop char.utf8Size) = _
      rw [dropped, ih (by omega)]

theorem length_le_utf8 (text : List Char) :
    text.length ≤ (text.flatMap String.utf8EncodeChar).length := by
  induction text with
  | nil => exact le_rfl
  | cons char rest ih =>
    have some_byte := char.utf8Size_pos
    rw [List.flatMap_cons, List.length_append, String.length_utf8EncodeChar, List.length_cons]
    omega

theorem Json.readValue_bytes (value : Json) (valid : value.Valid) :
    readValue (value.bytes.length + 1) (decodeRunes value.bytes.length value.bytes) =
      some (value, []) := by
  have short : value.text.length < value.bytes.length + 1 := Nat.lt_succ_of_le (length_le_utf8 _)
  have reads := readValue_text value _ [] valid (fun _ none => by cases none) short
  rw [List.append_nil] at reads
  rw [Json.bytes] at reads ⊢
  rw [decodeRunes_utf8 _ le_rfl, reads]

/-- **A document that is written is read back.** -/
theorem Json.read_bytes (value : Json) (valid : value.Valid) :
    Json.read value.bytes = some value := by
  rw [Json.read, Json.readValue_bytes value valid]
  rfl

/-! ### Integers -/

def natLiteral (value : ℕ) : List Char := Nat.toDigits 10 value

def intLiteral : ℤ → List Char
  | .ofNat value => natLiteral value
  | .negSucc value => '-' :: natLiteral (value + 1)

def parseNat (literal : List Char) : Option ℕ :=
  if literal ≠ [] ∧ literal.all Char.isDigit then some (Nat.ofDigitChars 10 literal 0) else none

def parseInt (literal : List Char) : Option ℤ :=
  if literal.head? = some '-' then (parseNat literal.tail).map fun value : ℕ => -(value : ℤ)
  else (parseNat literal).map fun value : ℕ => (value : ℤ)

theorem natLiteral_ne_nil (value : ℕ) : natLiteral value ≠ [] := Nat.toDigits_ne_nil

theorem natLiteral_isDigit {value : ℕ} {char : Char} (inside : char ∈ natLiteral value) :
    char.isDigit = true :=
  Nat.isDigit_of_mem_toDigits (by decide) (by decide) inside

theorem natLiteral_all (value : ℕ) : (natLiteral value).all Char.isDigit = true :=
  List.all_eq_true.mpr fun _ => natLiteral_isDigit

theorem natLiteral_head (value : ℕ) : natLiteral value = ['0'] ∨ (natLiteral value).head? ≠ some '0' := by
  induction value using Nat.strong_induction_on with
  | _ value ih =>
    rw [natLiteral, Nat.toDigits_eq_if (by decide)]
    split_ifs with small
    · have checked : ∀ digit < 10, [Nat.digitChar digit] = ['0'] ∨
          [Nat.digitChar digit].head? ≠ some '0' := by decide
      exact checked value small
    · refine Or.inr ?_
      have smaller : value / 10 < value := by omega
      have front : Nat.toDigits 10 (value / 10) ≠ ['0'] := by
        intro zero
        have read : Nat.ofDigitChars 10 (Nat.toDigits 10 (value / 10)) 0 = value / 10 :=
          Nat.ofDigitChars_ten_toDigits
        rw [zero] at read
        have none_left : value / 10 = 0 := read.symm
        omega
      rw [List.head?_append_of_ne_nil _ Nat.toDigits_ne_nil]
      exact (ih _ smaller).resolve_left front

theorem parseNat_natLiteral (value : ℕ) : parseNat (natLiteral value) = some value := by
  rw [parseNat, if_pos ⟨natLiteral_ne_nil value, natLiteral_all value⟩]
  exact congrArg some Nat.ofDigitChars_ten_toDigits

theorem natLiteral_head_ne {value : ℕ} {mark : Char} (plain : mark.isDigit = false) :
    (natLiteral value).head? ≠ some mark := by
  intro same
  have digit := natLiteral_isDigit (List.mem_of_head? same)
  rw [plain] at digit
  cases digit

/-- **An integer that is written is read back.** -/
theorem parseInt_intLiteral (value : ℤ) : parseInt (intLiteral value) = some value := by
  cases value with
  | ofNat value =>
    rw [intLiteral, parseInt, if_neg (natLiteral_head_ne rfl), parseNat_natLiteral]
    rfl
  | negSucc value =>
    rw [intLiteral, parseInt, List.head?_cons, if_pos rfl, List.tail_cons, parseNat_natLiteral]
    rfl

theorem isUnsigned_natLiteral (value : ℕ) : isUnsigned (natLiteral value) = true := by
  have digits : ∀ char ∈ natLiteral value, char.isDigit = true := fun _ => natLiteral_isDigit
  have whole : (natLiteral value).takeWhile Char.isDigit = natLiteral value :=
    List.takeWhile_eq_self_iff.mpr digits
  have nothing : (natLiteral value).dropWhile Char.isDigit = [] :=
    List.dropWhile_eq_nil_iff.mpr digits
  rw [isUnsigned, whole, nothing]
  simp only [Bool.and_eq_true, Bool.or_eq_true, decide_eq_true_eq]
  exact ⟨⟨natLiteral_ne_nil value, natLiteral_head value⟩, rfl⟩

theorem isNumber_intLiteral (value : ℤ) : isNumber (intLiteral value) = true := by
  cases value with
  | ofNat value =>
    rw [intLiteral, isNumber, if_neg (natLiteral_head_ne rfl)]
    exact isUnsigned_natLiteral value
  | negSucc value =>
    rw [intLiteral, isNumber, List.head?_cons, if_pos rfl, List.tail_cons]
    exact isUnsigned_natLiteral (value + 1)

theorem natLiteral_runes (value : ℕ) : (natLiteral value).all numberRune = true := by
  refine List.all_eq_true.mpr fun char inside => ?_
  rw [numberRune, natLiteral_isDigit inside]
  rfl

theorem intLiteral_runes (value : ℤ) : (intLiteral value).all numberRune = true := by
  cases value with
  | ofNat value => exact natLiteral_runes value
  | negSucc value => exact natLiteral_runes (value + 1)

def Json.int (value : ℤ) : Json := .num (intLiteral value)

theorem Json.int_valid (value : ℤ) : (Json.int value).Valid := by
  rw [Json.int, Json.Valid]
  exact ⟨isNumber_intLiteral value, intLiteral_runes value⟩

end Atterm.Foundation
