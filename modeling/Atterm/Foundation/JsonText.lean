/-
**JSON as `encoding/json` writes it.**

Texts in UTF-8 with the escapes of the encoder, numbers, octets in base64, and objects with their
fields in the order they are given.

* `jsonString`, `jsonInt`, `jsonBytes`, `jsonBool`, `jsonObject` — the encodings.
-/

import Atterm.Foundation.Base64

namespace Atterm.Foundation

def utf8 (text : String) : List UInt8 := text.toList.flatMap String.utf8EncodeChar

def hexDigit (digit : ℕ) : UInt8 :=
  if digit < 10 then UInt8.ofNat (0x30 + digit) else UInt8.ofNat (0x61 + (digit - 10))

/-- `\u` and four digits. -/
def unicodeEscape (code : ℕ) : List UInt8 :=
  [0x5c, 0x75, hexDigit (code / 4096 % 16), hexDigit (code / 256 % 16), hexDigit (code / 16 % 16),
    hexDigit (code % 16)]

/-- A character in a JSON string, with the escapes of `encoding/json`. -/
def escapeChar (char : Char) : List UInt8 :=
  if char.toNat = 0x22 ∨ char.toNat = 0x5c then [0x5c, UInt8.ofNat char.toNat]
  else if char.toNat = 0x08 then [0x5c, 0x62]
  else if char.toNat = 0x0c then [0x5c, 0x66]
  else if char.toNat = 0x0a then [0x5c, 0x6e]
  else if char.toNat = 0x0d then [0x5c, 0x72]
  else if char.toNat = 0x09 then [0x5c, 0x74]
  else if char.toNat < 0x20 ∨ char.toNat ∈ [0x3c, 0x3e, 0x26, 0x2028, 0x2029] then
    unicodeEscape char.toNat
  else String.utf8EncodeChar char

def jsonString (text : String) : List UInt8 := 0x22 :: (text.toList.flatMap escapeChar ++ [0x22])

def jsonInt (value : Int64) : List UInt8 := utf8 (toString value.toInt)

/-- Bytes in the padded standard alphabet. -/
def jsonBytes (bytes : List UInt8) : List UInt8 :=
  jsonString (String.ofList ((Base64.encode bytes).toList.map (fun char =>
    if char = '-' then '+' else if char = '_' then '/' else char) ++
      List.replicate ((3 - bytes.length % 3) % 3) '='))

def jsonBool (value : Bool) : List UInt8 := utf8 (if value then "true" else "false")

def jsonObject (fields : List (String × List UInt8)) : List UInt8 :=
  0x7b :: (List.intercalate [0x2c] (fields.map fun field =>
    jsonString field.1 ++ 0x3a :: field.2) ++ [0x7d])

def omitEmpty (name : String) (present : Bool) (value : List UInt8) : List (String × List UInt8) :=
  if present then [(name, value)] else []

end Atterm.Foundation
