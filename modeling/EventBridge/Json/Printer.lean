import EventBridge.Json.Basic
import EventBridge.Text.Digits

/-! # Writing JSON

The compact text of a value, without blanks. In a string the quote, the backslash and the
characters below the space are escaped, the common ones by a letter and the others as `\u00` with
two hexadecimal digits; all else stands for itself.
-/

namespace EventBridge.Json

open Text (decimal hexadecimal)

/-- One character of a string. -/
def escapeChar (c : Char) : List Char :=
  if c = '\x22' then ['\\', '\x22']
  else if c = '\\' then ['\\', '\\']
  else if c = '\x08' then ['\\', 'b']
  else if c = '\x0c' then ['\\', 'f']
  else if c = '\n' then ['\\', 'n']
  else if c = '\r' then ['\\', 'r']
  else if c = '\t' then ['\\', 't']
  else if c < ' ' then
    let digits := hexadecimal c.toNat
    '\\' :: 'u' :: List.replicate (4 - digits.length) '0' ++ digits
  else [c]

/-- A string between its quotes. -/
def stringChars (text : String) : List Char :=
  '\x22' :: text.toList.flatMap escapeChar ++ ['\x22']

/-- The digits of a number. -/
def Number.chars : Number → List Char
  | .natural n => decimal n
  | .negative n => '-' :: decimal n
  | .real x => (Decimal.signedText x).toList

mutual

/-- The text of a value. -/
def chars : Json → List Char
  | .null => ['n', 'u', 'l', 'l']
  | .bool true => ['t', 'r', 'u', 'e']
  | .bool false => ['f', 'a', 'l', 's', 'e']
  | .number n => n.chars
  | .string s => stringChars s
  | .array items => '[' :: itemsChars items ++ [']']
  | .object members => '\x7b' :: membersChars members ++ ['\x7d']

/-- The texts of items, with commas between them. -/
def itemsChars : List Json → List Char
  | [] => []
  | [item] => item.chars
  | item :: rest => item.chars ++ ',' :: itemsChars rest

/-- The texts of members, with commas between them. -/
def membersChars : List (String × Json) → List Char
  | [] => []
  | [(name, value)] => stringChars name ++ ':' :: value.chars
  | (name, value) :: rest => stringChars name ++ ':' :: value.chars ++ ',' :: membersChars rest

end

/-- The compact text of a value. -/
def render (value : Json) : String := String.ofList value.chars

end EventBridge.Json
