import EventBridge.Text.Digits

/-! # Writing TOML

The texts of the values that a configuration has. A string is written in the plainest of five forms
that holds it: between double quotes without escapes, between single quotes, and the two forms over
several lines; if none does, with escapes.

* `Content` is what the choice looks at.
* A form over several lines starts with a line break if the string has one.
-/

namespace EventBridge.Toml

/-- What a string contains that decides its form. -/
structure Content where
  /-- A control character that is neither tab nor line feed. -/
  control : Bool
  backslash : Bool
  lineFeed : Bool
  /-- The longest runs of quotes. -/
  singles : Nat
  doubles : Nat
  deriving DecidableEq, Repr

/-- The longest run of a character, after `run` of them. -/
def longestRun (quote : Char) : Nat → List Char → Nat
  | run, [] => run
  | run, c :: rest =>
    if c = quote then longestRun quote (run + 1) rest else max run (longestRun quote 0 rest)

/-- Looks through the characters of a string. -/
def Content.of (cs : List Char) : Content where
  control := cs.any fun c => (c < ' ' && c != '\t' && c != '\n') || c == '\x7f'
  backslash := cs.contains '\\'
  lineFeed := cs.contains '\n'
  singles := longestRun '\'' 0 cs
  doubles := longestRun '\x22' 0 cs

/-- The forms of a string. -/
inductive Form where
  | basic
  | literal
  | blockBasic
  | blockLiteral
  deriving DecidableEq, Repr

/-- The form a string is written in. -/
def Content.form (c : Content) : Form :=
  if !c.control ∧ !c.backslash ∧ c.doubles = 0 ∧ !c.lineFeed then .basic
  else if !c.control ∧ c.singles = 0 ∧ !c.lineFeed then .literal
  else if !c.control ∧ !c.backslash ∧ c.doubles < 3 then .blockBasic
  else if !c.control ∧ c.singles < 3 then .blockLiteral
  else if c.lineFeed then .blockBasic
  else .basic

/-- Quotes in a row that need no escape. -/
def Form.quotes : Form → Nat
  | .blockBasic => 2
  | _ => 0

/-- The escape of a character that is not a quote, or the character itself. -/
def escaped (form : Form) (c : Char) : List Char :=
  if c = '\x08' then ['\\', 'b']
  else if c = '\t' then ['\\', 't']
  else if c = '\n' then if form = .blockBasic then ['\n'] else ['\\', 'n']
  else if c = '\x0c' then ['\\', 'f']
  else if c = '\r' then ['\\', 'r']
  else if c = '\\' then ['\\', '\\']
  else if c < ' ' ∨ c = '\x7f' then
    let digits := (Text.hexadecimal c.toNat).map Char.toUpper
    '\\' :: 'u' :: List.replicate (4 - digits.length) '0' ++ digits
  else [c]

/-- A string with its escapes, after `run` quotes in a row. -/
def escapedChars (form : Form) : Nat → List Char → List Char
  | _, [] => []
  | run, c :: rest =>
    if c = '\x22' then
      if form.quotes ≤ run then '\\' :: c :: escapedChars form 0 rest
      else c :: escapedChars form (run + 1) rest
    else escaped form c ++ escapedChars form 0 rest

/-- The text of a string. -/
def stringText (value : String) : String :=
  let cs := value.toList
  let content := Content.of cs
  let opening := if content.lineFeed then ['\n'] else []
  String.ofList <| match content.form with
    | .basic => '\x22' :: escapedChars .basic 0 cs ++ ['\x22']
    | .literal => '\'' :: cs ++ ['\'']
    | .blockBasic =>
      let quotes := ['\x22', '\x22', '\x22']
      quotes ++ opening ++ escapedChars .blockBasic 0 cs ++ quotes
    | .blockLiteral =>
      let quotes := ['\'', '\'', '\'']
      quotes ++ opening ++ cs ++ quotes

/-- The text of a natural number, if 64 bits with a sign hold it. -/
def naturalText? (n : Nat) : Option String :=
  if (n : Int) ≤ Int64.maxValue.toInt then some (toString n) else none

/-- The text of a truth value. -/
def booleanText (b : Bool) : String := if b then "true" else "false"

/-- A line with a key and a value. -/
def entryText (key value : String) : String := key ++ " = " ++ value ++ "\n"

/-- The line of a header. -/
def headerText (name : String) : String := "[" ++ name ++ "]\n"

end EventBridge.Toml
