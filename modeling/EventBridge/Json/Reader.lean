import EventBridge.Json.Basic
import EventBridge.Text.Digits

/-! # Reading JSON

A reader takes a value off the front of the characters and returns what is left of them.

* Arrays and objects nest below a limit; the reader recurses on what is left of it.
* A number too long for 64 bits, or with a fraction or an exponent, is a double. It is computed from
  as many digits as 64 bits hold and one multiplication or division by a power of ten.
* `Json.parse` asks that nothing but white space follows the value.
-/

namespace EventBridge.Json

open Text (digit10? digit16? spanDigits ofDigits)

/-- Why a text is not JSON. -/
inductive Malformed where
  | unexpectedEnd
  | unexpectedCharacter
  | invalidNumber
  | numberOutOfRange
  | invalidEscape
  | loneSurrogate
  | controlCharacter
  | tooDeep
  | trailingComma
  | trailingCharacters
  deriving DecidableEq, Repr

/-- The wording of a diagnostic. -/
def Malformed.message : Malformed → String
  | .unexpectedEnd => "EOF while parsing a value"
  | .unexpectedCharacter => "expected value"
  | .invalidNumber => "invalid number"
  | .numberOutOfRange => "number out of range"
  | .invalidEscape => "invalid escape"
  | .loneSurrogate => "lone leading surrogate in hex escape"
  | .controlCharacter => "control character found while parsing a string"
  | .tooDeep => "recursion limit exceeded"
  | .trailingComma => "trailing comma"
  | .trailingCharacters => "trailing characters"

/-- The characters that may stand between tokens. -/
def isGap (c : Char) : Bool := c == ' ' || c == '\n' || c == '\t' || c == '\r'

/-- The characters behind the white space at the front. -/
def skipGaps (cs : List Char) : List Char := cs.dropWhile isGap

/-- What is wrong where a given character was due. -/
def unexpected : List Char → Malformed
  | [] => .unexpectedEnd
  | _ => .unexpectedCharacter

/-! ### Strings -/

/-- The 16-bit unit of four hexadecimal digits. -/
def unit? (a b c d : Char) : Option Nat := do
  let a ← digit16? a
  let b ← digit16? b
  let c ← digit16? c
  let d ← digit16? d
  return ((a * 16 + b) * 16 + c) * 16 + d

/-- The character that a letter behind a backslash stands for. -/
def letter? (c : Char) : Option Char :=
  if c = '\x22' ∨ c = '\\' ∨ c = '/' then some c
  else if c = 'b' then some '\x08'
  else if c = 'f' then some '\x0c'
  else if c = 'n' then some '\n'
  else if c = 'r' then some '\r'
  else if c = 't' then some '\t'
  else none

/-- A character in front of what was read. -/
def prepend (c : Char) :
    Except Malformed (List Char × List Char) → Except Malformed (List Char × List Char)
  | .ok (cs, rest) => .ok (c :: cs, rest)
  | .error e => .error e

/-- The characters of a string, up to and without its closing quote. -/
def stringBody : List Char → Except Malformed (List Char × List Char)
  | [] => .error .unexpectedEnd
  | '\\' :: 'u' :: a :: b :: c :: d :: rest =>
    match unit? a b c d with
    | none => .error .invalidEscape
    | some unit =>
      if unit < 0xD800 ∨ 0xE000 ≤ unit then prepend (Char.ofNat unit) (stringBody rest)
      else if 0xDC00 ≤ unit then .error .loneSurrogate
      -- The first half of a pair; the second has to follow at once.
      else match rest with
        | '\\' :: 'u' :: e :: f :: g :: h :: rest =>
          match unit? e f g h with
          | none => .error .invalidEscape
          | some low =>
            if 0xDC00 ≤ low ∧ low < 0xE000 then
              let value := 0x10000 + (unit - 0xD800) * 0x400 + (low - 0xDC00)
              prepend (Char.ofNat value) (stringBody rest)
            else .error .loneSurrogate
        | _ => .error .loneSurrogate
  | '\\' :: c :: rest =>
    match letter? c with
    | some c => prepend c (stringBody rest)
    | none => .error .invalidEscape
  | c :: rest =>
    if c = '\x22' then .ok ([], rest)
    else if c = '\\' then .error .unexpectedEnd
    else if c < ' ' then .error .controlCharacter
    else prepend c (stringBody rest)

/-- The text of a string whose opening quote is read already. -/
def stringRest (cs : List Char) : Except Malformed (String × List Char) :=
  match stringBody cs with
  | .ok (body, rest) => .ok (String.ofList body, rest)
  | .error e => .error e

/-! ### Numbers -/

/-- Digits gathered into 64 bits: the number, how many digits it took, how many did not fit. -/
def gather : Nat → List Nat → Nat × Nat × Nat
  | n, [] => (n, 0, 0)
  | n, d :: ds =>
    if n * 10 + d < UInt64.size then
      let (n, taken, dropped) := gather (n * 10 + d) ds
      (n, taken + 1, dropped)
    else (n, 0, ds.length + 1)

/-- The largest power of ten that a double holds. -/
def powerLimit : Int := 308

/-- The double nearest to ten to the power of the size of `e`. -/
def powerOfTen (e : Int) : Float := Float.ofScientific 1 false e.natAbs

/-- A positive double times a power of ten, in steps of the largest power while it takes them. -/
def scale : Nat → Float → Int → Except Malformed Float
  | steps, x, e =>
    if e.natAbs ≤ powerLimit.natAbs then
      if 0 ≤ e then
        let y := x * powerOfTen e
        if y.isInf then .error .numberOutOfRange else .ok y
      else .ok (x / powerOfTen e)
    else if x == 0 then .ok x
    else if 0 ≤ e then .error .numberOutOfRange
    else match steps with
      | 0 => .ok 0
      | steps + 1 => scale steps (x / powerOfTen powerLimit) (e + powerLimit)

/-- The double `mantissa * 10 ^ exponent`. -/
def real (negative : Bool) (mantissa : Nat) (exponent : Int) : Except Malformed Number := do
  let x ← scale 4 mantissa.toUInt64.toFloat exponent
  return .real (Real64.ofFloat (if negative then -x else x))

/-- A number without fraction and exponent. -/
def whole (negative : Bool) (digits : List Nat) : Except Malformed Number :=
  let n := ofDigits 10 digits
  if n < UInt64.size then
    if !negative then .ok (.natural n)
    else if 0 < n ∧ Int64.minValue.toInt ≤ -n then .ok (.negative n)
    else .ok (.real (Real64.ofFloat (-n.toUInt64.toFloat)))
  else
    let (n, _, dropped) := gather 0 digits
    real negative n dropped

/-- The exponent behind `e`: a sign, if there is one, and digits. -/
def exponentPart (cs : List Char) : Except Malformed (Int × List Char) :=
  let (negative, cs) := match cs with
    | '+' :: rest => (false, rest)
    | '-' :: rest => (true, rest)
    | _ => (false, cs)
  match spanDigits digit10? cs with
  | ([], []) => .error .unexpectedEnd
  | ([], _) => .error .invalidNumber
  | (digits, rest) =>
    let n := ofDigits 10 digits
    .ok (if negative then -(n : Int) else n, rest)

/-- What follows the whole digits of a number. -/
def numberRest (negative : Bool) (digits : List Nat) (cs : List Char) :
    Except Malformed (Number × List Char) := do
  let (fraction, cs) ← match cs with
    | '.' :: rest =>
      match spanDigits digit10? rest with
      | ([], []) => .error .unexpectedEnd
      | ([], _) => .error .invalidNumber
      | (fraction, rest) => pure (some fraction, rest)
    | _ => pure (none, cs)
  let (exponent, cs) ← match cs with
    | 'e' :: rest | 'E' :: rest =>
      match exponentPart rest with
      | .ok (e, rest) => pure (some e, rest)
      | .error e => .error e
    | _ => pure (none, cs)
  if fraction = none ∧ exponent = none then
    let n ← whole negative digits
    return (n, cs)
  else
    -- A digit dropped before the point is a factor of ten, one taken behind it a divisor.
    let (n, _, dropped) := gather 0 digits
    let (n, taken, _) := gather n (fraction.getD [])
    let n ← real negative n (exponent.getD 0 + dropped - taken)
    return (n, cs)

/-- A number, from its sign or its first digit on. -/
def readNumber (cs : List Char) : Except Malformed (Number × List Char) :=
  let (negative, cs) := match cs with
    | '-' :: rest => (true, rest)
    | _ => (false, cs)
  match spanDigits digit10? cs with
  | ([], []) => .error .unexpectedEnd
  | ([], _) => .error .invalidNumber
  | (0 :: _ :: _, _) => .error .invalidNumber
  | (digits, rest) => numberRest negative digits rest

/-! ### Values -/

/-- A given word at the front. -/
def word (letters : List Char) (value : Json) (cs : List Char) :
    Except Malformed (Json × List Char) :=
  if letters.isPrefixOf cs then .ok (value, cs.drop letters.length)
  else if cs.isPrefixOf letters then .error .unexpectedEnd
  else .error .unexpectedCharacter

/-- The items of an array, from behind its bracket or a comma on. `fuel` bounds their number. -/
def arrayItems (item : List Char → Except Malformed (Json × List Char)) :
    Nat → List Char → Except Malformed (List Json × List Char)
  | 0, _ => .error .unexpectedEnd
  | fuel + 1, cs => do
    let (value, cs) ← item cs
    match skipGaps cs with
    | ',' :: rest =>
      match skipGaps rest with
      | ']' :: _ => .error .trailingComma
      | rest =>
        let (values, rest) ← arrayItems item fuel rest
        return (value :: values, rest)
    | ']' :: rest => return ([value], rest)
    | rest => .error (unexpected rest)

/-- The name of a member. -/
def readName (cs : List Char) : Except Malformed (String × List Char) :=
  match skipGaps cs with
  | '\x22' :: rest => stringRest rest
  | rest => .error (unexpected rest)

/-- The colon behind a name. -/
def readColon (cs : List Char) : Except Malformed (List Char) :=
  match skipGaps cs with
  | ':' :: rest => .ok rest
  | rest => .error (unexpected rest)

/-- The members of an object, from behind its brace or a comma on. `fuel` bounds their number. -/
def objectMembers (item : List Char → Except Malformed (Json × List Char)) :
    Nat → List Char → Except Malformed (List (String × Json) × List Char)
  | 0, _ => .error .unexpectedEnd
  | fuel + 1, cs => do
    let (name, cs) ← readName cs
    let cs ← readColon cs
    let (value, cs) ← item cs
    match skipGaps cs with
    | ',' :: rest =>
      match skipGaps rest with
      | '\x7d' :: _ => .error .trailingComma
      | rest =>
        let (members, rest) ← objectMembers item fuel rest
        return ((name, value) :: members, rest)
    | '\x7d' :: rest => return ([(name, value)], rest)
    | rest => .error (unexpected rest)

/-- A value, under `depth - 1` further levels of arrays and objects. -/
def readValue : Nat → List Char → Except Malformed (Json × List Char)
  | 0, _ => .error .tooDeep
  | depth + 1, cs =>
    match skipGaps cs with
    | [] => .error .unexpectedEnd
    | '\x22' :: rest => do
      let (text, rest) ← stringRest rest
      return (.string text, rest)
    | '[' :: rest =>
      if depth = 0 then .error .tooDeep
      else match skipGaps rest with
        | ']' :: rest => .ok (.array [], rest)
        | rest => do
          let (items, rest) ← arrayItems (readValue depth) (rest.length + 1) rest
          return (.array items, rest)
    | '\x7b' :: rest =>
      if depth = 0 then .error .tooDeep
      else match skipGaps rest with
        | '\x7d' :: rest => .ok (.object [], rest)
        | rest => do
          let (members, rest) ← objectMembers (readValue depth) (rest.length + 1) rest
          return (.object members, rest)
    | c :: rest =>
      if c = 'n' then word ['n', 'u', 'l', 'l'] .null (c :: rest)
      else if c = 't' then word ['t', 'r', 'u', 'e'] (.bool true) (c :: rest)
      else if c = 'f' then word ['f', 'a', 'l', 's', 'e'] (.bool false) (c :: rest)
      else if c = '-' ∨ (digit10? c).isSome then do
        let (n, rest) ← readNumber (c :: rest)
        return (.number n, rest)
      else .error .unexpectedCharacter

/-- Levels of arrays and objects are fewer than this. -/
def depthLimit : Nat := 128

/-- Nothing but white space is left. -/
def ended (cs : List Char) : Except Malformed Unit :=
  if (skipGaps cs).isEmpty then .ok () else .error .trailingCharacters

/-- The value that a text is. -/
def parse (text : String) : Except Malformed Json := do
  let (found, rest) ← readValue depthLimit text.toList
  ended rest
  return found

end EventBridge.Json
