import EventBridge.Script.Value
import EventBridge.Text.Digits

/-! # Numbers of scripts

A string can stand for a number in an addition: white space around it, a sign, and decimal or
hexadecimal digits, with a fraction and an exponent if it is to be a float.

* A decimal integer too great for 64 bits is a float; a hexadecimal one wraps around.
* `Value.plus?` adds integers modulo `2 ^ 64`, and all others as floats.
-/

namespace EventBridge.Script

open Text (digit10? digit16? spanDigits ofDigits)

/-- The bytes that count as white space around a number. -/
def isSpaceByte (byte : UInt8) : Bool := byte == 32 || (9 ≤ byte && byte ≤ 13)

/-- An exponent behind its letter. -/
def exponentOf (cs : List Char) : Option Int :=
  let (negative, cs) := match cs with
    | '-' :: rest => (true, rest)
    | '+' :: rest => (false, rest)
    | _ => (false, cs)
  match spanDigits digit10? cs with
  | ([], _) => none
  | (ds, []) => some (if negative then -(ofDigits 10 ds : Int) else ofDigits 10 ds)
  | _ => none

/-- Digits of a base with a fraction: the number without the point, and the fraction's length. -/
def mantissaOf (base : Nat) (digit? : Char → Option Nat) (cs : List Char) :
    Option (Nat × Nat × Bool × List Char) :=
  let (whole, rest) := spanDigits digit? cs
  match rest with
  | '.' :: rest =>
    let (fraction, rest) := spanDigits digit? rest
    if whole.isEmpty && fraction.isEmpty then none
    else some (ofDigits base (whole ++ fraction), fraction.length, true, rest)
  | rest => if whole.isEmpty then none else some (ofDigits base whole, 0, false, rest)

/-- A number in base 16. -/
def hexadecimalNumber (negative : Bool) (cs : List Char) : Option Value := do
  let (n, places, point, rest) ← mantissaOf 16 digit16? cs
  let power (e : Int) : Value :=
    let x := (Float.ofNat n).scaleB (e - 4 * places)
    .float (Real64.ofFloat (if negative then -x else x))
  match rest with
  | [] =>
    if point then return power 0
    else
      let value := Int64.ofInt n
      return .integer (if negative then -value else value)
  | c :: rest => if c = 'p' ∨ c = 'P' then return power (← exponentOf rest) else none

/-- A number in base 10. -/
def decimalNumber (negative : Bool) (cs : List Char) : Option Value := do
  let (n, places, point, rest) ← mantissaOf 10 digit10? cs
  let float (e : Int) : Value := .float (Real64.ofDecimal negative n (e - places))
  match rest with
  | [] =>
    let value : Int := if negative then -(n : Int) else n
    if !point && fits64 value then
      return .integer (Int64.ofInt value)
    else return float 0
  | c :: rest => if c = 'e' ∨ c = 'E' then return float (← exponentOf rest) else none

/-- The number that a string stands for. -/
def numberOf? (bytes : ByteArray) : Option Value :=
  let bytes := bytes.data.toList.dropWhile isSpaceByte
  let bytes := (bytes.reverse.dropWhile isSpaceByte).reverse
  let cs := bytes.map fun byte => Char.ofNat byte.toNat
  let (negative, cs) := match cs with
    | '-' :: rest => (true, rest)
    | '+' :: rest => (false, rest)
    | _ => (false, cs)
  match cs with
  | '0' :: 'x' :: rest | '0' :: 'X' :: rest => hexadecimalNumber negative rest
  | _ => decimalNumber negative cs

namespace Value

/-- A value as a number of an addition. -/
def toNumber? : Value → Option Value
  | .integer n => some (.integer n)
  | .float x => some (.float x)
  | .string bytes => numberOf? bytes
  | _ => none

/-- A number as a float. -/
def toReal : Value → Real64
  | .integer n => Real64.ofInteger n
  | .float x => x
  | _ => ⟨0⟩

/-- The sum of two values, if both are numbers or stand for some. -/
def plus? (a b : Value) : Option Value :=
  match a.toNumber?, b.toNumber? with
  | some (.integer m), some (.integer n) => some (.integer (m + n))
  | some x, some y => some (.float (Real64.ofFloat (x.toReal.toFloat + y.toReal.toFloat)))
  | _, _ => none

/-- Whether a value is a string. -/
def isString : Value → Bool
  | .string _ => true
  | _ => false

/-- Whether a value is a number. -/
def isNumber : Value → Bool
  | .integer _ | .float _ => true
  | _ => false

/-- Why two values have no sum. -/
def plusError (a b : Value) : String :=
  if a.isString ∨ b.isString then
    "attempt to add a '" ++ a.typeName ++ "' with a '" ++ b.typeName ++ "'"
  else
    "attempt to perform arithmetic on a " ++ (if a.isNumber then b else a).objectName ++ " value"

/-- The text of a string or a number. -/
def chunk? : Value → Option ByteArray
  | .string bytes => some bytes
  | .integer n => some (toString n.toInt).toUTF8
  | .float x => some (Decimal.scriptText x).toUTF8
  | _ => none

end Value

end EventBridge.Script
