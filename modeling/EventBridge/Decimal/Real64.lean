/-! # Doubles as exact numbers

A 64-bit floating-point number is kept by its bits, so that two of them can be told apart and a
statement about one can be settled by arithmetic on natural numbers. `decode` gives the exact
value: a finite double is `mantissa * 2 ^ exponent`.

* Arithmetic, comparison and reading go through `toFloat` and `ofFloat`.
* `toInteger?` says when a double is a whole number of 64 bits.
-/

namespace EventBridge

/-- The power of two. -/
def twoTo (n : Nat) : Nat := Nat.pow 2 n

/-- The power of ten. -/
def tenTo (n : Nat) : Nat := Nat.pow 10 n

/-- Whether 64 bits with a sign hold an integer. -/
def fits64 (n : Int) : Bool := Int64.minValue.toInt ≤ n && n ≤ Int64.maxValue.toInt

/-- A 64-bit floating-point number, given by its bits. -/
structure Real64 where
  /-- Sign, eleven exponent bits and fifty-two fraction bits, high to low. -/
  bits : UInt64
  deriving DecidableEq, Repr, Inhabited

/-- The exact value of a double. -/
inductive Magnitude where
  /-- No number. -/
  | nan
  /-- Beyond every number. -/
  | infinite
  /-- The value `mantissa * 2 ^ exponent`. -/
  | finite (mantissa : Nat) (exponent : Int)
  deriving DecidableEq, Repr

namespace Real64

/-- A number of the machine, by its bits. -/
def ofFloat (x : Float) : Real64 := ⟨x.toBits⟩

/-- The number of the machine with these bits. -/
def toFloat (x : Real64) : Float := Float.ofBits x.bits

/-! ### Exact value -/

/-- Whether the sign is set, that of a zero or of what is no number included. -/
def isNegative (x : Real64) : Bool := decide (twoTo 63 ≤ x.bits.toNat)

/-- The eleven bits between sign and fraction. -/
def exponentField (x : Real64) : Nat := x.bits.toNat / twoTo 52 % twoTo 11

/-- The fifty-two low bits. -/
def fractionField (x : Real64) : Nat := x.bits.toNat % twoTo 52

/-- The value without its sign. -/
def decode (x : Real64) : Magnitude :=
  let e := x.exponentField
  let f := x.fractionField
  if e = 2047 then (if f = 0 then .infinite else .nan)
  else if e = 0 then .finite f (-1074)
  else .finite (twoTo 52 + f) ((e : Int) - 1075)

/-- Whether it is no number. -/
def isNaN (x : Real64) : Bool := x.decode == .nan

/-! ### Whole numbers -/

/-- The whole number a finite double stands for, if it is one. -/
def toWhole? (x : Real64) : Option Int :=
  match x.decode with
  | .finite m q =>
    let size : Option Nat :=
      if 0 ≤ q then some (m * twoTo q.toNat)
      else if m % twoTo (-q).toNat = 0 then some (m / twoTo (-q).toNat) else none
    size.map fun n => if x.isNegative then -(n : Int) else n
  | _ => none

/-- The 64-bit integer of the same value, if there is one. -/
def toInteger? (x : Real64) : Option Int64 :=
  match x.toWhole? with
  | some n => if fits64 n then some (Int64.ofInt n) else none
  | none => none

/-- The double nearest to an integer. -/
def ofInteger (n : Int64) : Real64 := ofFloat (Float.ofInt n.toInt)

/-! ### Reading -/

/-- The double nearest to `mantissa * 10 ^ exponent`; zero and infinity stand in at the ends of
the range, where the power itself would be out of all proportion. -/
def ofDecimal (negative : Bool) (mantissa : Nat) (exponent : Int) : Real64 :=
  let digits := mantissa.log2 / 3 + 1
  let size : Float :=
    if mantissa = 0 then 0
    else if 400 < exponent then Float.ofBits 0x7FF0000000000000
    else if exponent < -(400 + digits : Int) then 0
    else Float.ofScientific mantissa (decide (exponent < 0)) exponent.natAbs
  ofFloat (if negative then -size else size)

end Real64

end EventBridge
