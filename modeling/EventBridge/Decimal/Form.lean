import EventBridge.Decimal.Shortest

/-! # Writing doubles

A `Form` record holds the decisions of one written form: which decimal exponents are written
positionally, and how an exponent looks. `Form.render` writes digits by it.

* `Form.plain` never uses an exponent.
* `Form.short` and `Form.signed` turn to an exponent from `1e16` on, the one as `1e16`, the other
  as `1e+16`, and below `1e-4` and `1e-5`.
* `Form.general` is the form of numbers in script texts, which have fourteen digits at most.
-/

namespace EventBridge.Decimal

/-- The decisions of a written form. -/
structure Form where
  /-- The range of decimal exponents written positionally; `none` for all. -/
  positional : Option (Int × Int)
  /-- Whether an exponent that is not negative has a plus sign. -/
  plus : Bool
  /-- Digits of an exponent at least. -/
  width : Nat
  deriving Repr, DecidableEq

namespace Form

/-- Positional at any size. -/
def plain : Form := ⟨none, false, 1⟩

/-- Positional between `1e-4` and `1e16`, then `1e16`. -/
def short : Form := ⟨some (-4, 15), false, 1⟩

/-- Positional between `1e-5` and `1e16`, then `1e+16`. -/
def signed : Form := ⟨some (-5, 15), true, 2⟩

/-- Positional between `1e-4` and `1e14`, then `1e+14`. -/
def general : Form := ⟨some (-4, 13), true, 2⟩

end Form

/-- The digits of a number, high to low. -/
def digitChars (n : Nat) : List Char := Nat.toDigits 10 n

/-- Positional digits: a point stands where the exponent says, and `fill` follows a whole number. -/
def positionalChars (d : Digits) (fill : List Char) : List Char :=
  let cs := digitChars d.digits
  if 0 ≤ d.exponent then cs ++ List.replicate d.exponent.toNat '0' ++ fill
  else
    let places := (-d.exponent).toNat
    if places < cs.length then cs.take (cs.length - places) ++ '.' :: cs.drop (cs.length - places)
    else '0' :: '.' :: List.replicate (places - cs.length) '0' ++ cs

/-- One digit, the others behind a point, and the exponent. -/
def scientificChars (style : Form) (d : Digits) : List Char :=
  let cs := digitChars d.digits
  let e := d.exponent + ((cs.length : Int) - 1)
  let sign := if e < 0 then ['-'] else if style.plus then ['+'] else []
  let size := digitChars e.natAbs
  let size := List.replicate (style.width - size.length) '0' ++ size
  let fraction := if cs.length ≤ 1 then [] else '.' :: cs.drop 1
  cs.take 1 ++ fraction ++ 'e' :: sign ++ size

/-- Digits in a written form. -/
def Form.render (style : Form) (fill : List Char) (d : Digits) : List Char :=
  let e := d.exponent + ((digitCount d.digits : Int) - 1)
  match style.positional with
  | none => positionalChars d fill
  | some (low, high) =>
    if d.digits = 0 ∨ (low ≤ e ∧ e ≤ high) then positionalChars d fill
    else scientificChars style d

/-- The words for what is no finite number. -/
structure Specials where
  nan : String
  infinity : String

/-- The text of a double, by its digits and a written form; a whole number ends in `.0`. -/
def text (style : Form) (specials : Specials) (digits : Nat → Int → Digits) (x : Real64) :
    String :=
  let sign := if x.isNegative then "-" else ""
  match x.decode with
  | .nan => specials.nan
  | .infinite => sign ++ specials.infinity
  | .finite m q => sign ++ String.ofList (style.render ['.', '0'] (digits m q))

/-- The shortest text that reads back, with an exponent as `1e16`. -/
def shortText : Real64 → String := text .short ⟨"NaN", "inf"⟩ shortest

/-- The shortest text that reads back, with an exponent as `1e+16`. -/
def signedText : Real64 → String := text .signed ⟨"NaN", "inf"⟩ shortest

/-- The shortest text that reads back, without exponent. -/
def plainText : Real64 → String := text .plain ⟨"NaN", "inf"⟩ shortest

/-- The text of a number in a script: fourteen digits at most, a whole number with `.0`. -/
def scriptText : Real64 → String :=
  text .general ⟨"nan", "inf"⟩ fun m q => (rounded 14 m q).strip 20

end EventBridge.Decimal
