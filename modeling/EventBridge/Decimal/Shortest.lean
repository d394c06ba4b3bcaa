import EventBridge.Decimal.Real64

/-! # Decimal digits of a double

Two ways to write an exact binary value in decimal.

* `shortest`: the fewest digits that only this double is nearest to, and of those the nearest to
  the value. On the grid of `n` digits the two neighbours of the value are tested, for `n` from 1
  to 17; if a point of a grid reads back as the double, one of these two does.
* `rounded`: a fixed count of digits, a half going to the even neighbour.

All comparisons are between natural numbers; nothing is approximated.
-/

namespace EventBridge.Decimal

/-- The decimal `digits * 10 ^ exponent`. -/
structure Digits where
  digits : Nat
  exponent : Int
  deriving DecidableEq, Repr

/-- Moves zeros at the end of the digits into the exponent, at most `fuel` of them. -/
def Digits.strip : Nat → Digits → Digits
  | 0, d => d
  | fuel + 1, d =>
    if d.digits ≠ 0 ∧ d.digits % 10 = 0 then
      Digits.strip fuel ⟨d.digits / 10, d.exponent + 1⟩
    else d

/-- How many digits a positive number has. -/
def digitCount (n : Nat) : Nat := (Nat.toDigits 10 n).length

/-! ### The size of a value -/

/-- Whether `10 ^ e ≤ m * 2 ^ q`. -/
def powerLe (e : Int) (m : Nat) (q : Int) : Bool :=
  tenTo e.toNat * twoTo (-q).toNat ≤ m * twoTo q.toNat * tenTo (-e).toNat

/-- The greatest `e` with `10 ^ e ≤ m * 2 ^ q`, for a positive `m`. An estimate from the count of
bits is off by one at most. -/
def magnitude (m : Nat) (q : Int) : Int :=
  let estimate := ((m.log2 : Int) + q) * 30103 / 100000
  if powerLe (estimate + 1) m q then estimate + 1
  else if powerLe estimate m q then estimate
  else estimate - 1

/-- Two factors that carry both `x * 2 ^ q` and `d * 10 ^ k` to whole numbers of one scale. -/
def scales (q k : Int) : Nat × Nat :=
  (twoTo q.toNat * tenTo (-k).toNat, twoTo (-q).toNat * tenTo k.toNat)

/-! ### Fewest digits -/

/-- The neighbour of the value on the grid of `count` digits that reads back as the value, the
nearer one if both do. -/
def onGrid (m : Nat) (q e : Int) (count : Nat) : Option Digits :=
  let k := e - ((count : Int) - 1)
  -- In quarters of the last binary place the ends of the interval are whole numbers.
  let (a, b) := scales (q - 2) k
  let value := 4 * m * a
  let high := (4 * m + 2) * a
  -- Below a power of two the doubles lie half as far apart.
  let low := (if m = twoTo 52 ∧ q ≠ -1074 then 4 * m - 1 else 4 * m - 2) * a
  -- An end of the interval reads back as the even neighbour.
  let inside (d : Nat) : Bool :=
    if m % 2 = 0 then decide (low ≤ d * b ∧ d * b ≤ high) else decide (low < d * b ∧ d * b < high)
  let below := value / b
  let above := below + 1
  let nearerBelow := value - below * b < above * b - value
    ∨ (value - below * b = above * b - value ∧ below % 2 = 0)
  if inside below ∧ (nearerBelow ∨ ¬ inside above) then some ⟨below, k⟩
  else if inside above then some ⟨above, k⟩
  else none

/-- The shortest digits of `m * 2 ^ q`, without zeros at the end; `0` for zero. -/
def shortest (m : Nat) (q : Int) : Digits :=
  if m = 0 then ⟨0, 0⟩
  else
    let e := magnitude m q
    let found := (List.range 17).findSome? fun i => onGrid m q e (i + 1)
    (found.getD ⟨m, q⟩).strip 20

/-! ### A fixed count of digits -/

/-- The value `m * 2 ^ q` to `count` digits, a half to even; `0` for zero. -/
def rounded (count m : Nat) (q : Int) : Digits :=
  if m = 0 then ⟨0, 0⟩
  else
    let k := magnitude m q - ((count : Int) - 1)
    let (a, b) := scales q k
    let value := m * a
    let below := value / b
    let twice := 2 * (value % b)
    let d := if twice < b ∨ (twice = b ∧ below % 2 = 0) then below else below + 1
    ⟨d, k⟩

end EventBridge.Decimal
