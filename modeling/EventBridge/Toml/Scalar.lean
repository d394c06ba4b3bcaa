import EventBridge.Toml.Basic
import EventBridge.Text.Digits

/-! # Numbers, dates and times

The values that start with a digit or a sign. Each reader returns `none` where the characters are
not of its kind, so that another kind can be tried.

* Digits may be grouped by single underscores between them.
* Integers have 64 bits; a number too great for a double is refused.
* Of dates and times only the form is read, and that each part is in its range.
-/

namespace EventBridge.Toml

open Text (digit10? digit16? spanDigits ofDigits)

/-! ### Numbers -/

/-- The value of a digit of base 2. -/
def digit2? (c : Char) : Option Nat := if c = '0' then some 0 else if c = '1' then some 1 else none

/-- The value of a digit of base 8. -/
def digit8? (c : Char) : Option Nat := (digit10? c).filter (· < 8)

/-- Digits of a base behind a first one, grouped by underscores. -/
def moreDigits (digit? : Char → Option Nat) : List Char → Option (List Nat × List Char)
  | [] => some ([], [])
  | '_' :: c :: rest =>
    match digit? c with
    | some d => (moreDigits digit? rest).map fun (ds, rest) => (d :: ds, rest)
    | none => none
  | c :: rest =>
    match digit? c with
    | some d => (moreDigits digit? rest).map fun (ds, rest) => (d :: ds, rest)
    | none => if c = '_' then none else some ([], c :: rest)

/-- Digits of a base, grouped by underscores. -/
def grouped (digit? : Char → Option Nat) : List Char → Option (List Nat × List Char)
  | [] => none
  | c :: rest => do
    let d ← digit? c
    let (ds, rest) ← moreDigits digit? rest
    return (d :: ds, rest)

/-- Whole digits of base 10: a zero stands alone. -/
def wholeDigits (cs : List Char) : Option (List Nat × List Char) :=
  match cs with
  | '0' :: rest => some ([0], rest)
  | _ => grouped digit10? cs

/-- The sign at the front: whether it is a minus, and the rest. -/
def signed : List Char → Bool × List Char
  | '-' :: rest => (true, rest)
  | '+' :: rest => (false, rest)
  | cs => (false, cs)

/-- An integer of 64 bits. -/
def inRange (n : Int) : Option Int :=
  if fits64 n then some n else none

/-- An integer of a base, which has no sign. -/
def based (base : Nat) (digit? : Char → Option Nat) (cs : List Char) :
    Option (Int × List Char) := do
  let (digits, rest) ← grouped digit? cs
  let n ← inRange (ofDigits base digits)
  return (n, rest)

/-- An integer. -/
def integer (cs : List Char) : Option (Int × List Char) :=
  match cs with
  | '0' :: 'x' :: rest => based 16 digit16? rest
  | '0' :: 'o' :: rest => based 8 digit8? rest
  | '0' :: 'b' :: rest => based 2 digit2? rest
  | _ => do
    let (negative, rest) := signed cs
    let (digits, rest) ← wholeDigits rest
    let n : Int := ofDigits 10 digits
    let n ← inRange (if negative then -n else n)
    return (n, rest)

/-- The exponent of a float, without its letter. -/
def exponent (cs : List Char) : Option (Int × List Char) := do
  let (negative, rest) := signed cs
  let (digits, rest) ← grouped digit10? rest
  let n : Int := ofDigits 10 digits
  return (if negative then -n else n, rest)

/-- The words for what is no finite number. -/
def special (negative : Bool) : List Char → Option (Real64 × List Char)
  | 'i' :: 'n' :: 'f' :: rest =>
    some (⟨if negative then 0xFFF0000000000000 else 0x7FF0000000000000⟩, rest)
  | 'n' :: 'a' :: 'n' :: rest =>
    some (⟨if negative then 0xFFF8000000000000 else 0x7FF8000000000000⟩, rest)
  | _ => none

/-- A float: a fraction, an exponent or both behind the whole digits. -/
def float (cs : List Char) : Option (Real64 × List Char) := do
  let (negative, cs) := signed cs
  if let some found := special negative cs then return found
  let (digits, cs) ← wholeDigits cs
  let (fraction, cs) ← match cs with
    | '.' :: rest => grouped digit10? rest
    | _ => some ([], cs)
  let (power, rest) ← match cs with
    | 'e' :: rest | 'E' :: rest => exponent rest
    | _ => if fraction.isEmpty then none else some (0, cs)
  let places := fraction.length
  let value := Real64.ofDecimal negative (ofDigits 10 (digits ++ fraction)) (power - places)
  -- Below the range a number becomes infinite, above it there is none.
  if value.decode = .infinite ∧ !negative then none else return (value, rest)

/-! ### Dates and times -/

/-- So many digits. -/
def exactly (count : Nat) (cs : List Char) : Option (Nat × List Char) :=
  let (digits, _) := spanDigits digit10? (cs.take count)
  if digits.length = count then some (ofDigits 10 digits, cs.drop count) else none

/-- A given character. -/
def expect (c : Char) : List Char → Option (List Char)
  | d :: rest => if d = c then some rest else none
  | [] => none

/-- Two digits in a range. -/
def part (low high : Nat) (cs : List Char) : Option (Nat × List Char) := do
  let (n, rest) ← exactly 2 cs
  if low ≤ n ∧ n ≤ high then return (n, rest) else none

/-- The days of a month. -/
def daysIn (year month : Nat) : Nat :=
  if month = 2 then
    if year % 4 = 0 ∧ (year % 100 ≠ 0 ∨ year % 400 = 0) then 29 else 28
  else if month ∈ [4, 6, 9, 11] then 30 else 31

/-- The characters behind a date. -/
def date? (cs : List Char) : Option (List Char) := do
  let (year, cs) ← exactly 4 cs
  let cs ← expect '-' cs
  let (month, cs) ← part 1 12 cs
  let cs ← expect '-' cs
  let (_, cs) ← part 1 (daysIn year month) cs
  return cs

/-- The characters behind a time of day. -/
def time? (cs : List Char) : Option (List Char) := do
  let (_, cs) ← part 0 23 cs
  let cs ← expect ':' cs
  let (_, cs) ← part 0 59 cs
  let cs ← expect ':' cs
  let (_, cs) ← part 0 60 cs
  match cs with
  | '.' :: rest =>
    match spanDigits digit10? rest with
    | ([], _) => return cs
    | (_, rest) => return rest
  | _ => return cs

/-- The characters behind an offset from universal time. -/
def offset? : List Char → Option (List Char)
  | 'Z' :: rest | 'z' :: rest => some rest
  | '+' :: rest | '-' :: rest => do
    let (_, cs) ← part 0 23 rest
    let cs ← expect ':' cs
    let (_, cs) ← part 0 59 cs
    return cs
  | _ => none

/-- The characters behind a date, a date with a time, or a time. -/
def dateTime? (cs : List Char) : Option (List Char) :=
  match date? cs with
  | none => time? cs
  | some rest =>
    -- A blank behind a date may also end the value.
    let timed? : Option (List Char) := match rest with
      | 'T' :: rest | 't' :: rest | ' ' :: rest => time? rest
      | _ => none
    match timed? with
    | none => some rest
    | some timed => some ((offset? timed).getD timed)

end EventBridge.Toml
