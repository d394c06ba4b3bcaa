/-! # Digits

Values of digit characters and of runs of them, shared by the readers of numbers.

* `spanDigits` splits off the digits at the front: nothing is lost, and what is left does not start
  with a digit.
-/

namespace EventBridge.Text

/-- The value of a digit of base 10. -/
def digit10? (c : Char) : Option Nat :=
  if '0' ≤ c ∧ c ≤ '9' then some (c.toNat - 48) else none

/-- The value of a digit of base 16, of either case. -/
def digit16? (c : Char) : Option Nat :=
  if '0' ≤ c ∧ c ≤ '9' then some (c.toNat - 48)
  else if 'a' ≤ c ∧ c ≤ 'f' then some (c.toNat - 87)
  else if 'A' ≤ c ∧ c ≤ 'F' then some (c.toNat - 55)
  else none

/-- The values of the digits at the front, and the rest. -/
def spanDigits (digit? : Char → Option Nat) : List Char → List Nat × List Char
  | [] => ([], [])
  | c :: rest =>
    match digit? c with
    | some d =>
      let (ds, rest) := spanDigits digit? rest
      (d :: ds, rest)
    | none => ([], c :: rest)

/-- The number that digits of a base stand for. -/
def ofDigits (base : Nat) (digits : List Nat) : Nat :=
  digits.foldl (fun n d => n * base + d) 0

/-- The digits of a number in base 10. -/
def decimal (n : Nat) : List Char := Nat.toDigits 10 n

/-- The digits of a number in base 16, in lower case. -/
def hexadecimal (n : Nat) : List Char := Nat.toDigits 16 n

/-! ### Small facts -/

/-- The digits split off and the rest are as long as the whole. -/
theorem length_spanDigits (digit? : Char → Option Nat) (cs : List Char) :
    (spanDigits digit? cs).1.length + (spanDigits digit? cs).2.length = cs.length := by
  induction cs with
  | nil => rfl
  | cons c rest ih =>
    unfold spanDigits
    split
    · simp only [List.length_cons]
      omega
    · simp

/-- The rest does not start with a digit. -/
theorem spanDigits_rest (digit? : Char → Option Nat) (cs rest : List Char) (c : Char)
    (h : (spanDigits digit? cs).2 = c :: rest) : digit? c = none := by
  induction cs with
  | nil => simp [spanDigits] at h
  | cons d ds ih =>
    unfold spanDigits at h
    split at h
    · exact ih h
    · simp_all

end EventBridge.Text
