import EventBridge.Text.Digits
import Mathlib.Algebra.Group.Nat.Defs

/-! # Reading back the digits of a number

  Addresses, trace lines and configurations write numbers in base 10, some in base 16, and their
  readers split the digits off again. What stands behind a number must not go on with digits.

  * `Numeral base n ds` says what the digits of a number are like, in any base.
  * `spanDigits_decimal` and `spanDigits_hexadecimal`: what a reader splits off is a numeral of the
    number that was written.
-/

namespace EventBridge.Text

variable {digit? : Char → Option Nat} {base n : Nat}

/-! ### Where digits end -/

/-- The characters do not begin with a digit. -/
def Stops (digit? : Char → Option Nat) (cs : List Char) : Prop := ∀ c ∈ cs.head?, digit? c = none

@[simp] theorem stops_nil : Stops digit? [] := by
  simp [Stops]

@[simp] theorem stops_cons (c : Char) (cs : List Char) :
    Stops digit? (c :: cs) ↔ digit? c = none := by
  simp [Stops]

/-- Digits that end are split off as they stand. -/
theorem spanDigits_append {text rest : List Char} {ds : List Nat}
    (h : text.map digit? = ds.map some) (hrest : Stops digit? rest) :
    spanDigits digit? (text ++ rest) = (ds, rest) := by
  induction text generalizing ds with
  | nil =>
    obtain rfl : ds = [] := by simpa using h.symm
    cases rest with
    | nil => rfl
    | cons c rest =>
      have hc : digit? c = none := by simpa using hrest
      simp [spanDigits, hc]
  | cons c text ih =>
    obtain ⟨d, ds, rfl⟩ : ∃ d ds', ds = d :: ds' := by
      cases ds with
      | nil => simp at h
      | cons d ds => exact ⟨d, ds, rfl⟩
    obtain ⟨hc, htext⟩ : digit? c = some d ∧ text.map digit? = ds.map some := by simpa using h
    simp [spanDigits, hc, ih htext]

/-- Without digits there is nothing to split off. -/
theorem spanDigits_of_stops {rest : List Char} (h : Stops digit? rest) :
    spanDigits digit? rest = ([], rest) := by
  show spanDigits digit? ([] ++ rest) = ([], rest)
  exact spanDigits_append rfl h

/-! ### Numerals -/

/-- The digits of a number: their value, no zero in front of others, and no more than needed. -/
structure Numeral (base n : Nat) (ds : List Nat) : Prop where
  value : ofDigits base ds = n
  ne_nil : ds ≠ []
  plain : ds.head? = some 0 → ds = [0]
  length_le : ∀ k, 0 < k → n < base ^ k → ds.length ≤ k

/-- The digits of a number are one digit, or more of them with no zero in front. -/
theorem Numeral.single_or_positive {ds : List Nat} (h : Numeral base n ds) :
    (∃ d, ds = [d]) ∨ ∃ d others, ds = (d + 1) :: others := by
  obtain ⟨d, others, rfl⟩ := List.exists_cons_of_ne_nil h.ne_nil
  by_cases hd : d = 0
  · subst hd
    exact .inl ⟨0, h.plain rfl⟩
  · exact .inr ⟨d - 1, others, by rw [Nat.sub_add_cancel (by omega)]⟩

/-- The digits of a reader are those of the numbers below a base. -/
def DigitsOf (base : Nat) (digit? : Char → Option Nat) : Prop :=
  ∀ d < base, digit? (Nat.digitChar d) = some d

theorem digitsOf_ten : DigitsOf 10 digit10? := by
  unfold DigitsOf
  decide

theorem digitsOf_sixteen : DigitsOf 16 digit16? := by
  unfold DigitsOf
  decide

theorem ofDigits_concat (base : Nat) (ds : List Nat) (d : Nat) :
    ofDigits base (ds ++ [d]) = ofDigits base ds * base + d := by
  simp [ofDigits]

/-- A reader finds a numeral in what is written of a number. -/
theorem numeral_toDigits (hbase : 1 < base) (hdigits : DigitsOf base digit?) (n : Nat) :
    ∃ ds, (Nat.toDigits base n).map digit? = ds.map some ∧ Numeral base n ds := by
  -- The digits come one by one from the end, so the induction is on the quotient.
  induction n using Nat.strongRecOn with
  | ind n ih =>
    by_cases hn : n < base
    · -- One digit.
      refine ⟨[n], by simp [Nat.toDigits_of_lt_base hn, hdigits n hn], ?_⟩
      constructor
      case value => simp [ofDigits]
      case ne_nil => simp
      case plain => simp
      case length_le => exact fun k hk _ => hk
    · -- The digits of the quotient, and one more.
      have hle : base ≤ n := Nat.not_lt.1 hn
      have hpos : 0 < n / base := Nat.div_pos hle (by omega)
      obtain ⟨ds, htext, hnumeral⟩ := ih (n / base) (Nat.div_lt_self (by omega) hbase)
      refine ⟨ds ++ [n % base], ?_, ?_⟩
      · rw [Nat.toDigits_of_base_le hbase hle]
        simp [htext, hdigits _ (Nat.mod_lt n (Nat.lt_of_succ_lt hbase))]
      constructor
      case value =>
        rw [ofDigits_concat, hnumeral.value, Nat.mul_comm]
        exact Nat.div_add_mod n base
      case ne_nil => simp
      case plain =>
        intro hhead
        -- A zero in front would be all that the quotient has.
        have hzero : ds = [0] := by
          refine hnumeral.plain ?_
          obtain ⟨d, ds, rfl⟩ := List.exists_cons_of_ne_nil hnumeral.ne_nil
          simpa using hhead
        have hvalue : ofDigits base [0] = n / base := hzero ▸ hnumeral.value
        simp [ofDigits] at hvalue
        omega
      case length_le =>
        intro k hk hlt
        obtain ⟨k, rfl⟩ : ∃ j, k = j + 1 := ⟨k - 1, by omega⟩
        have hquotient : n / base < base ^ k := by
          rw [Nat.pow_succ] at hlt
          exact Nat.div_lt_of_lt_mul (by rwa [Nat.mul_comm])
        -- The quotient is no zero, so there is room for a digit of it.
        have hk' : 0 < k := by
          rcases Nat.eq_zero_or_pos k with rfl | hk'
          · simp at hquotient
            omega
          · exact hk'
        have hlength := hnumeral.length_le k hk' hquotient
        simp only [List.length_append, List.length_singleton]
        omega

/-- A number begins with a digit. -/
theorem decimal_cons (n : Nat) : ∃ c cs, decimal n = c :: cs ∧ (digit10? c).isSome := by
  obtain ⟨ds, htext, hnumeral⟩ := numeral_toDigits (by decide) digitsOf_ten n
  obtain ⟨d, ds, rfl⟩ := List.exists_cons_of_ne_nil hnumeral.ne_nil
  obtain ⟨c, cs, hchars⟩ : ∃ c cs, decimal n = c :: cs := by
    refine List.exists_cons_of_ne_nil fun hnil => ?_
    rw [show Nat.toDigits 10 n = [] from hnil] at htext
    simp at htext
  refine ⟨c, cs, hchars, ?_⟩
  rw [show Nat.toDigits 10 n = c :: cs from hchars] at htext
  have hdigit : digit10? c = some d := by simpa using (List.cons.inj htext).1
  simp [hdigit]

/-- The digits of a number in base 10, before what does not go on with digits. -/
theorem spanDigits_decimal (n : Nat) {rest : List Char} (h : Stops digit10? rest) :
    ∃ ds, spanDigits digit10? (decimal n ++ rest) = (ds, rest) ∧ Numeral 10 n ds := by
  obtain ⟨ds, htext, hnumeral⟩ := numeral_toDigits (by decide) digitsOf_ten n
  exact ⟨ds, spanDigits_append htext h, hnumeral⟩

/-- The same in base 16. -/
theorem spanDigits_hexadecimal (n : Nat) {rest : List Char} (h : Stops digit16? rest) :
    ∃ ds, spanDigits digit16? (hexadecimal n ++ rest) = (ds, rest) ∧ Numeral 16 n ds := by
  obtain ⟨ds, htext, hnumeral⟩ := numeral_toDigits (by decide) digitsOf_sixteen n
  exact ⟨ds, spanDigits_append htext h, hnumeral⟩

end EventBridge.Text
