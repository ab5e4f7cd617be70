import Mathlib.Data.Nat.Digits.Lemmas

/-! # Numerals in any base

A numeral has digits below its base, no zero in front, and a value. The digits that repeated division
takes off a number are its numeral backwards. An integer is written with a sign if it is negative.
-/

namespace Coding

/-- Digits, the first one the most significant. -/
structure Numeral (base : ℕ) (digits : List ℕ) (number : ℕ) : Prop where
  bounded : ∀ digit ∈ digits, digit < base
  some_digit : digits ≠ []
  no_leading_zero : digits.head? = some 0 → digits = [0]
  value : digits.foldl (fun value digit => value * base + digit) 0 = number

/-- A digit from `0` to `9` or from `A` on. -/
def digitByte (digit : ℕ) : UInt8 := UInt8.ofNat (if digit < 10 then 48 + digit else 55 + digit)

/-- A minus sign if there has to be one, and the numeral. -/
def IsNumeral (base : ℕ) (number : ℤ) (text : List UInt8) : Prop :=
  ∃ digits, Numeral base digits number.natAbs ∧
    text = (if number < 0 then [45] else []) ++ digits.map digitByte

variable {base number : ℕ}

theorem numeral_zero (base : ℕ) (positive : 0 < base) : Numeral base [0] 0 where
  bounded digit member := by
    obtain rfl := List.mem_singleton.mp member
    exact positive
  some_digit := by decide
  no_leading_zero _ := rfl
  value := by rw [List.foldl_cons, List.foldl_nil, Nat.zero_mul]

/-- What repeated division takes off, backwards. -/
theorem numeral_digits (large : 1 < base) (nonzero : number ≠ 0) :
    Numeral base (Nat.digits base number).reverse number where
  bounded digit member := Nat.digits_lt_base large (List.mem_reverse.mp member)
  some_digit := by
    rw [Ne, List.reverse_eq_nil_iff]
    exact Nat.digits_ne_nil_iff_ne_zero.mpr nonzero
  no_leading_zero leading := by
    rw [List.head?_reverse, List.getLast?_eq_some_getLast
      (Nat.digits_ne_nil_iff_ne_zero.mpr nonzero)] at leading
    exact absurd (Option.some.inj leading) (Nat.getLast_digit_ne_zero base nonzero)
  value := by
    rw [List.foldl_reverse]
    calc (Nat.digits base number).foldr (fun digit value => value * base + digit) 0
        = (Nat.digits base number).foldr (fun digit value => digit + base * value) 0 := by
          congr 1
          funext digit value
          rw [Nat.mul_comm, Nat.add_comm]
      _ = Nat.ofDigits base (Nat.digits base number) := (Nat.ofDigits_eq_foldr ..).symm
      _ = number := Nat.ofDigits_digits base number

end Coding
