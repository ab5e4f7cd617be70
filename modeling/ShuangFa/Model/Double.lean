import Mathlib.Data.Int.Log
import Mathlib.Data.Rat.Floor
import ShuangFa.Coding.Format
import ShuangFa.Floating.Binary64

/-! # Doubles of C

A conversion to `int` drops the fraction, and `sprintf` rounds the value of a double to the digits that
it writes, to the even one where two are as near. What is no number and what is infinite have words.
-/

namespace ShuangFa

open Coding Floating Float.Model Float.Model.UnpackedFloat

/-- `(double)` -/
def double (number : ℤ) : Float := .ofModel (.ofInt number)

/-- `(int)`, which is not defined where the whole part has no `int`. -/
def truncate? (d : Float) : Option Int32 :=
  match d.toModel.unpack with
  | .notANumber | .infinity _ => none
  | x =>
    let whole := x.toInt 0 0
    if -2 ^ 31 ≤ whole ∧ whole < 2 ^ 31 then some (.ofInt whole) else none

/-- `floor`; a number with an exponent that is not negative is whole. -/
def floor (d : Float) : Float :=
  match d.toModel.unpack with
  | .finite s mantissa (.negSucc count) _ => double (s.apply mantissa / 2 ^ (count + 1))
  | _ => d

/-- `DBL_EPSILON` -/
def dblEpsilon : Float := 2.2204460492503131e-16

section WholeNumbers

variable {first second number : ℤ}

theorem exact_double (small : number.natAbs ≤ 2 ^ 53) : Exact (double number) number :=
  exact_ofInt small

/-- A sum of whole numbers is exact. -/
theorem double_add (first second : ℤ) (left : first.natAbs ≤ 2 ^ 53) (right : second.natAbs ≤ 2 ^ 53)
    (sum : (first + second).natAbs ≤ 2 ^ 53) : double first + double second = double (first + second) := by
  have exact := exact_double sum
  rw [Int.cast_add] at exact
  exact (exact_double left).add (exact_double right) exact

/-- A product of whole numbers is exact, but for the sign of a zero. -/
theorem double_mul (first second : ℤ) (left : first.natAbs ≤ 2 ^ 53) (right : second.natAbs ≤ 2 ^ 53)
    (product : (first * second).natAbs ≤ 2 ^ 53)
    (signs : first ≠ 0 ∧ second ≠ 0 ∨ 0 ≤ first ∧ 0 ≤ second) :
    double first * double second = double (first * second) := by
  have exact := exact_double product
  rw [Int.cast_mul] at exact
  refine (exact_double left).mul (exact_double right) ?_ exact
  exact signs.imp (And.imp Int.cast_ne_zero.mpr Int.cast_ne_zero.mpr)
    (And.imp Int.cast_nonneg Int.cast_nonneg)

/-- An `int` comes back from its double. -/
theorem truncate?_double (low : -2 ^ 31 ≤ number) (high : number < 2 ^ 31) :
    truncate? (double number) = some (.ofInt number) := by
  have keeps := (@exact_double number (by omega)).unpack
  have whole := toInt_of_keeps keeps 0 0
  rw [truncate?]
  revert keeps whole
  generalize (double number).toModel.unpack = x
  intro keeps whole
  cases keeps with
  | zero same =>
    dsimp only
    rw [whole, if_pos ⟨low, high⟩]
  | finite normal same =>
    dsimp only
    rw [whole, if_pos ⟨low, high⟩]

end WholeNumbers

section Printing

/-- The nearest whole number. -/
def nearest (value : ℚ) : ℕ :=
  let whole := ⌊value⌋₊
  if value - whole < 1 / 2 ∨ value - whole = 1 / 2 ∧ whole % 2 = 0 then whole else whole + 1

/-- As many digits of a number, from its end. -/
def lastDigits (count number : ℕ) : List UInt8 :=
  ((List.range count).map fun i => UInt8.ofNat (48 + number / 10 ^ i % 10)).reverse

/-- `%.0f` -/
def printWhole (magnitude : ℚ) : List UInt8 := decimal (nearest magnitude)

/-- `%f`, which is `%.6f`. -/
def printFixed (magnitude : ℚ) : List UInt8 :=
  let scaled := nearest (magnitude * 10 ^ 6)
  decimal (scaled / 10 ^ 6) ++ 46 :: lastDigits 6 scaled

/-- The exponent of `%e` has two digits at least. -/
def printExponent (exponent : ℤ) : List UInt8 :=
  101 :: (if exponent < 0 then 45 else 43) ::
    ((if exponent.natAbs < 10 then [48] else []) ++ decimal exponent.natAbs)

/-- `%e`, which has six digits behind the point; a number that is rounded up to the next power of ten
has its exponent raised. -/
def printScientific (magnitude : ℚ) : List UInt8 :=
  let exponent := Int.log 10 magnitude
  let scaled := nearest (magnitude * 10 ^ (6 - exponent))
  if scaled = 10 ^ 7 then 49 :: 46 :: (lastDigits 6 0 ++ printExponent (exponent + 1))
  else decimal (scaled / 10 ^ 6) ++ 46 :: (lastDigits 6 scaled ++ printExponent exponent)

/-- The minus of a number. -/
def printSign : Sign → List UInt8
  | .negative => [45]
  | .positive => []

/-- `sprintf` of a double, with a conversion. -/
def sprintfDouble (conversion : ℚ → List UInt8) (d : Float) : List UInt8 :=
  match d.toModel.unpack with
  | .notANumber => ascii "nan".toList
  | .infinity s => printSign s ++ ascii "inf".toList
  | .zero s => printSign s ++ conversion 0
  | .finite s mantissa e _ => printSign s ++ conversion (mantissa * 2 ^ e)

end Printing

end ShuangFa
