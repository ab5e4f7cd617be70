import Mathlib.Tactic.Ring
import ShuangFa.Coding.Format

/-! # Numbers of the JSON library

`parse_number` reads a text as a `double`, with a fraction and an exponent if there are any, and turns
that into an `int`. The arithmetic of `double` is a parameter. The text is a list; behind its end is
the zero that ends it.
-/

namespace ShuangFa

/-- The arithmetic of `double`: whole numbers are exact up to `2 ^ 53`. A `double` outside the range of
an `int` has none. -/
structure DoubleArithmetic where
  Double : Type
  ofInt : ℤ → Double
  add : Double → Double → Double
  mul : Double → Double → Double
  pow : Double → Double → Double
  toInt : Double → Option Int32
  add_ofInt (first second : ℕ) (small : first + second ≤ 2 ^ 53) :
    add (ofInt first) (ofInt second) = ofInt (first + second : ℕ)
  mul_ofInt (first second : ℕ)
    (small : first ≤ 2 ^ 53 ∧ second ≤ 2 ^ 53 ∧ first * second ≤ 2 ^ 53) :
    mul (ofInt first) (ofInt second) = ofInt (first * second : ℕ)
  pow_zero (base : Double) : pow base (ofInt 0) = ofInt 1
  toInt_ofInt (number : ℕ) (small : number < 2 ^ 31) : toInt (ofInt number) = some (.ofNat number)

/-- What `parse_number` stores in its item, and what it returns. -/
structure ParsedNumber (Double : Type) where
  valuedouble : Double
  valueint : Int32
  num : List UInt8

variable (d : DoubleArithmetic)

namespace ParseNumber

def isDigit (byte : UInt8) : Bool := 48 ≤ byte ∧ byte ≤ 57

/-- `(n*10.0)+(*num++ -'0')` -/
def nextDigit (n : d.Double) (byte : UInt8) : d.Double :=
  d.add (d.mul n (d.ofInt 10)) (d.ofInt (byte.toNat - 48))

/-- The loop over the digits in front. -/
def numberLoop (n : d.Double) : List UInt8 → d.Double × List UInt8
  | [] => (n, [])
  | byte :: num => if isDigit byte then numberLoop (nextDigit d n byte) num else (n, byte :: num)

/-- The digits in front; the first one is no zero. -/
def number (num : List UInt8) : d.Double × List UInt8 :=
  if num.head?.any fun byte => 49 ≤ byte ∧ byte ≤ 57 then numberLoop d (d.ofInt 0) num
  else (d.ofInt 0, num)

/-- The loop over the digits of a fraction, which counts `scale` down. -/
def fractionLoop (n scale : d.Double) : List UInt8 → d.Double × d.Double × List UInt8
  | [] => (n, scale, [])
  | byte :: num =>
    if isDigit byte then fractionLoop (nextDigit d n byte) (d.add scale (d.ofInt (-1))) num
    else (n, scale, byte :: num)

/-- A point with a digit behind it starts a fraction. -/
def fraction (n : d.Double) (num : List UInt8) : d.Double × d.Double × List UInt8 :=
  if num.head? = some 46 ∧ num.tail.head?.any isDigit then fractionLoop d n (d.ofInt 0) num.tail
  else (n, d.ofInt 0, num)

/-- The loop over the digits of an exponent, with `subscale`, which is an `int`. -/
def exponentLoop (subscale : ℤ) : List UInt8 → Option (ℤ × List UInt8)
  | [] => some (subscale, [])
  | byte :: num =>
    if isDigit byte then
      let next := subscale * 10 + (byte.toNat - 48)
      if next < 2 ^ 31 then exponentLoop next num else none
    else some (subscale, byte :: num)

/-- `subscale*signsubscale` -/
def exponent (num : List UInt8) : Option (ℤ × List UInt8) :=
  if num.head? = some 101 ∨ num.head? = some 69 then
    match num.tail with
    | 43 :: num => exponentLoop 0 num
    | 45 :: num => (exponentLoop 0 num).map fun (subscale, num) => (subscale * -1, num)
    | num => exponentLoop 0 num
  else some (0, num)

end ParseNumber

open ParseNumber

/-- `parse_number` -/
def parseNumber (num : List UInt8) : Option (ParsedNumber d.Double) := do
  let sign := if num.head? = some 45 then d.ofInt (-1) else d.ofInt 1
  let num := if num.head? = some 45 then num.tail else num
  let num := if num.head? = some 48 then num.tail else num
  let (n, num) := number d num
  let (n, scale, num) := fraction d n num
  let (subscale, num) ← exponent num
  let valuedouble := d.mul (d.mul sign n) (d.pow (d.ofInt 10) (d.add scale (d.ofInt subscale)))
  let valueint ← d.toInt valuedouble
  pure ⟨valuedouble, valueint, num⟩

/-- `str2int` -/
def str2int (pStr : List UInt8) : Option Int32 := (parseNumber d pStr).map ParsedNumber.valueint

end ShuangFa
