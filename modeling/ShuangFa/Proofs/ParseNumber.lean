import Mathlib.Data.List.TakeWhile
import ShuangFa.Model.ParseNumber

/-! # Reading numbers

The loops of `parse_number` take digits up to a byte that is none. Whole numbers are read exactly; of a
fraction the digits are counted, and an exponent is read only if it is an `int`.
-/

namespace ShuangFa

open Coding ParseNumber

/-- A byte that `parse_number` goes on with behind a digit. -/
def continuesNumber (byte : UInt8) : Bool := isDigit byte ∨ byte = 46 ∨ byte = 101 ∨ byte = 69

variable {d : DoubleArithmetic} {behind digits : List UInt8} {port : ℕ}

section Decimals

/-- A number has a digit, and no zero in front unless it is zero. -/
theorem decimal_cons (positive : 0 < port) :
    ∃ first rest, decimal port = first :: rest ∧ 49 ≤ first ∧ first ≤ 57 := by
  induction port using Nat.strong_induction_on with
  | h port ih =>
    rcases Nat.lt_or_ge port 10 with small | large
    · have digits : ∀ digit < 10, 0 < digit → decimal digit = [UInt8.ofNat (48 + digit)] ∧
          49 ≤ UInt8.ofNat (48 + digit) ∧ UInt8.ofNat (48 + digit) ≤ 57 := by decide
      obtain ⟨digit, low, high⟩ := digits port small positive
      exact ⟨_, [], digit, low, high⟩
    · obtain ⟨first, rest, digits, low, high⟩ := ih (port / 10) (by omega) (by omega)
      refine ⟨first, rest ++ ascii [(port % 10).digitChar], ?_, low, high⟩
      rw [decimal, Nat.toDigits_of_base_le (by decide) large, ascii, List.map_append]
      exact congrArg (· ++ _) digits

theorem isDigit_decimal {byte : UInt8} (member : byte ∈ decimal port) : isDigit byte :=
  decide_eq_true (decimal_digits member)

theorem decimal_ne_nil : decimal port ≠ [] := by
  rw [decimal, ascii, Ne, List.map_eq_nil_iff]
  exact Nat.toDigits_ne_nil

/-- Reading digits does not lower a value. -/
theorem le_foldl_digits (digits : List UInt8) (value : ℕ) :
    value ≤ digits.foldl (fun number digit => number * 10 + (digit.toNat - 48)) value := by
  induction digits generalizing value with
  | nil => exact Nat.le_refl _
  | cons digit digits ih =>
    calc value ≤ value * 10 + (digit.toNat - 48) := by omega
      _ ≤ _ := ih _

/-- The digits in front of bytes, and a byte behind them that is none. -/
theorem digits_split (bytes : List UInt8) : ∃ digits rest, bytes = digits ++ rest ∧
    (∀ digit ∈ digits, isDigit digit) ∧ rest.head?.any isDigit = false := by
  refine ⟨_, _, (@List.takeWhile_append_dropWhile _ isDigit bytes).symm, ?_, ?_⟩
  · intro digit member
    exact List.mem_takeWhile_imp member
  · have ends := List.head?_dropWhile_not isDigit bytes
    cases rest : bytes.dropWhile isDigit with
    | nil => rfl
    | cons first others =>
      rw [rest] at ends
      rw [List.head?_cons, Option.any_some]
      simpa using ends

end Decimals

section Loops

/-- The loop reads digits up to what is none. -/
theorem numberLoop_append (all : ∀ digit ∈ digits, isDigit digit)
    (ends : behind.head?.any isDigit = false) (number : d.Double) :
    numberLoop d number (digits ++ behind) = (digits.foldl (nextDigit d) number, behind) := by
  induction digits generalizing number with
  | nil =>
    cases behind with
    | nil => rfl
    | cons byte rest => rw [List.nil_append, numberLoop, if_neg (by simpa using ends), List.foldl_nil]
  | cons digit digits ih =>
    obtain ⟨first, later⟩ := List.forall_mem_cons.mp all
    rw [List.cons_append, numberLoop, if_pos first, ih later, List.foldl_cons]

/-- Few digits are taken exactly. -/
theorem foldl_nextDigit (all : ∀ digit ∈ digits, isDigit digit) (value : ℕ)
    (small : digits.foldl (fun number digit => number * 10 + (digit.toNat - 48)) value ≤ 2 ^ 53) :
    digits.foldl (nextDigit d) (d.ofInt value) =
      d.ofInt (digits.foldl (fun number digit => number * 10 + (digit.toNat - 48)) value : ℕ) := by
  induction digits generalizing value with
  | nil => rfl
  | cons digit digits ih =>
    obtain ⟨first, later⟩ := List.forall_mem_cons.mp all
    have bound := (of_decide_eq_true first).1
    have next : nextDigit d (d.ofInt value) digit = d.ofInt (value * 10 + (digit.toNat - 48) : ℕ) := by
      have below : value * 10 + (digit.toNat - 48) ≤ 2 ^ 53 := (le_foldl_digits digits _).trans small
      rw [nextDigit, show (10 : ℤ) = (10 : ℕ) from rfl, d.mul_ofInt _ _ (by omega),
        ← d.add_ofInt _ _ below]
      congr 2
      have : 48 ≤ digit.toNat := bound
      omega
    rw [List.foldl_cons, next]
    exact ih later _ small

theorem foldl_decimal (small : port < 2 ^ 31) :
    (decimal port).foldl (nextDigit d) (d.ofInt 0) = d.ofInt port := by
  have value := readDecimal_decimal port
  rw [readDecimal] at value
  have exact := @foldl_nextDigit d _ (fun _ => @isDigit_decimal port _) 0 (by rw [value]; omega)
  rwa [value] at exact

/-- The loop over a fraction counts its digits. -/
theorem fractionLoop_append (all : ∀ digit ∈ digits, isDigit digit)
    (ends : behind.head?.any isDigit = false) (number scale : d.Double) :
    fractionLoop d number scale (digits ++ behind) = (digits.foldl (nextDigit d) number,
      (fun scale => d.add scale (d.ofInt (-1)))^[digits.length] scale, behind) := by
  induction digits generalizing number scale with
  | nil =>
    cases behind with
    | nil => rfl
    | cons byte rest =>
      rw [List.nil_append, fractionLoop, if_neg (by simpa using ends), List.foldl_nil,
        List.length_nil, Function.iterate_zero_apply]
  | cons digit digits ih =>
    obtain ⟨first, later⟩ := List.forall_mem_cons.mp all
    rw [List.cons_append, fractionLoop, if_pos first, ih later, List.foldl_cons, List.length_cons,
      Function.iterate_succ_apply]

/-- The loop over an exponent reads its digits, if they are an `int`. -/
theorem exponentLoop_append (all : ∀ digit ∈ digits, isDigit digit)
    (ends : behind.head?.any isDigit = false) (before : ℕ) (room : before < 2 ^ 31) :
    exponentLoop before (digits ++ behind) =
      let value := digits.foldl (fun number digit => number * 10 + (digit.toNat - 48)) before
      if value < 2 ^ 31 then some ((value : ℤ), behind) else none := by
  induction digits generalizing before with
  | nil =>
    dsimp only
    rw [List.foldl_nil, if_pos room]
    cases behind with
    | nil => rfl
    | cons byte rest => rw [List.nil_append, exponentLoop, if_neg (by simpa using ends)]
  | cons digit digits ih =>
    obtain ⟨first, later⟩ := List.forall_mem_cons.mp all
    have low : 48 ≤ digit.toNat := (of_decide_eq_true first).1
    have next : (before : ℤ) * 10 + (digit.toNat - 48) = (before * 10 + (digit.toNat - 48) : ℕ) := by
      omega
    have above := le_foldl_digits digits (before * 10 + (digit.toNat - 48))
    rw [List.cons_append, exponentLoop, if_pos first]
    dsimp only
    rw [next, List.foldl_cons]
    split_ifs with fits small small
    · rw [ih later _ (by exact_mod_cast fits)]
      exact if_pos small
    · rw [ih later _ (by exact_mod_cast fits)]
      exact if_neg small
    · exact absurd (by exact_mod_cast above.trans_lt small) fits
    · rfl

theorem exponentLoop_digits (all : ∀ digit ∈ digits, isDigit digit)
    (ends : behind.head?.any isDigit = false) : exponentLoop 0 (digits ++ behind) =
      if readDecimal digits < 2 ^ 31 then some ((readDecimal digits : ℤ), behind) else none :=
  exponentLoop_append all ends 0 (by norm_num)

end Loops

/-- A byte that a number does not go on with is no digit, no point and no letter. -/
theorem number_ends (ends : behind.head?.any continuesNumber = false) :
    behind.head?.any isDigit = false ∧ behind.head? ≠ some 46 ∧
      ¬(behind.head? = some 101 ∨ behind.head? = some 69) := by
  cases behind with
  | nil => exact ⟨rfl, nofun, nofun⟩
  | cons byte rest =>
    rw [List.head?_cons, Option.any_some] at ends
    obtain ⟨digit, point, low, high⟩ : isDigit byte = false ∧ byte ≠ 46 ∧ byte ≠ 101 ∧ byte ≠ 69 := by
      simpa [continuesNumber] using ends
    simp [digit, point, low, high]

/-- A number without a fraction and an exponent. -/
theorem tail_none (ends : behind.head?.any continuesNumber = false) (n : d.Double) :
    behind.head?.any isDigit = false ∧ fraction d n behind = (n, d.ofInt 0, behind) ∧
      exponent behind = some (0, behind) := by
  obtain ⟨digit, point, letter⟩ := number_ends ends
  exact ⟨digit, if_neg fun both => point both.1, if_neg letter⟩

end ShuangFa
