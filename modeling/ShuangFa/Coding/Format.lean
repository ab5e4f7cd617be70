import Mathlib.Data.Int.Notation
import Mathlib.Data.List.Basic

/-! # Formatted texts

A format is a text with conversions, each a percent sign and a letter. What is between them stays, and
every argument takes the place of its conversion. A text tells two values of an argument apart where
their own texts differ, and a number is known from its digits.
-/

namespace Coding

/-- The bytes of a text. -/
def ascii (text : List Char) : List UInt8 := text.map fun letter => UInt8.ofNat letter.toNat

/-- A number in decimal. -/
def decimal (number : ℕ) : List UInt8 := ascii (Nat.toDigits 10 number)

/-- An integer in decimal. -/
def decimalInt (number : ℤ) : List UInt8 :=
  if number < 0 then 45 :: decimal number.natAbs else decimal number.natAbs

/-- The number that digits stand for. -/
def readDecimal (digits : List UInt8) : ℕ :=
  digits.foldl (fun number digit => number * 10 + (digit.toNat - 48)) 0

/-- The texts between the conversions. -/
def pieces : List Char → List (List Char)
  | [] => [[]]
  | '%' :: _ :: rest => [] :: pieces rest
  | letter :: rest => match pieces rest with
    | [] => [[letter]]
    | first :: more => (letter :: first) :: more

variable {α : Type*}

/-- Texts with arguments between them. -/
def interleave : List (List α) → List (List α) → List α
  | [], arguments => arguments.flatten
  | texts, [] => texts.flatten
  | text :: texts, argument :: arguments => text ++ argument ++ interleave texts arguments

/-- `sprintf`, without the zero that ends the text; the arguments are given as they are printed. -/
def sprintf (format : String) (arguments : List (List UInt8)) : List UInt8 :=
  interleave ((pieces format.toList).map ascii) arguments

section Numbers

theorem digit_byte {letter : Char} (digit : letter.isDigit) :
    (UInt8.ofNat letter.toNat).toNat = letter.toNat := by
  have bound : letter.toNat ≤ 57 := by
    have := Char.isDigit_iff_toNat.mp digit
    exact this.2
  rw [UInt8.toNat_ofNat', Nat.mod_eq_of_lt (by omega)]

/-- A number is printed with digits. -/
theorem decimal_digits {number : ℕ} {byte : UInt8} (member : byte ∈ decimal number) :
    48 ≤ byte.toNat ∧ byte.toNat ≤ 57 := by
  obtain ⟨letter, inside, rfl⟩ := List.mem_map.mp member
  have digit := Nat.isDigit_of_mem_toDigits (by decide) (by decide) inside
  rw [digit_byte digit]
  exact Char.isDigit_iff_toNat.mp digit

/-- A number is read from its digits. -/
@[simp] theorem readDecimal_decimal (number : ℕ) : readDecimal (decimal number) = number := by
  have digits (letters : List Char) (all : ∀ letter ∈ letters, letter.isDigit) (start : ℕ) :
      (ascii letters).foldl (fun number digit => number * 10 + (digit.toNat - 48)) start =
        Nat.ofDigitChars 10 letters start := by
    induction letters generalizing start with
    | nil => rfl
    | cons letter letters ih =>
      rw [ascii, List.map_cons, List.foldl_cons, digit_byte (all letter (List.mem_cons_self ..)),
        Nat.ofDigitChars_cons, Nat.mul_comm]
      exact ih (fun letter member => all letter (List.mem_cons_of_mem _ member)) _
  rw [readDecimal, decimal, digits _ fun letter member =>
    Nat.isDigit_of_mem_toDigits (by decide) (by decide) member]
  exact Nat.ofDigitChars_ten_toDigits

theorem decimal_injective : Function.Injective decimal := by
  intro first second same
  rw [← readDecimal_decimal first, same, readDecimal_decimal]

end Numbers

section Formats

variable {texts arguments rest : List (List α)} {first second : List α}

/-- An argument stands between texts that do not depend on it. -/
theorem interleave_argument (texts arguments rest : List (List α)) : ∃ before after, ∀ argument,
    interleave texts (arguments ++ argument :: rest) = before ++ argument ++ after := by
  induction arguments generalizing texts with
  | nil =>
    cases texts with
    | nil => exact ⟨[], rest.flatten, fun argument => rfl⟩
    | cons text texts => exact ⟨text, interleave texts rest, fun argument => rfl⟩
  | cons other arguments ih =>
    cases texts with
    | nil =>
      refine ⟨(other :: arguments).flatten, rest.flatten, fun argument => ?_⟩
      rw [List.cons_append, interleave, List.flatten_cons, List.flatten_append, List.flatten_cons,
        List.flatten_cons]
      simp only [List.append_assoc]
    | cons text texts =>
      obtain ⟨before, after, placed⟩ := ih texts
      refine ⟨text ++ other ++ before, after, fun argument => ?_⟩
      rw [List.cons_append, interleave, placed]
      simp only [List.append_assoc]

/-- Texts that differ in one argument differ. -/
theorem interleave_injective
    (same : interleave texts (arguments ++ first :: rest) =
      interleave texts (arguments ++ second :: rest)) : first = second := by
  obtain ⟨before, after, placed⟩ := interleave_argument texts arguments rest
  rw [placed, placed] at same
  exact List.append_cancel_left (List.append_cancel_right same)

theorem sprintf_injective {format : String} {arguments rest : List (List UInt8)}
    {first second : List UInt8} (same : sprintf format (arguments ++ first :: rest) =
      sprintf format (arguments ++ second :: rest)) : first = second :=
  interleave_injective same

end Formats

end Coding
