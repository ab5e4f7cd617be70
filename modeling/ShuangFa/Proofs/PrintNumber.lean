import Mathlib.Tactic.Positivity
import ShuangFa.Model.CJsonText

/-! # Printed numbers fit

`print_number` has room for every double: a whole number that is printed with all its digits is below
`10 ^ 60`, one with six digits behind the point is at most `10 ^ 9`, and an exponent has three digits.
What it prints has no blanks, quotes or slashes.
-/

namespace ShuangFa

open Coding Floating Float.Model Float.Model.UnpackedFloat

/-- A byte that means nothing outside a token. -/
def SolidByte (byte : UInt8) : Prop := isBlank byte = false ∧ byte ≠ 34 ∧ byte ≠ 47 ∧ byte ≠ 0

instance (byte : UInt8) : Decidable (SolidByte byte) := inferInstanceAs (Decidable (_ ∧ _))

section Digits

variable {byte : UInt8} {number count : ℕ} {text : List UInt8}

theorem digit_solid (digit : ParseNumber.isDigit byte) : SolidByte byte := by
  have low : 48 ≤ byte.toNat := (of_decide_eq_true digit).1
  have other {small : UInt8} (less : small.toNat < 48) : byte ≠ small := by
    rintro rfl
    omega
  refine ⟨?_, other (by decide), other (by decide), other (by decide)⟩
  rw [isBlank, decide_eq_false_iff_not, UInt8.le_iff_toNat_le]
  exact Nat.not_le.mpr (Nat.lt_of_lt_of_le (by decide) low)

theorem decimal_solid (member : byte ∈ decimal number) : SolidByte byte :=
  digit_solid (decide_eq_true (decimal_digits member))

theorem decimalInt_solid {number : ℤ} (member : byte ∈ decimalInt number) : SolidByte byte := by
  rw [decimalInt] at member
  split at member
  · rcases List.mem_cons.mp member with rfl | digit
    · decide
    · exact decimal_solid digit
  · exact decimal_solid member

/-- A number has no more digits than its bound has. -/
theorem decimal_length_le (positive : 0 < count) (small : number < 10 ^ count) :
    (decimal number).length ≤ count := by
  rwa [decimal, ascii, List.length_map, Nat.length_toDigits_le_iff (by decide) positive]

theorem decimalInt_length_le {number : ℤ} (positive : 0 < count) (small : number.natAbs < 10 ^ count) :
    (decimalInt number).length ≤ count + 1 := by
  have digits := decimal_length_le positive small
  rw [decimalInt]
  split
  · exact Nat.succ_le_succ digits
  · exact Nat.le_succ_of_le digits

theorem lastDigits_solid (member : byte ∈ lastDigits count number) : SolidByte byte := by
  rw [lastDigits, List.mem_reverse, List.mem_map] at member
  obtain ⟨i, _, rfl⟩ := member
  have small : number / 10 ^ i % 10 < 10 := Nat.mod_lt _ (by decide)
  apply digit_solid
  rw [ParseNumber.isDigit, decide_eq_true_iff, UInt8.le_iff_toNat_le, UInt8.le_iff_toNat_le,
    UInt8.toNat_ofNat', Nat.mod_eq_of_lt (by omega)]
  constructor
  · exact Nat.le_add_right ..
  · exact Nat.add_le_add_left (Nat.le_of_lt_succ small) 48

theorem lastDigits_length (count number : ℕ) : (lastDigits count number).length = count := by
  rw [lastDigits, List.length_reverse, List.length_map, List.length_range]

/-- Rounding does not pass a whole number. -/
theorem nearest_le {value : ℚ} {bound : ℕ} (below : value ≤ bound) :
    nearest value ≤ bound := by
  have whole : ⌊value⌋₊ ≤ bound := Nat.floor_le_of_le below
  rw [nearest]
  split
  · exact whole
  · rename_i far
    rcases Nat.eq_or_lt_of_le whole with same | less
    · refine absurd (.inl ?_) far
      rw [same]
      linarith
    · exact less

end Digits

section Conversions

variable {magnitude : ℚ} {exponent : ℤ} {byte : UInt8}

theorem printWhole_length (small : magnitude ≤ 10 ^ 60 - 1) :
    (printWhole magnitude).length ≤ 60 := by
  apply decimal_length_le (by decide)
  have rounded : nearest magnitude ≤ 10 ^ 60 - 1 := nearest_le (by push_cast; linarith)
  omega

theorem printFixed_length (small : magnitude ≤ 10 ^ 9) :
    (printFixed magnitude).length ≤ 17 := by
  have rounded : nearest (magnitude * 10 ^ 6) ≤ 10 ^ 15 := nearest_le (by push_cast; linarith)
  have digits : (decimal (nearest (magnitude * 10 ^ 6) / 10 ^ 6)).length ≤ 10 :=
    decimal_length_le (by decide) (by omega)
  rw [printFixed, List.length_append, List.length_cons, lastDigits_length]
  omega

theorem printExponent_length (small : exponent.natAbs < 1000) :
    (printExponent exponent).length ≤ 5 := by
  rw [printExponent, List.length_cons, List.length_cons, List.length_append]
  split_ifs with short
  · have digits : (decimal exponent.natAbs).length ≤ 1 := decimal_length_le (by decide) short
    rw [List.length_singleton]
    omega
  · have digits : (decimal exponent.natAbs).length ≤ 3 := decimal_length_le (by decide) small
    rw [List.length_nil]
    omega

/-- A number of binary64 has a decimal exponent of three digits: a decimal place is worth more than two
binary ones. -/
theorem log_double (low : magnitude = 0 ∨ 1 / 2 ^ 1074 ≤ magnitude) (high : magnitude < 2 ^ 1024) :
    -537 ≤ Int.log 10 magnitude ∧ Int.log 10 magnitude < 512 := by
  have places (count : ℕ) : (2 : ℚ) ^ (2 * count) ≤ 10 ^ count := by
    rw [pow_mul]
    exact pow_le_pow_left₀ (by norm_num) (by norm_num) count
  rcases low with rfl | low
  · rw [Int.log_zero_right]
    omega
  have positive : 0 < magnitude := lt_of_lt_of_le (by positivity) low
  constructor
  · rw [← Int.zpow_le_iff_le_log (by decide) positive, zpow_neg, ← one_div,
      show (537 : ℤ) = (537 : ℕ) from rfl, zpow_natCast]
    exact (one_div_le_one_div_of_le (by positivity) (places 537)).trans low
  · rw [← Int.lt_zpow_iff_log_lt (by decide) positive, show (512 : ℤ) = (512 : ℕ) from rfl,
      zpow_natCast]
    exact high.trans_le (places 512)

theorem printScientific_length (low : magnitude = 0 ∨ 1 / 2 ^ 1074 ≤ magnitude)
    (high : magnitude < 2 ^ 1024) : (printScientific magnitude).length ≤ 13 := by
  obtain ⟨least, greatest⟩ := log_double low high
  have scale : (0 : ℚ) < 10 ^ (6 - Int.log 10 magnitude) := zpow_pos (by norm_num) _
  have below : magnitude * 10 ^ (6 - Int.log 10 magnitude) ≤ (10 ^ 7 : ℕ) := by
    have digit := Int.lt_zpow_succ_log_self (b := 10) (by decide) magnitude
    calc magnitude * 10 ^ (6 - Int.log 10 magnitude) ≤
          10 ^ (Int.log 10 magnitude + 1) * 10 ^ (6 - Int.log 10 magnitude) :=
          mul_le_mul_of_nonneg_right (by exact_mod_cast digit.le) scale.le
      _ = 10 ^ (7 : ℤ) := by
          rw [← zpow_add₀ (by norm_num)]
          congr 1
          omega
      _ = (10 ^ 7 : ℕ) := by norm_num
  have rounded := nearest_le below
  rw [printScientific]
  split_ifs with up
  · have exponent : (printExponent (Int.log 10 magnitude + 1)).length ≤ 5 :=
      printExponent_length (by omega)
    rw [List.length_cons, List.length_cons, List.length_append, lastDigits_length]
    omega
  · have exponent : (printExponent (Int.log 10 magnitude)).length ≤ 5 :=
      printExponent_length (by omega)
    have digits : (decimal (nearest (magnitude * 10 ^ (6 - Int.log 10 magnitude)) / 10 ^ 6)).length ≤ 1 :=
      decimal_length_le (by decide) (by omega)
    rw [List.length_append, List.length_cons, List.length_append, lastDigits_length]
    omega

theorem printExponent_solid (member : byte ∈ printExponent exponent) : SolidByte byte := by
  rw [printExponent, List.mem_cons, List.mem_cons, List.mem_append] at member
  rcases member with rfl | rfl | padded | digit
  · decide
  · split <;> decide
  · split at padded
    · obtain rfl := List.mem_singleton.mp padded
      decide
    · cases padded
  · exact decimal_solid digit

theorem printFixed_solid (member : byte ∈ printFixed magnitude) : SolidByte byte := by
  rw [printFixed, List.mem_append, List.mem_cons] at member
  rcases member with digit | rfl | digit
  · exact decimal_solid digit
  · decide
  · exact lastDigits_solid digit

theorem printScientific_solid (member : byte ∈ printScientific magnitude) : SolidByte byte := by
  rw [printScientific] at member
  split at member
  · rw [List.mem_cons, List.mem_cons, List.mem_append] at member
    rcases member with rfl | rfl | digit | exponent
    · decide
    · decide
    · exact lastDigits_solid digit
    · exact printExponent_solid exponent
  · rw [List.mem_append, List.mem_cons, List.mem_append] at member
    rcases member with digit | rfl | digit | exponent
    · exact decimal_solid digit
    · decide
    · exact lastDigits_solid digit
    · exact printExponent_solid exponent

end Conversions

section Numbers

variable {conversion : ℚ → List UInt8} {d : Float} {size : ℕ} {valueint : Int32}

/-- A text of solid bytes, with room for it. -/
def PrintsSolid (printed : Option (List UInt8)) : Prop :=
  ∃ text, printed = some text ∧ ∀ byte ∈ text, SolidByte byte

theorem printsSolid_allocated {text : List UInt8} (room : text.length + 1 ≤ size)
    (solid : ∀ byte ∈ text, SolidByte byte) : PrintsSolid (allocated size text) :=
  ⟨text, if_pos room, solid⟩

theorem printSign_solid (s : Sign) : (printSign s).length ≤ 1 ∧ ∀ byte ∈ printSign s, SolidByte byte := by
  cases s
  · exact ⟨Nat.le_refl _, List.forall_mem_singleton.mpr (by decide)⟩
  · exact ⟨Nat.zero_le _, List.forall_mem_nil _⟩

/-- `sprintf` of a double has room where the digits of its magnitude have. -/
theorem sprintfDouble_prints (fits : ∀ magnitude, magnitude? d.toModel.unpack = some magnitude →
      (conversion magnitude).length ≤ 61) (solid : ∀ magnitude, ∀ byte ∈ conversion magnitude, SolidByte byte) :
    PrintsSolid (allocated 64 (sprintfDouble conversion d)) := by
  have signed (s : Sign) {digits : List UInt8} (short : digits.length ≤ 61)
      (plain : ∀ byte ∈ digits, SolidByte byte) : PrintsSolid (allocated 64 (printSign s ++ digits)) := by
    obtain ⟨length, sign⟩ := printSign_solid s
    refine printsSolid_allocated ?_ (List.forall_mem_append.mpr ⟨sign, plain⟩)
    rw [List.length_append]
    omega
  have word {word : List UInt8} (plain : word = ascii "nan".toList ∨ word = ascii "inf".toList) :
      word.length ≤ 61 ∧ ∀ byte ∈ word, SolidByte byte := by
    rcases plain with rfl | rfl
    · exact ⟨by decide, by simp [ascii, SolidByte, isBlank]⟩
    · exact ⟨by decide, by simp [ascii, SolidByte, isBlank]⟩
  rw [sprintfDouble]
  cases unpacked : d.toModel.unpack with
  | notANumber =>
    obtain ⟨short, plain⟩ := word (.inl rfl)
    dsimp only
    exact printsSolid_allocated (by omega) plain
  | infinity s => exact signed s (word (.inr rfl)).1 (word (.inr rfl)).2
  | zero s => exact signed s (fits 0 (by rw [unpacked]; rfl)) (solid 0)
  | finite s m e pos => exact signed s (fits _ (by rw [unpacked]; rfl)) (solid _)

theorem exact_large : Exact (1.0e60 : Float) (5605193857299268 * 2 ^ 147) :=
  ⟨_, @Keeps.finite .positive 5605193857299268 147 _
    ⟨by norm_num, by norm_num, by norm_num, by norm_num⟩ (by norm_num [factor]), by decide +kernel⟩

theorem exact_billion : Exact (1.0e9 : Float) (10 ^ 9) :=
  ⟨_, @Keeps.finite .positive (10 ^ 9 * 2 ^ 23) (-23) _
    ⟨by norm_num, by norm_num, by norm_num, by norm_num⟩ (by norm_num [factor]), by decide +kernel⟩

/-- `print_number` has room for every number. -/
theorem printNumber_prints (valueint : Int32) (d : Float) : PrintsSolid (printNumber valueint d) := by
  rw [printNumber]
  split_ifs with int whole far
  · refine printsSolid_allocated ?_ fun byte => decimalInt_solid
    have low := valueint.le_toInt
    have high := valueint.toInt_lt
    have digits : (decimalInt valueint.toInt).length ≤ 11 :=
      decimalInt_length_le (by decide) (by omega)
    omega
  · obtain ⟨p, finite, less⟩ := magnitude_lt exact_large (by positivity) whole.2
    refine sprintfDouble_prints ?_ (fun magnitude byte => decimal_solid)
    intro magnitude same
    obtain rfl := Option.some.inj (same.symm.trans finite)
    have small : magnitude ≤ 10 ^ 60 - 1 := less.le.trans (by norm_num)
    exact (printWhole_length small).trans (by decide)
  · refine sprintfDouble_prints ?_ (fun magnitude byte => printScientific_solid)
    intro magnitude same
    obtain ⟨low, high⟩ := magnitude_range (proper_unpack d) same
    exact (printScientific_length low high).trans (by decide)
  · refine sprintfDouble_prints ?_ (fun magnitude byte => printFixed_solid)
    intro magnitude same
    rw [not_or] at far
    rcases magnitude_le exact_billion (by positivity) far.2 with none | ⟨p, finite, below⟩
    · rw [none] at same
      cases same
    · obtain rfl := Option.some.inj (same.symm.trans finite)
      exact (printFixed_length below).trans (by decide)

end Numbers

end ShuangFa
