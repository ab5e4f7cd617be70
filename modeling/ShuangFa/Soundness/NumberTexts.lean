import ShuangFa.Proofs.PrintNumber
import ShuangFa.Soundness.ServerAddress

/-! # Numbers are read from their texts

A number in a text has a sign, digits without a zero in front, a fraction and an exponent. The double of
its digits, scaled by a power of ten, is what `parse_number` takes off such a text, up to a byte that no
number goes on with. What `print_number` writes for an `int` is such a text of it.
-/

namespace ShuangFa

open Coding Floating ParseNumber

section Texts

/-- Digits, of which there is one. -/
structure Digits (text : List UInt8) : Prop where
  some_digit : text ≠ []
  all : ∀ byte ∈ text, isDigit byte

/-- A point with digits behind it stands for a fraction. -/
inductive SpellsFraction : List UInt8 → List UInt8 → Prop where
  | absent : SpellsFraction [] []
  | point {digits : List UInt8} (some_digits : Digits digits) : SpellsFraction digits (46 :: digits)

/-- A letter with a sign and digits behind it stands for an exponent, which has an `int`. -/
inductive SpellsExponent : ℤ → List UInt8 → Prop where
  | absent : SpellsExponent 0 []
  | plus {mark : UInt8} {sign digits : List UInt8} (letter : mark = 101 ∨ mark = 69)
    (optional : sign = [] ∨ sign = [43]) (some_digits : Digits digits)
    (small : readDecimal digits < 2 ^ 31) :
    SpellsExponent (readDecimal digits) (mark :: (sign ++ digits))
  | minus {mark : UInt8} {digits : List UInt8} (letter : mark = 101 ∨ mark = 69)
    (some_digits : Digits digits) (small : readDecimal digits < 2 ^ 31) :
    SpellsExponent (-(readDecimal digits : ℤ)) (mark :: 45 :: digits)

/-- The double of a row of digits, rounded at each of them. -/
def digitsDouble (digits : List UInt8) : Float :=
  digits.foldl (fun number digit => number * double 10 + double (digit.toNat - 48)) (double 0)

/-- The double of digits with a sign and a power of ten. -/
def numeralDouble (n : CJsonNumbers) (negative : Bool) (digits : List UInt8) (exponent : ℤ) : Float :=
  double (if negative then -1 else 1) * digitsDouble digits * n.pow (double 10) (double exponent)

/-- A text of a number and its double, which has an `int`. -/
inductive NumberText (n : CJsonNumbers) (valueint : Int32) (valuedouble : Float) :
    List UInt8 → Prop where
  | spelled {negative : Bool} {whole fraction point scale : List UInt8} {exponent : ℤ}
    (digits : Digits whole) (leading : whole = [48] ∨ whole.head? ≠ some 48)
    (fractional : SpellsFraction fraction point) (short : fraction.length ≤ 2 ^ 52)
    (scaled : SpellsExponent exponent scale)
    (value : numeralDouble n negative (whole ++ fraction) (exponent - fraction.length) = valuedouble)
    (int : truncate? valuedouble = some valueint) :
    NumberText n valueint valuedouble
      ((if negative then [45] else []) ++ (whole ++ (point ++ scale)))

end Texts

section Reading

variable {n : CJsonNumbers} {d : DoubleArithmetic} {digits behind rest text : List UInt8}

/-- The digits of a fraction are counted exactly. -/
theorem iterate_scale (n : CJsonNumbers) (count : ℕ) (short : count ≤ 2 ^ 52) :
    (fun scale => n.d.add scale (n.d.ofInt (-1)))^[count] (n.d.ofInt 0) =
      n.d.ofInt (-(count : ℕ)) := by
  induction count with
  | zero => rfl
  | succ count ih =>
    have sum := double_add (-count) (-1) (by omega) (by omega) (by omega)
    rw [← Int.neg_add, ← Nat.cast_succ] at sum
    rw [Function.iterate_succ_apply', ih (by omega)]
    exact sum

/-- A zero leaves zero. -/
theorem nextDigit_zero (d : DoubleArithmetic) : nextDigit d (d.ofInt 0) 48 = d.ofInt 0 := by
  have product : d.mul (d.ofInt 0) (d.ofInt 10) = d.ofInt 0 := d.mul_ofInt 0 10 (by decide)
  have sum : d.add (d.ofInt 0) (d.ofInt 0) = d.ofInt 0 := d.add_ofInt 0 0 (by decide)
  have digit : nextDigit d (d.ofInt 0) 48 = d.add (d.mul (d.ofInt 0) (d.ofInt 10)) (d.ofInt 0) := rfl
  rw [digit, product, sum]

/-- The digits in front; a zero is passed before them. -/
theorem number_spelled (whole : Digits digits) (leading : digits = [48] ∨ digits.head? ≠ some 48)
    (ends : behind.head?.any isDigit = false) :
    number d (if (digits ++ behind).head? = some 48 then (digits ++ behind).tail
      else digits ++ behind) = (digits.foldl (nextDigit d) (d.ofInt 0), behind) := by
  obtain ⟨some_digit, all⟩ := whole
  have positive {byte : UInt8} (digit : isDigit byte) (nonzero : byte ≠ 48) : 49 ≤ byte ∧ byte ≤ 57 := by
    obtain ⟨low, high⟩ := of_decide_eq_true digit
    have other : byte.toNat ≠ 48 := fun same => nonzero (UInt8.toNat_inj.mp same)
    have least : 48 ≤ byte.toNat := low
    exact ⟨show 49 ≤ byte.toNat by omega, high⟩
  rcases leading with rfl | nonzero
  · have stops : ¬ behind.head?.any (fun byte => 49 ≤ byte ∧ byte ≤ 57) = true := by
      cases behind with
      | nil => decide
      | cons byte rest =>
        rw [List.head?_cons, Option.any_some, decide_eq_true_iff]
        rintro ⟨low, high⟩
        exact of_decide_eq_false ends ⟨UInt8.le_trans (by decide) low, high⟩
    rw [List.singleton_append, if_pos List.head?_cons, List.tail_cons, number, if_neg stops,
      List.foldl_cons, nextDigit_zero, List.foldl_nil]
  · obtain ⟨first, others, rfl⟩ := List.exists_cons_of_ne_nil some_digit
    have other : first ≠ 48 := fun same => nonzero (congrArg some same)
    have digit := positive (all first (List.mem_cons_self ..)) other
    have starts : (first :: others ++ behind).head?.any (fun byte => 49 ≤ byte ∧ byte ≤ 57) = true :=
      decide_eq_true digit
    have unequal : (first :: others ++ behind).head? ≠ some 48 :=
      fun same => other (Option.some.inj same)
    rw [if_neg unequal, number, if_pos starts, numberLoop_append all ends]

/-- A fraction. -/
theorem fraction_spelled {fraction point : List UInt8} (spelled : SpellsFraction fraction point)
    (short : fraction.length ≤ 2 ^ 52) (ends : behind.head?.any isDigit = false)
    (other : behind.head? ≠ some 46) (before : n.d.Double) :
    ParseNumber.fraction n.d before (point ++ behind) =
      (fraction.foldl (nextDigit n.d) before, n.d.ofInt (-(fraction.length : ℕ)), behind) := by
  cases spelled with
  | absent => exact if_neg fun both => other both.1
  | point some_digits =>
    obtain ⟨some_digit, all⟩ := some_digits
    obtain ⟨first, others, rfl⟩ := List.exists_cons_of_ne_nil some_digit
    have loop := @fractionLoop_append n.d _ _ all ends before (n.d.ofInt 0)
    rw [iterate_scale n _ short] at loop
    rw [List.cons_append, ParseNumber.fraction,
      if_pos ⟨List.head?_cons, all first (List.mem_cons_self ..)⟩]
    exact loop

/-- An exponent. -/
theorem exponent_spelled {exponent : ℤ} {scale : List UInt8} (spelled : SpellsExponent exponent scale)
    (ends : behind.head?.any continuesNumber = false) :
    ParseNumber.exponent (scale ++ behind) = some (exponent, behind) := by
  obtain ⟨digit, _, none⟩ := tail_none ends (exactArithmetic.ofInt 0)
  cases spelled with
  | absent => exact none
  | @plus mark sign digits letter optional some_digits small =>
    have loop := exponentLoop_digits some_digits.all digit
    rw [if_pos small] at loop
    rw [List.cons_append, ParseNumber.exponent, if_pos (exponent_marked letter _), List.tail_cons]
    rcases optional with rfl | rfl
    · obtain ⟨first, others, rfl⟩ := List.exists_cons_of_ne_nil some_digits.some_digit
      have head := some_digits.all first (List.mem_cons_self ..)
      rw [List.nil_append]
      split
      · rename_i same
        obtain rfl : first = 43 := List.head_eq_of_cons_eq same
        cases head
      · rename_i same
        obtain rfl : first = 45 := List.head_eq_of_cons_eq same
        cases head
      · exact loop
    · exact loop
  | @minus mark digits letter some_digits small =>
    have loop := exponentLoop_digits some_digits.all digit
    rw [if_pos small] at loop
    rw [List.cons_append, ParseNumber.exponent, if_pos (exponent_marked letter _), List.tail_cons]
    change (exponentLoop 0 (digits ++ behind)).map _ = _
    rw [loop, Option.map_some]
    dsimp only
    rw [mul_neg_one]

/-- Behind the digits in front no digit goes on, and behind a fraction no fraction. -/
theorem scale_ends {exponent : ℤ} {scale : List UInt8} (spelled : SpellsExponent exponent scale)
    (ends : behind.head?.any continuesNumber = false) :
    (scale ++ behind).head?.any isDigit = false ∧ (scale ++ behind).head? ≠ some 46 := by
  have marked {mark : UInt8} (letter : mark = 101 ∨ mark = 69) (more : List UInt8) :
      (mark :: more).head?.any isDigit = false ∧ (mark :: more).head? ≠ some 46 := by
    rcases letter with rfl | rfl
    · exact ⟨rfl, by simp⟩
    · exact ⟨rfl, by simp⟩
  cases spelled with
  | absent =>
    refine ⟨(tail_none ends (exactArithmetic.ofInt 0)).1, ?_⟩
    rw [List.nil_append]
    intro point
    rw [point] at ends
    cases ends
  | plus letter optional some_digits small => exact marked letter _
  | minus letter some_digits small => exact marked letter _

theorem point_ends {fraction point : List UInt8} (spelled : SpellsFraction fraction point)
    (ends : behind.head?.any isDigit = false) : (point ++ behind).head?.any isDigit = false := by
  cases spelled with
  | absent => exact ends
  | point some_digits => rfl

end Reading

section Numbers

variable {n : CJsonNumbers} {valueint : Int32} {valuedouble : Float} {text rest : List UInt8}

theorem digit_head {digits : List UInt8} (some_digits : Digits digits) (behind : List UInt8) :
    ∃ first others, digits ++ behind = first :: others ∧ isDigit first := by
  obtain ⟨first, others, rfl⟩ := List.exists_cons_of_ne_nil some_digits.some_digit
  exact ⟨first, others ++ behind, rfl, some_digits.all first (List.mem_cons_self ..)⟩

/-- A text of a number starts with a sign or a digit. -/
theorem NumberText.starts (spelled : NumberText n valueint valuedouble text) :
    text.head? = some 45 ∨ text.head?.any isDigit := by
  obtain @⟨negative, whole, fraction, point, scale, exponent, digits, _, _, _, _, _, _⟩ := spelled
  cases negative
  · obtain ⟨first, others, split, digit⟩ := digit_head digits (point ++ scale)
    rw [if_neg Bool.false_ne_true, List.nil_append, split]
    exact .inr digit
  · exact .inl rfl

/-- A text of a number has no bytes that mean something outside of it. -/
theorem NumberText.solid (spelled : NumberText n valueint valuedouble text) :
    ∀ byte ∈ text, SolidByte byte := by
  obtain @⟨negative, whole, fraction, point, scale, exponent, digits, _, fractional, _, scaled, _, _⟩ :=
    spelled
  have plain {digits : List UInt8} (some_digits : Digits digits) : ∀ byte ∈ digits, SolidByte byte :=
    fun byte member => digit_solid (some_digits.all byte member)
  have marked {mark : UInt8} (letter : mark = 101 ∨ mark = 69) : SolidByte mark := by
    rcases letter with rfl | rfl
    · decide
    · decide
  refine List.forall_mem_append.mpr ⟨?_, List.forall_mem_append.mpr ⟨plain digits,
    List.forall_mem_append.mpr ⟨?_, ?_⟩⟩⟩
  · cases negative
    · exact List.forall_mem_nil _
    · exact List.forall_mem_singleton.mpr (by decide)
  · cases fractional with
    | absent => exact List.forall_mem_nil _
    | point some_digits => exact List.forall_mem_cons.mpr ⟨by decide, plain some_digits⟩
  · cases scaled with
    | absent => exact List.forall_mem_nil _
    | plus letter optional some_digits small =>
      refine List.forall_mem_cons.mpr ⟨marked letter, List.forall_mem_append.mpr ⟨?_, plain some_digits⟩⟩
      rcases optional with rfl | rfl
      · exact List.forall_mem_nil _
      · exact List.forall_mem_singleton.mpr (by decide)
    | minus letter some_digits small =>
      exact List.forall_mem_cons.mpr ⟨marked letter, List.forall_mem_cons.mpr ⟨by decide, plain some_digits⟩⟩

theorem SpellsExponent.small {exponent : ℤ} {scale : List UInt8}
    (spelled : SpellsExponent exponent scale) : exponent.natAbs < 2 ^ 31 := by
  cases spelled with
  | absent => decide
  | plus letter optional some_digits small => exact small
  | minus letter some_digits small => rwa [Int.natAbs_neg]

/-- `parse_number` takes a number off every text of it, up to a byte that no number goes on with. -/
theorem NumberText.parsed (spelled : NumberText n valueint valuedouble text)
    (ends : rest.head?.any continuesNumber = false) :
    parseNumber n.d (text ++ rest) = some ⟨valuedouble, valueint, rest⟩ := by
  obtain @⟨negative, whole, fraction, point, scale, exponent, digits, leading, fractional, short,
    scaled, value, int⟩ := spelled
  obtain ⟨behind, other⟩ := scale_ends scaled ends
  have front := number_spelled (d := n.d) digits leading (point_ends fractional behind)
  have middle := fraction_spelled fractional short behind other
    (whole.foldl (nextDigit n.d) (n.d.ofInt 0))
  have last := exponent_spelled scaled ends
  have scales : n.d.add (n.d.ofInt (-(fraction.length : ℕ))) (n.d.ofInt exponent) =
      n.d.ofInt (exponent - fraction.length) := by
    have small := scaled.small
    have sum := double_add (-fraction.length) exponent (by omega) (by omega)
      (by omega)
    rwa [neg_add_eq_sub] at sum
  have row : fraction.foldl (nextDigit n.d) (whole.foldl (nextDigit n.d) (n.d.ofInt 0)) =
      digitsDouble (whole ++ fraction) := (List.foldl_append ..).symm
  obtain ⟨first, others, split, digit⟩ := digit_head digits (point ++ (scale ++ rest))
  have unsigned : (whole ++ (point ++ (scale ++ rest))).head? ≠ some 45 := by
    rw [split]
    intro same
    obtain rfl := Option.some.inj same
    cases digit
  have parsed (sign : ℤ) (same : sign = if negative then -1 else 1) :
      n.d.mul (n.d.mul (n.d.ofInt sign) (digitsDouble (whole ++ fraction)))
        (n.d.pow (n.d.ofInt 10) (n.d.ofInt (exponent - fraction.length))) = valuedouble := by
    rw [← value, same]
    rfl
  have integer : n.d.toInt valuedouble = some valueint := int
  simp only [List.append_assoc]
  cases negative
  · have positive := parsed 1 rfl
    rw [if_neg Bool.false_ne_true, List.nil_append, parseNumber, if_neg unsigned, if_neg unsigned]
    dsimp only
    rw [front]
    simp only [middle, last, Option.bind_eq_bind, Option.bind_some, scales, row, positive, integer]
    rfl
  · have negated := parsed (-1) rfl
    rw [if_pos rfl, List.singleton_append, parseNumber, if_pos List.head?_cons, if_pos List.head?_cons,
      List.tail_cons]
    dsimp only
    rw [front]
    simp only [middle, last, Option.bind_eq_bind, Option.bind_some, scales, row, negated, integer]
    rfl

end Numbers

section Printed

variable {n : CJsonNumbers}

/-- Few digits stand for their number. -/
theorem digitsDouble_eq (n : CJsonNumbers) {digits : List UInt8}
    (all : ∀ digit ∈ digits, isDigit digit) (small : readDecimal digits ≤ 2 ^ 53) :
    digitsDouble digits = double (readDecimal digits) := by
  exact @foldl_nextDigit n.d _ all 0 small

/-- An `int` is a number in its own decimals. -/
theorem numberText_decimalInt (n : CJsonNumbers) (valueint : Int32) :
    NumberText n valueint (double valueint.toInt) (decimalInt valueint.toInt) := by
  have low := valueint.le_toInt
  have high := valueint.toInt_lt
  generalize same : valueint.toInt = number at low high
  have magnitude : double (number.natAbs : ℤ) = digitsDouble (decimal number.natAbs) := by
    rw [digitsDouble_eq n (fun _ => isDigit_decimal) (by rw [readDecimal_decimal]; omega),
      readDecimal_decimal]
  have one : double number * n.pow (double 10) (double (0 - (0 : ℕ))) = double number := by
    have product := double_mul number 1 (by omega) (by decide) (by omega) (by omega)
    rw [Nat.cast_zero, sub_zero, n.pow_zero, product, mul_one]
  have digits : Digits (decimal number.natAbs) :=
    ⟨decimal_ne_nil, fun _ => isDigit_decimal⟩
  have leading : decimal number.natAbs = [48] ∨ (decimal number.natAbs).head? ≠ some 48 := by
    rcases Nat.eq_zero_or_pos number.natAbs with zero | positive
    · rw [zero]
      exact .inl rfl
    · obtain ⟨first, rest, split, above, _⟩ := decimal_cons positive
      rw [split]
      right
      intro zero
      obtain rfl := Option.some.inj zero
      exact absurd above (by decide)
  have int : truncate? (double number) = some valueint := by
    rw [truncate?_double low high, ← same, Int32.ofInt_toInt]
  have text (negative : Bool)
      (sign : double (if negative then -1 else 1) * double (number.natAbs : ℤ) = double number) :
      NumberText n valueint (double number)
        ((if negative then [45] else []) ++ (decimal number.natAbs ++ ([] ++ []))) := by
    refine .spelled digits leading .absent (Nat.zero_le _) .absent ?_ int
    rw [numeralDouble, List.append_nil, ← magnitude, sign]
    exact one
  rw [decimalInt]
  split
  · rename_i negative
    have sign := double_mul (-1) number.natAbs (by decide) (by omega) (by omega)
      (.inl (by omega))
    have product : -1 * (number.natAbs : ℤ) = number := by omega
    rw [product] at sign
    have spelled := text true sign
    rwa [List.append_nil, List.append_nil] at spelled
  · rename_i positive
    have sign := double_mul 1 number.natAbs (by decide) (by omega) (by omega)
      (.inr (by omega))
    have product : 1 * (number.natAbs : ℤ) = number := by omega
    rw [product] at sign
    have spelled := text false sign
    rwa [List.append_nil, List.append_nil] at spelled

theorem exact_dblEpsilon : Exact dblEpsilon (1 / 2 ^ 52) :=
  ⟨_, @Keeps.finite .positive (2 ^ 52) (-104) _
    ⟨by norm_num, by norm_num, by norm_num, by norm_num⟩ (by norm_num [factor]), by decide +kernel⟩

/-- A double that is an `int` is printed as that. -/
theorem printNumber_double (valueint : Int32) :
    printNumber valueint (double valueint.toInt) = some (decimalInt valueint.toInt) := by
  have low := valueint.le_toInt
  have high := valueint.toInt_lt
  have exact := @exact_double valueint.toInt (by omega)
  have zero : Exact (double 0) ((valueint.toInt : ℚ) - valueint.toInt) := by
    rw [sub_self]
    exact_mod_cast @exact_double 0 (by decide)
  have none : (double valueint.toInt - double valueint.toInt).abs ≤ dblEpsilon := by
    rw [exact.sub exact zero]
    rw [sub_self] at zero
    rw [zero.abs_nonneg (le_refl _), zero.le_iff exact_dblEpsilon]
    positivity
  have above : double valueint.toInt ≤ double (2 ^ 31 - 1) := by
    rw [exact.le_iff (exact_double (by decide)), Int.cast_le]
    omega
  have below : double valueint.toInt ≥ double (-2 ^ 31) := by
    rw [ge_iff_le, (exact_double (by decide)).le_iff exact, Int.cast_le]
    exact low
  have digits : (decimalInt valueint.toInt).length ≤ 11 :=
    decimalInt_length_le (by decide) (by omega)
  rw [printNumber, if_pos ⟨none, above, below⟩]
  exact if_pos (by omega)

end Printed

end ShuangFa
