import Mathlib

/-! # Exact results in binary64

A result that binary64 has is not rounded: a mantissa of 53 bits and its exponent come back from any
mantissa and exponent of the same value. So addition, subtraction and multiplication are exact where
the exact result is a number of binary64, whole numbers up to `2 ^ 53` are such numbers, and doubles
compare as their values do.
-/

namespace Floating

open Float.Model Float.Model.UnpackedFloat

section Rounding

variable {mantissa k : ℕ} {exponent e : ℤ} {s : Sign}

/-- A mantissa of 53 bits with an exponent that leaves room on both sides. -/
structure Normal (mantissa : ℕ) (exponent : ℤ) : Prop where
  full : 2 ^ 52 ≤ mantissa
  short : mantissa < 2 ^ 53
  low : -1074 ≤ exponent
  high : exponent ≤ 971

theorem Normal.pos (normal : Normal mantissa e) : 0 < mantissa :=
  Nat.lt_of_lt_of_le (by decide) normal.full

/-- Zeros at the end of a mantissa do not move its first digit. -/
theorem totalExponent_zeros (positive : 0 < mantissa) (e : ℤ) (k : ℕ) :
    totalExponent (mantissa * 2 ^ k) (e - k) = totalExponent mantissa e := by
  have log : (mantissa * 2 ^ k).log2 = mantissa.log2 + k := by
    obtain ⟨low, high⟩ := (Nat.log2_eq_iff positive.ne').mp rfl
    rw [Nat.log2_eq_iff (Nat.mul_pos positive (Nat.two_pow_pos k)).ne']
    constructor
    · rw [pow_add]
      exact Nat.mul_le_mul_right _ low
    · rw [Nat.add_right_comm, pow_add]
      exact Nat.mul_lt_mul_of_pos_right high (Nat.two_pow_pos k)
  rw [totalExponent, totalExponent, log]
  push_cast
  omega

theorem Normal.targetExponent (normal : Normal mantissa e) :
    Format.binary64.targetExponent (totalExponent mantissa e) = e := by
  have low := normal.low
  have log : mantissa.log2 = 52 := (Nat.log2_eq_iff normal.pos.ne').mpr ⟨normal.full, normal.short⟩
  rw [Format.targetExponent, totalExponent, log]
  simp only [Format.mantissaBits, Format.minExponent]
  norm_num
  omega

/-- Zeros are shifted out without a trace. -/
theorem shiftRight_zeros (mantissa k : ℕ) :
    (⟨mantissa * 2 ^ k, false, false⟩ : ExtendedMantissa) >>> k = ⟨mantissa, false, false⟩ := by
  change Nat.repeat ExtendedMantissa.shiftRightOne k _ = _
  induction k generalizing mantissa with
  | zero => rw [pow_zero, Nat.mul_one, Nat.repeat]
  | succ k ih =>
    have even : mantissa * 2 ^ (k + 1) = mantissa * 2 * 2 ^ k := by ring
    rw [Nat.repeat, even, ih, ExtendedMantissa.shiftRightOne]
    simp

theorem Normal.shiftToTargetExponent (normal : Normal mantissa e) (k : ℕ) :
    shiftToTargetExponent Format.binary64 (mantissa * 2 ^ k) (e - k) .exact =
      (⟨mantissa, false, false⟩, e) := by
  have amount : (e - (e - (k : ℤ))).toNat = k := by omega
  rw [UnpackedFloat.shiftToTargetExponent, totalExponent_zeros normal.pos, normal.targetExponent,
    shiftToExponent, amount, ExtendedMantissa.ofMantissaAndAccuracy, shiftRight_zeros, sub_add_cancel]

/-- Zeros at the end of a mantissa are dropped. -/
theorem Normal.roundWithAccuracy (normal : Normal mantissa e) (s : Sign) (k : ℕ) :
    roundWithAccuracy Format.binary64 s (mantissa * 2 ^ k) (e - k) .exact =
      .finite s mantissa e normal.pos := by
  have again := normal.shiftToTargetExponent 0
  rw [pow_zero, Nat.mul_one, Nat.cast_zero, sub_zero] at again
  rw [UnpackedFloat.roundWithAccuracy, normal.shiftToTargetExponent]
  dsimp only
  rw [show (⟨mantissa, false, false⟩ : ExtendedMantissa).roundedMantissa = mantissa from rfl, again]
  exact dif_neg normal.pos.ne'

/-- Two ways to write a value: one of the mantissas has zeros at its end. -/
theorem zeros_of_value {first second : ℕ} {left right : ℤ}
    (same : (first : ℚ) * 2 ^ left = second * 2 ^ right) :
    (∃ k : ℕ, left = right - k ∧ first = second * 2 ^ k) ∨
      ∃ k : ℕ, right = left - k ∧ second = first * 2 ^ k := by
  have scaled {a b : ℕ} {i j : ℤ} (same : (a : ℚ) * 2 ^ i = b * 2 ^ j) (less : i ≤ j) :
      ∃ k : ℕ, i = j - k ∧ a = b * 2 ^ k := by
    obtain ⟨k, rfl⟩ := Int.exists_add_of_le less
    refine ⟨k, by omega, ?_⟩
    rw [zpow_add₀ two_ne_zero, zpow_natCast, mul_comm ((2 : ℚ) ^ i), ← mul_assoc] at same
    exact_mod_cast mul_right_cancel₀ (zpow_ne_zero i two_ne_zero) same
  rcases le_total left right with less | less
  · exact .inl (scaled same less)
  · exact .inr (scaled same.symm less)

/-- A value of binary64 is not rounded, however it is written. -/
theorem Normal.round (normal : Normal mantissa e) (s : Sign) {other : ℕ}
    (same : (other : ℚ) * 2 ^ exponent = mantissa * 2 ^ e) :
    UnpackedFloat.round Format.binary64 s other exponent = .finite s mantissa e normal.pos := by
  rw [UnpackedFloat.round]
  rcases zeros_of_value same with ⟨k, rfl, rfl⟩ | ⟨k, rfl, rfl⟩
  · have amount : (e - (k : ℤ) - e).toNat = 0 := by omega
    rw [totalExponent_zeros normal.pos, normal.targetExponent, decreaseExponent, amount]
    dsimp only
    rw [Nat.shiftLeft_zero, Nat.cast_zero, sub_zero, normal.roundWithAccuracy]
  · have amount : (exponent - (exponent - (k : ℤ))).toNat = k := by omega
    have target := normal.targetExponent
    rw [totalExponent_zeros (Nat.pos_of_mul_pos_right normal.pos)] at target
    have alone := normal.roundWithAccuracy s 0
    rw [pow_zero, Nat.mul_one, Nat.cast_zero, sub_zero] at alone
    rw [target, decreaseExponent, amount]
    dsimp only
    rw [Nat.shiftLeft_eq, alone]

end Rounding

section Values

variable {x y z : UnpackedFloat} {p q : ℚ} {mantissa : ℕ} {e : ℤ} {s : Sign}

/-- The sign as a factor. -/
def factor : Sign → ℚ
  | .negative => -1
  | .positive => 1

theorem factor_mul (s t : Sign) : factor (s * t) = factor s * factor t := by
  cases s <;> cases t
  · change (1 : ℚ) = -1 * -1
    norm_num
  · change (-1 : ℚ) = -1 * 1
    norm_num
  · change (-1 : ℚ) = 1 * -1
    norm_num
  · change (1 : ℚ) = 1 * 1
    norm_num

theorem apply_cast (s : Sign) (whole : ℤ) : ((s.apply whole : ℤ) : ℚ) = factor s * whole := by
  cases s
  · rw [Sign.apply, factor, neg_one_mul, Int.cast_neg]
  · rw [Sign.apply, factor, one_mul]

/-- A double is the positive zero or a normal number, and has a value. -/
inductive Keeps : UnpackedFloat → ℚ → Prop where
  | zero {q : ℚ} (same : q = 0) : Keeps (.zero .positive) q
  | finite {s : Sign} {mantissa : ℕ} {e : ℤ} {q : ℚ} (normal : Normal mantissa e)
    (same : q = factor s * (mantissa * 2 ^ e)) : Keeps (.finite s mantissa e normal.pos) q

theorem Normal.scaled_pos (normal : Normal mantissa e) : (0 : ℚ) < mantissa * 2 ^ e :=
  mul_pos (Nat.cast_pos.mpr normal.pos) (zpow_pos two_pos e)

/-- A number of a value is rounded to the double of that value. -/
theorem normalize_of_keeps (keeps : Keeps x q) {whole exponent : ℤ}
    (same : (whole : ℚ) * 2 ^ exponent = q) :
    UnpackedFloat.normalize Format.binary64 whole exponent .positive = x := by
  have scale : (0 : ℚ) < 2 ^ exponent := zpow_pos two_pos exponent
  cases keeps with
  | zero zero =>
    rw [zero, mul_eq_zero, or_iff_left scale.ne', Int.cast_eq_zero] at same
    rw [same]
    rfl
  | @finite s mantissa e _ normal value =>
    have positive := normal.scaled_pos
    rw [value] at same
    cases s with
    | negative =>
      rw [factor, neg_one_mul] at same
      have below : (whole : ℚ) < 0 := by
        by_contra above
        have product := mul_nonneg (not_lt.mp above) scale.le
        linarith
      have negative : whole < 0 := Int.cast_lt_zero.mp below
      obtain ⟨other, swapped⟩ := Int.eq_ofNat_of_zero_le (Int.neg_nonneg.mpr negative.le)
      rw [UnpackedFloat.normalize, Int.compare_eq_lt.mpr negative]
      dsimp only
      rw [swapped, Int.toNat_natCast]
      apply normal.round
      rw [← Int.cast_natCast other, ← swapped, Int.cast_neg]
      linarith
    | positive =>
      rw [factor, one_mul] at same
      have above : (0 : ℚ) < whole := by
        by_contra below
        have product := mul_nonpos_of_nonpos_of_nonneg (not_lt.mp below) scale.le
        linarith
      have positive : 0 < whole := Int.cast_pos.mp above
      obtain ⟨other, rfl⟩ := Int.eq_ofNat_of_zero_le positive.le
      rw [UnpackedFloat.normalize, Int.compare_eq_gt.mpr positive]
      dsimp only
      rw [Int.toNat_natCast]
      exact normal.round _ (by rwa [Int.cast_natCast] at same)

/-- A number as a whole number and an exponent. -/
theorem Keeps.normalize (keeps : Keeps x q) : ∃ whole exponent : ℤ, (whole : ℚ) * 2 ^ exponent = q ∧
    UnpackedFloat.normalize Format.binary64 whole exponent .positive = x := by
  obtain ⟨whole, exponent, same⟩ : ∃ whole exponent : ℤ, (whole : ℚ) * 2 ^ exponent = q := by
    cases keeps with
    | zero same => exact ⟨0, 0, by rw [same, Int.cast_zero, zero_mul]⟩
    | @finite s mantissa e _ normal same =>
      exact ⟨s.apply mantissa, e, by rw [apply_cast, same, Int.cast_natCast, mul_assoc]⟩
  exact ⟨whole, exponent, same, normalize_of_keeps keeps same⟩

/-- A value has one double. -/
theorem Keeps.unique (first : Keeps x q) (second : Keeps y q) : x = y := by
  obtain ⟨whole, exponent, same, rfl⟩ := first.normalize
  exact normalize_of_keeps second same

/-- A mantissa with more zeros has the same value. -/
theorem shiftLeft_value {mantissa : ℕ} {e other : ℤ} (less : other ≤ e) :
    ((mantissa <<< (e - other).toNat : ℕ) : ℚ) * 2 ^ other = mantissa * 2 ^ e := by
  have amount : ((e - other).toNat : ℤ) + other = e := by omega
  rw [Nat.shiftLeft_eq, Nat.cast_mul, Nat.cast_pow, Nat.cast_ofNat, mul_assoc,
    ← zpow_natCast, ← zpow_add₀ two_ne_zero, amount]

/-- A sum that binary64 has is exact. -/
theorem add_of_keeps (first : Keeps x p) (second : Keeps y q) (sum : Keeps z (p + q)) :
    UnpackedFloat.add Format.binary64 x y = z := by
  cases first with
  | zero none =>
    rw [none, zero_add] at sum
    cases second with
    | zero same => exact (Keeps.zero same).unique sum
    | finite normal same => exact (Keeps.finite normal same).unique sum
  | @finite s m e _ normal value =>
    cases second with
    | zero none =>
      rw [none, add_zero] at sum
      exact (Keeps.finite normal value).unique sum
    | @finite t n f _ other same =>
      apply normalize_of_keeps sum
      rw [Int.cast_add, apply_cast, apply_cast, Int.cast_natCast, Int.cast_natCast, add_mul,
        mul_assoc, mul_assoc, shiftLeft_value (min_le_left e f),
        shiftLeft_value (min_le_right e f), value, same]

/-- A difference that binary64 has is exact. -/
theorem sub_of_keeps (first : Keeps x p) (second : Keeps y q) (difference : Keeps z (p - q)) :
    UnpackedFloat.sub Format.binary64 x y = z := by
  cases first with
  | zero none =>
    rw [none, zero_sub] at difference
    cases second with
    | zero same =>
      rw [same, neg_zero] at difference
      exact (Keeps.zero rfl).unique difference
    | @finite t n f _ other same =>
      refine Keeps.unique (.finite other ?_) difference
      rw [same]
      cases t
      · change _ = factor .positive * _
        rw [factor, factor, neg_one_mul, one_mul, neg_neg]
      · change _ = factor .negative * _
        rw [factor, factor, neg_one_mul, one_mul]
  | @finite s m e _ normal value =>
    cases second with
    | zero none =>
      rw [none, sub_zero] at difference
      exact (Keeps.finite normal value).unique difference
    | @finite t n f _ other same =>
      apply normalize_of_keeps difference
      rw [Int.cast_sub, apply_cast, apply_cast, Int.cast_natCast, Int.cast_natCast, sub_mul,
        mul_assoc, mul_assoc, shiftLeft_value (min_le_left e f),
        shiftLeft_value (min_le_right e f), value, same]

/-- A product that binary64 has is exact; a zero and a negative number make no positive zero. -/
theorem mul_of_keeps (first : Keeps x p) (second : Keeps y q)
    (signs : p ≠ 0 ∧ q ≠ 0 ∨ 0 ≤ p ∧ 0 ≤ q) (product : Keeps z (p * q)) :
    UnpackedFloat.mul Format.binary64 x y = z := by
  have nonnegative {s : Sign} {scaled : ℚ} (positive : 0 < scaled) (above : 0 ≤ factor s * scaled) :
      s = .positive := by
    cases s
    · rw [factor, neg_one_mul] at above
      linarith
    · rfl
  cases first with
  | zero none =>
    rw [none, zero_mul] at product
    rcases signs with ⟨left, _⟩ | ⟨_, above⟩
    · exact absurd none left
    cases second with
    | zero same => exact (Keeps.zero rfl).unique product
    | finite normal same =>
      obtain rfl := nonnegative normal.scaled_pos (same ▸ above)
      exact (Keeps.zero rfl).unique product
  | @finite s m e _ normal value =>
    cases second with
    | zero none =>
      rw [none, mul_zero] at product
      rcases signs with ⟨_, right⟩ | ⟨above, _⟩
      · exact absurd none right
      obtain rfl := nonnegative normal.scaled_pos (value ▸ above)
      exact (Keeps.zero rfl).unique product
    | @finite t n f _ other same =>
      have scaled : p * q = factor (s * t) * (((m * n : ℕ) : ℚ) * 2 ^ (e + f)) := by
        rw [value, same, factor_mul, zpow_add₀ two_ne_zero, Nat.cast_mul]
        ring
      have whole : (0 : ℚ) < ((m * n : ℕ) : ℚ) * 2 ^ (e + f) :=
        mul_pos (Nat.cast_pos.mpr (Nat.mul_pos normal.pos other.pos)) (zpow_pos two_pos _)
      cases product with
      | zero none =>
        rw [none] at scaled
        cases st : s * t <;> rw [st, factor] at scaled <;> linarith
      | @finite u l g _ third final =>
        rw [scaled] at final
        have positive := third.scaled_pos
        obtain ⟨rfl, equal⟩ : s * t = u ∧ ((m * n : ℕ) : ℚ) * 2 ^ (e + f) = l * 2 ^ g := by
          cases st : s * t <;> cases u <;> simp only [st, factor] at final
          · exact ⟨rfl, by linarith⟩
          · linarith
          · linarith
          · exact ⟨rfl, by linarith⟩
        change UnpackedFloat.roundWithAccuracy _ _ _ _ _ = _
        rcases zeros_of_value equal with ⟨k, exponents, mantissas⟩ | ⟨k, exponents, mantissas⟩
        · rw [exponents, mantissas, third.roundWithAccuracy]
        · have large : 2 ^ 52 * 2 ^ 52 ≤ m * n := Nat.mul_le_mul normal.full other.full
          have small := third.short
          have zeros : m * n ≤ m * n * 2 ^ k := Nat.le_mul_of_pos_right _ (Nat.two_pow_pos k)
          omega

/-- Whole numbers up to `2 ^ 53` are numbers of binary64. -/
theorem keeps_ofInt {whole : ℤ} (small : whole.natAbs ≤ 2 ^ 53) :
    Keeps (ofInt Format.binary64 whole) whole := by
  suffices kept : ∃ x, Keeps x whole by
    obtain ⟨x, keeps⟩ := kept
    have same : ofInt Format.binary64 whole = x :=
      normalize_of_keeps keeps (by rw [zpow_zero, mul_one])
    rwa [same]
  rcases eq_or_ne whole 0 with rfl | nonzero
  · exact ⟨_, .zero Int.cast_zero⟩
  obtain ⟨s, sign⟩ : ∃ s, (whole : ℚ) = factor s * whole.natAbs := by
    rcases Int.natAbs_eq whole with above | below
    · exact ⟨.positive, by rw [factor, one_mul, ← Int.cast_natCast, ← above]⟩
    · refine ⟨.negative, ?_⟩
      rw [factor, neg_one_mul, ← Int.cast_natCast, ← Int.cast_neg, ← below]
  have positive : whole.natAbs ≠ 0 := Int.natAbs_ne_zero.mpr nonzero
  obtain ⟨low, high⟩ := (Nat.log2_eq_iff positive).mp rfl
  rcases Nat.lt_or_ge whole.natAbs (2 ^ 53) with short | large
  · have log : whole.natAbs.log2 < 53 := (Nat.log2_lt positive).mpr short
    have split : 52 = whole.natAbs.log2 + (52 - whole.natAbs.log2) := by omega
    have normal : Normal (whole.natAbs * 2 ^ (52 - whole.natAbs.log2))
        (-(52 - whole.natAbs.log2 : ℕ)) := by
      refine ⟨?_, ?_, by omega, by omega⟩
      · calc 2 ^ 52 = 2 ^ whole.natAbs.log2 * 2 ^ (52 - whole.natAbs.log2) := by
              rw [← pow_add, ← split]
          _ ≤ _ := Nat.mul_le_mul_right _ low
      · calc _ < 2 ^ (whole.natAbs.log2 + 1) * 2 ^ (52 - whole.natAbs.log2) :=
              Nat.mul_lt_mul_of_pos_right high (Nat.two_pow_pos _)
          _ = 2 ^ 53 := by rw [← pow_add]; congr 1; omega
    refine ⟨_, .finite (s := s) normal ?_⟩
    rw [sign, Nat.cast_mul, Nat.cast_pow, Nat.cast_ofNat, mul_assoc, ← zpow_natCast,
      ← zpow_add₀ two_ne_zero, add_neg_cancel, zpow_zero, mul_one]
  · have top : whole.natAbs = 2 ^ 52 * 2 := by omega
    refine ⟨_, .finite (s := s) (e := 1) ⟨Nat.le_refl (2 ^ 52), by norm_num, by norm_num, by norm_num⟩ ?_⟩
    rw [sign, top]
    norm_num

/-- A whole number is not truncated. -/
theorem toInt_of_keeps {whole : ℤ} (keeps : Keeps x whole) (least greatest : ℤ) :
    x.toInt least greatest = whole := by
  have signed (s : Sign) (number : ℤ) : ((s.apply number : ℤ) : ℚ) = (whole : ℚ) ↔
      s.apply number = whole := Int.cast_inj
  cases keeps with
  | zero none => exact (Int.cast_eq_zero.mp none).symm
  | @finite s m e _ normal same =>
    have magnitude : (m : ℚ) * 2 ^ e = (whole.natAbs : ℚ) * 2 ^ (0 : ℤ) := by
      have positive := normal.scaled_pos
      rw [zpow_zero, mul_one, Nat.cast_natAbs, Int.cast_abs, same, abs_mul, abs_of_pos positive]
      cases s
      · rw [factor, abs_neg, abs_one, one_mul]
      · rw [factor, abs_one, one_mul]
    rw [UnpackedFloat.toInt, roundToInt]
    rw [← signed, apply_cast, same]
    congr 1
    rw [magnitude, zpow_zero, mul_one, Int.cast_natCast, Nat.cast_inj]
    rcases zeros_of_value magnitude with ⟨k, rfl, rfl⟩ | ⟨k, exponent, whole⟩
    · have less : (0 - (k : ℤ) - 0).toNat = 0 := by omega
      have amount : (0 - (0 - (k : ℤ))).toNat = k := by omega
      rw [decreaseExponent, less]
      dsimp only
      rw [Nat.shiftLeft_zero, Nat.cast_zero, sub_zero, shiftToExponent, amount,
        ExtendedMantissa.ofMantissaAndAccuracy, shiftRight_zeros]
    · obtain rfl : e = k := by omega
      have amount : ((k : ℤ) - 0).toNat = k := by omega
      have none : (0 - ((k : ℤ) - k)).toNat = 0 := by omega
      rw [decreaseExponent, amount]
      dsimp only
      rw [shiftToExponent, none, Nat.shiftLeft_eq, ← whole]
      rfl

end Values

section Packing

variable {x : UnpackedFloat} {p q r : ℚ} {a b c : Float}

/-- A finite number as it is unpacked: a mantissa that is not full has the least exponent. -/
structure Canonical (mantissa : ℕ) (e : ℤ) : Prop where
  pos : 0 < mantissa
  short : mantissa < 2 ^ 53
  low : -1074 ≤ e
  high : e ≤ 971
  full : e = -1074 ∨ 2 ^ 52 ≤ mantissa

theorem Normal.canonical {mantissa : ℕ} {e : ℤ} (normal : Normal mantissa e) : Canonical mantissa e :=
  ⟨normal.pos, normal.short, normal.low, normal.high, .inr normal.full⟩

/-- What may be unpacked. -/
def Proper : UnpackedFloat → Prop
  | .finite _ mantissa e _ => Canonical mantissa e
  | _ => True

theorem Keeps.proper (keeps : Keeps x q) : Proper x := by
  cases keeps with
  | zero same => exact trivial
  | finite normal same => exact normal.canonical

theorem ofNat_ne {width value : ℕ} (small : value < 2 ^ width) {other : BitVec width}
    (apart : value ≠ other.toNat) : BitVec.ofNat width value ≠ other := by
  rintro rfl
  rw [BitVec.toNat_ofNat, Nat.mod_eq_of_lt small] at apart
  exact apart rfl

/-- A mantissa that is full has its first bit taken off, and put back. -/
theorem unpack_pack_full {s : Sign} {m : ℕ} {e : ℤ} {pos : 0 < m} (canonical : Canonical m e)
    (full : 2 ^ 52 ≤ m) : UnpackedFloat.unpack Format.binary64
      (UnpackedFloat.pack Format.binary64 (.finite s m e pos)) = .finite s m e pos := by
  obtain ⟨-, short, low, high, -⟩ := canonical
  have log : m.log2 = 52 := (Nat.log2_eq_iff (by omega)).mpr ⟨full, short⟩
  obtain ⟨biased, exponent⟩ := Int.eq_ofNat_of_zero_le (show 0 ≤ e + 1075 by omega)
  have range : 0 < biased ∧ biased < 2047 := by omega
  have packed : UnpackedFloat.pack Format.binary64 (.finite s m e pos) =
      packComponents Format.binary64 s (BitVec.ofNat 11 biased) (BitVec.ofNat 52 m) := by
    have bias : (e + (Format.binary64.exponentBias : ℤ) +
        (Format.binary64.mantissaBitsWithoutImplicit : ℤ)).toNat = biased := by
      simp only [Format.exponentBias]
      omega
    rw [UnpackedFloat.pack]
    dsimp only
    rw [bias, if_neg (show ¬ 2 ^ 11 ≤ biased + 1 by omega), if_pos (by rw [log]; rfl)]
  have finite : BitVec.ofNat 11 biased ≠ -1#_ := ofNat_ne (by omega) (show biased ≠ 2047 by omega)
  have large : BitVec.ofNat 11 biased ≠ 0#_ := ofNat_ne (by omega) (show biased ≠ 0 by omega)
  have mantissa : (1#1 ++ BitVec.ofNat 52 m).toNat = m := by
    have less : m % 2 ^ 52 < 2 ^ 52 := Nat.mod_lt _ (Nat.two_pow_pos _)
    rw [BitVec.toNat_append, BitVec.toNat_ofNat, BitVec.toNat_ofNat,
      ← Nat.shiftLeft_add_eq_or_of_lt less]
    omega
  rw [packed, UnpackedFloat.unpack]
  simp only [unpackExponent_packComponents, unpackMantissa_packComponents,
    unpackSign_packComponents, Sign.ofBitVec_toBitVec]
  rw [if_neg finite, if_neg large]
  congr 1
  rw [BitVec.toNat_ofNat, Nat.mod_eq_of_lt (show biased < 2 ^ 11 by omega)]
  simp only [Format.exponentBias]
  omega

/-- A mantissa that is not full stays. -/
theorem unpack_pack_subnormal {s : Sign} {m : ℕ} {pos : 0 < m} (small : m < 2 ^ 52) :
    UnpackedFloat.unpack Format.binary64
      (UnpackedFloat.pack Format.binary64 (.finite s m (-1074) pos)) = .finite s m (-1074) pos := by
  have log : m.log2 < 52 := (Nat.log2_lt pos.ne').mpr small
  have packed : UnpackedFloat.pack Format.binary64 (.finite s m (-1074) pos) =
      packComponents Format.binary64 s 0#_ (BitVec.ofNat 52 m) := by
    rw [UnpackedFloat.pack]
    dsimp only
    rw [if_neg (by decide), if_neg]
    change ¬ m.log2 + 1 = 53
    omega
  have nonzero : BitVec.ofNat 52 m ≠ 0#_ := ofNat_ne small pos.ne'
  rw [packed, UnpackedFloat.unpack]
  simp only [unpackExponent_packComponents, unpackMantissa_packComponents,
    unpackSign_packComponents, Sign.ofBitVec_toBitVec]
  rw [if_neg (by decide), if_pos trivial, dif_neg nonzero]
  congr 1
  rw [BitVec.toNat_ofNat, Nat.mod_eq_of_lt small]

/-- What is packed is unpacked. -/
theorem unpack_pack (proper : Proper x) :
    UnpackedFloat.unpack Format.binary64 (UnpackedFloat.pack Format.binary64 x) = x := by
  cases x with
  | notANumber => rfl
  | infinity s => cases s <;> rfl
  | zero s => cases s <;> rfl
  | finite s m e pos =>
    rcases Nat.lt_or_ge m (2 ^ 52) with small | full
    · obtain rfl := proper.full.resolve_right (by omega)
      exact unpack_pack_subnormal small
    · exact unpack_pack_full proper full

/-- What is unpacked may be. -/
theorem proper_unpack (d : Float) : Proper d.toModel.unpack := by
  rw [Float.Model.unpack]
  generalize d.toModel.toBits.toBitVec = bits
  rw [UnpackedFloat.unpack]
  have range := (@unpackExponent Format.binary64 bits).isLt
  have mantissa := (@unpackMantissa Format.binary64 bits).isLt
  dsimp only at range mantissa ⊢
  split_ifs with inf nan least zero
  · exact trivial
  · exact trivial
  · exact trivial
  · rw [least]
    exact ⟨Nat.pos_of_ne_zero fun none => zero (BitVec.eq_of_toNat_eq none), by omega, by decide,
      by decide, .inl rfl⟩
  · have finite : (@unpackExponent Format.binary64 bits).toNat ≠ 2047 :=
      fun same => inf (BitVec.eq_of_toNat_eq same)
    have nonzero : (@unpackExponent Format.binary64 bits).toNat ≠ 0 :=
      fun same => least (BitVec.eq_of_toNat_eq same)
    have bit : (1#1 ++ @unpackMantissa Format.binary64 bits).toNat =
        2 ^ 52 + (@unpackMantissa Format.binary64 bits).toNat := by
      rw [BitVec.toNat_append, ← Nat.shiftLeft_add_eq_or_of_lt mantissa]
      rfl
    refine ⟨?_, ?_, ?_, ?_, .inr ?_⟩
    · omega
    · omega
    · simp only [Format.exponentBias]
      omega
    · simp only [Format.exponentBias]
      omega
    · omega

/-- A double and its value, where nothing is rounded. -/
def Exact (d : Float) (q : ℚ) : Prop := ∃ x, Keeps x q ∧ d = .ofModel (.pack x)

theorem Exact.unpack (exact : Exact a p) : Keeps a.toModel.unpack p := by
  obtain ⟨x, keeps, rfl⟩ := exact
  have same : (Float.ofModel (.pack x)).toModel.unpack = x := unpack_pack keeps.proper
  rwa [same]

theorem Exact.eq_of_keeps (exact : Exact a p) (keeps : Keeps x p) : .ofModel (.pack x) = a := by
  obtain ⟨y, other, rfl⟩ := exact
  rw [keeps.unique other]

theorem Exact.unique (first : Exact a p) (second : Exact b p) : a = b := by
  obtain ⟨x, keeps, rfl⟩ := first
  exact second.eq_of_keeps keeps

theorem exact_ofInt {whole : ℤ} (small : whole.natAbs ≤ 2 ^ 53) :
    Exact (.ofModel (.ofInt whole)) whole := ⟨_, keeps_ofInt small, rfl⟩

theorem Exact.add (first : Exact a p) (second : Exact b q) (sum : Exact c (p + q)) : a + b = c := by
  obtain ⟨z, keeps, rfl⟩ := sum
  exact congrArg (fun x => Float.ofModel (.pack x)) (add_of_keeps first.unpack second.unpack keeps)

theorem Exact.sub (first : Exact a p) (second : Exact b q) (difference : Exact c (p - q)) :
    a - b = c := by
  obtain ⟨z, keeps, rfl⟩ := difference
  exact congrArg (fun x => Float.ofModel (.pack x)) (sub_of_keeps first.unpack second.unpack keeps)

theorem Exact.mul (first : Exact a p) (second : Exact b q)
    (signs : p ≠ 0 ∧ q ≠ 0 ∨ 0 ≤ p ∧ 0 ≤ q) (product : Exact c (p * q)) : a * b = c := by
  obtain ⟨z, keeps, rfl⟩ := product
  exact congrArg (fun x => Float.ofModel (.pack x)) (mul_of_keeps first.unpack second.unpack signs keeps)

end Packing

section Comparing

variable {x y : UnpackedFloat} {p q : ℚ} {a b : Float} {m n : ℕ} {e f : ℤ}

theorem Canonical.scaled_pos (canonical : Canonical m e) : (0 : ℚ) < m * 2 ^ e :=
  mul_pos (Nat.cast_pos.mpr canonical.pos) (zpow_pos two_pos e)

/-- A greater exponent makes a greater number. -/
theorem Canonical.scaled_lt (first : Canonical m e) (second : Canonical n f) (less : e < f) :
    (m : ℚ) * 2 ^ e < n * 2 ^ f := by
  have full : 2 ^ 52 ≤ n := second.full.resolve_left (by have := first.low; omega)
  calc (m : ℚ) * 2 ^ e < 2 ^ 53 * 2 ^ e :=
        mul_lt_mul_of_pos_right (by exact_mod_cast first.short) (zpow_pos two_pos e)
    _ = 2 ^ 52 * 2 ^ (e + 1) := by
        rw [zpow_add_one₀ two_ne_zero]
        ring
    _ ≤ 2 ^ 52 * 2 ^ f := by
        have raised : (2 : ℚ) ^ (e + 1) ≤ 2 ^ f := zpow_le_zpow_right₀ one_le_two less
        linarith
    _ ≤ n * 2 ^ f := mul_le_mul_of_nonneg_right (by exact_mod_cast full) (zpow_pos two_pos f).le

/-- Exponents first, then mantissas: positive numbers compare as their values do. -/
theorem Canonical.compare (first : Canonical m e) (second : Canonical n f) :
    (compare e f).then (compare m n) = cmp ((m : ℚ) * 2 ^ e) (n * 2 ^ f) := by
  rcases lt_trichotomy e f with less | rfl | greater
  · rw [Int.compare_eq_lt.mpr less, (cmp_eq_lt_iff _ _).mpr (first.scaled_lt second less)]
    rfl
  · have scale : (0 : ℚ) < 2 ^ e := zpow_pos two_pos e
    rw [Int.compare_eq_eq.mpr rfl, Ordering.eq_then, cmp_mul_pos_right scale]
    rcases lt_trichotomy m n with less | rfl | greater
    · rw [Nat.compare_eq_lt.mpr less, (cmp_eq_lt_iff _ _).mpr (by exact_mod_cast less)]
    · rw [Nat.compare_eq_eq.mpr rfl, (cmp_eq_eq_iff _ _).mpr rfl]
    · rw [Nat.compare_eq_gt.mpr greater, (cmp_eq_gt_iff _ _).mpr (by exact_mod_cast greater)]
  · rw [Int.compare_eq_gt.mpr greater, (cmp_eq_gt_iff _ _).mpr (second.scaled_lt first greater)]
    rfl

/-- Doubles compare as their values do. -/
theorem compare_of_keeps (first : Keeps x p) (second : Keeps y q) : x.compare y = some (cmp p q) := by
  cases first with
  | zero none =>
    cases second with
    | zero same =>
      rw [none, same, cmp_self_eq_eq]
      rfl
    | @finite t n f _ normal same =>
      have positive := normal.scaled_pos
      cases t
      · rw [none, (cmp_eq_gt_iff _ _).mpr (by rw [same, factor]; linarith)]
        rfl
      · rw [none, (cmp_eq_lt_iff _ _).mpr (by rw [same, factor]; linarith)]
        rfl
  | @finite s m e _ normal value =>
    have positive := normal.scaled_pos
    cases second with
    | zero none =>
      cases s
      · rw [none, (cmp_eq_lt_iff _ _).mpr (by rw [value, factor]; linarith)]
        rfl
      · rw [none, (cmp_eq_gt_iff _ _).mpr (by rw [value, factor]; linarith)]
        rfl
    | @finite t n f _ other same =>
      have magnitudes := normal.canonical.compare other.canonical
      have also := other.scaled_pos
      cases s <;> cases t
      · change some ((Ordering.then _ _).swap) = _
        rw [magnitudes, cmp_swap, value, same, factor,
          cmp_mul_neg_left (show (-1 : ℚ) < 0 by norm_num)]
      · rw [(cmp_eq_lt_iff _ _).mpr (by rw [value, same, factor, factor]; linarith)]
        rfl
      · rw [(cmp_eq_gt_iff _ _).mpr (by rw [value, same, factor, factor]; linarith)]
        rfl
      · change some (Ordering.then _ _) = _
        rw [magnitudes, value, same, factor, one_mul, one_mul]

theorem le_iff_compare (a b : Float) :
    a ≤ b ↔ (a.toModel.unpack.compare b.toModel.unpack).any (·.isLE) := by
  change decide (a.toModel ≤ b.toModel) = true ↔ _
  rw [decide_eq_true_iff]
  rfl

theorem lt_iff_compare (a b : Float) :
    a < b ↔ a.toModel.unpack.compare b.toModel.unpack = some .lt := by
  change decide (a.toModel < b.toModel) = true ↔ _
  rw [decide_eq_true_iff]
  exact beq_iff_eq

theorem Exact.le_iff (first : Exact a p) (second : Exact b q) : a ≤ b ↔ p ≤ q := by
  rw [le_iff_compare, compare_of_keeps first.unpack second.unpack, Option.any_some, Ordering.isLE_iff_ne_gt, ← not_lt,
    ← cmp_eq_gt_iff]

theorem Exact.abs_nonneg (exact : Exact a p) (nonneg : 0 ≤ p) : a.abs = a := by
  have keeps := exact.unpack
  change Float.ofModel (.pack (UnpackedFloat.abs a.toModel.unpack)) = a
  suffices same : UnpackedFloat.abs a.toModel.unpack = a.toModel.unpack by
    rw [same]
    exact exact.eq_of_keeps keeps
  revert keeps
  generalize a.toModel.unpack = x
  intro keeps
  cases keeps with
  | zero same => rfl
  | @finite s m e _ normal same =>
    have positive := normal.scaled_pos
    cases s
    · rw [same, factor] at nonneg
      linarith
    · rfl

/-- The magnitude of a double that has one. -/
def magnitude? : UnpackedFloat → Option ℚ
  | .zero _ => some 0
  | .finite _ mantissa e _ => some (mantissa * 2 ^ e)
  | _ => none

/-- The magnitudes of binary64. -/
theorem magnitude_range (proper : Proper x) (finite : magnitude? x = some p) :
    (p = 0 ∨ 1 / 2 ^ 1074 ≤ p) ∧ p < 2 ^ 1024 := by
  cases x with
  | notANumber => cases finite
  | infinity s => cases finite
  | zero s =>
    obtain rfl := Option.some.inj finite
    exact ⟨.inl rfl, by positivity⟩
  | finite s m e pos =>
    obtain rfl := Option.some.inj finite
    have canonical : Canonical m e := proper
    have scale : (0 : ℚ) < 2 ^ e := zpow_pos two_pos e
    refine ⟨.inr ?_, ?_⟩
    · calc (1 : ℚ) / 2 ^ 1074 = 1 * 2 ^ (-1074 : ℤ) := by
            rw [zpow_neg, one_mul, one_div]
            rfl
        _ ≤ 1 * 2 ^ e := by
            have raised : (2 : ℚ) ^ (-1074 : ℤ) ≤ 2 ^ e :=
              zpow_le_zpow_right₀ one_le_two canonical.low
            linarith
        _ ≤ m * 2 ^ e := mul_le_mul_of_nonneg_right (by exact_mod_cast canonical.pos) scale.le
    · calc (m : ℚ) * 2 ^ e < 2 ^ 53 * 2 ^ e :=
            mul_lt_mul_of_pos_right (by exact_mod_cast canonical.short) scale
        _ ≤ 2 ^ 53 * 2 ^ (971 : ℤ) := by
            have raised : (2 : ℚ) ^ e ≤ 2 ^ (971 : ℤ) :=
              zpow_le_zpow_right₀ one_le_two canonical.high
            linarith
        _ = 2 ^ 1024 := by
            rw [show (971 : ℤ) = (971 : ℕ) from rfl, zpow_natCast, ← pow_add]

theorem unpack_abs (d : Float) : d.abs.toModel.unpack = UnpackedFloat.abs d.toModel.unpack := by
  have proper := proper_unpack d
  apply unpack_pack
  cases unpacked : d.toModel.unpack with
  | finite s m e pos =>
    rw [unpacked] at proper
    exact proper
  | notANumber | infinity | zero => exact trivial

/-- A magnitude, if there is one, compares with a positive number as its value does. -/
theorem compare_magnitude (proper : Proper x) (positive : 0 < q) (keeps : Keeps y q) :
    x = .notANumber ∧ x.abs.compare y = none ∨
      x.abs.compare y = some .gt ∧ y.compare x.abs = some .lt ∨
        ∃ p, magnitude? x = some p ∧ x.abs.compare y = some (cmp p q) ∧
          y.compare x.abs = some (cmp q p) := by
  cases keeps with
  | zero same => exact absurd same positive.ne'
  | @finite t n f _ normal same =>
    have scaled := normal.scaled_pos
    obtain rfl : t = .positive := by
      cases t
      · rw [same, factor] at positive
        linarith
      · rfl
    rw [factor, one_mul] at same
    cases x with
    | notANumber => exact .inl ⟨rfl, rfl⟩
    | infinity s => exact .inr (.inl ⟨rfl, rfl⟩)
    | zero s =>
      refine .inr (.inr ⟨0, rfl, ?_, ?_⟩)
      · rw [(cmp_eq_lt_iff _ _).mpr positive]
        rfl
      · rw [(cmp_eq_gt_iff _ _).mpr positive]
        rfl
    | finite s m e pos =>
      refine .inr (.inr ⟨_, rfl, ?_, ?_⟩)
      · change some (Ordering.then _ _) = _
        rw [Canonical.compare proper normal.canonical, same]
      · change some (Ordering.then _ _) = _
        rw [Canonical.compare normal.canonical proper, same]

/-- A magnitude below a number is one of a finite double. -/
theorem magnitude_lt (bound : Exact b q) (positive : 0 < q) (less : a.abs < b) :
    ∃ p, magnitude? a.toModel.unpack = some p ∧ p < q := by
  rw [lt_iff_compare, unpack_abs] at less
  rcases compare_magnitude (proper_unpack a) positive bound.unpack with
    ⟨_, none⟩ | ⟨greater, _⟩ | ⟨p, finite, compared, _⟩
  · rw [none] at less
    cases less
  · rw [greater] at less
    cases less
  · rw [compared, Option.some.injEq, cmp_eq_lt_iff] at less
    exact ⟨p, finite, less⟩

/-- A double whose magnitude is not above a number is finite, or no number. -/
theorem magnitude_le (bound : Exact b q) (positive : 0 < q) (above : ¬ b < a.abs) :
    a.toModel.unpack = .notANumber ∨ ∃ p, magnitude? a.toModel.unpack = some p ∧ p ≤ q := by
  rw [lt_iff_compare, unpack_abs] at above
  rcases compare_magnitude (proper_unpack a) positive bound.unpack with
    ⟨none, _⟩ | ⟨_, less⟩ | ⟨p, finite, _, compared⟩
  · exact .inl none
  · exact absurd less above
  · rw [compared, Option.some.injEq, cmp_eq_lt_iff, not_lt] at above
    exact .inr ⟨p, finite, above⟩

end Comparing

end Floating
