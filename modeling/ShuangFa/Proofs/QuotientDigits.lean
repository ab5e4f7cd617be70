import ShuangFa.Machine.Turns
import ShuangFa.Proofs.Division

/-! # The digits of a quotient

The digit that `mpi_div_mpi` tries first may be any number: the loop that lowers it leaves one which is
at most one too large, and the sum behind the difference makes this good. A digit that is too small stays
too small, and more of the dividend is left.
-/

namespace ShuangFa

open Machine

section Estimate

variable {d m q r x low below : UInt32}

/-- The loop ends when `r` wraps, or before. -/
theorem lowerHalf_ends (count : ℕ) (near : 2 ^ 32 ≤ r.toNat + count * d.toNat) :
    ∃ half, Ends (fun turns => lowerHalf d m turns q r) half := by
  induction count generalizing q r with
  | zero => exact absurd near (by have := r.toNat_lt; omega)
  | succ count ih =>
    by_cases more : d ≤ r ∧ r < m
    · have sum : (r + d).toNat = (r.toNat + d.toNat) % 2 ^ 32 := UInt32.toNat_add ..
      have again : ∃ half, Ends (fun turns => lowerHalf d m turns (q - 1) (r + d)) half := by
        rcases Nat.lt_or_ge (r.toNat + d.toNat) (2 ^ 32) with room | wraps
        · refine ih ?_
          rw [Nat.succ_mul] at near
          rw [sum, Nat.mod_eq_of_lt room]
          omega
        · have small := r.toNat_lt
          have bound := d.toNat_lt
          have left : ¬(d ≤ r + d ∧ r + d < m) := by
            rintro ⟨least, _⟩
            rw [UInt32.le_iff_toNat_le, sum] at least
            omega
          exact ⟨_, .of_succ (.of_forall fun turns => if_neg left)⟩
      obtain ⟨half, ends⟩ := again
      refine ⟨half, .of_succ ?_⟩
      simp only [lowerHalf, if_pos more]
      exact ends
    · exact ⟨_, .of_succ (.of_forall fun turns => if_neg more)⟩

theorem divideHalf_ends (normalised : 2 ^ 30 ≤ d.toNat) (x low : UInt32) :
    ∃ half, Ends (fun turns => divideHalf turns d x low) half := by
  have some_divisor : d >>> 16 ≠ 0 := by
    intro zero
    have upper := (halves d).2.1
    rw [zero, UInt32.toNat_zero] at upper
    omega
  simp only [divideHalf, if_neg some_divisor]
  split_ifs
  · obtain ⟨half, ends⟩ := @lowerHalf_ends d (x / (d >>> 16) * ((d <<< 16) >>> 16))
      (x / (d >>> 16) - 1) (((x - d >>> 16 * (x / (d >>> 16))) <<< 16 ||| low) + d) 4 (by omega)
    exact ⟨_, ends.bind (.of_forall fun _ => rfl)⟩
  · exact ⟨_, .of_forall fun _ => rfl⟩

theorem estimateDigit_ends (normalised : 2 ^ 30 ≤ d.toNat) (x below : UInt32) :
    ∃ digit, Ends (fun turns => estimateDigit turns d x below) digit := by
  simp only [estimateDigit]
  split_ifs
  · exact ⟨_, .of_forall fun _ => rfl⟩
  · obtain ⟨upper, first⟩ := divideHalf_ends normalised x (below >>> 16)
    obtain ⟨lower, second⟩ := divideHalf_ends normalised upper.2 ((below <<< 16) >>> 16)
    exact ⟨_, first.bind (second.bind (.of_forall fun _ => rfl))⟩

end Estimate

section Test

variable {X Y : Limbs} {t i : ℕ}

/-- The two top limbs of the divisor, the lower one of which may be missing. -/
def divisorTop (Y : Limbs) (t : ℕ) : Limbs :=
  [if t < 1 then 0 else Y.getD (t - 1) 0, Y.getD t 0]

/-- The three limbs of the dividend that a digit is tried on. -/
def dividendTop (X : Limbs) (i : ℕ) : Limbs :=
  [if i < 2 then 0 else X.getD (i - 2) 0, if i < 1 then 0 else X.getD (i - 1) 0, X.getD i 0]

theorem mpiMulInt_value (T Y : Limbs) (q : UInt32) :
    ∃ product, mpiMulInt ⟨1, T⟩ ⟨1, Y⟩ q = some ⟨1, product⟩ ∧
      limbsValue product = limbsValue Y * q.toNat := by
  obtain ⟨product, multiplied, value⟩ := mpiMulMpi_limbs ⟨1, T⟩ ⟨1, Y⟩ ⟨1, [q]⟩
  refine ⟨product, multiplied, value.trans ?_⟩
  rw [limbsValue_cons, limbsValue_nil, Nat.mul_zero, Nat.add_zero]

theorem exceeds_value (Y X : Limbs) (t i : ℕ) (q : UInt32) : exceeds Y X t i q =
    some (decide (limbsValue (dividendTop X i) < limbsValue (divisorTop Y t) * q.toNat)) := by
  obtain ⟨product, multiplied, value⟩ := mpiMulInt_value (divisorTop Y t) (divisorTop Y t) q
  have test := mpiCmpAbs_pos product (dividendTop X i)
  rw [value, ← mpiCmpMpi_one] at test
  simp only [← test]
  rw [divisorTop] at multiplied
  rw [exceeds, multiplied]
  rfl

/-- The digit that the loop leaves passes the test: zero does. -/
theorem lowerDigit_ends (Y X : Limbs) (t i : ℕ) (start : UInt32) :
    ∃ q, Ends (fun turns => lowerDigit Y X t i turns start) q ∧
      limbsValue (divisorTop Y t) * q.toNat ≤ limbsValue (dividendTop X i) := by
  obtain ⟨count, size⟩ : ∃ count, start.toNat = count := ⟨_, rfl⟩
  induction count generalizing start with
  | zero =>
    refine ⟨start, .of_succ (.of_forall fun turns => ?_), by rw [size, Nat.mul_zero]; exact Nat.zero_le _⟩
    rw [lowerDigit, exceeds_value, size, Nat.mul_zero]
    rfl
  | succ count ih =>
    rcases Nat.lt_or_ge (limbsValue (dividendTop X i)) (limbsValue (divisorTop Y t) * start.toNat)
      with more | passes
    · have less : (start - 1).toNat = count := by
        rw [UInt32.toNat_sub, size, UInt32.toNat_one]
        have bound := start.toNat_lt
        omega
      obtain ⟨q, ends, test⟩ := ih (start - 1) less
      refine ⟨q, .of_succ ?_, test⟩
      simp only [lowerDigit, exceeds_value, decide_eq_true more, Option.bind_eq_bind,
        Option.bind_some, if_true]
      exact ends
    · refine ⟨start, .of_succ (.of_forall fun turns => ?_), passes⟩
      rw [lowerDigit, exceeds_value, decide_eq_false (Nat.not_lt.mpr passes)]
      rfl

/-- A divisor that has its top bit but one set, in the limb `t`. -/
structure Normalised (Y : Limbs) (t : ℕ) : Prop where
  inside : t < Y.length
  low : 2 ^ 30 * (2 ^ 32) ^ t ≤ limbsValue Y
  high : limbsValue Y < 2 ^ 31 * (2 ^ 32) ^ t

namespace Normalised

variable (normalised : Normalised Y t)

include normalised

theorem pos : 0 < limbsValue Y := lt_of_lt_of_le (by positivity) normalised.low

theorem top : (Y.getD t 0).toNat = limbsValue Y / (2 ^ 32) ^ t ∧ 2 ^ 30 ≤ (Y.getD t 0).toNat := by
  have small : limbsValue Y / (2 ^ 32) ^ t < 2 ^ 31 := by
    apply Nat.div_lt_of_lt_mul
    rw [Nat.mul_comm]
    exact normalised.high
  have large : 2 ^ 30 ≤ limbsValue Y / (2 ^ 32) ^ t :=
    (Nat.le_div_iff_mul_le (by positivity)).mpr normalised.low
  rw [limb_value]
  omega

/-- What the limbs at the top of the divisor leave out is less than one of their unit. -/
theorem divisorTop_value :
    limbsValue Y * 2 ^ 32 < (limbsValue (divisorTop Y t) + 1) * (2 ^ 32) ^ t := by
  have first := normalised.top.1
  cases t with
  | zero =>
    rw [pow_zero, Nat.div_one] at first
    rw [divisorTop, if_pos Nat.one_pos, limbsValue_cons, limbsValue_cons, limbsValue_nil, first,
      UInt32.toNat_zero, pow_zero]
    omega
  | succ t =>
    have second := limb_value Y t
    rw [pow_succ (2 ^ 32) t, ← Nat.div_div_eq_div_mul] at first
    have both : limbsValue (divisorTop Y (t + 1)) = limbsValue Y / (2 ^ 32) ^ t := by
      rw [divisorTop, if_neg (by omega), Nat.add_sub_cancel, limbsValue_cons, limbsValue_cons,
        limbsValue_nil, first, second, Nat.mul_zero, Nat.add_zero, Nat.mod_add_div]
    have bound := Nat.lt_mul_div_succ (limbsValue Y) (show 0 < (2 ^ 32) ^ t by positivity)
    rw [both, pow_succ (2 ^ 32) t, ← Nat.mul_assoc, Nat.mul_comm _ ((2 ^ 32) ^ t)]
    exact Nat.mul_lt_mul_of_pos_right bound (by norm_num)

end Normalised

/-- The limbs that a digit is tried on are not more than the dividend. -/
theorem dividendTop_value (X : Limbs) (some_limb : 1 ≤ i) :
    limbsValue (dividendTop X i) * (2 ^ 32) ^ (i - 1) ≤ limbsValue X * 2 ^ 32 := by
  have limb := limb_value X
  rcases Nat.lt_or_ge i 2 with short | long
  · obtain rfl : i = 1 := by omega
    have first := limb 0
    have second := limb 1
    rw [pow_zero, Nat.div_one] at first
    rw [pow_one] at second
    rw [dividendTop, if_pos short, if_neg (Nat.lt_irrefl 1), limbsValue_cons, limbsValue_cons,
      limbsValue_cons, limbsValue_nil, Nat.sub_self, first, second, UInt32.toNat_zero, pow_zero]
    omega
  · obtain ⟨place, rfl⟩ : ∃ place, i = place + 2 := ⟨i - 2, by omega⟩
    have first := limb place
    have second := limb (place + 1)
    have third := limb (place + 2)
    rw [pow_succ (2 ^ 32), ← Nat.div_div_eq_div_mul] at second
    rw [pow_succ (2 ^ 32), pow_succ (2 ^ 32), ← Nat.div_div_eq_div_mul, ← Nat.div_div_eq_div_mul]
      at third
    have whole := Nat.div_mul_le_self (limbsValue X) ((2 ^ 32) ^ place)
    have part : limbsValue (dividendTop X (place + 2)) ≤ limbsValue X / (2 ^ 32) ^ place := by
      rw [dividendTop, if_neg (by omega), if_neg (by omega), limbsValue_cons, limbsValue_cons,
        limbsValue_cons, limbsValue_nil, Nat.add_sub_cancel, show place + 2 - 1 = place + 1 by omega,
        first, second, third]
      generalize limbsValue X / (2 ^ 32) ^ place = limbs
      omega
    calc
      limbsValue (dividendTop X (place + 2)) * (2 ^ 32) ^ (place + 2 - 1) ≤
          limbsValue X / (2 ^ 32) ^ place * (2 ^ 32) ^ (place + 1) := Nat.mul_le_mul_right _ part
      _ = limbsValue X / (2 ^ 32) ^ place * (2 ^ 32) ^ place * 2 ^ 32 := by
        rw [pow_succ (2 ^ 32) place, Nat.mul_assoc]
      _ ≤ limbsValue X * 2 ^ 32 := Nat.mul_le_mul_right _ whole

/-- A digit that passes the test takes less than one divisor too much. -/
theorem Normalised.digit_bound (normalised : Normalised Y t) (inside : t < i) {q : UInt32}
    (passes : limbsValue (divisorTop Y t) * q.toNat ≤ limbsValue (dividendTop X i)) :
    limbsValue Y * q.toNat * (2 ^ 32) ^ (i - t - 1) <
      limbsValue X + limbsValue Y * (2 ^ 32) ^ (i - t - 1) := by
  obtain ⟨m, place⟩ : ∃ m, i - t - 1 = m := ⟨_, rfl⟩
  have exponent : (2 ^ 32) ^ t * (2 ^ 32) ^ m = (2 ^ 32) ^ (i - 1) := by
    rw [← pow_add]
    congr 1
    omega
  have unit : q.toNat * (2 ^ 32) ^ (i - 1) < limbsValue Y * (2 ^ 32) ^ m * 2 ^ 32 := by
    calc
      q.toNat * (2 ^ 32) ^ (i - 1) < 2 ^ 32 * (2 ^ 32) ^ (i - 1) :=
        Nat.mul_lt_mul_of_pos_right q.toNat_lt (by positivity)
      _ = (2 ^ 32) ^ t * (2 ^ 32) ^ m * 2 ^ 32 := by
        rw [exponent]
        ring
      _ ≤ limbsValue Y * (2 ^ 32) ^ m * 2 ^ 32 := by
        have low := normalised.low
        gcongr
        omega
  have whole : limbsValue Y * q.toNat * (2 ^ 32) ^ m * 2 ^ 32 <
      (limbsValue X + limbsValue Y * (2 ^ 32) ^ m) * 2 ^ 32 := by
    calc
      limbsValue Y * q.toNat * (2 ^ 32) ^ m * 2 ^ 32 =
          limbsValue Y * 2 ^ 32 * (q.toNat * (2 ^ 32) ^ m) := by ring
      _ ≤ (limbsValue (divisorTop Y t) + 1) * (2 ^ 32) ^ t * (q.toNat * (2 ^ 32) ^ m) :=
        Nat.mul_le_mul_right _ normalised.divisorTop_value.le
      _ = limbsValue (divisorTop Y t) * q.toNat * (2 ^ 32) ^ (i - 1) +
          q.toNat * (2 ^ 32) ^ (i - 1) := by
        rw [← exponent]
        ring
      _ ≤ limbsValue (dividendTop X i) * (2 ^ 32) ^ (i - 1) + q.toNat * (2 ^ 32) ^ (i - 1) :=
        Nat.add_le_add_right (Nat.mul_le_mul_right _ passes) _
      _ ≤ limbsValue X * 2 ^ 32 + q.toNat * (2 ^ 32) ^ (i - 1) :=
        Nat.add_le_add_right (dividendTop_value X (by omega)) _
      _ < limbsValue X * 2 ^ 32 + limbsValue Y * (2 ^ 32) ^ m * 2 ^ 32 :=
        Nat.add_lt_add_left unit _
      _ = _ := (Nat.add_mul ..).symm
  rw [place]
  exact Nat.lt_of_mul_lt_mul_right whole

end Test

section Turn

variable {X Y : Limbs} {t i : ℕ}

/-- A turn takes a multiple of the divisor from the dividend, which does not become negative. -/
theorem divTurn_value (normalised : Normalised Y t) (inside : t < i)
    (some_limb : i < X.length) : ∃ rest q,
      Ends (fun turns => divTurn turns Y t i ⟨1, X⟩) (⟨1, rest⟩, q) ∧ X.length ≤ rest.length ∧
      limbsValue rest + q.toNat * limbsValue Y * (2 ^ 32) ^ (i - t - 1) = limbsValue X := by
  obtain ⟨start, estimated⟩ := estimateDigit_ends normalised.top.2 (X.getD i 0) (X.getD (i - 1) 0)
  obtain ⟨q, lowered, passes⟩ := lowerDigit_ends Y X t i start
  obtain ⟨product, multiplied, productValue⟩ := mpiMulInt_value [0, 0] Y q
  have bound := normalised.digit_bound inside passes
  have power : 2 ^ (32 * (i - t - 1)) = (2 ^ 32) ^ (i - t - 1) := pow_mul ..
  have taken := (mpiShiftL_value product (32 * (i - t - 1))).1
  rw [productValue, power] at taken
  have added := (mpiShiftL_value (mpiCopy [0, 0] Y) (32 * (i - t - 1))).1
  rw [(mpiCopy_value [0, 0] Y).1, power] at added
  have first : Y[t]? = some (Y.getD t 0) := by
    rw [List.getElem?_eq_getElem normalised.inside, List.getD_eq_getElem _ _ normalised.inside]
  have second : X[i]? = some (X.getD i 0) := by
    rw [List.getElem?_eq_getElem some_limb, List.getD_eq_getElem _ _ some_limb]
  have run {last : Mpi × UInt32} (tail : (do
      let X ← mpiSubMpi ⟨1, X⟩ ⟨1, X⟩ ⟨1, mpiShiftL product (32 * (i - t - 1))⟩
      if mpiCmpInt X 0 < 0 then do
        let X ← mpiAddMpi X X ⟨1, mpiShiftL (mpiCopy [0, 0] Y) (32 * (i - t - 1))⟩
        some (X, q - 1)
      else some (X, q)) = some last) : Ends (fun turns => divTurn turns Y t i ⟨1, X⟩) last := by
    simp only [divTurn, first, second, Option.bind_eq_bind, Option.bind_some]
    refine estimated.bind (lowered.bind (.of_forall fun _ => ?_))
    simp only [multiplied, Option.bind_some]
    exact tail
  rcases Nat.lt_or_ge (limbsValue X) (limbsValue Y * q.toNat * (2 ^ 32) ^ (i - t - 1))
    with negative | enough
  · obtain ⟨below, subtracted, belowSize, belowValue⟩ := mpiSubMpi_of_lt (negative.trans_eq taken.symm)
    obtain ⟨rest, raised, restSize, restValue⟩ := @mpiAddMpi_of_lt below
      (mpiShiftL (mpiCopy [0, 0] Y) (32 * (i - t - 1))) (by omega)
    rw [taken] at belowValue
    rw [added] at restValue
    have some_digit : q.toNat ≠ 0 := by
      intro zero
      rw [zero, Nat.mul_zero, Nat.zero_mul] at negative
      exact Nat.not_lt_zero _ negative
    have less : (q - 1).toNat + 1 = q.toNat := by
      rw [UInt32.toNat_sub, UInt32.toNat_one]
      have bound := q.toNat_lt
      omega
    refine ⟨rest, q - 1, run ?_, belowSize.trans restSize, ?_⟩
    · rw [subtracted, Option.bind_eq_bind, Option.bind_some, if_pos (mpiCmpInt_neg (by omega)), raised]
      rfl
    · have split : limbsValue Y * q.toNat * (2 ^ 32) ^ (i - t - 1) =
          (q - 1).toNat * limbsValue Y * (2 ^ 32) ^ (i - t - 1) +
            limbsValue Y * (2 ^ 32) ^ (i - t - 1) := by
        rw [← less]
        ring
      omega
  · obtain ⟨rest, subtracted, size, value⟩ := mpiSubMpi_of_le (taken.trans_le enough)
    refine ⟨rest, q, run ?_, size.ge, ?_⟩
    · rw [subtracted, Option.bind_eq_bind, Option.bind_some, if_neg (mpiCmpInt_one rest)]
    · rw [← value, taken, Nat.mul_comm (limbsValue Y)]

/-- All turns together take the digits times the divisor. -/
theorem divLoop_value (normalised : Normalised Y t) (count : ℕ) (some_limb : t + count < X.length) :
    ∃ rest digits, Ends (fun turns => divLoop turns Y t count ⟨1, X⟩) (⟨1, rest⟩, digits) ∧
      digits.length = count ∧ limbsValue rest + limbsValue digits * limbsValue Y = limbsValue X := by
  induction count generalizing X with
  | zero =>
    refine ⟨X, [], .of_forall fun _ => rfl, rfl, ?_⟩
    rw [limbsValue_nil, Nat.zero_mul, Nat.add_zero]
  | succ count ih =>
    obtain ⟨left, q, turned, size, value⟩ := divTurn_value normalised
      (show t < t + count + 1 by omega) some_limb
    obtain ⟨rest, digits, looped, length, rested⟩ := ih (show t + count < left.length by omega)
    refine ⟨rest, digits ++ [q], ?_, by rw [List.length_append, length]; rfl, ?_⟩
    · simp only [divLoop]
      exact turned.bind (looped.bind (.of_forall fun _ => rfl))
    · rw [show t + count + 1 - t - 1 = count by omega] at value
      rw [limbsValue_append, length, limbsValue_cons, limbsValue_nil, ← value, ← rested]
      ring

end Turn

end ShuangFa
