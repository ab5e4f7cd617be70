import Mathlib.Data.Int.Order.Units
import Mathlib.Tactic.LinearCombination
import ShuangFa.Proofs.QuotientDigits
import ShuangFa.Soundness.BigNumbers

/-! # Quotients and remainders

The dividend is always the quotient times the divisor and the rest. The rest may be as large as the
divisor or larger, where a digit was tried too small; the loops of `mpi_mod_mpi` come to an end on it
and leave the remainder, if after a number of turns that has no useful bound.
-/

namespace ShuangFa

open Machine

section Normalisation

variable {Y Z : Limbs} {t : ℕ}

theorem Normalised.of_value (normalised : Normalised Y t) (inside : t < Z.length)
    (value : limbsValue Z = limbsValue Y) : Normalised Z t :=
  ⟨inside, value ▸ normalised.low, value ▸ normalised.high⟩

/-- The shift before the main loop leaves the top bit but one of the top limb set. -/
theorem normalised_mpiShiftL (some_value : 0 < limbsValue Y)
    (tight : (2 ^ 32) ^ (Y.length - 1) ≤ limbsValue Y) {k : ℕ}
    (count : k = if mpiMsb Y % 32 < 31 then 31 - mpiMsb Y % 32 else 0) :
    Normalised (mpiShiftL Y k) ((mpiShiftL Y k).length - 1) := by
  obtain ⟨high, low⟩ := mpiMsb_value Y
  obtain ⟨value, length⟩ := mpiShiftL_value Y k
  have some_bit : 0 < mpiMsb Y := by
    by_contra none
    rw [Nat.eq_zero_of_not_pos none, pow_zero] at high
    omega
  obtain ⟨t, place⟩ : ∃ t, mpiMsb Y + k = 32 * t + 31 := by
    refine ⟨(mpiMsb Y + k) / 32, ?_⟩
    split_ifs at count <;> omega
  have short : Y.length ≤ t + 1 := by
    have bits := tight.trans_lt high
    rw [← pow_mul] at bits
    have less := (Nat.pow_lt_pow_iff_right (by norm_num)).mp bits
    split_ifs at count <;> omega
  have size : (mpiShiftL Y k).length = t + 1 := by
    rw [length]
    omega
  have unit (bits : ℕ) : 2 ^ bits * (2 ^ 32) ^ t = 2 ^ (32 * t + bits) := by
    rw [← pow_mul, ← pow_add, Nat.add_comm]
  rw [size, Nat.add_sub_cancel]
  refine ⟨by omega, ?_, ?_⟩
  · rw [unit, value]
    calc
      2 ^ (32 * t + 30) = 2 ^ (mpiMsb Y - 1) * 2 ^ k := by
        rw [← pow_add]
        congr 1
        omega
      _ ≤ limbsValue Y * 2 ^ k := Nat.mul_le_mul_right _ (low some_bit)
  · rw [unit, value]
    calc
      limbsValue Y * 2 ^ k < 2 ^ mpiMsb Y * 2 ^ k := Nat.mul_lt_mul_of_pos_right high (by positivity)
      _ = 2 ^ (32 * t + 31) := by rw [← pow_add, place]

/-- A copy into a number without limbs has no zeros at the top. -/
theorem mpiCopy_tight (some_value : 0 < limbsValue Y) :
    (2 ^ 32) ^ ((mpiCopy [] Y).length - 1) ≤ limbsValue (mpiCopy [] Y) := by
  have some_limb : significant Y ≠ [] := mt (significant_eq_nil Y).mp some_value.ne'
  have positive := List.length_pos_iff.mpr some_limb
  have size : (mpiCopy [] Y).length = (significant Y).length := by
    rw [mpiCopy_length, List.length_nil]
    omega
  rw [size, (mpiCopy_value [] Y).1]
  exact (significant_low Y).resolve_left some_limb

end Normalisation

section Loops

variable {X Y : Limbs}

/-- The divisor is subtracted as often as it can be. -/
theorem subtractLoop_value (positive : 0 < limbsValue Y) (X : Limbs) : ∃ rest count,
    Ends (fun turns => subtractLoop ⟨1, Y⟩ turns ⟨1, X⟩) (⟨1, rest⟩, count) ∧
      rest.length = X.length ∧ limbsValue rest = limbsValue X % limbsValue Y ∧
      count.toNat = limbsValue X / limbsValue Y % 2 ^ 32 := by
  obtain ⟨value, number⟩ : ∃ value, limbsValue X = value := ⟨_, rfl⟩
  induction value using Nat.strong_induction_on generalizing X with
  | _ value ih =>
    have test := mpiCmpAbs_value X Y
    rw [← mpiCmpMpi_one] at test
    rcases Nat.lt_or_ge (limbsValue X) (limbsValue Y) with less | least
    · refine ⟨X, 0, .of_succ (.of_forall fun turns => ?_), rfl, (Nat.mod_eq_of_lt less).symm, ?_⟩
      · rw [subtractLoop, if_neg (mt test.mp (Nat.not_le.mpr less))]
      · rw [Nat.div_eq_of_lt less]
        rfl
    · obtain ⟨left, subtracted, size, taken⟩ := mpiSubMpi_of_le least
      obtain ⟨rest, count, ends, length, value, turns⟩ := ih (limbsValue left) (by omega) left rfl
      have difference : limbsValue left = limbsValue X - limbsValue Y := by omega
      refine ⟨rest, count + 1, .of_succ ?_, length.trans size, ?_, ?_⟩
      · simp only [subtractLoop, if_pos (test.mpr least), subtracted, Option.bind_eq_bind,
          Option.bind_some]
        exact ends.bind (.of_forall fun _ => rfl)
      · rw [value, difference, ← Nat.mod_eq_sub_mod least]
      · rw [UInt32.toNat_add, turns, difference, Nat.div_eq_sub_div positive least, UInt32.toNat_one]
        omega

/-- The first loop and the main one together divide by a normalised number: what is left, and the digits
with the top one behind them. -/
theorem digits_value {t n : ℕ} (normalised : Normalised Y t) (least : limbsValue Y ≤ limbsValue X)
    (top : X.length - 1 = n) : ∃ left count rest digits,
      Ends (fun turns => subtractLoop ⟨1, mpiShiftL Y (32 * (n - t))⟩ turns ⟨1, X⟩)
        (⟨1, left⟩, count) ∧
      Ends (fun turns => divLoop turns (mpiShiftR (mpiShiftL Y (32 * (n - t))) (32 * (n - t))) t (n - t)
        ⟨1, left⟩) (⟨1, rest⟩, digits) ∧
      limbsValue rest + limbsValue (digits ++ [count]) * limbsValue Y = limbsValue X := by
  have inside := normalised.inside
  have low := normalised.low
  have room := limbsValue_lt X
  have long : t < X.length := by
    by_contra short
    have wide : (2 ^ 32) ^ X.length ≤ (2 ^ 32) ^ t := Nat.pow_le_pow_right (by norm_num) (by omega)
    omega
  have power : 2 ^ (32 * (n - t)) = (2 ^ 32) ^ (n - t) := pow_mul ..
  obtain ⟨raisedValue, raisedLength⟩ := mpiShiftL_value Y (32 * (n - t))
  obtain ⟨loweredValue, loweredLength⟩ := mpiShiftR_value (mpiShiftL Y (32 * (n - t))) (32 * (n - t))
  rw [power] at raisedValue
  rw [raisedValue, power, Nat.mul_div_cancel _ (by positivity)] at loweredValue
  have positive : 0 < limbsValue Y * (2 ^ 32) ^ (n - t) :=
    Nat.mul_pos (normalised.pos) (by positivity)
  have few : limbsValue X / (limbsValue Y * (2 ^ 32) ^ (n - t)) < 2 ^ 32 := by
    apply Nat.div_lt_of_lt_mul
    calc
      limbsValue X < (2 ^ 32) ^ X.length := room
      _ = (2 ^ 32) ^ t * (2 ^ 32) ^ (n - t) * 2 ^ 32 := by
        rw [← pow_add, ← pow_succ]
        congr 1
        omega
      _ ≤ limbsValue Y * (2 ^ 32) ^ (n - t) * 2 ^ 32 := by
        gcongr
        omega
  obtain ⟨left, count, subtracted, leftLength, leftValue, countValue⟩ :=
    subtractLoop_value (raisedValue ▸ positive) X
  rw [raisedValue] at leftValue countValue
  rw [Nat.mod_eq_of_lt few] at countValue
  obtain ⟨rest, digits, looped, digitsLength, restValue⟩ := @divLoop_value left _ t
    (normalised.of_value (by omega) loweredValue) (n - t) (by omega)
  refine ⟨left, count, rest, digits, subtracted, looped, ?_⟩
  rw [loweredValue] at restValue
  rw [limbsValue_append, digitsLength, limbsValue_cons, limbsValue_nil, Nat.mul_zero, Nat.add_zero,
    countValue]
  calc
    limbsValue rest + (limbsValue digits +
        (2 ^ 32) ^ (n - t) * (limbsValue X / (limbsValue Y * (2 ^ 32) ^ (n - t)))) * limbsValue Y =
        limbsValue rest + limbsValue digits * limbsValue Y + limbsValue Y * (2 ^ 32) ^ (n - t) *
          (limbsValue X / (limbsValue Y * (2 ^ 32) ^ (n - t))) := by ring
    _ = limbsValue X := by rw [restValue, leftValue, Nat.mod_add_div]

end Loops

section Quotients

/-- What a division makes of two numbers. -/
structure Divides (R A B quotient rest : Mpi) : Prop where
  limbs : limbsValue quotient.p * limbsValue B.p + limbsValue rest.p = limbsValue A.p
  quotientSign : quotient.s = A.s * B.s ∨ limbsValue quotient.p = 0
  restSign : rest.s = A.s ∨ rest.s = 1 ∧ limbsValue rest.p = 0
  length : R.p.length ≤ rest.p.length

/-- By any number but zero a division comes to its end. -/
theorem mpiDivMpi_divides (Q R A : Mpi) {B : Mpi} (some_value : 0 < limbsValue B.p) :
    ∃ quotient rest, Ends (fun turns => mpiDivMpi turns Q R A B) (.ok (quotient, rest)) ∧
      Divides R A B quotient rest := by
  have some_divisor : ¬mpiCmpInt B 0 = 0 := mt (mpiCmpInt_eq_zero B).mp some_value.ne'
  rcases Nat.lt_or_ge (limbsValue A.p) (limbsValue B.p) with less | least
  · refine ⟨⟨1, List.replicate (max Q.p.length 1) 0⟩, ⟨A.s, mpiCopy R.p A.p⟩,
      .of_forall fun turns => ?_, ⟨?_, .inr (limbsValue_replicate _), .inl rfl,
        (mpiCopy_value R.p A.p).2⟩⟩
    · rw [mpiDivMpi, if_neg some_divisor, if_pos ((mpiCmpAbs_lt A.p B.p).mpr less)]
    · rw [limbsValue_replicate, (mpiCopy_value R.p A.p).1, Nat.zero_mul, Nat.zero_add]
  obtain ⟨k, shift⟩ : ∃ k, (if mpiMsb (mpiCopy [] B.p) % 32 < 31 then
    31 - mpiMsb (mpiCopy [] B.p) % 32 else 0) = k := ⟨_, rfl⟩
  obtain ⟨X, dividend⟩ : ∃ X, mpiShiftL (mpiCopy [] A.p) k = X := ⟨_, rfl⟩
  obtain ⟨Y, divisor⟩ : ∃ Y, mpiShiftL (mpiCopy [] B.p) k = Y := ⟨_, rfl⟩
  have dividendValue : limbsValue X = limbsValue A.p * 2 ^ k := by
    rw [← dividend, (mpiShiftL_value _ k).1, (mpiCopy_value [] A.p).1]
  have divisorValue : limbsValue Y = limbsValue B.p * 2 ^ k := by
    rw [← divisor, (mpiShiftL_value _ k).1, (mpiCopy_value [] B.p).1]
  have normalised : Normalised Y (Y.length - 1) := by
    rw [← divisor]
    exact normalised_mpiShiftL ((mpiCopy_value [] B.p).1 ▸ some_value) (mpiCopy_tight some_value)
      shift.symm
  obtain ⟨left, count, last, digits, subtracted, looped, value⟩ := digits_value normalised
    (by rw [dividendValue, divisorValue]; exact Nat.mul_le_mul_right _ least) rfl
  have quotientValue (zeros : ℕ) : limbsValue (mpiCopy Q.p
      (digits ++ count :: List.replicate zeros 0)) = limbsValue (digits ++ [count]) := by
    rw [(mpiCopy_value _ _).1, limbsValue_append, limbsValue_append, limbsValue_cons, limbsValue_cons,
      limbsValue_replicate, limbsValue_nil]
  have restValue : limbsValue (digits ++ [count]) * limbsValue B.p +
      limbsValue (mpiCopy R.p (mpiShiftR last k)) = limbsValue A.p := by
    have scaled : (limbsValue (digits ++ [count]) * limbsValue B.p) * 2 ^ k + limbsValue last =
        limbsValue A.p * 2 ^ k := by
      rw [← dividendValue, ← value, divisorValue]
      ring
    rw [(mpiCopy_value _ _).1, (mpiShiftR_value last k).1, Nat.add_comm,
      ← Nat.add_mul_div_right _ _ (by positivity), Nat.add_comm, scaled,
      Nat.mul_div_cancel _ (by positivity)]
  have run : Ends (fun turns => mpiDivMpi turns Q R A B) (.ok
      (⟨A.s * B.s, mpiCopy Q.p (digits ++ count ::
        List.replicate (A.p.length + 1 - (X.length - 1 - (Y.length - 1))) 0)⟩,
      ⟨if mpiCmpInt ⟨A.s, mpiCopy R.p (mpiShiftR last k)⟩ 0 = 0 then 1 else A.s,
        mpiCopy R.p (mpiShiftR last k)⟩)) := by
    simp only [mpiDivMpi, if_neg some_divisor,
      if_neg (mt (mpiCmpAbs_lt A.p B.p).mp (Nat.not_lt.mpr least)), shift, dividend, divisor]
    exact subtracted.bind (looped.bind (.of_forall fun _ => rfl))
  refine ⟨_, _, run, ?_, .inl rfl, ?_, (mpiCopy_value R.p _).2⟩
  · rw [quotientValue]
    exact restValue
  · dsimp only
    split_ifs with zero
    · exact .inr ⟨rfl, (mpiCmpInt_eq_zero _).mp zero⟩
    · exact .inl rfl

-- the upper half of the digit wraps, and more than the divisor is left
example : mpiDivMpi 8 ⟨1, []⟩ ⟨1, []⟩ ⟨1, [0xd7210dff, 0x4001fffe]⟩ ⟨1, [0x4001ffff]⟩ =
    some (.ok (⟨1, [262111]⟩, ⟨1, [392629726, 1073807359]⟩)) := rfl

/-- By zero nothing is divided. -/
theorem mpiDivMpi_zero (turns : ℕ) (Q R A : Mpi) {B : Mpi} (zero : limbsValue B.p = 0) :
    mpiDivMpi turns Q R A B = some (.error tropicsslErrMpiDivisionByZero) := by
  rw [mpiDivMpi, if_pos ((mpiCmpInt_eq_zero B).mpr zero)]

/-- Of a dividend that is not negative `mpi_mod_mpi` leaves the remainder. -/
theorem mpiModMpi_remainder (R : Mpi) (A : Limbs) {B : Limbs} (some_value : 0 < limbsValue B) :
    ∃ rest, Ends (fun turns => mpiModMpi turns R ⟨1, A⟩ ⟨1, B⟩) (.ok ⟨1, rest⟩) ∧
      R.p.length ≤ rest.length ∧ limbsValue rest = limbsValue A % limbsValue B := by
  obtain ⟨quotient, ⟨sign, left⟩, ends, divides⟩ := @mpiDivMpi_divides ⟨1, []⟩ R ⟨1, A⟩
    ⟨1, B⟩ some_value
  obtain rfl : sign = 1 := by
    rcases divides.restSign with same | ⟨one, _⟩
    · exact same
    · exact one
  obtain ⟨rest, count, subtracted, size, value, _⟩ := subtractLoop_value some_value left
  have stays : Ends (fun turns => raiseLoop ⟨1, B⟩ turns ⟨1, left⟩) ⟨1, left⟩ :=
    .of_succ (.of_forall fun turns => if_neg (mpiCmpInt_one left))
  refine ⟨rest, ?_, size ▸ divides.length, ?_⟩
  · simp only [mpiModMpi]
    exact ends.bind (stays.bind (subtracted.bind (.of_forall fun _ => rfl)))
  · have total := divides.limbs
    dsimp only at total
    rw [value, ← total, Nat.add_comm, Nat.add_mul_mod_self_right]

end Quotients

end ShuangFa
