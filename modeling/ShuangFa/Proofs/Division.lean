import ShuangFa.Model.Division
import ShuangFa.Proofs.BinaryNumbers

/-! # Shifts and comparisons of big numbers

What a division of big numbers is put together from, as numbers: a shift multiplies or divides by a power
of two, a comparison orders, and a difference that turns out negative is made good by one sum.
-/

namespace ShuangFa

section Shifts

variable {X : Limbs} {s : ℕ}

theorem shiftLeft_toNat (d : UInt32) (inside : s < 32) :
    (d <<< UInt32.ofNat s).toNat = d.toNat * 2 ^ s % 2 ^ 32 := by
  rw [UInt32.toNat_shiftLeft, UInt32.toNat_ofNat', Nat.mod_eq_of_lt (show s < 2 ^ 32 by omega),
    Nat.mod_eq_of_lt inside, Nat.shiftLeft_eq]

theorem shiftRight_toNat (d : UInt32) (inside : s < 32) :
    (d >>> UInt32.ofNat s).toNat = d.toNat / 2 ^ s := by
  rw [UInt32.toNat_shiftRight, UInt32.toNat_ofNat', Nat.mod_eq_of_lt (show s < 2 ^ 32 by omega),
    Nat.mod_eq_of_lt inside, Nat.shiftRight_eq_div_pow]

theorem shift_rest (inside : s < 32) : 32 - UInt32.ofNat s = UInt32.ofNat (32 - s) := by
  apply UInt32.toNat_inj.mp
  rw [UInt32.toNat_sub, UInt32.toNat_ofNat', UInt32.toNat_ofNat', show UInt32.toNat 32 = 32 from rfl]
  omega

theorem or_value {low high : ℕ} (count : ℕ) (small : low < 2 ^ count) :
    high * 2 ^ count ||| low = high * 2 ^ count + low := by
  rw [← Nat.shiftLeft_eq, Nat.shiftLeft_add_eq_or_of_lt small]

/-- The bits that leave the limbs at the top are all that is lost. -/
theorem shiftUp_value (some_bit : 0 < s) (inside : s < 32) (X : Limbs) (r0 : UInt32)
    (low : r0.toNat < 2 ^ s) : ∃ beyond, (shiftUp (.ofNat s) r0 X).length = X.length ∧
      limbsValue (shiftUp (.ofNat s) r0 X) + (2 ^ 32) ^ X.length * beyond =
        limbsValue X * 2 ^ s + r0.toNat := by
  induction X generalizing r0 with
  | nil =>
    refine ⟨r0.toNat, rfl, ?_⟩
    rw [shiftUp, limbsValue_nil, List.length_nil, pow_zero, Nat.one_mul, Nat.zero_mul]
  | cons d X ih =>
    have word : 2 ^ 32 = 2 ^ s * 2 ^ (32 - s) := by rw [← pow_add, Nat.add_sub_of_le inside.le]
    have upper : (d >>> (32 - UInt32.ofNat s)).toNat = d.toNat / 2 ^ (32 - s) := by
      rw [shift_rest inside, shiftRight_toNat d (Nat.sub_lt (by norm_num) some_bit)]
    have lower : (d <<< UInt32.ofNat s ||| r0).toNat = d.toNat * 2 ^ s % 2 ^ 32 + r0.toNat := by
      rw [UInt32.toNat_or, shiftLeft_toNat d inside, word, Nat.mul_comm d.toNat,
        Nat.mul_mod_mul_left, Nat.mul_comm (2 ^ s), or_value s low]
    have bits : d.toNat * 2 ^ s % 2 ^ 32 + 2 ^ 32 * (d.toNat / 2 ^ (32 - s)) = d.toNat * 2 ^ s := by
      have split := Nat.mod_add_div (d.toNat * 2 ^ s) (2 ^ 32)
      have moved : d.toNat * 2 ^ s / 2 ^ 32 = d.toNat / 2 ^ (32 - s) := by
        rw [word, Nat.mul_comm d.toNat, Nat.mul_div_mul_left _ _ (by positivity)]
      rwa [moved] at split
    obtain ⟨beyond, size, value⟩ := ih (d >>> (32 - UInt32.ofNat s)) (by
      rw [upper]
      apply Nat.div_lt_of_lt_mul
      rw [Nat.mul_comm, ← word]
      exact d.toNat_lt)
    rw [upper] at value
    refine ⟨beyond, by rw [shiftUp, List.length_cons, size, List.length_cons], ?_⟩
    rw [shiftUp, limbsValue_cons, limbsValue_cons, lower, List.length_cons, pow_succ (2 ^ 32) X.length]
    calc
      d.toNat * 2 ^ s % 2 ^ 32 + r0.toNat +
            2 ^ 32 * limbsValue (shiftUp (.ofNat s) (d >>> (32 - UInt32.ofNat s)) X) +
          (2 ^ 32) ^ X.length * 2 ^ 32 * beyond =
          d.toNat * 2 ^ s % 2 ^ 32 + r0.toNat +
            2 ^ 32 * (limbsValue (shiftUp (.ofNat s) (d >>> (32 - UInt32.ofNat s)) X) +
              (2 ^ 32) ^ X.length * beyond) := by ring
      _ = d.toNat * 2 ^ s % 2 ^ 32 + 2 ^ 32 * (d.toNat / 2 ^ (32 - s)) + r0.toNat +
          2 ^ 32 * (limbsValue X * 2 ^ s) := by
        rw [value]
        ring
      _ = (d.toNat + 2 ^ 32 * limbsValue X) * 2 ^ s + r0.toNat := by
        rw [bits]
        ring

/-- Whole limbs are moved up where there is room for them. -/
theorem moveUp_value {v0 : ℕ} (fits : (2 ^ 32) ^ v0 * limbsValue X < (2 ^ 32) ^ X.length) :
    limbsValue (if 0 < v0 then (List.replicate v0 0 ++ X).take X.length else X) =
        (2 ^ 32) ^ v0 * limbsValue X ∧
      (if 0 < v0 then (List.replicate v0 0 ++ X).take X.length else X).length = X.length := by
  split_ifs with some_limb
  · have whole : limbsValue (List.replicate v0 0 ++ X) = (2 ^ 32) ^ v0 * limbsValue X := by
      rw [limbsValue_append, limbsValue_replicate, List.length_replicate, Nat.zero_add]
    rw [(limbsValue_drop (whole.trans_lt fits)).1, whole, List.length_take, List.length_append]
    exact ⟨rfl, by omega⟩
  · obtain rfl : v0 = 0 := by omega
    rw [pow_zero, Nat.one_mul]
    exact ⟨rfl, rfl⟩

/-- Bits are moved up behind limbs that are empty, where there is room for them. -/
theorem moveBits_value {v0 number : ℕ} (inside : v0 ≤ X.length) (bits : s < 32)
    (value : limbsValue X = (2 ^ 32) ^ v0 * number)
    (fits : (2 ^ 32) ^ v0 * (number * 2 ^ s) < (2 ^ 32) ^ X.length) :
    limbsValue (if 0 < s then X.take v0 ++ shiftUp (.ofNat s) 0 (X.drop v0) else X) =
        (2 ^ 32) ^ v0 * (number * 2 ^ s) ∧
      (if 0 < s then X.take v0 ++ shiftUp (.ofNat s) 0 (X.drop v0) else X).length = X.length := by
  split_ifs with some_bit
  · obtain ⟨front, behind⟩ := limbsValue_split inside
    rw [value, Nat.mul_mod_right] at front
    rw [value, Nat.mul_div_cancel_left _ (by positivity)] at behind
    obtain ⟨beyond, size, shifted⟩ := shiftUp_value some_bit bits (X.drop v0) 0 (by
      rw [UInt32.toNat_zero]
      positivity)
    rw [behind, List.length_drop, UInt32.toNat_zero, Nat.add_zero] at shifted
    rw [List.length_drop] at size
    have room : number * 2 ^ s < (2 ^ 32) ^ (X.length - v0) := by
      rw [← Nat.add_sub_of_le inside, pow_add] at fits
      exact Nat.lt_of_mul_lt_mul_left fits
    have none : beyond = 0 := by
      by_contra some
      have low := Nat.le_mul_of_pos_right ((2 ^ 32) ^ (X.length - v0)) (Nat.pos_of_ne_zero some)
      omega
    rw [none, Nat.mul_zero, Nat.add_zero] at shifted
    rw [limbsValue_append, front, shifted, List.length_append, List.length_take, size,
      Nat.min_eq_left inside, Nat.zero_add]
    exact ⟨rfl, by omega⟩
  · obtain rfl : s = 0 := by omega
    rw [value, pow_zero, Nat.mul_one]
    exact ⟨rfl, rfl⟩

/-- A shift to the left multiplies, and the number grows as far as it has to. -/
theorem mpiShiftL_value (X : Limbs) (count : ℕ) :
    limbsValue (mpiShiftL X count) = limbsValue X * 2 ^ count ∧
      (mpiShiftL X count).length = max X.length ((mpiMsb X + count + 31) / 32) := by
  obtain ⟨v0, limbs⟩ : ∃ v0, count / 32 = v0 := ⟨_, rfl⟩
  obtain ⟨t1, bits⟩ : ∃ t1, count % 32 = t1 := ⟨_, rfl⟩
  obtain ⟨grown, room⟩ : ∃ grown, (if X.length * 32 < mpiMsb X + count then
    mpiGrow X ((mpiMsb X + count + 31) / 32) else X) = grown := ⟨_, rfl⟩
  have growth : limbsValue grown = limbsValue X ∧
      grown.length = max X.length ((mpiMsb X + count + 31) / 32) := by
    rw [← room]
    split_ifs with short
    · rw [mpiGrow, limbsValue_append, limbsValue_replicate, Nat.mul_zero, Nat.add_zero,
        List.length_append, List.length_replicate]
      exact ⟨rfl, by omega⟩
    · exact ⟨rfl, by omega⟩
  have power : limbsValue X * 2 ^ count = (2 ^ 32) ^ v0 * (limbsValue X * 2 ^ t1) := by
    have exponent : 2 ^ count = (2 ^ 32) ^ v0 * 2 ^ t1 := by
      rw [← pow_mul, ← pow_add]
      congr 1
      omega
    rw [exponent]
    ring
  have fits : (2 ^ 32) ^ v0 * (limbsValue X * 2 ^ t1) < (2 ^ 32) ^ grown.length := by
    rw [← power]
    calc
      limbsValue X * 2 ^ count < 2 ^ mpiMsb X * 2 ^ count :=
        Nat.mul_lt_mul_of_pos_right (mpiMsb_value X).1 (by positivity)
      _ ≤ (2 ^ 32) ^ grown.length := by
        rw [← pow_add, ← pow_mul]
        exact Nat.pow_le_pow_right (by norm_num) (by omega)
  obtain ⟨movedValue, movedLength⟩ := @moveUp_value grown v0 (by
    rw [growth.1]
    refine lt_of_le_of_lt ?_ fits
    exact Nat.mul_le_mul_left _ (Nat.le_mul_of_pos_right _ (by positivity)))
  rw [growth.1] at movedValue
  have last := moveBits_value (by omega) (show t1 < 32 by omega) movedValue (by rwa [movedLength])
  rw [mpiShiftL]
  simp only [limbs, bits, room]
  rw [last.1, last.2, movedLength, growth.2, power]
  exact ⟨rfl, rfl⟩

theorem shiftDown_length (v1 : UInt32) (X : Limbs) : (shiftDown v1 X).length = X.length := by
  induction X with
  | nil => rfl
  | cons d X ih => rw [shiftDown, List.length_cons, ih, List.length_cons]

theorem shiftDown_value (some_bit : 0 < s) (inside : s < 32) (X : Limbs) :
    limbsValue (shiftDown (.ofNat s) X) = limbsValue X / 2 ^ s := by
  induction X with
  | nil => rw [shiftDown, limbsValue_nil, Nat.zero_div]
  | cons d X ih =>
    have word : 2 ^ 32 = 2 ^ s * 2 ^ (32 - s) := by rw [← pow_add, Nat.add_sub_of_le inside.le]
    have upper : (X.headD 0 <<< (32 - UInt32.ofNat s)).toNat =
        limbsValue X % 2 ^ s * 2 ^ (32 - s) := by
      rw [shift_rest inside, shiftLeft_toNat _ (Nat.sub_lt (by norm_num) some_bit), ← limbsValue_mod,
        word, Nat.mul_mod_mul_right, Nat.mod_mul_right_mod]
    have small : d.toNat / 2 ^ s < 2 ^ (32 - s) := by
      apply Nat.div_lt_of_lt_mul
      rw [← word]
      exact d.toNat_lt
    have limb : (d >>> UInt32.ofNat s ||| X.headD 0 <<< (32 - UInt32.ofNat s)).toNat =
        limbsValue X % 2 ^ s * 2 ^ (32 - s) + d.toNat / 2 ^ s := by
      rw [UInt32.toNat_or, shiftRight_toNat d inside, upper, Nat.or_comm, or_value (32 - s) small]
    rw [shiftDown, limbsValue_cons, limbsValue_cons, ih, limb]
    calc
      limbsValue X % 2 ^ s * 2 ^ (32 - s) + d.toNat / 2 ^ s + 2 ^ 32 * (limbsValue X / 2 ^ s) =
          (limbsValue X % 2 ^ s + 2 ^ s * (limbsValue X / 2 ^ s)) * 2 ^ (32 - s) + d.toNat / 2 ^ s := by
        rw [word]
        ring
      _ = d.toNat / 2 ^ s + 2 ^ (32 - s) * limbsValue X := by
        rw [Nat.mod_add_div]
        ring
      _ = (d.toNat + 2 ^ 32 * limbsValue X) / 2 ^ s := by
        rw [word, Nat.mul_assoc, Nat.add_mul_div_left _ _ (by positivity)]

theorem limbsValue_drop_div (X : Limbs) (count : ℕ) :
    limbsValue (X.drop count) = limbsValue X / (2 ^ 32) ^ count := by
  rcases Nat.lt_or_ge X.length count with short | inside
  · have small := (limbsValue_lt X).trans_le (Nat.pow_le_pow_right (by norm_num) short.le)
    rw [List.drop_of_length_le short.le, limbsValue_nil, Nat.div_eq_of_lt small]
  · exact (limbsValue_split inside).2

/-- A shift to the right divides. -/
theorem mpiShiftR_value (X : Limbs) (count : ℕ) :
    limbsValue (mpiShiftR X count) = limbsValue X / 2 ^ count ∧
      (mpiShiftR X count).length = X.length := by
  obtain ⟨v0, limbs⟩ : ∃ v0, count / 32 = v0 := ⟨_, rfl⟩
  obtain ⟨v1, bits⟩ : ∃ v1, count % 32 = v1 := ⟨_, rfl⟩
  have power : 2 ^ count = (2 ^ 32) ^ v0 * 2 ^ v1 := by
    rw [← pow_mul, ← pow_add]
    congr 1
    omega
  obtain ⟨moved, made⟩ : ∃ moved,
    (if 0 < v0 then (X.drop v0 ++ List.replicate v0 0).take X.length else X) = moved := ⟨_, rfl⟩
  have movement : limbsValue moved = limbsValue X / (2 ^ 32) ^ v0 ∧ moved.length = X.length := by
    rw [← made]
    split_ifs with some_limb
    · have whole : limbsValue (X.drop v0 ++ List.replicate v0 0) = limbsValue X / (2 ^ 32) ^ v0 := by
        rw [limbsValue_append, limbsValue_replicate, Nat.mul_zero, Nat.add_zero, limbsValue_drop_div]
      have small : limbsValue (X.drop v0 ++ List.replicate v0 0) < (2 ^ 32) ^ X.length := by
        rw [whole]
        exact (Nat.div_le_self _ _).trans_lt (limbsValue_lt X)
      refine ⟨(limbsValue_drop small).1.trans whole, ?_⟩
      rw [List.length_take, List.length_append, List.length_drop, List.length_replicate]
      omega
    · obtain rfl : v0 = 0 := by omega
      rw [pow_zero, Nat.div_one]
      exact ⟨rfl, rfl⟩
  rw [mpiShiftR]
  simp only [limbs, bits, made]
  rw [power, ← Nat.div_div_eq_div_mul, ← movement.1, ← movement.2]
  split_ifs with some_bit
  · exact ⟨shiftDown_value some_bit (by omega) moved, shiftDown_length _ _⟩
  · obtain rfl : v1 = 0 := by omega
    rw [pow_zero, Nat.div_one]
    exact ⟨rfl, rfl⟩

end Shifts

section Comparisons

variable {X Y : Limbs}

theorem cmpLoop_neg (x y : Limbs) : cmpLoop y x = -cmpLoop x y := by
  induction x generalizing y with
  | nil => cases y <;> rfl
  | cons first x ih =>
    cases y with
    | nil => rfl
    | cons second y =>
      rw [cmpLoop, cmpLoop]
      split_ifs with less more
      · exact absurd (UInt32.lt_trans less more) (UInt32.lt_irrefl _)
      · rfl
      · rfl
      · exact ih y

theorem mpiCmpAbs_neg (X Y : Limbs) : mpiCmpAbs Y X = -mpiCmpAbs X Y := by
  rw [mpiCmpAbs, mpiCmpAbs]
  split_ifs with less more
  · omega
  · rfl
  · rfl
  · exact cmpLoop_neg _ _

theorem mpiCmpAbs_pos (X Y : Limbs) : 0 < mpiCmpAbs X Y ↔ limbsValue Y < limbsValue X := by
  have other := mpiCmpAbs_value Y X
  rw [mpiCmpAbs_neg X Y] at other
  omega

theorem mpiCmpAbs_lt (X Y : Limbs) : mpiCmpAbs X Y < 0 ↔ limbsValue X < limbsValue Y := by
  have same := mpiCmpAbs_value X Y
  omega

/-- Of numbers that are not negative the signed comparison is that of the limbs. -/
theorem mpiCmpMpi_one (X Y : Limbs) : mpiCmpMpi ⟨1, X⟩ ⟨1, Y⟩ = mpiCmpAbs X Y := by
  rw [mpiCmpMpi, mpiCmpAbs]
  dsimp only
  split_ifs with none longer shorter above below mixed
  · rw [none.1, none.2] at longer
    exact absurd longer (Nat.lt_irrefl _)
  · rw [none.1, none.2] at shorter
    exact absurd shorter (Nat.lt_irrefl _)
  · rw [none.1, none.2]
    rfl
  · rfl
  · rfl
  · exact absurd mixed.2 (by norm_num)
  · rw [Units.val_one, one_mul]

theorem significant_eq_nil (X : Limbs) : significant X = [] ↔ limbsValue X = 0 := by
  constructor
  · intro none
    rw [← limbsValue_significant, none]
    rfl
  · intro zero
    refine (significant_low X).resolve_right ?_
    rw [zero, Nat.not_le]
    positivity

theorem mpiCmpInt_zero (X : Mpi) :
    mpiCmpInt X 0 = if limbsValue X.p = 0 then (0 : ℤ) else X.s := by
  have zero : significant [UInt32.ofNat (0 : ℤ).natAbs] = [] := rfl
  rw [mpiCmpInt, mpiCmpMpi]
  dsimp only
  rw [zero, List.length_nil]
  rcases eq_or_ne (significant X.p) [] with none | some_limb
  · rw [if_pos ⟨none, rfl⟩, if_pos ((significant_eq_nil _).mp none)]
  · rw [if_neg fun both => some_limb both.1, if_pos (List.length_pos_iff.mpr some_limb),
      if_neg (mt (significant_eq_nil _).mpr some_limb)]

theorem mpiCmpInt_eq_zero (X : Mpi) : mpiCmpInt X 0 = 0 ↔ limbsValue X.p = 0 := by
  rw [mpiCmpInt_zero]
  split_ifs with zero
  · exact iff_of_true rfl zero
  · exact iff_of_false (Units.ne_zero _) zero

theorem mpiCmpInt_one (X : Limbs) : ¬mpiCmpInt ⟨1, X⟩ 0 < 0 := by
  rw [mpiCmpInt_zero]
  split_ifs
  · exact lt_irrefl 0
  · norm_num

theorem mpiCmpInt_neg (some_value : limbsValue X ≠ 0) : mpiCmpInt ⟨-1, X⟩ 0 < 0 := by
  rw [mpiCmpInt_zero, if_neg some_value]
  norm_num

end Comparisons

section Differences

variable {X Y : Limbs}

theorem mpiCopy_self_length (X : Limbs) : (mpiCopy X X).length = X.length := by
  have inside := take_significant_length X
  rw [List.length_take] at inside
  rw [mpiCopy_length]
  omega

theorem mpiSubMpi_of_le (least : limbsValue Y ≤ limbsValue X) :
    ∃ rest, mpiSubMpi ⟨1, X⟩ ⟨1, X⟩ ⟨1, Y⟩ = some ⟨1, rest⟩ ∧ rest.length = X.length ∧
      limbsValue rest + limbsValue Y = limbsValue X := by
  obtain ⟨rest, subtracted, size, value⟩ := mpiSubAbs_value X least
  refine ⟨rest, ?_, size.trans (mpiCopy_self_length X), value⟩
  rw [mpiSubMpi, if_pos (by norm_num), if_pos ((mpiCmpAbs_value X Y).mpr least), subtracted]
  rfl

theorem mpiSubMpi_of_lt (less : limbsValue X < limbsValue Y) :
    ∃ rest, mpiSubMpi ⟨1, X⟩ ⟨1, X⟩ ⟨1, Y⟩ = some ⟨-1, rest⟩ ∧ X.length ≤ rest.length ∧
      limbsValue rest + limbsValue X = limbsValue Y := by
  obtain ⟨rest, subtracted, size, value⟩ := mpiSubAbs_value X less.le
  refine ⟨rest, ?_, size.trans_ge (mpiCopy_value X Y).2, value⟩
  rw [mpiSubMpi, if_pos (by norm_num), if_neg (mt (mpiCmpAbs_value X Y).mp (Nat.not_le.mpr less)), subtracted]
  rfl

/-- What is below zero by less than a number is not when the number is added. -/
theorem mpiAddMpi_of_lt (less : limbsValue X < limbsValue Y) :
    ∃ sum, mpiAddMpi ⟨-1, X⟩ ⟨-1, X⟩ ⟨1, Y⟩ = some ⟨1, sum⟩ ∧ X.length ≤ sum.length ∧
      limbsValue sum + limbsValue X = limbsValue Y := by
  obtain ⟨sum, subtracted, size, value⟩ := mpiSubAbs_value X less.le
  refine ⟨sum, ?_, size.trans_ge (mpiCopy_value X Y).2, value⟩
  rw [mpiAddMpi, if_pos (by norm_num), if_neg (mt (mpiCmpAbs_value X Y).mp (Nat.not_le.mpr less)), subtracted,
    Option.map_some, neg_neg]

end Differences

end ShuangFa
