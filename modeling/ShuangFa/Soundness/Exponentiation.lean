import Mathlib.Data.Nat.Prime.Basic
import ShuangFa.Model.ExpMod
import ShuangFa.Soundness.Division

/-! # Modular exponentiation

For an odd modulus `mpi_montmul` is Montgomery multiplication with the `mm` that `mpi_montg_init` finds,
and stays inside its limbs. The windows of `mpi_exp_mod` then make the power of the exponent, whichever
width they have, whether the square of the radix is cached or not. Its divisions come to an end, if
after a number of turns that has no useful bound.
-/

namespace ShuangFa

open Machine

section Product

variable {N A B : Limbs}

theorem odd_limbsValue (odd : Odd (limbsValue N)) : (N.headD 0).toNat % 2 = 1 := by
  have head := limbsValue_mod N
  have parity := Nat.odd_iff.mp odd
  omega

theorem odd_inverse (odd : Odd (limbsValue N)) : N.headD 0 * mpiMontgInit (N.headD 0) + 1 = 0 :=
  mpiMontgInit_inverse (odd_limbsValue odd)

/-- The product of two numbers that fit the modulus is reduced below it and divided by the radix; the
factor may be the modulus, and the limbs of `A` above it stay zero. -/
theorem mpiMontmul_montgomery (odd : Odd (limbsValue N)) (some_limb : B ≠ [])
    (long : N.length + 1 ≤ A.length) (small : limbsValue A < (2 ^ 32) ^ N.length)
    (least : limbsValue B ≤ limbsValue N) :
    ∃ Z, mpiMontmul N (mpiMontgInit (N.headD 0)) (2 * (N.length + 1)) A B = some Z ∧
      Z.length = A.length ∧ limbsValue Z < limbsValue N ∧
      limbsValue Z * (2 ^ 32) ^ N.length ≡ limbsValue A * limbsValue B [MOD limbsValue N] :=
  mpiMontmul_value (odd_inverse odd) some_limb long small least

/-- Five times six over the radix, modulo seven. -/
theorem mpiMontmul_montgomery_seven :
    ∃ Z, mpiMontmul [7] (mpiMontgInit 7) 4 [5, 0] [6] = some Z ∧ Z.length = 2 ∧ limbsValue Z < 7 ∧
      limbsValue Z * (2 ^ 32) ^ 1 ≡ 5 * 6 [MOD 7] :=
  @mpiMontmul_montgomery [7] [5, 0] [6] (by decide) (List.cons_ne_nil _ _) (by decide) (by decide)
    (by decide)

end Product

section Power

variable {N X A E : Limbs} {a : ℕ}

theorem ofBits_limb (limb count start : ℕ) :
    ((List.range count).reverse.map fun bufsize => limb.testBit bufsize).foldl
      (fun number bit => 2 * number + bit.toNat) start = start * 2 ^ count + limb % 2 ^ count := by
  induction count generalizing start with
  | zero =>
    rw [pow_zero, Nat.mul_one, Nat.mod_one]
    rfl
  | succ count ih =>
    rw [List.range_succ, List.reverse_append, List.reverse_singleton, List.singleton_append,
      List.map_cons, List.foldl_cons, ih, Nat.mod_pow_succ, Nat.toNat_testBit, pow_succ]
    ring

/-- The bits are those of the exponent. -/
theorem ofBits_exponentBits (E : Limbs) : Powers.ofBits (exponentBits E) = limbsValue E := by
  induction E with
  | nil => rfl
  | cons limb E ih =>
    rw [Powers.ofBits, exponentBits] at ih
    rw [Powers.ofBits, exponentBits, List.reverse_cons, List.flatMap_append, List.foldl_append, ih,
      List.flatMap_singleton, ofBits_limb, Nat.mod_eq_of_lt limb.toNat_lt, limbsValue_cons]
    ring

variable (N a) in
/-- A power of `a` in the limbs of a product, multiplied by the radix. -/
def HoldsPower (X : Limbs) (exponent : ℕ) : Prop :=
  N.length + 1 ≤ X.length ∧ limbsValue X < limbsValue N ∧
    limbsValue X ≡ a ^ exponent * (2 ^ 32) ^ N.length [MOD limbsValue N]

theorem radix_cancel (odd : Odd (limbsValue N)) {first second : ℕ}
    (same : first * (2 ^ 32) ^ N.length ≡ second * (2 ^ 32) ^ N.length [MOD limbsValue N]) :
    first ≡ second [MOD limbsValue N] := by
  have coprime : Nat.Coprime (limbsValue N) ((2 ^ 32) ^ N.length) :=
    Nat.Coprime.pow_right _ (Nat.Coprime.pow_right _ odd.coprime_two_right)
  exact same.cancel_right_of_coprime coprime

theorem addsExponents (odd : Odd (limbsValue N)) :
    Powers.AddsExponents
      (mpiMontmul N (mpiMontgInit (N.headD 0)) (2 * (N.length + 1)))
      (mpiCopy (List.replicate (N.length + 1) 0)) (HoldsPower N a) where
  mul := by
    rintro X Y first second ⟨longX, belowX, powerX⟩ ⟨longY, belowY, powerY⟩
    have some_limb : Y ≠ [] := List.ne_nil_of_length_pos (Nat.lt_of_lt_of_le (Nat.succ_pos _) longY)
    obtain ⟨Z, product, size, below, congruent⟩ := mpiMontmul_value (odd_inverse odd) some_limb
      longX (belowX.trans (limbsValue_lt N)) belowY.le
    refine ⟨Z, product, by rw [size]; exact longX, below, radix_cancel odd ?_⟩
    refine congruent.trans ((powerX.mul powerY).trans ?_)
    rw [pow_add]
    exact congrArg (· % limbsValue N) (by ring)
  copy := by
    rintro X exponent ⟨_, below, power⟩
    obtain ⟨value, long⟩ := mpiCopy_value (List.replicate (N.length + 1) 0) X
    rw [List.length_replicate] at long
    rw [← value] at below power
    exact ⟨long, below, power⟩

/-- Montgomery reduction takes the radix away. -/
theorem mpiMontred_value (odd : Odd (limbsValue N)) (long : N.length + 1 ≤ A.length)
    (below : limbsValue A < limbsValue N) :
    ∃ Z, mpiMontred N (mpiMontgInit (N.headD 0)) (2 * (N.length + 1)) A = some Z ∧
      Z.length = A.length ∧ limbsValue Z < limbsValue N ∧
      limbsValue Z * (2 ^ 32) ^ N.length ≡ limbsValue A [MOD limbsValue N] := by
  have one : limbsValue [1] = 1 := rfl
  obtain ⟨Z, product, size, less, congruent⟩ := @mpiMontmul_value A [1] N _ (odd_inverse odd)
    (List.cons_ne_nil _ _) long (below.trans (limbsValue_lt N)) (by rw [one]; exact odd.pos)
  rw [one, Nat.mul_one] at congruent
  exact ⟨Z, product, size, less, congruent⟩

theorem windowSize_pos (msb : ℕ) : 0 < windowSize msb := by
  rw [windowSize]
  split_ifs <;> decide

/-- The square of the radix, where there is a cache that holds it. -/
def CachesSquare (N : Limbs) (RR : Option Limbs) : Prop :=
  ∀ square, RR = some square → square ≠ [] ∧
    limbsValue square = (2 ^ 32) ^ (2 * N.length) % limbsValue N

/-- What `mpi_exp_mod` goes on with is cached already or computed. -/
theorem squareRadix_cached {RR : Option Limbs} (cached : CachesSquare N RR)
    (positive : 0 < limbsValue N) :
    ∃ square, Ends (fun turns => squareRadix turns N RR) (.ok square) ∧ CachesSquare N (some square) := by
  cases RR with
  | some square => exact ⟨square, .of_forall fun _ => rfl, cached⟩
  | none =>
    have one : limbsValue [1] = 1 := rfl
    obtain ⟨value, length⟩ := mpiShiftL_value [1] (N.length * 2 * 32)
    have power : 2 ^ (N.length * 2 * 32) = (2 ^ 32) ^ (2 * N.length) := by
      rw [← pow_mul]
      congr 1
      ring
    rw [one, Nat.one_mul, power] at value
    obtain ⟨square, ends, long, remainder⟩ := mpiModMpi_remainder
      ⟨1, mpiShiftL [1] (N.length * 2 * 32)⟩ (mpiShiftL [1] (N.length * 2 * 32)) positive
    rw [List.length_singleton] at length
    dsimp only at long
    refine ⟨square, ends.map, ?_⟩
    rintro _ ⟨⟩
    refine ⟨List.ne_nil_of_length_pos (by omega), ?_⟩
    rw [remainder, value]

/-- The base is reduced where it has to be. -/
theorem reduceBase_value (W A : Limbs) (positive : 0 < limbsValue N) :
    ∃ base, Ends (fun turns => reduceBase turns W A N) base ∧ W.length ≤ base.length ∧
      limbsValue base = limbsValue A % limbsValue N := by
  simp only [reduceBase, mpiCmpMpi_one]
  split_ifs with large
  · obtain ⟨base, ends, long, value⟩ := mpiModMpi_remainder ⟨1, W⟩ A positive
    exact ⟨base, ends.map, long, value⟩
  · rw [mpiCmpAbs_value, Nat.not_le] at large
    obtain ⟨value, long⟩ := mpiCopy_value W A
    exact ⟨_, .of_forall fun _ => rfl, long, value.trans (Nat.mod_eq_of_lt large).symm⟩

/-- The result is the power modulo an odd modulus, and what is cached is right for the next time. -/
theorem mpiExpMod_power (X A : Limbs) {RR : Option Limbs} (some_limb : E ≠ [])
    (odd : Odd (limbsValue N)) (cached : CachesSquare N RR) :
    ∃ result square, Ends (fun turns => mpiExpMod turns X A E N RR) (.ok (result, square)) ∧
      limbsValue result = limbsValue A ^ limbsValue E % limbsValue N ∧
      CachesSquare N (some square) := by
  have positive := odd.pos
  have high := limbsValue_lt N
  have parity := odd_limbsValue odd
  obtain ⟨square, kept, holdsSquare⟩ := squareRadix_cached cached positive
  obtain ⟨squareSome, squareValue⟩ := holdsSquare square rfl
  have squareBelow : limbsValue square < limbsValue N := by
    rw [squareValue]
    exact Nat.mod_lt _ positive
  have squareCongruent : limbsValue square ≡ (2 ^ 32) ^ N.length * (2 ^ 32) ^ N.length
      [MOD limbsValue N] := by
    rw [squareValue, ← pow_add, ← Nat.two_mul]
    exact Nat.mod_modEq _ _
  obtain ⟨factor, reducedBase, firstLong, firstValue⟩ :=
    reduceBase_value (List.replicate (N.length + 1) 0) A positive
  obtain ⟨startValue, startLong⟩ := mpiCopy_value (mpiGrow X (N.length + 1)) square
  rw [List.length_replicate] at firstLong
  rw [mpiGrow, List.length_append, List.length_replicate, ← mpiGrow] at startLong
  obtain ⟨base, multiplied, baseSize, baseBelow, baseCongruent⟩ := mpiMontmul_value (odd_inverse odd)
    squareSome firstLong (by rw [firstValue]; exact (Nat.mod_lt _ positive).trans high) squareBelow.le
  have holdsBase : HoldsPower N (limbsValue A) base 1 := by
    refine ⟨by rw [baseSize]; exact firstLong, baseBelow, radix_cancel odd ?_⟩
    refine baseCongruent.trans ?_
    rw [firstValue, pow_one, Nat.mul_assoc]
    exact (Nat.mod_modEq _ _).mul squareCongruent
  obtain ⟨start, reduced, startSize, startBelow, startCongruent⟩ := mpiMontred_value odd
    (Nat.le_trans (by omega) startLong) (by rw [startValue]; exact squareBelow)
  have holdsStart : HoldsPower N (limbsValue A) start 0 := by
    refine ⟨by omega, startBelow, radix_cancel odd ?_⟩
    rw [startValue] at startCongruent
    rw [pow_zero, Nat.one_mul]
    exact startCongruent.trans squareCongruent
  obtain ⟨power, raised, powerLong, powerBelow, powerCongruent⟩ := (addsExponents odd).power holdsStart
    holdsBase (windowSize_pos (mpiMsb E)) (exponentBits E)
  rw [ofBits_exponentBits] at powerCongruent
  obtain ⟨result, divided, _, resultBelow, resultCongruent⟩ := mpiMontred_value odd powerLong powerBelow
  refine ⟨result, square, ?_, ?_, holdsSquare⟩
  · have some_modulus : N ≠ [] := by
      rintro rfl
      exact Nat.lt_irrefl _ positive
    have bit : N.headD 0 &&& 1 ≠ 0 := by
      intro even
      have masked := congrArg UInt32.toNat even
      rw [UInt32.toNat_and, UInt32.toNat_one, Nat.and_one_is_mod, parity] at masked
      cases masked
    simp only [mpiExpMod, if_neg (not_or.mpr ⟨some_modulus, some_limb⟩), if_neg bit]
    refine kept.bind (reducedBase.bind (.of_forall fun _ => ?_))
    simp only [multiplied, reduced, raised, divided, Option.bind_eq_bind, Option.bind_some]
  · have same := radix_cancel odd (resultCongruent.trans powerCongruent)
    exact (Nat.mod_eq_of_lt resultBelow).symm.trans same

/-- Ten to the fifth modulo seven, with nothing cached. -/
theorem mpiExpMod_power_seven :
    ∃ result square, Ends (fun turns => mpiExpMod turns [] [10] [5] [7] none) (.ok (result, square)) ∧
      limbsValue result = 10 ^ 5 % 7 ∧ CachesSquare [7] (some square) :=
  @mpiExpMod_power [7] [5] [] [10] none (List.cons_ne_nil _ _) (by decide) nofun

end Power

end ShuangFa
