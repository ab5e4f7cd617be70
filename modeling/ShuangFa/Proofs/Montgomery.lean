import Mathlib.Data.Nat.Bitwise
import Mathlib.Tactic.IntervalCases
import ShuangFa.Proofs.Limbs

/-! # Montgomery multiplication

`mm` is minus the inverse of the lowest limb, so that the product of a row leaves a lowest limb of zero
behind. A turn keeps the number below the sum of the factor and the modulus; with all limbs of a number
it is the product, over the radix, and a subtraction at the end makes it less than the modulus.
-/

namespace ShuangFa

section Inverse

variable {m0 x k r : UInt32}

/-- A step of Newton's iteration squares the error. -/
theorem newton_step (known : m0 * x = 1 + k * r) :
    m0 * (x * (2 - m0 * x)) = 1 + -(k * k) * (r * r) := by
  grind

/-- Of the first approximation four bits are right. -/
theorem newton_start (odd : m0.toNat % 2 = 1) :
    ∃ k, m0 * (m0 + (((m0 + 2) &&& 4) <<< 1)) = 1 + k * 16 := by
  have bound := m0.toNat_lt
  obtain ⟨x, made⟩ : ∃ x, m0 + (((m0 + 2) &&& 4) <<< 1) = x := ⟨_, rfl⟩
  have value : x.toNat % 16 = (m0.toNat + (m0.toNat + 2) / 4 % 2 * 8) % 16 := by
    have masked : ((m0 + 2) &&& 4).toNat = (m0.toNat + 2) / 4 % 2 * 4 := by
      have bit := Nat.and_two_pow (m0 + 2).toNat 2
      rw [Nat.toNat_testBit] at bit
      rw [UInt32.toNat_and]
      refine bit.trans ?_
      rw [UInt32.toNat_add]
      simp
      omega
    rw [← made, UInt32.toNat_add, UInt32.toNat_shiftLeft, masked, Nat.shiftLeft_eq]
    simp
    omega
  have one : (m0 * x).toNat % 16 = 1 := by
    have low : (m0 * x).toNat % 16 = m0.toNat % 16 * (x.toNat % 16) % 16 := by
      rw [UInt32.toNat_mul, ← Nat.mul_mod]
      omega
    obtain ⟨rest, residue, small, split⟩ : ∃ rest residue : ℕ, residue < 16 ∧
        m0.toNat = 16 * rest + residue := ⟨m0.toNat / 16, m0.toNat % 16, by omega, by omega⟩
    have bit : (m0.toNat + 2) / 4 % 2 = (residue + 2) / 4 % 2 := by omega
    have first : m0.toNat % 16 = residue := by omega
    have second : x.toNat % 16 = (residue + (residue + 2) / 4 % 2 * 8) % 16 := by omega
    have parity : residue % 2 = 1 := by omega
    rw [low, first, second]
    clear low first second bit split value
    interval_cases residue <;> omega
  rw [made]
  obtain ⟨product, multiplied⟩ : ∃ product, m0 * x = product := ⟨_, rfl⟩
  rw [multiplied] at one ⊢
  have room := product.toNat_lt
  refine ⟨.ofNat (product.toNat / 16), ?_⟩
  apply UInt32.toNat_inj.mp
  rw [UInt32.toNat_add, UInt32.toNat_mul, UInt32.toNat_ofNat']
  simp
  omega

/-- `mm` is minus the inverse of the lowest limb of an odd number. -/
theorem mpiMontgInit_inverse (odd : m0.toNat % 2 = 1) : m0 * mpiMontgInit m0 + 1 = 0 := by
  obtain ⟨k, start⟩ := newton_start odd
  have last := newton_step (newton_step (newton_step start))
  have wrapped : (16 * 16 * (16 * 16) * (16 * 16 * (16 * 16)) : UInt32) = 0 := rfl
  rw [wrapped, UInt32.mul_zero, UInt32.add_zero] at last
  rw [mpiMontgInit, ← UInt32.neg_eq_not_add, UInt32.mul_neg, last]
  rfl

end Inverse

section Products

variable {A B N d : Limbs} {mm u0 : UInt32}

theorem limbsValue_mod (X : Limbs) : limbsValue X % 2 ^ 32 = (X.headD 0).toNat := by
  cases X with
  | nil => rfl
  | cons first rest =>
    have bound := first.toNat_lt
    rw [limbsValue_cons, List.headD_cons]
    omega

theorem limbsValue_pos (inverse : N.headD 0 * mm + 1 = 0) : 0 < limbsValue N := by
  rw [Nat.pos_iff_ne_zero]
  intro zero
  have head := limbsValue_mod N
  rw [zero, Nat.zero_mod] at head
  have none : N.headD 0 = 0 := UInt32.toNat_inj.mp head.symm
  rw [none, UInt32.zero_mul] at inverse
  cases inverse

/-- A turn adds a multiple of the factor and one of the modulus, and takes a limb of zero away. -/
theorem montTurn_value (u0 : UInt32) (inverse : N.headD 0 * mm + 1 = 0)
    (long : N.length + 2 < d.length) (least : limbsValue B ≤ limbsValue N)
    (below : limbsValue d < limbsValue B + limbsValue N) :
    ∃ next u1, montTurn B N mm u0 d = some next ∧ next.length + 1 = d.length ∧
      limbsValue next * 2 ^ 32 = limbsValue d + u0.toNat * limbsValue B + u1 * limbsValue N ∧
      limbsValue next < limbsValue B + limbsValue N := by
  have high := limbsValue_lt N
  have factor : limbsValue (B.take N.length) = limbsValue B :=
    (limbsValue_drop (least.trans_lt high)).1
  have room : (2 ^ 32) ^ N.length * 2 ^ 32 * 2 ^ 32 ≤ (2 ^ 32) ^ d.length := by
    rw [← pow_succ, ← pow_succ]
    exact Nat.pow_le_pow_right (by norm_num) (by omega)
  obtain ⟨u1, taken⟩ : ∃ u1, (d.headD 0 + u0 * B.headD 0) * mm = u1 := ⟨_, rfl⟩
  have u0Bound := Nat.le_of_lt_succ u0.toNat_lt
  have u1Bound := Nat.le_of_lt_succ u1.toNat_lt
  have firstRow := Nat.mul_le_mul_left (limbsValue B) u0Bound
  have secondRow := Nat.mul_le_mul_left (limbsValue N) u1Bound
  obtain ⟨sum, added, sumLength, sumValue⟩ := @mpiMulHlp_value d u0 (B.take N.length) 0
    (by rw [List.length_take]; omega) (by rw [factor, UInt32.toNat_zero]; omega)
  rw [factor, UInt32.toNat_zero, Nat.add_zero] at sumValue
  obtain ⟨total, reduced, totalLength, totalValue⟩ := @mpiMulHlp_value sum u1 N 0 (by omega)
    (by rw [sumValue, sumLength, UInt32.toNat_zero]; omega)
  rw [sumValue, UInt32.toNat_zero, Nat.add_zero] at totalValue
  have zero : total.headD 0 = 0 := by
    have word : total.headD 0 = d.headD 0 + B.headD 0 * u0 + N.headD 0 * u1 := by
      apply UInt32.toNat_inj.mp
      rw [← limbsValue_mod, totalValue, UInt32.toNat_add, UInt32.toNat_add, UInt32.toNat_mul,
        UInt32.toNat_mul, ← limbsValue_mod, ← limbsValue_mod, ← limbsValue_mod]
      simp [Nat.add_mod, Nat.mul_mod]
    rw [word, ← taken]
    grind
  cases total with
  | nil => exact absurd totalLength (by rw [sumLength, List.length_nil]; omega)
  | cons first rest =>
    rw [List.headD_cons] at zero
    rw [zero, limbsValue_cons, UInt32.toNat_zero, Nat.zero_add] at totalValue
    rw [sumLength, List.length_cons] at totalLength
    have product : limbsValue rest * 2 ^ 32 =
        limbsValue d + u0.toNat * limbsValue B + u1.toNat * limbsValue N := by
      rw [Nat.mul_comm, totalValue, Nat.mul_comm u0.toNat, Nat.mul_comm u1.toNat]
    have bound : limbsValue rest < limbsValue B + limbsValue N := by omega
    have small : limbsValue rest < (2 ^ 32) ^ (N.length + 1) := by
      rw [pow_succ (2 ^ 32) N.length]
      omega
    refine ⟨rest.set (N.length + 1) 0, u1.toNat, ?_, by rw [List.length_set]; exact totalLength, ?_, ?_⟩
    · rw [montTurn, taken]
      simp only [added, reduced, Option.bind_eq_bind, Option.bind_some, List.tail_cons]
      exact if_pos (by omega)
    · rw [limbsValue_set small]
      exact product
    · rwa [limbsValue_set small]

/-- All turns together multiply. -/
theorem montLoop_value (A : Limbs) (inverse : N.headD 0 * mm + 1 = 0)
    (long : N.length + 1 + A.length < d.length) (least : limbsValue B ≤ limbsValue N)
    (below : limbsValue d < limbsValue B + limbsValue N) :
    ∃ last, montLoop B N mm A d = some last ∧ last.length + A.length = d.length ∧
      limbsValue last < limbsValue B + limbsValue N ∧
      limbsValue last * (2 ^ 32) ^ A.length ≡
        limbsValue d + limbsValue A * limbsValue B [MOD limbsValue N] := by
  induction A generalizing d with
  | nil =>
    refine ⟨d, rfl, rfl, below, ?_⟩
    rw [List.length_nil, pow_zero, Nat.mul_one, limbsValue_nil, Nat.zero_mul, Nat.add_zero]
  | cons u0 A ih =>
    rw [List.length_cons] at long
    obtain ⟨next, u1, turned, size, product, bound⟩ :=
      montTurn_value u0 inverse (by omega) least below
    obtain ⟨last, looped, lastSize, lastBound, congruent⟩ := ih (by omega) bound
    refine ⟨last, ?_, by rw [List.length_cons]; omega, lastBound, ?_⟩
    · rw [montLoop, turned]
      exact looped
    · have dropped : limbsValue next * 2 ^ 32 ≡ limbsValue d + u0.toNat * limbsValue B
          [MOD limbsValue N] := by
        rw [product]
        exact Nat.add_mul_mod_self_right ..
      calc
        limbsValue last * (2 ^ 32) ^ (u0 :: A).length =
            limbsValue last * (2 ^ 32) ^ A.length * 2 ^ 32 := by
          rw [List.length_cons, pow_succ (2 ^ 32) A.length, Nat.mul_assoc]
        _ ≡ (limbsValue next + limbsValue A * limbsValue B) * 2 ^ 32 [MOD limbsValue N] :=
          congruent.mul_right _
        _ = limbsValue next * 2 ^ 32 + limbsValue A * limbsValue B * 2 ^ 32 := Nat.add_mul ..
        _ ≡ limbsValue d + u0.toNat * limbsValue B + limbsValue A * limbsValue B * 2 ^ 32
            [MOD limbsValue N] := dropped.add_right _
        _ = limbsValue d + limbsValue (u0 :: A) * limbsValue B := by
          rw [limbsValue_cons]
          ring

/-- The product over the radix, less than the modulus; neither of the two subtractions leaves the
limbs it has. -/
theorem mpiMontmul_value (inverse : N.headD 0 * mm + 1 = 0) (some_limb : B ≠ [])
    (long : N.length + 1 ≤ A.length) (small : limbsValue A < (2 ^ 32) ^ N.length)
    (least : limbsValue B ≤ limbsValue N) :
    ∃ Z, mpiMontmul N mm (2 * (N.length + 1)) A B = some Z ∧ Z.length = A.length ∧
      limbsValue Z < limbsValue N ∧
      limbsValue Z * (2 ^ 32) ^ N.length ≡ limbsValue A * limbsValue B [MOD limbsValue N] := by
  have positive := limbsValue_pos inverse
  have high := limbsValue_lt N
  have front := limbsValue_drop small
  have taken : (A.take N.length).length = N.length := by
    rw [List.length_take]
    omega
  obtain ⟨d, looped, size, below, congruent⟩ := @montLoop_value B N
    (List.replicate (2 * (N.length + 1)) 0) mm (A.take N.length) inverse
    (by rw [taken, List.length_replicate]; omega) least
    (by rw [limbsValue_replicate]; omega)
  rw [taken, limbsValue_replicate, Nat.zero_add, front.1] at congruent
  rw [taken, List.length_replicate] at size
  obtain ⟨copied, made⟩ : ∃ copied, d.take (N.length + 1) ++ A.drop (N.length + 1) = copied := ⟨_, rfl⟩
  have room : limbsValue d < (2 ^ 32) ^ (N.length + 1) := by
    rw [pow_succ (2 ^ 32) N.length]
    omega
  have behind : limbsValue (A.drop (N.length + 1)) = 0 :=
    (limbsValue_drop (small.trans_le (Nat.pow_le_pow_right (by norm_num) (Nat.le_succ _)))).2
  have same : limbsValue copied = limbsValue d := by
    rw [← made, limbsValue_append, behind, Nat.mul_zero, Nat.add_zero, (limbsValue_drop room).1]
  have copiedLength : copied.length = A.length := by
    rw [← made, List.length_append, List.length_take, List.length_drop]
    omega
  have run : mpiMontmul N mm (2 * (N.length + 1)) A B =
      if 0 ≤ mpiCmpAbs copied N then mpiSubHlp N copied 0
      else (mpiSubHlp (copied.take N.length) (A.take N.length ++ d) 0).map fun _ => copied := by
    rw [mpiMontmul, if_neg (not_or.mpr ⟨some_limb, Nat.not_lt.mpr long⟩), looped]
    dsimp only [Option.bind_eq_bind, Option.bind_some]
    rw [made]
  rw [run]
  split_ifs with enough
  · rw [mpiCmpAbs_value, same] at enough
    obtain ⟨Z, subtracted, length, value⟩ := @mpiSubHlp_value copied N 0 (Nat.zero_le _) (by omega)
      (by rw [same, UInt32.toNat_zero]; omega)
    rw [same, UInt32.toNat_zero, Nat.add_zero] at value
    refine ⟨Z, subtracted, length.trans copiedLength, by omega, ?_⟩
    refine Nat.ModEq.trans ?_ congruent
    rw [← value]
    exact (Nat.ModEq.symm (Nat.add_modEq_right ..)).mul_right _
  · rw [mpiCmpAbs_value, same, Nat.not_le] at enough
    -- the old limbs are below the new ones, so the borrow ends among these
    have some_left : limbsValue (copied.take N.length) + (0 : UInt32).toNat ≤
        limbsValue (A.take N.length ++ d) := by
      rw [(limbsValue_drop (same.trans_lt (enough.trans high))).1, same, limbsValue_append,
        UInt32.toNat_zero, Nat.add_zero]
      exact (Nat.le_mul_of_pos_left _ (by positivity)).trans (Nat.le_add_left _ _)
    obtain ⟨rest, subtracted, _⟩ := @mpiSubHlp_value (A.take N.length ++ d) (copied.take N.length) 0
      (Nat.zero_le _) (by rw [List.length_append, List.length_take]; omega) some_left
    refine ⟨copied, by rw [subtracted]; rfl, copiedLength, by rwa [same], ?_⟩
    rwa [same]

end Products

end ShuangFa
