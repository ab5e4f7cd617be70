import ShuangFa.Model.BigNumbers
import ShuangFa.Proofs.Montgomery

/-! # Sums, differences and products

What the signed operations of the big numbers leave. A sum is right unless its carry rolls over in the
limb above the shorter number, with limbs above that one: the carry loop does not move on.
-/

namespace ShuangFa

section Sums

variable {p o X A B : Limbs} {c : UInt32}

/-- The carry is added, or rolls over below another limb and comes back to its own. -/
theorem addCarry_value (one : c.toNat ≤ 1) :
    if c.toNat = 1 ∧ limbsValue p % 2 ^ 32 = 2 ^ 32 - 1 ∧ 1 < p.length then
      limbsValue (addCarry p c) + 2 ^ 32 = limbsValue p + c.toNat + 1
    else limbsValue (addCarry p c) = limbsValue p + c.toNat := by
  rcases eq_or_ne c 0 with rfl | some_carry
  · rw [if_neg fun rolls => absurd rolls.1 (by decide)]
    cases p <;> rfl
  obtain rfl : c = 1 := by
    apply UInt32.toNat_inj.mp
    have nonzero : c.toNat ≠ 0 := fun zero => some_carry (UInt32.toNat_inj.mp zero)
    rw [UInt32.toNat_one]
    omega
  cases p with
  | nil =>
    rw [if_neg fun rolls => absurd rolls.2.2 (Nat.not_lt_zero _)]
    rfl
  | cons limb rest =>
    have bound := limb.toNat_lt
    have added : (limb + 1).toNat = (limb.toNat + 1) % 2 ^ 32 := UInt32.toNat_add ..
    rw [limbsValue_mod, List.headD_cons, addCarry.eq_def]
    dsimp only
    rw [if_neg some_carry]
    rcases Nat.lt_or_ge limb.toNat (2 ^ 32 - 1) with room | full
    · have stays : ¬limb + 1 < 1 := by
        rw [UInt32.lt_iff_toNat_lt, added, UInt32.toNat_one]
        omega
      rw [if_neg stays, if_neg fun rolls => Nat.ne_of_lt room rolls.2.1]
      simp only [limbsValue_cons, added, UInt32.toNat_one]
      omega
    · have zero : (limb + 1).toNat = 0 := by omega
      have rolls : limb + 1 < 1 := by
        rw [UInt32.lt_iff_toNat_lt, zero]
        exact Nat.one_pos
      rw [if_pos rolls]
      cases rest with
      | nil =>
        rw [if_neg fun rolls => absurd rolls.2.2 (Nat.lt_irrefl _)]
        simp only [limbsValue_cons, limbsValue_nil, zero, UInt32.toNat_one]
        omega
      | cons second rest =>
        have last : (limb + 1 + 1).toNat = 1 := by
          rw [UInt32.toNat_add, zero]
          rfl
        rw [if_pos ⟨rfl, by omega, Nat.succ_lt_succ (Nat.succ_pos _)⟩]
        simp only [limbsValue_cons limb, limbsValue_cons (limb + 1 + 1), last, UInt32.toNat_one]
        omega

/-- The limbs that both numbers have are added, and the carry goes on behind. -/
theorem addLoop_value (o : Limbs) (one : c.toNat ≤ 1) (shorter : o.length ≤ p.length) :
    ∃ low carry, addLoop o p c = some (low ++ addCarry (p.drop o.length) carry) ∧
      low.length = o.length ∧ carry.toNat ≤ 1 ∧
      limbsValue low + (2 ^ 32) ^ o.length * carry.toNat =
        limbsValue (p.take o.length) + limbsValue o + c.toNat := by
  induction o generalizing p c with
  | nil =>
    refine ⟨[], c, rfl, rfl, one, ?_⟩
    rw [List.length_nil, pow_zero, Nat.one_mul, List.take_zero, limbsValue_nil]
  | cons first o ih =>
    cases p with
    | nil => exact absurd shorter (Nat.not_succ_le_zero _)
    | cons limb p =>
      have bound := limb.toNat_lt
      have firstBound := first.toNat_lt
      have added : (limb + c).toNat = (limb.toNat + c.toNat) % 2 ^ 32 := UInt32.toNat_add ..
      have sum : (limb + c + first).toNat = ((limb + c).toNat + first.toNat) % 2 ^ 32 :=
        UInt32.toNat_add ..
      have next : ((if limb + c < c then 1 else 0) +
          if limb + c + first < first then (1 : UInt32) else 0).toNat =
          (limb.toNat + c.toNat + first.toNat) / 2 ^ 32 := by
        simp only [UInt32.lt_iff_toNat_lt, sum, added]
        split_ifs <;> simp <;> omega
      obtain ⟨low, carry, looped, size, small, value⟩ := ih (by rw [next]; omega)
        (Nat.le_of_succ_le_succ shorter)
      refine ⟨(limb + c + first) :: low, carry, ?_, by rw [List.length_cons, size, List.length_cons],
        small, ?_⟩
      · rw [addLoop, looped]
        rfl
      · rw [next] at value
        have split : (limb + c + first).toNat + 2 ^ 32 * ((limb.toNat + c.toNat + first.toNat) / 2 ^ 32) =
            limb.toNat + c.toNat + first.toNat := by omega
        rw [List.length_cons, List.take_succ_cons, limbsValue_cons, limbsValue_cons, limbsValue_cons,
          pow_succ (2 ^ 32) o.length]
        calc
          (limb + c + first).toNat + 2 ^ 32 * limbsValue low +
              (2 ^ 32) ^ o.length * 2 ^ 32 * carry.toNat =
              (limb + c + first).toNat +
                2 ^ 32 * (limbsValue low + (2 ^ 32) ^ o.length * carry.toNat) := by ring
          _ = (limb + c + first).toNat + 2 ^ 32 * ((limb.toNat + c.toNat + first.toNat) / 2 ^ 32) +
              2 ^ 32 * (limbsValue (p.take o.length) + limbsValue o) := by
            rw [value]
            ring
          _ = _ := by
            rw [split]
            ring

theorem mpiCopy_length (X Y : Limbs) : (mpiCopy X Y).length =
    max X.length (max (significant Y).length (min 1 Y.length)) := by
  have inside : (significant Y).length ≤ Y.length := by
    obtain ⟨zeros, split⟩ := significant_eq Y
    have size := congrArg List.length split
    rw [List.length_append, List.length_reverse] at size
    omega
  rw [mpiCopy, List.length_append, List.length_take, List.length_replicate]
  omega

theorem limbsValue_take_significant (B : Limbs) :
    limbsValue (B.take (significant B).length) = limbsValue B :=
  (limbsValue_drop (significant_high B)).1

theorem take_significant_length (B : Limbs) :
    (B.take (significant B).length).length = (significant B).length := by
  obtain ⟨zeros, split⟩ := significant_eq B
  have size := congrArg List.length split
  rw [List.length_append, List.length_reverse] at size
  rw [List.length_take]
  omega

theorem limbsValue_split {j : ℕ} (inside : j ≤ p.length) :
    limbsValue (p.take j) = limbsValue p % (2 ^ 32) ^ j ∧
      limbsValue (p.drop j) = limbsValue p / (2 ^ 32) ^ j := by
  have split := limbsValue_take_add_drop p inside
  have low := limbsValue_lt (p.take j)
  rw [List.length_take, Nat.min_eq_left inside] at low
  constructor
  · rw [split, Nat.add_mul_mod_self_left, Nat.mod_eq_of_lt low]
  · rw [split, Nat.add_mul_div_left _ _ (by positivity), Nat.div_eq_of_lt low, Nat.zero_add]

variable (X A B) in
/-- The limbs of `B` carry into a limb of ones that has another limb above it. -/
def RollsOver : Prop :=
  (2 ^ 32) ^ (significant B).length ≤
      limbsValue A % (2 ^ 32) ^ (significant B).length + limbsValue B ∧
    limbsValue A / (2 ^ 32) ^ (significant B).length % 2 ^ 32 = 2 ^ 32 - 1 ∧
    (significant B).length + 1 < max X.length (significant A).length

open Classical in
/-- A carry that rolls over is added one limb too low. -/
theorem mpiAddAbs_value (X A B : Limbs) : ∃ sum, mpiAddAbs X A B = some sum ∧
    if RollsOver X A B then
      limbsValue sum + (2 ^ 32) ^ ((significant B).length + 1) =
        limbsValue A + limbsValue B + (2 ^ 32) ^ (significant B).length
    else limbsValue sum = limbsValue A + limbsValue B := by
  obtain ⟨j, top⟩ : ∃ j, (significant B).length = j := ⟨_, rfl⟩
  obtain ⟨p, grown⟩ : ∃ p, mpiGrow (mpiCopy X A) j = p := ⟨_, rfl⟩
  have size : p.length = max (max X.length (max (significant A).length (min 1 A.length))) j := by
    rw [← grown, mpiGrow, List.length_append, List.length_replicate, mpiCopy_length]
    omega
  have number : limbsValue p = limbsValue A := by
    rw [← grown, mpiGrow, limbsValue_append, limbsValue_replicate, Nat.mul_zero, Nat.add_zero,
      (mpiCopy_value X A).1]
  have inside : j ≤ p.length := by omega
  obtain ⟨front, behind⟩ := limbsValue_split inside
  rw [number] at front behind
  have shorter := limbsValue_take_significant B
  have length := take_significant_length B
  rw [top] at shorter length
  obtain ⟨sum, carry, looped, sumSize, one, value⟩ := @addLoop_value p 0 (B.take j) (Nat.zero_le _)
    (by rw [length]; exact inside)
  rw [length] at looped sumSize value
  rw [shorter, front, UInt32.toNat_zero, Nat.add_zero] at value
  have sumBound := limbsValue_lt sum
  rw [sumSize] at sumBound
  refine ⟨_, by rw [mpiAddAbs, top, grown]; exact looped, ?_⟩
  have carried : carry.toNat = 1 ↔
      (2 ^ 32) ^ j ≤ limbsValue A % (2 ^ 32) ^ j + limbsValue B := by
    rcases Nat.le_one_iff_eq_zero_or_eq_one.mp one with zero | one
    · rw [zero, Nat.mul_zero, Nat.add_zero] at value
      rw [zero]
      omega
    · rw [one, Nat.mul_one] at value
      rw [one]
      omega
  have divided := Nat.mod_add_div (limbsValue A) ((2 ^ 32) ^ j)
  have total : limbsValue A + limbsValue B =
      limbsValue sum + (2 ^ 32) ^ j * (limbsValue (p.drop j) + carry.toNat) := by
    rw [Nat.mul_add, behind]
    omega
  have same : (carry.toNat = 1 ∧ limbsValue (p.drop j) % 2 ^ 32 = 2 ^ 32 - 1 ∧
      1 < (p.drop j).length) ↔ RollsOver X A B := by
    have above : 1 < p.length - j ↔ j + 1 < max X.length (significant A).length := by omega
    rw [carried, behind, RollsOver, top, List.length_drop, above]
  have last := @addCarry_value (p.drop j) carry one
  simp only [same] at last
  rw [limbsValue_append, sumSize, total, top, pow_succ (2 ^ 32) j]
  split_ifs at last ⊢
  · calc
      limbsValue sum + (2 ^ 32) ^ j * limbsValue (addCarry (p.drop j) carry) + (2 ^ 32) ^ j * 2 ^ 32 =
          limbsValue sum + (2 ^ 32) ^ j * (limbsValue (addCarry (p.drop j) carry) + 2 ^ 32) := by ring
      _ = _ := by
        rw [last]
        ring
  · rw [last]

/-- A sum is made of any two numbers, and it is the right one unless the carry rolls over. -/
theorem mpiAddAbs_iff (X A B : Limbs) : ∃ sum, mpiAddAbs X A B = some sum ∧
    (limbsValue sum = limbsValue A + limbsValue B ↔ ¬RollsOver X A B) := by
  obtain ⟨sum, added, value⟩ := mpiAddAbs_value X A B
  refine ⟨sum, added, ?_⟩
  have grows : (2 ^ 32) ^ (significant B).length < (2 ^ 32) ^ ((significant B).length + 1) :=
    Nat.pow_lt_pow_right (by norm_num) (Nat.lt_succ_self _)
  split_ifs at value with rolls
  · refine iff_of_false ?_ (not_not.mpr rolls)
    omega
  · exact iff_of_true value rolls

end Sums

section Differences

variable {A B : Limbs}

theorem significant_length_le (least : limbsValue B ≤ limbsValue A) :
    (significant B).length ≤ (significant A).length := by
  by_contra longer
  rw [Nat.not_le] at longer
  have some_limb : significant B ≠ [] := List.ne_nil_of_length_pos (Nat.zero_lt_of_lt longer)
  have low := (significant_low B).resolve_left some_limb
  have wide : (2 ^ 32) ^ (significant A).length ≤ (2 ^ 32) ^ ((significant B).length - 1) :=
    Nat.pow_le_pow_right (by norm_num) (by omega)
  have high := significant_high A
  omega

theorem mpiSubAbs_value (X : Limbs) (least : limbsValue B ≤ limbsValue A) :
    ∃ rest, mpiSubAbs X A B = some rest ∧ rest.length = (mpiCopy X A).length ∧
      limbsValue rest + limbsValue B = limbsValue A := by
  have longer := significant_length_le least
  obtain ⟨rest, subtracted, size, value⟩ := @mpiSubHlp_value (mpiCopy X A)
    (B.take (significant B).length) 0 (Nat.zero_le _)
    (by rw [take_significant_length, mpiCopy_length]; omega)
    (by rw [limbsValue_take_significant, (mpiCopy_value X A).1, UInt32.toNat_zero]; exact least)
  rw [limbsValue_take_significant, (mpiCopy_value X A).1, UInt32.toNat_zero, Nat.add_zero] at value
  refine ⟨rest, ?_, size, value⟩
  rw [mpiSubAbs, if_neg (Int.not_lt.mpr ((mpiCmpAbs_value A B).mpr least))]
  exact subtracted

end Differences

section Products

variable {X A B : Limbs}

theorem mulRows_value (A B : Limbs) {size : ℕ} (room : A.length + B.length ≤ size) :
    ∃ product, mulRows A B (List.replicate size 0) = some product ∧ product.length = size ∧
      limbsValue product = limbsValue A * limbsValue B := by
  induction B generalizing size with
  | nil =>
    refine ⟨_, rfl, List.length_replicate, ?_⟩
    rw [limbsValue_replicate, limbsValue_nil, Nat.mul_zero]
  | cons b B ih =>
    rw [List.length_cons] at room
    cases size with
    | zero => exact absurd room (by omega)
    | succ size =>
      obtain ⟨later, rows, length, value⟩ := @ih size (by omega)
      have total : limbsValue (0 :: later) + limbsValue A * b.toNat =
          limbsValue A * limbsValue (b :: B) := by
        rw [limbsValue_cons, limbsValue_cons, value, UInt32.toNat_zero]
        ring
      have fits : limbsValue A * limbsValue (b :: B) < (2 ^ 32) ^ (size + 1) := by
        have bound := Nat.mul_lt_mul'' (limbsValue_lt A) (limbsValue_lt (b :: B))
        rw [← pow_add, List.length_cons] at bound
        exact bound.trans_le (Nat.pow_le_pow_right (by norm_num) (by omega))
      obtain ⟨product, added, productLength, productValue⟩ := @mpiMulHlp_value (0 :: later) b A 0
        (by rw [List.length_cons]; omega)
        (by rw [total, UInt32.toNat_zero, List.length_cons, length]; exact fits)
      rw [total, UInt32.toNat_zero, Nat.add_zero] at productValue
      rw [List.length_cons, length] at productLength
      refine ⟨product, ?_, productLength, productValue⟩
      rw [List.replicate_succ, mulRows, rows]
      exact added

/-- The limbs of a product, and its sign. -/
theorem mpiMulMpi_limbs (X A B : Mpi) : ∃ product, mpiMulMpi X A B = some ⟨A.s * B.s, product⟩ ∧
    limbsValue product = limbsValue A.p * limbsValue B.p := by
  obtain ⟨product, rows, _, value⟩ := @mulRows_value (A.p.take (significant A.p).length)
    (B.p.take (significant B.p).length)
    (max (max X.p.length ((significant A.p).length + (significant B.p).length)) 1)
    (by rw [take_significant_length, take_significant_length]; omega)
  rw [limbsValue_take_significant, limbsValue_take_significant] at value
  exact ⟨product, by rw [mpiMulMpi, rows]; rfl, value⟩

end Products

end ShuangFa
