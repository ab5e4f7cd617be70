import Mathlib.Data.List.TakeWhile
import Mathlib.Data.Nat.Digits.Defs
import Mathlib.Data.Nat.ModEq
import Mathlib.Tactic.Linarith
import ShuangFa.Model.Bignum

/-! # Arithmetic on limbs

What the helpers of the big numbers leave in the limbs they walk over, as numbers: a row of products is
added, a number is subtracted, and the carry stays inside where the result fits.
-/

namespace ShuangFa

/-- The number that limbs make. -/
def limbsValue (X : Limbs) : ℕ := Nat.ofDigits (2 ^ 32) (X.map UInt32.toNat)

section Values

variable {X Y : Limbs} {d s b c : UInt32}

@[simp]
theorem limbsValue_nil : limbsValue [] = 0 := rfl

@[simp]
theorem limbsValue_cons (d : UInt32) (X : Limbs) :
    limbsValue (d :: X) = d.toNat + 2 ^ 32 * limbsValue X := by
  simp only [limbsValue, List.map_cons, Nat.ofDigits_cons]

theorem limbsValue_append (X Y : Limbs) :
    limbsValue (X ++ Y) = limbsValue X + (2 ^ 32) ^ X.length * limbsValue Y := by
  simp only [limbsValue, List.map_append, Nat.ofDigits_append, List.length_map]

theorem limbsValue_lt (X : Limbs) : limbsValue X < (2 ^ 32) ^ X.length := by
  have bound := @Nat.ofDigits_lt_base_pow_length (2 ^ 32) (X.map UInt32.toNat) (by norm_num) (by
    intro limb member
    obtain ⟨d, _, rfl⟩ := List.mem_map.mp member
    exact d.toNat_lt)
  rwa [List.length_map] at bound

theorem limbsValue_replicate (count : ℕ) : limbsValue (List.replicate count 0) = 0 := by
  simp only [limbsValue, List.map_replicate, UInt32.toNat_zero, Nat.ofDigits_replicate_zero]

theorem limbsValue_take_add_drop (X : Limbs) {count : ℕ} (inside : count ≤ X.length) :
    limbsValue X = limbsValue (X.take count) + (2 ^ 32) ^ count * limbsValue (X.drop count) := by
  have split := limbsValue_append (X.take count) (X.drop count)
  rwa [List.take_append_drop, List.length_take, Nat.min_eq_left inside] at split

/-- Limbs whose number is small have nothing above it. -/
theorem limbsValue_drop {count : ℕ} (small : limbsValue X < (2 ^ 32) ^ count) :
    limbsValue (X.take count) = limbsValue X ∧ limbsValue (X.drop count) = 0 := by
  rcases Nat.lt_or_ge X.length count with short | inside
  · rw [List.take_of_length_le short.le, List.drop_of_length_le short.le]
    exact ⟨rfl, rfl⟩
  · have split := limbsValue_take_add_drop X inside
    have none : limbsValue (X.drop count) = 0 := by
      by_contra some
      have low := Nat.le_mul_of_pos_right ((2 ^ 32) ^ count) (Nat.pos_of_ne_zero some)
      omega
    rw [none, Nat.mul_zero, Nat.add_zero] at split
    exact ⟨split.symm, none⟩

/-- A limb that holds nothing is cleared. -/
theorem limbsValue_set {place : ℕ} (small : limbsValue X < (2 ^ 32) ^ place) :
    limbsValue (X.set place 0) = limbsValue X := by
  rcases Nat.lt_or_ge place X.length with inside | behind
  · have none := (limbsValue_drop small).2
    rw [List.drop_eq_getElem_cons inside, limbsValue_cons] at none
    have zero : X[place] = 0 := UInt32.toNat_inj.mp (Nat.add_eq_zero_iff.mp none).1
    rw [← zero, List.set_getElem_self]
  · rw [List.set_eq_of_length_le behind]

end Values

section Rows

variable {d X : Limbs} {s b c : UInt32}

/-- A sum of two words that is carried. -/
theorem accumulate_value (r : UInt32 × UInt32) (x : UInt32)
    (room : r.1.toNat + 2 ^ 32 * r.2.toNat + x.toNat < 2 ^ 64) :
    (accumulate r x).1.toNat + 2 ^ 32 * (accumulate r x).2.toNat =
      r.1.toNat + 2 ^ 32 * r.2.toNat + x.toNat := by
  obtain ⟨low, high⟩ := r
  have lowBound := low.toNat_lt
  have bound := x.toNat_lt
  rw [accumulate]
  dsimp only at room ⊢
  have sum : (low + x).toNat = (low.toNat + x.toNat) % 2 ^ 32 := UInt32.toNat_add ..
  split_ifs with carry
  · rw [UInt32.lt_iff_toNat_lt, sum] at carry
    rw [sum, UInt32.toNat_add, UInt32.toNat_one]
    omega
  · rw [UInt32.lt_iff_toNat_lt, sum] at carry
    rw [sum, UInt32.add_zero]
    omega

theorem accumulate_four (r : UInt32 × UInt32) (x y c d : UInt32)
    (room : r.1.toNat + 2 ^ 32 * r.2.toNat + x.toNat + y.toNat + c.toNat + d.toNat < 2 ^ 64) :
    (accumulate (accumulate (accumulate (accumulate r x) y) c) d).1.toNat +
        2 ^ 32 * (accumulate (accumulate (accumulate (accumulate r x) y) c) d).2.toNat =
      r.1.toNat + 2 ^ 32 * r.2.toNat + x.toNat + y.toNat + c.toNat + d.toNat := by
  have first := accumulate_value r x (by omega)
  have second := accumulate_value (accumulate r x) y (by omega)
  have third := accumulate_value (accumulate (accumulate r x) y) c (by omega)
  have fourth := accumulate_value (accumulate (accumulate (accumulate r x) y) c) d (by omega)
  omega

/-- The half words of a word. -/
theorem halves (x : UInt32) : ((x <<< 16) >>> 16).toNat = x.toNat % 2 ^ 16 ∧
    (x >>> 16).toNat = x.toNat / 2 ^ 16 ∧ (x <<< 16).toNat = x.toNat % 2 ^ 16 * 2 ^ 16 := by
  have bound := x.toNat_lt
  have left : (x <<< 16).toNat = x.toNat * 2 ^ 16 % 2 ^ 32 := by
    rw [UInt32.toNat_shiftLeft, Nat.shiftLeft_eq]
    rfl
  have right (y : UInt32) : (y >>> 16).toNat = y.toNat / 2 ^ 16 := by
    rw [UInt32.toNat_shiftRight, Nat.shiftRight_eq_div_pow]
    rfl
  refine ⟨?_, right x, ?_⟩
  · rw [right, left]
    omega
  · rw [left]
    omega

/-- The limb and the carry are the product and the sums, all of it. -/
theorem muladdcCore_value (s b c d : UInt32) :
    (muladdcCore s b c d).1.toNat + 2 ^ 32 * (muladdcCore s b c d).2.toNat =
      s.toNat * b.toNat + c.toNat + d.toNat := by
  obtain ⟨s0, s1, sLow, sHigh, sSplit⟩ : ∃ s0 s1 : ℕ, s0 < 2 ^ 16 ∧ s1 < 2 ^ 16 ∧
      s.toNat = s1 * 2 ^ 16 + s0 :=
    ⟨s.toNat % 2 ^ 16, s.toNat / 2 ^ 16, Nat.mod_lt _ (by norm_num), by have := s.toNat_lt; omega,
      by omega⟩
  obtain ⟨b0, b1, bLow, bHigh, bSplit⟩ : ∃ b0 b1 : ℕ, b0 < 2 ^ 16 ∧ b1 < 2 ^ 16 ∧
      b.toNat = b1 * 2 ^ 16 + b0 :=
    ⟨b.toNat % 2 ^ 16, b.toNat / 2 ^ 16, Nat.mod_lt _ (by norm_num), by have := b.toNat_lt; omega,
      by omega⟩
  have product (x y : UInt32) {i j : ℕ} (first : x.toNat = i) (second : y.toNat = j)
      (low : i < 2 ^ 16) (high : j < 2 ^ 16) : (x * y).toNat = i * j := by
    rw [UInt32.toNat_mul, first, second]
    apply Nat.mod_eq_of_lt
    nlinarith
  have sZero : ((s <<< 16) >>> 16).toNat = s0 := by rw [(halves s).1]; omega
  have sOne : (s >>> 16).toNat = s1 := by rw [(halves s).2.1]; omega
  have bZero : ((b <<< 16) >>> 16).toNat = b0 := by rw [(halves b).1]; omega
  have bOne : (b >>> 16).toNat = b1 := by rw [(halves b).2.1]; omega
  have low := product _ _ sZero bZero sLow bLow
  have cross := product _ _ sZero bOne sLow bHigh
  have other := product _ _ sOne bZero sHigh bLow
  have high := product _ _ sOne bOne sHigh bHigh
  have whole : s.toNat * b.toNat = s0 * b0 + (s0 * b1 + s1 * b0) * 2 ^ 16 + s1 * b1 * 2 ^ 32 := by
    rw [sSplit, bSplit]
    ring
  have lowBound : s0 * b0 ≤ (2 ^ 16 - 1) * (2 ^ 16 - 1) := Nat.mul_le_mul (by omega) (by omega)
  have crossBound : s0 * b1 ≤ (2 ^ 16 - 1) * (2 ^ 16 - 1) := Nat.mul_le_mul (by omega) (by omega)
  have otherBound : s1 * b0 ≤ (2 ^ 16 - 1) * (2 ^ 16 - 1) := Nat.mul_le_mul (by omega) (by omega)
  have highBound : s1 * b1 ≤ (2 ^ 16 - 1) * (2 ^ 16 - 1) := Nat.mul_le_mul (by omega) (by omega)
  generalize s0 * b0 = p at low whole lowBound
  generalize s0 * b1 = q at cross whole crossBound
  generalize s1 * b0 = q' at other whole otherBound
  generalize s1 * b1 = r at high whole highBound
  have top : (s >>> 16 * (b >>> 16) + ((s <<< 16) >>> 16 * (b >>> 16)) >>> 16 +
      (s >>> 16 * ((b <<< 16) >>> 16)) >>> 16).toNat = r + q / 2 ^ 16 + q' / 2 ^ 16 := by
    rw [UInt32.toNat_add, UInt32.toNat_add, high, (halves _).2.1, (halves _).2.1, cross, other]
    omega
  have cBound := c.toNat_lt
  have dBound := d.toNat_lt
  have crossLow := (halves ((s <<< 16) >>> 16 * (b >>> 16))).2.2
  have otherLow := (halves (s >>> 16 * ((b <<< 16) >>> 16))).2.2
  rw [cross] at crossLow
  rw [other] at otherLow
  rw [muladdcCore, accumulate_four]
  · simp only [low, top, crossLow, otherLow]
    omega
  · simp only [low, top, crossLow, otherLow]
    omega

/-- A carry goes up as far as there are ones, and stays inside where the sum fits. -/
theorem carryLoop_value (c : UInt32) (some_limb : d ≠ [])
    (fits : limbsValue d + c.toNat < (2 ^ 32) ^ d.length) :
    ∃ sum, carryLoop d c = some sum ∧ sum.length = d.length ∧
      limbsValue sum = limbsValue d + c.toNat := by
  induction d generalizing c with
  | nil => exact absurd rfl some_limb
  | cons limb rest ih =>
    have bound := limb.toNat_lt
    have carryBound := c.toNat_lt
    have added : (limb + c).toNat = (limb.toNat + c.toNat) % 2 ^ 32 := UInt32.toNat_add ..
    rw [limbsValue_cons, List.length_cons, pow_succ (2 ^ 32) rest.length] at fits
    rw [carryLoop]
    split_ifs with carry
    · rw [UInt32.lt_iff_toNat_lt, added] at carry
      have room : limbsValue rest + (1 : UInt32).toNat < (2 ^ 32) ^ rest.length := by
        rw [UInt32.toNat_one]
        omega
      have some_rest : rest ≠ [] := by
        rintro rfl
        rw [limbsValue_nil, UInt32.toNat_one, List.length_nil, pow_zero] at room
        omega
      obtain ⟨sum, carried, size, value⟩ := ih 1 some_rest room
      refine ⟨(limb + c) :: sum, by rw [carried]; rfl, by simp [size], ?_⟩
      rw [limbsValue_cons, limbsValue_cons, value, added, UInt32.toNat_one]
      omega
    · rw [UInt32.lt_iff_toNat_lt, added] at carry
      refine ⟨_, rfl, rfl, ?_⟩
      rw [limbsValue_cons, limbsValue_cons, added]
      omega

/-- A row of products is added to what is there. -/
theorem mpiMulHlp_value (b : UInt32) (s : Limbs) (c : UInt32) (shorter : s.length < d.length)
    (fits : limbsValue d + limbsValue s * b.toNat + c.toNat < (2 ^ 32) ^ d.length) :
    ∃ sum, mpiMulHlp b s d c = some sum ∧ sum.length = d.length ∧
      limbsValue sum = limbsValue d + limbsValue s * b.toNat + c.toNat := by
  induction s generalizing d c with
  | nil =>
    rw [limbsValue_nil, Nat.zero_mul, Nat.add_zero] at fits ⊢
    exact carryLoop_value c (List.ne_nil_of_length_pos shorter) fits
  | cons limb s ih =>
    cases d with
    | nil => exact absurd shorter (Nat.not_lt_zero _)
    | cons first rest =>
      have row := muladdcCore_value limb b c first
      obtain ⟨r, made⟩ : ∃ r, muladdcCore limb b c first = r := ⟨_, rfl⟩
      rw [made] at row
      have total : limbsValue (first :: rest) + limbsValue (limb :: s) * b.toNat + c.toNat =
          r.1.toNat + 2 ^ 32 * (limbsValue rest + limbsValue s * b.toNat + r.2.toNat) := by
        calc
          limbsValue (first :: rest) + limbsValue (limb :: s) * b.toNat + c.toNat =
              limb.toNat * b.toNat + c.toNat + first.toNat +
                2 ^ 32 * (limbsValue rest + limbsValue s * b.toNat) := by
            rw [limbsValue_cons, limbsValue_cons]
            ring
          _ = _ := by
            rw [← row]
            ring
      have room : limbsValue rest + limbsValue s * b.toNat + r.2.toNat < (2 ^ 32) ^ rest.length := by
        rw [total, List.length_cons, pow_succ (2 ^ 32) rest.length] at fits
        omega
      obtain ⟨sum, added, size, value⟩ := ih r.2 (Nat.lt_of_succ_lt_succ shorter) room
      refine ⟨r.1 :: sum, ?_, by simp [size], ?_⟩
      · rw [mpiMulHlp, made]
        rw [added]
        rfl
      · rw [total, limbsValue_cons, value]

/-- A borrow goes up as far as there are zeros, and stays inside where something is left. -/
theorem borrowLoop_value (c : UInt32) (one : c.toNat ≤ 1) (fits : c.toNat ≤ limbsValue d) :
    ∃ rest, borrowLoop d c = some rest ∧ rest.length = d.length ∧
      limbsValue rest + c.toNat = limbsValue d := by
  induction d generalizing c with
  | nil =>
    rw [limbsValue_nil] at fits ⊢
    have zero : c = 0 := UInt32.toNat_inj.mp (Nat.le_zero.mp fits)
    exact ⟨[], by rw [zero]; rfl, rfl, by rw [zero]; rfl⟩
  | cons limb rest ih =>
    have bound := limb.toNat_lt
    rcases eq_or_ne c 0 with rfl | none
    · exact ⟨_, rfl, rfl, rfl⟩
    · have some_borrow : c.toNat ≠ 0 := fun zero => none (UInt32.toNat_inj.mp zero)
      have left : (limb - c).toNat = (2 ^ 32 - c.toNat + limb.toNat) % 2 ^ 32 := UInt32.toNat_sub ..
      have next : (if limb < c then (1 : UInt32) else 0).toNat =
          if limb.toNat < c.toNat then 1 else 0 := by
        rw [apply_ite UInt32.toNat]
        rfl
      rw [limbsValue_cons] at fits
      have room : (if limb < c then (1 : UInt32) else 0).toNat ≤ limbsValue rest := by
        rw [next]
        split_ifs <;> omega
      obtain ⟨later, borrowed, size, value⟩ := ih _ (by rw [next]; split_ifs <;> omega) room
      refine ⟨(limb - c) :: later, by rw [borrowLoop, if_neg none, borrowed]; rfl,
        by simp [size], ?_⟩
      rw [next] at value
      rw [limbsValue_cons, limbsValue_cons, left]
      split_ifs at value <;> omega

/-- A number is subtracted from one that is not below it. -/
theorem mpiSubHlp_value (s : Limbs) (c : UInt32) (one : c.toNat ≤ 1) (shorter : s.length ≤ d.length)
    (fits : limbsValue s + c.toNat ≤ limbsValue d) :
    ∃ rest, mpiSubHlp s d c = some rest ∧ rest.length = d.length ∧
      limbsValue rest + limbsValue s + c.toNat = limbsValue d := by
  induction s generalizing d c with
  | nil =>
    rw [limbsValue_nil, Nat.zero_add] at fits
    obtain ⟨rest, borrowed, size, value⟩ := borrowLoop_value c one fits
    exact ⟨rest, borrowed, size, value⟩
  | cons limb s ih =>
    cases d with
    | nil => exact absurd shorter (Nat.not_succ_le_zero _)
    | cons first others =>
      have bound := first.toNat_lt
      have limbBound := limb.toNat_lt
      rw [limbsValue_cons, limbsValue_cons] at fits
      have less : (first - c).toNat = (2 ^ 32 - c.toNat + first.toNat) % 2 ^ 32 := UInt32.toNat_sub ..
      have left : (first - c - limb).toNat = (2 ^ 32 - limb.toNat + (first - c).toNat) % 2 ^ 32 :=
        UInt32.toNat_sub ..
      have next : ((if first - c < limb then 1 else 0) + if first < c then (1 : UInt32) else 0).toNat =
          if first.toNat < c.toNat + limb.toNat then 1 else 0 := by
        simp only [UInt32.lt_iff_toNat_lt, less]
        split_ifs <;> first | rfl | omega
      obtain ⟨rest, taken, size, value⟩ := ih _ (by rw [next]; split_ifs <;> omega)
        (Nat.le_of_succ_le_succ shorter) (by rw [next]; split_ifs <;> omega)
      refine ⟨(first - c - limb) :: rest, by rw [mpiSubHlp, taken]; rfl, by simp [size], ?_⟩
      rw [next] at value
      rw [limbsValue_cons, limbsValue_cons, limbsValue_cons, left, less]
      split_ifs at value <;> omega

end Rows

section Comparison

variable {X Y : Limbs}

/-- Limbs are what is significant of them, with zeros above. -/
theorem significant_eq (X : Limbs) : ∃ zeros, X = (significant X).reverse ++ List.replicate zeros 0 := by
  refine ⟨(X.reverse.takeWhile (· = 0)).length, ?_⟩
  have zeros : X.reverse.takeWhile (· = 0) =
      List.replicate (X.reverse.takeWhile (· = 0)).length 0 := by
    rw [List.eq_replicate_iff]
    refine ⟨rfl, ?_⟩
    intro limb member
    have zero := List.mem_takeWhile_imp member
    simpa using zero
  rw [← List.reverse_inj, List.reverse_append, List.reverse_reverse, List.reverse_replicate, ← zeros,
    significant, List.takeWhile_append_dropWhile]

theorem limbsValue_significant (X : Limbs) : limbsValue (significant X).reverse = limbsValue X := by
  obtain ⟨zeros, split⟩ := significant_eq X
  have value := congrArg limbsValue split
  rw [limbsValue_append, limbsValue_replicate, Nat.mul_zero, Nat.add_zero] at value
  exact value.symm

/-- The top limb is not zero. -/
theorem significant_low (X : Limbs) : significant X = [] ∨
    (2 ^ 32) ^ ((significant X).length - 1) ≤ limbsValue X := by
  cases top : significant X with
  | nil => exact .inl rfl
  | cons first rest =>
    right
    have nonzero : first ≠ 0 := by
      have head := List.head?_dropWhile_not (· = 0) X.reverse
      rw [show X.reverse.dropWhile (· = 0) = first :: rest from top] at head
      simpa using head
    have positive : 0 < first.toNat := Nat.pos_of_ne_zero fun zero => nonzero (UInt32.toNat_inj.mp zero)
    rw [← limbsValue_significant, top, List.reverse_cons, limbsValue_append, List.length_reverse,
      List.length_cons, Nat.add_sub_cancel, limbsValue_cons]
    exact (Nat.le_mul_of_pos_right _ (by omega)).trans (Nat.le_add_left _ _)

theorem significant_high (X : Limbs) : limbsValue X < (2 ^ 32) ^ (significant X).length := by
  have bound := limbsValue_lt (significant X).reverse
  rwa [limbsValue_significant, List.length_reverse] at bound

/-- From the top, the first difference decides. -/
theorem cmpLoop_value (x y : Limbs) (same : x.length = y.length) :
    0 ≤ cmpLoop x y ↔ limbsValue y.reverse ≤ limbsValue x.reverse := by
  induction x generalizing y with
  | nil =>
    obtain rfl := List.length_eq_zero_iff.mp same.symm
    exact iff_of_true (le_refl _) (le_refl _)
  | cons first x ih =>
    cases y with
    | nil => cases same
    | cons second y =>
      have size : x.length = y.length := Nat.succ.inj same
      have low := limbsValue_lt x.reverse
      have high := limbsValue_lt y.reverse
      rw [List.length_reverse] at low high
      rw [List.reverse_cons, List.reverse_cons, limbsValue_append, limbsValue_append, limbsValue_cons,
        limbsValue_cons, limbsValue_nil, Nat.mul_zero, Nat.add_zero, Nat.add_zero, List.length_reverse,
        List.length_reverse, size, cmpLoop]
      rw [size] at low
      split_ifs with more less
      · rw [UInt32.lt_iff_toNat_lt] at more
        have gap := Nat.mul_le_mul_left ((2 ^ 32) ^ y.length) (Nat.succ_le_of_lt more)
        rw [Nat.mul_succ] at gap
        refine iff_of_true (by norm_num) ?_
        omega
      · rw [UInt32.lt_iff_toNat_lt] at less
        have gap := Nat.mul_le_mul_left ((2 ^ 32) ^ y.length) (Nat.succ_le_of_lt less)
        rw [Nat.mul_succ] at gap
        refine iff_of_false (by norm_num) ?_
        omega
      · have equal : first = second := by
          rw [UInt32.lt_iff_toNat_lt] at more less
          exact UInt32.toNat_inj.mp (by omega)
        rw [ih y size, equal]
        omega

/-- `mpi_cmp_abs` compares the numbers. -/
theorem mpiCmpAbs_value (X Y : Limbs) : 0 ≤ mpiCmpAbs X Y ↔ limbsValue Y ≤ limbsValue X := by
  have ordered {X Y : Limbs} (longer : (significant Y).length < (significant X).length) :
      limbsValue Y < limbsValue X := by
    refine (significant_high Y).trans_le (le_trans ?_ ((significant_low X).resolve_left ?_))
    · exact Nat.pow_le_pow_right (by norm_num) (by omega)
    · rintro none
      rw [none] at longer
      exact Nat.not_lt_zero _ longer
  rw [mpiCmpAbs]
  split_ifs with longer shorter
  · exact iff_of_true (by norm_num) (ordered longer).le
  · exact iff_of_false (by norm_num) (Nat.not_le.mpr (ordered shorter))
  · rw [cmpLoop_value _ _ (Nat.le_antisymm (Nat.not_lt.mp longer) (Nat.not_lt.mp shorter)),
      limbsValue_significant, limbsValue_significant]

/-- A copy is as long as before at least, and has the same number. -/
theorem mpiCopy_value (X Y : Limbs) : limbsValue (mpiCopy X Y) = limbsValue Y ∧
    X.length ≤ (mpiCopy X Y).length := by
  obtain ⟨i, count⟩ : ∃ i, max (significant Y).length (min 1 Y.length) = i := ⟨_, rfl⟩
  have high := significant_high Y
  have enough : limbsValue Y < (2 ^ 32) ^ i :=
    high.trans_le (Nat.pow_le_pow_right (by norm_num) (by omega))
  have inside : i ≤ Y.length := by
    obtain ⟨zeros, split⟩ := significant_eq Y
    have size := congrArg List.length split
    rw [List.length_append, List.length_reverse] at size
    omega
  rw [mpiCopy, count]
  constructor
  · rw [limbsValue_append, limbsValue_replicate, Nat.mul_zero, Nat.add_zero, (limbsValue_drop enough).1]
  · rw [List.length_append, List.length_take, List.length_replicate, Nat.min_eq_left inside]
    omega

end Comparison

end ShuangFa
