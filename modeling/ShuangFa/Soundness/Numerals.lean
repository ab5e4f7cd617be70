import ShuangFa.Coding.Numerals
import ShuangFa.Model.Itoa

/-! # Every `int` but one is printed

The two loops of `my_itoa` store the digits of a number in front of each other and turn them round, so
the text is the numeral. The smallest `int` is its own negative: the loop runs with a negative number,
and its remainders are places in front of the table.
-/

namespace ShuangFa

open Memory Coding

/-- `my_itoa` leaves the numeral of `num` behind `str`, and reads the table at the digits of the radix
only. -/
def PrintsNumeral (beforeTable : View) (radix : ℕ) (num : Int32) (str : View) : Prop :=
  ∃ memory indices, ∃ text : CString,
    Itoa.run beforeTable (.ofNat radix) num str = some (memory, indices) ∧
    memory.read 0 (text.bytes.length + 1) = terminated text.bytes ∧
    IsNumeral radix num.toInt text.bytes ∧ ∀ index ∈ indices, 0 ≤ index ∧ index < radix

/-- The remainders that the loop takes off. -/
def itoaIndices (radix : ℤ) : ℕ → ℤ → List ℤ
  | 0, _ => []
  | rounds + 1, num =>
    if num = 0 then [] else num.tmod radix :: itoaIndices radix rounds (num.tdiv radix)

section Digits

variable {radix : ℤ} {rounds : ℕ} {num : ℤ}

theorem itoaLoop_eq_map (beforeTable : View) (radix : ℤ) (rounds : ℕ) (num : ℤ) :
    itoaLoop beforeTable radix rounds num =
      (itoaIndices radix rounds num).map (itoaTable beforeTable) := by
  induction rounds generalizing num with
  | zero => rfl
  | succ rounds ih =>
    rw [itoaLoop, itoaIndices, ih]
    split
    · rfl
    · rfl

/-- A number with a digit less. -/
theorem natAbs_tdiv_lt (large : 2 ≤ radix) (small : num.natAbs < 2 ^ (rounds + 1)) :
    (num.tdiv radix).natAbs < 2 ^ rounds := by
  rw [Int.natAbs_tdiv]
  apply Nat.div_lt_of_lt_mul
  calc num.natAbs < 2 * 2 ^ rounds := by rwa [Nat.pow_succ'] at small
    _ ≤ radix.natAbs * 2 ^ rounds := Nat.mul_le_mul_right _ (by omega)

/-- A number that is not negative has its digits as remainders. -/
theorem itoaIndices_natCast {base number : ℕ} (large : 2 ≤ base) (small : number < 2 ^ rounds) :
    itoaIndices base rounds number = (Nat.digits base number).map Nat.cast := by
  induction rounds generalizing number with
  | zero =>
    obtain rfl : number = 0 := by omega
    rw [Nat.digits_zero]
    rfl
  | succ rounds ih =>
    rw [itoaIndices]
    rcases Nat.eq_zero_or_pos number with rfl | positive
    · rw [Nat.digits_zero]
      rfl
    · have smaller := @natAbs_tdiv_lt base rounds number (by omega) small
      rw [← Int.ofNat_tdiv, Int.natAbs_natCast] at smaller
      rw [if_neg (by omega), ← Int.ofNat_tdiv, ih smaller, Nat.digits_def' large positive,
        List.map_cons, ← Int.ofNat_tmod]

/-- A negative number has a remainder in front of the table. -/
theorem exists_itoaIndices_neg (large : 2 ≤ radix) (negative : num < 0)
    (small : num.natAbs < 2 ^ rounds) : ∃ index ∈ itoaIndices radix rounds num, index < 0 := by
  induction rounds generalizing num with
  | zero => omega
  | succ rounds ih =>
    rw [itoaIndices, if_neg (by omega)]
    rcases eq_or_ne (num.tdiv radix) 0 with last | more
    · refine ⟨_, List.mem_cons_self .., ?_⟩
      rw [Int.tmod_def, last]
      omega
    · have quotient : num.tdiv radix < 0 := by
        apply lt_of_le_of_ne _ more
        have magnitude := Int.tdiv_nonneg (a := -num) (b := radix) (by omega) (by omega)
        rw [Int.neg_tdiv] at magnitude
        omega
      obtain ⟨index, member, below⟩ := ih quotient (natAbs_tdiv_lt large small)
      exact ⟨index, List.mem_cons_of_mem _ member, below⟩

/-- The table has the digits. -/
theorem itoaTable_digit (beforeTable : View) {digit : ℕ} (bound : digit < 36) :
    itoaTable beforeTable digit = digitByte digit := by
  have entries : ∀ digit < 36,
      (ascii "0123456789ABCDEFGHIJKLMNOPQRSTUVWXYZ".toList).getD digit 0 = digitByte digit := by decide
  rw [itoaTable, if_neg (by omega), Int.toNat_natCast]
  exact entries digit bound

end Digits

section Runs

variable {beforeTable : View} {radix : Int32} {rounds : ℕ}

/-- The first loop stores its digits one behind the other. -/
theorem Itoa.digits_eq (large : 2 ≤ radix.toInt) (s : Itoa)
    (small : s.num.toInt.natAbs < 2 ^ rounds) :
    Itoa.digits beforeTable radix rounds s = some {
      str := s.str.store s.ptr (itoaLoop beforeTable radix.toInt rounds s.num.toInt)
      ptr := s.ptr + (itoaLoop beforeTable radix.toInt rounds s.num.toInt).length
      num := 0
      indices := s.indices ++ itoaIndices radix.toInt rounds s.num.toInt } := by
  have ended (s : Itoa) (zero : s.num = 0) : s = {
      str := s.str.store s.ptr []
      ptr := s.ptr + ([] : List UInt8).length
      num := 0
      indices := s.indices ++ [] } := by
    rw [View.store_nil, List.append_nil, ← zero]
    rfl
  induction rounds generalizing s with
  | zero =>
    have zero : s.num = 0 := Int32.toInt.inj (by rw [Int32.toInt_zero]; omega)
    rw [Itoa.digits, if_pos zero]
    exact congrArg some (ended s zero)
  | succ rounds ih =>
    rw [Itoa.digits, itoaLoop, itoaIndices]
    split_ifs with zero value value
    · exact congrArg some (ended s zero)
    · exact absurd (congrArg Int32.toInt zero) value
    · exact absurd (Int32.toInt.inj value) zero
    · have unit : radix ≠ -1 := by
        rintro rfl
        exact absurd large (by decide)
      have quotient := Int32.toInt_div_of_ne_right s.num radix unit
      dsimp only
      rw [ih _ (by rw [quotient]; exact natAbs_tdiv_lt large small)]
      dsimp only
      rw [quotient, Int32.toInt_mod, List.length_cons, List.append_assoc, List.singleton_append]
      congr 2
      · exact (View.store_append s.str s.ptr [_] _).symm
      · omega

/-- The sign that comes in front of the digits. -/
def itoaSign (num : Int32) : List UInt8 := if num < 0 then [45] else []

/-- The number whose digits are taken off. -/
def itoaMagnitude (num : Int32) : Int32 := if num < 0 then -num else num

theorem Itoa.start_eq (num : Int32) (str : View) :
    Itoa.start num str = ⟨str.store 0 (itoaSign num), (itoaSign num).length, itoaMagnitude num, []⟩ := by
  rw [Itoa.start, itoaSign, itoaMagnitude]
  split
  · rw [Int32.mul_neg, Int32.mul_one]
    rfl
  · rw [View.store_nil]
    rfl

theorem myItoa_eq (beforeTable : View) (radix : ℤ) {num : Int32} (nonzero : num ≠ 0) :
    myItoa beforeTable num radix =
      itoaSign num ++ (itoaLoop beforeTable radix 32 (itoaMagnitude num).toInt).reverse := by
  rw [myItoa, if_neg nonzero, itoaSign, itoaMagnitude]
  split
  · rfl
  · rfl

theorem itoaMagnitude_ne_zero {num : Int32} (nonzero : num ≠ 0) : itoaMagnitude num ≠ 0 := by
  rw [itoaMagnitude]
  split
  · intro zero
    exact nonzero (by rw [← Int32.neg_neg (a := num), zero]; rfl)
  · exact nonzero

/-- `my_itoa` in place leaves the text that the digits make backwards, for every `int`. -/
theorem Itoa.run_eq (beforeTable : View) (large : 2 ≤ radix.toInt) (num : Int32) (str : View) :
    ∃ memory, Itoa.run beforeTable radix num str =
        some (memory, itoaIndices radix.toInt 32 (itoaMagnitude num).toInt) ∧
      memory.read 0 ((myItoa beforeTable num radix.toInt).length + 1) =
        terminated (myItoa beforeTable num radix.toInt) := by
  rcases eq_or_ne num 0 with rfl | nonzero
  · refine ⟨_, rfl, ?_⟩
    exact View.read_store_self str 0 [48, 0]
  · have number := itoaMagnitude_ne_zero nonzero
    have small : (itoaMagnitude num).toInt.natAbs < 2 ^ 32 := by
      have := (itoaMagnitude num).le_toInt
      have := (itoaMagnitude num).toInt_lt
      omega
    have some_digit : itoaLoop beforeTable radix.toInt 32 (itoaMagnitude num).toInt ≠ [] := by
      have value : (itoaMagnitude num).toInt ≠ 0 := fun zero => number (Int32.toInt.inj zero)
      rw [itoaLoop, if_neg value]
      exact List.cons_ne_nil _ _
    have sign : (if num < 0 then 1 else 0) = (itoaSign num).length := by
      rw [itoaSign]
      split
      · rfl
      · rfl
    refine ⟨(str.store 0 (itoaSign num ++ itoaLoop beforeTable radix.toInt 32
      (itoaMagnitude num).toInt ++ [0])).reverseLoop (itoaSign num).length ((itoaSign num).length +
        (itoaLoop beforeTable radix.toInt 32 (itoaMagnitude num).toInt).length - 1), ?_, ?_⟩
    · have taken := @Itoa.digits_eq beforeTable radix 32 large
        ⟨str.store 0 (itoaSign num), (itoaSign num).length, itoaMagnitude num, []⟩ small
      rw [Itoa.run, if_neg nonzero, Itoa.start_eq, taken, Option.map_some, sign, View.store_append,
        View.store_append, Nat.zero_add, Nat.zero_add, List.length_append, List.nil_append]
    · have whole := View.read_reverseLoop_store str (itoaSign num) [0] some_digit
      rw [List.length_append, List.length_append] at whole
      rw [myItoa_eq beforeTable _ nonzero, terminated, ← whole, List.length_append,
        List.length_reverse]
      rfl

end Runs

section Numerals

variable {radix : ℕ} {num : Int32}

theorem lt_zero_iff (num : Int32) : num < 0 ↔ num.toInt < 0 := Int32.lt_iff_toInt_lt

/-- The magnitude of an `int` is an `int`, the smallest one apart. -/
theorem toInt_itoaMagnitude (other : num ≠ Int32.minValue) :
    (itoaMagnitude num).toInt = num.toInt.natAbs := by
  rw [itoaMagnitude]
  split
  · rename_i negative
    rw [lt_zero_iff] at negative
    have above : num.toInt ≠ -2 ^ 31 := fun least => other (Int32.toInt.inj least)
    have below := num.le_toInt
    rw [Int32.toInt_neg, Int.bmod_eq_of_le (by omega) (by omega)]
    omega
  · rename_i positive
    rw [lt_zero_iff] at positive
    omega

theorem itoaIndices_magnitude (large : 2 ≤ radix) (other : num ≠ Int32.minValue) :
    itoaIndices radix 32 (itoaMagnitude num).toInt =
      (Nat.digits radix num.toInt.natAbs).map Nat.cast := by
  have below := num.le_toInt
  have above := num.toInt_lt
  rw [toInt_itoaMagnitude other]
  exact itoaIndices_natCast large (by omega)

/-- The text is the numeral. -/
theorem isNumeral_myItoa (beforeTable : View) (large : 2 ≤ radix) (bound : radix ≤ 36)
    (other : num ≠ Int32.minValue) : IsNumeral radix num.toInt (myItoa beforeTable num radix) := by
  rcases eq_or_ne num 0 with rfl | nonzero
  · exact ⟨[0], numeral_zero radix (by omega), rfl⟩
  · have value : num.toInt.natAbs ≠ 0 := by
      rw [Ne, Int.natAbs_eq_zero]
      exact fun zero => nonzero (Int32.toInt.inj zero)
    refine ⟨(Nat.digits radix num.toInt.natAbs).reverse, numeral_digits large value, ?_⟩
    have digits : itoaLoop beforeTable radix 32 (itoaMagnitude num).toInt =
        (Nat.digits radix num.toInt.natAbs).map digitByte := by
      rw [itoaLoop_eq_map, itoaIndices_magnitude large other, List.map_map]
      apply List.map_congr_left
      intro digit member
      exact itoaTable_digit beforeTable ((Nat.digits_lt_base large member).trans_le bound)
    rw [myItoa_eq beforeTable _ nonzero, digits, itoaSign, List.map_reverse]
    simp only [lt_zero_iff]

end Numerals

/-- `my_itoa` prints every `int` but the smallest one. -/
theorem printsNumeral_iff (beforeTable : View) {radix : ℕ} (large : 2 ≤ radix) (bound : radix ≤ 36)
    (num : Int32) (str : View) :
    PrintsNumeral beforeTable radix num str ↔ num ≠ Int32.minValue := by
  have small : (Int32.ofNat radix).toInt = radix := Int32.toInt_ofNat_of_lt (by omega)
  obtain ⟨memory, ran, text⟩ :=
    @Itoa.run_eq (.ofNat radix) beforeTable (by rw [small]; exact_mod_cast large) num str
  rw [small] at ran text
  constructor
  · rintro ⟨_, _, _, same, _, _, inside⟩ rfl
    cases ran.symm.trans same
    obtain ⟨index, member, below⟩ := @exists_itoaIndices_neg radix 32
      (itoaMagnitude Int32.minValue).toInt (by exact_mod_cast large) (by decide) (by decide)
    exact absurd (inside index member).1 (Int.not_le.mpr below)
  · intro other
    have numeral := isNumeral_myItoa beforeTable large bound other
    have nonzero : 0 ∉ myItoa beforeTable num radix := by
      obtain ⟨digits, well_formed, same⟩ := numeral
      have printed : ∀ digit < 36, (0 : UInt8) ≠ digitByte digit := by decide
      rw [same, List.mem_append]
      rintro (sign | digit)
      · split at sign
        · exact absurd sign (by decide)
        · exact absurd sign List.not_mem_nil
      · obtain ⟨value, member, zero⟩ := List.mem_map.mp digit
        exact printed value ((well_formed.bounded value member).trans_le bound) zero.symm
    refine ⟨memory, _, ⟨myItoa beforeTable num radix, nonzero⟩, ran, text, numeral, ?_⟩
    intro index member
    rw [itoaIndices_magnitude large other, List.mem_map] at member
    obtain ⟨digit, member, rfl⟩ := member
    have := Nat.digits_lt_base large member
    omega

/-- -255 in hexadecimal. -/
theorem printsNumeral_hexadecimal : PrintsNumeral (fun _ => 0) 16 (-255) (fun _ => 0) :=
  (printsNumeral_iff (fun _ => 0) (by decide) (by decide) (-255) (fun _ => 0)).mpr (by decide)

/-- The smallest `int` in decimal. -/
theorem printsNumeral_fails : ¬ ∀ (beforeTable : View) (radix : ℕ), 2 ≤ radix → radix ≤ 36 →
    ∀ (num : Int32) (str : View), PrintsNumeral beforeTable radix num str := by
  intro all
  obtain ⟨memory, indices, text, ran, _, _, inside⟩ :=
    all (fun _ => 0) 10 (by decide) (by decide) Int32.minValue (fun _ => 0)
  have first : indices.head? = some (-8) := by
    rw [← (Prod.mk.inj (Option.some.inj ran)).2]
    decide
  exact absurd (inside (-8) (List.mem_of_mem_head? first)).1 (by decide)

end ShuangFa
