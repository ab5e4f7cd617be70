import ShuangFa.Proofs.Sums

/-! # Numbers as bytes

The number of big-endian bytes is read into limbs and written back; a number below the range of a buffer
fits it.
-/

namespace ShuangFa

/-- The number that bytes make, the highest one first. -/
def bytesValue (bytes : List UInt8) : ℕ := Nat.ofDigits 256 (bytes.reverse.map UInt8.toNat)

theorem digit_lt (bytes : List UInt8) : ∀ digit ∈ bytes.reverse.map UInt8.toNat, digit < 256 := by
  intro digit member
  obtain ⟨byte, _, rfl⟩ := List.mem_map.mp member
  exact byte.toNat_lt

theorem bytesValue_lt (bytes : List UInt8) : bytesValue bytes < 256 ^ bytes.length := by
  have small := Nat.ofDigits_lt_base_pow_length (by norm_num : 1 < 256) (digit_lt bytes)
  rwa [List.length_map, List.length_reverse] at small

theorem bytesValue_inj {first second : List UInt8} (length : first.length = second.length)
    (value : bytesValue first = bytesValue second) : first = second := by
  have digits := Nat.ofDigits_inj_of_len_eq (by norm_num : 1 < 256)
    (by rw [List.length_map, List.length_map, List.length_reverse, List.length_reverse, length])
    (digit_lt first) (digit_lt second) value
  exact List.reverse_inj.mp ((List.map_inj_right fun _ _ => UInt8.toNat_inj.mp).mp digits)

section Reading

theorem ofDigits_head (bytes : List UInt8) : Nat.ofDigits 256 (bytes.map UInt8.toNat) =
    (bytes.getD 0 0).toNat + 256 * Nat.ofDigits 256 ((bytes.drop 1).map UInt8.toNat) := by
  cases bytes with
  | nil => rfl
  | cons first rest => rw [List.map_cons, Nat.ofDigits_cons]; rfl

theorem limb_of_bytes (b0 b1 b2 b3 : UInt8) :
    (b0.toUInt32 ||| b1.toUInt32 <<< 8 ||| b2.toUInt32 <<< 16 ||| b3.toUInt32 <<< 24).toNat =
      b0.toNat + 256 * (b1.toNat + 256 * (b2.toNat + 256 * b3.toNat)) := by
  have bound0 := b0.toNat_lt
  have bound1 := b1.toNat_lt
  have bound2 := b2.toNat_lt
  have bound3 := b3.toNat_lt
  have shifted (byte : UInt8) (count : UInt32) (small : count.toNat ≤ 24) :
      (byte.toUInt32 <<< count).toNat = byte.toNat <<< count.toNat := by
    have bound := byte.toNat_lt
    have count_lt : count.toNat % 32 = count.toNat := Nat.mod_eq_of_lt (by omega)
    rw [UInt32.toNat_shiftLeft, UInt8.toNat_toUInt32, count_lt, Nat.shiftLeft_eq]
    apply Nat.mod_eq_of_lt
    calc
      byte.toNat * 2 ^ count.toNat ≤ byte.toNat * 2 ^ 24 :=
        Nat.mul_le_mul_left _ (Nat.pow_le_pow_right (by norm_num) small)
      _ < 2 ^ 32 := by omega
  rw [UInt32.toNat_or, UInt32.toNat_or, UInt32.toNat_or, shifted b1 8 (by decide),
    shifted b2 16 (by decide), shifted b3 24 (by decide), UInt8.toNat_toUInt32]
  have join {low high : ℕ} (count : ℕ) (small : low < 2 ^ count) :
      low ||| high <<< count = low + high * 2 ^ count := by
    rw [Nat.or_comm, ← Nat.shiftLeft_add_eq_or_of_lt small, Nat.shiftLeft_eq, Nat.add_comm]
  rw [show UInt32.toNat 8 = 8 from rfl, show UInt32.toNat 16 = 16 from rfl,
    show UInt32.toNat 24 = 24 from rfl, join 8 (by omega), join 16 (by omega), join 24 (by omega)]
  ring

/-- Limbs of four bytes each. -/
theorem limbsValue_pack (count : ℕ) (bytes : List UInt8) (enough : bytes.length ≤ 4 * count) :
    limbsValue ((List.range count).map fun place =>
      (bytes.getD (4 * place) 0).toUInt32 ||| (bytes.getD (4 * place + 1) 0).toUInt32 <<< 8 |||
        (bytes.getD (4 * place + 2) 0).toUInt32 <<< 16 |||
        (bytes.getD (4 * place + 3) 0).toUInt32 <<< 24) =
      Nat.ofDigits 256 (bytes.map UInt8.toNat) := by
  induction count generalizing bytes with
  | zero =>
    obtain rfl := List.length_eq_zero_iff.mp (Nat.le_zero.mp enough)
    rfl
  | succ count ih =>
    have later := ih (bytes.drop 4) (by rw [List.length_drop]; omega)
    have behind (index : ℕ) : (bytes.drop 4).getD index 0 = bytes.getD (4 + index) 0 := by
      rw [List.getD_eq_getElem?_getD, List.getD_eq_getElem?_getD, List.getElem?_drop]
    have place (index : ℕ) : 4 * (index + 1) = 4 + 4 * index := by ring
    rw [List.range_succ_eq_map, List.map_cons, limbsValue_cons, List.map_map, limb_of_bytes,
      ofDigits_head, ofDigits_head (bytes.drop 1), ofDigits_head ((bytes.drop 1).drop 1),
      ofDigits_head (((bytes.drop 1).drop 1).drop 1)]
    simp only [List.drop_drop, List.getD_eq_getElem?_getD, List.getElem?_drop] at later behind ⊢
    simp only [Function.comp_def, place, ← Nat.add_assoc] at later ⊢
    rw [later]
    ring

/-- A number is read as it stands. -/
theorem mpiReadBinary_value (buf : List UInt8) : limbsValue (mpiReadBinary buf) = bytesValue buf := by
  have zeros : ∀ buf : List UInt8, bytesValue (buf.dropWhile (· = 0)) = bytesValue buf := by
    intro buf
    induction buf with
    | nil => rfl
    | cons first rest ih =>
      rcases eq_or_ne first 0 with rfl | nonzero
      · rw [List.dropWhile_cons_of_pos (by decide), ih, bytesValue, bytesValue, List.reverse_cons,
          List.map_append, Nat.ofDigits_append]
        simp
      · rw [List.dropWhile_cons_of_neg (by simpa using nonzero)]
  rw [mpiReadBinary, limbsValue_pack _ _ (by omega), ← zeros buf, bytesValue]

end Reading

section Writing

variable {X : Limbs}

/-- The bits of a number, exactly. -/
theorem mpiMsb_value (X : Limbs) : limbsValue X < 2 ^ mpiMsb X ∧
    (0 < mpiMsb X → 2 ^ (mpiMsb X - 1) ≤ limbsValue X) := by
  obtain ⟨zeros, split⟩ := significant_eq X
  have number := limbsValue_significant X
  cases top : significant X with
  | nil =>
    rw [top, List.reverse_nil, List.nil_append] at split
    rw [top] at number
    have none : mpiMsb X = 0 := by
      rw [mpiMsb, top, split]
      cases zeros <;> rfl
    rw [none, ← number]
    exact ⟨Nat.one_pos, fun some => absurd some (Nat.lt_irrefl _)⟩
  | cons first rest =>
    have nonzero : first ≠ 0 := by
      have head := List.head?_dropWhile_not (· = 0) X.reverse
      rw [show X.reverse.dropWhile (· = 0) = first :: rest from top] at head
      simpa using head
    have positive : first.toNat ≠ 0 := fun zero => nonzero (UInt32.toNat_inj.mp zero)
    have msb : mpiMsb X = rest.length * 32 + first.toNat.size := by
      have limb : X.getD rest.length 0 = first := by
        rw [split, top, List.reverse_cons, List.append_assoc, List.getD_eq_getElem?_getD,
          List.getElem?_append_right (by rw [List.length_reverse]), List.length_reverse, Nat.sub_self]
        rfl
      rw [mpiMsb, top, List.length_cons, Nat.max_eq_left (Nat.succ_le_succ (Nat.zero_le _)),
        Nat.succ_sub_one, limb]
    have radix : (2 ^ 32) ^ rest.length = 2 ^ (rest.length * 32) := by rw [← pow_mul, Nat.mul_comm]
    have low := limbsValue_lt rest.reverse
    rw [List.length_reverse, radix] at low
    rw [top, List.reverse_cons, limbsValue_append, List.length_reverse, radix, limbsValue_cons,
      limbsValue_nil, Nat.mul_zero, Nat.add_zero] at number
    have size := Nat.size_pos.mpr (Nat.pos_of_ne_zero positive)
    rw [msb, ← number]
    constructor
    · have bound := Nat.mul_le_mul_left (2 ^ (rest.length * 32)) (Nat.succ_le_of_lt
        (Nat.lt_size_self first.toNat))
      rw [pow_add]
      rw [Nat.mul_succ] at bound
      omega
    · intro _
      have bit : 2 ^ (first.toNat.size - 1) ≤ first.toNat := Nat.lt_size.mp (by omega)
      have bound := Nat.mul_le_mul_left (2 ^ (rest.length * 32)) bit
      rw [← pow_add] at bound
      have place : rest.length * 32 + (first.toNat.size - 1) =
          rest.length * 32 + first.toNat.size - 1 := by omega
      rw [place] at bound
      omega

theorem limb_value (X : Limbs) (place : ℕ) :
    (X.getD place 0).toNat = limbsValue X / (2 ^ 32) ^ place % 2 ^ 32 := by
  induction place generalizing X with
  | zero => rw [pow_zero, Nat.div_one, limbsValue_mod]; cases X <;> rfl
  | succ place ih =>
    cases X with
    | nil => rw [limbsValue_nil, Nat.zero_div]; rfl
    | cons first rest =>
      have bound := first.toNat_lt
      rw [List.getD_cons_succ, ih, limbsValue_cons, pow_succ' (2 ^ 32) place, ← Nat.div_div_eq_div_mul]
      have rest : (first.toNat + 2 ^ 32 * limbsValue rest) / 2 ^ 32 = limbsValue rest := by omega
      rw [rest]

theorem byte_value (X : Limbs) (j : ℕ) :
    (UInt8.ofNat ((X.getD (j / 4) 0).toNat >>> (j % 4 * 8))).toNat =
      limbsValue X / 256 ^ j % 256 := by
  have split : 256 ^ j = (2 ^ 32) ^ (j / 4) * 2 ^ (j % 4 * 8) := by
    rw [← pow_mul, ← pow_add, show 256 = 2 ^ 8 from rfl, ← pow_mul]
    congr 1
    omega
  rw [UInt8.toNat_ofNat', limb_value, Nat.shiftRight_eq_div_pow, split, ← Nat.div_div_eq_div_mul]
  generalize limbsValue X / (2 ^ 32) ^ (j / 4) = value
  have cases : j % 4 = 0 ∨ j % 4 = 1 ∨ j % 4 = 2 ∨ j % 4 = 3 := by omega
  rcases cases with place | place | place | place <;> rw [place] <;> omega

theorem ofDigits_range (value count : ℕ) :
    Nat.ofDigits 256 ((List.range count).map fun j => value / 256 ^ j % 256) = value % 256 ^ count := by
  induction count with
  | zero => rw [pow_zero, Nat.mod_one]; rfl
  | succ count ih =>
    rw [List.range_succ, List.map_append, Nat.ofDigits_append, ih, List.length_map, List.length_range,
      List.map_singleton, Nat.ofDigits_singleton, Nat.mod_pow_succ]

theorem mpiWriteBinary_length {buflen : ℕ} {bytes : List UInt8}
    (written : mpiWriteBinary X buflen = some bytes) : bytes.length = buflen := by
  rw [mpiWriteBinary] at written
  split_ifs at written
  cases written
  simp

/-- A number that is below the range of a buffer is written to it. -/
theorem mpiWriteBinary_value {buflen : ℕ} (small : limbsValue X < 256 ^ buflen) :
    ∃ bytes, mpiWriteBinary X buflen = some bytes ∧ bytesValue bytes = limbsValue X := by
  obtain ⟨high, low⟩ := mpiMsb_value X
  have eight (count : ℕ) : 256 ^ count = 2 ^ (8 * count) := by
    rw [show 256 = 2 ^ 8 from rfl, ← pow_mul]
  have fits : ¬buflen < mpiSize X := by
    intro long
    rw [mpiSize] at long
    have bound := low (by omega)
    rw [eight] at small
    have wide : 2 ^ (8 * buflen) ≤ 2 ^ (mpiMsb X - 1) := Nat.pow_le_pow_right (by norm_num) (by omega)
    omega
  refine ⟨_, by rw [mpiWriteBinary, if_neg fits], ?_⟩
  have each (j : ℕ) : (if j < mpiSize X then
      UInt8.ofNat ((X.getD (j / 4) 0).toNat >>> (j % 4 * 8)) else 0).toNat =
        limbsValue X / 256 ^ j % 256 := by
    split_ifs with inside
    · exact byte_value X j
    · have wide : 2 ^ mpiMsb X ≤ 256 ^ j := by
        rw [eight]
        apply Nat.pow_le_pow_right (by norm_num)
        rw [mpiSize] at inside
        omega
      rw [Nat.div_eq_of_lt (high.trans_le wide)]
      rfl
  rw [bytesValue, List.reverse_reverse, List.map_map, Function.comp_def]
  simp only [each]
  rw [ofDigits_range, Nat.mod_eq_of_lt small]

end Writing

end ShuangFa
