import Mathlib
import ShuangFa.Coding.ShiftRegister
import ShuangFa.Model.Crc

/-! # The checksum as a shift register

`crc_cal_by_bit` is the shift register of sixteen cells over the field of two elements whose taps are
the bits of `0x1021`: the bits of the data are its letters, most significant bit of each byte first.
The table-driven algorithms look up what the register drives out.
-/

namespace ShuangFa

open Coding

/-- A bit of a number. -/
def bit (number index : ℕ) : ZMod 2 := if number.testBit index then 1 else 0

/-- The lowest `width` bits of a number, most significant bit first. -/
def bitsOf (width number : ℕ) : List (ZMod 2) :=
  (List.range width).map fun index => bit number (width - 1 - index)

/-- The bits of a message in the order of their transmission. -/
def transmitted (bytes : List UInt8) : List (ZMod 2) := bytes.flatMap fun byte => bitsOf 8 byte.toNat

/-- The cells that hold a checksum. -/
def crcCells (crc : ℕ) : Cells (ZMod 2) 15 := fun cell => bit crc cell

def ccittTaps : Cells (ZMod 2) 15 := crcCells 0x1021

section Bits

variable {number other : ℕ}

theorem bit_xor (number other index : ℕ) :
    bit (number ^^^ other) index = bit number index + bit other index := by
  rw [bit, bit, bit, Nat.testBit_xor]
  cases number.testBit index <;> cases other.testBit index <;> decide

theorem bitsOf_length (width number : ℕ) : (bitsOf width number).length = width := by
  rw [bitsOf, List.length_map, List.length_range]

theorem bitsOf_xor (width number other : ℕ) : bitsOf width (number ^^^ other) =
    List.zipWith (· + ·) (bitsOf width number) (bitsOf width other) := by
  rw [bitsOf, bitsOf, bitsOf, List.zipWith_map, List.zipWith_self]
  apply List.map_congr_left
  intro index _
  exact bit_xor ..

/-- The bits of a number in two parts. -/
theorem bitsOf_add (high low number : ℕ) : bitsOf (high + low) number =
    bitsOf high (number / 2 ^ low) ++ bitsOf low (number % 2 ^ low) := by
  rw [bitsOf, bitsOf, bitsOf, List.range_add, List.map_append, List.map_map]
  congr 1 <;> apply List.map_congr_left <;> intro index among
  · have place : high + low - 1 - index = high - 1 - index + low := by
      have before := List.mem_range.mp among
      omega
    rw [bit, bit, Nat.testBit_div_two_pow, place]
  · have place : high + low - 1 - (high + index) = low - 1 - index := by omega
    have inside : low - 1 - index < low := by
      have before := List.mem_range.mp among
      omega
    rw [Function.comp_apply, bit, bit, Nat.testBit_mod_two_pow, place, decide_eq_true inside,
      Bool.true_and]

theorem crcCells_zero : crcCells 0 = 0 := by
  funext cell
  simp [crcCells, bit]

theorem crcCells_xor (number other : ℕ) :
    crcCells (number ^^^ other) = crcCells number + crcCells other := by
  funext cell
  exact bit_xor ..

/-- A number that is added where a bit is set. -/
theorem crcCells_ite (number index taps : ℕ) :
    crcCells (if number.testBit index then taps else 0) = bit number index • crcCells taps := by
  funext cell
  cases set : number.testBit index <;> simp [crcCells, bit, set]

/-- The cells show which number they hold. -/
theorem crcCells_injective (small : number < 2 ^ 16) (otherSmall : other < 2 ^ 16)
    (same : crcCells number = crcCells other) : number = other := by
  apply Nat.eq_of_testBit_eq
  intro index
  rcases Nat.lt_or_ge index 16 with inside | past
  · have cell := congrFun same ⟨index, inside⟩
    simp only [crcCells, bit] at cell
    cases left : number.testBit index <;> cases right : other.testBit index <;>
      simp [left, right] at cell ⊢
  · have wide : 2 ^ 16 ≤ 2 ^ index := Nat.pow_le_pow_right (by decide) past
    rw [Nat.testBit_lt_two_pow (Nat.lt_of_lt_of_le small wide),
      Nat.testBit_lt_two_pow (Nat.lt_of_lt_of_le otherSmall wide)]

end Bits

section Steps

variable {crc : ℕ}

theorem testBit_mul_two (number index : ℕ) :
    (number * 2).testBit index = (decide (1 ≤ index) && number.testBit (index - 1)) := by
  simpa using Nat.testBit_mul_two_pow number index 1

/-- One bit of data, with the masks written as bits. -/
theorem crcStepBit_eq (byte crc index : ℕ) : crcStepBit byte crc (2 ^ index) =
    crc * 2 ^^^ (if crc.testBit 15 then 0x11021 else 0) ^^^
      (if byte.testBit index then 0x1021 else 0) := by
  have masked (number index : ℕ) : number &&& 2 ^ index ≠ 0 ↔ number.testBit index := by
    rw [Nat.and_two_pow]
    cases number.testBit index <;> simp
  have carried : (crc * 2).testBit 16 = crc.testBit 15 := testBit_mul_two crc 16
  have top : crc * 2 &&& 0x10000 ≠ 0 ↔ crc.testBit 15 := by
    rw [← carried]
    exact masked _ 16
  simp only [crcStepBit, top, masked]
  split <;> split <;> simp only [Nat.xor_zero]

theorem crcStepBit_lt (small : crc < 2 ^ 16) (byte index : ℕ) :
    crcStepBit byte crc (2 ^ index) < 2 ^ 16 := by
  rw [crcStepBit_eq]
  apply Nat.xor_lt_two_pow
  · apply Nat.lt_pow_two_of_testBit
    intro place past
    have shifted : (crc * 2).testBit place = crc.testBit (place - 1) := by
      rw [testBit_mul_two, decide_eq_true (by omega), Bool.true_and]
    rw [Nat.testBit_xor, shifted]
    rcases Nat.eq_or_lt_of_le past with rfl | above
    · cases crc.testBit 15 <;> decide
    · have wide : 2 ^ 17 ≤ 2 ^ place := Nat.pow_le_pow_right (by decide) above
      have high : 2 ^ 16 ≤ 2 ^ (place - 1) := Nat.pow_le_pow_right (by decide) (by omega)
      have reduced : (if crc.testBit 15 then 0x11021 else 0) < 2 ^ 17 := by split <;> decide
      rw [Nat.testBit_lt_two_pow (Nat.lt_of_lt_of_le small high),
        Nat.testBit_lt_two_pow (Nat.lt_of_lt_of_le reduced wide), Bool.xor_false]
  · split <;> decide

/-- One bit of data is one letter. -/
theorem crcCells_crcStepBit (byte crc index : ℕ) :
    crcCells (crcStepBit byte crc (2 ^ index)) =
      feed ccittTaps (crcCells crc) (bit byte index) := by
  have moved : crcCells (crc * 2) = Fin.cons 0 (Fin.init (crcCells crc)) := by
    funext cell
    rw [crcCells, bit, testBit_mul_two]
    induction cell using Fin.cases <;> simp [Fin.init, crcCells, bit]
  have reduced : crcCells 0x11021 = ccittTaps := by decide
  rw [crcStepBit_eq, crcCells_xor, crcCells_xor, moved, crcCells_ite, crcCells_ite, reduced, feed_eq,
    add_assoc]
  funext cell
  change _ + (bit crc 15 * ccittTaps cell + bit byte index * ccittTaps cell) =
    _ + (bit crc 15 + bit byte index) * ccittTaps cell
  rw [add_mul]

/-- A byte of data is eight letters. -/
theorem crcStepByte_spec (small : crc < 2 ^ 16) (byte : UInt8) : crcStepByte crc byte < 2 ^ 16 ∧
    crcCells (crcStepByte crc byte) = run ccittTaps (crcCells crc) (bitsOf 8 byte.toNat) := by
  have masks : [0x80, 0x40, 0x20, 0x10, 0x08, 0x04, 0x02, 0x01] =
      (List.range 8).map fun index => 2 ^ (7 - index) := rfl
  rw [crcStepByte, masks, bitsOf, run, List.foldl_map, List.foldl_map]
  generalize List.range 8 = places
  induction places generalizing crc with
  | nil => exact ⟨small, rfl⟩
  | cons place places ih =>
    rw [List.foldl_cons, List.foldl_cons, ← crcCells_crcStepBit]
    exact ih (crcStepBit_lt small ..)

end Steps

/-- The checksum is what the bits of the message leave in the register. -/
theorem crcCalByBit_spec (bytes : List UInt8) : crcCalByBit bytes < 2 ^ 16 ∧
    crcCells (crcCalByBit bytes) = run ccittTaps 0 (transmitted bytes) := by
  induction bytes using List.reverseRecOn with
  | nil =>
    exact ⟨by decide, crcCells_zero⟩
  | append_singleton bytes byte ih =>
    obtain ⟨small, cells⟩ := ih
    have step := crcStepByte_spec small byte
    have last : crcCalByBit (bytes ++ [byte]) = crcStepByte (crcCalByBit bytes) byte :=
      List.foldl_append
    have word : transmitted (bytes ++ [byte]) = transmitted bytes ++ bitsOf 8 byte.toNat := by
      simp [transmitted]
    rw [last, word, run_append, ← cells]
    exact step

section Tables

variable {crc : ℕ}

/-- A table holds what a block of data makes of an empty register. -/
def Tabulates (width : ℕ) (table : List ℕ) : Prop :=
  ∀ block < 2 ^ width, table.getD block 0 < 2 ^ 16 ∧
    crcCells (table.getD block 0) = run ccittTaps 0 (bitsOf width block)

/-- A block of data at once: what is shifted out selects the entry together with the data. -/
theorem crcCells_lookup {width : ℕ} {table : List ℕ} (tabulates : Tabulates width table)
    (inside : width ≤ 16) (small : crc < 2 ^ 16) {block : ℕ} (short : block < 2 ^ width) :
    (crc * 2 ^ width % 2 ^ 16 ^^^ table.getD (crc / 2 ^ (16 - width) ^^^ block) 0) % 2 ^ 16 < 2 ^ 16 ∧
      crcCells ((crc * 2 ^ width % 2 ^ 16 ^^^
        table.getD (crc / 2 ^ (16 - width) ^^^ block) 0) % 2 ^ 16) =
          run ccittTaps (crcCells crc) (bitsOf width block) := by
  have out : crc / 2 ^ (16 - width) < 2 ^ width := by
    rw [Nat.div_lt_iff_lt_mul (Nat.two_pow_pos _), ← Nat.pow_add, Nat.add_sub_cancel' inside]
    exact small
  obtain ⟨entry, cells⟩ := tabulates _ (Nat.xor_lt_two_pow out short)
  have low : crc * 2 ^ width % 2 ^ 16 < 2 ^ 16 := Nat.mod_lt _ (Nat.two_pow_pos _)
  have leaves : leaving width (crcCells crc) = bitsOf width (crc / 2 ^ (16 - width)) := by
    rw [leaving, bitsOf]
    apply List.map_congr_left
    intro index among
    have before : index < width := List.mem_range.mp among
    have place : (15 - index) % 16 = width - 1 - index + (16 - width) := by omega
    simp [crcCells, bit, Nat.testBit_div_two_pow, place]
  have stays : crcCells (crc * 2 ^ width % 2 ^ 16) = raised width (crcCells crc) := by
    funext cell
    have place : (cell.val - width) % 16 = cell.val - width := Nat.mod_eq_of_lt (by omega)
    have bound : cell.val < 16 := cell.isLt
    rw [crcCells, bit, Nat.testBit_mod_two_pow, Nat.testBit_mul_two_pow, raised]
    by_cases up : width ≤ cell.val <;> simp [up, bound, place, crcCells, bit]
  have size := bitsOf_length width block
  have looked : run ccittTaps (crcCells crc) (bitsOf width block) = _ := run_block (by omega)
  refine ⟨Nat.mod_lt _ (Nat.two_pow_pos _), ?_⟩
  rw [Nat.mod_eq_of_lt (Nat.xor_lt_two_pow low entry), crcCells_xor, cells, bitsOf_xor, stays, looked,
    size, leaves, add_comm]

/-- The tables are those of the algorithm that goes bit by bit. -/
theorem tabulates_crcTa8 : Tabulates 8 crcTa8 := by
  have entries : ∀ block < 2 ^ 8, crcTa8.getD block 0 = crcStepByte 0 (UInt8.ofNat block) := by
    decide +kernel
  intro block short
  have step := crcStepByte_spec (by decide : 0 < 2 ^ 16) (UInt8.ofNat block)
  rwa [UInt8.toNat_ofNat_of_lt' short, crcCells_zero, ← entries block short] at step

theorem tabulates_crcTa4 : Tabulates 4 crcTa4 := by
  have entries : ∀ block < 2 ^ 4, crcTa4.getD block 0 = crcTa8.getD block 0 := by decide
  intro block short
  have zeros : bitsOf 8 block = List.replicate 4 0 ++ bitsOf 4 block := by
    rw [bitsOf_add 4 4, Nat.div_eq_of_lt short, Nat.mod_eq_of_lt short]
    rfl
  have entry := tabulates_crcTa8 block (Nat.lt_of_lt_of_le short (by decide))
  rwa [zeros, run_append, run_replicate_zero, shift_iterate_zero, ← entries block short] at entry

/-- A byte through the table of bytes. -/
theorem crcTableByte_eq (small : crc < 2 ^ 16) (byte : UInt8) :
    crcTableByte crc byte = crcStepByte crc byte := by
  obtain ⟨below, cells⟩ := crcStepByte_spec small byte
  obtain ⟨inside, looked⟩ := crcCells_lookup tabulates_crcTa8 (by decide) small byte.toNat_lt
  exact crcCells_injective inside below (looked.trans cells.symm)

/-- Half a byte through the table of halves. -/
theorem crcTableHalf_spec (small : crc < 2 ^ 16) (half : ℕ) (short : half < 2 ^ 4) :
    crcTableHalf crc half < 2 ^ 16 ∧
      crcCells (crcTableHalf crc half) = run ccittTaps (crcCells crc) (bitsOf 4 half) := by
  have high : crc / 4096 % 2 ^ 8 = crc / 2 ^ (16 - 4) := Nat.mod_eq_of_lt (by omega)
  rw [crcTableHalf, high]
  exact crcCells_lookup tabulates_crcTa4 (by decide) small short

theorem crcTableHalf_eq (small : crc < 2 ^ 16) (byte : UInt8) :
    crcTableHalf (crcTableHalf crc (byte.toNat / 16)) (byte.toNat &&& 0x0f) =
      crcStepByte crc byte := by
  have size := byte.toNat_lt
  have low : byte.toNat &&& 0x0f = byte.toNat % 2 ^ 4 := Nat.and_two_pow_sub_one_eq_mod _ 4
  obtain ⟨below, cells⟩ := crcStepByte_spec small byte
  obtain ⟨between, first⟩ := crcTableHalf_spec small (byte.toNat / 16) (by omega)
  obtain ⟨inside, second⟩ := crcTableHalf_spec between (byte.toNat % 2 ^ 4) (by omega)
  rw [low]
  apply crcCells_injective inside below
  rw [second, first, ← run_append, cells, bitsOf_add 4 4]
  rfl

/-- The three algorithms agree on every message. -/
theorem crcCalByBit_eq (bytes : List UInt8) :
    crcCalByByte bytes = crcCalByBit bytes ∧ crcCalByHalfbyte bytes = crcCalByBit bytes := by
  induction bytes using List.reverseRecOn with
  | nil => exact ⟨rfl, rfl⟩
  | append_singleton bytes byte ih =>
    obtain ⟨byByte, byHalf⟩ := ih
    have small := (crcCalByBit_spec bytes).1
    rw [crcCalByBit, List.foldl_concat, crcCalByByte, List.foldl_concat, crcCalByHalfbyte,
      List.foldl_concat]
    constructor
    · rw [← crcCalByByte, byByte]
      exact crcTableByte_eq small byte
    · rw [← crcCalByHalfbyte, byHalf]
      exact crcTableHalf_eq small byte

end Tables

section Messages

/-- `crc16_ccitt` cuts nothing off. -/
theorem crc16Ccitt_eq (bytes : List UInt8) : crc16Ccitt bytes = crcCalByBit bytes :=
  Nat.mod_eq_of_lt (crcCalByBit_spec bytes).1

/-- The two bytes of a checksum, most significant byte first. -/
def crcBytes (crc : ℕ) : UInt8 × UInt8 := (UInt8.ofNat (crc / 2 ^ 8), UInt8.ofNat crc)

/-- The checksum of one message is taken for another one exactly when both have the same. -/
theorem pctCheckCrc_crcBytes (stored bytes : List UInt8) :
    pctCheckCrc (crcBytes (crc16Ccitt stored)) bytes = .ok ↔
      crc16Ccitt bytes = crc16Ccitt stored := by
  have small : crc16Ccitt stored < 2 ^ 16 := Nat.mod_lt _ (Nat.two_pow_pos _)
  have read : ((crcBytes (crc16Ccitt stored)).1.toNat * 2 ^ 8 +
      (crcBytes (crc16Ccitt stored)).2.toNat) % 2 ^ 16 = crc16Ccitt stored := by
    rw [crcBytes, UInt8.toNat_ofNat', UInt8.toNat_ofNat']
    omega
  rw [pctCheckCrc, read]
  split <;> simp [*]

end Messages

end ShuangFa
