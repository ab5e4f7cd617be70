import Mathlib.Data.List.GetD
import ShuangFa.Cipher.Rijndael
import ShuangFa.Model.AesCore

/-! # What the tables of the block cipher hold

A word is a column, its highest byte on top. Every table is checked in arithmetic on numbers: one
table of each direction against the products of the substituted bytes, and the other three as its
rotations.
-/

namespace ShuangFa

open Memory Cipher.Rijndael

section Columns

/-- The bytes of a word. -/
def columnOf (word : UInt32) : Column :=
  ![(word >>> 24).toUInt8, (word >>> 16).toUInt8, (word >>> 8).toUInt8, word.toUInt8]

theorem columnOf_toNat (word : UInt32) (row : Fin 4) :
    (columnOf word row).toNat = word.toNat / 2 ^ (24 - 8 * row.val) % 256 := by
  fin_cases row <;> simp [columnOf, Nat.shiftRight_eq_div_pow]

theorem columnOf_xor (first second : UInt32) :
    columnOf (first ^^^ second) = addColumn (columnOf first) (columnOf second) := by
  funext row
  fin_cases row <;> simp [columnOf, addColumn, UInt32.shiftRight_xor]

/-- A word put together from its bytes. -/
theorem columnOf_ofNat (first second third fourth : UInt8) :
    columnOf (.ofNat (first.toNat * 2 ^ 24 + second.toNat * 2 ^ 16 + third.toNat * 2 ^ 8 +
      fourth.toNat)) = ![first, second, third, fourth] := by
  have bounds := And.intro (And.intro first.toNat_lt second.toNat_lt)
    (And.intro third.toNat_lt fourth.toNat_lt)
  funext row
  apply UInt8.toNat_inj.mp
  rw [columnOf_toNat, UInt32.toNat_ofNat_of_lt' (by simp only [UInt32.size]; omega)]
  fin_cases row
  · change _ / 2 ^ 24 % 256 = first.toNat
    omega
  · change _ / 2 ^ 16 % 256 = second.toNat
    omega
  · change _ / 2 ^ 8 % 256 = third.toNat
    omega
  · change _ / 2 ^ 0 % 256 = fourth.toNat
    omega

/-- The bytes that index a table. -/
theorem columnOf_index (word : UInt32) :
    word >>> 24 = (columnOf word 0).toUInt32 ∧ (word >>> 16) &&& 0xff = (columnOf word 1).toUInt32 ∧
      (word >>> 8) &&& 0xff = (columnOf word 2).toUInt32 ∧
      word &&& 0xff = (columnOf word 3).toUInt32 := by
  have bound := word.toNat_lt
  have mask (value : ℕ) : value &&& 255 = value % 256 := Nat.and_two_pow_sub_one_eq_mod value 8
  refine ⟨?_, ?_, ?_, ?_⟩ <;> apply UInt32.toNat_inj.mp <;>
    simp [columnOf, Nat.shiftRight_eq_div_pow, mask]
  omega

/-- A byte shifted into its place. -/
theorem columnOf_shiftLeft (byte : UInt8) (places : Fin 4) :
    columnOf (byte.toUInt32 <<< .ofNat (8 * places)) =
      fun row : Fin 4 => if row.val + places = 3 then byte else 0 := by
  have bound := byte.toNat_lt
  funext row
  apply UInt8.toNat_inj.mp
  rw [columnOf_toNat]
  fin_cases places <;> fin_cases row <;> simp [Nat.shiftLeft_eq] <;> omega

/-- `GETU32` reads a column. -/
theorem columnOf_getU32 (pt : View) (offset : ℕ) :
    columnOf (getU32 pt offset) = fun row : Fin 4 => pt (offset + row.val) := by
  have first : columnOf ((pt offset).toUInt32 <<< 24) = _ := columnOf_shiftLeft _ 3
  have second : columnOf ((pt (offset + 1)).toUInt32 <<< 16) = _ := columnOf_shiftLeft _ 2
  have third : columnOf ((pt (offset + 2)).toUInt32 <<< 8) = _ := columnOf_shiftLeft _ 1
  have fourth : columnOf ((pt (offset + 3)).toUInt32 <<< 0) = _ := columnOf_shiftLeft _ 0
  rw [UInt32.shiftLeft_zero] at fourth
  rw [getU32, columnOf_xor, columnOf_xor, columnOf_xor, first, second, third, fourth]
  funext row
  fin_cases row <;> simp [addColumn]

end Columns

section Tables

/-- The substitution that `Te4` and `Td4` repeat in each byte of an entry. -/
def sbox : Equiv.Perm UInt8 where
  toFun byte := .ofNat (te4.getD byte.toNat 0)
  invFun byte := .ofNat (td4.getD byte.toNat 0)
  left_inv byte := by
    have pairs : ∀ index < 256, td4.getD (te4.getD index 0 % 256) 0 % 256 = index := by decide +kernel
    apply UInt8.toNat_inj.mp
    rw [UInt8.toNat_ofNat', UInt8.toNat_ofNat']
    exact pairs byte.toNat byte.toNat_lt
  right_inv byte := by
    have pairs : ∀ index < 256, te4.getD (td4.getD index 0 % 256) 0 % 256 = index := by decide +kernel
    apply UInt8.toNat_inj.mp
    rw [UInt8.toNat_ofNat', UInt8.toNat_ofNat']
    exact pairs byte.toNat byte.toNat_lt

/-- `Te4` and `Td4` are the substitution of the cipher. -/
theorem sbox_isByteSubstitution : IsByteSubstitution sbox := by
  have entries : ∀ index : Fin 256,
      sbox (.ofFin index) = affine (unaffine (sbox (.ofFin index))) ∧
        if UInt8.ofFin index = 0 then unaffine (sbox (.ofFin index)) = 0
        else times index (unaffine (sbox (.ofFin index))) = 1 := by decide +kernel
  intro byte
  exact ⟨unaffine (sbox byte), entries byte.toFin⟩

/-- What `sbox` and its inverse are, as numbers. -/
theorem sbox_toNat (byte : UInt8) :
    te4.getD byte.toNat 0 % 256 = (sbox byte).toNat ∧
      td4.getD byte.toNat 0 % 256 = (sbox.symm byte).toNat :=
  ⟨(UInt8.toNat_ofNat' ..).symm, (UInt8.toNat_ofNat' ..).symm⟩

/-- `xtime` in arithmetic on numbers. -/
def xtimeNat (byte : ℕ) : ℕ := byte * 2 % 256 ^^^ byte / 128 * 27

theorem xtime_toNat (byte : UInt8) : (xtime byte).toNat = xtimeNat byte.toNat := by
  have bound := byte.toNat_lt
  have top : byte.toBitVec.msb = decide (128 ≤ byte.toNat) := BitVec.msb_eq_decide _
  have shifted : (byte <<< 1).toNat = byte.toNat * 2 % 256 := by
    rw [UInt8.toNat_shiftLeft]
    simp [Nat.shiftLeft_eq]
  rw [xtime, UInt8.toNat_xor, shifted, top, xtimeNat]
  rcases Nat.lt_or_ge byte.toNat 128 with low | high
  · have none : byte.toNat / 128 = 0 := by omega
    simp [Nat.not_le.mpr low, none]
  · have one : byte.toNat / 128 = 1 := by omega
    simp [high, one]

/-- A word of four bytes, the first on top. -/
def packedEntry (bytes : Fin 4 → ℕ) : ℕ := Fin.foldl 4 (fun word row => word * 256 + bytes row) 0

theorem packedEntry_eq (bytes : Fin 4 → ℕ) : packedEntry bytes =
    bytes 0 * 2 ^ 24 + bytes 1 * 2 ^ 16 + bytes 2 * 2 ^ 8 + bytes 3 := by
  simp only [packedEntry, Fin.foldl_succ, Fin.foldl_zero, Fin.succ_zero_eq_one, Fin.isValue,
    Fin.succ_one_eq_two, Fin.reduceSucc]
  ring

/-- What mixing adds to the rows of a column from a byte in row `place`; the byte is the lowest one
of `entry`. -/
def mixEntry (place : Fin 4) (entry : ℕ) : ℕ :=
  let byte := entry % 256
  packedEntry fun row => (![xtimeNat byte, byte ^^^ xtimeNat byte, byte, byte] : Fin 4 → ℕ) (place - row)

/-- The same for the inverse of mixing. -/
def unmixEntry (place : Fin 4) (entry : ℕ) : ℕ :=
  let byte := entry % 256
  let two := xtimeNat byte
  let four := xtimeNat two
  let eight := xtimeNat four
  packedEntry fun row => (![two ^^^ (four ^^^ eight), byte ^^^ (two ^^^ eight),
    byte ^^^ (four ^^^ eight), byte ^^^ eight] : Fin 4 → ℕ) (place - row)

def teTables : Fin 4 → List ℕ := ![te0, te1, te2, te3]
def tdTables : Fin 4 → List ℕ := ![td0, td1, td2, td3]

theorem teTables_eq (place : Fin 4) : teTables place = te4.map (mixEntry place) := by
  revert place
  decide +kernel

theorem tdTables_eq (place : Fin 4) : tdTables place = td4.map (unmixEntry place) := by
  revert place
  decide +kernel

/-- The entries of the masked tables repeat one byte. -/
theorem repeated_eq : te4 = te4.map (fun entry => entry % 256 * 0x01010101) ∧
    td4 = td4.map (fun entry => entry % 256 * 0x01010101) := by
  decide +kernel

/-- A table that holds, for each byte, what its substitute adds to a mixed column from row `place`. -/
def IsMixTable (table : List ℕ) (factors : Fin 4 → ℕ) (substitute : UInt8 → UInt8) (place : Fin 4) :
    Prop :=
  ∀ byte : UInt8, columnOf (tableEntry table byte.toUInt32) =
    fun row => times (factors (place - row)) (substitute byte)

/-- A table that repeats the substitute of each byte. -/
def IsRepeated (table : List ℕ) (substitute : UInt8 → UInt8) : Prop :=
  ∀ byte : UInt8, columnOf (tableEntry table byte.toUInt32) = fun _ => substitute byte

theorem tableEntry_map (table : List ℕ) {entry : ℕ → ℕ} (zero : entry 0 = 0) (byte : UInt8) :
    tableEntry (table.map entry) byte.toUInt32 = .ofNat (entry (table.getD byte.toNat 0)) := by
  have mapped := @List.getD_map _ _ table 0 byte.toNat entry
  rw [zero] at mapped
  rw [tableEntry, UInt8.toNat_toUInt32, mapped]

/-- The entries of a packed column. -/
theorem columnOf_packedEntry (column : Column) :
    columnOf (.ofNat (packedEntry fun row => (column row).toNat)) = column := by
  rw [packedEntry_eq, columnOf_ofNat]
  funext row
  fin_cases row <;> rfl

theorem teTables_isMixTable (place : Fin 4) : IsMixTable (teTables place) mixFactors sbox place := by
  intro byte
  obtain ⟨one, two, three, _⟩ := times_factors (sbox byte)
  have zero : mixEntry place 0 = 0 := by
    revert place
    decide
  have products : (fun row => (![xtimeNat (sbox byte).toNat,
      (sbox byte).toNat ^^^ xtimeNat (sbox byte).toNat, (sbox byte).toNat, (sbox byte).toNat] :
      Fin 4 → ℕ) (place - row)) = fun row => (times (mixFactors (place - row)) (sbox byte)).toNat := by
    funext row
    obtain ⟨factor, same⟩ : ∃ factor, place - row = factor := ⟨_, rfl⟩
    rw [same]
    fin_cases factor <;> simp [mixFactors, one, two, three, xtime_toNat]
  rw [teTables_eq, tableEntry_map te4 zero, mixEntry, (sbox_toNat byte).1, products]
  exact columnOf_packedEntry _

theorem tdTables_isMixTable (place : Fin 4) :
    IsMixTable (tdTables place) unmixFactors sbox.symm place := by
  intro byte
  obtain ⟨_, _, _, nine, eleven, thirteen, fourteen⟩ := times_factors (sbox.symm byte)
  obtain ⟨value, read⟩ : ∃ value, sbox.symm byte = value := ⟨_, rfl⟩
  have zero : unmixEntry place 0 = 0 := by
    revert place
    decide
  rw [read] at nine eleven thirteen fourteen
  have products : (fun row => (![xtimeNat value.toNat ^^^ (xtimeNat (xtimeNat value.toNat) ^^^
        xtimeNat (xtimeNat (xtimeNat value.toNat))),
      value.toNat ^^^ (xtimeNat value.toNat ^^^ xtimeNat (xtimeNat (xtimeNat value.toNat))),
      value.toNat ^^^ (xtimeNat (xtimeNat value.toNat) ^^^ xtimeNat (xtimeNat (xtimeNat value.toNat))),
      value.toNat ^^^ xtimeNat (xtimeNat (xtimeNat value.toNat))] : Fin 4 → ℕ) (place - row)) =
      fun row => (times (unmixFactors (place - row)) value).toNat := by
    funext row
    obtain ⟨factor, same⟩ : ∃ factor, place - row = factor := ⟨_, rfl⟩
    rw [same]
    fin_cases factor <;> simp [unmixFactors, nine, eleven, thirteen, fourteen, xtime_toNat]
  rw [tdTables_eq, tableEntry_map td4 zero, unmixEntry, (sbox_toNat byte).2, read, products]
  exact columnOf_packedEntry _

theorem te4_isRepeated : IsRepeated te4 sbox := by
  intro byte
  have sum (value : ℕ) : value * 0x01010101 = packedEntry fun _ => value := by
    rw [packedEntry_eq]
    omega
  rw [repeated_eq.1, tableEntry_map te4 rfl, (sbox_toNat byte).1, sum]
  exact columnOf_packedEntry _

theorem td4_isRepeated : IsRepeated td4 sbox.symm := by
  intro byte
  have sum (value : ℕ) : value * 0x01010101 = packedEntry fun _ => value := by
    rw [packedEntry_eq]
    omega
  rw [repeated_eq.2, tableEntry_map td4 rfl, (sbox_toNat byte).2, sum]
  exact columnOf_packedEntry _

/-- The masks keep one byte of each entry. -/
theorem IsRepeated.columnOf_maskedWord {table : List ℕ} {substitute : UInt8 → UInt8}
    (repeats : IsRepeated table substitute) (first second third fourth : UInt8) :
    columnOf (maskedWord table first.toUInt32 second.toUInt32 third.toUInt32 fourth.toUInt32) =
      fun row => substitute ((![first, second, third, fourth] : Column) row) := by
  have masked (word mask : UInt32) (row : Fin 4) :
      columnOf (word &&& mask) row = columnOf word row &&& columnOf mask row := by
    fin_cases row <;> simp [columnOf, UInt32.shiftRight_and]
  have masks : columnOf 0xff000000 = ![0xff, 0, 0, 0] ∧ columnOf 0x00ff0000 = ![0, 0xff, 0, 0] ∧
      columnOf 0x0000ff00 = ![0, 0, 0xff, 0] ∧ columnOf 0x000000ff = ![0, 0, 0, 0xff] := by
    decide
  obtain ⟨top, upper, lower, bottom⟩ := masks
  have whole (byte : UInt8) : byte &&& 0xff = byte := UInt8.and_neg_one
  funext row
  rw [maskedWord, columnOf_xor, columnOf_xor, columnOf_xor]
  simp only [addColumn, masked, repeats _, top, upper, lower, bottom]
  fin_cases row <;> simp [whole]

end Tables

end ShuangFa
