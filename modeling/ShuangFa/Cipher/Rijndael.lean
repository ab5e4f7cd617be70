import Mathlib.Algebra.Group.Fin.Basic
import Mathlib.Data.Fin.VecNotation
import Mathlib.Data.Fintype.Basic
import Mathlib.Tactic.FinCases
import Mathlib.Tactic.Ring
import ShuangFa.Cipher.KeyIterated

/-! # Rijndael on states of four columns

A column is four bytes, and a byte is a polynomial over the field of two elements, modulo
`x ^ 8 + x ^ 4 + x ^ 3 + x + 1`. The substitution of bytes is a parameter wherever its values play no
role. The columns of the matrix that mixes a column are the rotations of one polynomial, so that its
inverse is checked on the powers of `x` alone.
-/

namespace Cipher.Rijndael

section Bytes

/-- A byte times `x`. -/
def xtime (byte : UInt8) : UInt8 := byte <<< 1 ^^^ if byte.toBitVec.msb then 0x1b else 0

def timesBits : ℕ → ℕ → UInt8 → UInt8
  | 0, _, _ => 0
  | bits + 1, factor, byte =>
    (if factor % 2 = 1 then byte else 0) ^^^ timesBits bits (factor / 2) (xtime byte)

/-- A byte times the polynomial whose coefficients are the bits of `factor`. -/
def times (factor : ℕ) (byte : UInt8) : UInt8 := timesBits 8 factor byte

/-- The affine map behind the inversion in the substitution of a byte. -/
def affine (byte : UInt8) : UInt8 :=
  let rotate (places : UInt8) := byte <<< places ||| byte >>> (8 - places)
  byte ^^^ rotate 1 ^^^ rotate 2 ^^^ rotate 3 ^^^ rotate 4 ^^^ 0x63

/-- The inverse of the affine map. -/
def unaffine (byte : UInt8) : UInt8 :=
  let rotate (places : UInt8) := byte <<< places ||| byte >>> (8 - places)
  rotate 1 ^^^ rotate 3 ^^^ rotate 6 ^^^ 0x05

/-- A substitution inverts each byte but zero, and applies the affine map. -/
def IsByteSubstitution (sbox : UInt8 → UInt8) : Prop :=
  ∀ byte, ∃ inverse, sbox byte = affine inverse ∧
    if byte = 0 then inverse = 0 else times byte.toNat inverse = 1

theorem xor_cancel_left (first second : UInt8) : first ^^^ (first ^^^ second) = second := by
  rw [← UInt8.xor_assoc, UInt8.xor_self, UInt8.zero_xor]

theorem xor_left_comm (first second third : UInt8) :
    first ^^^ (second ^^^ third) = second ^^^ (first ^^^ third) := by
  ac_rfl

@[simp] theorem xtime_zero : xtime 0 = 0 := rfl

theorem xtime_xor (first second : UInt8) : xtime (first ^^^ second) = xtime first ^^^ xtime second := by
  have top : (first ^^^ second).toBitVec.msb = (first.toBitVec.msb ^^ second.toBitVec.msb) :=
    BitVec.msb_xor
  rw [xtime, xtime, xtime, UInt8.shiftLeft_xor, top]
  cases first.toBitVec.msb <;> cases second.toBitVec.msb
  · simp
  · simp [UInt8.xor_assoc]
  · simp only [Bool.xor_false, if_true, Bool.false_eq_true, if_false, UInt8.xor_zero]
    ac_rfl
  · simp only [Bool.xor_self, if_true, Bool.false_eq_true, if_false, UInt8.xor_zero]
    rw [UInt8.xor_assoc, UInt8.xor_comm (second <<< 1), xor_cancel_left]

theorem timesBits_xor (bits factor : ℕ) (first second : UInt8) :
    timesBits bits factor (first ^^^ second) =
      timesBits bits factor first ^^^ timesBits bits factor second := by
  induction bits generalizing factor first second with
  | zero => exact UInt8.xor_self.symm
  | succ bits ih =>
    rw [timesBits, timesBits, timesBits, xtime_xor, ih]
    split_ifs
    · ac_rfl
    · simp only [UInt8.zero_xor]

/-- Multiplication distributes over the addition of bytes. -/
theorem times_xor (factor : ℕ) (first second : UInt8) :
    times factor (first ^^^ second) = times factor first ^^^ times factor second :=
  timesBits_xor 8 factor first second

end Bytes

abbrev Column := Fin 4 → UInt8

/-- A state; its first index is the column. -/
abbrev State := Fin 4 → Column

def addColumn (first second : Column) : Column := fun row => first row ^^^ second row

def addKey (key state : State) : State := fun column => addColumn (key column) (state column)

theorem addKey_cancel (key state : State) : addKey key (addKey key state) = state := by
  funext column row
  exact xor_cancel_left _ _

/-- Row `r` is rotated by `r` columns. -/
def shiftRows : Equiv.Perm State where
  toFun state := fun column row => state (column + row) row
  invFun state := fun column row => state (column - row) row
  left_inv state := by
    funext column row
    exact congrArg (state · row) (sub_add_cancel column row)
  right_inv state := by
    funext column row
    exact congrArg (state · row) (add_sub_cancel_right column row)

section Columns

/-- A column times the matrix whose first row is `factors` and whose rows rotate it. -/
def combine (factors : Fin 4 → ℕ) (column : Column) : Column := fun row =>
  times (factors (0 - row)) (column 0) ^^^ times (factors (1 - row)) (column 1) ^^^
    times (factors (2 - row)) (column 2) ^^^ times (factors (3 - row)) (column 3)

def mixFactors : Fin 4 → ℕ := ![2, 3, 1, 1]
def unmixFactors : Fin 4 → ℕ := ![14, 11, 13, 9]

theorem combine_addColumn (factors : Fin 4 → ℕ) (first second : Column) :
    combine factors (addColumn first second) =
      addColumn (combine factors first) (combine factors second) := by
  funext row
  simp only [combine, addColumn, times_xor]
  ac_rfl

/-- The products of a byte with the factors, as sums of its products with powers of `x`. -/
theorem times_factors (byte : UInt8) :
    times 1 byte = byte ∧ times 2 byte = xtime byte ∧ times 3 byte = byte ^^^ xtime byte ∧
      times 9 byte = byte ^^^ xtime (xtime (xtime byte)) ∧
      times 11 byte = byte ^^^ (xtime byte ^^^ xtime (xtime (xtime byte))) ∧
      times 13 byte = byte ^^^ (xtime (xtime byte) ^^^ xtime (xtime (xtime byte))) ∧
      times 14 byte = xtime byte ^^^ (xtime (xtime byte) ^^^ xtime (xtime (xtime byte))) := by
  simp [times, timesBits]

/-- A matrix of rotated rows is inverse to another one if the product of their first rows is one. -/
theorem combine_combine {outer inner : Fin 4 → ℕ}
    (inverse : ∀ places byte, times (outer 0) (times (inner places) byte) ^^^
      times (outer 1) (times (inner (places - 1)) byte) ^^^
      times (outer 2) (times (inner (places - 2)) byte) ^^^
      times (outer 3) (times (inner (places - 3)) byte) = if places = 0 then byte else 0)
    (column : Column) : combine outer (combine inner column) = column := by
  funext row
  have first := inverse (0 - row) (column 0)
  have second := inverse (1 - row) (column 1)
  have third := inverse (2 - row) (column 2)
  have fourth := inverse (3 - row) (column 3)
  have sum : combine outer (combine inner column) row =
      (if 0 - row = 0 then column 0 else 0) ^^^ (if 1 - row = 0 then column 1 else 0) ^^^
        (if 2 - row = 0 then column 2 else 0) ^^^ (if 3 - row = 0 then column 3 else 0) := by
    rw [← first, ← second, ← third, ← fourth]
    simp only [combine, times_xor]
    fin_cases row <;>
      simp only [Fin.zero_eta, Fin.mk_one, Fin.reduceFinMk, Fin.reduceSub, Fin.isValue] <;> ac_rfl
  rw [sum]
  fin_cases row <;> simp

theorem unmix_mix (column : Column) : combine unmixFactors (combine mixFactors column) = column := by
  apply combine_combine
  intro places byte
  have factor (byte : UInt8) := times_factors byte
  fin_cases places <;>
    simp [mixFactors, unmixFactors, factor, xtime_xor, UInt8.xor_assoc, UInt8.xor_comm,
      xor_left_comm]

theorem mix_unmix (column : Column) : combine mixFactors (combine unmixFactors column) = column := by
  apply combine_combine
  intro places byte
  have factor (byte : UInt8) := times_factors byte
  fin_cases places <;>
    simp [mixFactors, unmixFactors, factor, xtime_xor, UInt8.xor_assoc, UInt8.xor_comm,
      xor_left_comm]

def mixColumn : Equiv.Perm Column where
  toFun := combine mixFactors
  invFun := combine unmixFactors
  left_inv := unmix_mix
  right_inv := mix_unmix

end Columns

section Rounds

variable (sbox : Equiv.Perm UInt8)

def subBytes : Equiv.Perm State :=
  Equiv.piCongrRight fun _ => Equiv.piCongrRight fun _ => sbox

def mixColumns : Equiv.Perm State := Equiv.piCongrRight fun _ => mixColumn

def layers : RoundLayers State := ⟨subBytes sbox, shiftRows, mixColumns⟩

theorem mix_addKey (key state : State) :
    mixColumns (addKey key state) = addKey (mixColumns key) (mixColumns state) := by
  funext column
  exact combine_addColumn mixFactors (key column) (state column)

theorem unmix_addKey (key state : State) :
    mixColumns.symm (addKey key state) = addKey (mixColumns.symm key) (mixColumns.symm state) := by
  funext column
  exact combine_addColumn unmixFactors (key column) (state column)

/-- The cipher with unmixed keys in reverse order, and inverse layers, decrypts. -/
theorem inverse_run (keys : RoundKeys State) (state : State) :
    (layers sbox).inverse.run addKey (keys.inverse mixColumns.symm)
      ((layers sbox).run addKey keys state) = state :=
  RoundLayers.inverse_run addKey_cancel (fun _ => rfl) unmix_addKey keys state

/-- The other order. -/
theorem run_inverse (keys : RoundKeys State) (state : State) :
    (layers sbox).run addKey keys
      ((layers sbox).inverse.run addKey (keys.inverse mixColumns.symm) state) = state :=
  RoundLayers.run_inverse addKey_cancel (fun _ => rfl) mix_addKey mixColumns.apply_symm_apply
    keys state

end Rounds

section KeyExpansion

variable (sbox : UInt8 → UInt8)

/-- The column that is added to the first one of each group of `nk` columns. -/
def roundConstant (index : ℕ) : Column := ![xtime^[index - 1] 1, 0, 0, 0]

def rotWord (word : Column) : Column := fun row => word (row + 1)

def subWord (word : Column) : Column := fun row => sbox (word row)

/-- What the column in front of place `i` adds. -/
def scheduleStep (nk i : ℕ) (previous : Column) : Column :=
  if i % nk = 0 then addColumn (subWord sbox (rotWord previous)) (roundConstant (i / nk))
  else if 6 < nk ∧ i % nk = 4 then subWord sbox previous
  else previous

/-- Column `i` of the expansion of a key of `nk` columns. -/
def scheduleWord (nk : ℕ) (key : ℕ → Column) (i : ℕ) : Column :=
  if i < nk ∨ nk = 0 then key i
  else addColumn (scheduleWord nk key (i - nk))
    (scheduleStep sbox nk i (scheduleWord nk key (i - 1)))
termination_by i
decreasing_by all_goals omega

/-- The full rounds and the last round under a key of `nk` columns. -/
def rounds (nk : ℕ) : ℕ := nk + 6

/-- The keys of `count` rounds in a sequence of columns. -/
def roundKeys (count : ℕ) (words : ℕ → Column) : RoundKeys State :=
  let key (round : ℕ) : State := fun column => words (4 * round + column)
  ⟨key 0, (List.range (count - 1)).map fun round => key (round + 1), key count⟩

end KeyExpansion

/-- The cipher under a key of `nk` columns. -/
def encrypt (sbox : Equiv.Perm UInt8) (nk : ℕ) (key : ℕ → Column) : State → State :=
  (layers sbox).run addKey (roundKeys (rounds nk) (scheduleWord sbox nk key))

end Cipher.Rijndael
