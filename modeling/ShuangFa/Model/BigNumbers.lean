import Mathlib.Algebra.Ring.Int.Units
import ShuangFa.Model.Bignum

/-! # Big numbers with a sign

The sums, differences and products of the numbers of `bignum.c`, and the numbers as big-endian bytes.
`none` is any failure.
-/

namespace ShuangFa

/-- An `mpi`; the sign is 1 or -1. -/
structure Mpi where
  s : ℤˣ
  p : Limbs

section Signed

/-- The carry behind the limbs of `mpi_add_abs`. The pointer moves on only where the number grows, so
a carry out of the limb it is at is added to this limb again, which is zero then. -/
def addCarry : Limbs → UInt32 → Limbs
  | [], c => if c = 0 then [] else [c]
  | limb :: rest, c =>
    if c = 0 then limb :: rest
    else if limb + c < c then
      match rest with
      | [] => [limb + c, 1]
      | _ :: _ => (limb + c + 1) :: rest
    else (limb + c) :: rest

def addLoop : Limbs → Limbs → UInt32 → Option Limbs
  | [], p, c => some (addCarry p c)
  | _ :: _, [], _ => none
  | o :: others, limb :: rest, c =>
    (addLoop others rest ((if limb + c < c then 1 else 0) + if limb + c + o < o then 1 else 0)).map
      ((limb + c + o) :: ·)

/-- `mpi_add_abs` into `X`, which is neither `A` nor `B`. -/
def mpiAddAbs (X A B : Limbs) : Option Limbs :=
  let j := (significant B).length
  addLoop (B.take j) (mpiGrow (mpiCopy X A) j) 0

/-- `mpi_sub_abs` into `X`, which is neither `A` nor `B`. -/
def mpiSubAbs (X A B : Limbs) : Option Limbs :=
  if mpiCmpAbs A B < 0 then none
  else mpiSubHlp (B.take (significant B).length) (mpiCopy X A) 0

def mpiAddMpi (X A B : Mpi) : Option Mpi :=
  if (A.s : ℤ) * B.s < 0 then
    if 0 ≤ mpiCmpAbs A.p B.p then (mpiSubAbs X.p A.p B.p).map (⟨A.s, ·⟩)
    else (mpiSubAbs X.p B.p A.p).map (⟨-A.s, ·⟩)
  else (mpiAddAbs X.p A.p B.p).map (⟨A.s, ·⟩)

def mpiSubMpi (X A B : Mpi) : Option Mpi :=
  if (A.s : ℤ) * B.s > 0 then
    if 0 ≤ mpiCmpAbs A.p B.p then (mpiSubAbs X.p A.p B.p).map (⟨A.s, ·⟩)
    else (mpiSubAbs X.p B.p A.p).map (⟨-A.s, ·⟩)
  else (mpiAddAbs X.p A.p B.p).map (⟨A.s, ·⟩)

/-- The rows of `mpi_mul_mpi`, from the top limb of `B` down. -/
def mulRows (A : Limbs) : Limbs → Limbs → Option Limbs
  | [], X => some X
  | _ :: _, [] => none
  | b :: B, limb :: X => (mulRows A B X).bind fun X => mpiMulHlp b A (limb :: X) 0

/-- `mpi_mul_mpi` into `X`, which is neither `A` nor `B`. -/
def mpiMulMpi (X A B : Mpi) : Option Mpi :=
  let i := (significant A.p).length
  let j := (significant B.p).length
  (mulRows (A.p.take i) (B.p.take j)
    (List.replicate (max (max X.p.length (i + j)) 1) 0)).map (⟨A.s * B.s, ·⟩)

end Signed

section Binary

/-- `mpi_read_binary` into a number that has no limbs yet. -/
def mpiReadBinary (buf : List UInt8) : Limbs :=
  let bytes := (buf.dropWhile (· = 0)).reverse
  (List.range (max 1 ((bytes.length + 3) / 4))).map fun place =>
    (bytes.getD (4 * place) 0).toUInt32 ||| (bytes.getD (4 * place + 1) 0).toUInt32 <<< 8 |||
      (bytes.getD (4 * place + 2) 0).toUInt32 <<< 16 |||
      (bytes.getD (4 * place + 3) 0).toUInt32 <<< 24

/-- `mpi_size`. -/
def mpiSize (X : Limbs) : ℕ := (mpiMsb X + 7) / 8

/-- `mpi_write_binary`. -/
def mpiWriteBinary (X : Limbs) (buflen : ℕ) : Option (List UInt8) :=
  if buflen < mpiSize X then none
  else some ((List.range buflen).map fun j =>
    if j < mpiSize X then UInt8.ofNat ((X.getD (j / 4) 0).toNat >>> (j % 4 * 8)) else 0).reverse

end Binary

end ShuangFa
