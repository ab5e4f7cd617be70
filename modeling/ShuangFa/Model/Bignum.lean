import Mathlib.Data.Int.Notation
import Mathlib.Data.Nat.Size

/-! # Big numbers

The limbs of an `mpi`, the lowest first, and the helpers that walk over them. A product of limbs is put
together from half words, as in a build without a double-width type. A helper whose carry or borrow
walks past the limbs it is given has no result. Memory does not run out.
-/

namespace ShuangFa

def tropicsslErrMpiBadInputData : ℤ := -0x0004

/-- The limbs of an `mpi`, `t_int` each. -/
abbrev Limbs := List UInt32

section Helpers

/-- `r0 += x; r1 += (r0 < x)`. -/
def accumulate (r : UInt32 × UInt32) (x : UInt32) : UInt32 × UInt32 :=
  (r.1 + x, r.2 + if r.1 + x < x then 1 else 0)

/-- `MULADDC_CORE`: the limb that is written, and the carry. -/
def muladdcCore (s b c d : UInt32) : UInt32 × UInt32 :=
  let b0 := (b <<< 16) >>> 16
  let b1 := b >>> 16
  let s0 := (s <<< 16) >>> 16
  let s1 := s >>> 16
  let rx := s0 * b1
  let ry := s1 * b0
  let r1 := s1 * b1 + (rx >>> 16) + (ry >>> 16)
  accumulate (accumulate (accumulate (accumulate (s0 * b0, r1) (rx <<< 16)) (ry <<< 16)) c) d

/-- The carry behind the limbs of `mpi_mul_hlp`; the first limb is written in any case. -/
def carryLoop : Limbs → UInt32 → Option Limbs
  | [], _ => none
  | d :: rest, c =>
    if d + c < c then (carryLoop rest 1).map ((d + c) :: ·) else some ((d + c) :: rest)

def mpiMulHlp (b : UInt32) : Limbs → Limbs → UInt32 → Option Limbs
  | [], d, c => carryLoop d c
  | _ :: _, [], _ => none
  | s :: others, d :: rest, c =>
    let r := muladdcCore s b c d
    (mpiMulHlp b others rest r.2).map (r.1 :: ·)

/-- The borrow behind the limbs of `mpi_sub_hlp`. -/
def borrowLoop : Limbs → UInt32 → Option Limbs
  | [], c => if c = 0 then some [] else none
  | d :: rest, c =>
    if c = 0 then some (d :: rest)
    else (borrowLoop rest (if d < c then 1 else 0)).map ((d - c) :: ·)

def mpiSubHlp : Limbs → Limbs → UInt32 → Option Limbs
  | [], d, c => borrowLoop d c
  | _ :: _, [], _ => none
  | s :: others, d :: rest, c =>
    (mpiSubHlp others rest ((if d - c < s then 1 else 0) + if d < c then 1 else 0)).map
      ((d - c - s) :: ·)

/-- The limbs up to the top one that is not zero, from there down. -/
def significant (X : Limbs) : Limbs := X.reverse.dropWhile (· = 0)

/-- The comparison of limbs from the top down, of two numbers as long as each other. -/
def cmpLoop : Limbs → Limbs → ℤ
  | x :: X, y :: Y => if y < x then 1 else if x < y then -1 else cmpLoop X Y
  | _, _ => 0

def mpiCmpAbs (X Y : Limbs) : ℤ :=
  if (significant Y).length < (significant X).length then 1
  else if (significant X).length < (significant Y).length then -1
  else cmpLoop (significant X) (significant Y)

end Helpers

section Montgomery

/-- `mpi_montg_init` of the lowest limb. -/
def mpiMontgInit (m0 : UInt32) : UInt32 :=
  let newton (x : UInt32) := x * (2 - m0 * x)
  ~~~(newton (newton (newton (m0 + (((m0 + 2) &&& 4) <<< 1))))) + 1

/-- A turn of `mpi_montmul` on the limbs from `d`, which moves on by one. -/
def montTurn (B N : Limbs) (mm u0 : UInt32) (d : Limbs) : Option Limbs := do
  let u1 := (d.headD 0 + u0 * B.headD 0) * mm
  let d ← mpiMulHlp u0 (B.take N.length) d 0
  let d ← mpiMulHlp u1 N d 0
  if N.length + 1 < d.tail.length then some (d.tail.set (N.length + 1) 0) else none

def montLoop (B N : Limbs) (mm : UInt32) : Limbs → Limbs → Option Limbs
  | [], d => some d
  | u0 :: A, d => (montTurn B N mm u0 d).bind (montLoop B N mm A)

/-- `mpi_montmul` with `T` of `size` limbs: what is left in `A`. Both branches subtract, one of them
from `T`, which then starts with the limbs that `A` had. -/
def mpiMontmul (N : Limbs) (mm : UInt32) (size : ℕ) (A B : Limbs) : Option Limbs :=
  let n := N.length
  if B = [] ∨ A.length < n + 1 then none
  else do
    let d ← montLoop B N mm (A.take n) (List.replicate size 0)
    let copied := d.take (n + 1) ++ A.drop (n + 1)
    if 0 ≤ mpiCmpAbs copied N then mpiSubHlp N copied 0
    else (mpiSubHlp (copied.take n) (A.take n ++ d) 0).map fun _ => copied

/-- `mpi_montred`. -/
def mpiMontred (N : Limbs) (mm : UInt32) (size : ℕ) (A : Limbs) : Option Limbs :=
  mpiMontmul N mm size A [1]

end Montgomery

section Limbs

/-- `mpi_grow`. -/
def mpiGrow (X : Limbs) (nblimbs : ℕ) : Limbs := X ++ List.replicate (nblimbs - X.length) 0

/-- `mpi_copy` into `X`. -/
def mpiCopy (X Y : Limbs) : Limbs :=
  let i := max (significant Y).length (min 1 Y.length)
  Y.take i ++ List.replicate (X.length - i) 0

/-- `mpi_msb`. -/
def mpiMsb (X : Limbs) : ℕ :=
  let i := max (significant X).length 1 - 1
  i * 32 + (X.getD i 0).toNat.size

end Limbs

end ShuangFa
