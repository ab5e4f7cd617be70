import ShuangFa.Model.BigNumbers

/-! # Division of big numbers

`mpi_div_mpi` and `mpi_mod_mpi` with what they use: shifts, signed comparisons and the half words of
`__udiv_qrnnd_c`, as in a build without a double-width type. A loop that is left only when a test of it
fails makes less than `turns` turns, or has no result.
-/

namespace ShuangFa

def tropicsslErrMpiDivisionByZero : ℤ := -0x000C

section Shifts

/-- The bit loop of `mpi_shift_l`; `r0` is what the limb below hands up. -/
def shiftUp (t1 : UInt32) : UInt32 → Limbs → Limbs
  | _, [] => []
  | r0, d :: X => (d <<< t1 ||| r0) :: shiftUp t1 (d >>> (32 - t1)) X

def mpiShiftL (X : Limbs) (count : ℕ) : Limbs :=
  let v0 := count / 32
  let t1 := count % 32
  let i := mpiMsb X + count
  let X := if X.length * 32 < i then mpiGrow X ((i + 31) / 32) else X
  let X := if 0 < v0 then (List.replicate v0 0 ++ X).take X.length else X
  if 0 < t1 then X.take v0 ++ shiftUp (.ofNat t1) 0 (X.drop v0) else X

/-- The bit loop of `mpi_shift_r`, where each limb gets what the one above it hands down. -/
def shiftDown (v1 : UInt32) : Limbs → Limbs
  | [] => []
  | d :: X => (d >>> v1 ||| X.headD 0 <<< (32 - v1)) :: shiftDown v1 X

def mpiShiftR (X : Limbs) (count : ℕ) : Limbs :=
  let v0 := count / 32
  let v1 := count % 32
  let X := if 0 < v0 then (X.drop v0 ++ List.replicate v0 0).take X.length else X
  if 0 < v1 then shiftDown (.ofNat v1) X else X

end Shifts

section Integers

/-- `mpi_cmp_mpi`. Of two numbers of different lengths the sign of `X` alone decides, also where `Y` is
the longer one. -/
def mpiCmpMpi (X Y : Mpi) : ℤ :=
  let x := significant X.p
  let y := significant Y.p
  if x = [] ∧ y = [] then 0
  else if y.length < x.length then X.s
  else if x.length < y.length then -X.s
  else if 0 < (X.s : ℤ) ∧ (Y.s : ℤ) < 0 then 1
  else if 0 < (Y.s : ℤ) ∧ (X.s : ℤ) < 0 then -1
  else X.s * cmpLoop x y

def mpiCmpInt (X : Mpi) (z : ℤ) : ℤ :=
  mpiCmpMpi X ⟨if z < 0 then -1 else 1, [.ofNat z.natAbs]⟩

def mpiMulInt (X A : Mpi) (b : UInt32) : Option Mpi := mpiMulMpi X A ⟨1, [b]⟩

end Integers

section Digits

/-- The inner loop of `__udiv_qrnnd_c`, behind its first correction. -/
def lowerHalf (d m : UInt32) : ℕ → UInt32 → UInt32 → Option (UInt32 × UInt32)
  | 0, _, _ => none
  | turns + 1, q, r =>
    if d ≤ r ∧ r < m then lowerHalf d m turns (q - 1) (r + d) else some (q, r)

/-- A half of the quotient of `x` by `d`, and what is left with the half word `low` behind it. -/
def divideHalf (turns : ℕ) (d x low : UInt32) : Option (UInt32 × UInt32) :=
  let d0 := (d <<< 16) >>> 16
  let d1 := d >>> 16
  if d1 = 0 then none
  else do
    let q := x / d1
    let r := (x - d1 * q) <<< 16 ||| low
    let m := q * d0
    let (q, r) ← if r < m then lowerHalf d m turns (q - 1) (r + d) else some (q, r)
    some (q, r - m)

/-- The digit that is tried first, from the two limbs `x` and `below`. Where the upper half of the
quotient needs more than a half word it is not the quotient. -/
def estimateDigit (turns : ℕ) (d x below : UInt32) : Option UInt32 :=
  if d ≤ x then some (~~~0)
  else do
    let (q1, r1) ← divideHalf turns d x (below >>> 16)
    let (q0, _) ← divideHalf turns d r1 ((below <<< 16) >>> 16)
    some (q1 <<< 16 ||| q0)

/-- The test of the loop that lowers a digit: `O_T1` against `O_T2`. -/
def exceeds (Y X : Limbs) (t i : ℕ) (q : UInt32) : Option Bool := do
  let T1 : Mpi := ⟨1, [if t < 1 then 0 else Y.getD (t - 1) 0, Y.getD t 0]⟩
  let T1 ← mpiMulInt T1 T1 q
  let T2 : Mpi := ⟨1, [if i < 2 then 0 else X.getD (i - 2) 0, if i < 1 then 0 else X.getD (i - 1) 0,
    X.getD i 0]⟩
  some (0 < mpiCmpMpi T1 T2)

def lowerDigit (Y X : Limbs) (t i : ℕ) : ℕ → UInt32 → Option UInt32
  | 0, _ => none
  | turns + 1, q => do
    if ← exceeds Y X t i q then lowerDigit Y X t i turns (q - 1) else some q

/-- A turn of the main loop of `mpi_div_mpi`: what is left in `X`, and the digit. Of `O_T1` only the
number is used, so that it starts from its two limbs again. -/
def divTurn (turns : ℕ) (Y : Limbs) (t i : ℕ) (X : Mpi) : Option (Mpi × UInt32) := do
  let d ← Y[t]?
  let x ← X.p[i]?
  let q ← estimateDigit turns d x (X.p.getD (i - 1) 0)
  let q ← lowerDigit Y X.p t i turns q
  let T1 ← mpiMulInt ⟨1, [0, 0]⟩ ⟨1, Y⟩ q
  let X ← mpiSubMpi X X ⟨T1.s, mpiShiftL T1.p (32 * (i - t - 1))⟩
  if mpiCmpInt X 0 < 0 then do
    let X ← mpiAddMpi X X ⟨1, mpiShiftL (mpiCopy [0, 0] Y) (32 * (i - t - 1))⟩
    some (X, q - 1)
  else some (X, q)

/-- The turns from `i = t + count` down, with the digits they leave in `Z`. -/
def divLoop (turns : ℕ) (Y : Limbs) (t : ℕ) : ℕ → Mpi → Option (Mpi × Limbs)
  | 0, X => some (X, [])
  | count + 1, X => do
    let (X, q) ← divTurn turns Y t (t + count + 1) X
    let (X, Z) ← divLoop turns Y t count X
    some (X, Z ++ [q])

end Digits

section Division

/-- `while (mpi_cmp_mpi(X, Y) >= 0) mpi_sub_mpi(X, X, Y)`, and how often. -/
def subtractLoop (Y : Mpi) : ℕ → Mpi → Option (Mpi × UInt32)
  | 0, _ => none
  | turns + 1, X =>
    if 0 ≤ mpiCmpMpi X Y then do
      let X ← mpiSubMpi X X Y
      let (X, count) ← subtractLoop Y turns X
      some (X, count + 1)
    else some (X, 0)

/-- `mpi_div_mpi` with both `Q` and `R`; `R` may be `A` where this is not negative. -/
def mpiDivMpi (turns : ℕ) (Q R A B : Mpi) : Option (Except ℤ (Mpi × Mpi)) :=
  if mpiCmpInt B 0 = 0 then some (.error tropicsslErrMpiDivisionByZero)
  else if mpiCmpAbs A.p B.p < 0 then
    some (.ok (⟨1, List.replicate (max Q.p.length 1) 0⟩, ⟨A.s, mpiCopy R.p A.p⟩))
  else do
    let X := mpiCopy [] A.p
    let Y := mpiCopy [] B.p
    let k := if mpiMsb Y % 32 < 31 then 31 - mpiMsb Y % 32 else 0
    let X := mpiShiftL X k
    let Y := mpiShiftL Y k
    let n := X.length - 1
    let t := Y.length - 1
    let Y := mpiShiftL Y (32 * (n - t))
    let (X, top) ← subtractLoop ⟨1, Y⟩ turns ⟨1, X⟩
    let Y := mpiShiftR Y (32 * (n - t))
    let (X, digits) ← divLoop turns Y t (n - t) X
    let Z := digits ++ top :: List.replicate (A.p.length + 1 - (n - t)) 0
    let rest := mpiCopy R.p (mpiShiftR X.p k)
    some (.ok (⟨A.s * B.s, mpiCopy Q.p Z⟩, ⟨if mpiCmpInt ⟨A.s, rest⟩ 0 = 0 then 1 else A.s, rest⟩))

/-- `while (mpi_cmp_int(R, 0) < 0) mpi_add_mpi(R, R, B)`. -/
def raiseLoop (B : Mpi) : ℕ → Mpi → Option Mpi
  | 0, _ => none
  | turns + 1, R =>
    if mpiCmpInt R 0 < 0 then (mpiAddMpi R R B).bind (raiseLoop B turns) else some R

/-- `mpi_mod_mpi`, for which the quotient is not kept. -/
def mpiModMpi (turns : ℕ) (R A B : Mpi) : Option (Except ℤ Mpi) := do
  match ← mpiDivMpi turns ⟨1, []⟩ R A B with
  | .error code => some (.error code)
  | .ok (_, R) =>
    let R ← raiseLoop B turns R
    let (R, _) ← subtractLoop B turns R
    some (.ok R)

end Division

end ShuangFa
