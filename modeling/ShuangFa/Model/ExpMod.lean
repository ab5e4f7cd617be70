import ShuangFa.Model.Division
import ShuangFa.Powers.SlidingWindow

/-! # Modular exponentiation

`mpi_exp_mod` of RSA, with the numbers reduced by `mpi_mod_mpi` before Montgomery's product is used.
-/

namespace ShuangFa

def windowSize (msb : ℕ) : ℕ :=
  if 671 < msb then 6 else if 239 < msb then 5 else if 79 < msb then 4 else if 23 < msb then 3 else 1

/-- The bits of an exponent as the loop of `mpi_exp_mod` takes them, from the top. -/
def exponentBits (E : Limbs) : List Bool :=
  E.reverse.flatMap fun limb =>
    (List.range 32).reverse.map fun bufsize => limb.toNat.testBit bufsize

/-- The square of the radix: what is cached, or computed in the first call. -/
def squareRadix (turns : ℕ) (N : Limbs) : Option Limbs → Option (Except ℤ Limbs)
  | some square => some (.ok square)
  | none =>
    let radix : Mpi := ⟨1, mpiShiftL [1] (N.length * 2 * 32)⟩
    (mpiModMpi turns radix radix ⟨1, N⟩).map (Except.map Mpi.p)

/-- What goes into `O_W[1]`; a code that `mpi_mod_mpi` returns here is not looked at. -/
def reduceBase (turns : ℕ) (W A N : Limbs) : Option Limbs :=
  if 0 ≤ mpiCmpMpi ⟨1, A⟩ ⟨1, N⟩ then
    (mpiModMpi turns ⟨1, W⟩ ⟨1, A⟩ ⟨1, N⟩).map fun
      | .ok R => R.p
      | .error _ => W
  else some (mpiCopy W A)

/-- `mpi_exp_mod` of numbers that are not negative: the error of an even modulus, or what is left in `X`
and in the cache. `RR` is the cached square of the radix, if there is one. -/
def mpiExpMod (turns : ℕ) (X A E N : Limbs) (RR : Option Limbs) :
    Option (Except ℤ (Limbs × Limbs)) :=
  if N = [] ∨ E = [] then none
  else if N.headD 0 &&& 1 = 0 then some (.error tropicsslErrMpiBadInputData)
  else do
    let n := N.length
    let mm := mpiMontgInit (N.headD 0)
    let zeros := List.replicate (n + 1) 0
    match ← squareRadix turns N RR with
    | .error code => some (.error code)
    | .ok square =>
      let base ← mpiMontmul N mm (2 * (n + 1)) (← reduceBase turns zeros A N) square
      let start ← mpiMontred N mm (2 * (n + 1)) (mpiCopy (mpiGrow X (n + 1)) square)
      let power ← Powers.power (mpiMontmul N mm (2 * (n + 1))) (mpiCopy zeros)
        (windowSize (mpiMsb E)) start base (exponentBits E)
      let result ← mpiMontred N mm (2 * (n + 1)) power
      some (.ok (result, square))

end ShuangFa
