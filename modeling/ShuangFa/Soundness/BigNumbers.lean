import ShuangFa.Proofs.BinaryNumbers

/-! # The arithmetic of big numbers

The signed sums and products are those of the integers, but for one carry of the sums that is lost; a
number of bytes is written back as it was read.
-/

namespace ShuangFa

section Signed

/-- A number with its sign. -/
def Mpi.value (X : Mpi) : ℤ := X.s * limbsValue X.p

theorem Mpi.signs (A B : Mpi) : A.s = B.s ∧ ¬(A.s : ℤ) * B.s < 0 ∨ A.s = -B.s ∧ (A.s : ℤ) * B.s < 0 := by
  rcases Int.units_eq_one_or A.s with a | a <;> rcases Int.units_eq_one_or B.s with b | b <;>
    rw [a, b] <;> decide

/-- Two numbers of the same sign are added limb by limb, where a carry may roll over; of different
signs, the smaller is taken from the larger. -/
theorem mpiAddMpi_iff (X A B : Mpi) : ∃ sum, mpiAddMpi X A B = some sum ∧
    (sum.value = A.value + B.value ↔ ¬(A.s = B.s ∧ RollsOver X.p A.p B.p)) := by
  rcases Mpi.signs A B with ⟨same, product⟩ | ⟨other, product⟩
  · obtain ⟨sum, added, exact⟩ := mpiAddAbs_iff X.p A.p B.p
    refine ⟨⟨A.s, sum⟩, by rw [mpiAddMpi, if_neg product, added]; rfl, ?_⟩
    have value : (⟨A.s, sum⟩ : Mpi).value = A.value + B.value ↔
        limbsValue sum = limbsValue A.p + limbsValue B.p := by
      rw [Mpi.value, Mpi.value, Mpi.value, ← same, ← mul_add, Units.mul_right_inj]
      norm_cast
    rw [value, exact]
    simp only [same, true_and]
  · have different : A.s ≠ B.s := by
      intro same
      rw [same] at product
      exact absurd product (not_lt.mpr (mul_self_nonneg _))
    have holds : ¬(A.s = B.s ∧ RollsOver X.p A.p B.p) := fun both => different both.1
    have opposite : (A.s : ℤ) = -B.s := by rw [other, Units.val_neg]
    rw [mpiAddMpi, if_pos product]
    split_ifs with least
    · rw [mpiCmpAbs_value] at least
      obtain ⟨rest, subtracted, _, value⟩ := mpiSubAbs_value X.p least
      refine ⟨⟨A.s, rest⟩, by rw [subtracted]; rfl, iff_of_true ?_ holds⟩
      rw [Mpi.value, Mpi.value, Mpi.value, ← value, opposite]
      push_cast
      ring
    · rw [mpiCmpAbs_value, Nat.not_le] at least
      obtain ⟨rest, subtracted, _, value⟩ := mpiSubAbs_value X.p least.le
      refine ⟨⟨-A.s, rest⟩, by rw [subtracted]; rfl, iff_of_true ?_ holds⟩
      rw [Mpi.value, Mpi.value, Mpi.value, ← value, Units.val_neg, opposite]
      push_cast
      ring

/-- A product is the product of the integers, with no bound on the numbers. -/
theorem mpiMulMpi_product (X A B : Mpi) : ∃ product, mpiMulMpi X A B = some product ∧
    product.value = A.value * B.value := by
  obtain ⟨product, multiplied, value⟩ := mpiMulMpi_limbs X A B
  refine ⟨_, multiplied, ?_⟩
  rw [Mpi.value, Mpi.value, Mpi.value, value]
  push_cast
  ring

end Signed

/-- A number that is read from bytes is written back as these bytes. -/
theorem mpiWriteBinary_mpiReadBinary (buf : List UInt8) :
    mpiWriteBinary (mpiReadBinary buf) buf.length = some buf := by
  have small : limbsValue (mpiReadBinary buf) < 256 ^ buf.length := by
    rw [mpiReadBinary_value]
    exact bytesValue_lt buf
  obtain ⟨bytes, written, value⟩ := mpiWriteBinary_value small
  rw [written, bytesValue_inj (mpiWriteBinary_length written) (value.trans (mpiReadBinary_value buf))]

end ShuangFa
