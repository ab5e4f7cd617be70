import ShuangFa.Model.CloudEvent
import ShuangFa.Proofs.Crc

/-! # What the checksum of a message detects

The payload of a message is sent with the two bytes that `EVENT_BuildMsg` makes of it. An error of
at most sixteen consecutive bits is never taken for the payload, wherever it lies and however long
the payload is. Which of the three algorithms makes the checksum does not matter.
-/

namespace ShuangFa

open Memory Coding

/-- The payload with some of its bits flipped. -/
def flipped (payload error : List UInt8) : List UInt8 := List.zipWith (· ^^^ ·) payload error

theorem transmitted_flipped {payload error : List UInt8} (same : payload.length = error.length) :
    transmitted (flipped payload error) =
      List.zipWith (· + ·) (transmitted payload) (transmitted error) := by
  induction payload generalizing error with
  | nil => rfl
  | cons byte payload ih =>
    cases error with
    | nil => cases same
    | cons flip error =>
      have size (byte : UInt8) : (bitsOf 8 byte.toNat).length = 8 := bitsOf_length ..
      have byte_xor : bitsOf 8 (byte ^^^ flip).toNat =
          List.zipWith (· + ·) (bitsOf 8 byte.toNat) (bitsOf 8 flip.toNat) := by
        rw [UInt8.toNat_xor, bitsOf_xor]
      change bitsOf 8 (byte ^^^ flip).toNat ++ transmitted (flipped payload error) = List.zipWith _
        (bitsOf 8 byte.toNat ++ transmitted payload) (bitsOf 8 flip.toNat ++ transmitted error)
      rw [ih (Nat.succ.inj same), byte_xor, List.zipWith_append (by rw [size, size])]

theorem transmitted_length (bytes : List UInt8) : (transmitted bytes).length = 8 * bytes.length := by
  induction bytes with
  | nil => rfl
  | cons byte bytes ih =>
    change (bitsOf 8 byte.toNat ++ transmitted bytes).length = _
    rw [List.length_append, bitsOf_length, ih, List.length_cons]
    omega

/-- A byte that is not zero has a bit that is not. -/
theorem exists_bit {byte : UInt8} (nonzero : byte ≠ 0) :
    ∃ letter ∈ bitsOf 8 byte.toNat, letter ≠ 0 := by
  by_contra none
  apply nonzero
  rw [← UInt8.toNat_inj]
  apply Nat.eq_of_testBit_eq
  intro index
  rw [UInt8.toNat_zero, Nat.zero_testBit]
  rcases Nat.lt_or_ge index 8 with inside | past
  · by_contra set
    refine none ⟨bit byte.toNat index, ?_, ?_⟩
    · refine List.mem_map.mpr ⟨7 - index, List.mem_range.mpr (by omega), ?_⟩
      rw [show 8 - 1 - (7 - index) = index by omega]
    · rw [bit, if_pos (Bool.eq_true_of_not_eq_false set)]
      decide
  · have wide : 2 ^ 8 ≤ 2 ^ index := Nat.pow_le_pow_right (by decide) past
    exact Nat.testBit_lt_two_pow (Nat.lt_of_lt_of_le byte.toNat_lt wide)

/-- The payload that was sent is accepted, and with a burst of at most sixteen flipped bits it is
not. -/
theorem burst_detected (u8MsgCode u8MsgId : UInt8) (payload error : List UInt8)
    (same : payload.length = error.length) (nonzero : ∃ byte ∈ error, byte ≠ 0)
    (burst : Burst 16 (transmitted error)) :
    let crc := (ZcMessageHead.load (.ofList (eventBuildMsg u8MsgCode u8MsgId payload))).totalMsgCrc
    pctCheckCrc crc payload = .ok ∧ pctCheckCrc crc (flipped payload error) = .error := by
  intro crc
  have stored : crc = crcBytes (crc16Ccitt payload) := rfl
  rw [stored]
  refine ⟨(pctCheckCrc_crcBytes ..).mpr rfl, ?_⟩
  have unit : IsUnit (ccittTaps 0) := by
    rw [show ccittTaps 0 = 1 by decide]
    exact isUnit_one
  have sizes : (transmitted payload).length = (transmitted error).length := by
    rw [transmitted_length, transmitted_length, same]
  have letters : ∃ letter ∈ transmitted error, letter ≠ 0 := by
    obtain ⟨byte, among, flips⟩ := nonzero
    obtain ⟨letter, inside, other⟩ := exists_bit flips
    exact ⟨letter, List.mem_flatMap.mpr ⟨byte, among, inside⟩, other⟩
  have differs : crc16Ccitt (flipped payload error) ≠ crc16Ccitt payload := by
    intro equal
    rw [crc16Ccitt_eq, crc16Ccitt_eq] at equal
    have cells := congrArg crcCells equal
    rw [(crcCalByBit_spec _).2, (crcCalByBit_spec _).2, transmitted_flipped same] at cells
    exact run_detects unit sizes burst letters cells
  rw [Ne, ← pctCheckCrc_crcBytes] at differs
  cases checked : pctCheckCrc (crcBytes (crc16Ccitt payload)) (flipped payload error) with
  | ok => exact absurd checked differs
  | error => rfl

/-- Seven bits on either side of a boundary between bytes. -/
theorem burst_detected_across :
    let crc := (ZcMessageHead.load (.ofList (eventBuildMsg 64 1 [7, 1, 2, 9]))).totalMsgCrc
    pctCheckCrc crc [7, 1, 2, 9] = .ok ∧
      pctCheckCrc crc (flipped [7, 1, 2, 9] [0, 0x7F, 0xFE, 0]) = .error := by
  refine burst_detected 64 1 [7, 1, 2, 9] [0, 0x7F, 0xFE, 0] rfl ⟨0x7F, by decide, by decide⟩ ⟨8, ?_⟩
  intro index flips
  have size : (transmitted [0, 0x7F, 0xFE, 0]).length = 32 := transmitted_length _
  have inside : index < 32 := by
    by_contra past
    exact flips (List.getD_eq_default _ _ (by omega))
  have bits : ∀ index < 32, (transmitted [0, 0x7F, 0xFE, 0]).getD index 0 ≠ 0 →
      8 ≤ index ∧ index < 8 + 16 := by decide
  exact bits index inside flips

/-- The three algorithms make the same checksum of every message, and it fits two bytes. -/
theorem crc_algorithms_agree (bytes : List UInt8) :
    crcCalByByte bytes = crcCalByBit bytes ∧ crcCalByHalfbyte bytes = crcCalByBit bytes ∧
      crcCalByBit bytes < 65536 ∧ crc16Ccitt bytes = crcCalByBit bytes := by
  obtain ⟨byByte, byHalf⟩ := crcCalByBit_eq bytes
  exact ⟨byByte, byHalf, (crcCalByBit_spec bytes).1, crc16Ccitt_eq bytes⟩

end ShuangFa
