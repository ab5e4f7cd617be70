import ShuangFa.Memory.Store
import ShuangFa.Model.JdUdp

/-! # Datagrams in the receive buffer

A field of a datagram is known from its bytes. The two forms are told apart by the first four bytes,
and what is behind the heads is the parser's. A change of one byte changes the sum.
-/

namespace ShuangFa

open Memory Coding

section Fields

variable {memory other : View} {offset : ℕ}

theorem loadU32_lt (memory : View) (offset : ℕ) : loadU32 memory offset < 2 ^ 32 := by
  have first := (memory offset).toNat_lt
  have second := (memory (offset + 1)).toNat_lt
  have third := (memory (offset + 2)).toNat_lt
  have fourth := (memory (offset + 2 + 1)).toNat_lt
  simp only [loadU32, loadU16]
  omega

/-- A field depends on its four bytes. -/
theorem loadU32_congr (same : ∀ index < 4, memory (offset + index) = other (offset + index)) :
    loadU32 memory offset = loadU32 other offset := by
  have first : memory offset = other offset := same 0 (by decide)
  have second : memory (offset + 1) = other (offset + 1) := same 1 (by decide)
  have third : memory (offset + 2) = other (offset + 2) := same 2 (by decide)
  have fourth : memory (offset + 2 + 1) = other (offset + 2 + 1) := same 3 (by decide)
  rw [loadU32, loadU16, loadU16, first, second, third, fourth]
  rfl

/-- The bytes of a field show its value. -/
theorem loadU32_of_bytes {n : ℕ} (small : n < 2 ^ 32)
    (same : ∀ index < 4, memory (offset + index) = (bytesU32 n).getD index 0) :
    loadU32 memory offset = n := by
  have first : memory offset = UInt8.ofNat n := same 0 (by decide)
  have second : memory (offset + 1) = UInt8.ofNat (n / 2 ^ 8) := same 1 (by decide)
  have third : memory (offset + 2) = UInt8.ofNat (n / 2 ^ 16) := same 2 (by decide)
  have fourth : memory (offset + 2 + 1) = UInt8.ofNat (n / 2 ^ 16 / 2 ^ 8) := same 3 (by decide)
  rw [loadU32, loadU16, loadU16, first, second, third, fourth]
  simp only [UInt8.toNat_ofNat']
  omega

/-- A field with a value has the bytes of the value. -/
theorem bytes_of_loadU32 {n : ℕ} (value : loadU32 memory offset = n) (index : ℕ) (inside : index < 4) :
    memory (offset + index) = (bytesU32 n).getD index 0 := by
  have first := (memory offset).toNat_lt
  have second := (memory (offset + 1)).toNat_lt
  have third := (memory (offset + 2)).toNat_lt
  have fourth := (memory (offset + 3)).toNat_lt
  have sum : (memory offset).toNat + (memory (offset + 1)).toNat * 2 ^ 8 +
      ((memory (offset + 2)).toNat + (memory (offset + 3)).toNat * 2 ^ 8) * 2 ^ 16 = n := value
  apply UInt8.toNat_inj.mp
  obtain rfl | rfl | rfl | rfl : index = 0 ∨ index = 1 ∨ index = 2 ∨ index = 3 := by omega
  · show (memory offset).toNat = (UInt8.ofNat n).toNat
    rw [UInt8.toNat_ofNat']
    omega
  · show (memory (offset + 1)).toNat = (UInt8.ofNat (n / 2 ^ 8)).toNat
    rw [UInt8.toNat_ofNat']
    omega
  · show (memory (offset + 2)).toNat = (UInt8.ofNat (n / 2 ^ 16)).toNat
    rw [UInt8.toNat_ofNat']
    omega
  · show (memory (offset + 3)).toNat = (UInt8.ofNat (n / 2 ^ 16 / 2 ^ 8)).toNat
    rw [UInt8.toNat_ofNat']
    omega

/-- The magic of the form behind a digit is three zeros. -/
theorem asciiMagic_iff (memory : View) : loadU32 memory 0 / 2 ^ 8 = 0x303030 ↔
    memory 1 = 48 ∧ memory 2 = 48 ∧ memory 3 = 48 := by
  have first := (memory 0).toNat_lt
  have second := (memory 1).toNat_lt
  have third := (memory 2).toNat_lt
  have fourth := (memory 3).toNat_lt
  have value : loadU32 memory 0 = (memory 0).toNat + (memory 1).toNat * 2 ^ 8 +
      ((memory 2).toNat + (memory 3).toNat * 2 ^ 8) * 2 ^ 16 := rfl
  rw [← UInt8.toNat_inj, ← UInt8.toNat_inj, ← UInt8.toNat_inj, value,
    show (48 : UInt8).toNat = 48 from rfl]
  omega

end Fields

section Sums

theorem foldl_add (bytes : List UInt8) (start : UInt8) :
    bytes.foldl (· + ·) start = start + byteSum bytes := by
  induction bytes generalizing start with
  | nil => exact (UInt8.add_zero start).symm
  | cons byte bytes ih =>
    rw [byteSum, List.foldl_cons, List.foldl_cons, ih, ih, UInt8.zero_add, UInt8.add_assoc]

@[simp] theorem byteSum_cons (byte : UInt8) (bytes : List UInt8) :
    byteSum (byte :: bytes) = byte + byteSum bytes := by
  rw [byteSum, List.foldl_cons, foldl_add, UInt8.zero_add]

/-- A sum that stays the same where one byte is replaced shows the byte that was there. -/
theorem byteSum_set {bytes : List UInt8} {index : ℕ} {byte : UInt8} (inside : index < bytes.length)
    (same : byteSum (bytes.set index byte) = byteSum bytes) : bytes[index] = byte := by
  induction bytes generalizing index with
  | nil => exact absurd inside (Nat.not_lt_zero _)
  | cons head bytes ih =>
    cases index with
    | zero =>
      rw [List.set_cons_zero, byteSum_cons, byteSum_cons] at same
      exact (UInt8.add_left_inj _).mp same.symm
    | succ index =>
      rw [List.set_cons_succ, byteSum_cons, byteSum_cons] at same
      exact ih (Nat.lt_of_succ_lt_succ inside) ((UInt8.add_right_inj _).mp same)

end Sums

section Forms

/-- A common header. -/
def commonHeader (sum : UInt8) (len : ℕ) : List UInt8 :=
  bytesU32 0x55AA ++ bytesU32 len ++ bytesU32 0 ++ [sum]

theorem commonHeader_length (sum : UInt8) (len : ℕ) :
    (commonHeader sum len).length = sizeofCommonHeader := rfl

/-- A digit and three zeros. -/
def AsciiForm (pBuf : View) : Prop := pBuf 1 = 48 ∧ pBuf 2 = 48 ∧ pBuf 3 = 48

/-- The magic of the common header, with the length that has been received. -/
def BinaryForm (pBuf : View) (length : ℕ) : Prop :=
  loadU32 pBuf 0 = 0x55AA ∧ length % 2 ^ 32 = addU32 (loadU32 pBuf 4) sizeofCommonHeader

/-- The sum in the common header is that of the bytes behind it. -/
def SumMatches (pBuf : View) : Prop :=
  pBuf 12 = byteSum (pBuf.read sizeofCommonHeader (loadU32 pBuf 4))

variable (parse : View → Option CJson) {pBuf : View} {length : ℕ}

/-- The bytes of a common header show its magic and its length. -/
theorem loadU32_commonHeader {sum : UInt8} {len : ℕ} (small : len < 2 ^ 32)
    (header : ∀ index < 8, pBuf index = (commonHeader sum len).getD index 0) :
    loadU32 pBuf 0 = 0x55AA ∧ loadU32 pBuf 4 = len := by
  constructor
  · apply loadU32_of_bytes (by decide)
    intro index inside
    rw [Nat.zero_add, header index (by omega)]
    simp only [commonHeader, List.append_assoc]
    rw [List.getD_append _ _ _ _ inside]
  · apply loadU32_of_bytes small
    intro index inside
    rw [header (4 + index) (by omega)]
    simp only [commonHeader, List.append_assoc]
    rw [List.getD_append_right _ _ _ _ (show 4 ≤ 4 + index by omega), bytesU32_length,
      Nat.add_sub_cancel_left, List.getD_append _ _ _ _ inside]

theorem BinaryForm.not_asciiForm (binary : BinaryForm pBuf length) : ¬ AsciiForm pBuf := by
  intro form
  have zeros := (asciiMagic_iff pBuf).mpr form
  rw [binary.1] at zeros
  exact absurd zeros (by decide)

theorem packetAnalyse_asciiForm (form : AsciiForm pBuf) : packetAnalyse parse pBuf length =
    (parse (pBuf.shift 4)).map fun pRet => (subU32 (loadU32 pBuf 0 % 2 ^ 8) 48, pRet) :=
  if_pos ((asciiMagic_iff pBuf).mpr form)

/-- The digit in front of the zeros is the type. -/
theorem packetAnalyse_digit {digit : UInt8} (first : pBuf 0 = digit) (form : AsciiForm pBuf) :
    packetAnalyse parse pBuf length =
      (parse (pBuf.shift 4)).map fun pRet => (subU32 digit.toNat 48, pRet) := by
  have magic : loadU32 pBuf 0 % 2 ^ 8 = digit.toNat := by
    have bound := digit.toNat_lt
    rw [loadU32, loadU16, first]
    omega
  rw [packetAnalyse_asciiForm parse form, magic]

theorem packetAnalyse_formless (ascii : ¬ AsciiForm pBuf) (binary : ¬ BinaryForm pBuf length) :
    packetAnalyse parse pBuf length = none := by
  rw [packetAnalyse, if_neg (mt (asciiMagic_iff pBuf).mp ascii), if_pos]
  rw [BinaryForm, not_and_or] at binary
  exact binary

theorem packetAnalyse_binaryForm (binary : BinaryForm pBuf length) (sum : SumMatches pBuf) :
    packetAnalyse parse pBuf length =
      (parse (pBuf.shift (sizeofCommonHeader + sizeofCmdHeader))).map fun pRet =>
        (loadU32 pBuf sizeofCommonHeader, pRet) := by
  rw [packetAnalyse, if_neg (mt (asciiMagic_iff pBuf).mp binary.not_asciiForm), if_neg, if_neg]
  · exact not_not.mpr sum
  · rw [not_or, not_not, not_not]
    exact binary

theorem packetAnalyse_wrongSum (binary : BinaryForm pBuf length) (sum : ¬ SumMatches pBuf) :
    packetAnalyse parse pBuf length = none := by
  rw [packetAnalyse, if_neg (mt (asciiMagic_iff pBuf).mp binary.not_asciiForm), if_neg]
  · exact if_pos sum
  · rw [not_or, not_not, not_not]
    exact binary

end Forms

end ShuangFa
