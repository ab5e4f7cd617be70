import ShuangFa.Memory.FixedBuffer

/-! # Message heads, codes and checksums

Multi-byte fields lie in memory least significant byte first, and `zcHtons` swaps the two bytes of
a field that travels in network order. A head is read from a memory as the source casts a pointer:
the eight or four bytes behind the pointer, whatever they are. The checksum is the bit-serial one
that `crc16_ccitt` selects.
-/

namespace ShuangFa

open Memory

/-- `ZC_RET_OK` and `ZC_RET_ERROR`. -/
inductive Ret where
  | ok
  | error
deriving DecidableEq, Repr

theorem Ret.ne_error {ret : Ret} : ret ≠ .error ↔ ret = .ok := by
  cases ret <;> decide

def msgBufferMaxLen : ℕ := 424
def msgBuildBufferMaxLen : ℕ := 424
def msgQueueMaxLen : ℕ := 2
def hfMaxSocketLen : ℕ := 500
def zcHsMsgLen : ℕ := 32
def zcHsDeviceIdLen : ℕ := 16
def zcHsSessionKeyLen : ℕ := 16
def zcModuleKeyLen : ℕ := 112
def zcDomainLen : ℕ := 8
def zcEqVersionLen : ℕ := 4
def zcCloudKeyMaxLen : ℕ := 36
def zcOtaMaxChunkLen : ℕ := 384
def zcMagicFlag : ℕ := 0x04083207
def zcMagicLen : ℕ := 4
def zcMaxUartbufLen : ℕ := 1000
def zcVersion : UInt8 := 1
def sizeofSecHead : ℕ := 4
def sizeofMessageHead : ℕ := 8

namespace Code

def eqBegin : UInt8 := 0
def eqDone : UInt8 := 1
def wifiConnected : UInt8 := 2
def wifiDisconnected : UInt8 := 3
def cloudConnected : UInt8 := 4
def cloudDisconnected : UInt8 := 5
def config : UInt8 := 6
def regsiter : UInt8 := 7
def rest : UInt8 := 8
def handshake1 : UInt8 := 9
def handshake2 : UInt8 := 10
def handshake3 : UInt8 := 11
def handshake4 : UInt8 := 12
def heartbeat : UInt8 := 13
def empty : UInt8 := 14
def ack : UInt8 := 15
def err : UInt8 := 16
def zotaBegin : UInt8 := 22
def zotaFileBegin : UInt8 := 23
def zotaFileChunk : UInt8 := 24
def zotaFileEnd : UInt8 := 25
def zotaEnd : UInt8 := 26
def bcInfo : UInt8 := 27
def tokenSet : UInt8 := 32
def accessPointRsp : UInt8 := 33
def resetNetwork : UInt8 := 34
def unbind : UInt8 := 36
def ext : UInt8 := 63
def eventBase : UInt8 := 64
def extRegsiter : UInt8 := 0
def extReboot : UInt8 := 1

end Code

/-- The algorithms of `ZC_SecHead.u8SecType`. -/
def zcSecAlgNone : UInt8 := 0
def zcSecAlgRsa : UInt8 := 1
def zcSecAlgAes : UInt8 := 2

/-- `ZC_HTONS` on a little-endian machine. -/
def zcHtons (n : ℕ) : ℕ := (n % 2 ^ 16 * 2 ^ 8 + n % 2 ^ 16 / 2 ^ 8) % 2 ^ 16

/-- `ZC_HTONL` on a little-endian machine. -/
def zcHtonl (n : ℕ) : ℕ :=
  n / 2 ^ 24 % 2 ^ 8 + n / 2 ^ 16 % 2 ^ 8 * 2 ^ 8 + n / 2 ^ 8 % 2 ^ 8 * 2 ^ 16 + n % 2 ^ 8 * 2 ^ 24

/-- A `u16` as it lies in memory. -/
def loadU16 (memory : View) (offset : ℕ) : ℕ :=
  (memory offset).toNat + (memory (offset + 1)).toNat * 2 ^ 8

/-- A `u32` as it lies in memory. -/
def loadU32 (memory : View) (offset : ℕ) : ℕ :=
  loadU16 memory offset + loadU16 memory (offset + 2) * 2 ^ 16

/-- The bytes of a `u16` in memory. -/
def bytesU16 (n : ℕ) : List UInt8 := [UInt8.ofNat n, UInt8.ofNat (n / 2 ^ 8)]

/-- The bytes of a `u32` in memory. -/
def bytesU32 (n : ℕ) : List UInt8 := bytesU16 n ++ bytesU16 (n / 2 ^ 16)

@[simp] theorem bytesU16_length (n : ℕ) : (bytesU16 n).length = 2 := rfl

@[simp] theorem bytesU32_length (n : ℕ) : (bytesU32 n).length = 4 := rfl

/-- The security head in front of every frame. -/
structure ZcSecHead where
  u16TotalMsg : ℕ
  u8SecType : UInt8
  u8Resver : UInt8
deriving DecidableEq, Repr

/-- The head a pointer to a frame is cast to. -/
def ZcSecHead.load (memory : View) : ZcSecHead :=
  ⟨loadU16 memory 0, memory 2, memory 3⟩

def ZcSecHead.bytes (head : ZcSecHead) : List UInt8 :=
  bytesU16 head.u16TotalMsg ++ [head.u8SecType, head.u8Resver]

/-- The head of a decrypted message. -/
structure ZcMessageHead where
  version : UInt8
  msgId : UInt8
  msgCode : UInt8
  optNum : UInt8
  payloadlen : ℕ
  totalMsgCrc : UInt8 × UInt8
deriving DecidableEq, Repr

/-- The head a pointer to a message is cast to. -/
def ZcMessageHead.load (memory : View) : ZcMessageHead :=
  ⟨memory 0, memory 1, memory 2, memory 3, loadU16 memory 4, memory 6, memory 7⟩

def ZcMessageHead.bytes (head : ZcMessageHead) : List UInt8 :=
  [head.version, head.msgId, head.msgCode, head.optNum] ++ bytesU16 head.payloadlen ++
    [head.totalMsgCrc.1, head.totalMsgCrc.2]

/-- One bit of `crc_cal_by_bit`: shift, reduce, add the data bit under the mask. -/
def crcStepBit (byte : ℕ) (crc mask : ℕ) : ℕ :=
  let shifted := crc * 2
  let reduced := if shifted &&& 0x10000 ≠ 0 then shifted ^^^ 0x11021 else shifted
  if byte &&& mask ≠ 0 then reduced ^^^ 0x1021 else reduced

/-- One byte, most significant bit first. -/
def crcStepByte (crc : ℕ) (byte : UInt8) : ℕ :=
  [0x80, 0x40, 0x20, 0x10, 0x08, 0x04, 0x02, 0x01].foldl (crcStepBit byte.toNat) crc

def crcCalByBit (bytes : List UInt8) : ℕ := bytes.foldl crcStepByte 0

def crc16Ccitt (bytes : List UInt8) : ℕ := crcCalByBit bytes % 2 ^ 16

/-- `PCT_CheckCrc` on the bytes the pointer and the length cover. -/
def pctCheckCrc (crc : UInt8 × UInt8) (bytes : List UInt8) : Ret :=
  if crc16Ccitt bytes = (crc.1.toNat * 2 ^ 8 + crc.2.toNat) % 2 ^ 16 then .ok else .error

/-- One `rand()` of `ZC_Rand` becomes four letters. -/
def zcRandWord (u32Rand : ℕ) : List UInt8 :=
  [UInt8.ofNat (u32Rand % 2 ^ 8 % 26 + 65), UInt8.ofNat (u32Rand / 2 ^ 8 % 2 ^ 8 % 26 + 65),
    UInt8.ofNat (u32Rand / 2 ^ 16 % 2 ^ 8 % 26 + 65),
    UInt8.ofNat (u32Rand / 2 ^ 24 % 2 ^ 8 % 26 + 65)]

/-- `ZC_Rand`: eight results of `rand()` fill the 32 bytes. -/
def zcRand (rand : ℕ → ℕ) : FixedBuffer zcHsMsgLen :=
  ⟨zcRandWord (rand 0) ++ zcRandWord (rand 1) ++ zcRandWord (rand 2) ++ zcRandWord (rand 3) ++
    zcRandWord (rand 4) ++ zcRandWord (rand 5) ++ zcRandWord (rand 6) ++ zcRandWord (rand 7), rfl⟩

section Heads

variable (memory : View)

theorem zcHtons_lt (n : ℕ) : zcHtons n < 2 ^ 16 := Nat.mod_lt _ (by decide)

/-- The two bytes of a field change places. -/
theorem zcHtons_split {low high : ℕ} (lowByte : low < 2 ^ 8) (highByte : high < 2 ^ 8) :
    zcHtons (low + high * 2 ^ 8) = low * 2 ^ 8 + high := by
  have small : (low + high * 2 ^ 8) % 2 ^ 16 = low + high * 2 ^ 8 := Nat.mod_eq_of_lt (by omega)
  have upper : (low + high * 2 ^ 8) / 2 ^ 8 = high := by omega
  rw [zcHtons, small, upper]
  omega

/-- A field of four bytes in network order reads most significant byte first. -/
theorem zcHtonl_loadU32 (offset : ℕ) : zcHtonl (loadU32 memory offset) =
    (memory offset).toNat * 2 ^ 24 + (memory (offset + 1)).toNat * 2 ^ 16 +
      (memory (offset + 2)).toNat * 2 ^ 8 + (memory (offset + 3)).toNat := by
  have first := (memory offset).toNat_lt
  have second := (memory (offset + 1)).toNat_lt
  have third := (memory (offset + 2)).toNat_lt
  have fourth := (memory (offset + 3)).toNat_lt
  simp only [zcHtonl, loadU32, loadU16, Nat.add_assoc, Nat.reduceAdd]
  omega

/-- Swapping twice restores the field. -/
theorem zcHtons_zcHtons (n : ℕ) (small : n < 2 ^ 16) : zcHtons (zcHtons n) = n := by
  have low : n % 2 ^ 8 < 2 ^ 8 := Nat.mod_lt _ (by decide)
  have high : n / 2 ^ 8 < 2 ^ 8 := by omega
  have whole : n = n % 2 ^ 8 + n / 2 ^ 8 * 2 ^ 8 := by omega
  have swapped : zcHtons n = n / 2 ^ 8 + n % 2 ^ 8 * 2 ^ 8 := by
    conv_lhs => rw [whole, zcHtons_split low high]
    exact Nat.add_comm _ _
  rw [swapped, zcHtons_split high low]
  omega

/-- A frame head depends on nothing but its four bytes. -/
theorem ZcSecHead.load_congr {memory other : View}
    (agrees : ∀ index < sizeofSecHead, memory index = other index) :
    ZcSecHead.load memory = ZcSecHead.load other := by
  simp only [load, loadU16, agrees _ (show 0 < sizeofSecHead by decide),
    agrees _ (show 0 + 1 < sizeofSecHead by decide), agrees _ (show 2 < sizeofSecHead by decide),
    agrees _ (show 3 < sizeofSecHead by decide)]

end Heads

end ShuangFa
