import ShuangFa.Memory.Store
import ShuangFa.Model.Configuration

/-! # The userbin area

The configuration, the sub-domain and the arguments of the JD cloud are written to the area by
four files, each at the offsets it knows of. The configuration is written as it lies in memory, and
the sub-domain with the bytes that lie behind the variable, as eight bytes.
-/

namespace ShuangFa

open Memory

def subDomainFlagOffset : ℕ := 300
def subDomainOffset : ℕ := 304
def jdConfigOffset : ℕ := 512
def sizeofU32 : ℕ := 4
def sizeofZcConfigDb : ℕ := 368
def sizeofJdNVargs : ℕ := 196

/-- What lies in front of the feed id in a `ZC_ConfigDB`; `u16Pad` is the last field of the switch
information. -/
def ZcConfigDb.head (db : ZcConfigDb) (u16Pad : ℕ) : List UInt8 :=
  bytesU32 db.u32MagicFlag ++
    (bytesU32 db.struConnection.u32MagicFlag ++ db.struConnection.u8Ssid.bytes ++
      db.struConnection.u8Password.bytes) ++
    (db.struCloudInfo.u8CloudKey.bytes ++ db.struCloudInfo.u8CloudAddr.bytes ++
      db.struCloudInfo.u8TokenKey.bytes) ++
    (bytesU32 db.struSwitchInfo.u32TraceSwitch ++ bytesU32 db.struSwitchInfo.u32SecSwitch ++
      bytesU32 db.struSwitchInfo.u32WifiConfig ++ bytesU32 db.struSwitchInfo.u32ServerAddrConfig ++
      db.struSwitchInfo.u8Ssid.bytes ++ db.struSwitchInfo.u8Password.bytes ++
      bytesU32 db.struSwitchInfo.u32ServerIp ++ bytesU16 db.struSwitchInfo.u16ServerPort ++
      bytesU16 u16Pad) ++
    bytesU32 db.struJdInfo.u32MagicFlag

/-- A `ZC_ConfigDB` as it lies in memory. -/
def ZcConfigDb.image (db : ZcConfigDb) (u16Pad : ℕ) : List UInt8 :=
  db.head u16Pad ++ (db.struJdInfo.u8Feedid.bytes ++ bytesU32 db.struDeviceInfo.u32UnBindFlag)

/-- `hffile_userbin_write` of some bytes. -/
def hffileUserbinWrite (offset : ℕ) (data : List UInt8) (area : View) : View :=
  area.store offset data

/-- `hffile_userbin_read` of `len` bytes. -/
def hffileUserbinRead (offset len : ℕ) (area : View) : List UInt8 := area.read offset len

/-- `ZC_ResetAccessInfo`, without the write to flash. -/
def zcResetAccessInfo (db : ZcConfigDb) : ZcConfigDb :=
  { db with
    struConnection := { db.struConnection with u32MagicFlag := zcMagicFlag }
    struSwitchInfo := { db.struSwitchInfo with u32ServerAddrConfig := 0 } }

/-- The value `UartProcess` gives `SUB_DOMAIN_ID` for a packet. -/
def subDomainId (data : View) : ℕ := (data 3).toNat + (data 4).toNat * 256

/-- A write to the area: by `HF_WriteDataToFlash` and by `ZC_ResetAccessInfo` of the configuration
as it is, by `UartProcess` of a packet with code `0xF2`, and by the JD service. -/
inductive UserbinWrite where
  | writeDataToFlash (db : ZcConfigDb) (u16Pad : ℕ)
  | resetAccessInfo (db : ZcConfigDb) (u16Pad : ℕ)
  | uartProcess (data : View) (behind : FixedBuffer 6)
  | jdArgs (args : FixedBuffer sizeofJdNVargs)

def UserbinWrite.run (area : View) : UserbinWrite → View
  | writeDataToFlash db u16Pad => hffileUserbinWrite 0 (db.image u16Pad) area
  | resetAccessInfo db u16Pad => hffileUserbinWrite 0 ((zcResetAccessInfo db).image u16Pad) area
  | uartProcess data behind =>
    hffileUserbinWrite subDomainFlagOffset (bytesU32 zcMagicFlag)
      (hffileUserbinWrite subDomainOffset (bytesU16 (subDomainId data) ++ behind.bytes) area)
  | jdArgs args => hffileUserbinWrite jdConfigOffset args.bytes area

section Layout

variable (db : ZcConfigDb) (u16Pad : ℕ)

/-- The feed id begins where the flag of the sub-domain is kept. -/
theorem ZcConfigDb.head_length : (db.head u16Pad).length = subDomainFlagOffset := by
  simp only [head, List.length_append, bytesU32_length, bytesU16_length, FixedBuffer.size_eq]
  rfl

theorem ZcConfigDb.image_length : (db.image u16Pad).length = sizeofZcConfigDb := by
  rw [image, List.length_append, head_length]
  simp only [List.length_append, bytesU32_length, FixedBuffer.size_eq]
  rfl

/-- The sub-domain is kept in the first twelve bytes of the feed id. -/
theorem ZcConfigDb.image_parts : db.image u16Pad =
    db.head u16Pad ++ db.struJdInfo.u8Feedid.bytes.take 12 ++
      (db.struJdInfo.u8Feedid.bytes.drop 12 ++ bytesU32 db.struDeviceInfo.u32UnBindFlag) := by
  rw [image, List.append_assoc, ← List.append_assoc (List.take _ _), List.take_append_drop]

end Layout

end ShuangFa
