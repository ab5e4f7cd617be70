import ShuangFa.Model.Protocol

/-! # The stored configuration

`g_struZcConfigDb` is what the firmware keeps in flash, `g_struRegisterInfo` the identity it learns
from its flash image or from a register message. A structure that arrives as a message is read at
the offsets of its fields.
-/

namespace ShuangFa

open Memory

def zcSsidMaxLen : ℕ := 32
def zcPasswordMaxLen : ℕ := 64
def zcCloudAddrMaxLen : ℕ := 20
def zcFeedidMaxLen : ℕ := 64
def zcServerMacLen : ℕ := 12
def zcCloudPort : ℕ := 9100

structure ZcSwitchInfo where
  u32TraceSwitch : ℕ
  u32SecSwitch : ℕ
  u32WifiConfig : ℕ
  u32ServerAddrConfig : ℕ
  u8Ssid : FixedBuffer zcSsidMaxLen
  u8Password : FixedBuffer zcPasswordMaxLen
  u32ServerIp : ℕ
  u16ServerPort : ℕ
deriving DecidableEq

structure ZcCloudInfo where
  u8CloudKey : FixedBuffer zcCloudKeyMaxLen
  u8CloudAddr : FixedBuffer zcCloudAddrMaxLen
  u8TokenKey : FixedBuffer zcHsSessionKeyLen
deriving DecidableEq

structure ZcRegisterInfo where
  u8PrivateKey : FixedBuffer zcModuleKeyLen
  u8DeviciId : FixedBuffer (zcHsDeviceIdLen + zcDomainLen)
  u8EqVersion : FixedBuffer zcEqVersionLen
deriving DecidableEq

structure ZcConnectionInfo where
  u32MagicFlag : ℕ
  u8Ssid : FixedBuffer zcSsidMaxLen
  u8Password : FixedBuffer zcPasswordMaxLen
deriving DecidableEq

structure ZcJdInfo where
  u32MagicFlag : ℕ
  u8Feedid : FixedBuffer zcFeedidMaxLen
deriving DecidableEq

structure ZcDeviceInfo where
  u32UnBindFlag : ℕ
deriving DecidableEq

structure ZcConfigDb where
  u32MagicFlag : ℕ
  struConnection : ZcConnectionInfo
  struCloudInfo : ZcCloudInfo
  struSwitchInfo : ZcSwitchInfo
  struJdInfo : ZcJdInfo
  struDeviceInfo : ZcDeviceInfo
deriving DecidableEq

/-- The zero-initialised global. -/
def ZcConfigDb.zero : ZcConfigDb where
  u32MagicFlag := 0
  struConnection := ⟨0, .zeros _, .zeros _⟩
  struCloudInfo := ⟨.zeros _, .zeros _, .zeros _⟩
  struSwitchInfo := ⟨0, 0, 0, 0, .zeros _, .zeros _, 0, 0⟩
  struJdInfo := ⟨0, .zeros _⟩
  struDeviceInfo := ⟨0⟩

def ZcRegisterInfo.zero : ZcRegisterInfo := ⟨.zeros _, .zeros _, .zeros _⟩

def gU8DefaultCloudKey : FixedBuffer zcCloudKeyMaxLen :=
  ⟨[0xb8, 0xd9, 0x35, 0xe4, 0xd6, 0xd8, 0xf2, 0xd6, 0xc8, 0x28, 0x2f, 0x9f, 0xd9, 0x62, 0x48, 0xc7,
    0x96, 0xa9, 0xed, 0x5b, 0x5a, 0x1a, 0x95, 0x59, 0xd2, 0x3c, 0xbb, 0x5f, 0x1b, 0x03, 0x07, 0x3f,
    0x01, 0x00, 0x01, 0x00], rfl⟩

def gU8DefaultTokenKey : FixedBuffer zcHsSessionKeyLen :=
  ⟨[0x01, 0x02, 0x03, 0x04, 0x05, 0x05, 0x05, 0x05, 0x05, 0x05, 0x05, 0x05, 0x05, 0x05, 0x05, 0x05],
    rfl⟩

/-- `"device.ablecloud.cn"` and its terminator. -/
def defaultCloudAddr : FixedBuffer zcCloudAddrMaxLen :=
  ⟨[0x64, 0x65, 0x76, 0x69, 0x63, 0x65, 0x2e, 0x61, 0x62, 0x6c, 0x65, 0x63, 0x6c, 0x6f, 0x75, 0x64,
    0x2e, 0x63, 0x6e, 0x00], rfl⟩

/-- `ZC_ConfigInitPara`. -/
def zcConfigInitPara (db : ZcConfigDb) : ZcConfigDb :=
  { db with
    u32MagicFlag := zcMagicFlag
    struSwitchInfo := { db.struSwitchInfo with
      u32SecSwitch := 1, u32TraceSwitch := 0, u32WifiConfig := 0, u32ServerAddrConfig := 0
      u16ServerPort := zcCloudPort }
    struCloudInfo := ⟨gU8DefaultCloudKey, defaultCloudAddr, gU8DefaultTokenKey⟩
    struJdInfo := ⟨0xFFFFFFFF, .zeros _⟩
    struConnection := { db.struConnection with u32MagicFlag := 0xFFFFFFFF } }

/-- `ZC_ConfigPara` on the `ZC_Configuration` behind a pointer, without the write to flash. -/
def zcConfigPara (pu8Data : View) (db : ZcConfigDb) : ZcConfigDb :=
  { db with
    struSwitchInfo :=
      { u32TraceSwitch := zcHtonl (loadU32 pu8Data 0)
        u32SecSwitch := zcHtonl (loadU32 pu8Data 4)
        u32WifiConfig := zcHtonl (loadU32 pu8Data 8)
        u32ServerAddrConfig := zcHtonl (loadU32 pu8Data 12)
        u8Ssid := .ofView pu8Data 16 _
        u8Password := .ofView pu8Data 48 _
        u32ServerIp := zcHtonl (loadU32 pu8Data 112)
        u16ServerPort := zcHtons (loadU16 pu8Data 172) }
    struCloudInfo := { db.struCloudInfo with
      u8CloudAddr := .ofView pu8Data 116 _
      u8CloudKey := .ofView pu8Data 136 _ } }

/-- `ZC_StoreRegisterInfo` on the `ZC_RegisterReq` behind a pointer. With the flag set the device
id is made of the MAC address `pfunGetMac` gives. -/
def zcStoreRegisterInfo (pu8Data : View) (u8RegisterFlag : Bool)
    (u8Mac : FixedBuffer zcServerMacLen) : ZcRegisterInfo where
  u8PrivateKey := .ofView pu8Data 4 _
  u8DeviciId :=
    ⟨(if u8RegisterFlag then List.replicate (zcHsDeviceIdLen - zcServerMacLen) 0x30 ++ u8Mac.bytes
      else pu8Data.read 124 zcHsDeviceIdLen) ++ pu8Data.read 116 zcDomainLen, by
        cases u8RegisterFlag <;>
          simp [u8Mac.size_eq, zcHsDeviceIdLen, zcServerMacLen, zcDomainLen]⟩
  u8EqVersion := .ofView pu8Data 0 _

/-- `ZC_StoreTokenKey`, without the write to flash. -/
def zcStoreTokenKey (pu8Data : View) (db : ZcConfigDb) : ZcConfigDb :=
  { db with struCloudInfo := { db.struCloudInfo with u8TokenKey := .ofView pu8Data 0 _ } }

/-- `ZC_StoreConnectionInfo`, without the write to flash. -/
def zcStoreConnectionInfo (pu8Ssid pu8Password : View) (db : ZcConfigDb) : ZcConfigDb :=
  { db with struConnection := ⟨zcMagicFlag, .ofView pu8Ssid 0 _, .ofView pu8Password 0 _⟩ }

/-- `ZC_StoreAccessInfo`, without the write to flash. -/
def zcStoreAccessInfo (u32ServerIp u16ServerPort : ℕ) (db : ZcConfigDb) : ZcConfigDb :=
  { db with
    struConnection := { db.struConnection with u32MagicFlag := zcMagicFlag }
    struSwitchInfo := { db.struSwitchInfo with
      u32ServerAddrConfig := 1, u32ServerIp := u32ServerIp, u16ServerPort := u16ServerPort } }

/-- `ZC_ConfigUnBind`, without the write to flash. -/
def zcConfigUnBind (u32UnBindFlag : ℕ) (db : ZcConfigDb) : ZcConfigDb :=
  { db with struDeviceInfo := ⟨u32UnBindFlag⟩ }

end ShuangFa
