import ShuangFa.Model.System
import ShuangFa.Machine.Replay

/-! # The setters that persist

Each of them changes a part of `g_struZcConfigDb` and hands all of it to `pfunWriteFlash`. One does
so before its last assignment.
-/

namespace ShuangFa

open Memory Machine

/-- `ZC_StoreFeedInfo`: the flag is set when the write is done. -/
def zcStoreFeedInfo (pu8FeedId : View) (s : Sys) : Sys :=
  let db := s.zcConfigDb
  let stored := { s with zcConfigDb := { db with
    struJdInfo := { db.struJdInfo with u8Feedid := .ofView pu8FeedId 0 _ } } }.writeFlash
  { stored with zcConfigDb := { stored.zcConfigDb with
      struJdInfo := { stored.zcConfigDb.struJdInfo with u32MagicFlag := zcMagicFlag } } }

/-- `HF_ReadDataFormFlash` of the image that was written last. -/
def hfReadDataFormFlash (image db : ZcConfigDb) : ZcConfigDb :=
  if image.u32MagicFlag = zcMagicFlag then image else db

/-- A call of one of the setters. -/
inductive Setter where
  | configPara (pu8Data : View)
  | storeTokenKey (pu8Data : View)
  | storeConnectionInfo (pu8Ssid pu8Password : View)
  | storeAccessInfo (pu8ServerIp pu8ServerPort : View)
  | storeFeedInfo (pu8FeedId : View)
  | configUnBind (u32UnBindFlag : ℕ)

namespace Setter

def run (s : Sys) : Setter → Sys
  | configPara pu8Data => { s with zcConfigDb := zcConfigPara pu8Data s.zcConfigDb }.writeFlash
  | storeTokenKey pu8Data =>
    { s with zcConfigDb := zcStoreTokenKey pu8Data s.zcConfigDb }.writeFlash
  | storeConnectionInfo pu8Ssid pu8Password =>
    { s with zcConfigDb := zcStoreConnectionInfo pu8Ssid pu8Password s.zcConfigDb }.writeFlash
  | storeAccessInfo pu8ServerIp pu8ServerPort =>
    let stored := zcStoreAccessInfo (loadU32 pu8ServerIp 0) (loadU16 pu8ServerPort 0) s.zcConfigDb
    { s with zcConfigDb := stored }.writeFlash
  | storeFeedInfo pu8FeedId => zcStoreFeedInfo pu8FeedId s
  | configUnBind u32UnBindFlag =>
    { s with zcConfigDb := zcConfigUnBind u32UnBindFlag s.zcConfigDb }.writeFlash

/-- The setter that writes too early. -/
def StoresFeed : Setter → Prop
  | storeFeedInfo _ => True
  | _ => False

instance : DecidablePred StoresFeed
  | storeFeedInfo _ => isTrue trivial
  | configPara _ | storeTokenKey _ | storeConnectionInfo _ _ | storeAccessInfo _ _
  | configUnBind _ => isFalse id

end Setter

/-- The setters, one call after the other. -/
def settings : PartialMachine Sys Setter := ⟨fun s setter => some (setter.run s)⟩

end ShuangFa
