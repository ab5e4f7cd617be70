import ShuangFa.Model.ProtocolController

/-! # Messages of the module

`ZC_RecvDataFromMoudle` with the register, OTA and configuration messages; what it does not know
goes on to the cloud when there is a connection. Options are compiled out, so the payload starts
right behind the head.
-/

namespace ShuangFa

open Memory

section Moudle

variable (fw : Firmware) (env : Env)

/-- The two answers to a register message that comes too late, or the registration. -/
def registerAnswer (stored : Sys → Sys) (s : Sys) : Sys :=
  if MainState.accessNet.code ≤ s.con.u8MainState.code ∧
      s.con.u8MainState.code < MainState.disconnectCloud.code then
    pctSendNotifyMsg Code.cloudConnected s
  else if s.con.u8MainState = .disconnectCloud then pctSendNotifyMsg Code.cloudDisconnected s
  else
    let kept := stored s
    let stopped := stopHandle .register s.con.u8RegisterTimer
      { kept with con := { kept.con with u8MainState := .accessNet } }
    { stopped with con := { stopped.con with u8RegisterTimer := none } }

/-- `ZC_DealExtCode`; a register request lies behind the four bytes of the extended head. -/
def zcDealExtCode (pu8Data : View) (s : Sys) : Sys :=
  if pu8Data 0 = Code.extRegsiter then
    registerAnswer (fun s => { s with
      registerInfo := zcStoreRegisterInfo (pu8Data.shift 4) true env.u8Mac }) s
  else if pu8Data 0 = Code.extReboot then s.call .reboot
  else s

/-- `PCT_ModuleOtaFileBeginMsg`. -/
def pctModuleOtaFileBeginMsg (pu8Msg : View) (s : Sys) : Sys :=
  pctSendNotifyMsg Code.ack (otaFileBegin pu8Msg s)

/-- `PCT_ModuleOtaFileChunkMsg`; unlike the cloud's handler it checks the checksum here as well. -/
def pctModuleOtaFileChunkMsg (pstruMsg : ZcMessageHead) (pu8Msg : View) (s : Sys) : Sys :=
  let u32FileLen := subU32 (zcHtons pstruMsg.payloadlen) 4
  let u32RecvOffset := zcHtonl (loadU32 pu8Msg 0)
  if otaChunkRefused u32RecvOffset u32FileLen s then pctSendNotifyMsg Code.err s
  else if pctCheckCrc pstruMsg.totalMsgCrc (pu8Msg.read 0 (zcHtons pstruMsg.payloadlen)) = .error then
    pctSendNotifyMsg Code.err s
  else
    let updated := otaUpdate pu8Msg u32RecvOffset u32FileLen s
    if env.update = .error then pctSendNotifyMsg Code.err updated
    else pctSendNotifyMsg Code.ack (otaAdvance u32FileLen updated)

/-- `PCT_ModuleOtaFileEndMsg`. -/
def pctModuleOtaFileEndMsg (s : Sys) : Sys :=
  let finished := s.call (.updateFinish s.con.struOtaInfo.u32TotalLen)
  if env.updateFinish = .error then pctSendNotifyMsg Code.err finished
  else pctSendNotifyMsg Code.ack finished

/-- `ZC_RecvDataFromMoudle` of the `u16DataLen` bytes behind a pointer. -/
def zcRecvDataFromMoudle (pu8Data : View) (u16DataLen : ℕ) (s : Sys) : Option Sys :=
  let pstruMsg := ZcMessageHead.load pu8Data
  let pu8Payload := pu8Data.shift sizeofMessageHead
  if u16DataLen = 0 then some s
  else if pctCheckCrc pstruMsg.totalMsgCrc
      (pu8Payload.read 0 (zcHtons pstruMsg.payloadlen)) = .error then some s
  else if pstruMsg.msgCode = Code.regsiter then
    some (registerAnswer (fun s => { s with
      registerInfo := zcStoreRegisterInfo pu8Payload false env.u8Mac }) s)
  else if pstruMsg.msgCode = Code.eqBegin then
    let done := pctSendNotifyMsg Code.eqDone s
    some (if MainState.accessNet.code ≤ s.con.u8MainState.code then
      pctSendNotifyMsg Code.wifiConnected done else done)
  else if pstruMsg.msgCode = Code.zotaFileBegin then some (pctModuleOtaFileBeginMsg pu8Payload s)
  else if pstruMsg.msgCode = Code.zotaFileChunk then
    some (pctModuleOtaFileChunkMsg env pstruMsg pu8Payload s)
  else if pstruMsg.msgCode = Code.zotaFileEnd then
    some (pctSendNotifyMsg Code.zotaEnd (pctModuleOtaFileEndMsg env s))
  else if pstruMsg.msgCode = Code.rest then some (s.call .rest)
  else if pstruMsg.msgCode = Code.config then
    some { s with zcConfigDb := zcConfigPara pu8Payload s.zcConfigDb }.writeFlash
  else if pstruMsg.msgCode = Code.unbind then
    let flagged := { s with zcConfigDb := zcConfigUnBind zcMagicFlag s.zcConfigDb }.writeFlash
    some (if pu8Payload 0 ≠ 0 then flagged.call .rest else flagged)
  else if pstruMsg.msgCode = Code.ext then some (zcDealExtCode env pu8Payload s)
  else if s.con.u8MainState = .connectCloud then
    pctHandleMoudleEvent fw env pu8Data u16DataLen s
  else some (pctSendNotifyMsg Code.cloudDisconnected s)

end Moudle

end ShuangFa
