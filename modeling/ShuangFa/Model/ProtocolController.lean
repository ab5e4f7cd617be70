import ShuangFa.Model.CloudEvent

/-! # The protocol controller

`PCT_Run` dispatches on the main state; the handshake, the handlers of cloud messages and the
timeout actions follow the source line by line. A handler reads its message in the buffer the queue
gave it, through pointers that may run past the end of that buffer. Dereferencing the null
`pu8SendMoudleBuffer` and writing outside the send buffer have no outcome.
-/

namespace ShuangFa

open Memory

/-- `PCT_DisConnectCloud`. -/
def pctDisConnectCloud (s : Sys) : Sys :=
  pctSendNotifyMsg Code.cloudDisconnected
    { s with con := { s.con with u8MainState := .disconnectCloud, u8keyRecv := false } }.msgInit

/-- `PCT_SendCloudAccessMsg1`. -/
def pctSendCloudAccessMsg1 (fw : Firmware) (env : Env) (s : Sys) : Sys :=
  let stopped := stopHandle .reconnect s.con.u8ReconnectTimer s
  let idle := { stopped with con := { stopped.con with u8ReconnectTimer := none } }
  let message := eventBuildMsg Code.handshake1 1
    (s.con.randMsg.bytes ++ s.registerInfo.u8DeviciId.bytes)
  let (u32RetVal, sent) := pctSendMsgToCloud fw env zcSecAlgRsa 0x5A message (idle.build message)
  if u32RetVal = .error then pctDisConnectCloud sent
  else hfSetTimer .reaccess (pctTimerIntervalReconnect * 120) .access
    { sent with con := { sent.con with u8MainState := .waitAccessRsp } }

/-- `PCT_SendCloudAccessMsg3`. -/
def pctSendCloudAccessMsg3 (fw : Firmware) (env : Env) (s : Sys) : Sys :=
  let keyed := { s with con := { s.con with u8keyRecv := true } }
  let message := eventBuildMsg Code.handshake3 1
    (s.con.randMsg.bytes ++ s.registerInfo.u8EqVersion.bytes ++
      [UInt8.ofNat (fw.moduleVersion / 2 ^ 24), UInt8.ofNat (fw.moduleVersion / 2 ^ 16),
        UInt8.ofNat (fw.moduleVersion / 2 ^ 8), UInt8.ofNat fw.moduleVersion, fw.moduleType] ++
      env.u8Pad.bytes)
  let sent := (pctSendMsgToCloud fw env zcSecAlgAes env.u8Resver message (keyed.build message)).2
  hfSetTimer .reaccess (pctTimerIntervalReconnect * 10) .access
    { sent with con := { sent.con with u8MainState := .waitMsg4 } }

/-- `HF_ConnectToCloud` through `pfunConnectToCloud`. -/
def hfConnectToCloud (env : Env) (s : Sys) : Ret × Sys :=
  if s.zcConfigDb.struSwitchInfo.u32ServerAddrConfig ≠ 1 ∧ env.dns = false then (.error, s)
  else match env.socket with
    | none => (.error, s)
    | some fd =>
      let opened := s.call (.socket fd)
      let connection := s.con.struCloudConnection
      if env.connected then
        (.ok, { opened with
          con := { s.con with
            struCloudConnection := ⟨fd, 0⟩
            randMsg := zcRand env.rand } })
      else
        let closed := (opened.call (.close fd))
        let db := s.zcConfigDb
        (.error, { closed with
          con := { s.con with
            struCloudConnection := { connection with
              u32ConnectionTimes := addU32 connection.u32ConnectionTimes 1 } }
          zcConfigDb :=
            if 20 < connection.u32ConnectionTimes then
              { db with struSwitchInfo := { db.struSwitchInfo with u32ServerAddrConfig := 0 } }
            else db })

/-- `PCT_ConnectCloud`. -/
def pctConnectCloud (env : Env) (s : Sys) : Sys :=
  if s.con.u8ReconnectTimer ≠ none then s
  else match hfConnectToCloud env s with
    | (.error, failed) => failed
    | (.ok, connected) =>
      { connected with con := { connected.con with u8MainState := .waitAccess, u8keyRecv := false } }

/-- `PCT_ReconnectCloud`. -/
def pctReconnectCloud (u32ReConnectTimer : ℕ) (s : Sys) : Sys :=
  if s.con.u8ReconnectTimer ≠ none then s
  else
    let cleared := timerInit (timerStopUsed s.msgInit)
    let armed := hfSetTimer .reconnect u32ReConnectTimer .reconnect
      { cleared with con := { cleared.con with
          u8ReconnectTimer := none
          u8SendMoudleTimer := none
          u8HeartTimer := none
          u8MainState := .init } }
    { armed with con := { armed.con with
        struCloudConnection := { armed.con.struCloudConnection with u32Socket := pctInvaildSocket }
        u8keyRecv := false
        u8MainState := .init } }

/-- `PCT_SendMoudleTimeout`. -/
def pctSendMoudleTimeout (fw : Firmware) (env : Env) (s : Sys) : Option Sys :=
  s.con.pu8SendMoudleBuffer.map fun pointer =>
    let buffer := s.buffer pointer
    let msgId := (ZcMessageHead.load (buffer.u8MsgBuffer.view env.beyond)).msgId
    let u8ReSendMoudleNum := (s.con.u8ReSendMoudleNum + 1) % 2 ^ 8
    let counted := { s with con := { s.con with u8ReSendMoudleNum := u8ReSendMoudleNum } }
    if pctSendMoudleNum < u8ReSendMoudleNum then
      let released := counted.resetBuffer pointer
      let given := { released with con := { released.con with
          u8SendMoudleTimer := none
          u8ReSendMoudleNum := 0 } }
      pctSendErrorMsg fw env msgId (pctSendEmptyMsg fw env msgId zcSecAlgAes given)
    else
      hfSetTimer .sendMoudle pctTimerIntervalSendMoudle .sendMoudle
        (counted.call (.sendToMoudle (buffer.u8MsgBuffer.bytes.take buffer.u32Len)))

/-- The release in `PCT_HandleMoudleEvent`: a reply ends the command that is being sent. -/
def pctReleaseMoudle (fw : Firmware) (env : Env) (msgId : UInt8) (slot : TimerIndex) (s : Sys) :
    Option Sys :=
  s.con.pu8SendMoudleBuffer.map fun pointer =>
    let released := (timerStopTimer (some .sendMoudle) slot s).resetBuffer pointer
    pctSendEmptyMsg fw env msgId zcSecAlgAes
      { released with con := { released.con with
          u8SendMoudleTimer := none
          u8ReSendMoudleNum := 0 } }

/-- `PCT_HandleMoudleEvent` of the message behind a pointer. -/
def pctHandleMoudleEvent (fw : Firmware) (env : Env) (pu8Msg : View) (u16DataLen : ℕ) (s : Sys) :
    Option Sys :=
  let pstruMsg := ZcMessageHead.load pu8Msg
  let released := match s.con.u8SendMoudleTimer with
    | some slot =>
      if pstruMsg.msgCode < 200 then pctReleaseMoudle fw env pstruMsg.msgId slot s else some s
    | none => some s
  released.bind fun released =>
    (pctSendMsgToCloud? fw env ⟨zcHtons u16DataLen, zcSecAlgAes, env.u8Resver⟩ pu8Msg released).map
      Prod.snd

/-- `PCT_RecvAccessMsg2`. -/
def pctRecvAccessMsg2 (fw : Firmware) (env : Env) (s : Sys) : Sys :=
  match msgPopMsg s.recvQueue with
  | (none, _) => s
  | (some pstruBuffer, recvQueue) =>
    let popped := { s with recvQueue := recvQueue }
    let message := (s.buffer pstruBuffer).u8MsgBuffer.view env.beyond
    let pstruMsg := ZcMessageHead.load message
    let handled :=
      if pstruMsg.msgCode = Code.handshake2 ∨ pstruMsg.msgCode = Code.accessPointRsp then
        if pctCheckCrc pstruMsg.totalMsgCrc
            (message.read sizeofMessageHead (zcHtons pstruMsg.payloadlen)) = .error then
          pctDisConnectCloud popped
        else
          let stopped := timerStopTimer (some .access) s.con.u8AccessTimer popped
          if message.read sizeofMessageHead zcHsMsgLen = s.con.randMsg.bytes then
            if pstruMsg.msgCode = Code.handshake2 then
              let sessionKey := .ofView message (sizeofMessageHead + zcHsMsgLen) zcHsSessionKeyLen
              pctSendCloudAccessMsg3 fw env { stopped with con := { s.con with
                  u8SessionKey := sessionKey
                  ivRecv := sessionKey
                  ivSend := sessionKey } }
            else
              let u32Addr := zcHtonl (loadU32 message (sizeofMessageHead + zcHsMsgLen))
              let u16Port := zcHtons (loadU16 message (sizeofMessageHead + zcHsMsgLen + 4))
              pctDisConnectCloud { stopped with
                zcConfigDb := zcStoreAccessInfo u32Addr u16Port s.zcConfigDb }.writeFlash
          else pctDisConnectCloud stopped
      else popped
    handled.resetBuffer pstruBuffer

/-- `PCT_RecvAccessMsg4`. -/
def pctRecvAccessMsg4 (env : Env) (s : Sys) : Sys :=
  match msgPopMsg s.recvQueue with
  | (none, _) => s
  | (some pstruBuffer, recvQueue) =>
    let popped := { s with recvQueue := recvQueue }
    let message := (s.buffer pstruBuffer).u8MsgBuffer.view env.beyond
    let pstruMsg := ZcMessageHead.load message
    let handled :=
      if pstruMsg.msgCode = Code.handshake4 then
        if pctCheckCrc pstruMsg.totalMsgCrc
            (message.read sizeofMessageHead (zcHtons pstruMsg.payloadlen)) = .error then
          pctDisConnectCloud popped
        else
          let stopped := timerStopTimer (some .access) s.con.u8AccessTimer popped
          if message.read sizeofMessageHead zcHsMsgLen = s.con.randMsg.bytes then
            pctSendNotifyMsg Code.cloudConnected
              { stopped with con := { s.con with u8MainState := .connectCloud } }
          else pctDisConnectCloud stopped
      else popped
    hfSetTimer .sendHeart pctTimerIntervalHeart .heart
      (stopHandle .heart s.con.u8HeartTimer (handled.resetBuffer pstruBuffer))

/-- `PCT_HandleUnbindMsg`. -/
def pctHandleUnbindMsg (env : Env) (s : Sys) : Sys :=
  match msgPopMsg s.recvQueue with
  | (none, _) => s
  | (some pstruBuffer, recvQueue) =>
    let popped := { s with recvQueue := recvQueue }
    let message := (s.buffer pstruBuffer).u8MsgBuffer.view env.beyond
    let handled :=
      if (ZcMessageHead.load message).msgCode = Code.unbind then
        let stopped := stopHandle .sendUnbind s.con.u8SendUnbindTimer popped
        { stopped with
          con := { s.con with u8MainState := .connectCloud, u8SendUnbindTimer := none }
          zcConfigDb := zcConfigUnBind 0xFFFFFFFF s.zcConfigDb }.writeFlash
      else popped
    hfSetTimer .sendHeart pctTimerIntervalHeart .heart (handled.resetBuffer pstruBuffer)

/-! ## Messages of a connected device -/

section Handlers

variable (fw : Firmware) (env : Env)

/-- `PCT_HandleOtaBeginMsg`. -/
def pctHandleOtaBeginMsg (msgId : UInt8) (s : Sys) : Sys :=
  pctSendNotifyMsg Code.zotaBegin (pctSendAckToCloud fw env msgId { s with u32StopJdTask := 1 })

/-- The OTA state a `ZC_OtaFileBeginReq` behind a pointer sets up. -/
def otaFileBegin (pstruOta : View) (s : Sys) : Sys :=
  { s with con := { s.con with
      struOtaInfo := ⟨zcHtonl (loadU32 pstruOta 4), 0, (pstruOta 2, pstruOta 3)⟩ } }

/-- `PCT_HandleOtaFileBeginMsg`. -/
def pctHandleOtaFileBeginMsg (msgId : UInt8) (pstruOta : View) (s : Sys) : Sys :=
  pctSendAckToCloud fw env msgId (otaFileBegin pstruOta s)

/-- The checks of a chunk: its offset, the end of the image, the longest chunk. -/
def otaChunkRefused (u32RecvOffset u32FileLen : ℕ) (s : Sys) : Prop :=
  u32RecvOffset ≠ s.con.struOtaInfo.u32RecvOffset ∨
    s.con.struOtaInfo.u32TotalLen < addU32 u32RecvOffset u32FileLen ∨
    zcOtaMaxChunkLen < u32FileLen

instance (u32RecvOffset u32FileLen : ℕ) (s : Sys) :
    Decidable (otaChunkRefused u32RecvOffset u32FileLen s) :=
  inferInstanceAs (Decidable (_ ∨ _ ∨ _))

/-- `pfunUpdate` of the bytes behind a `ZC_OtaFileChunkReq`. -/
def otaUpdate (pstruOta : View) (u32RecvOffset u32FileLen : ℕ) (s : Sys) : Sys :=
  s.call (.update (pstruOta.read 4 u32FileLen) u32RecvOffset)

/-- The offset after a chunk that `pfunUpdate` took. -/
def otaAdvance (u32FileLen : ℕ) (s : Sys) : Sys :=
  { s with con := { s.con with
      struOtaInfo := { s.con.struOtaInfo with
        u32RecvOffset := addU32 s.con.struOtaInfo.u32RecvOffset u32FileLen } } }

/-- `PCT_HandleOtaFileChunkMsg`. -/
def pctHandleOtaFileChunkMsg (pstruMsg : ZcMessageHead) (pstruOta : View) (s : Sys) : Sys :=
  let u32FileLen := subU32 (zcHtons pstruMsg.payloadlen) 4
  let u32RecvOffset := zcHtonl (loadU32 pstruOta 0)
  if otaChunkRefused u32RecvOffset u32FileLen s then pctSendErrorMsg fw env pstruMsg.msgId s
  else
    let updated := otaUpdate pstruOta u32RecvOffset u32FileLen s
    if env.update = .error then pctSendErrorMsg fw env pstruMsg.msgId updated
    else pctSendAckToCloud fw env pstruMsg.msgId (otaAdvance u32FileLen updated)

/-- `PCT_HandleOtaFileEndMsg`. -/
def pctHandleOtaFileEndMsg (msgId : UInt8) (s : Sys) : Sys := pctSendAckToCloud fw env msgId s

/-- `PCT_HandleOtaEndMsg`. -/
def pctHandleOtaEndMsg (msgId : UInt8) (s : Sys) : Sys :=
  let finished := s.call (.updateFinish s.con.struOtaInfo.u32TotalLen)
  if env.updateFinish = .error then pctSendErrorMsg fw env msgId finished
  else
    let notified := pctSendNotifyMsg Code.zotaEnd (pctSendAckToCloud fw env msgId finished)
    { notified.call .reboot with u32StopJdTask := 0 }

/-- `PCT_HandleMoudleMsg` of the message in a buffer. -/
def pctHandleMoudleMsg (pstruBuffer : BufPtr) (s : Sys) : Sys :=
  let armed := hfSetTimer .sendMoudle pctTimerIntervalSendMoudle .sendMoudle s
  let buffer := s.buffer pstruBuffer
  let message := buffer.u8MsgBuffer.bytes.take buffer.u32Len
  let kept := { armed with
    retxBuffer := ⟨buffer.u32Len, .full, s.retxBuffer.u8MsgBuffer.overlay 0 message, buffer.len_le⟩
    con := { armed.con with
      pu8SendMoudleBuffer := some .retxBuffer
      u8ReSendMoudleNum := 0 } }
  hfSetTimer .sendHeart pctTimerIntervalHeart .heart
    (stopHandle .heart kept.con.u8HeartTimer (kept.call (.sendToMoudle message)))

/-- `PCT_SetTokenKey`. -/
def pctSetTokenKey (msgId : UInt8) (pstruSetKey : View) (s : Sys) : Sys :=
  let stored := { s with zcConfigDb := zcStoreTokenKey pstruSetKey s.zcConfigDb }.writeFlash
  pctSendAckToCloud fw env msgId (pctSendEmptyMsg fw env msgId zcSecAlgAes stored)

/-- `PCT_ResetNetWork`. -/
def pctResetNetWork (msgId : UInt8) (s : Sys) : Sys :=
  let reset := pctDisConnectCloud { s with zcConfigDb := zcConfigInitPara s.zcConfigDb }
  pctSendAckToCloud fw env msgId (pctSendEmptyMsg fw env msgId zcSecAlgAes reset)

/-- The switch of `PCT_HandleEvent` on the code of a message with a good checksum. -/
def pctDispatch (pstruMsg : ZcMessageHead) (payload : View) (pstruBuffer : BufPtr) (s : Sys) : Sys :=
  if pstruMsg.msgCode = Code.zotaBegin then pctHandleOtaBeginMsg fw env pstruMsg.msgId s
  else if pstruMsg.msgCode = Code.zotaFileBegin then
    pctHandleOtaFileBeginMsg fw env pstruMsg.msgId payload s
  else if pstruMsg.msgCode = Code.zotaFileChunk then
    pctHandleOtaFileChunkMsg fw env pstruMsg payload s
  else if pstruMsg.msgCode = Code.zotaFileEnd then
    pctHandleOtaFileEndMsg fw env pstruMsg.msgId s
  else if pstruMsg.msgCode = Code.zotaEnd then pctHandleOtaEndMsg fw env pstruMsg.msgId s
  else if pstruMsg.msgCode = Code.tokenSet then pctSetTokenKey fw env pstruMsg.msgId payload s
  else if pstruMsg.msgCode = Code.resetNetwork then pctResetNetWork fw env pstruMsg.msgId s
  else if pstruMsg.msgCode = Code.unbind then s
  else pctHandleMoudleMsg pstruBuffer s

/-- `PCT_HandleEvent`. -/
def pctHandleEvent (s : Sys) : Sys :=
  if s.zcConfigDb.struDeviceInfo.u32UnBindFlag = zcMagicFlag then
    pctSendUnbindMsg fw env (stopHandle .sendUnbind s.con.u8SendUnbindTimer
      { s with con := { s.con with u8MainState := .waitUnbind } })
  else match msgPopMsg s.recvQueue with
    | (none, _) => s
    | (some pstruBuffer, recvQueue) =>
      let popped := { s with recvQueue := recvQueue }
      let message := (s.buffer pstruBuffer).u8MsgBuffer.view env.beyond
      let pstruMsg := ZcMessageHead.load message
      let handled :=
        if pctCheckCrc pstruMsg.totalMsgCrc
            (message.read sizeofMessageHead (zcHtons pstruMsg.payloadlen)) = .error then
          pctSendErrorMsg fw env pstruMsg.msgId
            (pctSendEmptyMsg fw env pstruMsg.msgId zcSecAlgAes popped)
        else pctDispatch fw env pstruMsg (message.shift sizeofMessageHead) pstruBuffer popped
      handled.resetBuffer pstruBuffer

/-- `PCT_Run`. -/
def pctRun (s : Sys) : Sys :=
  match s.con.u8MainState with
  | .sleep => s
  | .init => s
  | .accessNet => pctConnectCloud env s
  | .waitAccess => pctSendCloudAccessMsg1 fw env s
  | .waitAccessRsp => pctRecvAccessMsg2 fw env s
  | .waitMsg4 => pctRecvAccessMsg4 env s
  | .connectCloud => pctHandleEvent fw env s
  | .waitUnbind => pctHandleUnbindMsg env s
  | .disconnectCloud => s

/-- `TIMER_TimeoutAction`. -/
def timerTimeoutAction (slot : TimerIndex) (s : Sys) : Option Sys :=
  match (s.timers.struTimer slot).u8Type with
  | .reconnect => some { s with con := { s.con with
      u8ReconnectTimer := none
      u8MainState := .accessNet } }
  | .reaccess => some (pctDisConnectCloud s)
  | .sendMoudle => pctSendMoudleTimeout fw env s
  | .sendHeart => some (pctSendHeartMsg fw env s)
  | .register => some (pctSendNotifyMsg Code.wifiConnected
      (hfSetTimer .register pctTimerIntervalRegister .register s))
  | .sendUbind => some (pctSendUnbindMsg fw env s)

end Handlers

/-- `PCT_WakeUp`. -/
def pctWakeUp (s : Sys) : Sys :=
  if s.con.u8MainState = .init then
    let armed := hfSetTimer .register pctTimerIntervalRegister .register s
    let notified := pctSendNotifyMsg Code.wifiConnected
      { armed with con := { armed.con with u16SendBcNum := 0 } }
    { notified with con := { notified.con with u8MainState := .accessNet } }
  else s

/-- `PCT_Sleep`. -/
def pctSleep (s : Sys) : Sys :=
  let cleared := timerInit (timerStopUsed
    { s.msgInit with con := { s.con with u8keyRecv := false } })
  pctSendNotifyMsg Code.wifiDisconnected
    { cleared with con := { cleared.con with
        u8ReconnectTimer := none
        u8SendMoudleTimer := none
        u8HeartTimer := none
        u8MainState := .init
        u8RegisterTimer := none } }

end ShuangFa
