import ShuangFa.Model.Timer
import ShuangFa.Proofs.Encryption

/-! # Building and sending messages

Every message has the same head; what differs is the code, the id and the payload. A message goes to
the module as it is, and to the cloud behind a security head with its text encrypted. Sending has
no outcome when the encrypted text is longer than the send buffer.
-/

namespace ShuangFa

open Memory

/-- A message head in front of its payload, with the checksum of the payload. -/
def messageBytes (msgCode msgId : UInt8) (payload : List UInt8) : List UInt8 :=
  let crc := crc16Ccitt payload
  (ZcMessageHead.mk zcVersion msgId msgCode 0 (zcHtons payload.length)
    (UInt8.ofNat (crc / 2 ^ 8), UInt8.ofNat crc)).bytes ++ payload

/-- `EVENT_BuildEmptyMsg`. -/
def eventBuildEmptyMsg (u8MsgId : UInt8) : List UInt8 := messageBytes Code.empty u8MsgId []

/-- `EVENT_BuildHeartMsg`. -/
def eventBuildHeartMsg : List UInt8 := messageBytes Code.heartbeat 0 []

/-- `EVENT_BuildMsg`. -/
def eventBuildMsg (u8MsgCode u8MsgId : UInt8) (pu8Payload : List UInt8) : List UInt8 :=
  messageBytes u8MsgCode u8MsgId pu8Payload

/-- `EVENT_BuildBcMsg`. -/
def eventBuildBcMsg (s : Sys) : List UInt8 :=
  messageBytes Code.bcInfo 0
    (s.registerInfo.u8DeviciId.bytes.drop zcHsDeviceIdLen ++
      s.registerInfo.u8DeviciId.bytes.take zcHsDeviceIdLen ++ s.con.randMsg.bytes)

/-- A message built in `g_u8MsgBuildBuffer`. -/
def Sys.build (s : Sys) (message : List UInt8) : Sys :=
  { s with msgBuildBuffer := s.msgBuildBuffer.overlay 0 message }

/-- `PCT_SendNotifyMsg`. -/
def pctSendNotifyMsg (u8NotifyCode : UInt8) (s : Sys) : Sys :=
  let message := eventBuildMsg u8NotifyCode 0 []
  (s.build message).call (.sendToMoudle message)

/-- `PCT_SendMsgToCloud` of the text behind a pointer; `none` when the text the engine writes does
not fit behind the head in `g_struSendBuffer`. -/
def pctSendMsgToCloud? (fw : Firmware) (env : Env) (head : ZcSecHead) (pu8PlainData : View)
    (s : Sys) : Option (Ret × Sys) :=
  let u16TotalMsg := zcHtons head.u16TotalMsg
  let u16PaddingLen := secPaddingCheck s.zcConfigDb.struSwitchInfo.u32SecSwitch head.u8SecType
    u16TotalMsg
  if msgBufferMaxLen < (u16TotalMsg + sizeofSecHead + u16PaddingLen) % 2 ^ 16 then some (.error, s)
  else if s.sendBuffer.u8Status = .idle then
    let result := secEncrypt fw.crypto s.secContext env.pads head pu8PlainData
    if msgBufferMaxLen < sizeofSecHead + result.cipher.length then none
    else
      let body := s.sendBuffer.u8MsgBuffer.overlay sizeofSecHead result.cipher
      if result.ret = .error then
        some (.error, { s with sendBuffer := { s.sendBuffer with u8MsgBuffer := body } })
      else
        let u8SecType := secEncryptType s.zcConfigDb.struSwitchInfo.u32SecSwitch head.u8SecType
        let frame := body.overlay 0 (ZcSecHead.mk (zcHtons result.u16CiperLen) u8SecType
          head.u8Resver).bytes
        let sent := { s with sendBuffer := ⟨0, .idle, frame, Nat.zero_le _⟩ }
        some (.ok, sent.call (.sendTcpData s.con.struCloudConnection.u32Socket
          (frame.bytes.take (result.u16CiperLen + sizeofSecHead))))
  else some (.error, s)

/-- `PCT_SendMsgToCloud` of a message the controller has built itself. -/
def pctSendMsgToCloud (fw : Firmware) (env : Env) (u8SecType u8Resver : UInt8)
    (message : List UInt8) (s : Sys) : Ret × Sys :=
  (pctSendMsgToCloud? fw env ⟨zcHtons message.length, u8SecType, u8Resver⟩ (.ofList message)
    s).getD (.error, s)

/-- A message that the controller has built fits, whatever becomes of it: its payload has at most the 56
bytes of the first handshake message. -/
theorem pctSendMsgToCloud?_eq_some (fw : Firmware) (env : Env) (u8SecType u8Resver : UInt8)
    {msgCode msgId : UInt8} {payload message : List UInt8}
    (built : messageBytes msgCode msgId payload = message) (short : payload.length ≤ 56) (s : Sys) :
    pctSendMsgToCloud? fw env ⟨zcHtons message.length, u8SecType, u8Resver⟩ (.ofList message) s =
      some (pctSendMsgToCloud fw env u8SecType u8Resver message s) := by
  have size : message.length ≤ 8 + 56 := by
    rw [← built, messageBytes, List.length_append]
    exact Nat.add_le_add_left short 8
  have length : zcHtons (zcHtons message.length) = message.length := zcHtons_zcHtons _ (by omega)
  have fits := @secEncrypt_length_le fw.crypto s.secContext
    ⟨zcHtons message.length, u8SecType, u8Resver⟩ env.pads (.ofList message)
    (length.trans_le (by omega))
  have room : ¬ msgBufferMaxLen < sizeofSecHead + (secEncrypt fw.crypto s.secContext env.pads
      ⟨zcHtons message.length, u8SecType, u8Resver⟩ (.ofList message)).cipher.length := by
    rw [msgBufferMaxLen, sizeofSecHead]
    omega
  have outcome : (pctSendMsgToCloud? fw env ⟨zcHtons message.length, u8SecType, u8Resver⟩
      (.ofList message) s).isSome := by
    rw [pctSendMsgToCloud?]
    dsimp only
    rw [if_neg room]
    split_ifs <;> rfl
  obtain ⟨result, sent⟩ := Option.isSome_iff_exists.mp outcome
  rw [pctSendMsgToCloud, sent, Option.getD_some]

section Senders

variable (fw : Firmware) (env : Env)

/-- `PCT_SendEmptyMsg`: the message is built on the stack. -/
def pctSendEmptyMsg (u8MsgId u8SecType : UInt8) (s : Sys) : Sys :=
  (pctSendMsgToCloud fw env u8SecType env.u8Resver (eventBuildEmptyMsg u8MsgId) s).2

/-- `PCT_SendErrorMsg` without error bytes, as every caller uses it. -/
def pctSendErrorMsg (u8MsgId : UInt8) (s : Sys) : Sys :=
  let message := eventBuildMsg Code.err u8MsgId []
  (pctSendMsgToCloud fw env zcSecAlgAes env.u8Resver message (s.build message)).2

/-- `PCT_SendAckToCloud`. -/
def pctSendAckToCloud (u8MsgId : UInt8) (s : Sys) : Sys :=
  let message := eventBuildMsg Code.ack u8MsgId []
  (pctSendMsgToCloud fw env zcSecAlgAes env.u8Resver message (s.build message)).2

/-- `PCT_SendHeartMsg`. -/
def pctSendHeartMsg (s : Sys) : Sys :=
  hfSetTimer .sendHeart pctTimerIntervalHeart .heart
    (pctSendMsgToCloud fw env zcSecAlgAes env.u8Resver eventBuildHeartMsg s).2

/-- `PCT_SendUnbindMsg`. -/
def pctSendUnbindMsg (s : Sys) : Sys :=
  hfSetTimer .sendUbind (pctTimerIntervalSendUbind * (env.rand 0 % 10 + 1)) .sendUnbind
    (pctSendMsgToCloud fw env zcSecAlgAes env.u8Resver (eventBuildMsg Code.unbind 0 []) s).2

end Senders

/-- `MSG_SendDataToCloud`: nothing is ever queued in this build, so the queue only has to be looked
at. -/
def msgSendDataToCloud (s : Sys) : Sys :=
  match msgPopMsg s.sendQueue with
  | (none, _) => s
  | (some pstruBuf, sendQueue) =>
    let popped := { s with sendQueue := sendQueue }
    let buffer := s.buffer pstruBuf
    (popped.call (.sendTcpData s.con.struCloudConnection.u32Socket
      (buffer.u8MsgBuffer.bytes.take (buffer.u32Len % 2 ^ 16)))).resetBuffer pstruBuf

/-- `ZC_SendBc`. -/
def zcSendBc (s : Sys) : Sys :=
  if s.con.u8MainState ≠ .connectCloud then { s with bcSleepCount := 0 }
  else if s.bcSleepCount + 1 ≤ bcSleepCountMax then { s with bcSleepCount := s.bcSleepCount + 1 }
  else
    let message := eventBuildBcMsg s
    let built := { s.build message with bcSleepCount := 0 }
    if s.con.u16SendBcNum < pctSendBcMaxNum then
      { built with con := { s.con with u16SendBcNum := s.con.u16SendBcNum + 1 } }.call
        (.sendUdpData message)
    else built

end ShuangFa
