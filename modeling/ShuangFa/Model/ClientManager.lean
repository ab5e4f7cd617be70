import ShuangFa.Machine.Replay
import ShuangFa.Model.CloudEvent

/-! # Clients of the local network

A client that connects takes one of four entries. The data of all clients goes through one
reassembler, `g_struClientBuffer`; whoever sent last is its owner, and the field that keeps the owner
has one byte. A frame is decrypted under the token key and goes to the module with an option that
names the client. What the bytes in the reassembler came with is kept beside the state.
-/

namespace ShuangFa

open Memory Machine

def zcMaxClientNum : ℕ := 4
def zcOptSsession : ℕ := 1
def sizeofMessageOptHead : ℕ := 4
def sizeofSsessionInfo : ℕ := 4

inductive ClientStatus where
  | init
  | wakeup
  | idle
  | busy
deriving DecidableEq, Repr

/-- `ZC_CLIENT_VAILD_FLAG` marks an entry that is free. -/
inductive ClientFlag where
  | invaild
  | vaild
deriving DecidableEq, Repr

structure ZcClientInfo where
  u8ClientStates : ClientStatus
  u32ClientBusyId : UInt8
  u32ClientVaildFlag : Fin zcMaxClientNum → ClientFlag
  u32ClientFd : Fin zcMaxClientNum → ℕ

def zcSetClientBusy (u32Clientfd : ℕ) (info : ZcClientInfo) : ZcClientInfo :=
  { info with u8ClientStates := .busy, u32ClientBusyId := UInt8.ofNat u32Clientfd }

def zcSetClientFree (info : ZcClientInfo) : ZcClientInfo := { info with u8ClientStates := .idle }

def zcCheckClientIdle (u32Fd : ℕ) (info : ZcClientInfo) : Ret :=
  if info.u8ClientStates = .idle then .ok
  else if u32Fd = info.u32ClientBusyId.toNat then .ok else .error

/-- One turn of the loop of `ZC_ClientDisconnect`. -/
def disconnectEntry (u32ClientId : ℕ) (info : ZcClientInfo) (u32Index : Fin zcMaxClientNum) :
    ZcClientInfo :=
  if u32ClientId = info.u32ClientFd u32Index then
    let freed := { info with
      u32ClientVaildFlag := Function.update info.u32ClientVaildFlag u32Index .vaild }
    if info.u8ClientStates = .busy ∧ u32ClientId = info.u32ClientBusyId.toNat then
      zcSetClientFree freed
    else freed
  else info

def zcClientDisconnect (u32ClientId : ℕ) (info : ZcClientInfo) : ZcClientInfo :=
  (List.finRange zcMaxClientNum).foldl (disconnectEntry u32ClientId) info

def zcClientConnect (u32ClientId : ℕ) (info : ZcClientInfo) : Ret × ZcClientInfo :=
  let free := (List.finRange zcMaxClientNum).find? fun u32Index =>
    decide (info.u32ClientVaildFlag u32Index = .vaild)
  match free with
  | none => (.error, info)
  | some u32Index => (.ok, { info with
      u32ClientFd := Function.update info.u32ClientFd u32Index u32ClientId
      u32ClientVaildFlag := Function.update info.u32ClientVaildFlag u32Index .invaild })

section Frames

variable (fw : Firmware) (env : Env)

/-- The answer to a client that has to wait; the reserved byte is the one that lies there. -/
def refuseClient (clientId : ℕ) (s : Sys) : Sys :=
  let pu8Key := s.zcConfigDb.struCloudInfo.u8TokenKey
  let message := eventBuildMsg Code.err 0 []
  let cipher := aesCbcCoreEncrypt (fw.crypto.aesEncrypt pu8Key) (.ofList message) message.length pu8Key
  let head := ZcSecHead.mk (zcHtons cipher.length) zcSecAlgAes (s.msgBuildBuffer.view env.beyond 3)
  (s.build (head.bytes ++ cipher)).call (.sendTcpData clientId (head.bytes ++ cipher))

/-- The option that names the client. -/
def sessionOption (clientId : ℕ) : List UInt8 :=
  bytesU16 (zcHtons zcOptSsession) ++ bytesU16 (zcHtons sizeofSsessionInfo) ++
    bytesU32 (zcHtonl clientId)

/-- What the `do` block of `ZC_RecvDataFromClient` makes of the message in `g_u8MsgBuildBuffer`:
undefined where a copy has a negative length or leaves the array. -/
def sendClientMessage (clientId : ℕ) (s : Sys) : Option Sys :=
  let memory := s.msgBuildBuffer.view env.beyond
  let pstruMsg := ZcMessageHead.load memory
  if pctCheckCrc pstruMsg.totalMsgCrc (memory.read sizeofMessageHead (zcHtons pstruMsg.payloadlen)) =
      .error then some s
  else
    let optLen := sizeofMessageOptHead + sizeofSsessionInfo
    let payloadlen := zcHtons (zcHtons pstruMsg.payloadlen + optLen)
    let lengthened := { s with msgBuildBuffer := s.msgBuildBuffer.overlay 4 (bytesU16 payloadlen) }
    if msgBuildBufferMaxLen < zcHtons payloadlen then some lengthened
    else if zcHtons payloadlen < optLen then none
    else
      let head := { pstruMsg with payloadlen := payloadlen, optNum := pstruMsg.optNum + 1 }
      let payload := sessionOption clientId ++
        memory.read sizeofMessageHead (zcHtons payloadlen - optLen)
      let crc := crc16Ccitt payload
      let message :=
        { head with totalMsgCrc := (UInt8.ofNat (crc / 2 ^ 8), UInt8.ofNat crc) }.bytes ++ payload
      if msgBufferMaxLen < message.length then none
      else
        let clientBuffer :=
          { s.clientBuffer with u8MsgBuffer := s.clientBuffer.u8MsgBuffer.overlay 0 message }
        let copied := { s.build head.bytes with clientBuffer := clientBuffer }
        some (copied.call (.sendToMoudle message))

/-- What `ZC_RecvDataFromClient` makes of a frame. -/
def handleClientFrame (clientId : ℕ) (s : Sys) : Option Sys :=
  let memory := s.clientBuffer.u8MsgBuffer.view env.beyond
  let u16TotalMsg := zcHtons (ZcSecHead.load memory).u16TotalMsg
  if msgBuildBufferMaxLen ≤ u16TotalMsg then some s
  else
    let pu8Key := s.zcConfigDb.struCloudInfo.u8TokenKey
    let plain := aesCbcCoreDecrypt (fw.crypto.aesDecrypt pu8Key) (memory.shift sizeofSecHead)
      u16TotalMsg pu8Key env.stale.before
    sendClientMessage env clientId (s.build plain.1)

end Frames

/-- The globals, and what the bytes in `g_struClientBuffer` are and which client sent each. -/
structure ClientSys where
  info : ZcClientInfo
  sys : Sys
  held : List (ℕ × UInt8)

/-- The reassembler has a part of a frame. -/
def MsgBuffer.Segment (buffer : MsgBuffer) : Prop :=
  buffer.u8Status = .segmentNohead ∨ buffer.u8Status = .segmentHead

instance (buffer : MsgBuffer) : Decidable buffer.Segment := inferInstanceAs (Decidable (_ ∨ _))

def zcRecvDataFromClient (fw : Firmware) (env : Env) (clientId : ℕ) (pu8Data : List UInt8)
    (s : ClientSys) : Option ClientSys :=
  if zcCheckClientIdle clientId s.info = .error then
    some { s with sys := refuseClient fw env clientId s.sys }
  else
    let busy := zcSetClientBusy clientId s.info
    (msgRecvData s.sys.clientBuffer pu8Data).bind fun (u32RetVal, clientBuffer) =>
      let received := { s.sys with clientBuffer := clientBuffer }
      if clientBuffer.u8Status = .full ∧ u32RetVal = .ok then
        (handleClientFrame fw env clientId received).map fun handled =>
          ⟨zcSetClientFree busy, { handled with clientBuffer := handled.clientBuffer.reset }, []⟩
      else
        let held := if clientBuffer.Segment then s.held ++ pu8Data.map (clientId, ·) else []
        some ⟨busy, received, held⟩

/-- What a client does. -/
inductive ClientEvent where
  | connect (u32ClientId : ℕ)
  | disconnect (u32ClientId : ℕ)
  | recvData (env : Env) (clientId : ℕ) (pu8Data : List UInt8)

def clients (fw : Firmware) : PartialMachine ClientSys ClientEvent where
  step? s
    | .connect u32ClientId => some { s with info := (zcClientConnect u32ClientId s.info).2 }
    | .disconnect u32ClientId => some { s with info := zcClientDisconnect u32ClientId s.info }
    | .recvData env clientId pu8Data => zcRecvDataFromClient fw env clientId pu8Data s

end ShuangFa
