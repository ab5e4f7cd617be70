import ShuangFa.Model.SecEngine
import ShuangFa.Model.Configuration

/-! # The state of the firmware

The globals that the cloud thread, the receive thread, the timer callbacks and the module share,
with the adapter's side of the timers and a log of what went out through the adapter. Everything a
step learns from outside comes in an `Env`: results of library calls, random bytes, and the bytes
that unassigned variables and memory behind an array happen to hold.
-/

namespace ShuangFa

open Memory

/-- `PCT_STATE_SLEEP` to `PCT_STATE_DISCONNECT_CLOUD`. -/
inductive MainState where
  | sleep
  | init
  | accessNet
  | waitAccess
  | waitAccessRsp
  | waitMsg4
  | connectCloud
  | waitUnbind
  | disconnectCloud
deriving DecidableEq, Repr

/-- The value of a state, by which states are compared. -/
def MainState.code : MainState → ℕ
  | sleep => 0
  | init => 1
  | accessNet => 2
  | waitAccess => 3
  | waitAccessRsp => 4
  | waitMsg4 => 5
  | connectCloud => 6
  | waitUnbind => 7
  | disconnectCloud => 8

/-- `PCT_TIMER_RECONNECT` to `PCT_TIMER_SENDUBIND`. -/
inductive TimerType where
  | reconnect
  | reaccess
  | sendMoudle
  | sendHeart
  | register
  | sendUbind
deriving DecidableEq, Repr

/-- `ZC_TIMER_MAX_NUM` slots. -/
abbrev TimerIndex := Fin 5

/-- Numbers are written for the slots. -/
instance timerIndexNeZero : NeZero 5 := ⟨by decide⟩

inductive TimerStatus where
  | idle
  | used
deriving DecidableEq, Repr

/-- `ZC_Timer`. -/
structure ZcTimer where
  u8Status : TimerStatus
  u8Type : TimerType
deriving DecidableEq, Repr

/-- A one-shot timer of the SDK. -/
structure SdkTimer where
  u32Interval : ℕ
  running : Bool
deriving DecidableEq, Repr

/-- `HF_TimerInfo`; a deleted timer has no handle. -/
structure HfTimerInfo where
  u32FirstFlag : Bool
  struHandle : Option SdkTimer
deriving DecidableEq, Repr

/-- `g_struTimer` and `g_struHfTimer`. -/
structure TimerBank where
  struTimer : TimerIndex → ZcTimer
  struHfTimer : TimerIndex → HfTimerInfo

/-- The fields of `PTC_ProtocolCon` that `pfunSetTimer` stores a slot in. -/
inductive TimerField where
  | reconnect
  | access
  | sendUnbind
  | heart
  | sendMoudle
  | register
deriving DecidableEq, Repr

/-- A message buffer a pointer can point to. -/
inductive BufPtr where
  | recvBuffer
  | retxBuffer
  | clientBuffer
  | sendBuffer
deriving DecidableEq, Repr

def pctInvaildSocket : ℕ := 0xFFFFFFFF
def pctSendMoudleNum : ℕ := 4
def pctTimerIntervalReconnect : ℕ := 1000
def pctTimerIntervalHeart : ℕ := 1000 * 60
def pctTimerIntervalSendMoudle : ℕ := 1000
def pctTimerIntervalRegister : ℕ := 1000
def pctTimerIntervalSendUbind : ℕ := 1000
def pctSendBcMaxNum : ℕ := 300
def bcSleepCountMax : ℕ := 250000

structure PtcConnection where
  u32Socket : ℕ
  u32ConnectionTimes : ℕ
deriving DecidableEq, Repr

structure PtcOtaInfo where
  u32TotalLen : ℕ
  u32RecvOffset : ℕ
  u8Crc : UInt8 × UInt8
deriving DecidableEq, Repr

/-- `PTC_ProtocolCon`. A timer handle is `none` for `PCT_TIMER_INVAILD`, a value the access timer
never has, and `u8keyRecv` is true for `PCT_KEY_RECVED`. -/
structure PtcProtocolCon where
  u8MainState : MainState
  u8keyRecv : Bool
  u8ReconnectTimer : Option TimerIndex
  u8AccessTimer : TimerIndex
  u8SendUnbindTimer : Option TimerIndex
  u8HeartTimer : Option TimerIndex
  u8SendMoudleTimer : Option TimerIndex
  u8RegisterTimer : Option TimerIndex
  u8ReSendMoudleNum : ℕ
  pu8SendMoudleBuffer : Option BufPtr
  struCloudConnection : PtcConnection
  struClientConnection : PtcConnection
  u8SessionKey : FixedBuffer zcHsSessionKeyLen
  ivSend : AesBlock
  ivRecv : AesBlock
  randMsg : FixedBuffer zcHsMsgLen
  u16SendBcNum : ℕ
  struOtaInfo : PtcOtaInfo

/-- The store through `pu8TimeIndex`. -/
def PtcProtocolCon.setHandle (con : PtcProtocolCon) (slot : TimerIndex) : TimerField → PtcProtocolCon
  | .reconnect => { con with u8ReconnectTimer := some slot }
  | .access => { con with u8AccessTimer := slot }
  | .sendUnbind => { con with u8SendUnbindTimer := some slot }
  | .heart => { con with u8HeartTimer := some slot }
  | .sendMoudle => { con with u8SendMoudleTimer := some slot }
  | .register => { con with u8RegisterTimer := some slot }

/-- A call that leaves the firmware. -/
inductive AdapterCall where
  | sendTcpData (u32Fd : ℕ) (pu8Data : List UInt8)
  | sendUdpData (pu8Data : List UInt8)
  | sendToMoudle (pu8Data : List UInt8)
  | update (pu8FileData : List UInt8) (u32Offset : ℕ)
  | updateFinish (u32TotalLen : ℕ)
  | rest
  | reboot
  | writeFlash (db : ZcConfigDb)
  | socket (fd : ℕ)
  | close (fd : ℕ)
  | closeBc
deriving DecidableEq

/-- A call of `TIMER_StopTimer`: the handle it goes through, if any, and the slot as it was. -/
structure StopRecord where
  via : Option TimerField
  slot : TimerIndex
  held : ZcTimer
deriving DecidableEq

/-- The reassembler of the stream from the module. -/
structure ZcUartBuffer where
  u32Status : BufferStatus
  u32RecvLen : ℕ
  u8UartBuffer : FixedBuffer zcMaxUartbufLen
deriving DecidableEq

/-- A zero-initialised global. -/
def ZcUartBuffer.zero : ZcUartBuffer := ⟨.idle, 0, .zeros _⟩

/-- The two assignments that drop what is there. -/
def ZcUartBuffer.reset (buffer : ZcUartBuffer) : ZcUartBuffer :=
  { buffer with u32Status := .idle, u32RecvLen := 0 }

/-- The globals. `callback` is the slot whose `HF_timer_callback` has run `TIMER_TimeoutAction` and
not yet `TIMER_StopTimer`; `cloudFd` is the local `fd` of `HF_Cloudfunc`. -/
structure Sys where
  con : PtcProtocolCon
  timers : TimerBank
  callback : Option TimerIndex
  stops : List StopRecord
  recvBuffer : MsgBuffer
  recvQueue : MsgQueue msgQueueMaxLen BufPtr
  retxBuffer : MsgBuffer
  clientBuffer : MsgBuffer
  sendBuffer : MsgBuffer
  sendQueue : MsgQueue msgQueueMaxLen BufPtr
  msgBuildBuffer : FixedBuffer msgBuildBufferMaxLen
  zcConfigDb : ZcConfigDb
  registerInfo : ZcRegisterInfo
  uartBuffer : ZcUartBuffer
  u32StopJdTask : ℕ
  bcSleepCount : ℕ
  cloudFd : ℕ
  calls : List AdapterCall

/-- What one step learns from outside. -/
structure Env where
  rand : ℕ → ℕ
  pads : ℕ → ℕ → {byte : UInt8 // byte ≠ 0}
  beyond : View
  stale : Stale
  u8Resver : UInt8
  u8Pad : FixedBuffer 3
  u8Mac : FixedBuffer zcServerMacLen
  dns : Bool
  socket : Option ℕ
  connected : Bool
  update : Ret
  updateFinish : Ret

/-- What the build fixes: the ciphers and the version and type of the module. -/
structure Firmware where
  crypto : Crypto
  moduleVersion : ℕ
  moduleType : UInt8

namespace Sys

variable (s : Sys)

/-- The buffer behind a pointer. -/
def buffer : BufPtr → MsgBuffer
  | .recvBuffer => s.recvBuffer
  | .retxBuffer => s.retxBuffer
  | .clientBuffer => s.clientBuffer
  | .sendBuffer => s.sendBuffer

/-- `u32Len = 0` and `MSG_BUFFER_IDLE` through a pointer. -/
def resetBuffer : BufPtr → Sys
  | .recvBuffer => { s with recvBuffer := s.recvBuffer.reset }
  | .retxBuffer => { s with retxBuffer := s.retxBuffer.reset }
  | .clientBuffer => { s with clientBuffer := s.clientBuffer.reset }
  | .sendBuffer => { s with sendBuffer := s.sendBuffer.reset }

/-- What the security engine reads. -/
def secContext : SecContext where
  u32SecSwitch := s.zcConfigDb.struSwitchInfo.u32SecSwitch
  u8keyRecv := s.con.u8keyRecv
  u8SessionKey := s.con.u8SessionKey
  ivSend := s.con.ivSend
  ivRecv := s.con.ivRecv
  u8PrivateKey := s.registerInfo.u8PrivateKey
  u8CloudKey := s.zcConfigDb.struCloudInfo.u8CloudKey

/-- A call through the adapter. -/
def call (call : AdapterCall) : Sys := { s with calls := s.calls ++ [call] }

/-- `pfunWriteFlash` of the whole configuration. -/
def writeFlash : Sys := s.call (.writeFlash s.zcConfigDb)

/-- `MSG_Init`. -/
def msgInit : Sys :=
  { s with
    recvQueue := msgInitQueue _ _
    sendQueue := msgInitQueue _ _
    recvBuffer := s.recvBuffer.reset
    sendBuffer := s.sendBuffer.reset
    clientBuffer := s.clientBuffer.reset }

end Sys

end ShuangFa
