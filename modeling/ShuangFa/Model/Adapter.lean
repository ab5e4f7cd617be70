import ShuangFa.Model.MoudleManager
import ShuangFa.Machine.Replay

/-! # The adapter and the machine of the whole firmware

The receive thread, the timer callback, the cloud thread and the events of the link, and the
machine whose steps are any of them in any order. An iteration of the cloud thread is two steps,
`PCT_Run` and what follows it. A timer callback is one step or two, the timeout action and the stop
of its own slot; the callbacks exclude each other by their mutex.
-/

namespace ShuangFa

open Memory Machine

section Threads

variable (fw : Firmware) (env : Env)

/-- The call of `SEC_Decrypt` on the frame in the receive buffer. -/
def decryptFrame (recvBuffer : MsgBuffer) (s : Sys) : SecResult :=
  let memory := recvBuffer.u8MsgBuffer.view env.beyond
  secDecrypt fw.crypto s.secContext env.stale (ZcSecHead.load memory) (memory.shift sizeofSecHead)

/-- `MSG_RecvDataFromCloud`: whatever `SEC_Decrypt` returns, as many bytes as it says come back into
the receive buffer, and only a success queues it. Undefined when they do not fit. -/
def msgRecvDataFromCloud (pu8Data : List UInt8) (s : Sys) : Option Sys := do
  let (u32RetVal, recvBuffer) ← msgRecvData s.recvBuffer pu8Data
  if u32RetVal = .ok ∧ recvBuffer.u8Status = .full then
    let result := decryptFrame fw env recvBuffer s
    let msgBuildBuffer := s.msgBuildBuffer.overlay 0 result.plain
    let copied ← recvBuffer.copyIn? 0 msgBuildBuffer.bytes result.u16PlainLen .full
    let recvQueue := if result.ret = .ok then (msgPushMsg s.recvQueue .recvBuffer).2 else s.recvQueue
    some { s with recvBuffer := copied, recvQueue := recvQueue, msgBuildBuffer := msgBuildBuffer }
  else some { s with recvBuffer := recvBuffer }

/-- The reset of the UART reassembler. -/
def Sys.resetUart (s : Sys) : Sys := { s with uartBuffer := s.uartBuffer.reset }

/-- What `HF_CloudRecvfunc` does with the result of `recv` on the cloud socket, which it polls only
while a connection is up: at most `HF_MAX_SOCKET_LEN` bytes, or none for an end or an error. -/
def hfCloudRecvfunc (received : Option (List UInt8)) (s : Sys) : Option Sys :=
  if MainState.waitAccessRsp.code ≤ s.con.u8MainState.code ∧
      s.con.u8MainState.code < MainState.disconnectCloud.code then
    match received with
    | none => some (pctDisConnectCloud s).resetUart
    | some pu8Data =>
      if 0 < pu8Data.length ∧ pu8Data.length ≤ hfMaxSocketLen then
        msgRecvDataFromCloud fw env pu8Data s
      else some s
  else some s

/-- `HF_timer_callback` up to and with `TIMER_TimeoutAction`. The first time the timer elapses it is
started once more and nothing else happens. -/
def hfTimerCallbackAction (slot : TimerIndex) (s : Sys) : Option Sys :=
  if s.timers.running slot = true ∧ s.callback = none then
    if (s.timers.struHfTimer slot).u32FirstFlag then
      some { s with timers := s.timers.restart slot }
    else
      (timerTimeoutAction fw env slot { s with timers := s.timers.elapse slot }).map fun acted =>
        { acted with callback := some slot }
  else some s

/-- The rest of `HF_timer_callback`. -/
def hfTimerCallbackStop (s : Sys) : Sys :=
  match s.callback with
  | none => s
  | some slot => { timerStopTimer none slot s with callback := none }

/-- `HF_timer_callback` as one step. -/
def hfTimerCallback (slot : TimerIndex) (s : Sys) : Option Sys :=
  if s.callback = none then (hfTimerCallbackAction fw env slot s).map hfTimerCallbackStop else some s

/-- `HF_Cloudfunc` up to and with `PCT_Run`; the local `fd` is read before it. -/
def hfCloudfuncRun (s : Sys) : Sys :=
  { pctRun fw env s with cloudFd := s.con.struCloudConnection.u32Socket }

/-- The rest of an iteration of `HF_Cloudfunc`. -/
def hfCloudfuncRest (s : Sys) : Sys :=
  zcSendBc (
    if s.con.u8MainState = .disconnectCloud then
      let u32Timer := if s.con.struCloudConnection.u32ConnectionTimes = 0 then 1000
        else pctTimerIntervalReconnect * (env.rand 0 % 10 + 1)
      (pctReconnectCloud u32Timer (s.call (.close s.cloudFd))).resetUart
    else msgSendDataToCloud s)

/-- An iteration of `HF_Cloudfunc`. -/
def hfCloudfunc (s : Sys) : Sys := hfCloudfuncRest env (hfCloudfuncRun fw env s)

end Threads

/-- Close a connection's socket unless it is `PCT_INVAILD_SOCKET`. -/
def closeSocket (u32Socket : ℕ) (s : Sys) : Sys :=
  if u32Socket ≠ pctInvaildSocket then s.call (.close u32Socket) else s

/-- `HF_Sleep`. -/
def hfSleep (s : Sys) : Sys :=
  let closed := closeSocket s.con.struCloudConnection.u32Socket
    (closeSocket s.con.struClientConnection.u32Socket (s.call .closeBc))
  (pctSleep { closed with con := { closed.con with
      struCloudConnection := { closed.con.struCloudConnection with u32Socket := pctInvaildSocket }
      struClientConnection := { closed.con.struClientConnection with
        u32Socket := pctInvaildSocket } } }).resetUart

/-- `HF_WakeUp`. -/
def hfWakeUp (s : Sys) : Sys := pctWakeUp s

/-- A step of one of the threads, of a timer, of the module or of the link. -/
inductive Action where
  | cloudfuncRun (env : Env)
  | cloudfuncRest (env : Env)
  | recvDataFromCloud (env : Env) (pu8Data : List UInt8)
  | cloudRecvfunc (env : Env) (received : Option (List UInt8))
  | timerCallback (env : Env) (slot : TimerIndex)
  | timerAction (env : Env) (slot : TimerIndex)
  | timerStop
  | moudleEvent (env : Env) (pu8Msg : View) (u16DataLen : ℕ)
  | recvDataFromMoudle (env : Env) (pu8Data : View) (u16DataLen : ℕ)
  | disConnectCloud
  | reconnectCloud (u32ReConnectTimer : ℕ)
  | sleep
  | hfSleep
  | hfWakeUp

/-- One step; `none` is undefined behaviour. -/
def Action.run (fw : Firmware) (s : Sys) : Action → Option Sys
  | .cloudfuncRun env => some (hfCloudfuncRun fw env s)
  | .cloudfuncRest env => some (hfCloudfuncRest env s)
  | .recvDataFromCloud env pu8Data => msgRecvDataFromCloud fw env pu8Data s
  | .cloudRecvfunc env received => ShuangFa.hfCloudRecvfunc fw env received s
  | .timerCallback env slot => hfTimerCallback fw env slot s
  | .timerAction env slot => hfTimerCallbackAction fw env slot s
  | .timerStop => some (hfTimerCallbackStop s)
  | .moudleEvent env pu8Msg u16DataLen => pctHandleMoudleEvent fw env pu8Msg u16DataLen s
  | .recvDataFromMoudle env pu8Data u16DataLen => zcRecvDataFromMoudle fw env pu8Data u16DataLen s
  | .disConnectCloud => some (pctDisConnectCloud s)
  | .reconnectCloud u32ReConnectTimer => some (pctReconnectCloud u32ReConnectTimer s)
  | .sleep => some (pctSleep s)
  | .hfSleep => some (ShuangFa.hfSleep s)
  | .hfWakeUp => some (ShuangFa.hfWakeUp s)

/-- The firmware as a machine. -/
def firmware (fw : Firmware) : PartialMachine Sys Action := ⟨Action.run fw⟩

/-- The two steps of the cloud thread are an iteration of `HF_Cloudfunc`. -/
theorem replay_hfCloudfunc (fw : Firmware) (env : Env) (s : Sys) :
    (firmware fw).replay? s [.cloudfuncRun env, .cloudfuncRest env] =
      some (hfCloudfunc fw env s) := rfl

/-- `PTC_ProtocolCon` after `PCT_Init` on a zero-initialised global: the handles of the access and
the unbind timer are the ones it does not assign. -/
def PtcProtocolCon.pctInit : PtcProtocolCon where
  u8MainState := .init
  u8keyRecv := false
  u8ReconnectTimer := none
  u8AccessTimer := 0
  u8SendUnbindTimer := some 0
  u8HeartTimer := none
  u8SendMoudleTimer := none
  u8RegisterTimer := none
  u8ReSendMoudleNum := 0
  pu8SendMoudleBuffer := none
  struCloudConnection := ⟨pctInvaildSocket, 0⟩
  struClientConnection := ⟨pctInvaildSocket, 0⟩
  u8SessionKey := .zeros _
  ivSend := .zeros _
  ivRecv := .zeros _
  randMsg := .zeros _
  u16SendBcNum := 0
  struOtaInfo := ⟨0, 0, (0, 0)⟩

/-- What `HF_Init` makes of the configuration: the flash image, if there is one, in place of the
parameters `PCT_Init` set, and then the switches. -/
def hfInitConfig (flash : Option ZcConfigDb) : ZcConfigDb :=
  let db := flash.getD (zcConfigInitPara .zero)
  { db with
    struSwitchInfo := { db.struSwitchInfo with
      u32SecSwitch := 1, u32TraceSwitch := 0, u32WifiConfig := 0, u32ServerAddrConfig := 0 }
    struCloudInfo := { db.struCloudInfo with u8CloudAddr := defaultCloudAddr } }

/-- The state when `HF_Init` has run. -/
def hfInit (flash : Option ZcConfigDb) (registerInfo : ZcRegisterInfo) : Sys where
  con := .pctInit
  timers := .zero
  callback := none
  stops := []
  recvBuffer := .zero
  recvQueue := msgInitQueue _ _
  retxBuffer := .zero
  clientBuffer := .zero
  sendBuffer := .zero
  sendQueue := msgInitQueue _ _
  msgBuildBuffer := .zeros _
  zcConfigDb := hfInitConfig flash
  registerInfo := registerInfo
  uartBuffer := .zero
  u32StopJdTask := 0
  bcSleepCount := 0
  cloudFd := 0
  calls := []

/-- Ciphers that leave every block as it is, to run concrete tapes with. -/
def Firmware.plain : Firmware where
  crypto := ⟨fun _ block => block, fun _ block => block, fun _ block => some block,
    fun _ block => some block⟩
  moduleVersion := 0
  moduleType := 0

/-- An environment in which every call succeeds and every unassigned byte is zero. -/
def Env.calm : Env where
  rand _ := 0
  pads _ _ := ⟨1, by decide⟩
  beyond _ := 0
  stale := ⟨0, 0, 0⟩
  u8Resver := 0
  u8Pad := .zeros _
  u8Mac := .zeros _
  dns := true
  socket := some 1
  connected := true
  update := .ok
  updateFinish := .ok

/-- A message in a frame that is not encrypted. -/
def plainFrame (message : List UInt8) : List UInt8 :=
  (ZcSecHead.mk (zcHtons message.length) zcSecAlgNone 0).bytes ++ message

/-- The steps that connect a device that has just started: the register timer, the connection and
the two handshake messages of the cloud. -/
def connecting : List Action :=
  let echo := (zcRand Env.calm.rand).bytes
  [.hfWakeUp, .cloudfuncRun .calm, .cloudfuncRun .calm,
    .cloudRecvfunc .calm (some (plainFrame (messageBytes Code.handshake2 1
      (echo ++ List.replicate zcHsSessionKeyLen 7)))), .cloudfuncRun .calm,
    .cloudRecvfunc .calm (some (plainFrame (messageBytes Code.handshake4 1 echo))),
    .cloudfuncRun .calm]

/-- A command of the cloud comes in and is handled. -/
def commanding (msgId : UInt8) : List Action :=
  [.cloudRecvfunc .calm (some (plainFrame (messageBytes Code.eventBase msgId []))),
    .cloudfuncRun .calm]

end ShuangFa
