import ShuangFa.Control.Invariant
import ShuangFa.Control.Messages

/-! # The receive buffer and its queue

What the receive thread and the handlers of cloud messages share, with the main state beside it. A
step of the firmware other than a reception leaves it alone, moves the main state on, clears it
with `MSG_Init`, or takes the message at the head of the queue and gives its buffer back.
-/

namespace ShuangFa

open Memory

structure Inbox where
  main : MainState
  buffer : MsgBuffer
  queue : MsgQueue msgQueueMaxLen BufPtr
  sending : MsgQueue msgQueueMaxLen BufPtr
  retransmit : Option BufPtr

def Sys.inbox (s : Sys) : Inbox :=
  ⟨s.con.u8MainState, s.recvBuffer, s.recvQueue, s.sendQueue, s.con.pu8SendMoudleBuffer⟩

namespace Inbox

/-- `u32Len = 0` and `MSG_BUFFER_IDLE` through a pointer. -/
def reset (inbox : Inbox) : BufPtr → Inbox
  | .recvBuffer => { inbox with buffer := inbox.buffer.reset }
  | _ => inbox

/-- After `MSG_Init`. -/
def cleared (inbox : Inbox) (main : MainState) : Inbox :=
  { inbox with
    main := main
    buffer := inbox.buffer.reset
    queue := msgInitQueue _ _
    sending := msgInitQueue _ _ }

/-- No pointer but the receive queue's leads to the receive buffer. -/
structure Private (inbox : Inbox) : Prop where
  sending : msgPopMsg inbox.sending = (none, inbox.sending)
  retransmit : inbox.retransmit ≠ some .recvBuffer

/-- The moves of the main state that leave messages in the queue. -/
def Moves (old new : MainState) : Prop :=
  old = new ∨ old.Early ∨ new = .accessNet ∨ (old = .connectCloud ∧ new = .waitUnbind)

/-- What a step other than a reception does. -/
inductive Step (inbox : Inbox) : Inbox → Prop
  | kept (main : MainState) : Moves inbox.main main → Step inbox { inbox with main := main }
  | cleared (main : MainState) : Step inbox (inbox.cleared main)
  | taken {pointer : BufPtr} {next : MsgQueue msgQueueMaxLen BufPtr} (main : MainState)
      (retransmit : Option BufPtr) : msgPopMsg inbox.queue = (some pointer, next) →
      retransmit = inbox.retransmit ∨ retransmit = some .retxBuffer →
      Step inbox ({ inbox with main := main, queue := next, retransmit := retransmit }.reset pointer)

variable {inbox : Inbox}

theorem Step.same : Step inbox inbox := .kept inbox.main (.inl rfl)

theorem Step.of_eq {next target : Inbox} (same : target = next) (step : Step inbox next) :
    Step inbox target := same ▸ step

@[simp] theorem cleared_reset (main : MainState) (pointer : BufPtr) :
    (inbox.cleared main).reset pointer = inbox.cleared main := by
  cases pointer <;> rfl

/-- What a handler does with the message it has taken, before it gives the buffer back. -/
inductive Handled (inbox : Inbox) (next : MsgQueue msgQueueMaxLen BufPtr) (handled : Inbox) : Prop
  | done (main : MainState) (retransmit : Option BufPtr) :
      handled = { inbox with main := main, queue := next, retransmit := retransmit } →
      retransmit = inbox.retransmit ∨ retransmit = some .retxBuffer → Handled inbox next handled
  | cleared (main : MainState) : handled = inbox.cleared main → Handled inbox next handled

theorem Step.of_handled {pointer : BufPtr} {next : MsgQueue msgQueueMaxLen BufPtr}
    {handled : Inbox} (popped : msgPopMsg inbox.queue = (some pointer, next))
    (handles : Handled inbox next handled) : Step inbox (handled.reset pointer) := by
  cases handles with
  | done main retransmit same sends =>
    rw [same]
    exact .taken main retransmit popped sends
  | cleared main same =>
    rw [same, cleared_reset]
    exact .cleared main

end Inbox

section Frames

variable (s : Sys)

@[simp] theorem inbox_hfSetTimer (u8Type : TimerType) (u32Interval : ℕ) (field : TimerField) :
    (hfSetTimer u8Type u32Interval field s).inbox = s.inbox := by
  rw [hfSetTimer]
  cases s.timers.timerFindIdleTimer with
  | none => rfl
  | some slot => cases field <;> rfl

@[simp] theorem inbox_timerStopTimer (via : Option TimerField) (slot : TimerIndex) :
    (timerStopTimer via slot s).inbox = s.inbox := rfl

@[simp] theorem inbox_stopHandle (via : TimerField) (handle : Option TimerIndex) :
    (stopHandle via handle s).inbox = s.inbox := by
  cases handle <;> rfl

@[simp] theorem inbox_timerStopUsed : (timerStopUsed s).inbox = s.inbox := by
  rw [timerStopUsed]
  generalize List.finRange 5 = slots
  induction slots generalizing s with
  | nil => rfl
  | cons slot rest ih =>
    rw [List.foldl_cons, ih]
    split_ifs <;> rfl

@[simp] theorem inbox_timerInit : (timerInit s).inbox = s.inbox := rfl

theorem OnlySends.inbox {s t : Sys} (only : OnlySends s t) : t.inbox = s.inbox := by
  obtain ⟨_, _, _, rfl⟩ := only
  rfl

@[simp] theorem inbox_call (call : AdapterCall) : (s.call call).inbox = s.inbox := rfl

@[simp] theorem inbox_writeFlash : s.writeFlash.inbox = s.inbox := rfl

@[simp] theorem inbox_resetUart : s.resetUart.inbox = s.inbox := rfl

@[simp] theorem inbox_resetBuffer (pointer : BufPtr) :
    (s.resetBuffer pointer).inbox = s.inbox.reset pointer := by
  cases pointer <;> rfl

variable (fw : Firmware) (env : Env)

@[simp] theorem inbox_pctSendNotifyMsg (u8NotifyCode : UInt8) :
    (pctSendNotifyMsg u8NotifyCode s).inbox = s.inbox := (pctSendNotifyMsg_onlySends ..).inbox

@[simp] theorem inbox_pctSendEmptyMsg (u8MsgId u8SecType : UInt8) :
    (pctSendEmptyMsg fw env u8MsgId u8SecType s).inbox = s.inbox :=
  (pctSendEmptyMsg_onlySends ..).inbox

@[simp] theorem inbox_pctSendErrorMsg (u8MsgId : UInt8) :
    (pctSendErrorMsg fw env u8MsgId s).inbox = s.inbox := (pctSendErrorMsg_onlySends ..).inbox

@[simp] theorem inbox_pctSendAckToCloud (u8MsgId : UInt8) :
    (pctSendAckToCloud fw env u8MsgId s).inbox = s.inbox := (pctSendAckToCloud_onlySends ..).inbox

/-- The state of an update is not part of the inbox. -/
theorem inbox_struOtaInfo (info : PtcOtaInfo) :
    { s with con := { s.con with struOtaInfo := info } }.inbox = s.inbox := rfl

@[simp] theorem inbox_otaFileBegin (pstruOta : View) : (otaFileBegin pstruOta s).inbox = s.inbox :=
  inbox_struOtaInfo s _

@[simp] theorem inbox_otaUpdate (pstruOta : View) (u32RecvOffset u32FileLen : ℕ) :
    (otaUpdate pstruOta u32RecvOffset u32FileLen s).inbox = s.inbox := inbox_call ..

@[simp] theorem inbox_otaAdvance (u32FileLen : ℕ) : (otaAdvance u32FileLen s).inbox = s.inbox :=
  inbox_struOtaInfo s _

@[simp] theorem inbox_pctDisConnectCloud :
    (pctDisConnectCloud s).inbox = s.inbox.cleared .disconnectCloud :=
  inbox_pctSendNotifyMsg ..

end Frames

section Controller

variable (fw : Firmware) (env : Env) (s : Sys)

open Inbox

theorem inbox_hfConnectToCloud : (hfConnectToCloud env s).2.inbox = s.inbox := by
  simp only [hfConnectToCloud]
  by_cases unresolved : s.zcConfigDb.struSwitchInfo.u32ServerAddrConfig ≠ 1 ∧ env.dns = false
  · rw [if_pos unresolved]
  · rw [if_neg unresolved]
    cases env.socket with
    | none => rfl
    | some fd => cases env.connected <;> rfl

theorem inbox_pctConnectCloud (main : s.con.u8MainState = .accessNet) :
    s.inbox.Step (pctConnectCloud env s).inbox := by
  have attempt := inbox_hfConnectToCloud env s
  have early : s.inbox.main.Early := by
    rw [show s.inbox.main = .accessNet from main]
    trivial
  rw [pctConnectCloud]
  by_cases pending : s.con.u8ReconnectTimer = none
  · rw [if_neg (not_not_intro pending)]
    rcases made : hfConnectToCloud env s with ⟨_ | _, connected⟩
    · rw [made] at attempt
      refine .of_eq ?_ (.kept .waitAccess (.inr (.inl early)))
      exact congrArg (fun inbox : Inbox => { inbox with main := .waitAccess }) attempt
    · rw [made] at attempt
      exact .of_eq attempt .same
  · rw [if_pos pending]
    exact .same

theorem inbox_pctSendCloudAccessMsg1 (main : s.con.u8MainState = .waitAccess) :
    s.inbox.Step (pctSendCloudAccessMsg1 fw env s).inbox := by
  have early : s.inbox.main.Early := by
    rw [show s.inbox.main = .waitAccess from main]
    trivial
  have stopped := inbox_stopHandle s .reconnect s.con.u8ReconnectTimer
  simp only [pctSendCloudAccessMsg1]
  generalize stopHandle .reconnect s.con.u8ReconnectTimer s = idle at stopped ⊢
  generalize eventBuildMsg Code.handshake1 1 _ = message
  have sent := (pctSendMsgToCloud_onlySends fw env ({ idle with con := { idle.con with
    u8ReconnectTimer := none } }.build message) zcSecAlgRsa 0x5A message).inbox.trans stopped
  generalize pctSendMsgToCloud fw env zcSecAlgRsa 0x5A message _ = result at sent ⊢
  split_ifs
  · rw [inbox_pctDisConnectCloud]
    exact .of_eq (congrArg (Inbox.cleared · .disconnectCloud) sent) (.cleared .disconnectCloud)
  · rw [inbox_hfSetTimer]
    refine .of_eq ?_ (.kept .waitAccessRsp (.inr (.inl early)))
    exact congrArg (fun inbox : Inbox => { inbox with main := .waitAccessRsp }) sent

theorem inbox_pctSendCloudAccessMsg3 : (pctSendCloudAccessMsg3 fw env s).inbox =
    { s.inbox with main := .waitMsg4 } := by
  simp only [pctSendCloudAccessMsg3]
  generalize eventBuildMsg Code.handshake3 1 _ = message
  have sent := (pctSendMsgToCloud_onlySends fw env ({ s with con := { s.con with
    u8keyRecv := true } }.build message) zcSecAlgAes env.u8Resver message).inbox
  generalize pctSendMsgToCloud fw env zcSecAlgAes env.u8Resver message _ = result at sent ⊢
  rw [inbox_hfSetTimer]
  exact congrArg (fun inbox : Inbox => { inbox with main := .waitMsg4 }) sent

theorem inbox_pctReconnectCloud (u32ReConnectTimer : ℕ) :
    s.inbox.Step (pctReconnectCloud u32ReConnectTimer s).inbox := by
  rw [pctReconnectCloud]
  by_cases pending : s.con.u8ReconnectTimer = none
  · rw [if_neg (not_not_intro pending)]
    have cleared : (timerInit (timerStopUsed s.msgInit)).inbox =
        s.inbox.cleared s.con.u8MainState := by
      rw [inbox_timerInit, inbox_timerStopUsed]
      rfl
    generalize timerInit (timerStopUsed s.msgInit) = stopped at cleared ⊢
    have armed := inbox_hfSetTimer { stopped with con := { stopped.con with
      u8ReconnectTimer := none
      u8SendMoudleTimer := none
      u8HeartTimer := none
      u8MainState := .init } } .reconnect u32ReConnectTimer .reconnect
    simp only
    generalize hfSetTimer .reconnect u32ReConnectTimer .reconnect { stopped with
      con := { stopped.con with
        u8ReconnectTimer := none
        u8SendMoudleTimer := none
        u8HeartTimer := none
        u8MainState := .init } } = u at armed ⊢
    refine .of_eq ?_ (.cleared .init)
    exact congrArg (fun inbox : Inbox => { inbox with main := .init }) (armed.trans
      (congrArg (fun inbox : Inbox => { inbox with main := .init }) cleared))
  · rw [if_pos pending]
    exact .same

/-- A retransmission leaves the receive buffer alone. -/
theorem inbox_pctSendMoudleTimeout {t : Sys} (private' : s.inbox.Private)
    (step : pctSendMoudleTimeout fw env s = some t) : t.inbox = s.inbox := by
  obtain ⟨pointer, names, rfl⟩ := Option.map_eq_some_iff.mp step
  have other : pointer ≠ .recvBuffer := by
    rintro rfl
    exact private'.retransmit names
  simp only
  split_ifs
  · rw [inbox_pctSendErrorMsg, inbox_pctSendEmptyMsg]
    cases pointer <;> first | rfl | exact absurd rfl other
  · rw [inbox_hfSetTimer, inbox_call]
    rfl

theorem inbox_pctHandleMoudleEvent {pu8Msg : View} {u16DataLen : ℕ} {t : Sys}
    (private' : s.inbox.Private)
    (step : pctHandleMoudleEvent fw env pu8Msg u16DataLen s = some t) : t.inbox = s.inbox := by
  obtain ⟨released, _, release, sent⟩ := pctHandleMoudleEvent_sends step
  rw [(pctSendMsgToCloud?_onlySends fw env sent).inbox]
  cases release with
  | kept => rfl
  | replied slot pointer _ _ names =>
    have other : pointer ≠ .recvBuffer := by
      rintro rfl
      exact private'.retransmit names
    rw [inbox_pctSendEmptyMsg]
    cases pointer <;> first | rfl | exact absurd rfl other

/-- Every outcome of the second handshake message gives its buffer back. -/
theorem inbox_pctRecvAccessMsg2 : s.inbox.Step (pctRecvAccessMsg2 fw env s).inbox := by
  rcases popped : msgPopMsg s.recvQueue with ⟨_ | pointer, next⟩
  · rw [pctRecvAccessMsg2, popped]
    exact .same
  · simp only [pctRecvAccessMsg2, popped, inbox_resetBuffer]
    refine Step.of_handled popped ?_
    generalize (s.buffer pointer).u8MsgBuffer.view env.beyond = message
    split_ifs
    · exact .cleared .disconnectCloud (inbox_pctDisConnectCloud _)
    · refine .done .waitMsg4 _ ?_ (.inl rfl)
      rw [inbox_pctSendCloudAccessMsg3]
      rfl
    · exact .cleared .disconnectCloud (inbox_pctDisConnectCloud _)
    · exact .cleared .disconnectCloud (inbox_pctDisConnectCloud _)
    · exact .done s.con.u8MainState _ rfl (.inl rfl)

/-- Every outcome of the fourth handshake message gives its buffer back. -/
theorem inbox_pctRecvAccessMsg4 : s.inbox.Step (pctRecvAccessMsg4 env s).inbox := by
  rcases popped : msgPopMsg s.recvQueue with ⟨_ | pointer, next⟩
  · rw [pctRecvAccessMsg4, popped]
    exact .same
  · simp only [pctRecvAccessMsg4, popped, inbox_hfSetTimer, inbox_stopHandle, inbox_resetBuffer]
    refine Step.of_handled popped ?_
    generalize (s.buffer pointer).u8MsgBuffer.view env.beyond = message
    split_ifs
    · exact .cleared .disconnectCloud (inbox_pctDisConnectCloud _)
    · refine .done .connectCloud _ ?_ (.inl rfl)
      rw [inbox_pctSendNotifyMsg]
      rfl
    · exact .cleared .disconnectCloud (inbox_pctDisConnectCloud _)
    · exact .done s.con.u8MainState _ rfl (.inl rfl)

/-- A message that comes while an unbinding is awaited gives its buffer back. -/
theorem inbox_pctHandleUnbindMsg : s.inbox.Step (pctHandleUnbindMsg env s).inbox := by
  rcases popped : msgPopMsg s.recvQueue with ⟨_ | pointer, next⟩
  · rw [pctHandleUnbindMsg, popped]
    exact .same
  · simp only [pctHandleUnbindMsg, popped, inbox_hfSetTimer, inbox_resetBuffer]
    refine Step.of_handled popped ?_
    split_ifs
    · refine .done .connectCloud _ ?_ (.inl rfl)
      cases s.con.u8SendUnbindTimer <;> rfl
    · exact .done s.con.u8MainState _ rfl (.inl rfl)

@[simp] theorem inbox_pctHandleOtaFileChunkMsg (pstruMsg : ZcMessageHead) (pstruOta : View) :
    (pctHandleOtaFileChunkMsg fw env pstruMsg pstruOta s).inbox = s.inbox := by
  simp only [pctHandleOtaFileChunkMsg]
  split_ifs
  · rw [inbox_pctSendErrorMsg]
  · rw [inbox_pctSendErrorMsg, inbox_otaUpdate]
  · rw [inbox_pctSendAckToCloud, inbox_otaAdvance, inbox_otaUpdate]

/-- Whether the module takes part in an update is not part of the inbox. -/
theorem inbox_u32StopJdTask (value : ℕ) : { s with u32StopJdTask := value }.inbox = s.inbox := rfl

@[simp] theorem inbox_pctHandleOtaEndMsg (msgId : UInt8) :
    (pctHandleOtaEndMsg fw env msgId s).inbox = s.inbox := by
  simp only [pctHandleOtaEndMsg]
  split_ifs
  · rw [inbox_pctSendErrorMsg, inbox_call]
  · rw [inbox_u32StopJdTask, inbox_call, inbox_pctSendNotifyMsg, inbox_pctSendAckToCloud,
      inbox_call]

/-- The command that is passed on stays in the retransmission buffer. -/
theorem inbox_pctHandleMoudleMsg (pstruBuffer : BufPtr) :
    (pctHandleMoudleMsg pstruBuffer s).inbox =
      { s.inbox with retransmit := some .retxBuffer } := by
  have armed := inbox_hfSetTimer s .sendMoudle pctTimerIntervalSendMoudle .sendMoudle
  simp only [pctHandleMoudleMsg, inbox_hfSetTimer, inbox_stopHandle, inbox_call]
  generalize hfSetTimer .sendMoudle pctTimerIntervalSendMoudle .sendMoudle s = armed' at armed ⊢
  exact congrArg (fun inbox : Inbox => { inbox with retransmit := some .retxBuffer }) armed

/-- What the switch on the code of a message does. -/
theorem inbox_pctDispatch (pstruMsg : ZcMessageHead) (payload : View) (pstruBuffer : BufPtr) :
    (pctDispatch fw env pstruMsg payload pstruBuffer s).inbox = s.inbox ∨
      (pctDispatch fw env pstruMsg payload pstruBuffer s).inbox =
        s.inbox.cleared .disconnectCloud ∨
      (pctDispatch fw env pstruMsg payload pstruBuffer s).inbox =
        { s.inbox with retransmit := some .retxBuffer } := by
  simp only [pctDispatch]
  split_ifs
  · left
    rw [pctHandleOtaBeginMsg, inbox_pctSendNotifyMsg, inbox_pctSendAckToCloud, inbox_u32StopJdTask]
  · left
    rw [pctHandleOtaFileBeginMsg, inbox_pctSendAckToCloud, inbox_otaFileBegin]
  · exact .inl (inbox_pctHandleOtaFileChunkMsg ..)
  · exact .inl (inbox_pctSendAckToCloud ..)
  · exact .inl (inbox_pctHandleOtaEndMsg ..)
  · left
    rw [pctSetTokenKey, inbox_pctSendAckToCloud, inbox_pctSendEmptyMsg, inbox_writeFlash]
    rfl
  · right
    left
    rw [pctResetNetWork, inbox_pctSendAckToCloud, inbox_pctSendEmptyMsg, inbox_pctDisConnectCloud]
    rfl
  · exact .inl rfl
  · exact .inr (.inr (inbox_pctHandleMoudleMsg s pstruBuffer))

/-- An iteration with a connected device starts an unbinding or handles a message. -/
theorem inbox_pctHandleEvent (main : s.con.u8MainState = .connectCloud) :
    s.inbox.Step (pctHandleEvent fw env s).inbox := by
  rw [pctHandleEvent]
  by_cases asked : s.zcConfigDb.struDeviceInfo.u32UnBindFlag = zcMagicFlag
  · rw [if_pos asked, pctSendUnbindMsg, inbox_hfSetTimer, (pctSendMsgToCloud_onlySends ..).inbox,
      inbox_stopHandle]
    exact .kept .waitUnbind (.inr (.inr (.inr ⟨main, rfl⟩)))
  rw [if_neg asked]
  rcases popped : msgPopMsg s.recvQueue with ⟨_ | pointer, next⟩
  · exact .same
  simp only [inbox_resetBuffer]
  refine Step.of_handled popped ?_
  generalize (s.buffer pointer).u8MsgBuffer.view env.beyond = message
  split_ifs
  · rw [inbox_pctSendErrorMsg, inbox_pctSendEmptyMsg]
    exact .done s.con.u8MainState _ rfl (.inl rfl)
  · rcases inbox_pctDispatch fw env { s with recvQueue := next } (ZcMessageHead.load message)
      (message.shift sizeofMessageHead) pointer with same | same | same
    · exact .done s.con.u8MainState _ same (.inl rfl)
    · exact .cleared .disconnectCloud same
    · exact .done s.con.u8MainState _ same (.inr rfl)

/-- `PCT_Run` in any main state. -/
theorem inbox_pctRun : s.inbox.Step (pctRun fw env s).inbox := by
  rw [pctRun]
  cases main : s.con.u8MainState with
  | sleep | init | disconnectCloud => exact .same
  | accessNet => exact inbox_pctConnectCloud env s main
  | waitAccess => exact inbox_pctSendCloudAccessMsg1 fw env s main
  | waitAccessRsp => exact inbox_pctRecvAccessMsg2 fw env s
  | waitMsg4 => exact inbox_pctRecvAccessMsg4 env s
  | connectCloud => exact inbox_pctHandleEvent fw env s main
  | waitUnbind => exact inbox_pctHandleUnbindMsg env s

/-- Every timeout action. -/
theorem inbox_timerTimeoutAction {slot : TimerIndex} {t : Sys} (private' : s.inbox.Private)
    (step : timerTimeoutAction fw env slot s = some t) : s.inbox.Step t.inbox := by
  have acts := timerTimeoutAction_cases step
  generalize (s.timers.struTimer slot).u8Type = type at acts
  cases acts with
  | reconnect => exact .kept .accessNet (.inr (.inr (.inl rfl)))
  | reaccess => exact .of_eq (inbox_pctDisConnectCloud s) (.cleared .disconnectCloud)
  | sendMoudle step => exact .of_eq (inbox_pctSendMoudleTimeout fw env s private' step) .same
  | sendHeart =>
    rw [pctSendHeartMsg, inbox_hfSetTimer, (pctSendMsgToCloud_onlySends ..).inbox]
    exact .same
  | register =>
    rw [inbox_pctSendNotifyMsg, inbox_hfSetTimer]
    exact .same
  | sendUbind =>
    rw [pctSendUnbindMsg, inbox_hfSetTimer, (pctSendMsgToCloud_onlySends ..).inbox]
    exact .same

end Controller

section Threads

variable (fw : Firmware) (env : Env) (s : Sys)

open Inbox

/-- The connections are not part of the inbox. -/
theorem inbox_connections (cloud client : PtcConnection) : { s with con := { s.con with
    struCloudConnection := cloud, struClientConnection := client } }.inbox = s.inbox := rfl

theorem inbox_pctSleep : (pctSleep s).inbox = s.inbox.cleared .init := by
  have cleared : (timerInit (timerStopUsed
      { s.msgInit with con := { s.con with u8keyRecv := false } })).inbox =
        s.inbox.cleared s.con.u8MainState := by
    rw [inbox_timerInit, inbox_timerStopUsed]
    rfl
  rw [pctSleep, inbox_pctSendNotifyMsg]
  generalize timerInit (timerStopUsed
    { s.msgInit with con := { s.con with u8keyRecv := false } }) = stopped at cleared ⊢
  exact congrArg (fun inbox : Inbox => { inbox with main := .init }) cleared

theorem inbox_closeSocket (u32Socket : ℕ) : (closeSocket u32Socket s).inbox = s.inbox := by
  rw [closeSocket]
  split_ifs
  · exact inbox_call ..
  · rfl

theorem inbox_hfSleep : (hfSleep s).inbox = s.inbox.cleared .init := by
  rw [hfSleep, inbox_resetUart, inbox_pctSleep, inbox_connections, inbox_closeSocket,
    inbox_closeSocket, inbox_call]

theorem inbox_pctWakeUp : s.inbox.Step (pctWakeUp s).inbox := by
  rw [pctWakeUp]
  split_ifs with main
  · have armed := inbox_hfSetTimer s .register pctTimerIntervalRegister .register
    refine .of_eq ?_ (.kept .accessNet (.inr (.inr (.inl rfl))))
    exact congrArg (fun inbox : Inbox => { inbox with main := .accessNet }) armed
  · exact .same

/-- The stored identity and configuration are not part of the inbox. -/
theorem inbox_stored (info : ZcRegisterInfo) (db : ZcConfigDb) :
    { s with registerInfo := info, zcConfigDb := db }.inbox = s.inbox := rfl

/-- A register message is answered or moves the main state on. -/
theorem inbox_registerAnswer (stored : Sys → Sys) (kept : (stored s).inbox = s.inbox) :
    s.inbox.Step (registerAnswer stored s).inbox := by
  rw [registerAnswer]
  split_ifs
  · rw [inbox_pctSendNotifyMsg]
    exact .same
  · rw [inbox_pctSendNotifyMsg]
    exact .same
  · generalize stored s = t at kept
    have moved := congrArg (fun inbox : Inbox => { inbox with main := .accessNet }) kept
    have stopped := inbox_stopHandle { t with con := { t.con with u8MainState := .accessNet } }
      .register s.con.u8RegisterTimer
    exact .of_eq (stopped.trans moved) (.kept .accessNet (.inr (.inr (.inl rfl))))

@[simp] theorem inbox_pctModuleOtaFileChunkMsg (pstruMsg : ZcMessageHead) (pu8Msg : View) :
    (pctModuleOtaFileChunkMsg env pstruMsg pu8Msg s).inbox = s.inbox := by
  simp only [pctModuleOtaFileChunkMsg]
  split_ifs
  · rw [inbox_pctSendNotifyMsg]
  · rw [inbox_pctSendNotifyMsg]
  · rw [inbox_pctSendNotifyMsg, inbox_otaUpdate]
  · rw [inbox_pctSendNotifyMsg, inbox_otaAdvance, inbox_otaUpdate]

@[simp] theorem inbox_pctModuleOtaFileEndMsg : (pctModuleOtaFileEndMsg env s).inbox = s.inbox := by
  simp only [pctModuleOtaFileEndMsg]
  split_ifs <;> rw [inbox_pctSendNotifyMsg, inbox_call]

/-- A message of the module. -/
theorem inbox_zcRecvDataFromMoudle {pu8Data : View} {u16DataLen : ℕ} {t : Sys}
    (private' : s.inbox.Private)
    (step : zcRecvDataFromMoudle fw env pu8Data u16DataLen s = some t) :
    s.inbox.Step t.inbox := by
  have quiet {u : Sys} (same : u.inbox = s.inbox) : s.inbox.Step u.inbox := .of_eq same .same
  cases zcRecvDataFromMoudle_cases step with
  | dropped => exact .same
  | registered => exact inbox_registerAnswer s _ (inbox_stored s _ _)
  | begun => exact quiet (inbox_pctSendNotifyMsg ..)
  | begunOnline => exact quiet ((inbox_pctSendNotifyMsg ..).trans (inbox_pctSendNotifyMsg ..))
  | fileBegun => exact quiet ((inbox_pctSendNotifyMsg ..).trans (inbox_otaFileBegin ..))
  | chunk => exact quiet (inbox_pctModuleOtaFileChunkMsg ..)
  | fileEnded =>
    exact quiet ((inbox_pctSendNotifyMsg ..).trans (inbox_pctModuleOtaFileEndMsg ..))
  | rested => exact quiet (inbox_call ..)
  | configured | unbound => exact quiet ((inbox_call ..).trans (inbox_stored ..))
  | unboundRested => exact quiet ((inbox_call ..).trans ((inbox_call ..).trans (inbox_stored ..)))
  | extended =>
    rw [zcDealExtCode]
    split_ifs
    · exact inbox_registerAnswer s _ (inbox_stored s _ _)
    · exact quiet (inbox_call ..)
    · exact .same
  | relayed _ event => exact quiet (inbox_pctHandleMoudleEvent fw env s private' event)
  | refused => exact quiet (inbox_pctSendNotifyMsg ..)

theorem inbox_hfTimerCallbackAction {slot : TimerIndex} {t : Sys} (private' : s.inbox.Private)
    (step : hfTimerCallbackAction fw env slot s = some t) : s.inbox.Step t.inbox := by
  rcases ite_eq_iff.mp step with ⟨_, step⟩ | ⟨_, step⟩
  · rcases ite_eq_iff.mp step with ⟨_, step⟩ | ⟨_, step⟩
    · cases step
      exact .same
    · obtain ⟨acted, action, rfl⟩ := Option.map_eq_some_iff.mp step
      have acts := inbox_timerTimeoutAction fw env { s with timers := s.timers.elapse slot } private'
        action
      exact acts
  · cases step
    exact .same

theorem inbox_hfTimerCallbackStop : (hfTimerCallbackStop s).inbox = s.inbox := by
  rw [hfTimerCallbackStop]
  cases s.callback <;> rfl

theorem inbox_hfTimerCallback {slot : TimerIndex} {t : Sys} (private' : s.inbox.Private)
    (step : hfTimerCallback fw env slot s = some t) : s.inbox.Step t.inbox := by
  rcases ite_eq_iff.mp step with ⟨_, step⟩ | ⟨_, step⟩
  · obtain ⟨acted, action, rfl⟩ := Option.map_eq_some_iff.mp step
    rw [inbox_hfTimerCallbackStop]
    exact inbox_hfTimerCallbackAction fw env s private' action
  · cases step
    exact .same

theorem inbox_hfCloudfuncRest (private' : s.inbox.Private) :
    s.inbox.Step (hfCloudfuncRest env s).inbox := by
  have broadcast (u : Sys) : (zcSendBc u).inbox = u.inbox := by
    rw [zcSendBc]
    split_ifs <;> rfl
  rw [hfCloudfuncRest, broadcast]
  by_cases main : s.con.u8MainState = .disconnectCloud
  · rw [if_pos main, inbox_resetUart]
    have closed := inbox_call s (.close s.cloudFd)
    generalize s.call (.close s.cloudFd) = u at closed ⊢
    rw [← closed]
    exact inbox_pctReconnectCloud u _
  · have empty : msgPopMsg s.sendQueue = (none, s.sendQueue) := private'.sending
    rw [if_neg main]
    simp only [msgSendDataToCloud, empty]
    exact .same

end Threads

end ShuangFa
