import ShuangFa.Control.Messages

/-! # The send buffer

A message to the cloud is built in the send buffer and is gone from it when `PCT_SendMsgToCloud`
returns, so the buffer is idle between any two steps of the firmware: no message is refused for
another one that is still in it.
-/

namespace ShuangFa

open Memory Machine

/-- What `g_struSendBuffer.u8Status` is. -/
def Sys.sendStatus (s : Sys) : BufferStatus := s.sendBuffer.u8Status

section Operations

variable (fw : Firmware) (env : Env) (s : Sys)

@[simp] theorem sendStatus_hfSetTimer (u8Type : TimerType) (u32Interval : ℕ) (field : TimerField) :
    (hfSetTimer u8Type u32Interval field s).sendStatus = s.sendStatus := by
  rw [hfSetTimer]
  cases s.timers.timerFindIdleTimer <;> rfl

@[simp] theorem sendStatus_timerStopTimer (via : Option TimerField) (slot : TimerIndex) :
    (timerStopTimer via slot s).sendStatus = s.sendStatus := rfl

@[simp] theorem sendStatus_stopHandle (via : TimerField) (handle : Option TimerIndex) :
    (stopHandle via handle s).sendStatus = s.sendStatus := by
  cases handle <;> rfl

@[simp] theorem sendStatus_timerStopUsed : (timerStopUsed s).sendStatus = s.sendStatus := by
  rw [timerStopUsed]
  generalize List.finRange 5 = slots
  induction slots generalizing s with
  | nil => rfl
  | cons slot rest ih =>
    rw [List.foldl_cons, ih]
    split_ifs <;> rfl

@[simp] theorem sendStatus_timerInit : (timerInit s).sendStatus = s.sendStatus := rfl

@[simp] theorem sendStatus_build (message : List UInt8) :
    (s.build message).sendStatus = s.sendStatus := rfl

@[simp] theorem sendStatus_call (call : AdapterCall) : (s.call call).sendStatus = s.sendStatus := rfl

theorem sendStatus_con (con : PtcProtocolCon) : { s with con := con }.sendStatus = s.sendStatus := rfl

theorem sendStatus_recvQueue (recvQueue : MsgQueue msgQueueMaxLen BufPtr) :
    { s with recvQueue := recvQueue }.sendStatus = s.sendStatus := rfl

theorem sendStatus_stored (info : ZcRegisterInfo) (db : ZcConfigDb) :
    { s with registerInfo := info, zcConfigDb := db }.sendStatus = s.sendStatus := rfl

theorem sendStatus_u32StopJdTask (value : ℕ) :
    { s with u32StopJdTask := value }.sendStatus = s.sendStatus := rfl

@[simp] theorem sendStatus_writeFlash : s.writeFlash.sendStatus = s.sendStatus := rfl

@[simp] theorem sendStatus_resetUart : s.resetUart.sendStatus = s.sendStatus := rfl

@[simp] theorem sendStatus_msgInit : s.msgInit.sendStatus = .idle := rfl

/-- A buffer that is given back leaves the send buffer idle. -/
theorem sendStatus_resetBuffer {s : Sys} (idle : s.sendStatus = .idle) (pointer : BufPtr) :
    (s.resetBuffer pointer).sendStatus = .idle := by
  cases pointer <;> first | exact idle | rfl

@[simp] theorem sendStatus_pctSendNotifyMsg (u8NotifyCode : UInt8) :
    (pctSendNotifyMsg u8NotifyCode s).sendStatus = s.sendStatus := by
  rw [pctSendNotifyMsg, sendStatus_call, sendStatus_build]

@[simp] theorem sendStatus_pctDisConnectCloud : (pctDisConnectCloud s).sendStatus = .idle := by
  rw [pctDisConnectCloud, sendStatus_pctSendNotifyMsg, sendStatus_msgInit]

/-- Whatever becomes of a message, the send buffer is what it was. -/
theorem sendStatus_pctSendMsgToCloud? {head : ZcSecHead} {pu8PlainData : View} {s t : Sys} {ret : Ret}
    (sent : pctSendMsgToCloud? fw env head pu8PlainData s = some (ret, t)) :
    t.sendStatus = s.sendStatus := by
  simp only [pctSendMsgToCloud?] at sent
  split_ifs at sent with _ idle <;> cases sent
  · rfl
  · rfl
  · exact idle.symm
  · rfl

@[simp] theorem sendStatus_pctSendMsgToCloud (u8SecType u8Resver : UInt8) (message : List UInt8) :
    (pctSendMsgToCloud fw env u8SecType u8Resver message s).2.sendStatus = s.sendStatus := by
  rw [pctSendMsgToCloud]
  rcases sent : pctSendMsgToCloud? fw env ⟨zcHtons message.length, u8SecType, u8Resver⟩
    (.ofList message) s with _ | ⟨ret, t⟩
  · rfl
  · exact sendStatus_pctSendMsgToCloud? fw env sent

@[simp] theorem sendStatus_pctSendEmptyMsg (u8MsgId u8SecType : UInt8) :
    (pctSendEmptyMsg fw env u8MsgId u8SecType s).sendStatus = s.sendStatus :=
  sendStatus_pctSendMsgToCloud ..

@[simp] theorem sendStatus_pctSendErrorMsg (u8MsgId : UInt8) :
    (pctSendErrorMsg fw env u8MsgId s).sendStatus = s.sendStatus := sendStatus_pctSendMsgToCloud ..

@[simp] theorem sendStatus_pctSendAckToCloud (u8MsgId : UInt8) :
    (pctSendAckToCloud fw env u8MsgId s).sendStatus = s.sendStatus := sendStatus_pctSendMsgToCloud ..

@[simp] theorem sendStatus_pctSendHeartMsg : (pctSendHeartMsg fw env s).sendStatus = s.sendStatus := by
  rw [pctSendHeartMsg, sendStatus_hfSetTimer, sendStatus_pctSendMsgToCloud]

@[simp] theorem sendStatus_pctSendUnbindMsg :
    (pctSendUnbindMsg fw env s).sendStatus = s.sendStatus := by
  rw [pctSendUnbindMsg, sendStatus_hfSetTimer, sendStatus_pctSendMsgToCloud]

theorem sendStatus_msgSendDataToCloud {s : Sys} (idle : s.sendStatus = .idle) :
    (msgSendDataToCloud s).sendStatus = .idle := by
  rw [msgSendDataToCloud]
  rcases msgPopMsg s.sendQueue with ⟨_ | pointer, next⟩
  · exact idle
  · refine sendStatus_resetBuffer ?_ pointer
    exact idle

@[simp] theorem sendStatus_zcSendBc : (zcSendBc s).sendStatus = s.sendStatus := by
  simp only [zcSendBc]
  split_ifs
  · rfl
  · rfl
  · rw [sendStatus_call]
    exact sendStatus_build s (eventBuildBcMsg s)
  · exact sendStatus_build s (eventBuildBcMsg s)

end Operations

section Controller

variable (fw : Firmware) (env : Env) {s : Sys}

theorem sendStatus_hfConnectToCloud (s : Sys) :
    (hfConnectToCloud env s).2.sendStatus = s.sendStatus := by
  rw [hfConnectToCloud]
  by_cases unresolved : s.zcConfigDb.struSwitchInfo.u32ServerAddrConfig ≠ 1 ∧ env.dns = false
  · rw [if_pos unresolved]
  · rw [if_neg unresolved]
    cases env.socket with
    | none => rfl
    | some fd => cases env.connected <;> rfl

theorem sendStatus_pctConnectCloud (idle : s.sendStatus = .idle) :
    (pctConnectCloud env s).sendStatus = .idle := by
  have attempt := (sendStatus_hfConnectToCloud env s).trans idle
  rw [pctConnectCloud]
  by_cases pending : s.con.u8ReconnectTimer = none
  · rw [if_neg (not_not_intro pending)]
    rcases made : hfConnectToCloud env s with ⟨_ | _, connected⟩ <;> rw [made] at attempt <;>
      exact attempt
  · rw [if_pos pending]
    exact idle

theorem sendStatus_pctSendCloudAccessMsg1 (idle : s.sendStatus = .idle) :
    (pctSendCloudAccessMsg1 fw env s).sendStatus = .idle := by
  simp only [pctSendCloudAccessMsg1]
  split_ifs
  · exact sendStatus_pctDisConnectCloud _
  · rw [sendStatus_hfSetTimer]
    refine (sendStatus_pctSendMsgToCloud fw env _ _ _ _).trans ?_
    exact (sendStatus_stopHandle s _ _).trans idle

@[simp] theorem sendStatus_pctSendCloudAccessMsg3 (s : Sys) :
    (pctSendCloudAccessMsg3 fw env s).sendStatus = s.sendStatus := by
  rw [pctSendCloudAccessMsg3, sendStatus_hfSetTimer]
  exact (sendStatus_pctSendMsgToCloud fw env _ _ _ _).trans (sendStatus_build _ _)

theorem sendStatus_pctReconnectCloud (idle : s.sendStatus = .idle) (u32ReConnectTimer : ℕ) :
    (pctReconnectCloud u32ReConnectTimer s).sendStatus = .idle := by
  rw [pctReconnectCloud]
  by_cases pending : s.con.u8ReconnectTimer = none
  · rw [if_neg (not_not_intro pending)]
    have cleared : (timerInit (timerStopUsed s.msgInit)).sendStatus = .idle := by
      rw [sendStatus_timerInit, sendStatus_timerStopUsed, sendStatus_msgInit]
    generalize timerInit (timerStopUsed s.msgInit) = stopped at cleared ⊢
    exact (sendStatus_hfSetTimer { stopped with con := { stopped.con with
      u8ReconnectTimer := none
      u8SendMoudleTimer := none
      u8HeartTimer := none
      u8MainState := .init } } .reconnect u32ReConnectTimer .reconnect).trans cleared
  · rw [if_pos pending]
    exact idle

theorem sendStatus_pctSendMoudleTimeout {t : Sys} (idle : s.sendStatus = .idle)
    (step : pctSendMoudleTimeout fw env s = some t) : t.sendStatus = .idle := by
  obtain ⟨pointer, _, rfl⟩ := Option.map_eq_some_iff.mp step
  simp only
  split_ifs
  · rw [sendStatus_pctSendErrorMsg, sendStatus_pctSendEmptyMsg]
    cases pointer <;> first | exact idle | rfl
  · rw [sendStatus_hfSetTimer, sendStatus_call]
    exact idle

theorem sendStatus_pctHandleMoudleEvent {pu8Msg : View} {u16DataLen : ℕ} {t : Sys}
    (idle : s.sendStatus = .idle)
    (step : pctHandleMoudleEvent fw env pu8Msg u16DataLen s = some t) : t.sendStatus = .idle := by
  obtain ⟨released, _, release, sent⟩ := pctHandleMoudleEvent_sends step
  rw [sendStatus_pctSendMsgToCloud? fw env sent]
  cases release with
  | kept => exact idle
  | replied slot pointer =>
    rw [sendStatus_pctSendEmptyMsg]
    cases pointer <;> first | exact idle | rfl

theorem sendStatus_pctRecvAccessMsg2 (idle : s.sendStatus = .idle) :
    (pctRecvAccessMsg2 fw env s).sendStatus = .idle := by
  rw [pctRecvAccessMsg2]
  rcases msgPopMsg s.recvQueue with ⟨_ | pointer, next⟩
  · exact idle
  · refine sendStatus_resetBuffer ?_ pointer
    generalize (s.buffer pointer).u8MsgBuffer.view env.beyond = message
    split_ifs
    · exact sendStatus_pctDisConnectCloud _
    · rw [sendStatus_pctSendCloudAccessMsg3]
      exact idle
    · exact sendStatus_pctDisConnectCloud _
    · exact sendStatus_pctDisConnectCloud _
    · exact idle

theorem sendStatus_pctRecvAccessMsg4 (idle : s.sendStatus = .idle) :
    (pctRecvAccessMsg4 env s).sendStatus = .idle := by
  rw [pctRecvAccessMsg4]
  rcases msgPopMsg s.recvQueue with ⟨_ | pointer, next⟩
  · exact idle
  · simp only [sendStatus_hfSetTimer, sendStatus_stopHandle]
    refine sendStatus_resetBuffer ?_ pointer
    split_ifs
    · exact sendStatus_pctDisConnectCloud _
    · exact idle
    · exact sendStatus_pctDisConnectCloud _
    · exact idle

theorem sendStatus_pctHandleUnbindMsg (idle : s.sendStatus = .idle) :
    (pctHandleUnbindMsg env s).sendStatus = .idle := by
  rw [pctHandleUnbindMsg]
  rcases msgPopMsg s.recvQueue with ⟨_ | pointer, next⟩
  · exact idle
  · simp only [sendStatus_hfSetTimer]
    refine sendStatus_resetBuffer ?_ pointer
    split_ifs
    · exact (sendStatus_stopHandle { s with recvQueue := next } .sendUnbind
        s.con.u8SendUnbindTimer).trans idle
    · exact idle

@[simp] theorem sendStatus_pctHandleMoudleMsg (s : Sys) (pstruBuffer : BufPtr) :
    (pctHandleMoudleMsg pstruBuffer s).sendStatus = s.sendStatus := by
  simp only [pctHandleMoudleMsg, sendStatus_hfSetTimer, sendStatus_stopHandle, sendStatus_call]
  exact sendStatus_hfSetTimer s .sendMoudle pctTimerIntervalSendMoudle .sendMoudle

theorem sendStatus_pctHandleOtaFileChunkMsg (s : Sys) (pstruMsg : ZcMessageHead) (pstruOta : View) :
    (pctHandleOtaFileChunkMsg fw env pstruMsg pstruOta s).sendStatus = s.sendStatus := by
  simp only [pctHandleOtaFileChunkMsg]
  split_ifs
  · rw [sendStatus_pctSendErrorMsg]
  · rw [sendStatus_pctSendErrorMsg, otaUpdate, sendStatus_call]
  · rw [sendStatus_pctSendAckToCloud, otaAdvance, sendStatus_con, otaUpdate, sendStatus_call]

theorem sendStatus_pctHandleOtaEndMsg (s : Sys) (msgId : UInt8) :
    (pctHandleOtaEndMsg fw env msgId s).sendStatus = s.sendStatus := by
  simp only [pctHandleOtaEndMsg]
  split_ifs
  · rw [sendStatus_pctSendErrorMsg, sendStatus_call]
  · rw [sendStatus_u32StopJdTask, sendStatus_call, sendStatus_pctSendNotifyMsg,
      sendStatus_pctSendAckToCloud, sendStatus_call]

theorem sendStatus_pctDispatch (idle : s.sendStatus = .idle) (pstruMsg : ZcMessageHead)
    (payload : View) (pstruBuffer : BufPtr) :
    (pctDispatch fw env pstruMsg payload pstruBuffer s).sendStatus = .idle := by
  simp only [pctDispatch]
  split_ifs
  · rw [pctHandleOtaBeginMsg, sendStatus_pctSendNotifyMsg, sendStatus_pctSendAckToCloud,
      sendStatus_u32StopJdTask, idle]
  · rw [pctHandleOtaFileBeginMsg, sendStatus_pctSendAckToCloud, otaFileBegin, sendStatus_con, idle]
  · rw [sendStatus_pctHandleOtaFileChunkMsg, idle]
  · rw [pctHandleOtaFileEndMsg, sendStatus_pctSendAckToCloud, idle]
  · rw [sendStatus_pctHandleOtaEndMsg, idle]
  · rw [pctSetTokenKey, sendStatus_pctSendAckToCloud, sendStatus_pctSendEmptyMsg,
      sendStatus_writeFlash]
    exact (sendStatus_stored s s.registerInfo _).trans idle
  · rw [pctResetNetWork, sendStatus_pctSendAckToCloud, sendStatus_pctSendEmptyMsg,
      sendStatus_pctDisConnectCloud]
  · exact idle
  · rw [sendStatus_pctHandleMoudleMsg, idle]

theorem sendStatus_pctHandleEvent (idle : s.sendStatus = .idle) :
    (pctHandleEvent fw env s).sendStatus = .idle := by
  rw [pctHandleEvent]
  by_cases asked : s.zcConfigDb.struDeviceInfo.u32UnBindFlag = zcMagicFlag
  · rw [if_pos asked, sendStatus_pctSendUnbindMsg, sendStatus_stopHandle]
    exact idle
  rw [if_neg asked]
  rcases msgPopMsg s.recvQueue with ⟨_ | pointer, next⟩
  · exact idle
  refine sendStatus_resetBuffer ?_ pointer
  split_ifs
  · rw [sendStatus_pctSendErrorMsg, sendStatus_pctSendEmptyMsg, sendStatus_recvQueue, idle]
  · have popped : { s with recvQueue := next }.sendStatus = .idle := idle
    exact sendStatus_pctDispatch fw env popped ..

/-- `PCT_Run` in any main state. -/
theorem sendStatus_pctRun (idle : s.sendStatus = .idle) : (pctRun fw env s).sendStatus = .idle := by
  rw [pctRun]
  cases s.con.u8MainState with
  | sleep | init | disconnectCloud => exact idle
  | accessNet => exact sendStatus_pctConnectCloud env idle
  | waitAccess => exact sendStatus_pctSendCloudAccessMsg1 fw env idle
  | waitAccessRsp => exact sendStatus_pctRecvAccessMsg2 fw env idle
  | waitMsg4 => exact sendStatus_pctRecvAccessMsg4 env idle
  | connectCloud => exact sendStatus_pctHandleEvent fw env idle
  | waitUnbind => exact sendStatus_pctHandleUnbindMsg env idle

/-- Every timeout action. -/
theorem sendStatus_timerTimeoutAction {slot : TimerIndex} {t : Sys} (idle : s.sendStatus = .idle)
    (step : timerTimeoutAction fw env slot s = some t) : t.sendStatus = .idle := by
  have acts := timerTimeoutAction_cases step
  generalize (s.timers.struTimer slot).u8Type = type at acts
  cases acts with
  | reconnect => exact idle
  | reaccess => exact sendStatus_pctDisConnectCloud s
  | sendMoudle step => exact sendStatus_pctSendMoudleTimeout fw env idle step
  | sendHeart => rw [sendStatus_pctSendHeartMsg, idle]
  | register => rw [sendStatus_pctSendNotifyMsg, sendStatus_hfSetTimer, idle]
  | sendUbind => rw [sendStatus_pctSendUnbindMsg, idle]

end Controller

section Threads

variable (fw : Firmware) (env : Env) {s t : Sys}

theorem sendStatus_pctSleep (s : Sys) : (pctSleep s).sendStatus = .idle := by
  have cleared : (timerInit (timerStopUsed
      { s.msgInit with con := { s.con with u8keyRecv := false } })).sendStatus = .idle := by
    rw [sendStatus_timerInit, sendStatus_timerStopUsed]
    rfl
  rw [pctSleep, sendStatus_pctSendNotifyMsg]
  generalize timerInit (timerStopUsed
    { s.msgInit with con := { s.con with u8keyRecv := false } }) = stopped at cleared ⊢
  exact cleared

theorem sendStatus_pctWakeUp (idle : s.sendStatus = .idle) : (pctWakeUp s).sendStatus = .idle := by
  rw [pctWakeUp]
  split_ifs
  · rw [sendStatus_con, sendStatus_pctSendNotifyMsg, sendStatus_con, sendStatus_hfSetTimer, idle]
  · exact idle

theorem sendStatus_hfTimerCallbackAction {slot : TimerIndex} (idle : s.sendStatus = .idle)
    (step : hfTimerCallbackAction fw env slot s = some t) : t.sendStatus = .idle := by
  rcases ite_eq_iff.mp step with ⟨_, step⟩ | ⟨_, step⟩
  · rcases ite_eq_iff.mp step with ⟨_, step⟩ | ⟨_, step⟩
    · cases step
      exact idle
    · obtain ⟨acted, action, rfl⟩ := Option.map_eq_some_iff.mp step
      have elapsed : { s with timers := s.timers.elapse slot }.sendStatus = .idle := idle
      have acts : acted.sendStatus = .idle := sendStatus_timerTimeoutAction fw env elapsed action
      exact acts
  · cases step
    exact idle

theorem sendStatus_hfTimerCallbackStop (s : Sys) :
    (hfTimerCallbackStop s).sendStatus = s.sendStatus := by
  rw [hfTimerCallbackStop]
  cases s.callback <;> rfl

theorem sendStatus_hfTimerCallback {slot : TimerIndex} (idle : s.sendStatus = .idle)
    (step : hfTimerCallback fw env slot s = some t) : t.sendStatus = .idle := by
  rcases ite_eq_iff.mp step with ⟨_, step⟩ | ⟨_, step⟩
  · obtain ⟨acted, action, rfl⟩ := Option.map_eq_some_iff.mp step
    rw [sendStatus_hfTimerCallbackStop]
    exact sendStatus_hfTimerCallbackAction fw env idle action
  · cases step
    exact idle

theorem sendStatus_msgRecvDataFromCloud {pu8Data : List UInt8} (idle : s.sendStatus = .idle)
    (step : msgRecvDataFromCloud fw env pu8Data s = some t) : t.sendStatus = .idle := by
  obtain ⟨recvBuffer, recvQueue, msgBuildBuffer, rfl⟩ := msgRecvDataFromCloud_changes step
  exact idle

theorem sendStatus_hfCloudRecvfunc {received : Option (List UInt8)} (idle : s.sendStatus = .idle)
    (step : hfCloudRecvfunc fw env received s = some t) : t.sendStatus = .idle := by
  rcases hfCloudRecvfunc_cases step with ⟨_, _, rfl⟩ | ⟨pu8Data, step⟩ | rfl
  · exact sendStatus_pctDisConnectCloud s
  · exact sendStatus_msgRecvDataFromCloud fw env idle step
  · exact idle

theorem sendStatus_hfCloudfuncRest (idle : s.sendStatus = .idle) :
    (hfCloudfuncRest env s).sendStatus = .idle := by
  rw [hfCloudfuncRest, sendStatus_zcSendBc]
  by_cases main : s.con.u8MainState = .disconnectCloud
  · rw [if_pos main, sendStatus_resetUart]
    exact sendStatus_pctReconnectCloud ((sendStatus_call s _).trans idle) _
  · rw [if_neg main]
    exact sendStatus_msgSendDataToCloud idle

theorem sendStatus_hfSleep (s : Sys) : (hfSleep s).sendStatus = .idle := by
  rw [hfSleep, sendStatus_resetUart, sendStatus_pctSleep]

theorem sendStatus_registerAnswer {stored : Sys → Sys} (idle : s.sendStatus = .idle)
    (kept : (stored s).sendStatus = s.sendStatus) : (registerAnswer stored s).sendStatus = .idle := by
  rw [registerAnswer]
  split_ifs
  · rw [sendStatus_pctSendNotifyMsg, idle]
  · rw [sendStatus_pctSendNotifyMsg, idle]
  · rw [sendStatus_con, sendStatus_stopHandle, sendStatus_con, kept, idle]

theorem sendStatus_pctModuleOtaFileChunkMsg (s : Sys) (pstruMsg : ZcMessageHead) (pu8Msg : View) :
    (pctModuleOtaFileChunkMsg env pstruMsg pu8Msg s).sendStatus = s.sendStatus := by
  simp only [pctModuleOtaFileChunkMsg]
  split_ifs
  · rw [sendStatus_pctSendNotifyMsg]
  · rw [sendStatus_pctSendNotifyMsg]
  · rw [sendStatus_pctSendNotifyMsg, otaUpdate, sendStatus_call]
  · rw [sendStatus_pctSendNotifyMsg, otaAdvance, sendStatus_con, otaUpdate, sendStatus_call]

theorem sendStatus_pctModuleOtaFileEndMsg (s : Sys) :
    (pctModuleOtaFileEndMsg env s).sendStatus = s.sendStatus := by
  simp only [pctModuleOtaFileEndMsg]
  split_ifs <;> rw [sendStatus_pctSendNotifyMsg, sendStatus_call]

/-- A message of the module. -/
theorem sendStatus_zcRecvDataFromMoudle {pu8Data : View} {u16DataLen : ℕ}
    (idle : s.sendStatus = .idle)
    (step : zcRecvDataFromMoudle fw env pu8Data u16DataLen s = some t) : t.sendStatus = .idle := by
  have stored (db : ZcConfigDb) : { s with zcConfigDb := db }.writeFlash.sendStatus = .idle :=
    (sendStatus_writeFlash _).trans ((sendStatus_stored s s.registerInfo db).trans idle)
  cases zcRecvDataFromMoudle_cases step with
  | dropped => exact idle
  | registered => exact sendStatus_registerAnswer idle (sendStatus_stored s _ s.zcConfigDb)
  | begun | refused => rw [sendStatus_pctSendNotifyMsg, idle]
  | begunOnline => rw [sendStatus_pctSendNotifyMsg, sendStatus_pctSendNotifyMsg, idle]
  | fileBegun =>
    rw [pctModuleOtaFileBeginMsg, sendStatus_pctSendNotifyMsg, otaFileBegin, sendStatus_con, idle]
  | chunk => rw [sendStatus_pctModuleOtaFileChunkMsg, idle]
  | fileEnded => rw [sendStatus_pctSendNotifyMsg, sendStatus_pctModuleOtaFileEndMsg, idle]
  | rested => rw [sendStatus_call, idle]
  | configured | unbound => exact stored _
  | unboundRested => exact (sendStatus_call _ _).trans (stored _)
  | extended =>
    rw [zcDealExtCode]
    split_ifs
    · exact sendStatus_registerAnswer idle (sendStatus_stored s _ s.zcConfigDb)
    · rw [sendStatus_call, idle]
    · exact idle
  | relayed _ event => exact sendStatus_pctHandleMoudleEvent fw env idle event

/-- Every step of the firmware leaves the send buffer idle. -/
theorem sendStatus_step {a : Action} (idle : s.sendStatus = .idle)
    (step : (firmware fw).step? s a = some t) : t.sendStatus = .idle := by
  cases a with
  | cloudfuncRun env =>
    cases step
    exact sendStatus_pctRun fw env idle
  | cloudfuncRest env =>
    cases step
    exact sendStatus_hfCloudfuncRest env idle
  | recvDataFromCloud env pu8Data => exact sendStatus_msgRecvDataFromCloud fw env idle step
  | cloudRecvfunc env received => exact sendStatus_hfCloudRecvfunc fw env idle step
  | timerCallback env slot => exact sendStatus_hfTimerCallback fw env idle step
  | timerAction env slot => exact sendStatus_hfTimerCallbackAction fw env idle step
  | timerStop =>
    cases step
    rw [sendStatus_hfTimerCallbackStop, idle]
  | moudleEvent env pu8Msg u16DataLen => exact sendStatus_pctHandleMoudleEvent fw env idle step
  | recvDataFromMoudle env pu8Data u16DataLen =>
    exact sendStatus_zcRecvDataFromMoudle fw env idle step
  | disConnectCloud =>
    cases step
    exact sendStatus_pctDisConnectCloud s
  | reconnectCloud u32ReConnectTimer =>
    cases step
    exact sendStatus_pctReconnectCloud idle u32ReConnectTimer
  | sleep =>
    cases step
    exact sendStatus_pctSleep s
  | hfSleep =>
    cases step
    exact sendStatus_hfSleep s
  | hfWakeUp =>
    cases step
    exact sendStatus_pctWakeUp idle

/-- The send buffer is idle in every state of every run. -/
theorem sendStatus_replay {flash : Option ZcConfigDb} {registerInfo : ZcRegisterInfo}
    {tape : List Action} (reached : (firmware fw).replay? (hfInit flash registerInfo) tape = some s) :
    s.sendStatus = .idle :=
  PartialMachine.invariant_replay? (C := fun _ _ => True) (I := fun s => s.sendStatus = .idle)
    (fun _ _ _ idle _ step => sendStatus_step fw idle step) rfl (.of_forall fun _ _ _ => trivial)
    reached

end Threads

end ShuangFa
