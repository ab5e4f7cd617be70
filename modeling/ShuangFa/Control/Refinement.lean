import ShuangFa.Control.Invariant
import ShuangFa.Control.Messages
import ShuangFa.Machine.Simulation

/-! # The firmware's steps are transitions of the control state

Each handler is followed through its branches once; what it does to the control state is one of the
transitions, and a label that stands for more than the control state shows says which action caused
it. Everything later sections prove about main states, handles and timer slots is proved of the
transitions.
-/

namespace ShuangFa

open Memory SlotPool Machine

section Controller

variable (fw : Firmware) (env : Env) (s : Sys)

@[simp] theorem ctl_pctDisConnectCloud : (pctDisConnectCloud s).ctl = s.ctl.disconnected :=
  ctl_pctSendNotifyMsg _ _

/-- The first handshake message is sent or the connection is given up. -/
theorem step_pctSendCloudAccessMsg1 (main : s.con.u8MainState = .waitAccess) :
    s.ctl.Step .access1 (pctSendCloudAccessMsg1 fw env s).ctl := by
  have stopped : { s.ctl.stopHandle .reconnect s.ctl.reconnect with reconnect := none } =
      { (stopHandle .reconnect s.con.u8ReconnectTimer s).ctl with reconnect := none } := by
    rw [ctl_stopHandle]
    rfl
  simp only [pctSendCloudAccessMsg1]
  split_ifs with failed
  · convert Ctl.Step.access1Failed (c := s.ctl) main using 1
    rw [ctl_pctDisConnectCloud, (pctSendMsgToCloud_onlySends ..).ctl, stopped]
    rfl
  · convert Ctl.Step.access1Sent (c := s.ctl) main using 1
    rw [ctl_hfSetTimer, (pctSendMsgToCloud_onlySends ..).ctl_main]
    exact congrArg (fun c : Ctl => { c with main := .waitAccessRsp }.set .reaccess .access)
      stopped.symm

theorem ctl_pctSendCloudAccessMsg3 : (pctSendCloudAccessMsg3 fw env s).ctl =
    { s.ctl with keyRecv := true, main := .waitMsg4 }.set .reaccess .access := by
  simp only [pctSendCloudAccessMsg3]
  rw [ctl_hfSetTimer, (pctSendMsgToCloud_onlySends ..).ctl_main]
  rfl

theorem ctl_hfConnectToCloud : (hfConnectToCloud env s).2.ctl =
    if (hfConnectToCloud env s).1 = .ok then { s.ctl with
      session := { s.ctl.session with randMsg := zcRand env.rand } } else s.ctl := by
  simp only [hfConnectToCloud]
  by_cases unresolved : s.zcConfigDb.struSwitchInfo.u32ServerAddrConfig ≠ 1 ∧ env.dns = false
  · rw [if_pos unresolved]
    rfl
  · rw [if_neg unresolved]
    cases env.socket with
    | none => rfl
    | some fd => cases env.connected <;> rfl

/-- A connection is made, or the next iteration tries again. -/
theorem ctl_pctConnectCloud (main : s.con.u8MainState = .accessNet) :
    (pctConnectCloud env s).ctl = if connects env s then { s.ctl with
      main := .waitAccess, keyRecv := false
      session := { s.ctl.session with randMsg := zcRand env.rand } } else s.ctl := by
  have attempt := ctl_hfConnectToCloud env s
  by_cases pending : s.con.u8ReconnectTimer = none
  · rw [pctConnectCloud, if_neg (not_not_intro pending)]
    rcases made : hfConnectToCloud env s with ⟨_ | _, t⟩
    · rw [if_pos ⟨main, pending, congrArg Prod.fst made⟩]
      rw [made, if_pos rfl] at attempt
      exact congrArg (fun c : Ctl => { c with main := .waitAccess, keyRecv := false }) attempt
    · have failed : ¬ connects env s := fun ⟨_, _, ok⟩ => by simp [made] at ok
      rw [if_neg failed]
      rw [made, if_neg nofun] at attempt
      exact attempt
  · rw [pctConnectCloud, if_pos pending, if_neg fun connected => pending connected.2.1]

theorem ctl_pctReconnectCloud (u32ReConnectTimer : ℕ) :
    (pctReconnectCloud u32ReConnectTimer s).ctl =
      if s.con.u8ReconnectTimer = none then s.ctl.reconnected else s.ctl := by
  by_cases pending : s.con.u8ReconnectTimer = none
  · have cleared : (timerInit (timerStopUsed s.msgInit)).ctl = s.ctl.clear :=
      ctl_timerInit_stopUsed _
    rw [pctReconnectCloud, if_neg (not_not_intro pending), if_pos pending, Ctl.reconnected,
      ← cleared]
    generalize timerInit (timerStopUsed s.msgInit) = stopped
    have armed := ctl_hfSetTimer { stopped with con := { stopped.con with
      u8ReconnectTimer := none
      u8SendMoudleTimer := none
      u8HeartTimer := none
      u8MainState := .init } } .reconnect u32ReConnectTimer .reconnect
    exact congrArg (fun c : Ctl => { c with keyRecv := false, main := .init }) armed
  · rw [pctReconnectCloud, if_pos pending, if_neg pending]

/-- A retransmission arms the timer again, the end of them gives the command up. -/
theorem timeout_pctSendMoudleTimeout {t : Sys} (step : pctSendMoudleTimeout fw env s = some t) :
    ∃ again, s.ctl.Timeout .sendMoudle again t.ctl ∧
      (again = true → (s.con.u8ReSendMoudleNum + 1) % 2 ^ 8 ≤ pctSendMoudleNum) := by
  obtain ⟨pointer, _, rfl⟩ := Option.map_eq_some_iff.mp step
  simp only
  split_ifs with last
  · refine ⟨false, ?_, nofun⟩
    convert Ctl.Timeout.givenUp s.ctl using 1
    rw [ctl_pctSendErrorMsg, ctl_pctSendEmptyMsg]
    cases pointer <;> rfl
  · refine ⟨true, ?_, fun _ => Nat.le_of_not_lt last⟩
    convert Ctl.Timeout.sendMoudle s.ctl using 1
    exact ctl_hfSetTimer _ _ _ _

/-- A message of the module ends the command that is being sent, if it is a reply. -/
theorem step_pctHandleMoudleEvent {pu8Msg : View} {u16DataLen : ℕ} {t : Sys}
    (step : pctHandleMoudleEvent fw env pu8Msg u16DataLen s = some t) :
    s.ctl.Step .stay t.ctl ∨ s.ctl.Step .reply t.ctl ∧ isReply pu8Msg s := by
  obtain ⟨released, _, release, sent⟩ := pctHandleMoudleEvent_sends step
  rw [(pctSendMsgToCloud?_onlySends fw env sent).ctl]
  cases release with
  | kept => exact .inl .stay
  | replied slot pointer named reply =>
    right
    refine ⟨?_, reply⟩
    rw [ctl_pctSendEmptyMsg, ctl_releasedMoudle]
    exact .reply named

/-- What the controller makes of a message while it waits for the second handshake message. -/
theorem access2_pctRecvAccessMsg2 :
    s.ctl.Access2 (acceptedKey env s) (pctRecvAccessMsg2 fw env s).ctl := by
  rcases popped : msgPopMsg s.recvQueue with ⟨_ | pointer, next⟩
  · have nothing : acceptedKey env s = none := by simp [acceptedKey, takenMessage, popped]
    rw [pctRecvAccessMsg2, popped, nothing]
    exact .ignored
  · have taken : takenMessage env s = some ((s.buffer pointer).u8MsgBuffer.view env.beyond) := by
      simp [takenMessage, popped]
    simp only [pctRecvAccessMsg2, popped, ctl_resetBuffer]
    generalize (s.buffer pointer).u8MsgBuffer.view env.beyond = message at taken ⊢
    have refused (fails : ¬ echoes s Code.handshake2 message) : acceptedKey env s = none := by
      simp [acceptedKey, taken, fails]
    by_cases code : (ZcMessageHead.load message).msgCode = Code.handshake2 ∨
        (ZcMessageHead.load message).msgCode = Code.accessPointRsp
    · rw [if_pos code]
      by_cases checksum : checksumHolds message
      · rw [if_neg fun fails => not_checksumHolds.mpr fails checksum]
        by_cases echo : message.read sizeofMessageHead zcHsMsgLen = s.con.randMsg.bytes
        · rw [if_pos echo]
          by_cases handshake : (ZcMessageHead.load message).msgCode = Code.handshake2
          · have valid : echoes s Code.handshake2 message := ⟨handshake, checksum, echo⟩
            have key : acceptedKey env s = some (.ofView message (sizeofMessageHead + zcHsMsgLen)
                zcHsSessionKeyLen) := by simp [acceptedKey, taken, valid]
            rw [if_pos handshake, ctl_pctSendCloudAccessMsg3, key]
            convert Ctl.Access2.accepted (c := s.ctl) _ using 1
            rw [← ctl_timerStopTimer]
            rfl
          · rw [if_neg handshake, ctl_pctDisConnectCloud, refused fun valid => handshake valid.1]
            convert Ctl.Access2.refused (c := s.ctl) using 2
            exact ctl_timerStopTimer s (some .access) s.con.u8AccessTimer
        · rw [if_neg echo, ctl_pctDisConnectCloud, refused fun valid => echo valid.2.2]
          convert Ctl.Access2.refused (c := s.ctl) using 2
          exact ctl_timerStopTimer s (some .access) s.con.u8AccessTimer
      · rw [if_pos (not_checksumHolds.mp checksum), ctl_pctDisConnectCloud,
          refused fun valid => checksum valid.2.1]
        exact .corrupt
    · rw [if_neg code, refused fun valid => code (.inl valid.1)]
      exact .ignored

/-- What the controller makes of a message while it waits for the fourth handshake message. -/
theorem step_pctRecvAccessMsg4 (main : s.con.u8MainState = .waitMsg4) :
    s.ctl.Step .stay (pctRecvAccessMsg4 env s).ctl ∧ accepts4 env s = false ∨
      s.ctl.Step (.access4 (accepts4 env s)) (pctRecvAccessMsg4 env s).ctl := by
  rcases popped : msgPopMsg s.recvQueue with ⟨_ | pointer, next⟩
  · left
    rw [pctRecvAccessMsg4, popped]
    exact ⟨.stay, by simp [accepts4, takenMessage, popped]⟩
  · have taken : takenMessage env s = some ((s.buffer pointer).u8MsgBuffer.view env.beyond) := by
      simp [takenMessage, popped]
    right
    simp only [pctRecvAccessMsg4, popped, ctl_hfSetTimer, ctl_stopHandle, ctl_resetBuffer]
    generalize (s.buffer pointer).u8MsgBuffer.view env.beyond = message at taken ⊢
    have refused (fails : ¬ echoes s Code.handshake4 message) : accepts4 env s = false := by
      simp [accepts4, taken, fails]
    have stopped := ctl_timerStopTimer s (some .access) s.con.u8AccessTimer
    by_cases code : (ZcMessageHead.load message).msgCode = Code.handshake4
    · rw [if_pos code]
      by_cases checksum : checksumHolds message
      · rw [if_neg fun fails => not_checksumHolds.mpr fails checksum]
        by_cases echo : message.read sizeofMessageHead zcHsMsgLen = s.con.randMsg.bytes
        · have valid : echoes s Code.handshake4 message := ⟨code, checksum, echo⟩
          have accepted : accepts4 env s = true := by simp [accepts4, taken, valid]
          rw [if_pos echo, accepted, ctl_pctSendNotifyMsg]
          convert Ctl.Step.access4 (c := s.ctl) main .accepted using 3
          · exact congrArg (fun c : Ctl => { c with main := .connectCloud }) stopped
          · rfl
        · rw [if_neg echo, ctl_pctDisConnectCloud, refused fun valid => echo valid.2.2]
          convert Ctl.Step.access4 (c := s.ctl) main .refused using 3
          · exact congrArg Ctl.disconnected stopped
          · rfl
      · rw [if_pos (not_checksumHolds.mp checksum), ctl_pctDisConnectCloud,
          refused fun valid => checksum valid.2.1]
        exact .access4 main .corrupt
    · rw [if_neg code, refused fun valid => code valid.1]
      exact .access4 main .ignored

/-- What the controller makes of a message while it waits for the end of the binding. -/
theorem step_pctHandleUnbindMsg (main : s.con.u8MainState = .waitUnbind) :
    s.ctl.Step .stay (pctHandleUnbindMsg env s).ctl ∨
      s.ctl.Step .unbindMessage (pctHandleUnbindMsg env s).ctl ∧ handlesWhileUnbinding env s := by
  rcases popped : msgPopMsg s.recvQueue with ⟨_ | pointer, next⟩
  · left
    rw [pctHandleUnbindMsg, popped]
    exact .stay
  · right
    refine ⟨?_, main, by simp [takenMessage, popped]⟩
    simp only [pctHandleUnbindMsg, popped, ctl_hfSetTimer, ctl_resetBuffer]
    split_ifs with unbound
    · convert Ctl.Step.unbindMessage (c := s.ctl) main .answered using 2
      have stopped := ctl_stopHandle { s with recvQueue := next } .sendUnbind s.con.u8SendUnbindTimer
      change _ = { s.ctl.stopHandle .sendUnbind s.con.u8SendUnbindTimer with
        main := .connectCloud, sendUnbind := none }
      have answered := congrArg
        (fun c : Ctl => { c with main := .connectCloud, sendUnbind := none }) stopped
      cases handle : s.con.u8SendUnbindTimer with
      | none => rfl
      | some slot =>
        rw [handle] at answered
        exact answered
    · exact .unbindMessage main .other

theorem ctl_pctHandleMoudleMsg (pstruBuffer : BufPtr) :
    (pctHandleMoudleMsg pstruBuffer s).ctl = ((s.ctl.set .sendMoudle .sendMoudle).stopHandle .heart
      s.ctl.heart).set .sendHeart .heart := by
  have armed := ctl_hfSetTimer s .sendMoudle pctTimerIntervalSendMoudle .sendMoudle
  have heart := Ctl.set_heart (c := s.ctl) .sendMoudle (show TimerField.sendMoudle ≠ .heart by decide)
  rw [← armed] at heart
  simp only [pctHandleMoudleMsg, ctl_hfSetTimer, ctl_stopHandle]
  rw [← armed]
  exact congrArg (fun handle => (Ctl.stopHandle _ .heart handle).set .sendHeart .heart) heart

@[simp] theorem ctl_pctHandleOtaBeginMsg (msgId : UInt8) :
    (pctHandleOtaBeginMsg fw env msgId s).ctl = s.ctl := by
  rw [pctHandleOtaBeginMsg, ctl_pctSendNotifyMsg, ctl_pctSendAckToCloud]
  rfl

@[simp] theorem ctl_pctHandleOtaFileBeginMsg (msgId : UInt8) (pstruOta : View) :
    (pctHandleOtaFileBeginMsg fw env msgId pstruOta s).ctl = s.ctl := by
  rw [pctHandleOtaFileBeginMsg, ctl_pctSendAckToCloud, ctl_otaFileBegin]

@[simp] theorem ctl_pctHandleOtaFileChunkMsg (pstruMsg : ZcMessageHead) (pstruOta : View) :
    (pctHandleOtaFileChunkMsg fw env pstruMsg pstruOta s).ctl = s.ctl := by
  simp only [pctHandleOtaFileChunkMsg]
  split_ifs
  · rw [ctl_pctSendErrorMsg]
  · rw [ctl_pctSendErrorMsg, ctl_otaUpdate]
  · rw [ctl_pctSendAckToCloud, ctl_otaAdvance, ctl_otaUpdate]

@[simp] theorem ctl_pctHandleOtaEndMsg (msgId : UInt8) :
    (pctHandleOtaEndMsg fw env msgId s).ctl = s.ctl := by
  simp only [pctHandleOtaEndMsg]
  split_ifs
  · rw [ctl_pctSendErrorMsg, ctl_call]
  · rw [ctl_u32StopJdTask, ctl_call, ctl_pctSendNotifyMsg, ctl_pctSendAckToCloud, ctl_call]

@[simp] theorem ctl_pctSetTokenKey (msgId : UInt8) (pstruSetKey : View) :
    (pctSetTokenKey fw env msgId pstruSetKey s).ctl = s.ctl := by
  rw [pctSetTokenKey, ctl_pctSendAckToCloud, ctl_pctSendEmptyMsg]
  rfl

@[simp] theorem ctl_pctResetNetWork (msgId : UInt8) :
    (pctResetNetWork fw env msgId s).ctl = s.ctl.disconnected := by
  rw [pctResetNetWork, ctl_pctSendAckToCloud, ctl_pctSendEmptyMsg, ctl_pctDisConnectCloud]
  rfl

/-- What the switch on the code of a message does. -/
theorem ctl_pctDispatch (pstruMsg : ZcMessageHead) (payload : View) (pstruBuffer : BufPtr) :
    (pctDispatch fw env pstruMsg payload pstruBuffer s).ctl = s.ctl ∨
      pstruMsg.msgCode = Code.resetNetwork ∧
        (pctDispatch fw env pstruMsg payload pstruBuffer s).ctl = s.ctl.disconnected ∨
      pstruMsg.msgCode ∉ controllerCodes ∧
        (pctDispatch fw env pstruMsg payload pstruBuffer s).ctl =
          ((s.ctl.set .sendMoudle .sendMoudle).stopHandle .heart s.ctl.heart).set .sendHeart
            .heart := by
  simp only [pctDispatch]
  split_ifs with zotaBegin fileBegin fileChunk fileEnd zotaEnd tokenSet resetNetwork unbind
  · exact .inl (ctl_pctHandleOtaBeginMsg ..)
  · exact .inl (ctl_pctHandleOtaFileBeginMsg ..)
  · exact .inl (ctl_pctHandleOtaFileChunkMsg ..)
  · exact .inl (ctl_pctSendAckToCloud ..)
  · exact .inl (ctl_pctHandleOtaEndMsg ..)
  · exact .inl (ctl_pctSetTokenKey ..)
  · exact .inr (.inl ⟨resetNetwork, ctl_pctResetNetWork ..⟩)
  · exact .inl rfl
  · refine .inr (.inr ⟨?_, ctl_pctHandleMoudleMsg s pstruBuffer⟩)
    simp only [controllerCodes, List.mem_cons, List.not_mem_nil, or_false, not_or]
    exact ⟨zotaBegin, fileBegin, fileChunk, fileEnd, zotaEnd, tokenSet, resetNetwork, unbind⟩

/-- What an iteration does with a connected device. -/
theorem step_pctHandleEvent (main : s.con.u8MainState = .connectCloud) :
    s.ctl.Step .stay (pctHandleEvent fw env s).ctl ∨
      s.ctl.Step .networkReset (pctHandleEvent fw env s).ctl ∧ handlesReset env s ∨
      s.ctl.Step .unbindStart (pctHandleEvent fw env s).ctl ∧ unbindAsked s ∨
      s.ctl.Step .command (pctHandleEvent fw env s).ctl ∧ handlesCommand env s := by
  rw [pctHandleEvent]
  by_cases asked : s.zcConfigDb.struDeviceInfo.u32UnBindFlag = zcMagicFlag
  · refine .inr (.inr (.inl ⟨?_, main, asked⟩))
    rw [if_pos asked, pctSendUnbindMsg, ctl_hfSetTimer, (pctSendMsgToCloud_onlySends ..).ctl,
      ctl_stopHandle]
    exact .unbindStart main
  rw [if_neg asked]
  rcases popped : msgPopMsg s.recvQueue with ⟨_ | pointer, next⟩
  · exact .inl .stay
  have taken : takenMessage env s = some ((s.buffer pointer).u8MsgBuffer.view env.beyond) := by
    simp [takenMessage, popped]
  simp only [ctl_resetBuffer]
  generalize (s.buffer pointer).u8MsgBuffer.view env.beyond = message at taken ⊢
  by_cases checksum : checksumHolds message
  · rw [if_neg fun fails => not_checksumHolds.mpr fails checksum]
    obtain same | ⟨code, same⟩ | ⟨code, same⟩ := ctl_pctDispatch fw env { s with recvQueue := next }
      (ZcMessageHead.load message) (message.shift sizeofMessageHead) pointer
    · exact .inl (same ▸ .stay)
    · exact .inr (.inl ⟨same ▸ .networkReset main, main, asked, message, taken, checksum, code⟩)
    · exact .inr (.inr (.inr ⟨same ▸ .command main, main, asked, message, taken, checksum, code⟩))
  · rw [if_pos (not_checksumHolds.mp checksum), ctl_pctSendErrorMsg, ctl_pctSendEmptyMsg]
    exact .inl .stay

/-- The timeout action of a slot is the one of the type it carries. -/
theorem timeout_timerTimeoutAction {slot : TimerIndex} {t : Sys}
    (step : timerTimeoutAction fw env slot s = some t) :
    ∃ again, s.ctl.Timeout (s.timers.struTimer slot).u8Type again t.ctl ∧
      (again = true → (s.timers.struTimer slot).u8Type = .sendMoudle →
        (s.con.u8ReSendMoudleNum + 1) % 2 ^ 8 ≤ pctSendMoudleNum) := by
  have acts := timerTimeoutAction_cases step
  generalize (s.timers.struTimer slot).u8Type = type at acts ⊢
  cases acts with
  | reconnect => exact ⟨_, .reconnect s.ctl, nofun⟩
  | reaccess =>
    rw [ctl_pctDisConnectCloud]
    exact ⟨_, .reaccess s.ctl, nofun⟩
  | sendMoudle step =>
    obtain ⟨again, timeout, counted⟩ := timeout_pctSendMoudleTimeout fw env s step
    exact ⟨again, timeout, fun rearmed _ => counted rearmed⟩
  | sendHeart =>
    rw [pctSendHeartMsg, ctl_hfSetTimer, (pctSendMsgToCloud_onlySends ..).ctl]
    exact ⟨_, .sendHeart s.ctl, nofun⟩
  | register =>
    rw [ctl_pctSendNotifyMsg, ctl_hfSetTimer]
    exact ⟨_, .register s.ctl, nofun⟩
  | sendUbind =>
    rw [pctSendUnbindMsg, ctl_hfSetTimer, (pctSendMsgToCloud_onlySends ..).ctl]
    exact ⟨_, .sendUbind s.ctl, nofun⟩

end Controller

section Link

variable (s : Sys)

@[simp] theorem ctl_pctSleep : (pctSleep s).ctl = s.ctl.slept := by
  have cleared : (timerInit (timerStopUsed
      { s.msgInit with con := { s.con with u8keyRecv := false } })).ctl =
        Ctl.clear { s.ctl with keyRecv := false } := ctl_timerInit_stopUsed _
  rw [pctSleep, ctl_pctSendNotifyMsg, Ctl.slept, ← cleared]
  generalize timerInit (timerStopUsed
    { s.msgInit with con := { s.con with u8keyRecv := false } }) = stopped
  rfl

theorem ctl_closeSocket (u32Socket : ℕ) : (closeSocket u32Socket s).ctl = s.ctl := by
  rw [closeSocket]
  split_ifs
  · exact ctl_call ..
  · rfl

@[simp] theorem ctl_hfSleep : (hfSleep s).ctl = s.ctl.slept := by
  rw [hfSleep, ctl_resetUart, ctl_pctSleep, ctl_connections, ctl_closeSocket, ctl_closeSocket,
    ctl_call]

theorem ctl_pctWakeUp (main : s.con.u8MainState = .init) : (pctWakeUp s).ctl = s.ctl.wokenUp := by
  have armed := ctl_hfSetTimer s .register pctTimerIntervalRegister .register
  rw [pctWakeUp, if_pos main, Ctl.wokenUp, ← armed]
  rfl

theorem step_hfWakeUp : s.ctl.Step .stay (hfWakeUp s).ctl ∨ s.ctl.Step .wakeUp (hfWakeUp s).ctl := by
  by_cases main : s.con.u8MainState = .init
  · right
    rw [hfWakeUp, ctl_pctWakeUp s main]
    exact .wakeUp main
  · left
    rw [hfWakeUp, pctWakeUp, if_neg main]
    exact .stay

end Link

section Moudle

variable (fw : Firmware) (env : Env) (s : Sys)

/-- A register message is answered when it comes too late and taken otherwise. -/
theorem ctl_registerAnswer (stored : Sys → Sys) (kept : (stored s).ctl = s.ctl) :
    (s.con.u8MainState ≠ .sleep ∧ s.con.u8MainState ≠ .init ∧
        (registerAnswer stored s).ctl = s.ctl) ∨
      (s.con.u8MainState = .sleep ∨ s.con.u8MainState = .init) ∧
        (registerAnswer stored s).ctl = s.ctl.registered := by
  have taken (t : Sys) (same : t.ctl = s.ctl) : ({ stopHandle .register s.con.u8RegisterTimer
      { t with con := { t.con with u8MainState := .accessNet } } with
        con := { (stopHandle .register s.con.u8RegisterTimer { t with
          con := { t.con with u8MainState := .accessNet } }).con with
            u8RegisterTimer := none } } : Sys).ctl = s.ctl.registered := by
    rw [show s.con.u8RegisterTimer = t.con.u8RegisterTimer from congrArg Ctl.register same.symm]
    have stopped := ctl_stopHandle { t with con := { t.con with u8MainState := .accessNet } }
      .register t.con.u8RegisterTimer
    generalize stopHandle .register t.con.u8RegisterTimer
      { t with con := { t.con with u8MainState := .accessNet } } = u at stopped ⊢
    rw [Ctl.registered, ← same]
    have emptied := congrArg (fun c : Ctl => { c with register := none }) stopped
    exact emptied
  rw [registerAnswer]
  cases main : s.con.u8MainState with
  | sleep => exact .inr ⟨.inl rfl, taken _ kept⟩
  | init => exact .inr ⟨.inr rfl, taken _ kept⟩
  | _ => exact .inl ⟨by decide, by decide, ctl_pctSendNotifyMsg _ _⟩

@[simp] theorem ctl_pctModuleOtaFileChunkMsg (pstruMsg : ZcMessageHead) (pu8Msg : View) :
    (pctModuleOtaFileChunkMsg env pstruMsg pu8Msg s).ctl = s.ctl := by
  simp only [pctModuleOtaFileChunkMsg]
  split_ifs
  · rw [ctl_pctSendNotifyMsg]
  · rw [ctl_pctSendNotifyMsg]
  · rw [ctl_pctSendNotifyMsg, ctl_otaUpdate]
  · rw [ctl_pctSendNotifyMsg, ctl_otaAdvance, ctl_otaUpdate]

@[simp] theorem ctl_pctModuleOtaFileEndMsg : (pctModuleOtaFileEndMsg env s).ctl = s.ctl := by
  simp only [pctModuleOtaFileEndMsg]
  split_ifs <;> rw [ctl_pctSendNotifyMsg, ctl_call]

/-- The stored identity and configuration are not part of the control state. -/
theorem ctl_stored (info : ZcRegisterInfo) (db : ZcConfigDb) :
    { s with registerInfo := info, zcConfigDb := db }.ctl = s.ctl := rfl

/-- A register message that is not answered is taken. -/
theorem ctl_registered {stored : Sys → Sys} (kept : (stored s).ctl = s.ctl)
    (early : s.con.u8MainState = .sleep ∨ s.con.u8MainState = .init) :
    (registerAnswer stored s).ctl = s.ctl.registered := by
  rcases ctl_registerAnswer s stored kept with ⟨sleep, init, _⟩ | ⟨_, taken⟩
  · exact (early.elim sleep init).elim
  · exact taken

theorem ctl_of_registers {pu8Data : View} {u16DataLen : ℕ} {t : Sys}
    (takes : registers pu8Data u16DataLen s)
    (step : zcRecvDataFromMoudle fw env pu8Data u16DataLen s = some t) :
    t.ctl = s.ctl.registered := by
  obtain ⟨early, nonempty, valid, code⟩ := takes
  have checksum := mt payloadFails_iff.mp (not_not_intro valid)
  rw [zcRecvDataFromMoudle, if_neg nonempty, if_neg checksum] at step
  rcases code with code | ⟨code, regsiter⟩
  · rw [if_pos code] at step
    cases step
    exact ctl_registered s (ctl_stored s _ _) early
  · have other : ∀ known ∈ [Code.regsiter, Code.eqBegin, Code.zotaFileBegin, Code.zotaFileChunk,
        Code.zotaFileEnd, Code.rest, Code.config, Code.unbind],
        ¬ (ZcMessageHead.load pu8Data).msgCode = known := by
      rw [code]
      decide +kernel
    simp only [List.forall_mem_cons] at other
    obtain ⟨one, two, three, four, five, six, seven, eight, _⟩ := other
    rw [if_neg one, if_neg two, if_neg three, if_neg four, if_neg five, if_neg six, if_neg seven,
      if_neg eight, if_pos code] at step
    cases step
    rw [zcDealExtCode, if_pos (show (pu8Data.shift sizeofMessageHead) 0 = Code.extRegsiter from
      regsiter)]
    exact ctl_registered s (ctl_stored s _ _) early

/-- What an extended message does. -/
theorem step_zcDealExtCode {pu8Data : View} {s : Sys} :
    s.ctl.Step .stay (zcDealExtCode env pu8Data s).ctl ∨
      s.ctl.Step .register (zcDealExtCode env pu8Data s).ctl ∧ pu8Data 0 = Code.extRegsiter ∧
        (s.con.u8MainState = .sleep ∨ s.con.u8MainState = .init) := by
  rw [zcDealExtCode]
  by_cases regsiter : pu8Data 0 = Code.extRegsiter
  · rw [if_pos regsiter]
    rcases ctl_registerAnswer s (fun s => { s with
      registerInfo := zcStoreRegisterInfo (pu8Data.shift 4) true env.u8Mac })
      (ctl_stored s _ _) with ⟨_, _, same⟩ | ⟨main, same⟩
    · exact .inl (same ▸ .stay)
    · exact .inr ⟨same ▸ .register main, regsiter, main⟩
  · rw [if_neg regsiter]
    split_ifs
    · exact .inl ((ctl_call s .reboot).symm ▸ .stay)
    · exact .inl .stay

/-- What a message of the module does. -/
theorem step_zcRecvDataFromMoudle {pu8Data : View} {u16DataLen : ℕ} {t : Sys}
    (step : zcRecvDataFromMoudle fw env pu8Data u16DataLen s = some t) :
    s.ctl.Step .stay t.ctl ∨
      s.ctl.Step .reply t.ctl ∧ relays pu8Data u16DataLen s ∧ isReply pu8Data s ∨
      s.ctl.Step .register t.ctl ∧ registers pu8Data u16DataLen s := by
  have quiet {u : Sys} (same : u.ctl = s.ctl) : s.ctl.Step .stay u.ctl ∨
      s.ctl.Step .reply u.ctl ∧ relays pu8Data u16DataLen s ∧ isReply pu8Data s ∨
      s.ctl.Step .register u.ctl ∧ registers pu8Data u16DataLen s := by
    rw [same]
    exact .inl .stay
  cases zcRecvDataFromMoudle_cases step with
  | dropped => exact quiet rfl
  | registered nonempty valid code =>
    rcases ctl_registerAnswer s (fun s => { s with
      registerInfo := zcStoreRegisterInfo (pu8Data.shift sizeofMessageHead) false env.u8Mac })
      (ctl_stored s _ _) with ⟨_, _, same⟩ | ⟨main, same⟩
    · exact quiet same
    · exact .inr (.inr ⟨same ▸ .register main, main, nonempty, valid, .inl code⟩)
  | begun => exact quiet (ctl_pctSendNotifyMsg ..)
  | begunOnline => exact quiet ((ctl_pctSendNotifyMsg ..).trans (ctl_pctSendNotifyMsg ..))
  | fileBegun => exact quiet ((ctl_pctSendNotifyMsg ..).trans (ctl_otaFileBegin ..))
  | chunk => exact quiet (ctl_pctModuleOtaFileChunkMsg ..)
  | fileEnded => exact quiet ((ctl_pctSendNotifyMsg ..).trans (ctl_pctModuleOtaFileEndMsg ..))
  | rested => exact quiet (ctl_call ..)
  | configured | unbound => exact quiet ((ctl_call ..).trans (ctl_stored ..))
  | unboundRested => exact quiet ((ctl_call ..).trans ((ctl_call ..).trans (ctl_stored ..)))
  | extended nonempty valid code =>
    rcases step_zcDealExtCode env with unchanged | ⟨register, regsiter, main⟩
    · exact .inl unchanged
    · exact .inr (.inr ⟨register, main, nonempty, valid, .inr ⟨code, regsiter⟩⟩)
  | relayed relays event =>
    rcases step_pctHandleMoudleEvent fw env s event with same | ⟨moved, reply⟩
    · exact .inl same
    · exact .inr (.inl ⟨moved, relays, reply⟩)
  | refused => exact quiet (ctl_pctSendNotifyMsg ..)

end Moudle

section Threads

variable (fw : Firmware) (env : Env) (s : Sys)

/-- Whatever comes in and whether it opens or not, receiving is not part of the control state. -/
theorem ctl_msgRecvDataFromCloud {pu8Data : List UInt8} {t : Sys}
    (step : msgRecvDataFromCloud fw env pu8Data s = some t) : t.ctl = s.ctl := by
  obtain ⟨recvBuffer, recvQueue, msgBuildBuffer, rfl⟩ := msgRecvDataFromCloud_changes step
  rfl

theorem step_hfCloudRecvfunc {received : Option (List UInt8)} {t : Sys}
    (step : hfCloudRecvfunc fw env received s = some t) :
    s.ctl.Step .stay t.ctl ∨ s.ctl.Step .peerClosed t.ctl ∧ received = none := by
  rcases hfCloudRecvfunc_cases step with ⟨up, rfl, rfl⟩ | ⟨pu8Data, step⟩ | rfl
  · rw [ctl_resetUart, ctl_pctDisConnectCloud]
    refine .inr ⟨.peerClosed ?_, rfl⟩
    have main : s.ctl.main = s.con.u8MainState := rfl
    rw [main]
    cases state : s.con.u8MainState <;> simp [state, MainState.code] at up ⊢
  · exact .inl (ctl_msgRecvDataFromCloud fw env s step ▸ .stay)
  · exact .inl .stay

/-- The first part of a callback starts the timer once more or takes the timeout action. -/
theorem step_hfTimerCallbackAction {slot : TimerIndex} {t : Sys}
    (step : hfTimerCallbackAction fw env slot s = some t) :
    (t.ctl = s.ctl ∧ t.callback = s.callback) ∨ ∃ type again d, s.ctl.callback = none ∧
      s.ctl.running slot = true ∧ s.ctl.slots slot ∈ [none, some type] ∧
        (s.ctl.elapse slot).Timeout type again d ∧ (again = true → armsAgain slot s) ∧
          t.ctl = { d with callback := some slot } ∧ t.callback = some slot := by
  rcases ite_eq_iff.mp step with ⟨⟨run, free⟩, step⟩ | ⟨_, step⟩
  · rcases ite_eq_iff.mp step with ⟨_, step⟩ | ⟨first, step⟩
    · cases step
      left
      refine ⟨?_, rfl⟩
      simp only [Sys.ctl, TimerBank.slots_restart, TimerBank.running_restart _ _ run]
    · obtain ⟨acted, action, rfl⟩ := Option.map_eq_some_iff.mp step
      right
      obtain ⟨again, timeout, counted⟩ := timeout_timerTimeoutAction fw env _ action
      exact ⟨_, again, acted.ctl, free, run, s.timers.slots_mem slot, ctl_elapse s slot ▸ timeout,
        fun rearmed => ⟨run, Bool.eq_false_iff.mpr first, counted rearmed⟩, rfl, rfl⟩
  · cases step
    exact .inl ⟨rfl, rfl⟩

/-- The second part of a callback frees the slot the callback is for. -/
theorem step_hfTimerCallbackStop : (s.callback = none ∧ (hfTimerCallbackStop s).ctl = s.ctl) ∨
    ∃ slot, s.callback = some slot ∧
      (hfTimerCallbackStop s).ctl = { s.ctl.stop none slot with callback := none } := by
  rw [hfTimerCallbackStop]
  cases callback : s.callback with
  | none => exact .inl ⟨rfl, rfl⟩
  | some slot =>
    right
    exact ⟨slot, rfl, congrArg (fun c : Ctl => { c with callback := none })
      (ctl_timerStopTimer s none slot)⟩

/-- A callback in one piece starts the timer once more or fires. -/
theorem step_hfTimerCallback {slot : TimerIndex} {t : Sys}
    (step : hfTimerCallback fw env slot s = some t) :
    s.ctl.Step .stay t.ctl ∨
      ∃ again, s.ctl.Step (.fire slot again) t.ctl ∧ (again = true → armsAgain slot s) := by
  rcases ite_eq_iff.mp step with ⟨free, step⟩ | ⟨_, step⟩
  · obtain ⟨acted, action, rfl⟩ := Option.map_eq_some_iff.mp step
    rcases step_hfTimerCallbackAction fw env s action with
      ⟨same, callback⟩ | ⟨type, again, d, idle, run, carries, timeout, rearms, shown, callback⟩
    · left
      rcases step_hfTimerCallbackStop acted with ⟨_, stopped⟩ | ⟨other, busy, _⟩
      · rw [stopped, same]
        exact .stay
      · rw [callback, free] at busy
        cases busy
    · right
      rcases step_hfTimerCallbackStop acted with ⟨none, _⟩ | ⟨other, busy, stopped⟩
      · rw [callback] at none
        cases none
      · obtain rfl := Option.some.inj (callback.symm.trans busy)
        refine ⟨again, ?_, rearms⟩
        convert Ctl.Step.fire idle run carries timeout using 1
        rw [stopped, shown]
        have kept : d.callback = none := timeout.callback_eq.trans idle
        simp only [Ctl.stop, ← kept]
  · cases step
    exact .inl .stay

@[simp] theorem ctl_zcSendBc : (zcSendBc s).ctl = s.ctl := by
  rw [zcSendBc]
  split_ifs
  · rfl
  · rfl
  · exact ctl_call ..
  · rfl

@[simp] theorem ctl_msgSendDataToCloud : (msgSendDataToCloud s).ctl = s.ctl := by
  rw [msgSendDataToCloud]
  rcases msgPopMsg s.sendQueue with ⟨_ | pointer, next⟩
  · rfl
  · rw [ctl_resetBuffer, ctl_call]
    rfl

/-- The second half of an iteration starts anew after a lost connection. -/
theorem ctl_hfCloudfuncRest : (hfCloudfuncRest env s).ctl =
    if s.con.u8MainState = .disconnectCloud ∧ s.con.u8ReconnectTimer = none then s.ctl.reconnected
    else s.ctl := by
  rw [hfCloudfuncRest, ctl_zcSendBc]
  by_cases main : s.con.u8MainState = .disconnectCloud
  · have kept : (s.call (.close s.cloudFd)).con.u8ReconnectTimer = s.con.u8ReconnectTimer := rfl
    rw [if_pos main, ctl_resetUart, ctl_pctReconnectCloud, kept, ctl_call]
    simp only [main, true_and]
  · rw [if_neg main, if_neg fun both => main both.1, ctl_msgSendDataToCloud]

theorem step_hfCloudfuncRest :
    s.ctl.Step .stay (hfCloudfuncRest env s).ctl ∨
      s.ctl.Step .reconnect (hfCloudfuncRest env s).ctl := by
  rw [ctl_hfCloudfuncRest]
  split_ifs with lost
  · exact .inr (.reconnect lost.1 lost.2)
  · exact .inl .stay

/-- An unbinding that is asked for stops the timer its handle names. -/
theorem ctl_of_unbindAsked (asked : unbindAsked s) : (hfCloudfuncRun fw env s).ctl =
    ({ s.ctl with main := .waitUnbind }.stopHandle .sendUnbind s.ctl.sendUnbind).set .sendUbind
      .sendUnbind := by
  have run : (hfCloudfuncRun fw env s).ctl = (pctHandleEvent fw env s).ctl := by
    have controller : pctRun fw env s = pctHandleEvent fw env s := by rw [pctRun, asked.1]
    rw [← controller]
    rfl
  rw [run, pctHandleEvent, if_pos asked.2, pctSendUnbindMsg, ctl_hfSetTimer,
    (pctSendMsgToCloud_onlySends ..).ctl, ctl_stopHandle]
  rfl

/-- A message that resets the network parameters ends the connection. -/
theorem ctl_of_handlesReset (resets : handlesReset env s) :
    (hfCloudfuncRun fw env s).ctl = s.ctl.disconnected := by
  obtain ⟨main, bound, message, taken, checksum, code⟩ := resets
  have run : (hfCloudfuncRun fw env s).ctl = (pctHandleEvent fw env s).ctl := by
    have controller : pctRun fw env s = pctHandleEvent fw env s := by rw [pctRun, main]
    rw [← controller]
    rfl
  obtain ⟨pointer, popped, rfl⟩ := Option.map_eq_some_iff.mp taken
  rw [run, pctHandleEvent, if_neg bound]
  rcases queue : msgPopMsg s.recvQueue with ⟨taken, next⟩
  rw [queue] at popped
  obtain rfl : taken = some pointer := popped
  simp only [ctl_resetBuffer]
  generalize (s.buffer pointer).u8MsgBuffer.view env.beyond = message at checksum code ⊢
  rw [if_neg fun fails => not_checksumHolds.mpr fails checksum, pctDispatch, code]
  exact ctl_pctResetNetWork fw env { s with recvQueue := next } _

end Threads

/-- What an observer of the handshake sees. -/
inductive HandshakeEvent where
  | connected
  | handshake2 (randMsg : FixedBuffer zcHsMsgLen) (key : FixedBuffer zcHsSessionKeyLen)
  | handshake4 (randMsg : FixedBuffer zcHsMsgLen)
deriving DecidableEq

/-- The connections made and the handshake messages accepted in a step. -/
def handshakeEvents (s : Sys) : Action → List HandshakeEvent
  | .cloudfuncRun env =>
    match s.con.u8MainState with
    | .accessNet => if connects env s then [.connected] else []
    | .waitAccessRsp => (acceptedKey env s).toList.map (.handshake2 s.con.randMsg)
    | .waitMsg4 => if accepts4 env s then [.handshake4 s.con.randMsg] else []
    | _ => []
  | _ => []

/-- The events a label stands for. -/
def Ctl.Label.events (c : Ctl) : Ctl.Label → List HandshakeEvent
  | .connect _ => [.connected]
  | .access2 key => key.toList.map (.handshake2 c.session.randMsg)
  | .access4 accepted => if accepted then [.handshake4 c.session.randMsg] else []
  | _ => []

/-- What a label says about the action it explains. -/
def Ctl.Label.Cause (s : Sys) (a : Action) : Ctl.Label → Prop
  | .unbindStart => (∃ env, a = .cloudfuncRun env) ∧ unbindAsked s
  | .unbindMessage => ∃ env, a = .cloudfuncRun env ∧ handlesWhileUnbinding env s
  | .command => ∃ env, a = .cloudfuncRun env ∧ handlesCommand env s
  | .register => ∃ env pu8Data u16DataLen, a = .recvDataFromMoudle env pu8Data u16DataLen ∧
      registers pu8Data u16DataLen s
  | .fire slot again => (∃ env, a = .timerCallback env slot) ∧ (again = true → armsAgain slot s)
  | .action slot => ∃ env, a = .timerAction env slot
  | .callbackStop _ => a = .timerStop
  | _ => True

/-- The steps that threads, timers, the module and the link take. The calls `PCT_DisConnectCloud`,
`PCT_ReconnectCloud` and `PCT_Sleep` occur only inside of them. -/
def Action.Scheduled : Action → Prop
  | .disConnectCloud => False
  | .reconnectCloud _ => False
  | .sleep => False
  | _ => True

/-- The steps with a timer callback in one piece. -/
def Action.Atomic : Action → Prop
  | .timerAction _ _ => False
  | .timerStop => False
  | a => a.Scheduled

theorem Action.Atomic.scheduled {a : Action} (atomic : a.Atomic) : a.Scheduled := by
  cases a <;> first | exact atomic | trivial

/-- What other labels say about the action they explain. -/
def Ctl.Label.Source (s : Sys) (a : Action) : Ctl.Label → Prop
  | .networkReset => ∃ env, a = .cloudfuncRun env ∧ handlesReset env s
  | .reconnect => ∃ env, a = .cloudfuncRest env
  | .peerClosed => ∃ env, a = .cloudRecvfunc env none
  | .sleep => a = .hfSleep
  | .wakeUp => a = .hfWakeUp
  | .reply => ∃ env pu8Msg u16DataLen, isReply pu8Msg s ∧
      (a = .moudleEvent env pu8Msg u16DataLen ∨
        a = .recvDataFromMoudle env pu8Msg u16DataLen ∧ relays pu8Msg u16DataLen s)
  | _ => True

section Explanation

variable (fw : Firmware)

/-- What `PCT_Run` does is the transition of the main state it finds. -/
theorem explained_pctRun (env : Env) (s : Sys) : ∃ label,
    s.ctl.Step label (pctRun fw env s).ctl ∧
      (label.Cause s (.cloudfuncRun env) ∧
        handshakeEvents s (.cloudfuncRun env) = label.events s.ctl) ∧
      label.Source s (.cloudfuncRun env) := by
  rw [pctRun]
  simp only [handshakeEvents]
  cases main : s.con.u8MainState with
  | sleep | init | disconnectCloud => exact ⟨_, .stay, ⟨trivial, rfl⟩, trivial⟩
  | accessNet =>
    simp only [ctl_pctConnectCloud env s main]
    split_ifs with made
    · exact ⟨_, .connect _ main made.2.1, ⟨trivial, rfl⟩, trivial⟩
    · exact ⟨_, .stay, ⟨trivial, rfl⟩, trivial⟩
  | waitAccess =>
    exact ⟨_, step_pctSendCloudAccessMsg1 fw env s main, ⟨trivial, rfl⟩, trivial⟩
  | waitAccessRsp =>
    exact ⟨_, .access2 main (access2_pctRecvAccessMsg2 fw env s), ⟨trivial, rfl⟩, trivial⟩
  | waitMsg4 =>
    rcases step_pctRecvAccessMsg4 env s main with ⟨unchanged, none⟩ | moved
    · refine ⟨_, unchanged, ⟨trivial, ?_⟩, trivial⟩
      rw [none]
      rfl
    · exact ⟨_, moved, ⟨trivial, rfl⟩, trivial⟩
  | connectCloud =>
    rcases step_pctHandleEvent fw env s main with
      same | ⟨reset, handles⟩ | ⟨start, asked⟩ | ⟨sent, handles⟩
    · exact ⟨_, same, ⟨trivial, rfl⟩, trivial⟩
    · exact ⟨_, reset, ⟨trivial, rfl⟩, env, rfl, handles⟩
    · exact ⟨_, start, ⟨⟨⟨env, rfl⟩, asked⟩, rfl⟩, trivial⟩
    · exact ⟨_, sent, ⟨⟨env, rfl, handles⟩, rfl⟩, trivial⟩
  | waitUnbind =>
    rcases step_pctHandleUnbindMsg env s main with same | ⟨moved, handles⟩
    · exact ⟨_, same, ⟨trivial, rfl⟩, trivial⟩
    · exact ⟨_, moved, ⟨⟨env, rfl, handles⟩, rfl⟩, trivial⟩

/-- Every step of the threads is a transition of the control state under a label that says what
caused it and what an observer of the handshake sees. -/
theorem explained_source : (firmware fw).Explained (fun _ a => a.Scheduled) Sys.ctl Ctl.Step
    fun s a label => (label.Cause s a ∧ handshakeEvents s a = label.events s.ctl) ∧
      label.Source s a := by
  intro s a t scheduled step
  cases a with
  | cloudfuncRun env =>
    cases step
    exact explained_pctRun fw env s
  | cloudfuncRest env =>
    cases step
    rcases step_hfCloudfuncRest env s with same | moved
    · exact ⟨_, same, ⟨trivial, rfl⟩, trivial⟩
    · exact ⟨_, moved, ⟨trivial, rfl⟩, env, rfl⟩
  | recvDataFromCloud env pu8Data =>
    refine ⟨.stay, ?_, ⟨trivial, rfl⟩, trivial⟩
    rw [ctl_msgRecvDataFromCloud fw env s step]
    exact .stay
  | cloudRecvfunc env received =>
    rcases step_hfCloudRecvfunc fw env s step with same | ⟨moved, rfl⟩
    · exact ⟨_, same, ⟨trivial, rfl⟩, trivial⟩
    · exact ⟨_, moved, ⟨trivial, rfl⟩, env, rfl⟩
  | timerCallback env slot =>
    rcases step_hfTimerCallback fw env s step with same | ⟨again, moved, rearms⟩
    · exact ⟨_, same, ⟨trivial, rfl⟩, trivial⟩
    · exact ⟨_, moved, ⟨⟨⟨env, rfl⟩, rearms⟩, rfl⟩, trivial⟩
  | timerAction env slot =>
    rcases step_hfTimerCallbackAction fw env s step with
      ⟨same, _⟩ | ⟨type, again, d, idle, run, carries, timeout, _, shown, _⟩
    · exact ⟨.stay, same ▸ .stay, ⟨trivial, rfl⟩, trivial⟩
    · exact ⟨.action slot, shown ▸ .action idle run carries timeout, ⟨⟨env, rfl⟩, rfl⟩, trivial⟩
  | timerStop =>
    cases step
    rcases step_hfTimerCallbackStop s with ⟨_, same⟩ | ⟨slot, busy, stopped⟩
    · exact ⟨.stay, same ▸ .stay, ⟨trivial, rfl⟩, trivial⟩
    · exact ⟨.callbackStop slot, stopped ▸ .callbackStop busy, ⟨rfl, rfl⟩, trivial⟩
  | moudleEvent env pu8Msg u16DataLen =>
    rcases step_pctHandleMoudleEvent fw env s step with same | ⟨moved, reply⟩
    · exact ⟨_, same, ⟨trivial, rfl⟩, trivial⟩
    · exact ⟨_, moved, ⟨trivial, rfl⟩, env, pu8Msg, u16DataLen, reply, .inl rfl⟩
  | recvDataFromMoudle env pu8Data u16DataLen =>
    rcases step_zcRecvDataFromMoudle fw env s step with same | ⟨moved, relays, reply⟩ | ⟨moved, cause⟩
    · exact ⟨_, same, ⟨trivial, rfl⟩, trivial⟩
    · exact ⟨_, moved, ⟨trivial, rfl⟩, env, pu8Data, u16DataLen, reply, .inr ⟨rfl, relays⟩⟩
    · exact ⟨_, moved, ⟨⟨env, pu8Data, u16DataLen, rfl, cause⟩, rfl⟩, trivial⟩
  | disConnectCloud => exact absurd scheduled id
  | reconnectCloud _ => exact absurd scheduled id
  | sleep => exact absurd scheduled id
  | hfSleep =>
    cases step
    exact ⟨.sleep, ctl_hfSleep s ▸ .sleep, ⟨trivial, rfl⟩, rfl⟩
  | hfWakeUp =>
    cases step
    rcases step_hfWakeUp s with same | moved
    · exact ⟨_, same, ⟨trivial, rfl⟩, trivial⟩
    · exact ⟨_, moved, ⟨trivial, rfl⟩, rfl⟩

theorem explained : (firmware fw).Explained (fun _ a => a.Scheduled) Sys.ctl Ctl.Step
    fun s a label => label.Cause s a ∧ handshakeEvents s a = label.events s.ctl := by
  intro s a t scheduled step
  obtain ⟨label, moved, reason, _⟩ := explained_source fw s a t scheduled step
  exact ⟨label, moved, reason⟩

end Explanation

/-- What holds in every run holds at its start. -/
theorem core_hfInit (flash : Option ZcConfigDb) (registerInfo : ZcRegisterInfo) :
    (hfInit flash registerInfo).ctl.Core :=
  ⟨fun _ => nofun, Pool.within_empty, fun _ => ⟨rfl, rfl⟩, fun _ => nofun,
    fun pending => absurd rfl pending⟩

end ShuangFa
