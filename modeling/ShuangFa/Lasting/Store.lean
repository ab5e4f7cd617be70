import ShuangFa.Control.Messages

/-! # What outlasts the messages

The stored configuration, the state of an update, the flag that stops the local tasks, the two
connections and what was done with sockets, flash and updates. Timers, queues and messages in
either direction leave it alone; every operation that changes it is stated once with its change.
-/

namespace ShuangFa

open Memory

/-- A message that leaves the firmware. -/
def AdapterCall.isMessage : AdapterCall → Bool
  | .sendTcpData _ _ | .sendUdpData _ | .sendToMoudle _ => true
  | _ => false

structure Store where
  db : ZcConfigDb
  ota : PtcOtaInfo
  stopJdTask : ℕ
  cloud : PtcConnection
  client : PtcConnection
  calls : List AdapterCall

/-- A call that is no message is on record. -/
def Store.call (store : Store) (call : AdapterCall) : Store :=
  { store with calls := store.calls ++ [call] }

/-- The connection and the configuration are set. -/
def Store.link (store : Store) (db : ZcConfigDb) (cloud : PtcConnection) : Store :=
  { store with db := db, cloud := cloud }

/-- The socket of the connection is given up. -/
def Store.unlink (store : Store) : Store :=
  { store with cloud := { store.cloud with u32Socket := pctInvaildSocket } }

def Sys.store (s : Sys) : Store where
  db := s.zcConfigDb
  ota := s.con.struOtaInfo
  stopJdTask := s.u32StopJdTask
  cloud := s.con.struCloudConnection
  client := s.con.struClientConnection
  calls := s.calls.filter fun call => !call.isMessage

section Operations

variable (fw : Firmware) (env : Env) (s : Sys)

@[simp] theorem store_hfSetTimer (u8Type : TimerType) (u32Interval : ℕ) (field : TimerField) :
    (hfSetTimer u8Type u32Interval field s).store = s.store := by
  rw [hfSetTimer]
  cases s.timers.timerFindIdleTimer with
  | none => rfl
  | some slot => cases field <;> rfl

@[simp] theorem store_timerStopTimer (via : Option TimerField) (slot : TimerIndex) :
    (timerStopTimer via slot s).store = s.store := rfl

@[simp] theorem store_stopHandle (via : TimerField) (handle : Option TimerIndex) :
    (stopHandle via handle s).store = s.store := by
  cases handle <;> rfl

@[simp] theorem store_timerStopUsed : (timerStopUsed s).store = s.store := by
  rw [timerStopUsed]
  generalize List.finRange 5 = slots
  induction slots generalizing s with
  | nil => rfl
  | cons slot rest ih =>
    rw [List.foldl_cons, ih]
    split_ifs <;> rfl

@[simp] theorem store_timerInit : (timerInit s).store = s.store := rfl

@[simp] theorem store_build (message : List UInt8) : (s.build message).store = s.store := rfl

@[simp] theorem store_msgInit : s.msgInit.store = s.store := rfl

@[simp] theorem store_resetUart : s.resetUart.store = s.store := rfl

@[simp] theorem store_resetBuffer (pointer : BufPtr) : (s.resetBuffer pointer).store = s.store := by
  cases pointer <;> rfl

theorem store_message (call : AdapterCall) (message : call.isMessage = true) :
    (s.call call).store = s.store := by
  simp only [Sys.store, Sys.call, List.filter_append, List.filter_cons, message, Bool.not_true,
    Bool.false_eq_true, ↓reduceIte, List.filter_nil, List.append_nil]

theorem store_call (call : AdapterCall) (lasting : call.isMessage = false) :
    (s.call call).store = s.store.call call := by
  simp only [Sys.store, Sys.call, Store.call, List.filter_append, List.filter_cons, lasting,
    Bool.not_false, ↓reduceIte, List.filter_nil]

@[simp] theorem store_sendToMoudle (pu8Data : List UInt8) :
    (s.call (.sendToMoudle pu8Data)).store = s.store := store_message s _ rfl

@[simp] theorem store_pctSendNotifyMsg (u8NotifyCode : UInt8) :
    (pctSendNotifyMsg u8NotifyCode s).store = s.store := store_message _ _ rfl

theorem store_pctSendMsgToCloud? {head : ZcSecHead} {pu8PlainData : View} {s t : Sys} {ret : Ret}
    (sent : pctSendMsgToCloud? fw env head pu8PlainData s = some (ret, t)) :
    t.store = s.store := by
  simp only [pctSendMsgToCloud?] at sent
  split_ifs at sent <;> cases sent
  · rfl
  · rfl
  · exact store_message _ _ rfl
  · rfl

@[simp] theorem store_pctSendMsgToCloud (u8SecType u8Resver : UInt8) (message : List UInt8) :
    (pctSendMsgToCloud fw env u8SecType u8Resver message s).2.store = s.store := by
  rw [pctSendMsgToCloud]
  rcases sent : pctSendMsgToCloud? fw env ⟨zcHtons message.length, u8SecType, u8Resver⟩
    (.ofList message) s with _ | ⟨ret, t⟩
  · rfl
  · exact store_pctSendMsgToCloud? fw env sent

@[simp] theorem store_pctSendEmptyMsg (u8MsgId u8SecType : UInt8) :
    (pctSendEmptyMsg fw env u8MsgId u8SecType s).store = s.store := store_pctSendMsgToCloud ..

@[simp] theorem store_pctSendErrorMsg (u8MsgId : UInt8) :
    (pctSendErrorMsg fw env u8MsgId s).store = s.store := store_pctSendMsgToCloud ..

@[simp] theorem store_pctSendAckToCloud (u8MsgId : UInt8) :
    (pctSendAckToCloud fw env u8MsgId s).store = s.store := store_pctSendMsgToCloud ..

@[simp] theorem store_pctSendHeartMsg : (pctSendHeartMsg fw env s).store = s.store := by
  rw [pctSendHeartMsg, store_hfSetTimer, store_pctSendMsgToCloud]

@[simp] theorem store_pctSendUnbindMsg : (pctSendUnbindMsg fw env s).store = s.store := by
  rw [pctSendUnbindMsg, store_hfSetTimer, store_pctSendMsgToCloud]

@[simp] theorem store_msgSendDataToCloud : (msgSendDataToCloud s).store = s.store := by
  rw [msgSendDataToCloud]
  rcases msgPopMsg s.sendQueue with ⟨_ | pointer, next⟩
  · rfl
  · rw [store_resetBuffer]
    exact store_message _ _ rfl

@[simp] theorem store_zcSendBc : (zcSendBc s).store = s.store := by
  rw [zcSendBc]
  split_ifs
  · rfl
  · rfl
  · exact store_message _ _ rfl
  · rfl

@[simp] theorem store_pctDisConnectCloud : (pctDisConnectCloud s).store = s.store :=
  store_pctSendNotifyMsg ..

end Operations

section Controller

variable (fw : Firmware) (env : Env) (s : Sys)

@[simp] theorem store_pctSendCloudAccessMsg1 : (pctSendCloudAccessMsg1 fw env s).store = s.store := by
  simp only [pctSendCloudAccessMsg1]
  split_ifs
  · rw [store_pctDisConnectCloud, store_pctSendMsgToCloud, store_build]
    exact store_stopHandle s _ _
  · rw [store_hfSetTimer]
    refine (store_pctSendMsgToCloud fw env _ _ _ _).trans ?_
    exact store_stopHandle s _ _

@[simp] theorem store_pctSendCloudAccessMsg3 : (pctSendCloudAccessMsg3 fw env s).store = s.store := by
  rw [pctSendCloudAccessMsg3, store_hfSetTimer]
  exact (store_pctSendMsgToCloud fw env _ _ _ _).trans (store_build _ _)

@[simp] theorem store_pctSendMoudleTimeout {t : Sys}
    (step : pctSendMoudleTimeout fw env s = some t) : t.store = s.store := by
  obtain ⟨pointer, _, rfl⟩ := Option.map_eq_some_iff.mp step
  simp only
  split_ifs
  · rw [store_pctSendErrorMsg, store_pctSendEmptyMsg]
    exact store_resetBuffer _ pointer
  · rw [store_hfSetTimer, store_sendToMoudle]
    rfl

theorem store_pctHandleMoudleEvent {pu8Msg : View} {u16DataLen : ℕ} {t : Sys}
    (step : pctHandleMoudleEvent fw env pu8Msg u16DataLen s = some t) : t.store = s.store := by
  obtain ⟨released, _, release, sent⟩ := pctHandleMoudleEvent_sends step
  rw [store_pctSendMsgToCloud? fw env sent]
  cases release with
  | kept => rfl
  | replied slot pointer =>
    rw [store_pctSendEmptyMsg]
    exact store_resetBuffer _ pointer

/-- A timeout action changes nothing that lasts. -/
theorem store_timerTimeoutAction {slot : TimerIndex} {t : Sys}
    (step : timerTimeoutAction fw env slot s = some t) : t.store = s.store := by
  have acts := timerTimeoutAction_cases step
  generalize (s.timers.struTimer slot).u8Type = type at acts
  cases acts with
  | reconnect => rfl
  | reaccess => rw [store_pctDisConnectCloud]
  | sendMoudle step => exact store_pctSendMoudleTimeout fw env s step
  | sendHeart => rw [store_pctSendHeartMsg]
  | register => rw [store_pctSendNotifyMsg, store_hfSetTimer]
  | sendUbind => rw [store_pctSendUnbindMsg]

@[simp] theorem store_pctWakeUp : (pctWakeUp s).store = s.store := by
  rw [pctWakeUp]
  split_ifs
  · refine (store_pctSendNotifyMsg _ _).trans ?_
    exact store_hfSetTimer s _ _ _
  · rfl

@[simp] theorem store_pctSleep : (pctSleep s).store = s.store := by
  have cleared : (timerInit (timerStopUsed
      { s.msgInit with con := { s.con with u8keyRecv := false } })).store = s.store := by
    rw [store_timerInit, store_timerStopUsed]
    rfl
  rw [pctSleep, store_pctSendNotifyMsg]
  generalize timerInit (timerStopUsed
    { s.msgInit with con := { s.con with u8keyRecv := false } }) = stopped at cleared
  exact cleared

/-- A callback changes nothing that lasts. -/
theorem store_hfTimerCallbackAction {slot : TimerIndex} {t : Sys}
    (step : hfTimerCallbackAction fw env slot s = some t) : t.store = s.store := by
  rcases ite_eq_iff.mp step with ⟨_, step⟩ | ⟨_, step⟩
  · rcases ite_eq_iff.mp step with ⟨_, step⟩ | ⟨_, step⟩
    · cases step
      rfl
    · obtain ⟨acted, action, rfl⟩ := Option.map_eq_some_iff.mp step
      have taken : { acted with callback := some slot }.store = acted.store := rfl
      rw [taken, store_timerTimeoutAction fw env _ action]
      rfl
  · cases step
    rfl

theorem store_hfTimerCallbackStop : (hfTimerCallbackStop s).store = s.store := by
  rw [hfTimerCallbackStop]
  cases s.callback <;> rfl

theorem store_hfTimerCallback {slot : TimerIndex} {t : Sys}
    (step : hfTimerCallback fw env slot s = some t) : t.store = s.store := by
  rcases ite_eq_iff.mp step with ⟨_, step⟩ | ⟨_, step⟩
  · obtain ⟨acted, action, rfl⟩ := Option.map_eq_some_iff.mp step
    rw [store_hfTimerCallbackStop, store_hfTimerCallbackAction fw env s action]
  · cases step
    rfl

theorem store_msgRecvDataFromCloud {pu8Data : List UInt8} {t : Sys}
    (step : msgRecvDataFromCloud fw env pu8Data s = some t) : t.store = s.store := by
  obtain ⟨recvBuffer, recvQueue, msgBuildBuffer, rfl⟩ := msgRecvDataFromCloud_changes step
  rfl

/-- What comes in from the cloud, or its end, changes nothing that lasts. -/
theorem store_hfCloudRecvfunc {received : Option (List UInt8)} {t : Sys}
    (step : hfCloudRecvfunc fw env received s = some t) : t.store = s.store := by
  rcases hfCloudRecvfunc_cases step with ⟨_, _, rfl⟩ | ⟨pu8Data, step⟩ | rfl
  · exact store_pctDisConnectCloud s
  · exact store_msgRecvDataFromCloud fw env s step
  · rfl

end Controller

section Link

variable (env : Env) (s : Sys)

theorem store_link (db : ZcConfigDb) (cloud : PtcConnection) : { s with
    con := { s.con with struCloudConnection := cloud }, zcConfigDb := db }.store =
      s.store.link db cloud := rfl

/-- A connection that was made, or a socket that was opened and closed again. -/
theorem store_hfConnectToCloud : (hfConnectToCloud env s).1 = .error ∧
      (hfConnectToCloud env s).2.store = s.store ∨
    ∃ fd, env.socket = some fd ∧
      ((hfConnectToCloud env s).1 = .ok ∧ (hfConnectToCloud env s).2.store =
          (s.store.call (.socket fd)).link s.store.db ⟨fd, 0⟩ ∨
        (hfConnectToCloud env s).1 = .error ∧ ∃ db times, (hfConnectToCloud env s).2.store =
          ((s.store.call (.socket fd)).call (.close fd)).link db
            { s.store.cloud with u32ConnectionTimes := times }) := by
  rw [hfConnectToCloud]
  by_cases unresolved : s.zcConfigDb.struSwitchInfo.u32ServerAddrConfig ≠ 1 ∧ env.dns = false
  · rw [if_pos unresolved]
    exact .inl ⟨rfl, rfl⟩
  rw [if_neg unresolved]
  cases env.socket with
  | none => exact .inl ⟨rfl, rfl⟩
  | some fd =>
    refine .inr ⟨fd, rfl, ?_⟩
    have opened := store_call s (.socket fd) rfl
    cases env.connected with
    | true =>
      left
      exact ⟨rfl, congrArg (fun store : Store => store.link s.store.db ⟨fd, 0⟩) opened⟩
    | false =>
      right
      have closed := (store_call (s.call (.socket fd)) (.close fd) rfl).trans
        (congrArg (Store.call · (.close fd)) opened)
      have linked := store_link ((s.call (.socket fd)).call (.close fd))
      simp only [closed] at linked
      exact ⟨rfl, _, _, linked _ _⟩

/-- A new start gives the socket up, unless one is under way. -/
theorem store_pctReconnectCloud (u32ReConnectTimer : ℕ) :
    (pctReconnectCloud u32ReConnectTimer s).store =
      if s.con.u8ReconnectTimer = none then s.store.unlink else s.store := by
  by_cases pending : s.con.u8ReconnectTimer = none
  · have cleared : (timerInit (timerStopUsed s.msgInit)).store = s.store := by
      rw [store_timerInit, store_timerStopUsed, store_msgInit]
    rw [pctReconnectCloud, if_neg (not_not_intro pending), if_pos pending, ← cleared]
    generalize timerInit (timerStopUsed s.msgInit) = stopped
    have armed := store_hfSetTimer { stopped with con := { stopped.con with
      u8ReconnectTimer := none
      u8SendMoudleTimer := none
      u8HeartTimer := none
      u8MainState := .init } } .reconnect u32ReConnectTimer .reconnect
    exact congrArg Store.unlink armed
  · rw [pctReconnectCloud, if_pos pending, if_neg pending]

/-- The rest of an iteration closes the socket it has read, and gives it up. -/
theorem store_hfCloudfuncRest : (hfCloudfuncRest env s).store =
    if s.con.u8MainState = .disconnectCloud then
      if s.con.u8ReconnectTimer = none then (s.store.call (.close s.cloudFd)).unlink
      else s.store.call (.close s.cloudFd)
    else s.store := by
  rw [hfCloudfuncRest, store_zcSendBc]
  by_cases main : s.con.u8MainState = .disconnectCloud
  · rw [if_pos main, if_pos main, store_resetUart, store_pctReconnectCloud,
      store_call s (.close s.cloudFd) rfl]
    rfl
  · rw [if_neg main, if_neg main, store_msgSendDataToCloud]

/-- The calls that close a socket, if there is one. -/
def closing (u32Socket : ℕ) : List AdapterCall :=
  if u32Socket ≠ pctInvaildSocket then [.close u32Socket] else []

theorem store_closeSocket (u32Socket : ℕ) : (closeSocket u32Socket s).store =
    { s.store with calls := s.store.calls ++ closing u32Socket } := by
  rw [closeSocket, closing]
  split_ifs with open_
  · exact store_call s (.close u32Socket) rfl
  · rw [List.append_nil]

/-- A loss of the link closes the sockets and forgets them. -/
theorem store_hfSleep : (hfSleep s).store = { s.store.unlink with
    client := { s.store.client with u32Socket := pctInvaildSocket }
    calls := s.store.calls ++ .closeBc :: (closing s.store.client.u32Socket ++
      closing s.store.cloud.u32Socket) } := by
  have closed (u : Sys) : { u with con := { u.con with
      struCloudConnection := { u.con.struCloudConnection with u32Socket := pctInvaildSocket }
      struClientConnection := { u.con.struClientConnection with
        u32Socket := pctInvaildSocket } } }.store = { u.store.unlink with
          client := { u.store.client with u32Socket := pctInvaildSocket } } := rfl
  rw [hfSleep, store_resetUart, store_pctSleep, closed, store_closeSocket, store_closeSocket,
    store_call s .closeBc rfl]
  simp only [Store.call, Store.unlink, List.append_assoc, List.cons_append, List.nil_append]
  rfl

end Link

end ShuangFa
