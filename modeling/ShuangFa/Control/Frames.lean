import ShuangFa.Model.Adapter
import ShuangFa.Control.Ctl

/-! # What the operations do to the control state

The control state is read off the globals. Sending changes nothing but what was built and sent;
every other operation of the timers, the queues and the controller is the transition of the control
state under its name.
-/

namespace ShuangFa

open Memory SlotPool

/-- The control state of the globals. -/
def Sys.ctl (s : Sys) : Ctl where
  main := s.con.u8MainState
  keyRecv := s.con.u8keyRecv
  session := ⟨s.con.randMsg, s.con.u8SessionKey, s.con.ivSend, s.con.ivRecv⟩
  reconnect := s.con.u8ReconnectTimer
  access := s.con.u8AccessTimer
  sendUnbind := s.con.u8SendUnbindTimer
  heart := s.con.u8HeartTimer
  sendMoudle := s.con.u8SendMoudleTimer
  register := s.con.u8RegisterTimer
  slots := s.timers.slots
  running := s.timers.running
  callback := s.callback
  stops := s.stops.map StopRecord.stop

section Bank

variable (bank : TimerBank) (slot : TimerIndex)

theorem TimerBank.slots_eq_some_iff {bank : TimerBank} {slot : TimerIndex} {type : TimerType} :
    bank.slots slot = some type ↔ bank.struTimer slot = ⟨.used, type⟩ := by
  simp only [slots]
  rcases bank.struTimer slot with ⟨_ | _, carried⟩ <;> simp

@[simp] theorem TimerBank.firstIdle_slots : bank.slots.firstIdle = bank.timerFindIdleTimer := by
  simp only [Pool.firstIdle, timerFindIdleTimer]
  congr 1
  funext place
  simp only [slots]
  cases (bank.struTimer place).u8Status <;> rfl

@[simp] theorem TimerBank.slots_allocate (u8Type : TimerType) (u32Interval : ℕ) :
    (bank.allocate slot u8Type u32Interval).slots = bank.slots.occupy slot u8Type := by
  funext place
  by_cases same : place = slot
  · subst same
    simp only [slots, allocate, Function.update_self, ↓reduceIte, Pool.occupy_self]
  · simp only [slots, allocate, Function.update_of_ne same, Pool.occupy_of_ne same]

@[simp] theorem TimerBank.running_allocate (u8Type : TimerType) (u32Interval : ℕ) :
    (bank.allocate slot u8Type u32Interval).running =
      Function.update bank.running slot true := by
  funext place
  by_cases same : place = slot
  · subst same
    simp only [running, allocate, Function.update_self, Option.any_some]
  · simp only [running, allocate, Function.update_of_ne same]

@[simp] theorem TimerBank.slots_stop : (bank.stop slot).slots = bank.slots.release slot := by
  funext place
  by_cases same : place = slot
  · subst same
    simp only [slots, stop, Function.update_self, Pool.release_self, reduceCtorEq, ↓reduceIte]
  · simp only [slots, stop, Function.update_of_ne same, Pool.release_of_ne same]

@[simp] theorem TimerBank.running_stop :
    (bank.stop slot).running = Function.update bank.running slot false := by
  funext place
  by_cases same : place = slot
  · subst same
    simp only [running, stop, Function.update_self, Option.any_none]
  · simp only [running, stop, Function.update_of_ne same]

@[simp] theorem TimerBank.slots_timerInit : bank.timerInit.slots = Pool.empty := by
  funext place
  simp only [slots, timerInit, reduceCtorEq, ↓reduceIte, Pool.empty_apply]

@[simp] theorem TimerBank.running_timerInit : bank.timerInit.running = bank.running := rfl

@[simp] theorem TimerBank.slots_elapse : (bank.elapse slot).slots = bank.slots := rfl

@[simp] theorem TimerBank.running_elapse :
    (bank.elapse slot).running = Function.update bank.running slot false := by
  funext place
  by_cases same : place = slot
  · subst same
    simp only [running, elapse, Function.update_self]
    cases (bank.struHfTimer place).struHandle <;> rfl
  · simp only [running, elapse, Function.update_of_ne same]

@[simp] theorem TimerBank.slots_restart : (bank.restart slot).slots = bank.slots := rfl

/-- A slot is idle or carries the type it was given last. -/
theorem TimerBank.slots_mem : bank.slots slot ∈ [none, some (bank.struTimer slot).u8Type] := by
  simp only [slots]
  split_ifs <;> simp

/-- Starting a timer again that has just run leaves it running. -/
theorem TimerBank.running_restart (run : bank.running slot = true) :
    (bank.restart slot).running = bank.running := by
  funext place
  by_cases same : place = slot
  · subst same
    rw [run]
    simp only [running, restart, Function.update_self] at run ⊢
    cases handle : (bank.struHfTimer place).struHandle with
    | none => simp [handle] at run
    | some timer => rfl
  · simp only [running, restart, Function.update_of_ne same]

end Bank

section Timers

variable (s : Sys)

@[simp] theorem ctl_hfSetTimer (u8Type : TimerType) (u32Interval : ℕ) (field : TimerField) :
    (hfSetTimer u8Type u32Interval field s).ctl = s.ctl.set u8Type field := by
  have found : s.ctl.slots.firstIdle = s.timers.timerFindIdleTimer := s.timers.firstIdle_slots
  simp only [hfSetTimer, Ctl.set, found]
  cases s.timers.timerFindIdleTimer with
  | none => rfl
  | some slot =>
    cases field <;>
      simp only [Sys.ctl, PtcProtocolCon.setHandle, Ctl.occupy, Ctl.setHandle,
        TimerBank.slots_allocate, TimerBank.running_allocate]

@[simp] theorem ctl_timerStopTimer (via : Option TimerField) (slot : TimerIndex) :
    (timerStopTimer via slot s).ctl = s.ctl.stop via slot := by
  simp only [Sys.ctl, timerStopTimer, Ctl.stop, TimerBank.slots_stop, TimerBank.running_stop,
    List.map_append, List.map_cons, List.map_nil]
  rfl

@[simp] theorem ctl_stopHandle (via : TimerField) (handle : Option TimerIndex) :
    (stopHandle via handle s).ctl = s.ctl.stopHandle via handle := by
  cases handle with
  | none => rfl
  | some slot => exact ctl_timerStopTimer s (some via) slot

/-- The loop over the used slots is the transition's. -/
theorem ctl_timerStopUsed : (timerStopUsed s).ctl = s.ctl.stopUsed (List.finRange 5) := by
  rw [timerStopUsed, Ctl.stopUsed]
  generalize List.finRange 5 = slots
  induction slots generalizing s with
  | nil => rfl
  | cons slot rest ih =>
    rw [List.foldl_cons, List.foldl_cons, ih]
    congr 1
    have used : (s.ctl.slots slot).isSome = true ↔ (s.timers.struTimer slot).u8Status = .used := by
      simp only [Sys.ctl, TimerBank.slots]
      cases (s.timers.struTimer slot).u8Status <;> simp
    by_cases busy : (s.timers.struTimer slot).u8Status = .used
    · rw [if_pos busy, if_pos (used.mpr busy), ctl_timerStopTimer]
    · rw [if_neg busy, if_neg (fun holds => busy (used.mp holds))]

@[simp] theorem ctl_timerInit_stopUsed : (timerInit (timerStopUsed s)).ctl = s.ctl.clear := by
  rw [Ctl.clear, ← ctl_timerStopUsed]
  simp only [Sys.ctl, timerInit, TimerBank.slots_timerInit, TimerBank.running_timerInit]

/-- A timer that elapses is the transition's. -/
theorem ctl_elapse (slot : TimerIndex) :
    { s with timers := s.timers.elapse slot }.ctl = s.ctl.elapse slot := by
  simp only [Sys.ctl, Ctl.elapse, TimerBank.slots_elapse, TimerBank.running_elapse]

end Timers

/-- A later state that differs at most in what was built and sent. -/
def OnlySends (s t : Sys) : Prop :=
  ∃ sendBuffer msgBuildBuffer calls, t = { s with
    sendBuffer := sendBuffer, msgBuildBuffer := msgBuildBuffer, calls := calls }

namespace OnlySends

variable {s t u : Sys}

theorem refl (s : Sys) : OnlySends s s := ⟨_, _, _, rfl⟩

theorem trans (first : OnlySends s t) (second : OnlySends t u) : OnlySends s u := by
  obtain ⟨_, _, _, rfl⟩ := first
  obtain ⟨_, _, _, rfl⟩ := second
  exact ⟨_, _, _, rfl⟩

theorem ctl (only : OnlySends s t) : t.ctl = s.ctl := by
  obtain ⟨_, _, _, rfl⟩ := only
  rfl

/-- The state after sending with the main state set. -/
theorem ctl_main (only : OnlySends s t) (main : MainState) :
    { t with con := { t.con with u8MainState := main } }.ctl = { s.ctl with main := main } := by
  obtain ⟨_, _, _, rfl⟩ := only
  rfl

end OnlySends

section Senders

variable (fw : Firmware) (env : Env) (s : Sys)

@[simp] theorem ctl_call (call : AdapterCall) : (s.call call).ctl = s.ctl := by
  simp only [Sys.ctl, Sys.call]

@[simp] theorem ctl_resetUart : s.resetUart.ctl = s.ctl := rfl

/-- The connections are not part of the control state. -/
theorem ctl_connections (cloud client : PtcConnection) : { s with con := { s.con with
    struCloudConnection := cloud, struClientConnection := client } }.ctl = s.ctl := rfl

theorem ctl_u32StopJdTask (value : ℕ) : { s with u32StopJdTask := value }.ctl = s.ctl := rfl

/-- The state of an update is not part of the control state. -/
theorem ctl_struOtaInfo (info : PtcOtaInfo) :
    { s with con := { s.con with struOtaInfo := info } }.ctl = s.ctl := rfl

@[simp] theorem ctl_otaFileBegin (pstruOta : View) : (otaFileBegin pstruOta s).ctl = s.ctl :=
  ctl_struOtaInfo s _

@[simp] theorem ctl_otaUpdate (pstruOta : View) (u32RecvOffset u32FileLen : ℕ) :
    (otaUpdate pstruOta u32RecvOffset u32FileLen s).ctl = s.ctl := ctl_call ..

@[simp] theorem ctl_otaAdvance (u32FileLen : ℕ) : (otaAdvance u32FileLen s).ctl = s.ctl :=
  ctl_struOtaInfo s _

@[simp] theorem ctl_resetBuffer (pointer : BufPtr) : (s.resetBuffer pointer).ctl = s.ctl := by
  cases pointer <;> rfl

theorem build_onlySends (message : List UInt8) : OnlySends s (s.build message) := ⟨_, _, _, rfl⟩

theorem pctSendNotifyMsg_onlySends (u8NotifyCode : UInt8) :
    OnlySends s (pctSendNotifyMsg u8NotifyCode s) := ⟨_, _, _, rfl⟩

/-- Whether it fails or not, a message to the cloud changes nothing but the send buffer. -/
theorem pctSendMsgToCloud?_onlySends {head : ZcSecHead} {pu8PlainData : View} {s t : Sys}
    {ret : Ret} (sent : pctSendMsgToCloud? fw env head pu8PlainData s = some (ret, t)) :
    OnlySends s t := by
  simp only [pctSendMsgToCloud?] at sent
  split_ifs at sent <;> cases sent
  · exact .refl s
  · exact ⟨_, _, _, rfl⟩
  · exact ⟨_, _, _, rfl⟩
  · exact .refl s

theorem pctSendMsgToCloud_onlySends (u8SecType u8Resver : UInt8) (message : List UInt8) :
    OnlySends s (pctSendMsgToCloud fw env u8SecType u8Resver message s).2 := by
  rw [pctSendMsgToCloud]
  cases sent : pctSendMsgToCloud? fw env ⟨zcHtons message.length, u8SecType, u8Resver⟩
      (.ofList message) s with
  | none => exact .refl s
  | some result => exact pctSendMsgToCloud?_onlySends fw env sent

theorem pctSendEmptyMsg_onlySends (u8MsgId u8SecType : UInt8) :
    OnlySends s (pctSendEmptyMsg fw env u8MsgId u8SecType s) := pctSendMsgToCloud_onlySends ..

theorem pctSendErrorMsg_onlySends (u8MsgId : UInt8) :
    OnlySends s (pctSendErrorMsg fw env u8MsgId s) :=
  (build_onlySends s _).trans (pctSendMsgToCloud_onlySends ..)

theorem pctSendAckToCloud_onlySends (u8MsgId : UInt8) :
    OnlySends s (pctSendAckToCloud fw env u8MsgId s) :=
  (build_onlySends s _).trans (pctSendMsgToCloud_onlySends ..)

@[simp] theorem ctl_pctSendNotifyMsg (u8NotifyCode : UInt8) :
    (pctSendNotifyMsg u8NotifyCode s).ctl = s.ctl := (pctSendNotifyMsg_onlySends ..).ctl

@[simp] theorem ctl_pctSendEmptyMsg (u8MsgId u8SecType : UInt8) :
    (pctSendEmptyMsg fw env u8MsgId u8SecType s).ctl = s.ctl := (pctSendEmptyMsg_onlySends ..).ctl

@[simp] theorem ctl_pctSendErrorMsg (u8MsgId : UInt8) :
    (pctSendErrorMsg fw env u8MsgId s).ctl = s.ctl := (pctSendErrorMsg_onlySends ..).ctl

@[simp] theorem ctl_pctSendAckToCloud (u8MsgId : UInt8) :
    (pctSendAckToCloud fw env u8MsgId s).ctl = s.ctl := (pctSendAckToCloud_onlySends ..).ctl

end Senders

end ShuangFa
