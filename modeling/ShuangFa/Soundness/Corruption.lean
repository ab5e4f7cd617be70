import ShuangFa.Control.Refinement
import ShuangFa.Receive.Delivery

/-! # Messages whose checksum fails

Four handlers take messages, and each has to compare the checksum itself before it acts. Three of
them do, or drop the message unread. The one that awaits the end of a binding looks at the code
only, and ends the binding on a corrupt message as well.
-/

namespace ShuangFa

open Memory Machine

/-- The message that a run of the controller takes from the queue. -/
def consumedMessage (env : Env) (s : Sys) : Option View :=
  match s.con.u8MainState with
  | .waitAccessRsp | .waitMsg4 | .waitUnbind => takenMessage env s
  | .connectCloud =>
    if s.zcConfigDb.struDeviceInfo.u32UnBindFlag = zcMagicFlag then none else takenMessage env s
  | _ => none

/-- A later state with the same configuration, update, session key and retransmission buffer, in
which the connection may have been given up. -/
structure Unaffected (s t : Sys) : Prop where
  zcConfigDb : t.zcConfigDb = s.zcConfigDb
  struOtaInfo : t.con.struOtaInfo = s.con.struOtaInfo
  u8SessionKey : t.con.u8SessionKey = s.con.u8SessionKey
  retxBuffer : t.retxBuffer = s.retxBuffer
  u8MainState : t.con.u8MainState = s.con.u8MainState ∨ t.con.u8MainState = .disconnectCloud

namespace Unaffected

variable {s t u : Sys}

theorem refl (s : Sys) : Unaffected s s := ⟨rfl, rfl, rfl, rfl, .inl rfl⟩

theorem trans (first : Unaffected s t) (second : Unaffected t u) : Unaffected s u := by
  refine ⟨second.zcConfigDb.trans first.zcConfigDb, second.struOtaInfo.trans first.struOtaInfo,
    second.u8SessionKey.trans first.u8SessionKey, second.retxBuffer.trans first.retxBuffer, ?_⟩
  rcases second.u8MainState with same | lost
  · rw [same]
    exact first.u8MainState
  · exact .inr lost

end Unaffected

section Operations

variable (fw : Firmware) (env : Env) (s : Sys)

theorem OnlySends.unaffected {s t : Sys} (only : OnlySends s t) : Unaffected s t := by
  obtain ⟨_, _, _, rfl⟩ := only
  exact ⟨rfl, rfl, rfl, rfl, .inl rfl⟩

theorem unaffected_hfSetTimer (u8Type : TimerType) (u32Interval : ℕ) (field : TimerField) :
    Unaffected s (hfSetTimer u8Type u32Interval field s) := by
  rw [hfSetTimer]
  cases s.timers.timerFindIdleTimer with
  | none => exact .refl s
  | some slot => cases field <;> exact ⟨rfl, rfl, rfl, rfl, .inl rfl⟩

theorem unaffected_stopHandle (via : TimerField) (handle : Option TimerIndex) :
    Unaffected s (stopHandle via handle s) := by
  cases handle with
  | none => exact .refl s
  | some slot => exact ⟨rfl, rfl, rfl, rfl, .inl rfl⟩

theorem unaffected_pctDisConnectCloud : Unaffected s (pctDisConnectCloud s) :=
  ⟨rfl, rfl, rfl, rfl, .inr rfl⟩

/-- The receive buffer is given back. -/
theorem unaffected_resetBuffer : Unaffected s (s.resetBuffer .recvBuffer) :=
  ⟨rfl, rfl, rfl, rfl, .inl rfl⟩

theorem unaffected_popped (recvQueue : MsgQueue msgQueueMaxLen BufPtr) :
    Unaffected s { s with recvQueue := recvQueue } := ⟨rfl, rfl, rfl, rfl, .inl rfl⟩

end Operations

section Handlers

variable (fw : Firmware) {env : Env} {s : Sys} {message : View}
  {next : MsgQueue msgQueueMaxLen BufPtr}

/-- In a run the message that is taken lies in the receive buffer. -/
theorem popped_of_taken (whole : s.inbox.Whole) (taken : takenMessage env s = some message) :
    ∃ next, msgPopMsg s.recvQueue = (some .recvBuffer, next) ∧
      message = s.recvBuffer.u8MsgBuffer.view env.beyond := by
  obtain ⟨pointer, popped, rfl⟩ := Option.map_eq_some_iff.mp taken
  have pair : msgPopMsg s.inbox.queue = (some pointer, (msgPopMsg s.recvQueue).2) :=
    Prod.ext popped rfl
  obtain ⟨_, rfl, _⟩ := whole.pop pair
  exact ⟨_, pair, rfl⟩

theorem unaffected_pctRecvAccessMsg2 (whole : s.inbox.Whole)
    (taken : takenMessage env s = some message) (corrupt : ¬ checksumHolds message) :
    Unaffected s (pctRecvAccessMsg2 fw env s) := by
  obtain ⟨next, popped, rfl⟩ := popped_of_taken whole taken
  have fails := not_checksumHolds.mp corrupt
  rw [pctRecvAccessMsg2, popped]
  refine .trans ?_ (unaffected_resetBuffer _)
  simp only [Sys.buffer, fails, if_true]
  split_ifs
  · exact (unaffected_popped s next).trans (unaffected_pctDisConnectCloud _)
  · exact unaffected_popped s next

theorem unaffected_pctRecvAccessMsg4 (whole : s.inbox.Whole)
    (taken : takenMessage env s = some message) (corrupt : ¬ checksumHolds message) :
    Unaffected s (pctRecvAccessMsg4 env s) := by
  obtain ⟨next, popped, rfl⟩ := popped_of_taken whole taken
  have fails := not_checksumHolds.mp corrupt
  rw [pctRecvAccessMsg4, popped]
  refine .trans (.trans (.trans ?_ (unaffected_resetBuffer _)) (unaffected_stopHandle _ _ _))
    (unaffected_hfSetTimer _ _ _ _)
  simp only [Sys.buffer, fails, if_true]
  split_ifs
  · exact (unaffected_popped s next).trans (unaffected_pctDisConnectCloud _)
  · exact unaffected_popped s next

/-- A message with another code does not end the binding. -/
theorem unaffected_pctHandleUnbindMsg (whole : s.inbox.Whole)
    (taken : takenMessage env s = some message)
    (other : (ZcMessageHead.load message).msgCode ≠ Code.unbind) :
    Unaffected s (pctHandleUnbindMsg env s) := by
  obtain ⟨next, popped, rfl⟩ := popped_of_taken whole taken
  rw [pctHandleUnbindMsg, popped]
  refine .trans (.trans ?_ (unaffected_resetBuffer _)) (unaffected_hfSetTimer _ _ _ _)
  simp only [Sys.buffer, other, if_false]
  exact unaffected_popped s next

/-- A message with the code that ends the binding ends it, whatever its checksum. -/
theorem main_pctHandleUnbindMsg (taken : takenMessage env s = some message)
    (unbinds : (ZcMessageHead.load message).msgCode = Code.unbind) :
    (pctHandleUnbindMsg env s).con.u8MainState = .connectCloud := by
  obtain ⟨pointer, popped, rfl⟩ := Option.map_eq_some_iff.mp taken
  have pair : msgPopMsg s.recvQueue = (some pointer, (msgPopMsg s.recvQueue).2) :=
    Prod.ext popped rfl
  change (pctHandleUnbindMsg env s).ctl.main = _
  rw [pctHandleUnbindMsg, pair]
  simp only [ctl_hfSetTimer, Ctl.set_main, ctl_resetBuffer, unbinds, if_true]
  rfl

theorem unaffected_pctHandleEvent (whole : s.inbox.Whole)
    (bound : s.zcConfigDb.struDeviceInfo.u32UnBindFlag ≠ zcMagicFlag)
    (taken : takenMessage env s = some message) (corrupt : ¬ checksumHolds message) :
    Unaffected s (pctHandleEvent fw env s) := by
  obtain ⟨next, popped, rfl⟩ := popped_of_taken whole taken
  have fails := not_checksumHolds.mp corrupt
  rw [pctHandleEvent, if_neg bound, popped]
  refine .trans ?_ (unaffected_resetBuffer _)
  simp only [Sys.buffer, fails, if_true]
  refine (unaffected_popped s next).trans ?_
  exact ((pctSendEmptyMsg_onlySends ..).trans (pctSendErrorMsg_onlySends ..)).unaffected

end Handlers

/-- A run of the controller that takes a corrupt message, other than one that ends a binding. -/
theorem unaffected_pctRun (fw : Firmware) {env : Env} {s : Sys} {message : View}
    (whole : s.inbox.Whole) (consumed : consumedMessage env s = some message)
    (corrupt : ¬ checksumHolds message)
    (other : ¬ (s.con.u8MainState = .waitUnbind ∧
      (ZcMessageHead.load message).msgCode = Code.unbind)) :
    Unaffected s (pctRun fw env s) := by
  rw [consumedMessage] at consumed
  rw [pctRun]
  cases main : s.con.u8MainState with
  | sleep | init | accessNet | waitAccess | disconnectCloud =>
    rw [main] at consumed
    cases consumed
  | waitAccessRsp =>
    rw [main] at consumed
    exact unaffected_pctRecvAccessMsg2 fw whole consumed corrupt
  | waitMsg4 =>
    rw [main] at consumed
    exact unaffected_pctRecvAccessMsg4 whole consumed corrupt
  | waitUnbind =>
    rw [main] at consumed
    exact unaffected_pctHandleUnbindMsg whole consumed fun unbinds => other ⟨main, unbinds⟩
  | connectCloud =>
    simp only [main] at consumed
    split_ifs at consumed with bound
    exact unaffected_pctHandleEvent fw whole bound consumed corrupt

/-- A corrupt message that ends a binding. -/
theorem affected_pctRun (fw : Firmware) {env : Env} {s : Sys} {message : View}
    (consumed : consumedMessage env s = some message) (main : s.con.u8MainState = .waitUnbind)
    (unbinds : (ZcMessageHead.load message).msgCode = Code.unbind) :
    ¬ Unaffected s (pctRun fw env s) := by
  intro unaffected
  simp only [consumedMessage, main] at consumed
  have moved := unaffected.u8MainState
  simp only [pctRun, main, main_pctHandleUnbindMsg consumed unbinds] at moved
  rcases moved with same | lost
  · cases same
  · cases lost

/-- In every reachable state and for every message with a wrong checksum that the controller takes
there: configuration, update, session key and retransmission buffer stay, and the main state stays
or is the one that gives the connection up, if and only if the message is not one that ends the
binding the controller awaits. -/
theorem corrupt_unaffected_iff (fw : Firmware) (flash : Option ZcConfigDb)
    (registerInfo : ZcRegisterInfo) (tape : List Action) (s : Sys) (env : Env) (message : View)
    (reached : (firmware fw).replay? (hfInit flash registerInfo) tape = some s)
    (consumed : consumedMessage env s = some message) (corrupt : ¬ checksumHolds message) :
    Unaffected s (pctRun fw env s) ↔ ¬ (s.con.u8MainState = .waitUnbind ∧
      (ZcMessageHead.load message).msgCode = Code.unbind) := by
  constructor
  · rintro unaffected ⟨main, unbinds⟩
    exact affected_pctRun fw consumed main unbinds unaffected
  · exact unaffected_pctRun fw (whole_replay reached) consumed corrupt

/-- A message without a payload whose checksum is off by one. -/
def corruptMessage (msgCode : UInt8) : List UInt8 :=
  (ZcMessageHead.mk zcVersion 1 msgCode 0 0 (0, 1)).bytes

/-- A corrupt event reaches a connected device. -/
def corruptEvent : List Action :=
  connecting ++ [.cloudRecvfunc .calm (some (plainFrame (corruptMessage Code.eventBase)))]

/-- A corrupt message ends the binding of a device that its module wants unbound. -/
def corruptUnbind : List Action :=
  connecting ++ [.recvDataFromMoudle .calm (.ofList (messageBytes Code.unbind 0 [0])) 9,
    .cloudfuncRun .calm, .cloudRecvfunc .calm (some (plainFrame (corruptMessage Code.unbind)))]

/-- The connected device answers the event and forgets it. -/
theorem corrupt_unaffected_connected : ∃ s message,
    (firmware .plain).replay? (hfInit none .zero) corruptEvent = some s ∧
      consumedMessage .calm s = some message ∧ ¬ checksumHolds message ∧
      Unaffected s (pctRun .plain .calm s) := by
  have ran : ((firmware .plain).replay? (hfInit none .zero) corruptEvent).any fun s =>
      s.con.u8MainState = .connectCloud ∧ (consumedMessage .calm s).any fun message =>
        ¬ checksumHolds message := by decide +kernel
  obtain ⟨s, reached, found⟩ := Option.any_eq_true .. |>.mp ran
  obtain ⟨main, found⟩ := of_decide_eq_true found
  obtain ⟨message, consumed, corrupt⟩ := Option.any_eq_true .. |>.mp found
  have corrupt := of_decide_eq_true corrupt
  refine ⟨s, message, reached, consumed, corrupt, ?_⟩
  have unaffected := corrupt_unaffected_iff .plain none .zero corruptEvent s .calm message reached
    consumed corrupt
  rw [main] at unaffected
  exact unaffected.mpr nofun

/-- The binding ends on the corrupt message. -/
theorem corrupt_unaffected_fails : ∃ s message,
    (firmware .plain).replay? (hfInit none .zero) corruptUnbind = some s ∧
      consumedMessage .calm s = some message ∧ ¬ checksumHolds message ∧
      ¬ Unaffected s (pctRun .plain .calm s) := by
  have ran : ((firmware .plain).replay? (hfInit none .zero) corruptUnbind).any fun s =>
      s.con.u8MainState = .waitUnbind ∧ (consumedMessage .calm s).any fun message =>
        ¬ checksumHolds message ∧ (ZcMessageHead.load message).msgCode = Code.unbind := by
    decide +kernel
  obtain ⟨s, reached, found⟩ := Option.any_eq_true .. |>.mp ran
  obtain ⟨main, found⟩ := of_decide_eq_true found
  obtain ⟨message, consumed, corrupt⟩ := Option.any_eq_true .. |>.mp found
  obtain ⟨corrupt, unbinds⟩ := of_decide_eq_true corrupt
  exact ⟨s, message, reached, consumed, corrupt, affected_pctRun .plain consumed main unbinds⟩

end ShuangFa
