import ShuangFa.Control.Frames
import ShuangFa.Receive.Delivery

/-! # The command that is being sent to the module

A command waits for its reply in the retransmission buffer, with a count of its retransmissions;
what has been passed to the module is on the record of calls. Each handler that touches a command
does so in one way: it takes a new one, passes the old one again, or releases it.
-/

namespace ShuangFa

open Memory

/-- The bytes a call passes to the module. -/
def AdapterCall.toMoudle : AdapterCall → Option (List UInt8)
  | .sendToMoudle pu8Data => some pu8Data
  | _ => none

/-- The command being sent, and everything that was passed to the module. -/
structure Outbox where
  buffer : MsgBuffer
  pointer : Option BufPtr
  resent : ℕ
  passed : List (List UInt8)

def Sys.outbox (s : Sys) : Outbox where
  buffer := s.retxBuffer
  pointer := s.con.pu8SendMoudleBuffer
  resent := s.con.u8ReSendMoudleNum
  passed := s.calls.filterMap AdapterCall.toMoudle

section Frames

variable (fw : Firmware) (env : Env) (s : Sys)

@[simp] theorem outbox_hfSetTimer (u8Type : TimerType) (u32Interval : ℕ) (field : TimerField) :
    (hfSetTimer u8Type u32Interval field s).outbox = s.outbox := by
  rw [hfSetTimer]
  cases s.timers.timerFindIdleTimer with
  | none => rfl
  | some slot => cases field <;> rfl

@[simp] theorem outbox_timerStopTimer (via : Option TimerField) (slot : TimerIndex) :
    (timerStopTimer via slot s).outbox = s.outbox := rfl

@[simp] theorem outbox_stopHandle (via : TimerField) (handle : Option TimerIndex) :
    (stopHandle via handle s).outbox = s.outbox := by
  cases handle <;> rfl

@[simp] theorem outbox_build (message : List UInt8) : (s.build message).outbox = s.outbox := rfl

theorem outbox_call (call : AdapterCall) (quiet : call.toMoudle = none) :
    (s.call call).outbox = s.outbox := by
  simp only [Sys.outbox, Sys.call, List.filterMap_append, List.filterMap_cons, quiet,
    List.filterMap_nil, List.append_nil]

theorem outbox_sendToMoudle (pu8Data : List UInt8) : (s.call (.sendToMoudle pu8Data)).outbox =
    { s.outbox with passed := s.outbox.passed ++ [pu8Data] } := by
  simp only [Sys.outbox, Sys.call, List.filterMap_append]
  rfl

/-- What goes to the cloud does not go to the module. -/
theorem outbox_pctSendMsgToCloud? {head : ZcSecHead} {pu8PlainData : View} {s t : Sys} {ret : Ret}
    (sent : pctSendMsgToCloud? fw env head pu8PlainData s = some (ret, t)) :
    t.outbox = s.outbox := by
  simp only [pctSendMsgToCloud?] at sent
  split_ifs at sent <;> cases sent
  · rfl
  · rfl
  · exact outbox_call _ _ rfl
  · rfl

@[simp] theorem outbox_pctSendMsgToCloud (u8SecType u8Resver : UInt8) (message : List UInt8) :
    (pctSendMsgToCloud fw env u8SecType u8Resver message s).2.outbox = s.outbox := by
  rw [pctSendMsgToCloud]
  rcases sent : pctSendMsgToCloud? fw env ⟨zcHtons message.length, u8SecType, u8Resver⟩
    (.ofList message) s with _ | ⟨ret, t⟩
  · rfl
  · exact outbox_pctSendMsgToCloud? fw env sent

@[simp] theorem outbox_pctSendEmptyMsg (u8MsgId u8SecType : UInt8) :
    (pctSendEmptyMsg fw env u8MsgId u8SecType s).outbox = s.outbox :=
  outbox_pctSendMsgToCloud ..

@[simp] theorem outbox_pctSendErrorMsg (u8MsgId : UInt8) :
    (pctSendErrorMsg fw env u8MsgId s).outbox = s.outbox :=
  outbox_pctSendMsgToCloud ..

end Frames

section Handlers

variable (fw : Firmware) (env : Env) (s : Sys)

/-- The message of the command that is being sent. -/
def pendingMessage : Option (List UInt8) :=
  s.con.pu8SendMoudleBuffer.map fun pointer => (s.buffer pointer).message

/-- A message longer than nothing is what a store of it shows. -/
theorem MsgBuffer.message_overlay (buffer kept : MsgBuffer) :
    (⟨buffer.u32Len, .full, kept.u8MsgBuffer.overlay 0 buffer.message, buffer.len_le⟩ :
      MsgBuffer).message = buffer.message := by
  have size : buffer.message.length = buffer.u32Len := buffer.length_take buffer.len_le
  have shown := kept.u8MsgBuffer.take_overlay_zero buffer.message (by
    rw [size]
    exact buffer.len_le)
  rwa [size] at shown

/-- A command is passed to the module and kept for retransmission. -/
theorem outbox_pctHandleMoudleMsg (pstruBuffer : BufPtr) :
    (pctHandleMoudleMsg pstruBuffer s).outbox.pointer = some .retxBuffer ∧
      (pctHandleMoudleMsg pstruBuffer s).outbox.resent = 0 ∧
      (pctHandleMoudleMsg pstruBuffer s).outbox.buffer.message = (s.buffer pstruBuffer).message ∧
      (pctHandleMoudleMsg pstruBuffer s).outbox.passed =
        s.outbox.passed ++ [(s.buffer pstruBuffer).message] := by
  simp only [pctHandleMoudleMsg, outbox_hfSetTimer, outbox_stopHandle]
  refine ⟨rfl, rfl, MsgBuffer.message_overlay .., ?_⟩
  have armed : (hfSetTimer .sendMoudle pctTimerIntervalSendMoudle .sendMoudle s).outbox.passed =
      s.outbox.passed := congrArg Outbox.passed (outbox_hfSetTimer ..)
  simp only [Sys.outbox] at armed
  simp only [Sys.outbox, Sys.call, List.filterMap_append, armed]
  rfl

/-- A timeout passes the command again, or gives it up. -/
theorem pctSendMoudleTimeout_cases {t : Sys} (step : pctSendMoudleTimeout fw env s = some t) :
    ∃ pointer, s.con.pu8SendMoudleBuffer = some pointer ∧
      (((s.con.u8ReSendMoudleNum + 1) % 2 ^ 8 ≤ pctSendMoudleNum ∧
        t.ctl = s.ctl.set .sendMoudle .sendMoudle ∧ t.outbox = { s.outbox with
          resent := (s.con.u8ReSendMoudleNum + 1) % 2 ^ 8
          passed := s.outbox.passed ++ [(s.buffer pointer).message] }) ∨
      (pctSendMoudleNum < (s.con.u8ReSendMoudleNum + 1) % 2 ^ 8 ∧
        t.ctl = { s.ctl with sendMoudle := none } ∧ t.outbox.passed = s.outbox.passed)) := by
  obtain ⟨pointer, kept, rfl⟩ := Option.map_eq_some_iff.mp step
  refine ⟨pointer, kept, ?_⟩
  simp only
  split_ifs with last
  · right
    refine ⟨last, ?_, ?_⟩
    · rw [ctl_pctSendErrorMsg, ctl_pctSendEmptyMsg]
      cases pointer <;> rfl
    · rw [outbox_pctSendErrorMsg, outbox_pctSendEmptyMsg]
      cases pointer <;> rfl
  · left
    refine ⟨Nat.le_of_not_lt last, ctl_hfSetTimer _ _ _ _, ?_⟩
    rw [outbox_hfSetTimer, outbox_sendToMoudle]
    rfl

/-- A message of the module releases the command, if it is a reply, and passes nothing. -/
theorem pctHandleMoudleEvent_cases {pu8Msg : View} {u16DataLen : ℕ} {t : Sys}
    (step : pctHandleMoudleEvent fw env pu8Msg u16DataLen s = some t) :
    (¬ (s.con.u8SendMoudleTimer.isSome ∧ (ZcMessageHead.load pu8Msg).msgCode < 200) ∧
        t.ctl = s.ctl ∧ t.outbox = s.outbox) ∨
      ∃ slot, s.con.u8SendMoudleTimer = some slot ∧ (ZcMessageHead.load pu8Msg).msgCode < 200 ∧
        t.ctl = { s.ctl.stop (some .sendMoudle) slot with sendMoudle := none } ∧
          t.outbox.passed = s.outbox.passed := by
  obtain ⟨released, _, release, sent⟩ := pctHandleMoudleEvent_sends step
  simp only [(pctSendMsgToCloud?_onlySends fw env sent).ctl, outbox_pctSendMsgToCloud? fw env sent]
  cases release with
  | kept silent => exact .inl ⟨silent, rfl, rfl⟩
  | replied slot pointer named reply =>
    right
    refine ⟨slot, named, reply.2, ?_, ?_⟩
    · rw [ctl_pctSendEmptyMsg, ctl_releasedMoudle]
    · rw [outbox_pctSendEmptyMsg]
      cases pointer <;> rfl

/-- The end of a callback that nothing else runs beside. -/
theorem ctl_timerStopTimer_free {acted : Sys} (free : acted.callback = none) (slot : TimerIndex) :
    { timerStopTimer none slot acted with callback := none }.ctl = acted.ctl.stop none slot := by
  have stopped := congrArg (fun c : Ctl => { c with callback := none })
    (ctl_timerStopTimer acted none slot)
  refine stopped.trans ?_
  simp only [Ctl.stop, Sys.ctl, free]

/-- A callback in one piece leaves everything as it is but for the timer it may start once more,
or takes the timeout action of its slot and frees the slot. -/
theorem hfTimerCallback_cases {slot : TimerIndex} {t : Sys} (free : s.callback = none)
    (step : hfTimerCallback fw env slot s = some t) :
    (¬ (s.timers.running slot = true ∧ (s.timers.struHfTimer slot).u32FirstFlag = false) ∧
        t.ctl = s.ctl ∧ t.outbox = s.outbox ∧ t.calls = s.calls) ∨
      s.timers.running slot = true ∧ (s.timers.struHfTimer slot).u32FirstFlag = false ∧
        ∃ acted, timerTimeoutAction fw env slot { s with timers := s.timers.elapse slot } =
          some acted ∧ t = { timerStopTimer none slot acted with callback := none } := by
  rw [hfTimerCallback, if_pos free] at step
  obtain ⟨acted, action, rfl⟩ := Option.map_eq_some_iff.mp step
  rw [hfTimerCallbackAction] at action
  split_ifs at action with run first
  · cases action
    left
    refine ⟨fun both => (nomatch first.symm.trans both.2), ?_, ?_, ?_⟩
    · simp only [hfTimerCallbackStop, free, Sys.ctl, TimerBank.slots_restart,
        TimerBank.running_restart _ _ run.1]
    · simp only [hfTimerCallbackStop, free]
      rfl
    · simp only [hfTimerCallbackStop, free]
  · obtain ⟨taken, timeout, rfl⟩ := Option.map_eq_some_iff.mp action
    exact .inr ⟨run.1, Bool.eq_false_iff.mpr first, taken, timeout, rfl⟩
  · cases action
    left
    refine ⟨fun both => run ⟨both.1, free⟩, ?_, ?_, ?_⟩ <;> rw [hfTimerCallbackStop, free]

end Handlers

end ShuangFa
