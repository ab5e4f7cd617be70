import ShuangFa.Control.Refinement
import ShuangFa.Control.Tending
import ShuangFa.Send.Outbox
import ShuangFa.Soundness.Answers

/-! # The responses of the cloud

A heartbeat, `ZC_CODE_EMPTY`, `ZC_CODE_ACK` and `ZC_CODE_ERR` ask for nothing. `PCT_HandleEvent` has
no case for them: like a command they go to the module and stay to be retransmitted. The module
drops them, so the device gives the command up after four retransmissions and tells the cloud so
with two messages that are responses themselves.
-/

namespace ShuangFa

open Memory Machine

/-- The codes of the messages that answer another one. -/
def responseCodes : List UInt8 := [Code.heartbeat, Code.empty, Code.ack, Code.err]

/-- `ZC_CODE_EMPTY` or `ZC_CODE_ERR`. -/
def isEmptyOrErr (message : List UInt8) : Prop :=
  (ZcMessageHead.load (.ofList message)).msgCode = Code.empty ∨
    (ZcMessageHead.load (.ofList message)).msgCode = Code.err

instance (message : List UInt8) : Decidable (isEmptyOrErr message) :=
  inferInstanceAs (Decidable (_ ∨ _))

/-- A connected device takes nothing but valid responses, and the module sends it nothing. -/
def OnlyResponses (s : Sys) : Action → Prop
  | .cloudfuncRun env => s.con.u8MainState = .connectCloud → ¬ unbindAsked s →
    ∀ message ∈ takenMessage env s, checksumHolds message ∧
      (ZcMessageHead.load message).msgCode ∈ responseCodes
  | .moudleEvent _ _ _ | .recvDataFromMoudle _ _ _ => s.con.u8MainState ≠ .connectCloud
  | _ => True

instance (s : Sys) : (a : Action) → Decidable (OnlyResponses s a)
  | .cloudfuncRun _ => inferInstanceAs (Decidable (_ → ¬ _ → ∀ _ ∈ _, _))
  | .moudleEvent _ _ _ | .recvDataFromMoudle _ _ _ => inferInstanceAs (Decidable (_ ≠ _))
  | .cloudfuncRest _ | .recvDataFromCloud _ _ | .cloudRecvfunc _ _ | .timerCallback _ _
  | .timerAction _ _ | .timerStop | .disConnectCloud | .reconnectCloud _ | .sleep | .hfSleep
  | .hfWakeUp => isTrue trivial

/-- A response is handled by `PCT_HandleEvent`. -/
def handlesResponse (env : Env) (s : Sys) : Prop :=
  s.con.u8MainState = .connectCloud ∧ ¬ unbindAsked s ∧
    ∃ message ∈ takenMessage env s, checksumHolds message ∧
      (ZcMessageHead.load message).msgCode ∈ responseCodes

instance (env : Env) (s : Sys) : Decidable (handlesResponse env s) :=
  inferInstanceAs (Decidable (_ ∧ _ ∧ _))

/-- A step in which no response is handled. -/
def HandlesNoResponse (s : Sys) : Action → Prop
  | .cloudfuncRun env => ¬ handlesResponse env s
  | _ => True

instance (s : Sys) : (a : Action) → Decidable (HandlesNoResponse s a)
  | .cloudfuncRun _ => inferInstanceAs (Decidable (¬ _))
  | .cloudfuncRest _ | .recvDataFromCloud _ _ | .cloudRecvfunc _ _ | .timerCallback _ _
  | .timerAction _ _ | .timerStop | .moudleEvent _ _ _ | .recvDataFromMoudle _ _ _
  | .disConnectCloud | .reconnectCloud _ | .sleep | .hfSleep | .hfWakeUp => isTrue trivial

/-- The message that is handled is kept for retransmission. -/
def Retransmits (s t : Sys) : Prop :=
  t.con.pu8SendMoudleBuffer = some .retxBuffer ∧
    ∃ pointer ∈ (msgPopMsg s.recvQueue).1, t.retxBuffer.message = (s.buffer pointer).message

/-- A step of a connected device hands no frame with `ZC_CODE_EMPTY` or `ZC_CODE_ERR` to
`pfunSendTcpData`, and a response that is handled in it is not kept for retransmission. -/
def Unanswered (fw : Firmware) (stale : Stale) (s : Sys) (a : Action) : Prop :=
  s.con.u8MainState = .connectCloud → ∀ t, (firmware fw).step? s a = some t →
    framesRead fw stale isEmptyOrErr s t = 0 ∧
      ∀ env, a = .cloudfuncRun env → handlesResponse env s → ¬ Retransmits s t

section Sending

variable {fw : Firmware} {env : Env} {context : SecContext} {stale : Stale}
  {kind : List UInt8 → Prop} {s t : Sys}

/-- A call in which the other end reads no message of a kind. -/
def AdapterCall.Spares (crypto : Crypto) (peer : SecContext) (stale : Stale)
    (kind : List UInt8 → Prop) (call : AdapterCall) : Prop := ¬ call.Reads crypto peer stale kind

theorem AdapterCall.spares_of_local {crypto : Crypto} {peer : SecContext} {call : AdapterCall}
    (other : ¬ call.ToCloud) : call.Spares crypto peer stale kind :=
  mt AdapterCall.Reads.toCloud other

theorem framesRead_eq_zero [DecidablePred kind]
    (spares : Emits (AdapterCall.Spares fw.crypto (cloudEnd s.secContext) stale kind) s t) :
    framesRead fw stale kind s t = 0 := by
  obtain ⟨calls, same, all⟩ := spares
  rw [framesRead, same, List.drop_left, List.countP_eq_zero]
  intro call member
  rw [decide_eq_true_eq]
  exact all call member

variable (fw env stale) in
/-- In the frame of a message, if it goes out, nothing else is read. -/
theorem spares_pctSendMsgToCloud {message : List UInt8} (u8Resver : UInt8)
    (aes : ∀ block, fw.crypto.aesDecrypt context.u8SessionKey
      (fw.crypto.aesEncrypt context.u8SessionKey block) = block)
    (same : s.secContext = context) (short : message.length ≤ aesTextMax) (other : ¬ kind message) :
    Emits (AdapterCall.Spares fw.crypto (cloudEnd context) stale kind) s
      (pctSendMsgToCloud fw env zcSecAlgAes u8Resver message s).2 := by
  subst same
  rw [pctSendMsgToCloud]
  rcases result : pctSendMsgToCloud? fw env ⟨zcHtons message.length, zcSecAlgAes, u8Resver⟩
    (.ofList message) s with _ | ⟨ret, t⟩
  · exact .of_eq rfl
  cases ret with
  | error => exact .of_eq (calls_of_error fw env result)
  | ok =>
    obtain ⟨sent, frame, defined, calls, reads⟩ :=
      sealed_of_returns fw env u8Resver short (.of_sent result)
    obtain rfl : t = sent := congrArg Prod.snd (Option.some.inj (result.symm.trans defined))
    refine ⟨_, calls, List.forall_mem_singleton.mpr ?_⟩
    rintro ⟨read, shown, is⟩
    rw [reads aes stale] at shown
    cases shown
    exact other is

end Sending

section Steps

variable {fw : Firmware} {env : Env} {stale : Stale} {s t u : Sys} {a : Action}

variable (fw stale s) in
/-- The calls that hand over neither `ZC_CODE_EMPTY` nor `ZC_CODE_ERR`. -/
abbrev Quiet : AdapterCall → Prop :=
  AdapterCall.Spares fw.crypto (cloudEnd s.secContext) stale isEmptyOrErr

theorem secContext_stopHandle (via : TimerField) (handle : Option TimerIndex) :
    (stopHandle via handle s).secContext = s.secContext := by
  cases handle <;> rfl

theorem quiet_pctSendNotifyMsg (u8NotifyCode : UInt8) :
    Emits (Quiet fw stale s) t (pctSendNotifyMsg u8NotifyCode t) :=
  emits_pctSendNotifyMsg t (AdapterCall.spares_of_local id)

section Senders

variable (aes : ∀ key block, fw.crypto.aesDecrypt key (fw.crypto.aesEncrypt key block) = block)

include aes

theorem quiet_pctSendHeartMsg (same : t.secContext = s.secContext) :
    Emits (Quiet fw stale s) t (pctSendHeartMsg fw env t) := by
  rw [pctSendHeartMsg]
  refine Emits.trans ?_ (.of_eq (calls_hfSetTimer ..))
  apply spares_pctSendMsgToCloud fw env stale env.u8Resver (aes _) same
  · decide
  · decide

theorem quiet_pctSendUnbindMsg (same : t.secContext = s.secContext) :
    Emits (Quiet fw stale s) t (pctSendUnbindMsg fw env t) := by
  rw [pctSendUnbindMsg]
  refine Emits.trans ?_ (.of_eq (calls_hfSetTimer ..))
  apply spares_pctSendMsgToCloud fw env stale env.u8Resver (aes _) same
  · decide
  · decide

/-- A timeout of any type but that of a command. -/
theorem quiet_timerTimeoutAction {slot : TimerIndex} (same : u.secContext = s.secContext)
    (other : (u.timers.struTimer slot).u8Type ≠ .sendMoudle)
    (step : timerTimeoutAction fw env slot u = some t) : Emits (Quiet fw stale s) u t := by
  have acts := timerTimeoutAction_cases step
  generalize (u.timers.struTimer slot).u8Type = type at acts other
  cases acts with
  | reconnect => exact .of_eq rfl
  | reaccess => exact quiet_pctSendNotifyMsg _
  | sendMoudle => exact absurd rfl other
  | sendHeart => exact quiet_pctSendHeartMsg aes same
  | register =>
    refine Emits.trans ?_ (quiet_pctSendNotifyMsg _)
    exact .of_eq (calls_hfSetTimer ..)
  | sendUbind => exact quiet_pctSendUnbindMsg aes same

/-- A timer callback while no command is out. -/
theorem quiet_hfTimerCallbackAction {slot : TimerIndex} (core : s.ctl.Core) (unsent : s.ctl.Unsent)
    (step : hfTimerCallbackAction fw env slot s = some t) : Emits (Quiet fw stale s) s t := by
  rcases ite_eq_iff.mp step with ⟨run, step⟩ | ⟨_, step⟩
  · rcases ite_eq_iff.mp step with ⟨_, step⟩ | ⟨_, step⟩
    · cases step
      exact .of_eq rfl
    · obtain ⟨acted, action, rfl⟩ := Option.map_eq_some_iff.mp step
      have carries := core.carries run.1 (s.timers.slots_mem slot)
      have other : (s.timers.struTimer slot).u8Type ≠ .sendMoudle := by
        intro command
        rw [command] at carries
        exact unsent.absent slot carries
      have acts : Emits (Quiet fw stale s) { s with timers := s.timers.elapse slot } acted :=
        quiet_timerTimeoutAction aes rfl other action
      exact acts
  · cases step
    exact .of_eq rfl

theorem quiet_hfTimerCallback {slot : TimerIndex} (core : s.ctl.Core) (unsent : s.ctl.Unsent)
    (step : hfTimerCallback fw env slot s = some t) : Emits (Quiet fw stale s) s t := by
  rcases ite_eq_iff.mp step with ⟨_, step⟩ | ⟨_, step⟩
  · obtain ⟨acted, action, rfl⟩ := Option.map_eq_some_iff.mp step
    refine (quiet_hfTimerCallbackAction aes core unsent action).trans (.of_eq ?_)
    rw [hfTimerCallbackStop]
    cases acted.callback <;> rfl
  · cases step
    exact .of_eq rfl

/-- An iteration that handles no response. -/
theorem quiet_hfCloudfuncRun (connected : s.con.u8MainState = .connectCloud)
    (only : OnlyResponses s (.cloudfuncRun env)) (none : ¬ handlesResponse env s) :
    Emits (Quiet fw stale s) s (hfCloudfuncRun fw env s) := by
  have run : Emits (Quiet fw stale s) s (pctHandleEvent fw env s) := by
    rw [pctHandleEvent]
    by_cases asked : s.zcConfigDb.struDeviceInfo.u32UnBindFlag = zcMagicFlag
    · rw [if_pos asked]
      refine Emits.trans ?_ (quiet_pctSendUnbindMsg aes (secContext_stopHandle ..))
      exact .of_eq (calls_stopHandle ..)
    rw [if_neg asked]
    rcases popped : msgPopMsg s.recvQueue with ⟨_ | pointer, next⟩
    · exact .of_eq rfl
    · have taken : takenMessage env s =
          some ((s.buffer pointer).u8MsgBuffer.view env.beyond) := by
        simp [takenMessage, popped]
      have bound : ¬ unbindAsked s := fun both => asked both.2
      exact absurd ⟨connected, bound, _, taken, only connected bound _ taken⟩ none
  have dispatched : pctRun fw env s = pctHandleEvent fw env s := by
    rw [pctRun, connected]
  rw [hfCloudfuncRun, dispatched]
  exact run

end Senders

/-- Nothing is ever queued for the cloud. -/
theorem quiet_hfCloudfuncRest (whole : s.inbox.Whole) (connected : s.con.u8MainState = .connectCloud) :
    Emits (Quiet fw stale s) s (hfCloudfuncRest env s) := by
  have empty : msgPopMsg s.sendQueue = (none, s.sendQueue) := whole.private.sending
  have stays : ¬ s.con.u8MainState = .disconnectCloud := by rw [connected]; nofun
  have broadcast : Emits (Quiet fw stale s) s (zcSendBc s) := by
    rw [zcSendBc]
    split_ifs
    · exact .of_eq rfl
    · exact .of_eq rfl
    · exact .call { s with con := _, bcSleepCount := _, msgBuildBuffer := _ }
        (AdapterCall.spares_of_local id)
    · exact .of_eq rfl
  rw [hfCloudfuncRest, if_neg stays]
  simp only [msgSendDataToCloud, empty]
  exact broadcast

/-- A reception calls nothing. -/
theorem calls_msgRecvDataFromCloud {pu8Data : List UInt8}
    (step : msgRecvDataFromCloud fw env pu8Data s = some t) : t.calls = s.calls := by
  obtain ⟨recvBuffer, recvQueue, msgBuildBuffer, rfl⟩ := msgRecvDataFromCloud_changes step
  rfl

theorem quiet_hfCloudRecvfunc {received : Option (List UInt8)}
    (step : hfCloudRecvfunc fw env received s = some t) : Emits (Quiet fw stale s) s t := by
  rcases hfCloudRecvfunc_cases step with ⟨_, _, rfl⟩ | ⟨pu8Data, step⟩ | rfl
  · exact quiet_pctSendNotifyMsg _
  · exact .of_eq (calls_msgRecvDataFromCloud step)
  · exact .of_eq rfl

variable (s) in
theorem calls_timerStopUsed : (timerStopUsed s).calls = s.calls := by
  rw [timerStopUsed]
  generalize List.finRange 5 = slots
  induction slots generalizing s with
  | nil => rfl
  | cons slot rest ih =>
    rw [List.foldl_cons, ih]
    split_ifs <;> rfl

theorem quiet_closeSocket (u32Socket : ℕ) :
    Emits (Quiet fw stale s) t (closeSocket u32Socket t) := by
  rw [closeSocket]
  split_ifs
  · exact .call t (AdapterCall.spares_of_local id)
  · exact .of_eq rfl

theorem quiet_pctSleep : Emits (Quiet fw stale s) t (pctSleep t) := by
  have stopped := calls_timerStopUsed { t.msgInit with con := { t.con with u8keyRecv := false } }
  rw [pctSleep]
  generalize timerStopUsed { t.msgInit with con := { t.con with u8keyRecv := false } } = cleared
    at stopped ⊢
  refine Emits.trans ?_ (quiet_pctSendNotifyMsg _)
  exact .of_eq stopped

theorem calls_resetUart : s.resetUart.calls = s.calls := rfl

/-- The connections are not on record. -/
theorem calls_connections (cloud client : PtcConnection) : { s with con := { s.con with
    struCloudConnection := cloud, struClientConnection := client } }.calls = s.calls := rfl

theorem quiet_hfSleep : Emits (Quiet fw stale s) s (hfSleep s) := by
  have first : Emits (Quiet fw stale s) s (s.call .closeBc) :=
    .call s (AdapterCall.spares_of_local id)
  have client := first.trans (quiet_closeSocket s.con.struClientConnection.u32Socket)
  have closed := client.trans (quiet_closeSocket s.con.struCloudConnection.u32Socket)
  rw [hfSleep]
  refine Emits.trans ?_ (.of_eq calls_resetUart)
  refine Emits.trans ?_ quiet_pctSleep
  exact closed.trans (.of_eq (calls_connections ..))

variable (aes : ∀ key block, fw.crypto.aesDecrypt key (fw.crypto.aesEncrypt key block) = block)

include aes

/-- Every step of a connected device in which no command is out and no response is handled. -/
theorem quiet_step (core : s.ctl.Core) (unsent : s.ctl.Unsent) (whole : s.inbox.Whole)
    (scheduled : a.Scheduled) (connected : s.con.u8MainState = .connectCloud)
    (only : OnlyResponses s a) (none : HandlesNoResponse s a)
    (step : (firmware fw).step? s a = some t) : Emits (Quiet fw stale s) s t := by
  cases a with
  | cloudfuncRun env =>
    cases step
    exact quiet_hfCloudfuncRun aes connected only none
  | cloudfuncRest env =>
    cases step
    exact quiet_hfCloudfuncRest whole connected
  | recvDataFromCloud env pu8Data => exact .of_eq (calls_msgRecvDataFromCloud step)
  | cloudRecvfunc env received => exact quiet_hfCloudRecvfunc step
  | timerCallback env slot => exact quiet_hfTimerCallback aes core unsent step
  | timerAction env slot => exact quiet_hfTimerCallbackAction aes core unsent step
  | timerStop =>
    cases step
    refine .of_eq ?_
    rw [hfTimerCallbackStop]
    cases s.callback <;> rfl
  | moudleEvent env pu8Msg u16DataLen => exact absurd connected only
  | recvDataFromMoudle env pu8Data u16DataLen => exact absurd connected only
  | disConnectCloud | reconnectCloud _ | sleep => exact absurd scheduled id
  | hfSleep =>
    cases step
    exact quiet_hfSleep
  | hfWakeUp =>
    cases step
    have awake : ¬ s.con.u8MainState = .init := by rw [connected]; decide
    rw [hfWakeUp, pctWakeUp, if_neg awake]
    exact .of_eq rfl

end Steps

/-- A response is a message that goes on to the module. -/
theorem handlesCommand_of_handlesResponse {env : Env} {s : Sys}
    (handles : handlesResponse env s) : handlesCommand env s := by
  obtain ⟨connected, asked, message, taken, valid, code⟩ := handles
  refine ⟨connected, fun flagged => asked ⟨connected, flagged⟩, message, taken, valid, ?_⟩
  have apart : ∀ code ∈ responseCodes, code ∉ controllerCodes := by
    rw [← List.forall_iff_forall_mem]
    decide
  exact apart _ code

/-- Where only responses come, nothing else goes on to the module. -/
theorem handlesResponse_of_handlesCommand {env : Env} {s : Sys}
    (only : OnlyResponses s (.cloudfuncRun env)) (handles : handlesCommand env s) :
    handlesResponse env s := by
  obtain ⟨connected, bound, message, taken, _⟩ := handles
  have asked : ¬ unbindAsked s := fun both => bound both.2
  exact ⟨connected, asked, message, taken, only connected asked message taken⟩

theorem pctDispatch_command {fw : Firmware} {env : Env} {pstruMsg : ZcMessageHead} {payload : View}
    {pstruBuffer : BufPtr} {s : Sys} (command : pstruMsg.msgCode ∉ controllerCodes) :
    pctDispatch fw env pstruMsg payload pstruBuffer s = pctHandleMoudleMsg pstruBuffer s := by
  simp only [controllerCodes, List.mem_cons, List.not_mem_nil, or_false, not_or] at command
  obtain ⟨one, two, three, four, five, six, seven, eight⟩ := command
  rw [pctDispatch, if_neg one, if_neg two, if_neg three, if_neg four, if_neg five, if_neg six,
    if_neg seven, if_neg eight]

/-- A command that is handled is kept for retransmission. -/
theorem retransmits_of_handlesCommand (fw : Firmware) {env : Env} {s : Sys} (whole : s.inbox.Whole)
    (handles : handlesCommand env s) : Retransmits s (hfCloudfuncRun fw env s) := by
  obtain ⟨connected, bound, message, taken, valid, code⟩ := handles
  obtain ⟨pointer, next, popped, handled⟩ := pctRun_of_taken fw connected bound taken valid
  obtain ⟨_, rfl, _⟩ := whole.pop popped
  rw [pctDispatch_command code] at handled
  obtain ⟨names, _, kept, _⟩ := outbox_pctHandleMoudleMsg { s with recvQueue := next } .recvBuffer
  rw [hfCloudfuncRun, handled, Retransmits, popped]
  exact ⟨names, .recvBuffer, rfl, kept⟩

/-- In every run from the start in which a connected device takes nothing but valid responses from
the cloud and the module sends it nothing: the device never sends `ZC_CODE_EMPTY` or `ZC_CODE_ERR`
while it is connected and keeps no response for retransmission, if and only if it handles none. -/
theorem unanswered_iff (fw : Firmware) (flash : Option ZcConfigDb) (registerInfo : ZcRegisterInfo)
    (stale : Stale) (tape : List Action)
    (aes : ∀ key block, fw.crypto.aesDecrypt key (fw.crypto.aesEncrypt key block) = block)
    (scheduled : ∀ a ∈ tape, a.Scheduled)
    (only : (firmware fw).EachStep OnlyResponses (hfInit flash registerInfo) tape) :
    (firmware fw).EachStep (Unanswered fw stale) (hfInit flash registerInfo) tape ↔
      (firmware fw).EachStep HandlesNoResponse (hfInit flash registerInfo) tape := by
  have start : (hfInit flash registerInfo).ctl.Core ∧ (hfInit flash registerInfo).ctl.Unsent ∧
      (hfInit flash registerInfo).inbox.Whole :=
    ⟨core_hfInit flash registerInfo, ⟨rfl, fun _ => nofun⟩, whole_hfInit flash registerInfo⟩
  have allowed := only.and (PartialMachine.EachStep.of_forall (m := firmware fw)
    (C := fun _ a => a.Scheduled) fun _ => scheduled)
  refine PartialMachine.eachStep_iff_eachStep
    (I := fun s => s.ctl.Core ∧ s.ctl.Unsent ∧ s.inbox.Whole) ?_ ?_ start allowed
  · rintro s a ⟨core, unsent, whole⟩ ⟨only, scheduled⟩
    constructor
    · intro unanswered
      cases a with
      | cloudfuncRun env =>
        intro handles
        obtain ⟨_, kept⟩ := unanswered handles.1 _ rfl
        exact kept env rfl handles (retransmits_of_handlesCommand fw whole
          (handlesCommand_of_handlesResponse handles))
      | _ => trivial
    · intro none connected t step
      refine ⟨framesRead_eq_zero ?_, ?_⟩
      · exact quiet_step aes core unsent whole scheduled connected only none step
      · rintro env rfl handles
        exact absurd handles none
  · rintro s a t ⟨core, unsent, whole⟩ ⟨only, scheduled⟩ none step
    obtain ⟨label, moved, cause, _⟩ := explained fw s a t scheduled step
    refine ⟨core.step moved, unsent.step core ?_ moved, whole.run step⟩
    rintro rfl
    obtain ⟨env, rfl, handles⟩ := cause
    exact none (handlesResponse_of_handlesCommand only handles)

/-! ## An acknowledgement that is answered -/

/-- The heart timer runs out, and an acknowledgement comes in. -/
def acknowledging : List Action :=
  connecting ++ [.timerCallback .calm 1, .timerCallback .calm 1,
    .cloudRecvfunc .calm (some (plainFrame (messageBytes Code.ack 9 [])))]

/-- As long as it is not handled, the device keeps silent. -/
theorem unanswered_acknowledging :
    (firmware .plain).EachStep (Unanswered .plain Env.calm.stale) (hfInit none .zero)
      acknowledging := by
  have scheduled : ∀ a ∈ acknowledging, a.Scheduled := by
    simp [acknowledging, connecting, Action.Scheduled]
  have only : (firmware .plain).EachStep OnlyResponses (hfInit none .zero) acknowledging := by
    decide +kernel
  have none : (firmware .plain).EachStep HandlesNoResponse (hfInit .none .zero) acknowledging := by
    decide +kernel
  exact (unanswered_iff .plain .none .zero Env.calm.stale acknowledging (fun _ _ => rfl) scheduled
    only).mpr none

/-- It is handled, passed to the module five times, and the timer runs out once more. -/
def acknowledged : List Action :=
  connecting ++ [.cloudRecvfunc .calm (some (plainFrame (messageBytes Code.ack 9 []))),
    .cloudfuncRun .calm] ++ [2, 2, 3, 3, 2, 2, 3, 3, 2].map (.timerCallback .calm)

/-- Then the device answers the acknowledgement with `ZC_CODE_EMPTY` and `ZC_CODE_ERR`. -/
theorem unanswered_fails : (∀ a ∈ acknowledged, a.Scheduled) ∧
    (firmware .plain).EachStep OnlyResponses (hfInit none .zero) acknowledged ∧
      ∃ s t, (firmware .plain).replay? (hfInit none .zero) acknowledged = some s ∧
        s.con.u8MainState = .connectCloud ∧
          (firmware .plain).step? s (.timerCallback .calm 2) = some t ∧
            framesRead .plain Env.calm.stale isEmptyOrErr s t = 2 := by
  refine ⟨by simp [acknowledged, connecting, Action.Scheduled], by decide +kernel, ?_⟩
  have came : ((firmware .plain).replay? (hfInit none .zero) acknowledged).map (fun s =>
      (s.con.u8MainState, ((firmware .plain).step? s (.timerCallback .calm 2)).map
        (framesRead .plain Env.calm.stale isEmptyOrErr s))) = some (.connectCloud, some 2) := by
    decide +kernel
  obtain ⟨s, replayed, shown⟩ := Option.map_eq_some_iff.mp came
  obtain ⟨connected, sends⟩ := Prod.mk.inj shown
  obtain ⟨t, step, read⟩ := Option.map_eq_some_iff.mp sends
  exact ⟨s, t, replayed, connected, step, read⟩

end ShuangFa
