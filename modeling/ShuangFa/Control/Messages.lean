import ShuangFa.Control.Frames

/-! # What a message asks for, and what its handler makes of it

The predicates say which message a step takes and what its code, its checksum and the main state
make of it. The handlers with many branches are inverted once, branch by branch; what a step does to
a part of the state is read off the branches.
-/

namespace ShuangFa

open Memory

section Messages

variable (env : Env) (s : Sys)

/-- The memory behind the message a handler takes from the receive queue. -/
def takenMessage : Option View :=
  (msgPopMsg s.recvQueue).1.map fun pointer => (s.buffer pointer).u8MsgBuffer.view env.beyond

/-- The checksum in the head of a message is the one of its payload. -/
def checksumHolds (message : View) : Prop :=
  pctCheckCrc (ZcMessageHead.load message).totalMsgCrc (message.read sizeofMessageHead
    (zcHtons (ZcMessageHead.load message).payloadlen)) = .ok

instance (message : View) : Decidable (checksumHolds message) :=
  inferInstanceAs (Decidable (_ = _))

theorem not_checksumHolds {message : View} : ¬ checksumHolds message ↔
    pctCheckCrc (ZcMessageHead.load message).totalMsgCrc (message.read sizeofMessageHead
      (zcHtons (ZcMessageHead.load message).payloadlen)) = .error := by
  rw [checksumHolds]
  cases pctCheckCrc _ _ <;> simp

/-- A handler that is given the payload apart takes the same checksum. -/
theorem payloadFails_iff {message : View} :
    pctCheckCrc (ZcMessageHead.load message).totalMsgCrc
      ((message.shift sizeofMessageHead).read 0 (zcHtons (ZcMessageHead.load message).payloadlen)) =
        .error ↔ ¬ checksumHolds message := by
  rw [View.read_shift, Nat.add_zero]
  exact not_checksumHolds.symm

/-- A message of a handshake that a party takes: its code, its checksum, the echo of `RandMsg`. -/
def echoes (msgCode : UInt8) (message : View) : Prop :=
  (ZcMessageHead.load message).msgCode = msgCode ∧ checksumHolds message ∧
    message.read sizeofMessageHead zcHsMsgLen = s.con.randMsg.bytes

instance (msgCode : UInt8) (message : View) : Decidable (echoes s msgCode message) :=
  inferInstanceAs (Decidable (_ ∧ _ ∧ _))

/-- The session key of the second handshake message that is accepted, if one is. -/
def acceptedKey : Option (FixedBuffer zcHsSessionKeyLen) :=
  ((takenMessage env s).filter fun message => echoes s Code.handshake2 message).map fun message =>
    .ofView message (sizeofMessageHead + zcHsMsgLen) zcHsSessionKeyLen

/-- Whether a fourth handshake message is accepted. -/
def accepts4 : Bool :=
  (takenMessage env s).any fun message => echoes s Code.handshake4 message

/-- A connection is made. -/
def connects : Prop :=
  s.con.u8MainState = .accessNet ∧ s.con.u8ReconnectTimer = none ∧ (hfConnectToCloud env s).1 = .ok

instance : Decidable (connects env s) := inferInstanceAs (Decidable (_ ∧ _ ∧ _))

/-- The module or the user wants the device unbound. -/
def unbindAsked : Prop :=
  s.con.u8MainState = .connectCloud ∧ s.zcConfigDb.struDeviceInfo.u32UnBindFlag = zcMagicFlag

instance : Decidable (unbindAsked s) := inferInstanceAs (Decidable (_ ∧ _))

/-- The codes of a cloud message that the controller answers itself. -/
def controllerCodes : List UInt8 :=
  [Code.zotaBegin, Code.zotaFileBegin, Code.zotaFileChunk, Code.zotaFileEnd, Code.zotaEnd,
    Code.tokenSet, Code.resetNetwork, Code.unbind]

/-- A message that goes on to the module. -/
def isCommand (message : View) : Prop :=
  checksumHolds message ∧ (ZcMessageHead.load message).msgCode ∉ controllerCodes

instance (message : View) : Decidable (isCommand message) := inferInstanceAs (Decidable (_ ∧ _))

/-- A command is handled. -/
def handlesCommand : Prop :=
  s.con.u8MainState = .connectCloud ∧
    s.zcConfigDb.struDeviceInfo.u32UnBindFlag ≠ zcMagicFlag ∧
      ∃ message ∈ takenMessage env s, isCommand message

instance : Decidable (handlesCommand env s) :=
  decidable_of_iff (s.con.u8MainState = .connectCloud ∧
    s.zcConfigDb.struDeviceInfo.u32UnBindFlag ≠ zcMagicFlag ∧
      (takenMessage env s).any fun message => isCommand message) (by
    simp only [handlesCommand, Option.any_eq_true, decide_eq_true_eq, Option.mem_def])

/-- A message that resets the network parameters is handled. -/
def handlesReset : Prop :=
  s.con.u8MainState = .connectCloud ∧
    s.zcConfigDb.struDeviceInfo.u32UnBindFlag ≠ zcMagicFlag ∧
      ∃ message ∈ takenMessage env s, checksumHolds message ∧
        (ZcMessageHead.load message).msgCode = Code.resetNetwork

instance : Decidable (handlesReset env s) :=
  decidable_of_iff (s.con.u8MainState = .connectCloud ∧
    s.zcConfigDb.struDeviceInfo.u32UnBindFlag ≠ zcMagicFlag ∧
      (takenMessage env s).any fun message => checksumHolds message ∧
        (ZcMessageHead.load message).msgCode = Code.resetNetwork) (by
    simp only [handlesReset, Option.any_eq_true, decide_eq_true_eq, Option.mem_def])

/-- A message is handled while an unbinding is awaited. -/
def handlesWhileUnbinding : Prop :=
  s.con.u8MainState = .waitUnbind ∧ (takenMessage env s).isSome

instance : Decidable (handlesWhileUnbinding env s) := inferInstanceAs (Decidable (_ ∧ _))

end Messages

section Taking

variable (fw : Firmware) {env : Env} {s : Sys} {message : View}

/-- A connected device that is not to be unbound handles the message it takes. -/
theorem pctRun_of_taken (connected : s.con.u8MainState = .connectCloud)
    (bound : s.zcConfigDb.struDeviceInfo.u32UnBindFlag ≠ zcMagicFlag)
    (taken : takenMessage env s = some message) (valid : checksumHolds message) :
    ∃ pointer next, msgPopMsg s.recvQueue = (some pointer, next) ∧
      pctRun fw env s = (pctDispatch fw env (ZcMessageHead.load message)
        (message.shift sizeofMessageHead) pointer
          { s with recvQueue := next }).resetBuffer pointer := by
  obtain ⟨pointer, popped, rfl⟩ := Option.map_eq_some_iff.mp taken
  obtain ⟨first, next, pop⟩ : ∃ first next, msgPopMsg s.recvQueue = (first, next) := ⟨_, _, rfl⟩
  rw [pop] at popped
  obtain rfl : first = some pointer := popped
  refine ⟨pointer, next, pop, ?_⟩
  have succeeds := mt not_checksumHolds.mpr (not_not_intro valid)
  simp only [pctRun, connected, pctHandleEvent, if_neg bound, pop, if_neg succeeds]

end Taking

/-- A register message of the module that is not answered but taken. -/
def registers (pu8Data : View) (u16DataLen : ℕ) (s : Sys) : Prop :=
  (s.con.u8MainState = .sleep ∨ s.con.u8MainState = .init) ∧ u16DataLen ≠ 0 ∧
    checksumHolds pu8Data ∧ ((ZcMessageHead.load pu8Data).msgCode = Code.regsiter ∨
      (ZcMessageHead.load pu8Data).msgCode = Code.ext ∧
        pu8Data sizeofMessageHead = Code.extRegsiter)

instance (pu8Data : View) (u16DataLen : ℕ) (s : Sys) : Decidable (registers pu8Data u16DataLen s) :=
  inferInstanceAs (Decidable (_ ∧ _))

/-- The codes of a module message that the manager deals with itself. -/
def moudleCodes : List UInt8 :=
  [Code.regsiter, Code.eqBegin, Code.zotaFileBegin, Code.zotaFileChunk, Code.zotaFileEnd, Code.rest,
    Code.config, Code.unbind, Code.ext]

/-- A message of the module that goes on to the cloud. -/
def relays (pu8Data : View) (u16DataLen : ℕ) (s : Sys) : Prop :=
  s.con.u8MainState = .connectCloud ∧ u16DataLen ≠ 0 ∧ checksumHolds pu8Data ∧
    (ZcMessageHead.load pu8Data).msgCode ∉ moudleCodes

instance (pu8Data : View) (u16DataLen : ℕ) (s : Sys) : Decidable (relays pu8Data u16DataLen s) :=
  inferInstanceAs (Decidable (_ ∧ _))

/-- A message of the module is the reply to the command that is being sent. -/
def isReply (pu8Msg : View) (s : Sys) : Prop :=
  s.con.u8SendMoudleTimer.isSome ∧ (ZcMessageHead.load pu8Msg).msgCode < 200

instance (pu8Msg : View) (s : Sys) : Decidable (isReply pu8Msg s) :=
  inferInstanceAs (Decidable (_ ∧ _))

/-- The second time a timer elapses its timeout action arms it again, but for the last
retransmission of a command. -/
def armsAgain (slot : TimerIndex) (s : Sys) : Prop :=
  s.timers.running slot = true ∧ (s.timers.struHfTimer slot).u32FirstFlag = false ∧
    ((s.timers.struTimer slot).u8Type = .sendMoudle →
      (s.con.u8ReSendMoudleNum + 1) % 2 ^ 8 ≤ pctSendMoudleNum)

instance (slot : TimerIndex) (s : Sys) : Decidable (armsAgain slot s) :=
  inferInstanceAs (Decidable (_ ∧ _ ∧ _))

/-- The module says that a file has ended. -/
def endsFile (pu8Data : View) (u16DataLen : ℕ) : Prop :=
  u16DataLen ≠ 0 ∧ checksumHolds pu8Data ∧
    (ZcMessageHead.load pu8Data).msgCode = Code.zotaFileEnd

instance (pu8Data : View) (u16DataLen : ℕ) : Decidable (endsFile pu8Data u16DataLen) :=
  inferInstanceAs (Decidable (_ ∧ _))

section Events

variable (fw : Firmware) (env : Env) (pu8Msg : View) (u16DataLen : ℕ) (s : Sys)

/-- The state in which `PCT_HandleMoudleEvent` sends the event: a reply has ended its command. -/
def eventReleased : Option Sys :=
  match s.con.u8SendMoudleTimer with
  | some slot =>
    if (ZcMessageHead.load pu8Msg).msgCode < 200 then
      pctReleaseMoudle fw env (ZcMessageHead.load pu8Msg).msgId slot s
    else some s
  | none => some s

theorem pctHandleMoudleEvent_eq : pctHandleMoudleEvent fw env pu8Msg u16DataLen s =
    (eventReleased fw env pu8Msg s).bind fun released =>
      (pctSendMsgToCloud? fw env ⟨zcHtons u16DataLen, zcSecAlgAes, env.u8Resver⟩ pu8Msg
        released).map Prod.snd := rfl

/-- A command that a reply has ended. -/
def releasedMoudle (slot : TimerIndex) (pointer : BufPtr) : Sys :=
  let released := (timerStopTimer (some .sendMoudle) slot s).resetBuffer pointer
  { released with con := { released.con with
      u8SendMoudleTimer := none
      u8ReSendMoudleNum := 0 } }

theorem ctl_releasedMoudle (slot : TimerIndex) (pointer : BufPtr) :
    (releasedMoudle s slot pointer).ctl =
      { s.ctl.stop (some .sendMoudle) slot with sendMoudle := none } := by
  have stopped := ctl_timerStopTimer s (some .sendMoudle) slot
  cases pointer <;> exact congrArg (fun c : Ctl => { c with sendMoudle := none }) stopped

/-- An event is sent in the state it has come in, or where it is a reply that has ended its command
and was confirmed. -/
inductive EventReleased : Sys → Prop
  | kept : ¬ isReply pu8Msg s → EventReleased s
  | replied (slot : TimerIndex) (pointer : BufPtr) : s.con.u8SendMoudleTimer = some slot →
      isReply pu8Msg s → s.con.pu8SendMoudleBuffer = some pointer →
      EventReleased (pctSendEmptyMsg fw env (ZcMessageHead.load pu8Msg).msgId zcSecAlgAes
        (releasedMoudle s slot pointer))

variable {fw env pu8Msg u16DataLen s}

theorem eventReleased_cases {t : Sys} (released : eventReleased fw env pu8Msg s = some t) :
    EventReleased fw env pu8Msg s t := by
  rw [eventReleased] at released
  cases pending : s.con.u8SendMoudleTimer with
  | none =>
    rw [pending] at released
    cases released
    exact .kept fun reply => by simp [isReply, pending] at reply
  | some slot =>
    simp only [pending] at released
    split_ifs at released with reply
    · obtain ⟨pointer, names, rfl⟩ := Option.map_eq_some_iff.mp released
      exact .replied slot pointer pending ⟨by rw [pending]; rfl, reply⟩ names
    · cases released
      exact .kept fun both => reply both.2

/-- Whatever an event has ended, it is sent to the cloud. -/
theorem pctHandleMoudleEvent_sends {t : Sys}
    (step : pctHandleMoudleEvent fw env pu8Msg u16DataLen s = some t) :
    ∃ released ret, EventReleased fw env pu8Msg s released ∧
      pctSendMsgToCloud? fw env ⟨zcHtons u16DataLen, zcSecAlgAes, env.u8Resver⟩ pu8Msg released =
        some (ret, t) := by
  rw [pctHandleMoudleEvent_eq] at step
  obtain ⟨released, release, sending⟩ := Option.bind_eq_some_iff.mp step
  obtain ⟨⟨ret, _⟩, sent, rfl⟩ := Option.map_eq_some_iff.mp sending
  exact ⟨released, ret, eventReleased_cases release, sent⟩

end Events

section Moudle

variable (fw : Firmware) (env : Env) (pu8Data : View) (u16DataLen : ℕ) (s : Sys)

/-- The state in which the module has asked for an unbinding. -/
def unbindFlagged : Sys :=
  { s with zcConfigDb := zcConfigUnBind zcMagicFlag s.zcConfigDb }.writeFlash

/-- The state in which the module has set the parameters of the network. -/
def reconfigured : Sys :=
  { s with zcConfigDb := zcConfigPara (pu8Data.shift sizeofMessageHead) s.zcConfigDb }.writeFlash

/-- The branches of `ZC_RecvDataFromMoudle`. -/
inductive MoudleHandled : Sys → Prop
  | dropped : MoudleHandled s
  | registered : u16DataLen ≠ 0 → checksumHolds pu8Data →
      (ZcMessageHead.load pu8Data).msgCode = Code.regsiter →
      MoudleHandled (registerAnswer (fun s => { s with
        registerInfo := zcStoreRegisterInfo (pu8Data.shift sizeofMessageHead) false env.u8Mac }) s)
  | begun : MoudleHandled (pctSendNotifyMsg Code.eqDone s)
  | begunOnline :
      MoudleHandled (pctSendNotifyMsg Code.wifiConnected (pctSendNotifyMsg Code.eqDone s))
  | fileBegun : MoudleHandled (pctModuleOtaFileBeginMsg (pu8Data.shift sizeofMessageHead) s)
  | chunk : MoudleHandled (pctModuleOtaFileChunkMsg env (ZcMessageHead.load pu8Data)
      (pu8Data.shift sizeofMessageHead) s)
  | fileEnded : endsFile pu8Data u16DataLen →
      MoudleHandled (pctSendNotifyMsg Code.zotaEnd (pctModuleOtaFileEndMsg env s))
  | rested : MoudleHandled (s.call .rest)
  | configured : MoudleHandled (reconfigured pu8Data s)
  | unbound : MoudleHandled (unbindFlagged s)
  | unboundRested : MoudleHandled ((unbindFlagged s).call .rest)
  | extended : u16DataLen ≠ 0 → checksumHolds pu8Data →
      (ZcMessageHead.load pu8Data).msgCode = Code.ext →
      MoudleHandled (zcDealExtCode env (pu8Data.shift sizeofMessageHead) s)
  | relayed {t : Sys} : relays pu8Data u16DataLen s →
      pctHandleMoudleEvent fw env pu8Data u16DataLen s = some t → MoudleHandled t
  | refused : MoudleHandled (pctSendNotifyMsg Code.cloudDisconnected s)

variable {fw env pu8Data u16DataLen s}

/-- Every message of the module takes one of the branches. -/
theorem zcRecvDataFromMoudle_cases {t : Sys}
    (step : zcRecvDataFromMoudle fw env pu8Data u16DataLen s = some t) :
    MoudleHandled fw env pu8Data u16DataLen s t := by
  have took {u : Sys} (handled : MoudleHandled fw env pu8Data u16DataLen s u)
      (last : some u = some t) : MoudleHandled fw env pu8Data u16DataLen s t := by
    cases last
    exact handled
  simp only [zcRecvDataFromMoudle] at step
  rcases ite_eq_iff.mp step with ⟨_, step⟩ | ⟨nonempty, step⟩
  · exact took .dropped step
  rcases ite_eq_iff.mp step with ⟨_, step⟩ | ⟨checksum, step⟩
  · exact took .dropped step
  have valid : checksumHolds pu8Data :=
    Decidable.not_not.mp fun fails => checksum (payloadFails_iff.mpr fails)
  rcases ite_eq_iff.mp step with ⟨code, step⟩ | ⟨one, step⟩
  · exact took (.registered nonempty valid code) step
  rcases ite_eq_iff.mp step with ⟨_, step⟩ | ⟨two, step⟩
  · split_ifs at step
    · exact took .begunOnline step
    · exact took .begun step
  rcases ite_eq_iff.mp step with ⟨_, step⟩ | ⟨three, step⟩
  · exact took .fileBegun step
  rcases ite_eq_iff.mp step with ⟨_, step⟩ | ⟨four, step⟩
  · exact took .chunk step
  rcases ite_eq_iff.mp step with ⟨code, step⟩ | ⟨five, step⟩
  · exact took (.fileEnded ⟨nonempty, valid, code⟩) step
  rcases ite_eq_iff.mp step with ⟨_, step⟩ | ⟨six, step⟩
  · exact took .rested step
  rcases ite_eq_iff.mp step with ⟨_, step⟩ | ⟨seven, step⟩
  · exact took .configured step
  rcases ite_eq_iff.mp step with ⟨_, step⟩ | ⟨eight, step⟩
  · split_ifs at step
    · exact took .unboundRested step
    · exact took .unbound step
  rcases ite_eq_iff.mp step with ⟨code, step⟩ | ⟨nine, step⟩
  · exact took (.extended nonempty valid code) step
  rcases ite_eq_iff.mp step with ⟨main, step⟩ | ⟨_, step⟩
  · refine .relayed ⟨main, nonempty, valid, ?_⟩ step
    simp only [moudleCodes, List.mem_cons, List.not_mem_nil, or_false, not_or]
    exact ⟨one, two, three, four, five, six, seven, eight, nine⟩
  · exact took .refused step

end Moudle

section Reception

variable {fw : Firmware} {env : Env} {s t : Sys}

/-- A reception changes the buffers it goes through and the queue. -/
theorem msgRecvDataFromCloud_changes {pu8Data : List UInt8}
    (step : msgRecvDataFromCloud fw env pu8Data s = some t) :
    ∃ recvBuffer recvQueue msgBuildBuffer, t = { s with recvBuffer, recvQueue, msgBuildBuffer } := by
  obtain ⟨⟨ret, recvBuffer⟩, _, step⟩ := Option.bind_eq_some_iff.mp step
  rcases ite_eq_iff.mp step with ⟨_, step⟩ | ⟨_, step⟩
  · obtain ⟨copied, _, step⟩ := Option.bind_eq_some_iff.mp step
    cases step
    exact ⟨_, _, _, rfl⟩
  · cases step
    exact ⟨_, _, _, rfl⟩

/-- The receive thread finds the end of a connection, receives something, or does nothing. -/
theorem hfCloudRecvfunc_cases {received : Option (List UInt8)}
    (step : hfCloudRecvfunc fw env received s = some t) :
    (MainState.waitAccessRsp.code ≤ s.con.u8MainState.code ∧
        s.con.u8MainState.code < MainState.disconnectCloud.code) ∧ received = none ∧
      t = (pctDisConnectCloud s).resetUart ∨
    (∃ pu8Data, msgRecvDataFromCloud fw env pu8Data s = some t) ∨ t = s := by
  rcases ite_eq_iff.mp step with ⟨up, step⟩ | ⟨_, step⟩
  · cases received with
    | none => exact .inl ⟨up, rfl, (Option.some.inj step).symm⟩
    | some pu8Data =>
      rcases ite_eq_iff.mp step with ⟨_, step⟩ | ⟨_, step⟩
      · exact .inr (.inl ⟨pu8Data, step⟩)
      · exact .inr (.inr (Option.some.inj step).symm)
  · exact .inr (.inr (Option.some.inj step).symm)

end Reception

section Timeouts

variable (fw : Firmware) (env : Env) (s : Sys)

/-- The branches of `TIMER_TimeoutAction`. -/
inductive TimeoutActs : TimerType → Sys → Prop
  | reconnect : TimeoutActs .reconnect { s with con := { s.con with
      u8ReconnectTimer := none
      u8MainState := .accessNet } }
  | reaccess : TimeoutActs .reaccess (pctDisConnectCloud s)
  | sendMoudle {t : Sys} : pctSendMoudleTimeout fw env s = some t → TimeoutActs .sendMoudle t
  | sendHeart : TimeoutActs .sendHeart (pctSendHeartMsg fw env s)
  | register : TimeoutActs .register (pctSendNotifyMsg Code.wifiConnected
      (hfSetTimer .register pctTimerIntervalRegister .register s))
  | sendUbind : TimeoutActs .sendUbind (pctSendUnbindMsg fw env s)

variable {fw env s}

/-- The timeout action of a slot is the one of the type it carries. -/
theorem timerTimeoutAction_cases {slot : TimerIndex} {t : Sys}
    (step : timerTimeoutAction fw env slot s = some t) :
    TimeoutActs fw env s (s.timers.struTimer slot).u8Type t := by
  rw [timerTimeoutAction] at step
  cases type : (s.timers.struTimer slot).u8Type with
  | sendMoudle =>
    rw [type] at step
    exact .sendMoudle step
  | reconnect | reaccess | sendHeart | register | sendUbind =>
    rw [type] at step
    cases step
    constructor

end Timeouts

end ShuangFa
