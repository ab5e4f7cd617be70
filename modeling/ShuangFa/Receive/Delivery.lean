import ShuangFa.Machine.Replay
import ShuangFa.Proofs.MessageQueue
import ShuangFa.Receive.Inbox

/-! # What a reception delivers

A step that hands a chunk to `MSG_RecvDataFromCloud` leaves the inbox alone, collects a part of a
frame, or completes a frame: then whatever the security engine left in the build buffer comes back
into the receive buffer, and a frame that opens is queued. In every run the receive queue is empty,
or it holds the receive buffer alone and that buffer is full.
-/

namespace ShuangFa

open Memory Machine Framing

/-- The message in a buffer. -/
def MsgBuffer.message (buffer : MsgBuffer) : List UInt8 :=
  buffer.u8MsgBuffer.bytes.take buffer.u32Len

/-- The chunk that a step hands to `MSG_RecvDataFromCloud`. -/
def chunkReceived (s : Sys) : Action → Option (Env × List UInt8)
  | .recvDataFromCloud env pu8Data => some (env, pu8Data)
  | .cloudRecvfunc env (some pu8Data) =>
    if (MainState.waitAccessRsp.code ≤ s.con.u8MainState.code ∧
        s.con.u8MainState.code < MainState.disconnectCloud.code) ∧
        0 < pu8Data.length ∧ pu8Data.length ≤ hfMaxSocketLen then some (env, pu8Data) else none
  | _ => none

/-- The frame that a chunk completes in the receive buffer. -/
def completedFrame (s : Sys) (pu8Data : List UInt8) : Option MsgBuffer :=
  match msgRecvData s.recvBuffer pu8Data with
  | some (.ok, frame) => if frame.u8Status = .full then some frame else none
  | _ => none

/-- The frame that a step completes. -/
def frameReceived (s : Sys) (a : Action) : Option (Env × MsgBuffer) :=
  (chunkReceived s a).bind fun chunk => (completedFrame s chunk.2).map fun frame => (chunk.1, frame)

/-- What holds of the frame a step completes, if it completes one. -/
def Completes (P : Env → MsgBuffer → Sys → Prop) (s : Sys) (a : Action) : Prop :=
  ∀ received ∈ frameReceived s a, P received.1 received.2 s

instance {P : Env → MsgBuffer → Sys → Prop} [∀ env frame s, Decidable (P env frame s)] (s : Sys)
    (a : Action) : Decidable (Completes P s a) := inferInstanceAs (Decidable (∀ _ ∈ _, _))

theorem Completes.of_received {P : Env → MsgBuffer → Sys → Prop} {s : Sys} {a : Action} {env : Env}
    {frame : MsgBuffer} (completes : Completes P s a)
    (received : frameReceived s a = some (env, frame)) : P env frame s := completes _ received

theorem not_completes_iff {P : Env → MsgBuffer → Sys → Prop} {s : Sys} {a : Action} :
    ¬ Completes P s a ↔ ∃ env frame, frameReceived s a = some (env, frame) ∧ ¬ P env frame s := by
  simp only [Completes, not_forall, Option.mem_def, exists_prop, Prod.exists]

/-- `TotalMsg` of a frame. -/
def frameTotal (env : Env) (frame : MsgBuffer) : ℕ :=
  zcHtons (ZcSecHead.load (frame.u8MsgBuffer.view env.beyond)).u16TotalMsg

/-- The algorithm `SEC_Decrypt` opens a frame with. -/
def frameAlg (env : Env) (frame : MsgBuffer) (s : Sys) : UInt8 :=
  secFlag s.zcConfigDb.struSwitchInfo.u32SecSwitch
    (ZcSecHead.load (frame.u8MsgBuffer.view env.beyond)).u8SecType

/-- `SEC_Decrypt` accepts a frame. -/
def Opens (fw : Firmware) (env : Env) (frame : MsgBuffer) (s : Sys) : Prop :=
  (decryptFrame fw env frame s).ret = .ok

instance (fw : Firmware) (env : Env) (frame : MsgBuffer) (s : Sys) :
    Decidable (Opens fw env frame s) := inferInstanceAs (Decidable (_ = _))

/-- The bytes that come back into the receive buffer for a frame. -/
def deliveredText (fw : Firmware) (env : Env) (frame : MsgBuffer) (s : Sys) : List UInt8 :=
  let result := decryptFrame fw env frame s
  (s.msgBuildBuffer.overlay 0 result.plain).bytes.take result.u16PlainLen

/-- The frame's text is in the receive buffer, and it is queued if it opened. -/
structure Delivers (fw : Firmware) (env : Env) (frame : MsgBuffer) (s t : Sys) : Prop where
  fits : (decryptFrame fw env frame s).u16PlainLen ≤ msgBufferMaxLen
  full : t.recvBuffer.u8Status = .full
  bytes : t.recvBuffer.u8MsgBuffer = frame.u8MsgBuffer.overlay 0 (deliveredText fw env frame s)
  message : t.recvBuffer.message = deliveredText fw env frame s
  main : t.inbox.main = s.inbox.main
  queue : t.recvQueue = if Opens fw env frame s then
    (msgPushMsg s.recvQueue .recvBuffer).2 else s.recvQueue
  sending : t.inbox.sending = s.inbox.sending
  retransmit : t.inbox.retransmit = s.inbox.retransmit

/-- What a step does to the inbox. -/
inductive Delivery (fw : Firmware) (s : Sys) (a : Action) (t : Sys) : Prop
  | quiet : frameReceived s a = none → s.inbox.Step t.inbox → Delivery fw s a t
  | collected (buffer : MsgBuffer) : frameReceived s a = none → s.recvBuffer.u8Status ≠ .full →
      buffer.u8Status ≠ .full → buffer.Sound → t.inbox = { s.inbox with buffer := buffer } →
      Delivery fw s a t
  | completed (env : Env) (frame : MsgBuffer) : frameReceived s a = some (env, frame) →
      s.recvBuffer.u8Status ≠ .full → Delivers fw env frame s t → Delivery fw s a t

section Receptions

variable {fw : Firmware} {env : Env} {s t : Sys} {a : Action} {pu8Data : List UInt8}

/-- A frame is complete only in a buffer that was not full. -/
theorem status_of_completed {frame : MsgBuffer} (completes : completedFrame s pu8Data = some frame) :
    s.recvBuffer.u8Status ≠ .full := by
  intro full
  simp only [completedFrame, msgRecvData_full full] at completes
  cases completes

theorem msgRecvData_of_completed {frame : MsgBuffer}
    (completes : completedFrame s pu8Data = some frame) :
    msgRecvData s.recvBuffer pu8Data = some (.ok, frame) ∧ frame.u8Status = .full := by
  rw [completedFrame] at completes
  rcases received : msgRecvData s.recvBuffer pu8Data with _ | ⟨_ | _, buffer⟩ <;>
    rw [received] at completes
  · cases completes
  · simp only at completes
    split_ifs at completes with full
    cases completes
    exact ⟨rfl, full⟩
  · cases completes

/-- A frame that is complete in a run is as long as its head says, and fits the buffer. -/
theorem frameTotal_le_of_completed {frame : MsgBuffer} (sound : s.recvBuffer.Sound)
    (completes : completedFrame s pu8Data = some frame) :
    frameTotal env frame + sizeofSecHead ≤ msgBufferMaxLen := by
  obtain ⟨received, full⟩ := msgRecvData_of_completed completes
  have outcome := msgRecvData_outcome sound (status_of_completed completes) received
  have head : frameTotal env frame + sizeofSecHead = frame.frameLen := by
    have inside (index : ℕ) (early : index < msgBufferMaxLen) :
        frame.u8MsgBuffer.view env.beyond index = View.ofList frame.u8MsgBuffer.bytes index := by
      rw [FixedBuffer.view_inside _ _ _ early, List.get_eq_getElem, View.ofList, List.getD_eq_getElem?_getD,
        List.getElem?_eq_getElem, Option.getD_some]
    simp only [frameTotal, MsgBuffer.frameLen, frameLen, ZcSecHead.load, loadU16,
      inside 0 (by decide), inside (0 + 1) (by decide)]
  cases outcome with
  | head _ status | body _ status => simp [status] at full
  | complete progress _ len same =>
    obtain ⟨headed, fits, whole⟩ := Format.progress_eq_complete_iff.mp progress
    rw [head, MsgBuffer.frameLen_of_take (len ▸ frameFormat.head_le_total _) frame.len_le
      (len ▸ whole) same]
    exact fits

/-- A frame that is complete is opened. -/
theorem delivers_of_completed {frame : MsgBuffer}
    (completes : completedFrame s pu8Data = some frame)
    (step : msgRecvDataFromCloud fw env pu8Data s = some t) : Delivers fw env frame s t := by
  obtain ⟨received, full⟩ := msgRecvData_of_completed completes
  rw [msgRecvDataFromCloud, received, Option.bind_eq_bind, Option.bind_some] at step
  simp only [full, and_self, if_true] at step
  obtain ⟨copied, copy, step⟩ := Option.bind_eq_some_iff.mp step
  cases step
  have copy := MsgBuffer.copyIn?_eq_some copy
  have fits := copy.fits
  have take := copy.take_eq
  rw [Nat.zero_add] at fits take
  refine ⟨fits, copy.status_eq, copy.bytes_eq, ?_, rfl, rfl, rfl, rfl⟩
  rw [MsgBuffer.message, copy.len_eq, Nat.zero_add, take]
  rfl

/-- The length that the security engine reports is the only thing that makes a reception undefined. -/
theorem exists_of_completed (fw : Firmware) (env : Env) {frame : MsgBuffer}
    (completes : completedFrame s pu8Data = some frame)
    (fits : (decryptFrame fw env frame s).u16PlainLen ≤ msgBufferMaxLen) :
    ∃ t, msgRecvDataFromCloud fw env pu8Data s = some t := by
  obtain ⟨received, full⟩ := msgRecvData_of_completed completes
  have copied : (frame.copyIn? 0
      (s.msgBuildBuffer.overlay 0 (decryptFrame fw env frame s).plain).bytes
      (decryptFrame fw env frame s).u16PlainLen .full).isSome := by
    apply MsgBuffer.copyIn?_isSome
    · rw [FixedBuffer.size_eq]
      exact fits
    · rwa [Nat.zero_add]
  obtain ⟨next, copied⟩ := Option.isSome_iff_exists.mp copied
  apply Option.isSome_iff_exists.mp
  rw [msgRecvDataFromCloud, received, Option.bind_eq_bind, Option.bind_some]
  simp only [full, and_self, if_true, copied]
  rfl

/-- A chunk that completes no frame is dropped or collected. -/
theorem collected_of_incomplete (sound : s.recvBuffer.Sound)
    (incomplete : completedFrame s pu8Data = none)
    (step : msgRecvDataFromCloud fw env pu8Data s = some t) : t.inbox = s.inbox ∨
      ∃ buffer : MsgBuffer, s.recvBuffer.u8Status ≠ .full ∧ buffer.u8Status ≠ .full ∧
        buffer.Sound ∧ t.inbox = { s.inbox with buffer := buffer } := by
  obtain ⟨⟨ret, buffer⟩, received, step⟩ := Option.bind_eq_some_iff.mp step
  rw [completedFrame, received] at incomplete
  by_cases full : s.recvBuffer.u8Status = .full
  · left
    rw [msgRecvData_full full] at received
    cases received
    cases step
    rfl
  · right
    have outcome := msgRecvData_outcome sound full received
    have partial' : ¬ (ret = .ok ∧ buffer.u8Status = .full) := by
      rintro ⟨rfl, complete⟩
      simp [complete] at incomplete
    have open' : buffer.u8Status ≠ .full := by
      intro complete
      cases outcome with
      | complete => exact partial' ⟨rfl, complete⟩
      | head _ status | body _ status | oversize _ status => simp [status] at complete
    simp only [partial', if_false] at step
    cases step
    exact ⟨buffer, full, open', outcome.sound, rfl⟩

/-- What a step that hands on a chunk does. -/
theorem delivery_of_chunk (sound : s.recvBuffer.Sound)
    (chunk : chunkReceived s a = some (env, pu8Data))
    (step : msgRecvDataFromCloud fw env pu8Data s = some t) : Delivery fw s a t := by
  cases completes : completedFrame s pu8Data with
  | none =>
    have nothing : frameReceived s a = none := by
      rw [frameReceived, chunk, Option.bind_some, completes, Option.map_none]
    rcases collected_of_incomplete sound completes step with same | ⟨buffer, awaits, part, kept, same⟩
    · exact .quiet nothing (.of_eq same .same)
    · exact .collected buffer nothing awaits part kept same
  | some frame =>
    have received : frameReceived s a = some (env, frame) := by
      rw [frameReceived, chunk, Option.bind_some, completes, Option.map_some]
    exact .completed env frame received (status_of_completed completes)
      (delivers_of_completed completes step)

/-- What any step does. -/
theorem delivery_of_step (sound : s.recvBuffer.Sound) (private' : s.inbox.Private)
    (step : (firmware fw).step? s a = some t) : Delivery fw s a t := by
  cases a with
  | recvDataFromCloud env pu8Data => exact delivery_of_chunk sound rfl step
  | cloudRecvfunc env received =>
    cases received with
    | none =>
      refine .quiet rfl ?_
      rcases ite_eq_iff.mp step with ⟨_, step⟩ | ⟨_, step⟩
      · cases step
        rw [inbox_resetUart, inbox_pctDisConnectCloud]
        exact .cleared _
      · cases step
        exact .same
    | some pu8Data =>
      by_cases handed : (MainState.waitAccessRsp.code ≤ s.con.u8MainState.code ∧
          s.con.u8MainState.code < MainState.disconnectCloud.code) ∧
          0 < pu8Data.length ∧ pu8Data.length ≤ hfMaxSocketLen
      · have taken : hfCloudRecvfunc fw env (some pu8Data) s = some t := step
        simp only [hfCloudRecvfunc, handed, and_self, if_true] at taken
        exact delivery_of_chunk sound (if_pos handed) taken
      · have nothing : frameReceived s (.cloudRecvfunc env (some pu8Data)) = none := by
          rw [frameReceived, chunkReceived, if_neg handed, Option.bind_none]
        refine .quiet nothing ?_
        rcases ite_eq_iff.mp step with ⟨up, step⟩ | ⟨_, step⟩
        · rw [if_neg fun length => handed ⟨up, length⟩] at step
          cases step
          exact .same
        · cases step
          exact .same
  | cloudfuncRun env =>
    cases step
    exact .quiet rfl (inbox_pctRun fw env s)
  | cloudfuncRest env =>
    cases step
    exact .quiet rfl (inbox_hfCloudfuncRest env s private')
  | timerCallback env slot => exact .quiet rfl (inbox_hfTimerCallback fw env s private' step)
  | timerAction env slot => exact .quiet rfl (inbox_hfTimerCallbackAction fw env s private' step)
  | timerStop =>
    cases step
    exact .quiet rfl (.of_eq (inbox_hfTimerCallbackStop s) .same)
  | moudleEvent env pu8Msg u16DataLen =>
    exact .quiet rfl (.of_eq (inbox_pctHandleMoudleEvent fw env s private' step) .same)
  | recvDataFromMoudle env pu8Data u16DataLen =>
    exact .quiet rfl (inbox_zcRecvDataFromMoudle fw env s private' step)
  | disConnectCloud =>
    cases step
    exact .quiet rfl (.of_eq (inbox_pctDisConnectCloud s) (.cleared _))
  | reconnectCloud u32ReConnectTimer =>
    cases step
    exact .quiet rfl (inbox_pctReconnectCloud s u32ReConnectTimer)
  | sleep =>
    cases step
    exact .quiet rfl (.of_eq (inbox_pctSleep s) (.cleared _))
  | hfSleep =>
    cases step
    exact .quiet rfl (.of_eq (inbox_hfSleep s) (.cleared _))
  | hfWakeUp =>
    cases step
    exact .quiet rfl (inbox_pctWakeUp s)

end Receptions

namespace Inbox

/-- What holds of the inbox in every run: the queue holds the receive buffer at most once, and then
the buffer is full. -/
structure Whole (inbox : Inbox) : Prop where
  sound : inbox.buffer.Sound
  sending : inbox.sending.Represents []
  retransmit : inbox.retransmit ≠ some .recvBuffer
  held : inbox.queue.Represents [] ∨
    inbox.queue.Represents [.recvBuffer] ∧ inbox.buffer.u8Status = .full

variable {inbox next : Inbox}

theorem Whole.private (whole : inbox.Whole) : inbox.Private :=
  ⟨whole.sending.pop_nil, whole.retransmit⟩

theorem Whole.empty (whole : inbox.Whole) (awaits : inbox.buffer.u8Status ≠ .full) :
    inbox.queue.Represents [] := by
  rcases whole.held with empty | ⟨_, full⟩
  · exact empty
  · exact absurd full awaits

/-- Only the receive buffer is ever taken, and nothing is left behind it. -/
theorem Whole.pop (whole : inbox.Whole) {pointer : BufPtr}
    {rest : MsgQueue msgQueueMaxLen BufPtr}
    (popped : msgPopMsg inbox.queue = (some pointer, rest)) :
    inbox.queue.Represents [.recvBuffer] ∧ pointer = .recvBuffer ∧ rest.Represents [] := by
  rcases whole.held with empty | ⟨holds, _⟩
  · rw [empty.pop_nil] at popped
    cases popped
  · obtain ⟨after, taken, left⟩ := holds.pop_cons
    rw [taken] at popped
    cases popped
    exact ⟨holds, rfl, left⟩

/-- A step other than a reception keeps the message or leaves none. -/
theorem Whole.step_cases (whole : inbox.Whole) (step : inbox.Step next) :
    (next.buffer = inbox.buffer ∧ next.queue = inbox.queue) ∨
      next.queue.Represents [] ∧ next.buffer.u8Status = .idle := by
  cases step with
  | kept => exact .inl ⟨rfl, rfl⟩
  | cleared => exact .inr ⟨.init, rfl⟩
  | taken main retransmit popped _ =>
    obtain ⟨_, rfl, left⟩ := whole.pop popped
    exact .inr ⟨left, rfl⟩

theorem Whole.step (whole : inbox.Whole) (step : inbox.Step next) : next.Whole := by
  have held : next.buffer.Sound ∧ (next.queue.Represents [] ∨
      next.queue.Represents [.recvBuffer] ∧ next.buffer.u8Status = .full) := by
    rcases whole.step_cases step with ⟨buffer, queue⟩ | ⟨empty, idle⟩
    · rw [buffer, queue]
      exact ⟨whole.sound, whole.held⟩
    · exact ⟨.of_idle idle, .inl empty⟩
  cases step with
  | kept => exact ⟨held.1, whole.sending, whole.retransmit, held.2⟩
  | cleared => exact ⟨held.1, .init, whole.retransmit, held.2⟩
  | taken main retransmit popped sends =>
    obtain ⟨_, rfl, _⟩ := whole.pop popped
    refine ⟨held.1, whole.sending, ?_, held.2⟩
    rcases sends with same | same
    · exact same ▸ whole.retransmit
    · exact same ▸ nofun

end Inbox

section Runs

variable {fw : Firmware} {env : Env} {frame : MsgBuffer} {s t : Sys} {a : Action}

/-- A frame that opens is the only one in the queue; one that does not leaves it empty. -/
theorem Delivers.represents (delivers : Delivers fw env frame s t)
    (empty : s.recvQueue.Represents []) :
    t.recvQueue.Represents (if Opens fw env frame s then [.recvBuffer] else []) := by
  rw [delivers.queue]
  split_ifs
  · obtain ⟨next, pushed, holds⟩ := empty.push (by decide) .recvBuffer
    rw [pushed]
    exact holds
  · exact empty

/-- Every step keeps what holds of the inbox in every run. -/
theorem Inbox.Whole.run (whole : s.inbox.Whole) (step : (firmware fw).step? s a = some t) :
    t.inbox.Whole := by
  cases delivery_of_step whole.sound whole.private step with
  | quiet _ moved => exact whole.step moved
  | collected buffer _ awaits _ sound same =>
    rw [same]
    exact ⟨sound, whole.sending, whole.retransmit, .inl (whole.empty awaits)⟩
  | completed env frame _ awaits delivers =>
    have holds := delivers.represents (whole.empty awaits)
    refine ⟨.of_full delivers.full, delivers.sending ▸ whole.sending,
      delivers.retransmit ▸ whole.retransmit, ?_⟩
    split_ifs at holds
    · exact .inr ⟨holds, delivers.full⟩
    · exact .inl holds

/-- A step that completes a frame delivers it, and nothing is queued but what it queues. -/
theorem Inbox.Whole.delivers (whole : s.inbox.Whole) (step : (firmware fw).step? s a = some t)
    (received : frameReceived s a = some (env, frame)) : Delivers fw env frame s t ∧
      t.recvQueue.Represents (if Opens fw env frame s then [.recvBuffer] else []) := by
  cases delivery_of_step whole.sound whole.private step with
  | quiet nothing _ | collected _ nothing _ _ _ _ => exact nomatch nothing.symm.trans received
  | completed env' frame' other awaits delivers =>
    obtain ⟨rfl, rfl⟩ := Prod.mk.inj (Option.some.inj (other.symm.trans received))
    exact ⟨delivers, delivers.represents (whole.empty awaits)⟩

theorem whole_hfInit (flash : Option ZcConfigDb) (registerInfo : ZcRegisterInfo) :
    (hfInit flash registerInfo).inbox.Whole :=
  ⟨.of_idle rfl, .init, nofun, .inl .init⟩

/-- In every state of every run the receive buffer and its queue belong together. -/
theorem whole_replay {flash : Option ZcConfigDb} {registerInfo : ZcRegisterInfo} {tape : List Action}
    {s : Sys} (reached : (firmware fw).replay? (hfInit flash registerInfo) tape = some s) :
    s.inbox.Whole :=
  PartialMachine.invariant_replay? (C := fun _ _ => True) (I := fun s : Sys => s.inbox.Whole)
    (fun _ _ _ whole _ step => whole.run step) (whole_hfInit flash registerInfo)
    (.of_forall fun _ _ _ => trivial) reached

end Runs

end ShuangFa
