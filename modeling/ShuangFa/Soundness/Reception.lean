import ShuangFa.Receive.Delivery

/-! # What the receive queue holds

The receive buffer is full exactly while it is queued, as long as every frame that is completed
opens: one that does not is left in the buffer with nothing in the queue, and nothing but a new
start of the connection empties the buffer again. The message in the queue declares no more than
was received as long as every frame that opens does.
-/

namespace ShuangFa

open Memory Machine

/-- The buffer is full when it is the one entry of the queue, and only then. -/
def QueuedIffFull (s : Sys) : Prop :=
  s.recvBuffer.u8Status = .full ↔ s.recvQueue.contents = [.recvBuffer]

instance : DecidablePred QueuedIffFull := fun _ => inferInstanceAs (Decidable (_ ↔ _))

theorem queuedIffFull_iff {s : Sys} (whole : s.inbox.Whole) : QueuedIffFull s ↔
    (s.recvBuffer.u8Status = .full → s.recvQueue.Represents [.recvBuffer]) := by
  rcases whole.held with empty | ⟨holds, full⟩
  · have nothing : s.recvQueue.contents = [] := empty.contents_eq
    rw [QueuedIffFull, nothing]
    constructor
    · exact fun same full => nomatch same.mp full
    · intro queued
      refine ⟨fun full => ?_, nofun⟩
      exact nothing.symm.trans (queued full).contents_eq
  · exact ⟨fun _ _ => holds, fun _ => ⟨fun _ => holds.contents_eq, fun _ => full⟩⟩

/-- In a run, whatever its steps, the buffer is full exactly while it is the entry of the queue if
and only if every frame that is completed opens. -/
theorem queuedIffFull_iff_opens (fw : Firmware) (flash : Option ZcConfigDb)
    (registerInfo : ZcRegisterInfo) (tape : List Action) (target : Sys)
    (replayed : (firmware fw).replay? (hfInit flash registerInfo) tape = some target) :
    (firmware fw).Throughout QueuedIffFull (hfInit flash registerInfo) tape ↔
      (firmware fw).EachStep (Completes (Opens fw)) (hfInit flash registerInfo) tape := by
  refine PartialMachine.throughout_iff_eachStep (A := fun _ => True)
    (I := fun s => s.inbox.Whole ∧ QueuedIffFull s) (fun s holds => holds.2) ?_ ?_
    ⟨whole_hfInit flash registerInfo, (queuedIffFull_iff (whole_hfInit flash registerInfo)).mpr nofun⟩
    (fun _ _ => trivial) replayed
  · rintro s a t ⟨whole, queued⟩ - opens step
    have still := whole.run step
    refine ⟨still, (queuedIffFull_iff still).mpr ?_⟩
    have queued := (queuedIffFull_iff whole).mp queued
    cases delivery_of_step whole.sound whole.private step with
    | quiet _ moved =>
      rcases whole.step_cases moved with ⟨buffer, queue⟩ | ⟨_, idle⟩
      · have buffer : t.recvBuffer = s.recvBuffer := buffer
        have queue : t.recvQueue = s.recvQueue := queue
        rwa [buffer, queue]
      · have idle : t.recvBuffer.u8Status = .idle := idle
        simp [idle]
    | collected buffer _ _ awaits _ same =>
      have buffer : t.recvBuffer = buffer := congrArg Inbox.buffer same
      exact fun full => absurd full (buffer ▸ awaits)
    | completed env frame received awaits delivers =>
      have holds := delivers.represents (whole.empty awaits)
      rw [if_pos (opens.of_received received)] at holds
      exact fun _ => holds
  · rintro s a t ⟨whole, _⟩ - rejects step queued
    have queued := (queuedIffFull_iff (whole.run step)).mp queued
    obtain ⟨env, frame, received, rejects⟩ := not_completes_iff.mp rejects
    obtain ⟨delivers, holds⟩ := whole.delivers step received
    rw [if_neg rejects] at holds
    have both := holds.contents_eq.symm.trans (queued delivers.full).contents_eq
    cases both

/-- Every frame of a connection in the clear opens. -/
theorem queuedIffFull_connecting :
    (firmware .plain).Throughout QueuedIffFull (hfInit none .zero) connecting := by
  have defined : ((firmware .plain).replay? (hfInit none .zero) connecting).isSome := by
    decide +kernel
  obtain ⟨target, replayed⟩ := Option.isSome_iff_exists.mp defined
  exact (queuedIffFull_iff_opens .plain none .zero connecting target replayed).mpr
    (by decide +kernel)

/-- While the second handshake message is awaited there is no key yet, and a frame of the AES type
does not open. -/
def keylessFrame : List Action :=
  [.hfWakeUp, .cloudfuncRun .calm, .cloudfuncRun .calm,
    .cloudRecvfunc .calm (some (ZcSecHead.mk 0 zcSecAlgAes 0).bytes)]

theorem queuedIffFull_fails : ((firmware .plain).replay? (hfInit none .zero) keylessFrame).isSome ∧
    ¬ (firmware .plain).Throughout QueuedIffFull (hfInit none .zero) keylessFrame := by
  decide +kernel

/-! ## The length a message declares -/

/-- A message has a head, and the payload its head declares. -/
def HoldsPayload (message : List UInt8) : Prop :=
  sizeofMessageHead ≤ message.length ∧
    sizeofMessageHead + zcHtons (ZcMessageHead.load (.ofList message)).payloadlen ≤ message.length

instance : DecidablePred HoldsPayload := fun _ => inferInstanceAs (Decidable (_ ∧ _))

/-- The message that `MSG_PopMsg` would return holds its payload. -/
def PopHoldsPayload (s : Sys) : Prop :=
  ∀ pointer ∈ (msgPopMsg s.recvQueue).1, HoldsPayload (s.buffer pointer).message

instance : DecidablePred PopHoldsPayload := fun _ => inferInstanceAs (Decidable (∀ _ ∈ _, _))

/-- A frame that opens gives a message that holds its payload. -/
def OpensPayload (fw : Firmware) (env : Env) (frame : MsgBuffer) (s : Sys) : Prop :=
  Opens fw env frame s → HoldsPayload (deliveredText fw env frame s)

instance (fw : Firmware) (env : Env) (frame : MsgBuffer) (s : Sys) :
    Decidable (OpensPayload fw env frame s) := inferInstanceAs (Decidable (_ → _))

theorem popHoldsPayload_iff {s : Sys} (whole : s.inbox.Whole) : PopHoldsPayload s ↔
    (s.recvQueue.Represents [.recvBuffer] → HoldsPayload s.recvBuffer.message) := by
  rw [PopHoldsPayload]
  rcases whole.held with empty | ⟨holds, _⟩
  · have popped : msgPopMsg s.recvQueue = (none, s.recvQueue) := empty.pop_nil
    rw [popped]
    refine ⟨fun _ queued => ?_, fun _ => nofun⟩
    have both := empty.contents_eq.symm.trans queued.contents_eq
    cases both
  · obtain ⟨next, popped, _⟩ := holds.pop_cons
    have popped : msgPopMsg s.recvQueue = (some .recvBuffer, next) := popped
    rw [popped]
    refine ⟨fun all _ => all _ rfl, fun queued => ?_⟩
    rintro pointer ⟨⟩
    exact queued holds

/-- In a run, whatever its steps, the message in the queue holds its payload if and only if every
frame that opens gives one that does. -/
theorem popHoldsPayload_iff_opens (fw : Firmware) (flash : Option ZcConfigDb)
    (registerInfo : ZcRegisterInfo) (tape : List Action) (target : Sys)
    (replayed : (firmware fw).replay? (hfInit flash registerInfo) tape = some target) :
    (firmware fw).Throughout PopHoldsPayload (hfInit flash registerInfo) tape ↔
      (firmware fw).EachStep (Completes (OpensPayload fw)) (hfInit flash registerInfo) tape := by
  have start := whole_hfInit flash registerInfo
  refine PartialMachine.throughout_iff_eachStep (A := fun _ => True)
    (I := fun s => s.inbox.Whole ∧ PopHoldsPayload s) (fun s holds => holds.2) ?_ ?_
    ⟨start, (popHoldsPayload_iff start).mpr fun queued => ?_⟩ (fun _ _ => trivial) replayed
  · rintro s a t ⟨whole, held⟩ - opens step
    have still := whole.run step
    refine ⟨still, (popHoldsPayload_iff still).mpr ?_⟩
    have held := (popHoldsPayload_iff whole).mp held
    have nothing (empty : t.recvQueue.Represents []) : ¬ t.recvQueue.Represents [.recvBuffer] :=
      fun queued => nomatch empty.contents_eq.symm.trans queued.contents_eq
    cases delivery_of_step whole.sound whole.private step with
    | quiet _ moved =>
      rcases whole.step_cases moved with ⟨buffer, queue⟩ | ⟨empty, _⟩
      · have buffer : t.recvBuffer = s.recvBuffer := buffer
        have queue : t.recvQueue = s.recvQueue := queue
        rwa [buffer, queue]
      · exact fun queued => absurd queued (nothing empty)
    | collected buffer _ awaits _ _ same =>
      have queue : t.recvQueue = s.recvQueue := congrArg Inbox.queue same
      exact fun queued => absurd queued (nothing (queue ▸ whole.empty awaits))
    | completed env frame received awaits delivers =>
      intro queued
      have holds := delivers.represents (whole.empty awaits)
      split_ifs at holds with opened
      · rw [delivers.message]
        exact opens.of_received received opened
      · exact absurd queued (nothing holds)
  · rintro s a t ⟨whole, _⟩ - breaks step held
    have held := (popHoldsPayload_iff (whole.run step)).mp held
    obtain ⟨env, frame, received, breaks⟩ := not_completes_iff.mp breaks
    obtain ⟨opened, short⟩ := Classical.not_imp.mp breaks
    obtain ⟨delivers, holds⟩ := whole.delivers step received
    rw [if_pos opened] at holds
    exact short (delivers.message ▸ held holds)
  · have both := MsgQueue.Represents.init.contents_eq.symm.trans queued.contents_eq
    cases both

/-- Every message of a connection in the clear holds its payload. -/
theorem popHoldsPayload_connecting :
    (firmware .plain).Throughout PopHoldsPayload (hfInit none .zero) connecting := by
  have defined : ((firmware .plain).replay? (hfInit none .zero) connecting).isSome := by
    decide +kernel
  obtain ⟨target, replayed⟩ := Option.isSome_iff_exists.mp defined
  exact (popHoldsPayload_iff_opens .plain none .zero connecting target replayed).mpr
    (by decide +kernel)

/-- The second handshake message declares a payload of 48 bytes and ends behind its head. -/
def headOnly : List Action :=
  [.hfWakeUp, .cloudfuncRun .calm, .cloudfuncRun .calm,
    .cloudRecvfunc .calm (some (plainFrame
      (ZcMessageHead.mk zcVersion 1 Code.handshake2 0 (zcHtons 48) (0, 0)).bytes))]

theorem popHoldsPayload_fails : ((firmware .plain).replay? (hfInit none .zero) headOnly).isSome ∧
    ¬ (firmware .plain).Throughout PopHoldsPayload (hfInit none .zero) headOnly := by
  decide +kernel

end ShuangFa
