import ShuangFa.Control.Refinement
import ShuangFa.Receive.Delivery

/-! # Which algorithm opened a message

The second handshake message is encrypted by the module's public key and everything behind it by the
session key. Which algorithm opens a frame is the frame's own choice, so a message reaches a handler
under the algorithm of the main state only when the cloud chooses it: the main state that handles a
message prescribes the same algorithm as the one that received it.
-/

namespace ShuangFa

open Memory Machine

/-- The algorithm the messages handled in a main state are encrypted by. -/
def prescribedAlg : MainState → Option UInt8
  | .waitAccessRsp => some zcSecAlgRsa
  | .waitMsg4 | .connectCloud | .waitUnbind => some zcSecAlgAes
  | _ => none

/-- The message that a handler of a cloud message takes in an iteration. -/
def handledMessage (s : Sys) : Option (List UInt8) :=
  if (prescribedAlg s.con.u8MainState).isSome ∧ ¬ unbindAsked s then
    (msgPopMsg s.recvQueue).1.map fun pointer => (s.buffer pointer).message
  else none

/-- What an observer of the messages sees: with which algorithm a message was opened, and in which
main state a message was handled. -/
inductive MessageEvent where
  | opened (alg : UInt8) (message : List UInt8)
  | handled (main : MainState) (message : List UInt8)

/-- The messages handled in a step. -/
def handledEvents (s : Sys) : Action → List MessageEvent
  | .cloudfuncRun _ => (handledMessage s).toList.map (.handled s.con.u8MainState)
  | _ => []

def messageEvents (fw : Firmware) (s : Sys) (a : Action) : List MessageEvent :=
  match frameReceived s a with
  | some (env, frame) =>
    if Opens fw env frame s then [.opened (frameAlg env frame s) (deliveredText fw env frame s)]
    else []
  | none => handledEvents s a

/-- Every message handled is the last one opened, under the algorithm its main state prescribes. -/
def HandledAsPrescribed : Option (UInt8 × List UInt8) → List MessageEvent → Prop
  | _, [] => True
  | _, .opened alg message :: rest => HandledAsPrescribed (some (alg, message)) rest
  | last, .handled main message :: rest =>
    (last.any fun opened => opened.2 = message ∧ prescribedAlg main = some opened.1) ∧
      HandledAsPrescribed last rest

instance decidableHandledAsPrescribed : (last : Option (UInt8 × List UInt8)) →
    (seen : List MessageEvent) → Decidable (HandledAsPrescribed last seen)
  | _, [] => isTrue trivial
  | _, .opened alg message :: rest => decidableHandledAsPrescribed (some (alg, message)) rest
  | last, .handled _ _ :: rest =>
    have : Decidable (HandledAsPrescribed last rest) := decidableHandledAsPrescribed last rest
    inferInstanceAs (Decidable (_ ∧ _))

/-- The last message opened. -/
def lastOpened : Option (UInt8 × List UInt8) → List MessageEvent → Option (UInt8 × List UInt8)
  | last, [] => last
  | _, .opened alg message :: rest => lastOpened (some (alg, message)) rest
  | last, .handled _ _ :: rest => lastOpened last rest

theorem lastOpened_append (last : Option (UInt8 × List UInt8)) (first second : List MessageEvent) :
    lastOpened last (first ++ second) = lastOpened (lastOpened last first) second := by
  induction first generalizing last with
  | nil => rfl
  | cons event rest ih => cases event <;> exact ih _

theorem handledAsPrescribed_append (last : Option (UInt8 × List UInt8))
    (first second : List MessageEvent) : HandledAsPrescribed last (first ++ second) ↔
      HandledAsPrescribed last first ∧ HandledAsPrescribed (lastOpened last first) second := by
  induction first generalizing last with
  | nil => simp only [List.nil_append, HandledAsPrescribed, lastOpened, true_and]
  | cons event rest ih =>
    cases event with
    | opened alg message => exact ih _
    | handled main message =>
      simp only [List.cons_append, HandledAsPrescribed, lastOpened, ih, and_assoc]

/-- A frame that opens has the type that the main state prescribes. -/
def TypedAsPrescribed (fw : Firmware) (env : Env) (frame : MsgBuffer) (s : Sys) : Prop :=
  Opens fw env frame s → prescribedAlg s.con.u8MainState =
    some (ZcSecHead.load (frame.u8MsgBuffer.view env.beyond)).u8SecType

instance (fw : Firmware) (env : Env) (frame : MsgBuffer) (s : Sys) :
    Decidable (TypedAsPrescribed fw env frame s) := inferInstanceAs (Decidable (_ → _))

/-- The security switch is on. -/
def Switched (s : Sys) : Prop := s.zcConfigDb.struSwitchInfo.u32SecSwitch = 1

instance : DecidablePred Switched := fun _ => inferInstanceAs (Decidable (_ = _))

/-- The steps of the threads, the only ones that hand on what the peer sends. -/
def Action.Peered : Action → Prop
  | .recvDataFromCloud _ _ => False
  | a => a.Scheduled

theorem Action.Peered.scheduled {a : Action} (peered : a.Peered) : a.Scheduled := by
  cases a <;> first | exact peered | trivial

namespace Ctl

/-- The network is accessed from the early main states only. -/
theorem Core.early_of_accessNet {c d : Ctl} {label : Label} (core : c.Core)
    (step : c.Step label d) (main : d.main = .accessNet) : c.main.Early := by
  have timeout {slot : TimerIndex} {type : TimerType} {again : Bool} {e : Ctl}
      (run : c.running slot = true) (carries : c.slots slot ∈ [none, some type])
      (timeout : (c.elapse slot).Timeout type again e) (now : e.main = .accessNet) :
      c.main.Early := by
    cases timeout with
    | reconnect =>
      have pending := core.named slot run (core.carries run carries)
      rcases core.waiting fun none => by simp [none] at pending with main | main <;>
        rw [main] <;> trivial
    | reaccess => cases now
    | givenUp =>
      rw [show c.main = .accessNet from now]
      trivial
    | sendMoudle | sendHeart | register | sendUbind =>
      rw [show c.main = .accessNet from (set_main (c := c.elapse slot)).symm.trans now]
      trivial
  cases step with
  | stay => rw [main]; trivial
  | connect _ main' _ => rw [main']; trivial
  | access1Sent main' => rw [main']; trivial
  | access1Failed main' => rw [main']; trivial
  | wakeUp main' => rw [main']; trivial
  | register early => rcases early with main' | main' <;> rw [main'] <;> trivial
  | access2 main' outcome =>
    cases outcome with
    | ignored => cases main'.symm.trans main
    | corrupt | refused => cases main
    | accepted key => cases set_main.symm.trans main
  | access4 main' outcome =>
    have before := (stopHandle_main _).symm.trans (set_main.symm.trans main)
    cases outcome with
    | ignored => cases main'.symm.trans before
    | corrupt | refused | accepted => cases before
  | unbindStart main' => cases (stopHandle_main _).symm.trans (set_main.symm.trans main)
  | unbindMessage main' outcome =>
    have before := set_main.symm.trans main
    cases outcome with
    | other => cases main'.symm.trans before
    | answered => cases before
  | command main' =>
    have before := set_main.symm.trans ((stopHandle_main _).symm.trans (set_main.symm.trans main))
    cases main'.symm.trans before
  | networkReset _ | peerClosed _ => cases main
  | reconnect _ _ => cases main
  | sleep => cases main
  | reply _ => rw [show c.main = .accessNet from main]; trivial
  | fire _ run carries step => exact timeout run carries step main
  | action _ run carries step => exact timeout run carries step main
  | callbackStop _ => rw [show c.main = .accessNet from main]; trivial

end Ctl

/-- The message in the queue is the last one opened, under the algorithm of the main state. -/
def QueuedAsPrescribed (last : Option (UInt8 × List UInt8)) (inbox : Inbox) : Prop :=
  inbox.queue.Represents [.recvBuffer] → last.any fun opened =>
    opened.2 = inbox.buffer.message ∧ prescribedAlg inbox.main = some opened.1

theorem QueuedAsPrescribed.of_empty {last : Option (UInt8 × List UInt8)} {inbox : Inbox}
    (empty : inbox.queue.Represents []) : QueuedAsPrescribed last inbox :=
  fun queued => nomatch empty.contents_eq.symm.trans queued.contents_eq

/-- Nothing is prescribed before the cloud has been asked for access. -/
theorem prescribedAlg_early {main : MainState} (early : main.Early) : prescribedAlg main = none := by
  cases main <;> first | rfl | exact early.elim

/-- A step that leaves messages in the queue leaves the algorithm for them. -/
theorem QueuedAsPrescribed.step {last : Option (UInt8 × List UInt8)} {inbox next : Inbox}
    (queued : QueuedAsPrescribed last inbox) (whole : inbox.Whole) (step : inbox.Step next)
    (accessed : next.main = .accessNet → inbox.main.Early) : QueuedAsPrescribed last next := by
  cases step with
  | kept main moves =>
    have nothing (early : inbox.main.Early) : QueuedAsPrescribed last { inbox with main := main } := by
      intro holds
      have known := queued holds
      rw [prescribedAlg_early early] at known
      cases last <;> simp at known
    rcases moves with rfl | early | rfl | ⟨connected, rfl⟩
    · exact queued
    · exact nothing early
    · exact nothing (accessed rfl)
    · intro holds
      have known := queued holds
      rw [connected] at known
      exact known
  | cleared main => exact .of_empty .init
  | taken main retransmit popped _ =>
    obtain ⟨_, rfl, left⟩ := whole.pop popped
    exact .of_empty left

/-- A step that completes no frame handles at most the message in the queue. -/
theorem handled_quiet (fw : Firmware) {s : Sys} {a : Action} {last : Option (UInt8 × List UInt8)}
    (nothing : frameReceived s a = none) (whole : s.inbox.Whole)
    (queued : QueuedAsPrescribed last s.inbox) :
    HandledAsPrescribed last (messageEvents fw s a) ∧
      lastOpened last (messageEvents fw s a) = last := by
  rw [messageEvents, nothing]
  cases a with
  | cloudfuncRun env =>
    simp only [handledEvents, handledMessage]
    split_ifs
    · rcases popped : msgPopMsg s.recvQueue with ⟨_ | pointer, next⟩
      · exact ⟨trivial, rfl⟩
      · obtain ⟨holds, rfl, _⟩ := whole.pop popped
        exact ⟨⟨queued holds, trivial⟩, rfl⟩
    · exact ⟨trivial, rfl⟩
  | _ => exact ⟨trivial, rfl⟩

/-- In a run with the security switch on in which every frame that opens has the type that the main
state prescribes, every message that is handled was opened with the algorithm its main state
prescribes. -/
theorem handledAsPrescribed_of_typed (fw : Firmware) (flash : Option ZcConfigDb)
    (registerInfo : ZcRegisterInfo) (tape : List Action) (target : Sys)
    (peered : ∀ a ∈ tape, a.Peered)
    (switched : (firmware fw).EachStep (fun s _ => Switched s) (hfInit flash registerInfo) tape)
    (typed : (firmware fw).EachStep (Completes (TypedAsPrescribed fw)) (hfInit flash registerInfo)
      tape)
    (replayed : (firmware fw).replay? (hfInit flash registerInfo) tape = some target) :
    HandledAsPrescribed none
      ((firmware fw).history (messageEvents fw) (hfInit flash registerInfo) tape) := by
  have steps := (switched.and typed).and (PartialMachine.EachStep.of_forall fun _ => peered)
  refine (PartialMachine.history_invariant (I := fun seen s => HandledAsPrescribed none seen ∧
    s.ctl.Core ∧ s.inbox.Whole ∧ QueuedAsPrescribed (lastOpened none seen) s.inbox) ?_
    ⟨trivial, core_hfInit flash registerInfo, whole_hfInit flash registerInfo, .of_empty .init⟩
    steps replayed).1
  rintro seen s a t ⟨prescribed, core, whole, queued⟩ ⟨⟨on, types⟩, peered⟩ step
  obtain ⟨label, moved, _⟩ := explained fw s a t peered.scheduled step
  have accessed : t.inbox.main = .accessNet → s.inbox.main.Early := core.early_of_accessNet moved
  suffices HandledAsPrescribed (lastOpened none seen) (messageEvents fw s a) ∧
      QueuedAsPrescribed (lastOpened (lastOpened none seen) (messageEvents fw s a)) t.inbox by
    rw [handledAsPrescribed_append, lastOpened_append]
    exact ⟨⟨prescribed, this.1⟩, core.step moved, whole.run step, this.2⟩
  cases delivery_of_step whole.sound whole.private step with
  | quiet nothing moves =>
    obtain ⟨handles, same⟩ := handled_quiet fw nothing whole queued
    rw [same]
    exact ⟨handles, queued.step whole moves accessed⟩
  | collected buffer nothing awaits _ _ same =>
    refine ⟨(handled_quiet fw nothing whole queued).1, .of_empty ?_⟩
    rw [same]
    exact whole.empty awaits
  | completed env frame received awaits delivers =>
    have holds := delivers.represents (whole.empty awaits)
    simp only [messageEvents, received]
    split_ifs with opened
    · refine ⟨trivial, fun _ => ?_⟩
      have prescribes := types.of_received received opened
      have switch : s.zcConfigDb.struSwitchInfo.u32SecSwitch = 1 := on
      have alg : frameAlg env frame s =
          (ZcSecHead.load (frame.u8MsgBuffer.view env.beyond)).u8SecType := by
        rw [frameAlg, switch]
        rfl
      have main : t.inbox.main = s.con.u8MainState := delivers.main
      simp only [lastOpened, Option.any_some, decide_eq_true_eq]
      exact ⟨delivers.message.symm, by rw [main, prescribes, alg]⟩
    · rw [if_neg opened] at holds
      exact ⟨trivial, .of_empty holds⟩

/-- A frame of two RSA blocks with a pad byte each, for ciphers that leave blocks as they are. -/
def rsaFrame (message : List UInt8) : List UInt8 :=
  (ZcSecHead.mk (zcHtons (2 * zcSecRsaKeyBytes)) zcSecAlgRsa 0).bytes ++
    [0, rsaCrypt, 1, 0] ++ message.take 28 ++ [0, rsaCrypt, 1, 0] ++ message.drop 28

/-- A frame in AES blocks chained from the key, for ciphers that leave blocks as they are. -/
def aesFrame (key : AesBlock) (message : List UInt8) : List UInt8 :=
  let cipher := aesCbcCoreEncrypt id (.ofList message) message.length key
  (ZcSecHead.mk (zcHtons cipher.length) zcSecAlgAes 0).bytes ++ cipher

/-- The steps that connect a device to a cloud that encrypts as it should. -/
def connectingSecured : List Action :=
  let echo := (zcRand Env.calm.rand).bytes
  let key : AesBlock := ⟨List.replicate 16 7, rfl⟩
  [.hfWakeUp, .cloudfuncRun .calm, .cloudfuncRun .calm,
    .cloudRecvfunc .calm (some (rsaFrame (messageBytes Code.handshake2 1 (echo ++ key.bytes)))),
    .cloudfuncRun .calm,
    .cloudRecvfunc .calm (some (aesFrame key (messageBytes Code.handshake4 1 echo))),
    .cloudfuncRun .calm]

theorem handledAsPrescribed_secured : HandledAsPrescribed none
    ((firmware .plain).history (messageEvents .plain) (hfInit none .zero) connectingSecured) := by
  have defined : ((firmware .plain).replay? (hfInit none .zero) connectingSecured).isSome := by
    decide +kernel
  have peered : ∀ a ∈ connectingSecured, a.Peered := by
    simp [connectingSecured, Action.Peered, Action.Scheduled]
  have switched : (firmware .plain).EachStep (fun s _ => Switched s) (hfInit none .zero)
      connectingSecured := by decide +kernel
  have typed : (firmware .plain).EachStep (Completes (TypedAsPrescribed .plain))
      (hfInit none .zero) connectingSecured := by decide +kernel
  generalize connectingSecured = tape at *
  obtain ⟨target, replayed⟩ := Option.isSome_iff_exists.mp defined
  exact handledAsPrescribed_of_typed .plain none .zero tape target peered switched typed replayed

/-- A device with the switch on is connected by a cloud that encrypts nothing. -/
theorem handledAsPrescribed_fails : (∀ a ∈ connecting, a.Peered) ∧
    (firmware .plain).EachStep (fun s _ => Switched s) (hfInit none .zero) connecting ∧
    ¬ HandledAsPrescribed none
      ((firmware .plain).history (messageEvents .plain) (hfInit none .zero) connecting) :=
  ⟨by simp [connecting, Action.Peered, Action.Scheduled], by decide +kernel, by decide +kernel⟩

example : ((firmware .plain).replay? (hfInit none .zero) connectingSecured).map
    (·.con.u8MainState) = some .connectCloud := by decide +kernel

end ShuangFa
