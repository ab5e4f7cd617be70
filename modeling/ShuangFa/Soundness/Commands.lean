import ShuangFa.Control.Refinement
import ShuangFa.Control.Tending
import ShuangFa.Send.Outbox
import ShuangFa.Soundness.Answers
import ShuangFa.Soundness.Handshake

/-! # Commands for the module

Within a connection commands of the cloud, messages of the module and expiries of command timers
come in any order. As long as no command comes while another one is out and every command timer
that is armed finds an idle slot, each command is passed at most once and four times more, is not
passed again once the module has replied or the cloud was told that it is given up, and is otherwise
still there to be passed again.
-/

namespace ShuangFa

open Memory SlotPool Machine

/-- What happens to the commands of a connection. -/
inductive MoudleStep where
  | handleMoudleMsg (pstruBuffer : MsgBuffer)
  | handleMoudleEvent (env : Env) (pu8Msg : View) (u16DataLen : ℕ)
  | sendMoudleTimer (env : Env) (slot : TimerIndex)

namespace MoudleStep

/-- A command is in the receive buffer when it is handled, and only a command timer expires. -/
def run (fw : Firmware) (s : Sys) : MoudleStep → Option Sys
  | handleMoudleMsg pstruBuffer =>
    some (pctHandleMoudleMsg .recvBuffer { s with recvBuffer := pstruBuffer })
  | handleMoudleEvent env pu8Msg u16DataLen => pctHandleMoudleEvent fw env pu8Msg u16DataLen s
  | sendMoudleTimer env slot =>
    if s.timers.struTimer slot = ⟨.used, .sendMoudle⟩ then hfTimerCallback fw env slot s else some s

/-- The callback of a slot takes its timeout action. -/
def elapses (s : Sys) (slot : TimerIndex) : Prop :=
  s.timers.struTimer slot = ⟨.used, .sendMoudle⟩ ∧ s.callback = none ∧
    s.timers.running slot = true ∧ (s.timers.struHfTimer slot).u32FirstFlag = false

instance (s : Sys) (slot : TimerIndex) : Decidable (elapses s slot) :=
  inferInstanceAs (Decidable (_ ∧ _ ∧ _ ∧ _))

/-- No command is out when one comes, which is long enough for its `MsgId`, and a timer that is armed
finds an idle slot. -/
def Alone (s : Sys) : MoudleStep → Prop
  | handleMoudleMsg pstruBuffer => s.con.u8SendMoudleTimer = none ∧ 2 ≤ pstruBuffer.u32Len ∧
      ∃ idle, (s.timers.struTimer idle).u8Status = .idle
  | handleMoudleEvent _ _ _ => True
  | sendMoudleTimer _ slot => elapses s slot →
      (s.con.u8ReSendMoudleNum + 1) % 2 ^ 8 ≤ pctSendMoudleNum →
        ∃ idle, (s.timers.struTimer idle).u8Status = .idle

instance (s : Sys) : (step : MoudleStep) → Decidable (Alone s step)
  | handleMoudleMsg _ => inferInstanceAs (Decidable (_ ∧ _ ∧ _))
  | handleMoudleEvent _ _ _ => isTrue trivial
  | sendMoudleTimer _ _ => inferInstanceAs (Decidable (_ → _ → _))

end MoudleStep

/-- The commands of a connection, the replies and the expiries. -/
def exchange (fw : Firmware) : PartialMachine Sys MoudleStep := ⟨MoudleStep.run fw⟩

/-- What an observer of a command sees: that it comes, each time it is passed, a reply of the module,
and the two messages that give it up. -/
inductive CommandEvent where
  | taken (message : List UInt8)
  | passed (message : List UInt8)
  | replied
  | gaveUp (msgId : UInt8)
deriving DecidableEq

section Observer

/-- The id in the head of a message. -/
def messageId (message : List UInt8) : UInt8 := (ZcMessageHead.load (.ofList message)).msgId

def messageCode (message : List UInt8) : UInt8 := (ZcMessageHead.load (.ofList message)).msgCode

/-- The message that the cloud reads in a call, if it is a frame that opens. -/
def AdapterCall.readMessage (crypto : Crypto) (peer : SecContext) (stale : Stale) :
    AdapterCall → Option (List UInt8)
  | .sendTcpData _ frame => frameMessage crypto peer stale frame
  | _ => none

variable (fw : Firmware) (stale : Stale)

/-- The messages that the cloud reads in what a step hands to `pfunSendTcpData`. -/
def messagesRead (s t : Sys) : List (List UInt8) :=
  (t.calls.drop s.calls.length).filterMap
    (AdapterCall.readMessage fw.crypto (cloudEnd s.secContext) stale)

/-- `ZC_CODE_EMPTY`, and `ZC_CODE_ERR` with the same id. -/
def GivesUp (first second : List UInt8) : Prop :=
  messageCode first = Code.empty ∧ messageCode second = Code.err ∧
    messageId second = messageId first

instance (first second : List UInt8) : Decidable (GivesUp first second) :=
  inferInstanceAs (Decidable (_ ∧ _ ∧ _))

/-- The ids that two messages give up, the one right behind the other. -/
def givenUpIds : List (List UInt8) → List UInt8
  | first :: second :: rest =>
    (if GivesUp first second then [messageId first] else []) ++ givenUpIds (second :: rest)
  | _ => []

/-- What a step has passed to the module. -/
def passedIn (s : Sys) (step : MoudleStep) : List (List UInt8) :=
  match step.run fw s with
  | none => []
  | some t => t.outbox.passed.drop s.outbox.passed.length

/-- What a step gives up. -/
def gaveUpIn (s : Sys) (step : MoudleStep) : List UInt8 :=
  match step.run fw s with
  | none => []
  | some t => givenUpIds (messagesRead fw stale s t)

/-- The command that a step takes from the cloud. -/
def takenIn : MoudleStep → List CommandEvent
  | .handleMoudleMsg pstruBuffer => [.taken pstruBuffer.message]
  | _ => []

/-- The reply that comes from the module. -/
def repliedIn : MoudleStep → List CommandEvent
  | .handleMoudleEvent _ pu8Msg _ =>
    if (ZcMessageHead.load pu8Msg).msgCode < 200 then [.replied] else []
  | _ => []

def commandEvents (s : Sys) (step : MoudleStep) : List CommandEvent :=
  takenIn step ++ (passedIn fw s step).map .passed ++ repliedIn step ++
    (gaveUpIn fw stale s step).map .gaveUp

end Observer

/-- A command that is out, and how often it was passed. -/
abbrev OpenCommand := List UInt8 × ℕ

/-- One of the commands with a message has been passed once more. -/
def passOnce (message : List UInt8) : List OpenCommand → List OpenCommand
  | [] => []
  | (other, times) :: rest =>
    if other = message then (other, times + 1) :: rest else (other, times) :: passOnce message rest

namespace CommandEvent

/-- The commands that are out after an event, the last one first. A reply is for the last one. -/
def update (commands : List OpenCommand) : CommandEvent → List OpenCommand
  | taken message => (message, 0) :: commands
  | passed message => passOnce message commands
  | replied => commands.tail
  | gaveUp msgId => commands.eraseP (messageId ·.1 = msgId)

/-- Only a command that is out is passed, and no more than once and four times again. -/
def Allowed (commands : List OpenCommand) : CommandEvent → Prop
  | passed message =>
    (commands.find? (·.1 = message)).any fun command => command.2 < 1 + pctSendMoudleNum
  | _ => True

instance (commands : List OpenCommand) : (event : CommandEvent) → Decidable (Allowed commands event)
  | passed _ => inferInstanceAs (Decidable (_ = true))
  | taken _ | replied | gaveUp _ => isTrue trivial

end CommandEvent

/-- The commands that are out after some events. -/
def openCommands (commands : List OpenCommand) (events : List CommandEvent) : List OpenCommand :=
  events.foldl CommandEvent.update commands

/-- Every event is allowed where it happens. -/
def Served : List OpenCommand → List CommandEvent → Prop
  | _, [] => True
  | commands, event :: rest => event.Allowed commands ∧ Served (event.update commands) rest

instance decidableServed : (commands : List OpenCommand) → (events : List CommandEvent) →
    Decidable (Served commands events)
  | _, [] => isTrue trivial
  | commands, event :: rest =>
    have : Decidable (Served (event.update commands) rest) := decidableServed _ rest
    inferInstanceAs (Decidable (_ ∧ _))

theorem served_append (commands : List OpenCommand) (first second : List CommandEvent) :
    Served commands (first ++ second) ↔
      Served commands first ∧ Served (openCommands commands first) second := by
  induction first generalizing commands with
  | nil => exact ⟨fun served => ⟨trivial, served⟩, And.right⟩
  | cons event rest ih =>
    rw [List.cons_append, Served, Served, ih, and_assoc]
    rfl

theorem openCommands_append (commands : List OpenCommand) (first second : List CommandEvent) :
    openCommands commands (first ++ second) = openCommands (openCommands commands first) second :=
  List.foldl_append ..

/-- When nothing is out there is nothing to give up. -/
theorem served_gaveUp (msgIds : List UInt8) : Served [] (msgIds.map .gaveUp) := by
  induction msgIds with
  | nil => trivial
  | cons _ _ ih => exact ⟨trivial, ih⟩

theorem openCommands_gaveUp (msgIds : List UInt8) : openCommands [] (msgIds.map .gaveUp) = [] := by
  induction msgIds with
  | nil => rfl
  | cons _ _ ih => exact ih

/-- The messages that wait to be passed again: a live command timer is named, and the message is in
the buffer it is for. -/
def waitingMessages (s : Sys) : List (List UInt8) :=
  match s.con.u8SendMoudleTimer with
  | none => []
  | some slot =>
    if s.timers.struTimer slot = ⟨.used, .sendMoudle⟩ ∧ s.timers.running slot = true then
      (pendingMessage s).toList
    else []

/-! ## The frames of a step -/

section Frames

variable {fw : Firmware} {env : Env} {s t : Sys} (stale : Stale)

theorem messagesRead_eq {calls : List AdapterCall} (same : t.calls = s.calls ++ calls) :
    messagesRead fw stale s t = calls.filterMap
      (AdapterCall.readMessage fw.crypto (cloudEnd s.secContext) stale) := by
  rw [messagesRead, same, List.drop_left]

/-- It takes two frames to give a command up. -/
theorem givenUpIds_of_length_le : {messages : List (List UInt8)} → messages.length ≤ 1 →
    givenUpIds messages = []
  | [], _ | [_], _ => rfl
  | _ :: _ :: _, short => absurd short (by simp)

/-- The two messages of the controller give the id up. -/
theorem givenUpIds_pair (msgId : UInt8) :
    givenUpIds [eventBuildEmptyMsg msgId, eventBuildMsg Code.err msgId []] = [msgId] := by
  have gives : GivesUp (eventBuildEmptyMsg msgId) (eventBuildMsg Code.err msgId []) :=
    ⟨rfl, rfl, rfl⟩
  rw [givenUpIds, if_pos gives]
  rfl

theorem gaveUpIn_eq {step : MoudleStep} (run : step.run fw s = some t) :
    gaveUpIn fw stale s step = givenUpIds (messagesRead fw stale s t) := by
  rw [gaveUpIn, run]

/-- A step that makes at most one call gives nothing up. -/
theorem gaveUpIn_nil {step : MoudleStep} (run : step.run fw s = some t) {calls : List AdapterCall}
    (same : t.calls = s.calls ++ calls) (few : calls.length ≤ 1) : gaveUpIn fw stale s step = [] := by
  rw [gaveUpIn_eq stale run, messagesRead_eq stale same]
  exact givenUpIds_of_length_le (Nat.le_trans (List.length_filterMap_le ..) few)

theorem calls_pctHandleMoudleMsg (s : Sys) (pstruBuffer : BufPtr) :
    (pctHandleMoudleMsg pstruBuffer s).calls =
      s.calls ++ [.sendToMoudle (s.buffer pstruBuffer).message] := by
  simp only [pctHandleMoudleMsg, calls_hfSetTimer, calls_stopHandle, Sys.call]
  rfl

/-- A message to the cloud makes one call at most. -/
theorem calls_pctSendMsgToCloud? {head : ZcSecHead} {pu8PlainData : View} {ret : Ret}
    (sent : pctSendMsgToCloud? fw env head pu8PlainData s = some (ret, t)) :
    ∃ calls, t.calls = s.calls ++ calls ∧ calls.length ≤ 1 := by
  have silent : s.calls = s.calls ++ [] := (List.append_nil _).symm
  simp only [pctSendMsgToCloud?] at sent
  split_ifs at sent <;> cases sent
  · exact ⟨[], silent, Nat.zero_le _⟩
  · exact ⟨[], silent, Nat.zero_le _⟩
  · exact ⟨[_], rfl, Nat.le_refl _⟩
  · exact ⟨[], silent, Nat.zero_le _⟩

/-- With a key the cloud reads both messages that give a command up. -/
theorem messagesRead_giveUp (keyed : s.con.u8keyRecv = true) (idle : s.sendStatus = .idle)
    (aes : ∀ key block, fw.crypto.aesDecrypt key (fw.crypto.aesEncrypt key block) = block)
    (msgId : UInt8) : messagesRead fw stale s
        (pctSendErrorMsg fw env msgId (pctSendEmptyMsg fw env msgId zcSecAlgAes s)) =
      [eventBuildEmptyMsg msgId, eventBuildMsg Code.err msgId []] := by
  have short (msgCode : UInt8) : (messageBytes msgCode msgId []).length ≤ aesTextMax :=
    Nat.le_of_ble_eq_true rfl
  obtain ⟨first, calls, reads⟩ := frame_of_keyed fw env env.u8Resver keyed idle (short Code.empty)
    (aes _) stale
  have sent := pctSendEmptyMsg_onlySends fw env s msgId zcSecAlgAes
  have still := (sendStatus_pctSendEmptyMsg fw env s msgId zcSecAlgAes).trans idle
  change (pctSendEmptyMsg fw env msgId zcSecAlgAes s).calls = _ at calls
  generalize pctSendEmptyMsg fw env msgId zcSecAlgAes s = emptied at calls sent still ⊢
  have context := sent.secContext
  obtain ⟨second, last, readsLast⟩ := frame_of_keyed fw env
    (s := emptied.build (eventBuildMsg Code.err msgId [])) env.u8Resver
    ((congrArg SecContext.u8keyRecv context).trans keyed) still (short Code.err) (aes _) stale
  have both : (pctSendErrorMsg fw env msgId emptied).calls = s.calls ++
      [.sendTcpData s.con.struCloudConnection.u32Socket first,
        .sendTcpData emptied.con.struCloudConnection.u32Socket second] := by
    rw [List.append_cons, ← calls]
    exact last
  have peer : (emptied.build (eventBuildMsg Code.err msgId [])).secContext = s.secContext := context
  rw [peer] at readsLast
  rw [messagesRead_eq stale both]
  simp only [List.filterMap_cons, AdapterCall.readMessage, reads, readsLast, List.filterMap_nil]
  rfl

theorem messagesRead_congr {given sent : Sys} (calls : given.calls = s.calls)
    (context : given.secContext = s.secContext) (later : sent.calls = t.calls) :
    messagesRead fw stale given sent = messagesRead fw stale s t := by
  rw [messagesRead, calls, context, later, messagesRead]

/-- The last expiry of a command in the retransmission buffer tells the cloud its id. -/
theorem messagesRead_pctSendMoudleTimeout (keyed : s.con.u8keyRecv = true)
    (idle : s.sendStatus = .idle) (pointer : s.con.pu8SendMoudleBuffer = some .retxBuffer)
    (aes : ∀ key block, fw.crypto.aesDecrypt key (fw.crypto.aesEncrypt key block) = block)
    (last : pctSendMoudleNum < (s.con.u8ReSendMoudleNum + 1) % 2 ^ 8)
    (step : pctSendMoudleTimeout fw env s = some t) :
    messagesRead fw stale s t =
      [eventBuildEmptyMsg (s.retxBuffer.u8MsgBuffer.view env.beyond 1),
        eventBuildMsg Code.err (s.retxBuffer.u8MsgBuffer.view env.beyond 1) []] := by
  obtain ⟨other, names, rfl⟩ := Option.map_eq_some_iff.mp step
  obtain rfl : other = .retxBuffer := Option.some.inj (names.symm.trans pointer)
  simp only [if_pos last]
  refine (messagesRead_congr stale ?_ ?_ rfl).symm.trans (messagesRead_giveUp stale ?_ ?_ aes _)
  · rfl
  · rfl
  · exact keyed
  · exact idle

/-- The callback that takes the timeout action sends nothing else. -/
theorem messagesRead_elapse {slot : TimerIndex} {acted : Sys} :
    messagesRead fw stale s { timerStopTimer none slot acted with callback := none } =
      messagesRead fw stale { s with timers := s.timers.elapse slot } acted :=
  messagesRead_congr stale rfl rfl rfl

/-- A timeout that passes the command again makes one call. -/
theorem calls_pctSendMoudleTimeout (again : (s.con.u8ReSendMoudleNum + 1) % 2 ^ 8 ≤ pctSendMoudleNum)
    (step : pctSendMoudleTimeout fw env s = some t) :
    ∃ calls, t.calls = s.calls ++ calls ∧ calls.length ≤ 1 := by
  obtain ⟨pointer, _, rfl⟩ := Option.map_eq_some_iff.mp step
  simp only [if_neg (Nat.not_lt.mpr again), calls_hfSetTimer]
  exact ⟨[_], rfl, Nat.le_refl _⟩

end Frames

/-- The command that is out is the one in the retransmission buffer, and its timer is live. The
session is up, and nothing waits in the send buffer. -/
structure Serves (s : Sys) (commands : List OpenCommand) : Prop where
  tended : s.ctl.Tended
  free : s.callback = none
  keyed : s.con.u8keyRecv = true
  idle : s.sendStatus = .idle
  none_out : s.con.u8SendMoudleTimer = none → commands = []
  one_out : s.con.u8SendMoudleTimer ≠ none → s.outbox.pointer = some .retxBuffer ∧
    2 ≤ s.outbox.buffer.u32Len ∧ s.outbox.resent ≤ pctSendMoudleNum ∧
    commands = [(s.outbox.buffer.message, s.outbox.resent + 1)]

namespace Serves

variable {fw : Firmware} {s t : Sys} {commands : List OpenCommand}

theorem idle_of_status (room : ∃ idle, (s.timers.struTimer idle).u8Status = .idle) :
    ∃ idle, s.ctl.slots idle = none := by
  obtain ⟨idle, free⟩ := room
  refine ⟨idle, if_neg ?_⟩
  rw [free]
  nofun

theorem pending (serves : Serves s commands) (out : s.con.u8SendMoudleTimer ≠ none) :
    pendingMessage s = some s.outbox.buffer.message := by
  obtain ⟨pointer, _⟩ := serves.one_out out
  have pointer : s.con.pu8SendMoudleBuffer = some .retxBuffer := pointer
  rw [pendingMessage, pointer]
  rfl

/-- Every command that is out waits to be passed again. -/
theorem waiting (serves : Serves s commands) :
    commands.map Prod.fst = waitingMessages s := by
  rw [waitingMessages]
  cases handle : s.con.u8SendMoudleTimer with
  | none => rw [serves.none_out handle]; rfl
  | some slot =>
    have out : s.con.u8SendMoudleTimer ≠ none := by rw [handle]; nofun
    obtain ⟨carries, runs⟩ := serves.tended.live slot handle
    have live : s.timers.struTimer slot = ⟨.used, .sendMoudle⟩ ∧ s.timers.running slot = true :=
      ⟨TimerBank.slots_eq_some_iff.mp carries, runs⟩
    simp only [live, and_self, if_true, serves.pending out, (serves.one_out out).2.2.2]
    rfl

theorem congr (serves : Serves s commands) (ctl : t.ctl = s.ctl) (outbox : t.outbox = s.outbox)
    (idle : t.sendStatus = .idle) : Serves t commands := by
  have callback : t.callback = s.callback := congrArg Ctl.callback ctl
  have keyRecv : t.con.u8keyRecv = s.con.u8keyRecv := congrArg Ctl.keyRecv ctl
  have handle : t.con.u8SendMoudleTimer = s.con.u8SendMoudleTimer := congrArg Ctl.sendMoudle ctl
  refine ⟨ctl ▸ serves.tended, callback.trans serves.free, keyRecv.trans serves.keyed, idle, ?_, ?_⟩
  · rw [handle]
    exact serves.none_out
  · rw [handle, outbox]
    exact serves.one_out

/-- What a step passes is what it appends to the record. -/
theorem passedIn_eq {step : MoudleStep} (run : step.run fw s = some t) {messages : List (List UInt8)}
    (passed : t.outbox.passed = s.outbox.passed ++ messages) : passedIn fw s step = messages := by
  rw [passedIn, run]
  simp only [passed, List.drop_left]

variable (stale : Stale)

/-- A command that comes when none is out is taken and passed. -/
theorem handleMoudleMsg (serves : Serves s commands) {pstruBuffer : MsgBuffer}
    (alone : MoudleStep.Alone s (.handleMoudleMsg pstruBuffer))
    (run : (MoudleStep.handleMoudleMsg pstruBuffer).run fw s = some t) :
    Served commands (commandEvents fw stale s (.handleMoudleMsg pstruBuffer)) ∧
      Serves t (openCommands commands
        (commandEvents fw stale s (.handleMoudleMsg pstruBuffer))) := by
  obtain ⟨none, long, room⟩ := alone
  obtain rfl := serves.none_out none
  have moved := Option.some.inj run
  obtain ⟨pointer, resent, kept, passed⟩ := outbox_pctHandleMoudleMsg
    { s with recvBuffer := pstruBuffer } .recvBuffer
  have ctl := ctl_pctHandleMoudleMsg { s with recvBuffer := pstruBuffer } .recvBuffer
  have calls := calls_pctHandleMoudleMsg { s with recvBuffer := pstruBuffer } .recvBuffer
  have idle := sendStatus_pctHandleMoudleMsg { s with recvBuffer := pstruBuffer } .recvBuffer
  rw [moved] at pointer resent kept passed ctl calls idle
  have events : commandEvents fw stale s (.handleMoudleMsg pstruBuffer) =
      [.taken pstruBuffer.message, .passed pstruBuffer.message] := by
    rw [commandEvents, passedIn_eq run passed, gaveUpIn_nil stale run calls (Nat.le_refl _)]
    rfl
  have tended : t.ctl.Tended := ctl ▸ serves.tended.command none (idle_of_status room)
  have free : t.callback = .none := by
    have kept : t.ctl.callback = s.callback := by
      rw [ctl, Ctl.set_callback, Ctl.stopHandle_callback, Ctl.set_callback]
      rfl
    exact kept.trans serves.free
  have keyed : t.con.u8keyRecv = true := by
    have kept : t.ctl.keyRecv = s.con.u8keyRecv := by
      rw [ctl, Ctl.set_keyRecv, Ctl.stopHandle_keyRecv, Ctl.set_keyRecv]
      rfl
    exact kept.trans serves.keyed
  have named : t.con.u8SendMoudleTimer ≠ .none := by
    obtain ⟨slot, _, named, _⟩ := Ctl.live_set (idle_of_status room) .sendMoudle
    have different : TimerField.sendMoudle ≠ .heart := by decide
    have handle : t.ctl.handle .sendMoudle = some slot := by
      rw [ctl, Ctl.set_handle_of_ne different, Ctl.stopHandle_handle]
      exact named
    exact fun unset => nomatch handle.symm.trans unset
  have length : 2 ≤ t.outbox.buffer.u32Len := by
    have size (buffer : MsgBuffer) : buffer.message.length = buffer.u32Len :=
      buffer.length_take buffer.len_le
    rw [← size, kept, size]
    exact long
  rw [events]
  have open_eq : openCommands [] [.taken pstruBuffer.message, .passed pstruBuffer.message] =
      [(pstruBuffer.message, 1)] := by
    simp [openCommands, CommandEvent.update, passOnce]
  rw [open_eq]
  refine ⟨⟨trivial, ?_, trivial⟩, tended, free, keyed, idle.trans serves.idle,
    fun unset => absurd unset named, fun _ => ?_⟩
  · simp [CommandEvent.Allowed, CommandEvent.update, pctSendMoudleNum]
  · rw [resent, kept]
    exact ⟨pointer, length, by decide, rfl⟩

/-- A reply ends the command that is out; another message of the module changes nothing. -/
theorem handleMoudleEvent (serves : Serves s commands) {env : Env} {pu8Msg : View} {u16DataLen : ℕ}
    (run : (MoudleStep.handleMoudleEvent env pu8Msg u16DataLen).run fw s = some t) :
    Served commands (commandEvents fw stale s (.handleMoudleEvent env pu8Msg u16DataLen)) ∧
      Serves t (openCommands commands
        (commandEvents fw stale s (.handleMoudleEvent env pu8Msg u16DataLen))) := by
  have idle := sendStatus_pctHandleMoudleEvent fw env serves.idle run
  by_cases reply : (ZcMessageHead.load pu8Msg).msgCode < 200
  · -- Whatever is given up behind the reply, nothing is out any more.
    have replied (passed : t.outbox.passed = s.outbox.passed) :
        commandEvents fw stale s (.handleMoudleEvent env pu8Msg u16DataLen) =
          .replied :: (gaveUpIn fw stale s (.handleMoudleEvent env pu8Msg u16DataLen)).map .gaveUp := by
      rw [commandEvents, passedIn_eq run (passed.trans (List.append_nil _).symm), repliedIn,
        if_pos reply]
      rfl
    have ended (passed : t.outbox.passed = s.outbox.passed) (one : commands.tail = []) :
        Served commands (commandEvents fw stale s (.handleMoudleEvent env pu8Msg u16DataLen)) ∧
          openCommands commands
            (commandEvents fw stale s (.handleMoudleEvent env pu8Msg u16DataLen)) = [] := by
      have after : CommandEvent.update commands .replied = [] := one
      rw [replied passed, Served, openCommands, List.foldl_cons, after]
      exact ⟨⟨trivial, served_gaveUp _⟩, openCommands_gaveUp _⟩
    rcases pctHandleMoudleEvent_cases fw env s run with
      ⟨silent, ctl, outbox⟩ | ⟨slot, handle, _, ctl, passed⟩
    · have none : s.con.u8SendMoudleTimer = none :=
        Option.not_isSome_iff_eq_none.mp fun some => silent ⟨some, reply⟩
      obtain rfl := serves.none_out none
      obtain ⟨served, empty⟩ := ended (congrArg Outbox.passed outbox) rfl
      rw [empty]
      exact ⟨served, serves.congr ctl outbox idle⟩
    · have out : s.con.u8SendMoudleTimer ≠ none := by rw [handle]; nofun
      obtain ⟨_, _, _, rfl⟩ := serves.one_out out
      obtain ⟨served, empty⟩ := ended passed rfl
      have freed : t.con.u8SendMoudleTimer = none := congrArg Ctl.sendMoudle ctl
      have callback : t.callback = s.callback := congrArg Ctl.callback ctl
      have keyRecv : t.con.u8keyRecv = s.con.u8keyRecv := congrArg Ctl.keyRecv ctl
      rw [empty]
      exact ⟨served, ctl ▸ serves.tended.reply handle, callback.trans serves.free,
        keyRecv.trans serves.keyed, idle, fun _ => rfl, fun out => absurd freed out⟩
  · obtain ⟨released, ret, release, sent⟩ := pctHandleMoudleEvent_sends run
    rcases pctHandleMoudleEvent_cases fw env s run with ⟨_, ctl, outbox⟩ | ⟨_, _, reply', _⟩
    · cases release with
      | replied slot pointer named both => exact absurd both.2 reply
      | kept =>
        obtain ⟨calls, same, few⟩ := calls_pctSendMsgToCloud? sent
        have passed := (congrArg Outbox.passed outbox).trans (List.append_nil _).symm
        have nothing : commandEvents fw stale s (.handleMoudleEvent env pu8Msg u16DataLen) = [] := by
          rw [commandEvents, passedIn_eq run passed, repliedIn, if_neg reply,
            gaveUpIn_nil stale run same few]
          rfl
        rw [nothing]
        exact ⟨trivial, serves.congr ctl outbox idle⟩
    · exact absurd reply' reply

/-- The command that is out has been passed again, and its timer runs in another slot. -/
theorem passedAgain (serves : Serves s commands) {slot : TimerIndex}
    (carries : s.ctl.slots slot = some .sendMoudle) (few : s.outbox.resent + 1 ≤ pctSendMoudleNum)
    (room : ∃ idle, (s.timers.struTimer idle).u8Status = .idle)
    (ctl : t.ctl = ((s.ctl.elapse slot).set .sendMoudle .sendMoudle).stop none slot)
    (outbox : t.outbox = { s.outbox with
      resent := s.outbox.resent + 1, passed := s.outbox.passed ++ [s.outbox.buffer.message] })
    (idle : t.sendStatus = .idle) : Serves t [(s.outbox.buffer.message, s.outbox.resent + 1 + 1)] := by
  have named : s.con.u8SendMoudleTimer = some slot := serves.tended.tracked slot carries
  obtain ⟨pointer, long, _⟩ := serves.one_out (by rw [named]; nofun)
  have callback : t.callback = s.callback := by
    have kept : t.ctl.callback = s.ctl.callback := by
      rw [ctl, Ctl.stop]
      exact Ctl.set_callback
    exact kept
  have keyRecv : t.con.u8keyRecv = s.con.u8keyRecv := by
    have kept : t.ctl.keyRecv = s.ctl.keyRecv := by
      rw [ctl, Ctl.stop]
      exact Ctl.set_keyRecv
    exact kept
  obtain ⟨new, _, handle, _⟩ := Ctl.live_set (c := s.ctl.elapse slot) (idle_of_status room) .sendMoudle
  have set : t.con.u8SendMoudleTimer = some new := by
    have kept : t.ctl.handle .sendMoudle = some new := by
      rw [ctl, Ctl.stop_handle]
      exact handle
    exact kept
  refine ⟨ctl ▸ serves.tended.again carries (idle_of_status room), callback.trans serves.free,
    keyRecv.trans serves.keyed, idle, fun unset => ?_, fun _ => ?_⟩
  · rw [set] at unset
    cases unset
  · rw [outbox]
    exact ⟨pointer, long, few, rfl⟩

/-- The command that is out has been given up. -/
theorem gaveUp (serves : Serves s commands) {slot : TimerIndex}
    (carries : s.ctl.slots slot = some .sendMoudle)
    (ctl : t.ctl = { s.ctl.elapse slot with sendMoudle := none }.stop none slot)
    (idle : t.sendStatus = .idle) : Serves t [] := by
  have callback : t.callback = s.callback := congrArg Ctl.callback ctl
  have keyRecv : t.con.u8keyRecv = s.con.u8keyRecv := congrArg Ctl.keyRecv ctl
  have unset : t.con.u8SendMoudleTimer = none := congrArg Ctl.sendMoudle ctl
  exact ⟨ctl ▸ serves.tended.givenUp carries, callback.trans serves.free, keyRecv.trans serves.keyed,
    idle, fun _ => rfl, fun out => absurd unset out⟩

/-- The id of a command that is long enough is a byte of the retransmission buffer. -/
theorem messageId_eq (buffer : MsgBuffer) (long : 2 ≤ buffer.u32Len) (past : View) :
    buffer.u8MsgBuffer.view past 1 = messageId buffer.message := by
  have size := buffer.u8MsgBuffer.size_eq
  have inside : 1 < buffer.message.length := by
    rw [MsgBuffer.message, List.length_take_of_le (size.ge.trans' buffer.len_le)]
    exact long
  rw [FixedBuffer.view_inside _ _ 1 (by decide), List.get_eq_getElem]
  change _ = buffer.message.getD 1 0
  rw [List.getD_eq_getElem?_getD, List.getElem?_eq_getElem inside, Option.getD_some]
  exact List.getElem_take.symm

/-- The timer of the command that is out passes it again or gives it up. -/
theorem sendMoudleTimer (serves : Serves s commands) {env : Env} {slot : TimerIndex}
    (aes : ∀ key block, fw.crypto.aesDecrypt key (fw.crypto.aesEncrypt key block) = block)
    (alone : MoudleStep.Alone s (.sendMoudleTimer env slot))
    (run : (MoudleStep.sendMoudleTimer env slot).run fw s = some t) :
    Served commands (commandEvents fw stale s (.sendMoudleTimer env slot)) ∧
      Serves t (openCommands commands (commandEvents fw stale s (.sendMoudleTimer env slot))) := by
  have quiet (ctl : t.ctl = s.ctl) (outbox : t.outbox = s.outbox) (calls : t.calls = s.calls)
      (idle : t.sendStatus = .idle) :
      Served commands (commandEvents fw stale s (.sendMoudleTimer env slot)) ∧
        Serves t (openCommands commands (commandEvents fw stale s (.sendMoudleTimer env slot))) := by
    have passed := (congrArg Outbox.passed outbox).trans (List.append_nil _).symm
    have nothing : commandEvents fw stale s (.sendMoudleTimer env slot) = [] := by
      rw [commandEvents, passedIn_eq run passed,
        gaveUpIn_nil stale run (calls.trans (List.append_nil _).symm) (Nat.zero_le _)]
      rfl
    rw [nothing]
    exact ⟨trivial, serves.congr ctl outbox idle⟩
  have ran := run
  rw [MoudleStep.run] at run
  split_ifs at run with carries
  · have idle := sendStatus_hfTimerCallback fw env serves.idle run
    rcases hfTimerCallback_cases fw env s serves.free run with
      ⟨_, ctl, outbox, calls⟩ | ⟨elapsed, first, acted, action, rfl⟩
    · exact quiet ctl outbox calls idle
    · have used : s.ctl.slots slot = some .sendMoudle := TimerBank.slots_eq_some_iff.mpr carries
      have named : s.con.u8SendMoudleTimer = some slot := serves.tended.tracked slot used
      have out : s.con.u8SendMoudleTimer ≠ none := by rw [named]; nofun
      obtain ⟨pointer, long, few, rfl⟩ := serves.one_out out
      have elapses : MoudleStep.elapses s slot := ⟨carries, serves.free, elapsed, first⟩
      have count : (s.con.u8ReSendMoudleNum + 1) % 2 ^ 8 = s.outbox.resent + 1 := by
        have few : s.con.u8ReSendMoudleNum ≤ 4 := few
        change (s.con.u8ReSendMoudleNum + 1) % 2 ^ 8 = s.con.u8ReSendMoudleNum + 1
        omega
      have timeout : pctSendMoudleTimeout fw env { s with timers := s.timers.elapse slot } =
          some acted := by
        rw [timerTimeoutAction] at action
        have type : ((s.timers.elapse slot).struTimer slot).u8Type = .sendMoudle :=
          congrArg ZcTimer.u8Type carries
        rwa [type] at action
      obtain ⟨other, kept, outcome⟩ := pctSendMoudleTimeout_cases fw env _ timeout
      obtain rfl : other = .retxBuffer := Option.some.inj (kept.symm.trans pointer)
      rw [ctl_elapse] at outcome
      rcases outcome with ⟨again, ctl, outbox⟩ | ⟨last, ctl, passed⟩
      · have free : acted.callback = none := by
          have kept : acted.ctl.callback = s.ctl.callback := by
            rw [ctl, Ctl.set_callback]
            rfl
          exact kept.trans serves.free
        have moved := (ctl_timerStopTimer_free free slot).trans
          (congrArg (Ctl.stop · none slot) ctl)
        obtain ⟨calls, same, one⟩ := calls_pctSendMoudleTimeout again timeout
        have message : commandEvents fw stale s (.sendMoudleTimer env slot) =
            [.passed s.outbox.buffer.message] := by
          have appended := congrArg Outbox.passed outbox
          rw [commandEvents, passedIn_eq ran appended, gaveUpIn_nil stale ran same one]
          rfl
        rw [count] at again
        have stays : CommandEvent.update [(s.outbox.buffer.message, s.outbox.resent + 1)]
            (.passed s.outbox.buffer.message) =
              [(s.outbox.buffer.message, s.outbox.resent + 1 + 1)] := by
          simp [CommandEvent.update, passOnce]
        have room := alone elapses (count.symm ▸ again)
        rw [message, openCommands, List.foldl_cons, List.foldl_nil, stays]
        refine ⟨⟨?_, trivial⟩, serves.passedAgain used again room moved ?_ idle⟩
        · simpa [CommandEvent.Allowed, Nat.lt_one_add_iff] using again
        · exact (outbox.trans (by rw [count]; rfl))
      · have free : acted.callback = none := by
          have kept : acted.ctl.callback = s.ctl.callback := by rw [ctl]; rfl
          exact kept.trans serves.free
        have moved := (ctl_timerStopTimer_free free slot).trans
          (congrArg (Ctl.stop · none slot) ctl)
        have told : messagesRead fw stale s { timerStopTimer none slot acted with callback := none } =
            [eventBuildEmptyMsg (messageId s.outbox.buffer.message),
              eventBuildMsg Code.err (messageId s.outbox.buffer.message) []] := by
          rw [messagesRead_elapse, ← messageId_eq s.outbox.buffer long env.beyond]
          exact messagesRead_pctSendMoudleTimeout stale serves.keyed serves.idle pointer aes last timeout
        have message : commandEvents fw stale s (.sendMoudleTimer env slot) =
            [.gaveUp (messageId s.outbox.buffer.message)] := by
          rw [commandEvents, passedIn_eq ran (passed.trans (List.append_nil _).symm),
            gaveUpIn_eq stale ran, told, givenUpIds_pair]
          rfl
        have ends : CommandEvent.update [(s.outbox.buffer.message, s.outbox.resent + 1)]
            (.gaveUp (messageId s.outbox.buffer.message)) = [] := by
          simp [CommandEvent.update]
        rw [message, openCommands, List.foldl_cons, List.foldl_nil, ends]
        exact ⟨⟨trivial, trivial⟩, serves.gaveUp used moved idle⟩
  · cases run
    exact quiet rfl rfl rfl serves.idle

/-- Every step that meets the condition serves the command that is out. -/
theorem step (serves : Serves s commands)
    (aes : ∀ key block, fw.crypto.aesDecrypt key (fw.crypto.aesEncrypt key block) = block)
    {step : MoudleStep} (alone : step.Alone s) (run : step.run fw s = some t) :
    Served commands (commandEvents fw stale s step) ∧
      Serves t (openCommands commands (commandEvents fw stale s step)) := by
  cases step with
  | handleMoudleMsg pstruBuffer => exact serves.handleMoudleMsg stale alone run
  | handleMoudleEvent env pu8Msg u16DataLen => exact serves.handleMoudleEvent stale run
  | sendMoudleTimer env slot => exact serves.sendMoudleTimer stale aes alone run

end Serves

/-- What holds of the command timer in every run up to the connection. -/
structure Unserved (c : Ctl) : Prop where
  core : c.Core
  unsent : c.Shaking → c.Unsent
  free : c.callback = none

theorem unserved_of_replay {fw : Firmware} {flash : Option ZcConfigDb}
    {registerInfo : ZcRegisterInfo} {tape : List Action} (atomic : ∀ a ∈ tape, a.Atomic)
    {target : Sys} (replayed : (firmware fw).replay? (hfInit flash registerInfo) tape = some target) :
    Unserved target.ctl := by
  have start : Unserved (hfInit flash registerInfo).ctl :=
    ⟨core_hfInit flash registerInfo, fun shaking => (by rcases shaking with main | main <;> cases main),
      rfl⟩
  refine PartialMachine.invariant_replay? (I := fun s => Unserved s.ctl) ?_ start
    (PartialMachine.EachStep.of_forall (C := fun _ a => a.Atomic) fun _ => atomic) replayed
  rintro s a t ⟨core, unsent, free⟩ atomic step
  obtain ⟨label, moved, cause, _⟩ := explained fw s a t atomic.scheduled step
  refine ⟨core.step moved, Ctl.unsent_step core unsent moved, moved.callback_none free ?_⟩
  rintro slot rfl
  obtain ⟨env, rfl⟩ := cause
  exact atomic

/-- No command is out when the fourth handshake message has been accepted. -/
theorem serves_of_connected {fw : Firmware} {env : Env} {waiting : Sys}
    (unserved : Unserved waiting.ctl) (main : waiting.con.u8MainState = .waitMsg4)
    (connected : (hfCloudfuncRun fw env waiting).con.u8MainState = .connectCloud)
    (keyed : (hfCloudfuncRun fw env waiting).con.u8keyRecv = true)
    (idle : (hfCloudfuncRun fw env waiting).sendStatus = .idle) :
    Serves (hfCloudfuncRun fw env waiting) [] := by
  have run : (hfCloudfuncRun fw env waiting).ctl = (pctRecvAccessMsg4 env waiting).ctl := by
    have controller : pctRun fw env waiting = pctRecvAccessMsg4 env waiting := by
      rw [pctRun, main]
    rw [← controller]
    rfl
  have connected : (hfCloudfuncRun fw env waiting).ctl.main = .connectCloud := connected
  rcases step_pctRecvAccessMsg4 env waiting main with ⟨same, _⟩ | moved
  · rw [run, same.eq_of_stay] at connected
    cases main.symm.trans connected
  · rw [← run] at moved
    obtain ⟨tended, none⟩ := Ctl.Tended.of_access4 unserved.core (unserved.unsent (.inr main)) moved
      connected
    exact ⟨tended, moved.callback_none unserved.free (by rintro _ ⟨⟩), keyed, idle, fun _ => rfl,
      fun out => absurd none out⟩

/-- From the moment a connection is made, and as long as no command comes while another one is out
and every command timer that is armed finds an idle slot: each command is passed at most once and
four times more, none is passed after the module has replied or the cloud has read that it is given
up, and each one that is out waits to be passed again. -/
theorem served_of_alone (fw : Firmware)
    (aes : ∀ key block, fw.crypto.aesDecrypt key (fw.crypto.aesEncrypt key block) = block)
    (flash : Option ZcConfigDb) (registerInfo : ZcRegisterInfo)
    (before : List Action) (atomic : ∀ a ∈ before, a.Atomic) (env : Env) (waiting : Sys)
    (replayed : (firmware fw).replay? (hfInit flash registerInfo) before = some waiting)
    (main : waiting.con.u8MainState = .waitMsg4)
    (connected : (hfCloudfuncRun fw env waiting).con.u8MainState = .connectCloud)
    (tape : List MoudleStep) (target : Sys)
    (alone : (exchange fw).EachStep (fun s step => step.Alone s) (hfCloudfuncRun fw env waiting) tape)
    (exchanged : (exchange fw).replay? (hfCloudfuncRun fw env waiting) tape = some target)
    (stale : Stale) :
    let seen := (exchange fw).history (commandEvents fw stale) (hfCloudfuncRun fw env waiting) tape
    Served [] seen ∧ (openCommands [] seen).map Prod.fst = waitingMessages target := by
  have reached : (firmware fw).replay? (hfInit flash registerInfo) (before ++ [.cloudfuncRun env]) =
      some (hfCloudfuncRun fw env waiting) := by
    rw [PartialMachine.replay?_append, replayed]
    rfl
  have scheduled : ∀ a ∈ before ++ [.cloudfuncRun env], a.Scheduled := by
    intro a member
    rcases List.mem_append.mp member with member | member
    · exact (atomic a member).scheduled
    · rw [List.mem_singleton.mp member]
      trivial
  have start := serves_of_connected (unserved_of_replay atomic replayed) main connected
    ((agreed_replay? scheduled reached).2.has_key connected trivial) (sendStatus_replay fw reached)
  let I := fun seen s => Served [] seen ∧ Serves s (openCommands [] seen)
  have kept : I ((exchange fw).history (commandEvents fw stale) (hfCloudfuncRun fw env waiting) tape)
      target := by
    refine PartialMachine.history_invariant (I := I) ?_ ⟨trivial, start⟩ alone exchanged
    rintro seen s step t ⟨served, serves⟩ alone run
    obtain ⟨now, still⟩ := serves.step stale aes alone run
    change Served [] (seen ++ _) ∧ Serves t (openCommands [] (seen ++ _))
    rw [served_append, openCommands_append]
    exact ⟨⟨served, now⟩, still⟩
  exact ⟨kept.1, kept.2.waiting⟩

/-- The steps before the one in which the fourth handshake message is accepted. -/
def awaitingConnection : List Action := connecting.dropLast

/-- A command in the receive buffer. -/
def commandBuffer (msgId : UInt8) : MsgBuffer :=
  ⟨sizeofMessageHead, .full, (FixedBuffer.zeros _).overlay 0 (messageBytes Code.eventBase msgId []),
    by decide⟩

/-- The two callbacks after which a timer has elapsed. -/
def expiring (slot : TimerIndex) : List MoudleStep :=
  [.sendMoudleTimer .calm slot, .sendMoudleTimer .calm slot]

/-- A command that is passed when it comes and again when its timer has elapsed, and then a reply;
and one that is never replied to. -/
def answeredCommand : List MoudleStep :=
  [.handleMoudleMsg (commandBuffer 1)] ++ expiring 2 ++
    [.handleMoudleEvent .calm (.ofList (messageBytes Code.ack 1 [])) sizeofMessageHead,
      .handleMoudleMsg (commandBuffer 2)] ++
    expiring 2 ++ expiring 3 ++ expiring 2 ++ expiring 3 ++ expiring 2

/-- A command is passed twice before the reply; the next one is passed five times and given up. -/
theorem served_answeredCommand : ∃ waiting target,
    (firmware .plain).replay? (hfInit none .zero) awaitingConnection = some waiting ∧
      (exchange .plain).replay? (hfCloudfuncRun .plain .calm waiting) answeredCommand =
        some target ∧
      let seen := (exchange .plain).history (commandEvents .plain Env.calm.stale)
        (hfCloudfuncRun .plain .calm waiting) answeredCommand
      (seen.length = 11 ∧ seen.getLast? = some (.gaveUp 2) ∧ waitingMessages target = []) ∧
        Served [] seen ∧ (openCommands [] seen).map Prod.fst = waitingMessages target := by
  have runs : ((firmware .plain).replay? (hfInit none .zero) awaitingConnection).any (fun waiting =>
      decide (waiting.con.u8MainState = .waitMsg4 ∧
        (hfCloudfuncRun .plain .calm waiting).con.u8MainState = .connectCloud ∧
        (exchange .plain).EachStep (fun s step => step.Alone s)
          (hfCloudfuncRun .plain .calm waiting) answeredCommand) &&
      ((exchange .plain).replay? (hfCloudfuncRun .plain .calm waiting) answeredCommand).any
        fun target => decide (((exchange .plain).history (commandEvents .plain Env.calm.stale)
          (hfCloudfuncRun .plain .calm waiting) answeredCommand).length = 11 ∧
          ((exchange .plain).history (commandEvents .plain Env.calm.stale)
            (hfCloudfuncRun .plain .calm waiting) answeredCommand).getLast? = some (.gaveUp 2) ∧
            waitingMessages target = [])) = true := by
    decide +kernel
  obtain ⟨waiting, replayed, holds⟩ := (Option.any_eq_true ..).mp runs
  obtain ⟨first, second⟩ := Bool.and_eq_true_iff.mp holds
  obtain ⟨main, connected, alone⟩ := of_decide_eq_true first
  obtain ⟨target, exchanged, shown⟩ := (Option.any_eq_true ..).mp second
  exact ⟨waiting, target, replayed, exchanged, of_decide_eq_true shown,
    served_of_alone .plain (fun _ _ => rfl) none .zero awaitingConnection
      (by simp [awaitingConnection, connecting, Action.Atomic, Action.Scheduled]) .calm waiting
      replayed main connected answeredCommand target alone exchanged Env.calm.stale⟩

/-- A second command that comes before the reply to the first one takes its place: the first one is
out and nothing is left of it. -/
theorem served_fails : ∃ waiting target,
    (firmware .plain).replay? (hfInit none .zero) awaitingConnection = some waiting ∧
      (exchange .plain).replay? (hfCloudfuncRun .plain .calm waiting)
        [.handleMoudleMsg (commandBuffer 1), .handleMoudleMsg (commandBuffer 2)] = some target ∧
      ¬ ∀ message ∈ (openCommands [] ((exchange .plain).history (commandEvents .plain Env.calm.stale)
          (hfCloudfuncRun .plain .calm waiting)
          [.handleMoudleMsg (commandBuffer 1), .handleMoudleMsg (commandBuffer 2)])).map Prod.fst,
        message ∈ waitingMessages target := by
  have runs : ((firmware .plain).replay? (hfInit none .zero) awaitingConnection).any (fun waiting =>
      ((exchange .plain).replay? (hfCloudfuncRun .plain .calm waiting)
        [.handleMoudleMsg (commandBuffer 1), .handleMoudleMsg (commandBuffer 2)]).any fun target =>
          decide (¬ ∀ message ∈ (openCommands [] ((exchange .plain).history (commandEvents .plain Env.calm.stale)
            (hfCloudfuncRun .plain .calm waiting)
            [.handleMoudleMsg (commandBuffer 1), .handleMoudleMsg (commandBuffer 2)])).map Prod.fst,
              message ∈ waitingMessages target)) = true := by
    decide +kernel
  obtain ⟨waiting, replayed, holds⟩ := (Option.any_eq_true ..).mp runs
  obtain ⟨target, exchanged, lost⟩ := (Option.any_eq_true ..).mp holds
  exact ⟨waiting, target, replayed, exchanged, of_decide_eq_true lost⟩

end ShuangFa
