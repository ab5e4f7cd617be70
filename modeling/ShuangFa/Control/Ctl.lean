import ShuangFa.Model.System
import ShuangFa.Pool.SlotPool

/-! # The control state

What the threads agree on, without messages: the main state, the key flag, what the handshake has
agreed on, the six timer handles, the pool of timer slots, and which of their SDK timers run. A slot
is idle or carries a timer type; what stopped which slot through which handle is on record. The
transitions say everything a step of the firmware can do to this state.
-/

namespace ShuangFa

open Memory SlotPool

/-- The type of the timers a handle is for. -/
def TimerField.type : TimerField → TimerType
  | .reconnect => .reconnect
  | .access => .reaccess
  | .sendUnbind => .sendUbind
  | .heart => .sendHeart
  | .sendMoudle => .sendMoudle
  | .register => .register

/-- A stop: the handle it went through, if any, and what the slot carried. -/
abbrev Stop := Option TimerField × Option TimerType

/-- What a handshake leaves behind. -/
structure Session where
  randMsg : FixedBuffer zcHsMsgLen
  sessionKey : FixedBuffer zcHsSessionKeyLen
  ivSend : AesBlock
  ivRecv : AesBlock

/-- The session after a key was received. -/
def Session.keyed (session : Session) (key : FixedBuffer zcHsSessionKeyLen) : Session :=
  { session with sessionKey := key, ivSend := key, ivRecv := key }

structure Ctl where
  main : MainState
  keyRecv : Bool
  session : Session
  reconnect : Option TimerIndex
  access : TimerIndex
  sendUnbind : Option TimerIndex
  heart : Option TimerIndex
  sendMoudle : Option TimerIndex
  register : Option TimerIndex
  slots : Pool 5 TimerType
  running : TimerIndex → Bool
  callback : Option TimerIndex
  stops : List Stop

namespace Ctl

variable (c : Ctl)

/-- Store a slot in a handle. -/
def setHandle (slot : TimerIndex) : TimerField → Ctl
  | .reconnect => { c with reconnect := some slot }
  | .access => { c with access := slot }
  | .sendUnbind => { c with sendUnbind := some slot }
  | .heart => { c with heart := some slot }
  | .sendMoudle => { c with sendMoudle := some slot }
  | .register => { c with register := some slot }

/-- Put a type on a slot and start its timer. -/
def occupy (slot : TimerIndex) (type : TimerType) : Ctl :=
  { c with
    slots := c.slots.occupy slot type
    running := Function.update c.running slot true }

/-- Arm a timer in the first idle slot, if there is one. -/
def set (type : TimerType) (field : TimerField) : Ctl :=
  match c.slots.firstIdle with
  | none => c
  | some slot => (c.occupy slot type).setHandle slot field

/-- Free a slot, whatever it carries. -/
def stop (via : Option TimerField) (slot : TimerIndex) : Ctl :=
  { c with
    slots := c.slots.release slot
    running := Function.update c.running slot false
    stops := c.stops ++ [(via, c.slots slot)] }

/-- Free the slot a handle names, if it names one. -/
def stopHandle (via : TimerField) : Option TimerIndex → Ctl
  | none => c
  | some slot => c.stop (some via) slot

/-- Stop the slots of a list that are used. -/
def stopUsed (slots : List TimerIndex) : Ctl :=
  slots.foldl (fun c slot => if (c.slots slot).isSome then c.stop none slot else c) c

/-- Stop every used slot and mark all of them idle. -/
def clear : Ctl := { c.stopUsed (List.finRange 5) with slots := Pool.empty }

/-- The connection is given up. -/
def disconnected : Ctl := { c with main := .disconnectCloud, keyRecv := false }

/-- A new start after a lost connection. -/
def reconnected : Ctl :=
  { ({ c.clear with
      reconnect := none, sendMoudle := none, heart := none, main := .init }.set .reconnect
        .reconnect) with
    keyRecv := false, main := .init }

/-- The link is gone. -/
def slept : Ctl :=
  { { c with keyRecv := false }.clear with
    reconnect := none, sendMoudle := none, heart := none, main := .init, register := none }

/-- The link is back. -/
def wokenUp : Ctl := { c.set .register .register with main := .accessNet }

/-- A registration ends the register timer. -/
def registered : Ctl :=
  { ({ c with main := .accessNet }.stopHandle .register c.register) with register := none }

/-- A timer elapses. -/
def elapse (slot : TimerIndex) : Ctl := { c with running := Function.update c.running slot false }

/-- The timeout action of a type, and whether it arms the timer again. -/
inductive Timeout : Ctl → TimerType → Bool → Ctl → Prop
  | reconnect (c : Ctl) :
      Timeout c .reconnect false { c with reconnect := none, main := .accessNet }
  | reaccess (c : Ctl) : Timeout c .reaccess false c.disconnected
  | sendMoudle (c : Ctl) : Timeout c .sendMoudle true (c.set .sendMoudle .sendMoudle)
  | givenUp (c : Ctl) : Timeout c .sendMoudle false { c with sendMoudle := none }
  | sendHeart (c : Ctl) : Timeout c .sendHeart true (c.set .sendHeart .heart)
  | register (c : Ctl) : Timeout c .register true (c.set .register .register)
  | sendUbind (c : Ctl) : Timeout c .sendUbind true (c.set .sendUbind .sendUnbind)

/-- The outcomes of the second handshake message; an accepted one brings a key. -/
inductive Access2 (c : Ctl) : Option (FixedBuffer zcHsSessionKeyLen) → Ctl → Prop
  | ignored : Access2 c none c
  | corrupt : Access2 c none c.disconnected
  | refused : Access2 c none (c.stop (some .access) c.access).disconnected
  | accepted (key : FixedBuffer zcHsSessionKeyLen) : Access2 c (some key)
      ({ c.stop (some .access) c.access with
        session := c.session.keyed key, keyRecv := true, main := .waitMsg4 }.set .reaccess .access)

/-- The outcomes of the fourth handshake message, before the heart timer starts again. -/
inductive Access4 (c : Ctl) : Bool → Ctl → Prop
  | ignored : Access4 c false c
  | corrupt : Access4 c false c.disconnected
  | refused : Access4 c false (c.stop (some .access) c.access).disconnected
  | accepted : Access4 c true { c.stop (some .access) c.access with main := .connectCloud }

/-- The outcomes of a message while an unbinding is awaited, before the heart timer starts. -/
inductive Unbind (c : Ctl) : Ctl → Prop
  | other : Unbind c c
  | answered : Unbind c
      { c.stopHandle .sendUnbind c.sendUnbind with main := .connectCloud, sendUnbind := none }

/-- What a step of the firmware does to the control state. -/
inductive Label where
  | stay
  | connect (randMsg : FixedBuffer zcHsMsgLen)
  | access1
  | access2 (key : Option (FixedBuffer zcHsSessionKeyLen))
  | access4 (accepted : Bool)
  | unbindStart
  | unbindMessage
  | command
  | networkReset
  | reconnect
  | peerClosed
  | sleep
  | wakeUp
  | register
  | reply
  | fire (slot : TimerIndex) (again : Bool)
  | action (slot : TimerIndex)
  | callbackStop (slot : TimerIndex)

/-- The transitions, each with what the firmware has checked when it takes it. -/
inductive Step (c : Ctl) : Label → Ctl → Prop
  | stay : Step c .stay c
  | connect (randMsg : FixedBuffer zcHsMsgLen) : c.main = .accessNet → c.reconnect = none →
      Step c (.connect randMsg) { c with
        main := .waitAccess, keyRecv := false, session := { c.session with randMsg := randMsg } }
  | access1Sent : c.main = .waitAccess → Step c .access1
      ({ c.stopHandle .reconnect c.reconnect with
        reconnect := none, main := .waitAccessRsp }.set .reaccess .access)
  | access1Failed : c.main = .waitAccess → Step c .access1
      { c.stopHandle .reconnect c.reconnect with reconnect := none }.disconnected
  | access2 {key : Option (FixedBuffer zcHsSessionKeyLen)} {d : Ctl} :
      c.main = .waitAccessRsp → Access2 c key d → Step c (.access2 key) d
  | access4 {accepted : Bool} {d : Ctl} : c.main = .waitMsg4 → Access4 c accepted d →
      Step c (.access4 accepted) ((d.stopHandle .heart d.heart).set .sendHeart .heart)
  | unbindStart : c.main = .connectCloud → Step c .unbindStart
      (({ c with main := .waitUnbind }.stopHandle .sendUnbind c.sendUnbind).set .sendUbind
        .sendUnbind)
  | unbindMessage {d : Ctl} : c.main = .waitUnbind → Unbind c d →
      Step c .unbindMessage (d.set .sendHeart .heart)
  | command : c.main = .connectCloud → Step c .command
      (((c.set .sendMoudle .sendMoudle).stopHandle .heart c.heart).set .sendHeart .heart)
  | networkReset : c.main = .connectCloud → Step c .networkReset c.disconnected
  | reconnect : c.main = .disconnectCloud → c.reconnect = none → Step c .reconnect c.reconnected
  | peerClosed : c.main ∈ [.waitAccessRsp, .waitMsg4, .connectCloud, .waitUnbind] →
      Step c .peerClosed c.disconnected
  | sleep : Step c .sleep c.slept
  | wakeUp : c.main = .init → Step c .wakeUp c.wokenUp
  | register : c.main = .sleep ∨ c.main = .init → Step c .register c.registered
  | reply {slot : TimerIndex} : c.sendMoudle = some slot →
      Step c .reply { c.stop (some .sendMoudle) slot with sendMoudle := none }
  | fire {slot : TimerIndex} {type : TimerType} {again : Bool} {d : Ctl} : c.callback = none →
      c.running slot = true → c.slots slot ∈ [none, some type] →
      Timeout (c.elapse slot) type again d → Step c (.fire slot again) (d.stop none slot)
  | action {slot : TimerIndex} {type : TimerType} {again : Bool} {d : Ctl} : c.callback = none →
      c.running slot = true → c.slots slot ∈ [none, some type] →
      Timeout (c.elapse slot) type again d → Step c (.action slot) { d with callback := some slot }
  | callbackStop {slot : TimerIndex} : c.callback = some slot →
      Step c (.callbackStop slot) { c.stop none slot with callback := none }

/-! ## What the operations leave alone -/

section Operations

variable {c} {slot : TimerIndex} {type : TimerType} {field other : TimerField}
  {via : Option TimerField}

/-- The slot a handle names. -/
def handle (c : Ctl) : TimerField → Option TimerIndex
  | .reconnect => c.reconnect
  | .access => some c.access
  | .sendUnbind => c.sendUnbind
  | .heart => c.heart
  | .sendMoudle => c.sendMoudle
  | .register => c.register

@[simp] theorem handle_setHandle_self : (c.setHandle slot field).handle field = some slot := by
  cases field <;> rfl

theorem handle_setHandle_of_ne (different : other ≠ field) :
    (c.setHandle slot field).handle other = c.handle other := by
  cases field <;> cases other <;> first | rfl | exact absurd rfl different

@[simp] theorem setHandle_main : (c.setHandle slot field).main = c.main := by cases field <;> rfl

@[simp] theorem setHandle_keyRecv : (c.setHandle slot field).keyRecv = c.keyRecv := by
  cases field <;> rfl

@[simp] theorem setHandle_session : (c.setHandle slot field).session = c.session := by
  cases field <;> rfl

@[simp] theorem setHandle_slots : (c.setHandle slot field).slots = c.slots := by
  cases field <;> rfl

@[simp] theorem setHandle_running : (c.setHandle slot field).running = c.running := by
  cases field <;> rfl

@[simp] theorem setHandle_callback : (c.setHandle slot field).callback = c.callback := by
  cases field <;> rfl

@[simp] theorem setHandle_stops : (c.setHandle slot field).stops = c.stops := by
  cases field <;> rfl

@[simp] theorem stop_slots : (c.stop via slot).slots = c.slots.release slot := rfl

@[simp] theorem occupy_slots : (c.occupy slot type).slots = c.slots.occupy slot type := rfl

@[simp] theorem stop_handle (field : TimerField) :
    (c.stop via slot).handle field = c.handle field := by cases field <;> rfl

@[simp] theorem occupy_handle (field : TimerField) :
    (c.occupy slot type).handle field = c.handle field := by cases field <;> rfl

@[simp] theorem elapse_handle (field : TimerField) :
    (c.elapse slot).handle field = c.handle field := by cases field <;> rfl

theorem set_of_full (full : c.slots.firstIdle = none) : c.set type field = c := by
  rw [set, full]

theorem set_of_idle (idle : c.slots.firstIdle = some slot) :
    c.set type field = (c.occupy slot type).setHandle slot field := by
  rw [set, idle]

/-- Arming a timer occupies an idle slot and names it, or does nothing. -/
theorem set_cases (c : Ctl) (type : TimerType) (field : TimerField) :
    c.set type field = c ∨ ∃ slot, c.slots slot = none ∧
      c.set type field = (c.occupy slot type).setHandle slot field := by
  cases found : c.slots.firstIdle with
  | none => exact .inl (set_of_full found)
  | some slot => exact .inr ⟨slot, Pool.firstIdle_idle found, set_of_idle found⟩

/-- Arming a timer leaves the used slots alone. -/
theorem set_slots_of_used {carried : TimerType} (used : c.slots slot = some carried) :
    (c.set type field).slots slot = some carried := by
  rcases set_cases c type field with same | ⟨new, idle, same⟩
  · rwa [same]
  · have different : slot ≠ new := by
      rintro rfl
      exact nomatch idle.symm.trans used
    rw [same, setHandle_slots]
    exact (Pool.occupy_of_ne different).trans used

/-- What arming a timer does not touch can be read before or after. -/
private theorem set_field {α : Type} (read : Ctl → α)
    (occupied : ∀ (c : Ctl) slot, read (c.occupy slot type) = read c)
    (stored : ∀ (c : Ctl) slot, read (c.setHandle slot field) = read c) :
    read (c.set type field) = read c := by
  rcases set_cases c type field with same | ⟨slot, _, same⟩
  · rw [same]
  · rw [same, stored, occupied]

@[simp] theorem set_main : (c.set type field).main = c.main :=
  set_field Ctl.main (fun _ _ => rfl) fun _ _ => setHandle_main

@[simp] theorem set_keyRecv : (c.set type field).keyRecv = c.keyRecv :=
  set_field Ctl.keyRecv (fun _ _ => rfl) fun _ _ => setHandle_keyRecv

@[simp] theorem set_session : (c.set type field).session = c.session :=
  set_field Ctl.session (fun _ _ => rfl) fun _ _ => setHandle_session

@[simp] theorem set_callback : (c.set type field).callback = c.callback :=
  set_field Ctl.callback (fun _ _ => rfl) fun _ _ => setHandle_callback

@[simp] theorem set_stops : (c.set type field).stops = c.stops :=
  set_field Ctl.stops (fun _ _ => rfl) fun _ _ => setHandle_stops

theorem set_handle_of_ne (different : other ≠ field) :
    (c.set type field).handle other = c.handle other :=
  set_field (fun c => c.handle other) (fun _ _ => by cases other <;> rfl)
    fun _ _ => handle_setHandle_of_ne different

@[simp] theorem set_reconnect (different : field ≠ .reconnect) :
    (c.set type field).reconnect = c.reconnect := set_handle_of_ne different.symm

theorem set_heart (type : TimerType) (different : field ≠ .heart) :
    (c.set type field).heart = c.heart := set_handle_of_ne different.symm

/-- What a stop does not touch, the loop over the used slots does not touch. -/
private theorem stopUsed_field {α : Type} (read : Ctl → α)
    (stopped : ∀ (c : Ctl) slot, read (c.stop none slot) = read c) (slots : List TimerIndex) :
    read (c.stopUsed slots) = read c := by
  induction slots generalizing c with
  | nil => rfl
  | cons slot rest ih =>
    rw [stopUsed, List.foldl_cons]
    split_ifs
    · exact ih.trans (stopped c slot)
    · exact ih

@[simp] theorem clear_main : c.clear.main = c.main := stopUsed_field Ctl.main (fun _ _ => rfl) _

@[simp] theorem clear_keyRecv : c.clear.keyRecv = c.keyRecv :=
  stopUsed_field Ctl.keyRecv (fun _ _ => rfl) _

@[simp] theorem clear_session : c.clear.session = c.session :=
  stopUsed_field Ctl.session (fun _ _ => rfl) _

@[simp] theorem clear_callback : c.clear.callback = c.callback :=
  stopUsed_field Ctl.callback (fun _ _ => rfl) _

@[simp] theorem clear_handle (field : TimerField) : c.clear.handle field = c.handle field :=
  (stopUsed_field (fun c => c.handle field) (fun _ _ => by cases field <;> rfl) _ :)

@[simp] theorem clear_slots : c.clear.slots = Pool.empty := rfl

@[simp] theorem stopHandle_main (handle : Option TimerIndex) {via : TimerField} :
    (c.stopHandle via handle).main = c.main := by
  cases handle <;> rfl

@[simp] theorem stopHandle_keyRecv (handle : Option TimerIndex) {via : TimerField} :
    (c.stopHandle via handle).keyRecv = c.keyRecv := by
  cases handle <;> rfl

@[simp] theorem stopHandle_session (handle : Option TimerIndex) {via : TimerField} :
    (c.stopHandle via handle).session = c.session := by
  cases handle <;> rfl

@[simp] theorem stopHandle_handle (handle : Option TimerIndex) (field : TimerField)
    {via : TimerField} : (c.stopHandle via handle).handle field = c.handle field := by
  cases handle <;> cases field <;> rfl

@[simp] theorem stopHandle_reconnect (handle : Option TimerIndex) {via : TimerField} :
    (c.stopHandle via handle).reconnect = c.reconnect :=
  stopHandle_handle handle .reconnect

@[simp] theorem registered_main : c.registered.main = .accessNet := stopHandle_main c.register

@[simp] theorem registered_keyRecv : c.registered.keyRecv = c.keyRecv :=
  stopHandle_keyRecv c.register

theorem registered_handle (different : field ≠ .register) :
    c.registered.handle field = c.handle field := by
  rw [registered]
  cases c.register <;> cases field <;> first | rfl | exact absurd rfl different

@[simp] theorem registered_reconnect : c.registered.reconnect = c.reconnect :=
  stopHandle_reconnect c.register

/-- A registration frees the slot its handle names. -/
theorem registered_slots : c.registered.slots = (c.stopHandle .register c.register).slots := by
  rw [registered]
  cases c.register <;> rfl

/-- The main state plays no part in arming a timer. -/
theorem set_advance (main : MainState) :
    { c with main := main }.set type field = { c.set type field with main := main } := by
  have same : { c with main := main }.slots.firstIdle = c.slots.firstIdle := rfl
  rw [set, set, same]
  cases c.slots.firstIdle with
  | none => rfl
  | some slot => cases field <;> rfl

/-- The timeout action runs inside the callback. -/
theorem Timeout.callback_eq {again : Bool} {d : Ctl} (timeout : c.Timeout type again d) :
    d.callback = c.callback := by
  cases timeout <;> first | rfl | exact set_callback

end Operations

end Ctl

/-- What a slot of the bank carries. -/
def TimerBank.slots (bank : TimerBank) : Pool 5 TimerType := fun slot =>
  if (bank.struTimer slot).u8Status = .used then some (bank.struTimer slot).u8Type else none

/-- What a stop on record stopped. -/
def StopRecord.stop (record : StopRecord) : Stop :=
  (record.via, if record.held.u8Status = .used then some record.held.u8Type else none)

end ShuangFa
