import ShuangFa.Control.Tracking

/-! # The command timer of a connection

Until the handshake is over no command is out: the handle of the command timer is not set and no
slot carries its type. From then on, as long as a command comes only when none is out and every
timer that is armed finds an idle slot, the handle is set exactly while a command timer runs, and
it names that timer.
-/

namespace ShuangFa

open Memory SlotPool

namespace Ctl

variable {c d : Ctl} {slot : TimerIndex} {type : TimerType}

theorem Absent.set (absent : c.Absent type) (field : TimerField) (other : field.type ≠ type) :
    (c.set field.type field).Absent type := by
  rcases set_cases c field.type field with same | ⟨slot, _, same⟩
  · rwa [same]
  · intro place used
    rw [same, setHandle_slots, occupy_slots] at used
    rcases Pool.occupy_eq_some_iff.mp used with ⟨_, carried⟩ | ⟨_, used⟩
    · exact other carried
    · exact absent place used

/-- No command is out. -/
structure Unsent (c : Ctl) : Prop where
  handle : c.sendMoudle = none
  absent : c.Absent .sendMoudle

namespace Unsent

theorem of_early (core : c.Core) (early : c.main.Early) : c.Unsent := by
  refine ⟨(core.reset early).1, core.absent fun allows => ?_⟩
  cases main : c.main <;> rw [main] at early allows <;>
    first | exact early | simp [MainState.Allows] at allows

theorem congr (unsent : c.Unsent) (handle : d.sendMoudle = c.sendMoudle)
    (slots : d.slots = c.slots) : d.Unsent :=
  ⟨handle.trans unsent.handle, fun slot used => unsent.absent slot (slots ▸ used)⟩

theorem stop (unsent : c.Unsent) (via : Option TimerField) (slot : TimerIndex) :
    (c.stop via slot).Unsent := ⟨unsent.handle, unsent.absent.stop via slot⟩

theorem stopHandle (unsent : c.Unsent) (via : TimerField) (handle : Option TimerIndex) :
    (c.stopHandle via handle).Unsent :=
  ⟨(stopHandle_handle handle .sendMoudle).trans unsent.handle, unsent.absent.stopHandle via handle⟩

theorem set (unsent : c.Unsent) (field : TimerField) (other : field ≠ .sendMoudle) :
    (c.set field.type field).Unsent :=
  ⟨(set_handle_of_ne other.symm : (c.set _ field).handle .sendMoudle = _).trans unsent.handle,
    unsent.absent.set field fun same => other (type_injective same)⟩

theorem heart (unsent : c.Unsent) : ((c.stopHandle .heart c.heart).set .sendHeart .heart).Unsent :=
  (unsent.stopHandle .heart c.heart).set .heart nofun

theorem timeout {again : Bool} (unsent : c.Unsent) (carries : c.slots slot = some type)
    (timeout : (c.elapse slot).Timeout type again d) : d.Unsent := by
  have elapsed : (c.elapse slot).Unsent := unsent.congr rfl rfl
  cases timeout with
  | reconnect | reaccess => exact elapsed.congr rfl rfl
  | sendMoudle | givenUp => exact absurd carries (unsent.absent slot)
  | sendHeart => exact elapsed.set .heart nofun
  | register => exact elapsed.set .register nofun
  | sendUbind => exact elapsed.set .sendUnbind nofun

theorem disconnected (unsent : c.Unsent) : c.disconnected.Unsent := unsent.congr rfl rfl

/-- Nothing but a command of the cloud brings one out. -/
theorem step {label : Label} (unsent : c.Unsent) (core : c.Core) (quiet : label ≠ .command)
    (step : c.Step label d) : d.Unsent := by
  cases step with
  | stay => exact unsent
  | connect _ _ _ => exact unsent.congr rfl rfl
  | access1Sent _ =>
    refine Unsent.set ?_ .access nofun
    exact (unsent.stopHandle .reconnect c.reconnect).congr rfl rfl
  | access1Failed _ => exact (unsent.stopHandle .reconnect c.reconnect).congr rfl rfl
  | access2 _ outcome =>
    have stopped := unsent.stop (some .access) c.access
    cases outcome with
    | ignored => exact unsent
    | corrupt => exact unsent.disconnected
    | refused => exact stopped.disconnected
    | accepted key =>
      refine Unsent.set ?_ .access nofun
      exact stopped.congr rfl rfl
  | access4 _ outcome =>
    have stopped := unsent.stop (some .access) c.access
    cases outcome with
    | ignored => exact unsent.heart
    | corrupt => exact unsent.disconnected.heart
    | refused => exact stopped.disconnected.heart
    | accepted => exact Unsent.heart (stopped.congr rfl rfl)
  | unbindStart _ =>
    have moved : { c with main := .waitUnbind }.Unsent := unsent.congr rfl rfl
    exact (moved.stopHandle .sendUnbind c.sendUnbind).set .sendUnbind nofun
  | unbindMessage _ outcome =>
    refine Unsent.set ?_ .heart nofun
    cases outcome with
    | other => exact unsent
    | answered => exact (unsent.stopHandle .sendUnbind c.sendUnbind).congr rfl rfl
  | command _ => exact absurd rfl quiet
  | networkReset _ | peerClosed _ => exact unsent.disconnected
  | reconnect _ _ =>
    have cleared : { c.clear with
        reconnect := none, sendMoudle := none, heart := none, main := .init }.Unsent :=
      ⟨rfl, fun _ => nofun⟩
    exact (cleared.set .reconnect nofun).congr rfl rfl
  | sleep => exact ⟨rfl, fun _ => nofun⟩
  | wakeUp _ => exact (unsent.set .register nofun).congr rfl rfl
  | register _ =>
    have other : TimerField.sendMoudle ≠ .register := by decide
    have kept : c.registered.handle .sendMoudle = c.handle .sendMoudle := registered_handle other
    have stopped := unsent.stopHandle .register c.register
    exact ⟨kept.trans unsent.handle, fun slot used => stopped.absent slot (registered_slots ▸ used)⟩
  | reply named => exact nomatch named.symm.trans unsent.handle
  | fire _ run carries timeout =>
    exact (unsent.timeout (core.carries run carries) timeout).stop none _
  | action _ run carries timeout =>
    exact (unsent.timeout (core.carries run carries) timeout).congr rfl rfl
  | callbackStop _ => exact (unsent.stop none _).congr rfl rfl

end Unsent

/-- A handshake message is awaited. -/
def Shaking (c : Ctl) : Prop := c.main = .waitAccessRsp ∨ c.main = .waitMsg4

theorem Timeout.shaking {again : Bool} (timeout : c.Timeout type again d) (shaking : d.Shaking) :
    c.Shaking := by
  cases timeout with
  | reconnect | reaccess => rcases shaking with main | main <;> cases main
  | sendMoudle | sendHeart | register | sendUbind => rwa [Shaking, set_main] at shaking
  | givenUp => exact shaking

/-- The transitions after which a handshake message is awaited. -/
inductive Shake (c : Ctl) : Label → Ctl → Prop
  | same {label : Label} : c.Shaking → Shake c label c
  | sent : c.main = .waitAccess → Shake c .access1
      ({ c.stopHandle .reconnect c.reconnect with
        reconnect := none, main := .waitAccessRsp }.set .reaccess .access)
  | keyed (key : FixedBuffer zcHsSessionKeyLen) : c.main = .waitAccessRsp →
      Shake c (.access2 (some key)) ({ c.stop (some .access) c.access with
        session := c.session.keyed key, keyRecv := true, main := .waitMsg4 }.set .reaccess .access)
  | heart : c.main = .waitMsg4 →
      Shake c (.access4 false) ((c.stopHandle .heart c.heart).set .sendHeart .heart)
  | reply {slot : TimerIndex} : c.Shaking → c.sendMoudle = some slot →
      Shake c .reply { c.stop (some .sendMoudle) slot with sendMoudle := none }
  | fire {slot : TimerIndex} {type : TimerType} {again : Bool} {d : Ctl} : c.Shaking →
      c.running slot = true → c.slots slot = some type → (c.elapse slot).Timeout type again d →
      Shake c (.fire slot again) (d.stop none slot)
  | action {slot : TimerIndex} {type : TimerType} {again : Bool} {d : Ctl} : c.Shaking →
      c.running slot = true → c.slots slot = some type → (c.elapse slot).Timeout type again d →
      Shake c (.action slot) { d with callback := some slot }
  | callbackStop {slot : TimerIndex} : c.Shaking →
      Shake c (.callbackStop slot) { c.stop none slot with callback := none }

/-- There are no others. -/
theorem Step.shake {label : Label} (core : c.Core) (step : c.Step label d) (shaking : d.Shaking) :
    c.Shake label d := by
  have other {main : MainState} (now : d.main = main) (first : main ≠ .waitAccessRsp)
      (second : main ≠ .waitMsg4) : c.Shake label d := by
    rcases shaking with shown | shown
    · exact absurd (now.symm.trans shown) first
    · exact absurd (now.symm.trans shown) second
  cases step with
  | stay => exact .same shaking
  | connect _ _ _ => exact other rfl nofun nofun
  | access1Sent main => exact .sent main
  | access1Failed main => exact other rfl nofun nofun
  | access2 main outcome =>
    cases outcome with
    | ignored => exact .same shaking
    | corrupt | refused => exact other rfl nofun nofun
    | accepted key => exact .keyed key main
  | access4 main outcome =>
    cases outcome with
    | ignored => exact .heart main
    | corrupt | refused | accepted =>
      exact other (set_main.trans (stopHandle_main _)) nofun nofun
  | unbindStart _ => exact other (set_main.trans (stopHandle_main _)) nofun nofun
  | unbindMessage main outcome =>
    cases outcome with
    | other => exact other (set_main.trans main) nofun nofun
    | answered => exact other set_main nofun nofun
  | command main =>
    exact other (set_main.trans ((stopHandle_main _).trans (set_main.trans main))) nofun nofun
  | networkReset _ | peerClosed _ => exact other rfl nofun nofun
  | reconnect _ _ | sleep => exact other rfl nofun nofun
  | wakeUp _ => exact other rfl nofun nofun
  | register _ => exact other registered_main nofun nofun
  | reply named => exact .reply shaking named
  | fire _ run carries timeout =>
    have shaking : (c.elapse _).Shaking := timeout.shaking shaking
    exact .fire shaking run (core.carries run carries) timeout
  | action _ run carries timeout =>
    have shaking : (c.elapse _).Shaking := timeout.shaking shaking
    exact .action shaking run (core.carries run carries) timeout
  | callbackStop _ => exact .callbackStop shaking

/-- No command is out before the handshake is over. -/
theorem unsent_step {label : Label} (core : c.Core) (unsent : c.Shaking → c.Unsent)
    (step : c.Step label d) (shaking : d.Shaking) : d.Unsent := by
  cases step.shake core shaking with
  | same shaking => exact unsent shaking
  | sent main =>
    have early : c.Unsent := .of_early core (by rw [main]; trivial)
    refine Unsent.set ?_ .access nofun
    exact (early.stopHandle .reconnect c.reconnect).congr rfl rfl
  | keyed key main =>
    refine Unsent.set ?_ .access nofun
    exact ((unsent (.inl main)).stop (some .access) c.access).congr rfl rfl
  | heart main => exact (unsent (.inr main)).heart
  | reply shaking named => exact nomatch named.symm.trans (unsent shaking).handle
  | fire before _ carries timeout => exact ((unsent before).timeout carries timeout).stop none _
  | action before _ carries timeout => exact ((unsent before).timeout carries timeout).congr rfl rfl
  | callbackStop before => exact ((unsent before).stop none _).congr rfl rfl

/-- A timer of the type runs on the slot. -/
def Live (c : Ctl) (slot : TimerIndex) (type : TimerType) : Prop :=
  c.slots slot = some type ∧ c.running slot = true

theorem Live.stop {place : TimerIndex} (live : c.Live slot type) (via : Option TimerField)
    (other : slot ≠ place) : (c.stop via place).Live slot type := by
  refine ⟨(Pool.release_of_ne other).trans live.1, ?_⟩
  simp only [Ctl.stop, Function.update_of_ne other]
  exact live.2

theorem Live.set (live : c.Live slot type) (field : TimerField) :
    (c.set field.type field).Live slot type := by
  rcases set_cases c field.type field with same | ⟨new, idle, same⟩
  · rwa [same]
  · have other : slot ≠ new := by
      rintro rfl
      exact nomatch idle.symm.trans live.1
    refine ⟨?_, ?_⟩
    · rw [same, setHandle_slots, occupy_slots, Pool.occupy_of_ne other]
      exact live.1
    · rw [same, setHandle_running]
      simp only [Ctl.occupy, Function.update_of_ne other]
      exact live.2

/-- Arming a timer where there is room makes its handle name a running timer. -/
theorem live_set (room : ∃ idle, c.slots idle = none) (field : TimerField) : ∃ slot,
    c.slots slot = none ∧ (c.set field.type field).handle field = some slot ∧
      (c.set field.type field).Live slot field.type := by
  obtain ⟨slot, found, idle⟩ := Pool.exists_firstIdle room
  refine ⟨slot, idle, ?_, ?_, ?_⟩
  · rw [set_of_idle found, handle_setHandle_self]
  · rw [set_of_idle found, setHandle_slots, occupy_slots, Pool.occupy_self]
  · rw [set_of_idle found, setHandle_running]
    simp only [Ctl.occupy, Function.update_self]

theorem Backed.elapse (backed : c.Backed) : (c.elapse slot).Backed := by
  intro place run
  by_cases same : place = slot
  · simp only [Ctl.elapse, same, Function.update_self, Bool.false_eq_true] at run
  · simp only [Ctl.elapse, Function.update_of_ne same] at run
    exact backed place run

/-- The command handle is set while a command timer runs, and the heart handle names its timer. -/
structure Tended (c : Ctl) : Prop where
  tracked : c.Tracked .sendMoudle
  live : ∀ slot, c.sendMoudle = some slot → c.Live slot .sendMoudle
  heart : c.Firm .heart
  backed : c.Backed

namespace Tended

theorem absent (tended : c.Tended) (none : c.sendMoudle = none) : c.Absent .sendMoudle := by
  have tracked := tended.tracked
  rw [Tracked, show c.handle .sendMoudle = .none from none] at tracked
  exact tracked.absent

/-- The handshake ends with a heart timer and no command out. -/
theorem of_accepted (core : c.Core) (unsent : c.Unsent) {handle : Option TimerIndex}
    (moved : d = { c.stop (some .access) c.access with main := .connectCloud }) :
    ((d.stopHandle .heart handle).set .sendHeart .heart).Tended := by
  have idle : (d.stopHandle .heart handle).slots c.access = none := by
    have free : d.slots c.access = none := by
      rw [moved]
      exact Pool.release_self
    cases handle with
    | none => exact free
    | some slot =>
      by_cases same : c.access = slot
      · rw [same]
        exact Pool.release_self
      · exact (Pool.release_of_ne same).trans free
  have quiet : d.Unsent := by
    rw [moved]
    exact (unsent.stop (some .access) c.access).congr rfl rfl
  have armed := (quiet.stopHandle .heart handle).set .heart nofun
  have backed : d.Backed := by
    rw [moved]
    exact (core.backed.stop : (c.stop (some .access) c.access).Backed)
  refine ⟨Pool.named_of_absent armed.absent, fun slot named => ?_, Firm.set_self ⟨_, idle⟩ .heart,
    Backed.set ?_⟩
  · exact nomatch armed.handle.symm.trans named
  · cases handle with
    | none => exact backed
    | some slot => exact backed.stop

/-- When a fourth handshake message connects, no command is out. -/
theorem of_access4 {accepted : Bool} (core : c.Core) (unsent : c.Unsent)
    (step : c.Step (.access4 accepted) d) (connected : d.main = .connectCloud) :
    d.Tended ∧ d.sendMoudle = none := by
  cases step with
  | access4 main outcome =>
    rw [set_main, stopHandle_main] at connected
    cases outcome with
    | ignored => exact nomatch main.symm.trans connected
    | corrupt | refused => cases connected
    | accepted =>
      refine ⟨of_accepted core unsent rfl, ?_⟩
      have different : TimerField.sendMoudle ≠ .heart := by decide
      exact (set_handle_of_ne different).trans ((stopHandle_handle _ _).trans unsent.handle)

/-- A command comes when none is out. -/
theorem command (tended : c.Tended) (none : c.sendMoudle = none)
    (room : ∃ idle, c.slots idle = .none) : Tended
      (((c.set .sendMoudle .sendMoudle).stopHandle .heart c.heart).set .sendHeart .heart) := by
  obtain ⟨slot, idle, named, live⟩ := live_set room .sendMoudle
  have tracked : (c.set .sendMoudle .sendMoudle).Tracked .sendMoudle :=
    tended.tracked.set .sendMoudle fun _ => tended.absent none
  have heart : (c.set .sendMoudle .sendMoudle).heart = c.heart := set_heart _ nofun
  have firm : (c.set .sendMoudle .sendMoudle).Firm .heart := tended.heart.set_other .sendMoudle nofun
  have named : (c.set .sendMoudle .sendMoudle).sendMoudle = some slot := named
  have backed : (c.set .sendMoudle .sendMoudle).Backed := tended.backed.set
  rw [← heart]
  have kept : ((c.set .sendMoudle .sendMoudle).stopHandle .heart
      (c.set .sendMoudle .sendMoudle).heart).Live slot .sendMoudle ∧
      (((c.set .sendMoudle .sendMoudle).stopHandle .heart
        (c.set .sendMoudle .sendMoudle).heart).set .sendHeart .heart).Firm .heart ∧
      ((c.set .sendMoudle .sendMoudle).stopHandle .heart
        (c.set .sendMoudle .sendMoudle).heart).Backed := by
    cases handle : (c.set .sendMoudle .sendMoudle).heart with
    | none => exact ⟨live, firm.set .heart, backed⟩
    | some place =>
      have other : slot ≠ place := by
        rintro rfl
        exact firm.ne live.1 nofun handle
      exact ⟨live.stop _ other, Firm.set_self ⟨place, Pool.release_self⟩ .heart, backed.stop⟩
  have different : TimerField.sendMoudle ≠ .heart := by decide
  have handle : (((c.set .sendMoudle .sendMoudle).stopHandle .heart
      (c.set .sendMoudle .sendMoudle).heart).set .sendHeart .heart).handle .sendMoudle =
        some slot := by
    rw [set_handle_of_ne different, stopHandle_handle]
    exact named
  refine ⟨tracked.heart, fun place now => ?_, kept.2.1, kept.2.2.set⟩
  obtain rfl := Option.some.inj (handle.symm.trans now)
  exact kept.1.set .heart

/-- A reply ends the command that is out. -/
theorem reply (tended : c.Tended) (named : c.sendMoudle = some slot) :
    Tended { c.stop (some .sendMoudle) slot with sendMoudle := none } := by
  have gone := tended.tracked.stopped .sendMoudle
  rw [show c.handle .sendMoudle = some slot from named] at gone
  have other : c.handle .heart ≠ some slot := tended.heart.ne (tended.live slot named).1 nofun
  have heart : (c.stop (some .sendMoudle) slot).Firm .heart := tended.heart.stop _ other
  have backed : (c.stop (some .sendMoudle) slot).Backed := tended.backed.stop
  exact ⟨Pool.named_of_absent gone, fun _ => nofun, heart.congr rfl rfl, backed⟩

/-- The retransmission timer of a slot starts again in another one. -/
theorem again (tended : c.Tended) (carries : c.slots slot = some .sendMoudle)
    (room : ∃ idle, c.slots idle = none) :
    Tended (((c.elapse slot).set .sendMoudle .sendMoudle).stop none slot) := by
  obtain ⟨new, idle, named, live⟩ := live_set (c := c.elapse slot) room .sendMoudle
  have other : new ≠ slot := by
    rintro rfl
    exact nomatch idle.symm.trans carries
  have elapsed : (c.elapse slot).Firm .heart := tended.heart.congr rfl rfl
  have armed := elapsed.set_other .sendMoudle nofun
  have spared : ((c.elapse slot).set .sendMoudle .sendMoudle).handle .heart ≠ some slot := by
    rw [set_handle_of_ne (show TimerField.heart ≠ .sendMoudle by decide), elapse_handle]
    exact tended.heart.ne carries nofun
  have backed : (c.elapse slot).Backed := tended.backed.elapse
  refine ⟨tended.tracked.rearm .sendMoudle carries, fun place now => ?_, armed.stop none spared,
    backed.set.stop⟩
  obtain rfl : new = place :=
    Option.some.inj (named.symm.trans ((stop_handle .sendMoudle).symm.trans now))
  exact live.stop none other

/-- The command that is out is given up. -/
theorem givenUp (tended : c.Tended) (carries : c.slots slot = some .sendMoudle) :
    Tended ({ c.elapse slot with sendMoudle := none }.stop none slot) := by
  have gone := tended.tracked.released carries none
  have other : c.handle .heart ≠ some slot := tended.heart.ne carries nofun
  have firm : { c.elapse slot with sendMoudle := none }.Firm .heart := tended.heart.congr rfl rfl
  have backed : { c.elapse slot with sendMoudle := none }.Backed := tended.backed.elapse
  exact ⟨Pool.named_of_absent gone, fun _ => nofun, firm.stop none other, backed.stop⟩

end Tended

@[simp] theorem stopHandle_callback (handle : Option TimerIndex) {via : TimerField} :
    (c.stopHandle via handle).callback = c.callback := by
  cases handle <;> rfl

theorem Step.eq_of_stay (step : c.Step .stay d) : d = c := by
  cases step
  rfl

/-- A transition in one piece leaves no callback behind. -/
theorem Step.callback_none {label : Label} (step : c.Step label d) (none : c.callback = none)
    (atomic : ∀ slot, label ≠ .action slot) : d.callback = .none := by
  cases step with
  | access2 _ outcome => cases outcome <;> simp [none, disconnected, stop]
  | access4 _ outcome => cases outcome <;> simp [none, disconnected, stop]
  | unbindMessage _ outcome => cases outcome <;> simp [none]
  | fire _ _ _ timeout => exact timeout.callback_eq.trans none
  | action => exact absurd rfl (atomic _)
  | callbackStop => rfl
  | _ => simp [none, disconnected, reconnected, slept, wokenUp, registered, stop]

end Ctl

end ShuangFa
