import ShuangFa.Control.Ctl

/-! # What holds of the control state in every run

A running timer has its slot; before a connection is made only the timers that lead to one are
used, and no handle of a connected device is set; a running reconnect timer is the one its handle
names; and the handle is set only where the controller waits for it. Each operation keeps this
under a condition on the main state alone, and with that every transition does, whatever the
handles of the other timers are worth.
-/

namespace ShuangFa

open SlotPool

/-- No connection has been made yet. -/
def MainState.Early : MainState → Prop
  | .sleep | .init | .accessNet | .waitAccess => True
  | _ => False

/-- The timers that can be used in a main state. -/
def MainState.Allows : MainState → TimerType → Prop
  | .sleep, type | .init, type => type = .reconnect
  | .accessNet, type | .waitAccess, type => type = .reconnect ∨ type = .register
  | _, _ => True

namespace Ctl

/-- Every running timer has its slot. -/
def Backed (c : Ctl) : Prop := ∀ slot, c.running slot = true → c.slots slot ≠ none

/-- What holds in every run of the threads. -/
structure Core (c : Ctl) : Prop where
  backed : c.Backed
  phased : c.slots.Within c.main.Allows
  reset : c.main.Early → c.sendMoudle = none ∧ c.heart = none
  named : ∀ slot, c.running slot = true → c.slots slot = some .reconnect →
    c.reconnect = some slot
  waiting : c.reconnect ≠ none → c.main = .init ∨ c.main = .accessNet

section Backed

variable {c : Ctl} {slot : TimerIndex} {type : TimerType} {field : TimerField}
  {via : Option TimerField}

theorem Backed.stop (backed : c.Backed) : (c.stop via slot).Backed := by
  intro place run
  by_cases same : place = slot
  · simp only [Ctl.stop, same, Function.update_self, Bool.false_eq_true] at run
  · simp only [Ctl.stop, Function.update_of_ne same] at run
    rw [stop_slots, Pool.release_of_ne same]
    exact backed place run

theorem Backed.stopUsed (backed : c.Backed) (slots : List TimerIndex) :
    (c.stopUsed slots).Backed := by
  induction slots generalizing c with
  | nil => exact backed
  | cons slot rest ih =>
    rw [Ctl.stopUsed, List.foldl_cons]
    split_ifs
    · exact ih backed.stop
    · exact ih backed

/-- The loop over the used slots leaves none of them used. -/
theorem stopUsed_slots (slots : List TimerIndex) (place : TimerIndex) :
    (c.stopUsed slots).slots place = if place ∈ slots then none else c.slots place := by
  induction slots generalizing c with
  | nil => rfl
  | cons slot rest ih =>
    rw [Ctl.stopUsed, List.foldl_cons]
    refine Eq.trans ih ?_
    by_cases same : place = slot
    · subst same
      split_ifs with later used <;> simp_all
    · split_ifs <;> simp_all [Pool.release_of_ne same]

/-- After every slot has been stopped no timer runs. -/
theorem Backed.clear (backed : c.Backed) (place : TimerIndex) : c.clear.running place = false := by
  by_contra runs
  refine backed.stopUsed (List.finRange 5) place (Bool.eq_true_of_not_eq_false runs) ?_
  rw [stopUsed_slots, if_pos (List.mem_finRange place)]

theorem Backed.set (backed : c.Backed) : (c.set type field).Backed := by
  rcases set_cases c type field with same | ⟨slot, _, same⟩
  · rwa [same]
  · intro place run
    rw [same, setHandle_running] at run
    rw [same, setHandle_slots, occupy_slots]
    by_cases here : place = slot
    · simp [here]
    · rw [Pool.occupy_of_ne here]
      simp only [Ctl.occupy, Function.update_of_ne here] at run
      exact backed place run

end Backed

section Core

variable {c d : Ctl} {slot : TimerIndex}

/-- Nothing but the main state, the pool and the handles it speaks of matters. -/
theorem Core.congr (core : c.Core) (main : d.main = c.main) (slots : d.slots = c.slots)
    (running : d.running = c.running) (reconnect : d.reconnect = c.reconnect)
    (sendMoudle : d.sendMoudle = c.sendMoudle) (heart : d.heart = c.heart) : d.Core := by
  obtain ⟨backed, phased, reset, named, waiting⟩ := core
  refine ⟨?_, ?_, ?_, ?_, ?_⟩
  · simpa only [Backed, running, slots] using backed
  · rwa [main, slots]
  · rwa [main, sendMoudle, heart]
  · rwa [running, slots, reconnect]
  · rwa [main, reconnect]

/-- The main state may move on to one that allows as much. -/
theorem Core.advance (core : c.Core) (main : MainState)
    (wide : ∀ type, c.main.Allows type → main.Allows type) (early : main.Early → c.main.Early)
    (waits : c.reconnect ≠ none → main = .init ∨ main = .accessNet) :
    { c with main := main }.Core :=
  ⟨core.backed, core.phased.mono wide, fun now => core.reset (early now), core.named, waits⟩

theorem Core.stop (core : c.Core) (via : Option TimerField) (slot : TimerIndex) :
    (c.stop via slot).Core := by
  refine ⟨core.backed.stop, core.phased.release slot, core.reset, ?_, core.waiting⟩
  intro place run carries
  obtain ⟨different, carries⟩ := Pool.release_eq_some_iff.mp carries
  simp only [Ctl.stop, Function.update_of_ne different] at run
  exact core.named place run carries

theorem Core.stopHandle (core : c.Core) (via : TimerField) (handle : Option TimerIndex) :
    (c.stopHandle via handle).Core := by
  cases handle with
  | none => exact core
  | some slot => exact core.stop (some via) slot

theorem Core.elapse (core : c.Core) : (c.elapse slot).Core := by
  have runs {place : TimerIndex} (run : (c.elapse slot).running place = true) :
      c.running place = true := by
    by_cases same : place = slot
    · simp only [Ctl.elapse, same, Function.update_self, Bool.false_eq_true] at run
    · simpa only [Ctl.elapse, Function.update_of_ne same] using run
  exact ⟨fun place run => core.backed place (runs run), core.phased, core.reset,
    fun place run => core.named place (runs run), core.waiting⟩

/-- A timer other than the reconnect timer may be armed where its type is allowed. -/
theorem Core.set (core : c.Core) (field : TimerField) (other : field ≠ .reconnect)
    (fits : c.main.Allows field.type) : (c.set field.type field).Core := by
  rcases set_cases c field.type field with same | ⟨slot, idle, same⟩
  · rwa [same]
  have late (early : c.main.Early) : field ≠ .sendMoudle ∧ field ≠ .heart := by
    constructor <;> rintro rfl <;> revert early fits <;> cases c.main <;>
      simp [MainState.Early, MainState.Allows, TimerField.type]
  have different : field.type ≠ .reconnect := by
    cases field <;> first | exact absurd rfl other | nofun
  have handles {g : TimerField} (ne : g ≠ field) : (c.set field.type field).handle g = c.handle g :=
    set_handle_of_ne ne
  refine ⟨core.backed.set, ?_, ?_, ?_, ?_⟩
  · rw [set_main, same, setHandle_slots, occupy_slots]
    exact core.phased.occupy fits slot
  · rw [set_main]
    intro early
    obtain ⟨moudle, heart⟩ := core.reset early
    exact ⟨(handles (late early).1.symm).trans moudle, (handles (late early).2.symm).trans heart⟩
  · intro place run carries
    rw [same, setHandle_running] at run
    rw [same, setHandle_slots, occupy_slots] at carries
    rcases Pool.occupy_eq_some_iff.mp carries with ⟨_, reconnect⟩ | ⟨ne, carries⟩
    · exact absurd reconnect different
    · simp only [Ctl.occupy, Function.update_of_ne ne] at run
      exact (handles other.symm).trans (core.named place run carries)
  · rw [set_main]
    have kept : (c.set field.type field).reconnect = c.reconnect := handles other.symm
    rw [kept]
    exact core.waiting

theorem Core.disconnected (core : c.Core) (late : c.reconnect = none) : c.disconnected.Core :=
  (core.advance .disconnectCloud (fun _ _ => trivial) (fun early => early.elim)
    fun pending => absurd late pending).congr rfl rfl rfl rfl rfl rfl

/-- After a lost connection the first slot carries the reconnect timer and the others are idle. -/
theorem reconnected_eq : c.reconnected = { c.clear.occupy 0 .reconnect with
    reconnect := some 0, sendMoudle := none, heart := none, keyRecv := false, main := .init } :=
  (rfl)

theorem reconnected_slots : c.reconnected.slots = Pool.empty.occupy 0 .reconnect := rfl

theorem Core.reconnected (core : c.Core) : c.reconnected.Core := by
  have only {place : TimerIndex} (run : c.reconnected.running place = true) : place = 0 := by
    by_contra other
    rw [reconnected_eq] at run
    simp only [Ctl.occupy, Function.update_of_ne other, core.backed.clear place,
      Bool.false_eq_true] at run
  refine ⟨?_, ?_, fun _ => ⟨rfl, rfl⟩, ?_, fun _ => .inl rfl⟩
  · intro place run
    rw [only run, reconnected_slots, Pool.occupy_self]
    nofun
  · rw [reconnected_slots]
    exact Pool.Within.occupy Pool.within_empty (show MainState.Allows .init .reconnect from rfl) _
  · intro place run _
    rw [only run]
    rfl

theorem Core.slept (core : c.Core) : c.slept.Core := by
  have still (place : TimerIndex) : c.slept.running place = false :=
    Backed.clear (c := { c with keyRecv := false }) core.backed place
  refine ⟨?_, Pool.within_empty, fun _ => ⟨rfl, rfl⟩, ?_, fun pending => absurd rfl pending⟩
  · intro place run
    rw [still] at run
    cases run
  · intro place run
    rw [still] at run
    cases run

/-- The timeout action of a slot in use. -/
theorem Core.timeout {type : TimerType} {again : Bool} (core : c.Core)
    (run : c.running slot = true) (carries : c.slots slot = some type)
    (timeout : (c.elapse slot).Timeout type again d) : d.Core := by
  have elapsed : (c.elapse slot).Core := core.elapse
  have fits : c.main.Allows type := core.phased slot type carries
  cases timeout with
  | reconnect =>
    have pending := core.named slot run carries
    have main := core.waiting fun none => by simp [none] at pending
    refine ⟨elapsed.backed, ?_, ?_, ?_, fun pending => absurd rfl pending⟩
    · refine elapsed.phased.mono fun type allowed => ?_
      have main : (c.elapse slot).main = .init ∨ (c.elapse slot).main = .accessNet := main
      rcases main with main | main <;> rw [main] at allowed
      · exact .inl allowed
      · exact allowed
    · intro _
      refine core.reset ?_
      rcases main with main | main <;> rw [main] <;> trivial
    · intro place run' carries'
      have other : place ≠ slot := by
        rintro rfl
        simp only [Ctl.elapse, Function.update_self, Bool.false_eq_true] at run'
      have again := elapsed.named place run' carries'
      exact absurd (Option.some.inj (again.symm.trans pending)) other
  | reaccess =>
    refine elapsed.disconnected ?_
    by_contra pending
    have main := core.waiting pending
    rcases main with main | main <;> rw [main] at fits
    · cases fits
    · rcases fits with fits | fits <;> cases fits
  | sendMoudle => exact elapsed.set .sendMoudle nofun fits
  | givenUp =>
    refine ⟨elapsed.backed, elapsed.phased, ?_, elapsed.named, elapsed.waiting⟩
    exact fun early => ⟨rfl, (elapsed.reset early).2⟩
  | sendHeart => exact elapsed.set .heart nofun fits
  | register => exact elapsed.set .register nofun fits
  | sendUbind => exact elapsed.set .sendUnbind nofun fits

/-- Where no connection is made the reconnect handle is not set. -/
theorem Core.no_reconnect (core : c.Core) (init : c.main ≠ .init) (access : c.main ≠ .accessNet) :
    c.reconnect = none := by
  by_contra pending
  rcases core.waiting pending with main | main
  · exact init main
  · exact access main

/-- A running timer carries a type. -/
theorem Core.carries {type : TimerType} (core : c.Core) (run : c.running slot = true)
    (carries : c.slots slot ∈ [none, some type]) : c.slots slot = some type := by
  rcases List.mem_cons.mp carries with idle | used
  · exact absurd idle (core.backed slot run)
  · exact List.mem_singleton.mp used

/-- Every transition keeps what holds in every run. -/
theorem Core.step {label : Label} (core : c.Core) (step : c.Step label d) : d.Core := by
  cases step with
  | stay => exact core
  | connect randMsg main none =>
    have moved := core.advance .waitAccess (by rw [main]; exact fun _ fits => fits)
      (by rw [main]; exact id) fun pending => absurd none pending
    exact moved.congr rfl rfl rfl rfl rfl rfl
  | access1Sent main =>
    have none : c.reconnect = none := core.no_reconnect (by rw [main]; nofun) (by rw [main]; nofun)
    have moved := core.advance .waitAccessRsp (fun _ _ => trivial)
      (fun early => early.elim) fun pending => absurd none pending
    rw [none]
    refine Core.set ?_ .access nofun trivial
    exact moved.congr rfl rfl rfl none.symm rfl rfl
  | access1Failed main =>
    have none : c.reconnect = none := core.no_reconnect (by rw [main]; nofun) (by rw [main]; nofun)
    rw [none]
    exact Core.disconnected (core.congr rfl rfl rfl none.symm rfl rfl) rfl
  | access2 main outcome =>
    have none : c.reconnect = none := core.no_reconnect (by rw [main]; nofun) (by rw [main]; nofun)
    have stopped := core.stop (some .access) c.access
    cases outcome with
    | ignored => exact core
    | corrupt => exact core.disconnected none
    | refused => exact stopped.disconnected none
    | accepted key =>
      have moved := stopped.advance .waitMsg4 (fun _ _ => trivial)
        (fun early => early.elim) fun pending => absurd none pending
      refine Core.set ?_ .access nofun trivial
      exact moved.congr rfl rfl rfl rfl rfl rfl
  | access4 main outcome =>
    have none : c.reconnect = none := core.no_reconnect (by rw [main]; nofun) (by rw [main]; nofun)
    have stopped := core.stop (some .access) c.access
    cases outcome with
    | ignored =>
      exact (core.stopHandle _ _).set .heart nofun (by rw [stopHandle_main, main]; trivial)
    | corrupt =>
      exact ((core.disconnected none).stopHandle _ _).set .heart nofun
        (by rw [stopHandle_main]; trivial)
    | refused =>
      exact ((stopped.disconnected none).stopHandle _ _).set .heart nofun
        (by rw [stopHandle_main]; trivial)
    | accepted =>
      have moved := stopped.advance .connectCloud (fun _ _ => trivial)
        (fun early => early.elim) fun pending => absurd none pending
      exact (moved.stopHandle _ _).set .heart nofun (by rw [stopHandle_main]; trivial)
  | unbindStart main =>
    have none : c.reconnect = none := core.no_reconnect (by rw [main]; nofun) (by rw [main]; nofun)
    have moved := core.advance .waitUnbind (fun _ _ => trivial)
      (fun early => early.elim) fun pending => absurd none pending
    exact (moved.stopHandle _ _).set .sendUnbind nofun (by rw [stopHandle_main]; trivial)
  | unbindMessage main outcome =>
    have none : c.reconnect = none := core.no_reconnect (by rw [main]; nofun) (by rw [main]; nofun)
    cases outcome with
    | other => exact core.set .heart nofun (by rw [main]; trivial)
    | answered =>
      have stopped := core.stopHandle .sendUnbind c.sendUnbind
      have moved := stopped.advance .connectCloud (fun _ _ => trivial)
        (fun early => early.elim) fun pending =>
          absurd ((stopHandle_reconnect _).trans none) pending
      refine Core.set ?_ .heart nofun trivial
      exact moved.congr rfl rfl rfl rfl rfl rfl
  | command main =>
    have armed := core.set .sendMoudle nofun (by rw [main]; trivial)
    exact (armed.stopHandle _ _).set .heart nofun
      (by rw [stopHandle_main, set_main, main]; trivial)
  | networkReset main =>
    exact core.disconnected (core.no_reconnect (by rw [main]; nofun) (by rw [main]; nofun))
  | reconnect _ _ => exact core.reconnected
  | peerClosed up =>
    refine core.disconnected (core.no_reconnect ?_ ?_) <;> rintro main <;> simp [main] at up
  | sleep => exact core.slept
  | wakeUp main =>
    have moved := core.advance .accessNet (by rw [main]; exact fun _ fits => .inl fits)
      (by rw [main]; exact fun _ => trivial) fun _ => .inr rfl
    rw [wokenUp, ← set_advance]
    exact moved.set .register nofun (.inr rfl)
  | register early =>
    have moved := core.advance .accessNet
      (by rcases early with main | main <;> rw [main] <;> exact fun _ fits => .inl fits)
      (by rcases early with main | main <;> rw [main] <;> exact fun _ => trivial) fun _ => .inr rfl
    exact (moved.stopHandle .register c.register).congr rfl rfl rfl rfl rfl rfl
  | @reply slot _ =>
    have stopped := core.stop (some .sendMoudle) slot
    exact ⟨stopped.backed, stopped.phased, fun early => ⟨rfl, (stopped.reset early).2⟩,
      stopped.named, stopped.waiting⟩
  | fire _ run carries timeout => exact (core.timeout run (core.carries run carries) timeout).stop _ _
  | action _ run carries timeout =>
    exact (core.timeout run (core.carries run carries) timeout).congr rfl rfl rfl rfl rfl rfl
  | @callbackStop slot _ => exact (core.stop none slot).congr rfl rfl rfl rfl rfl rfl

end Core

/-! ## Handles that name a slot of their type -/

/-- A handle that is set names a slot of its type. -/
def Firm (c : Ctl) (field : TimerField) : Prop :=
  ∀ slot, c.handle field = some slot → c.slots slot = some field.type

section Firm

variable {c d : Ctl} {field : TimerField} {slot : TimerIndex}

theorem type_injective {first second : TimerField} (same : first.type = second.type) :
    first = second := by
  cases first <;> cases second <;> first | rfl | cases same

theorem Firm.of_none (none : c.handle field = none) : c.Firm field := by
  intro slot named
  rw [none] at named
  cases named

theorem Firm.congr (firm : c.Firm field) (handle : d.handle field = c.handle field)
    (slots : d.slots = c.slots) : d.Firm field := by
  intro slot named
  rw [handle] at named
  rw [slots]
  exact firm slot named

/-- A slot that carries another type is not the one a handle names. -/
theorem Firm.ne (firm : c.Firm field) {type : TimerType} (carries : c.slots slot = some type)
    (different : type ≠ field.type) : c.handle field ≠ some slot := by
  intro named
  exact different (Option.some.inj (carries.symm.trans (firm slot named)))

theorem Firm.stop (firm : c.Firm field) (via : Option TimerField)
    (other : c.handle field ≠ some slot) : (c.stop via slot).Firm field := by
  intro place named
  rw [stop_handle] at named
  have different : place ≠ slot := by
    rintro rfl
    exact other named
  rw [stop_slots, Pool.release_of_ne different]
  exact firm place named

theorem Firm.set_other (firm : c.Firm field) (armed : TimerField) (other : field ≠ armed) :
    (c.set armed.type armed).Firm field := by
  intro place named
  rw [set_handle_of_ne other] at named
  rcases set_cases c armed.type armed with same | ⟨slot, idle, same⟩
  · rw [same]
    exact firm place named
  · have different : place ≠ slot := by
      rintro rfl
      rw [firm place named] at idle
      cases idle
    rw [same, setHandle_slots, occupy_slots, Pool.occupy_of_ne different]
    exact firm place named

/-- Arming a timer makes its handle name it when there is room. -/
theorem Firm.set_self (room : ∃ idle, c.slots idle = none) (field : TimerField) :
    (c.set field.type field).Firm field := by
  obtain ⟨slot, found, _⟩ := Pool.exists_firstIdle room
  intro place named
  rw [set_of_idle found, handle_setHandle_self] at named
  obtain rfl := Option.some.inj named
  rw [set_of_idle found, setHandle_slots, occupy_slots, Pool.occupy_self]

theorem Firm.set (firm : c.Firm field) (armed : TimerField) :
    (c.set armed.type armed).Firm field := by
  by_cases other : field = armed
  · subst other
    rcases set_cases c field.type field with same | ⟨slot, idle, _⟩
    · rwa [same]
    · exact Firm.set_self ⟨slot, idle⟩ field
  · exact firm.set_other armed other

end Firm

end Ctl

end ShuangFa
