import ShuangFa.Control.Refinement
import ShuangFa.Control.Tending

/-! # The watchdog of the handshake

While a handshake message is awaited the access handle names a running access timer. Before the
first message only the reconnect and the register timer can be used, each once, so there is room
for it; while it runs nothing else stops its slot, since the handle of the heart timer names another
one and no command is out; and the second message frees its slot before it starts again.
-/

namespace ShuangFa

open SlotPool Machine

namespace Ctl

variable {c d : Ctl} {slot : TimerIndex} {type : TimerType}

/-- The access timer runs, and no handle that could stop it names its slot. -/
structure Watched (c : Ctl) : Prop where
  live : c.Live c.access .reaccess
  unsent : c.Unsent
  apart : c.heart ≠ some c.access
  still : c.main = .waitAccessRsp → c.heart = none ∧ c.Absent .sendHeart

theorem Live.elapse {place : TimerIndex} (live : c.Live slot type) (other : slot ≠ place) :
    (c.elapse place).Live slot type := by
  constructor
  · exact live.1
  · simp only [Ctl.elapse, Function.update_of_ne other]
    exact live.2

theorem live_set_access (room : ∃ idle, c.slots idle = none) :
    (c.set .reaccess .access).Live (c.set .reaccess .access).access .reaccess := by
  obtain ⟨slot, _, named, live⟩ := live_set room .access
  have same : some (c.set .reaccess .access).access = some slot := named
  obtain rfl := Option.some.inj same
  exact live

/-- Arming another timer than the access timer leaves its handle alone. -/
theorem set_access (field : TimerField) (other : TimerField.access ≠ field) :
    (c.set field.type field).access = c.access :=
  Option.some.inj (set_handle_of_ne other)

/-- The heart timer is armed in a slot that was idle. -/
theorem set_heart_apart (live : c.Live slot type) (apart : c.heart ≠ some slot) :
    (c.set .sendHeart .heart).heart ≠ some slot := by
  rcases set_cases c .sendHeart .heart with same | ⟨new, idle, same⟩
  · rwa [same]
  · rw [same]
    intro named
    obtain rfl : new = slot := Option.some.inj named
    exact nomatch idle.symm.trans live.1

namespace Watched

/-- The access timer is armed where there is room and the heart handle is not set. -/
theorem arm (room : ∃ idle, c.slots idle = none) (still : c.heart = none)
    (quiet : c.main = .waitAccessRsp → c.Absent .sendHeart)
    (unsent : (c.set .reaccess .access).Unsent) : (c.set .reaccess .access).Watched := by
  have other : TimerField.access ≠ .heart := by decide
  have kept : (c.set .reaccess .access).heart = none := (set_heart _ other).trans still
  constructor
  · exact live_set_access room
  · exact unsent
  · rw [kept]
    nofun
  · intro main
    rw [set_main] at main
    constructor
    · exact kept
    · exact Absent.set (quiet main) .access nofun

/-- The first handshake message is sent with an idle slot left. -/
theorem sent (core : c.Core) (room : ∃ idle, c.slots idle = none) (main : c.main = .waitAccess)
    (moved : d = { c.stopHandle .reconnect c.reconnect with
      reconnect := none, main := .waitAccessRsp }) (unsent : (d.set .reaccess .access).Unsent) :
    (d.set .reaccess .access).Watched := by
  have none : c.reconnect = none := core.no_reconnect (by rw [main]; nofun) (by rw [main]; nofun)
  rw [none] at moved
  subst moved
  refine arm room (core.reset (by rw [main]; trivial)).2 (fun _ => ?_) unsent
  have quiet : c.Absent .sendHeart := by
    apply core.absent
    rw [main]
    rintro (allowed | allowed) <;> cases allowed
  exact quiet

/-- The second one frees its slot before it arms it again. -/
theorem keyed (watched : c.Watched) (main : c.main = .waitAccessRsp) {session : Session}
    (moved : d = { c.stop (some .access) c.access with
      session := session, keyRecv := true, main := .waitMsg4 })
    (unsent : (d.set .reaccess .access).Unsent) : (d.set .reaccess .access).Watched := by
  subst moved
  exact arm ⟨c.access, Pool.release_self⟩ (watched.still main).1 nofun unsent

/-- A message that is not the fourth one starts the heart timer, in a slot of its own. -/
theorem heart (watched : c.Watched) (main : c.main = .waitMsg4)
    (unsent : ((c.stopHandle .heart c.heart).set .sendHeart .heart).Unsent) :
    ((c.stopHandle .heart c.heart).set .sendHeart .heart).Watched := by
  have stopped : (c.stopHandle .heart c.heart).Live c.access .reaccess := by
    cases handle : c.heart with
    | none => exact watched.live
    | some slot => exact watched.live.stop _ fun same => watched.apart (same ▸ handle)
  have access : ((c.stopHandle .heart c.heart).set .sendHeart .heart).access = c.access :=
    (set_access .heart nofun).trans (Option.some.inj (stopHandle_handle c.heart .access))
  constructor
  · rw [access]
    exact stopped.set .heart
  · exact unsent
  · rw [access]
    apply set_heart_apart stopped
    exact fun named => watched.apart ((stopHandle_handle c.heart .heart).symm.trans named)
  · intro now
    rw [set_main, stopHandle_main, main] at now
    cases now

/-- A timer other than the access timer starts again in another slot. -/
theorem rearm (watched : c.Watched) (field : TimerField) (carries : c.slots slot = some field.type)
    (other : TimerField.access ≠ field)
    (unsent : (((c.elapse slot).set field.type field).stop none slot).Unsent) :
    (((c.elapse slot).set field.type field).stop none slot).Watched := by
  have apart : c.access ≠ slot := by
    intro same
    have both := watched.live.1.symm.trans (same ▸ carries)
    exact other (type_injective (Option.some.inj both))
  have elapsed : (c.elapse slot).Live c.access .reaccess := watched.live.elapse apart
  have access : (((c.elapse slot).set field.type field).stop none slot).access = c.access :=
    set_access field other
  constructor
  · rw [access]
    exact (elapsed.set field).stop none apart
  · exact unsent
  · rw [access]
    by_cases heart : field = .heart
    · subst heart
      exact set_heart_apart elapsed watched.apart
    · have kept : ((c.elapse slot).set field.type field).heart = c.heart := set_heart _ heart
      change ((c.elapse slot).set field.type field).heart ≠ _
      rw [kept]
      exact watched.apart
  · intro main
    have main : ((c.elapse slot).set field.type field).main = .waitAccessRsp := main
    rw [set_main] at main
    obtain ⟨none, absent⟩ := watched.still main
    have heart : field ≠ .heart := by
      rintro rfl
      exact absent slot carries
    constructor
    · exact (set_heart _ heart).trans none
    · apply Absent.stop
      exact Absent.set (c := c.elapse slot) absent field fun same => heart (type_injective same)

/-- A timer other than the access timer elapses. -/
theorem fire {again : Bool} (watched : c.Watched) (carries : c.slots slot = some type)
    (timeout : (c.elapse slot).Timeout type again d) (shaking : (d.stop none slot).Shaking)
    (unsent : (d.stop none slot).Unsent) : (d.stop none slot).Watched := by
  cases timeout with
  | reconnect | reaccess => rcases shaking with main | main <;> cases main
  | sendMoudle | givenUp => exact absurd carries (watched.unsent.absent slot)
  | sendHeart => exact watched.rearm .heart carries nofun unsent
  | register => exact watched.rearm .register carries nofun unsent
  | sendUbind => exact watched.rearm .sendUnbind carries nofun unsent

/-- Every transition in one piece keeps the access timer running. -/
theorem step {label : Label} (core : c.Core) (reconnect : c.Tracked .reconnect)
    (register : c.Tracked .register) (watched : c.Shaking → c.Watched) (step : c.Step label d)
    (action : ∀ slot, label ≠ .action slot) (stop : ∀ slot, label ≠ .callbackStop slot)
    (shaking : d.Shaking) : d.Watched := by
  have unsent := unsent_step core (fun shaking => (watched shaking).unsent) step shaking
  cases step.shake core shaking with
  | same before => exact watched before
  | sent main =>
    exact sent core (core.exists_idle main reconnect register) main rfl unsent
  | keyed key main => exact keyed (watched (.inl main)) main rfl unsent
  | heart main => exact heart (watched (.inr main)) main unsent
  | reply before named => exact nomatch named.symm.trans (watched before).unsent.handle
  | fire before _ carries timeout => exact (watched before).fire carries timeout shaking unsent
  | action => exact absurd rfl (action _)
  | callbackStop => exact absurd rfl (stop _)

end Watched

end Ctl

/-- What holds of the access timer in every run with callbacks in one piece. -/
structure Guarded (c : Ctl) : Prop where
  core : c.Core
  reconnect : c.Tracked .reconnect
  register : c.Tracked .register
  watched : c.Shaking → c.Watched

theorem Guarded.step {c d : Ctl} {label : Ctl.Label} (guarded : Guarded c) (step : c.Step label d)
    (action : ∀ slot, label ≠ .action slot) (stop : ∀ slot, label ≠ .callbackStop slot) :
    Guarded d := by
  obtain ⟨core, reconnect, register, watched⟩ := guarded
  have once (field : TimerField) (moudle : field ≠ .sendMoudle) (heart : field ≠ .heart) :
      c.ArmsOnce field label := by
    cases label with
    | command => exact fun same => absurd same moudle
    | unbindMessage => exact fun same => absurd same heart
    | action slot => exact action slot rfl
    | callbackStop slot => exact stop slot rfl
    | _ => trivial
  constructor
  · exact core.step step
  · exact reconnect.step core (once _ nofun nofun) step
  · exact register.step core (once _ nofun nofun) step
  · exact Ctl.Watched.step core reconnect register watched step action stop

/-- In every state of a run with callbacks in one piece: while the second or the fourth handshake
message is awaited, the access handle names a slot that is used for the access timer, which runs;
and when the first message is sent there is an idle slot for it. -/
theorem watchdog (fw : Firmware) (flash : Option ZcConfigDb) (registerInfo : ZcRegisterInfo)
    (tape : List Action) (atomic : ∀ a ∈ tape, a.Atomic) (target : Sys)
    (replayed : (firmware fw).replay? (hfInit flash registerInfo) tape = some target) :
    (target.con.u8MainState = .waitAccessRsp ∨ target.con.u8MainState = .waitMsg4 →
      target.timers.struTimer target.con.u8AccessTimer = ⟨.used, .reaccess⟩ ∧
        target.timers.running target.con.u8AccessTimer = true) ∧
    (target.con.u8MainState = .waitAccess →
      ∃ idle, (target.timers.struTimer idle).u8Status = .idle) := by
  have start : Guarded (hfInit flash registerInfo).ctl := by
    refine ⟨core_hfInit flash registerInfo, .of_empty rfl, .of_empty rfl, ?_⟩
    rintro (main | main) <;> cases main
  have guarded : Guarded target.ctl := by
    refine PartialMachine.invariant_replay? (I := fun s => Guarded s.ctl) ?_ start
      (PartialMachine.EachStep.of_forall (C := fun _ a => a.Atomic) fun _ => atomic) replayed
    intro s a t guarded atomic step
    obtain ⟨label, moved, cause, _⟩ := explained fw s a t atomic.scheduled step
    apply guarded.step moved
    · rintro slot rfl
      obtain ⟨env, rfl⟩ := cause
      exact atomic
    · rintro slot rfl
      obtain rfl := cause
      exact atomic
  constructor
  · intro shaking
    obtain ⟨carries, runs⟩ := (guarded.watched shaking).live
    exact ⟨TimerBank.slots_eq_some_iff.mp carries, runs⟩
  · intro main
    obtain ⟨idle, free⟩ := guarded.core.exists_idle main guarded.reconnect guarded.register
    refine ⟨idle, ?_⟩
    have free : target.timers.slots idle = none := free
    rw [TimerBank.slots] at free
    split_ifs at free with used
    cases status : (target.timers.struTimer idle).u8Status with
    | idle => rfl
    | used => exact absurd status used

/-- A device that waits for the fourth handshake message has its access timer in slot 1, beside the
register timer. -/
theorem watchdog_connecting : ∃ target,
    (firmware .plain).replay? (hfInit none .zero) connecting.dropLast = some target ∧
      target.con.u8MainState = .waitMsg4 ∧
      target.timers.struTimer target.con.u8AccessTimer = ⟨.used, .reaccess⟩ := by
  have waiting : ((firmware .plain).replay? (hfInit none .zero) connecting.dropLast).map
      (fun s => s.con.u8MainState) = some .waitMsg4 := by decide +kernel
  obtain ⟨target, replayed, main⟩ := Option.map_eq_some_iff.mp waiting
  obtain ⟨live, _⟩ := watchdog .plain none .zero connecting.dropLast
    (by simp [connecting, Action.Atomic, Action.Scheduled]) target replayed
  exact ⟨target, replayed, main, (live (.inr main)).1⟩

end ShuangFa
