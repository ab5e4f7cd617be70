import ShuangFa.Control.Refinement

/-! # The reconnect timer

While `u8ReconnectTimer` is set, `PCT_ConnectCloud` returns early until the reconnect timer elapses.
The slot it names stays a live reconnect timer as long as no one else frees that slot: a callback
whose own slot has been cleared and given to the reconnect timer in between, or a register message
whose handle still names a slot of the connection before.
-/

namespace ShuangFa

open SlotPool Machine

/-- The slot the reconnect handle names is used for the reconnect timer. -/
def ReconnectLive (s : Sys) : Prop :=
  ∀ slot, s.con.u8ReconnectTimer = some slot → s.timers.struTimer slot = ⟨.used, .reconnect⟩

instance : DecidablePred ReconnectLive := fun _ => inferInstanceAs (Decidable (∀ _, _ → _))

/-- A step that ends a callback or a registration frees another slot than the reconnect timer's. -/
def SparesReconnect (s : Sys) : Action → Prop
  | .timerStop => ∀ slot, s.callback = some slot → s.con.u8ReconnectTimer ≠ some slot
  | .recvDataFromMoudle _ pu8Data u16DataLen => registers pu8Data u16DataLen s →
      ∀ slot, s.con.u8RegisterTimer = some slot → s.con.u8ReconnectTimer ≠ some slot
  | _ => True

instance (s : Sys) : (a : Action) → Decidable (SparesReconnect s a)
  | .timerStop => inferInstanceAs (Decidable (∀ _, _ → _ ≠ _))
  | .recvDataFromMoudle _ _ _ => inferInstanceAs (Decidable (_ → ∀ _, _ → _ ≠ _))
  | .cloudfuncRun _ | .cloudfuncRest _ | .recvDataFromCloud _ _ | .cloudRecvfunc _ _
  | .timerCallback _ _ | .timerAction _ _ | .moudleEvent _ _ _ | .disConnectCloud
  | .reconnectCloud _ | .sleep | .hfSleep | .hfWakeUp => isTrue trivial

namespace Ctl

variable {c d : Ctl}

/-- `SparesReconnect` of the transitions. -/
def Spares (c : Ctl) : Label → Prop
  | .callbackStop slot => c.reconnect ≠ some slot
  | .register => ∀ slot, c.register = some slot → c.reconnect ≠ some slot
  | _ => True

/-- The timeout action of a slot never takes the reconnect timer's slot. -/
theorem Firm.timeout {slot : TimerIndex} {type : TimerType} {again : Bool}
    (live : c.Firm .reconnect) (timeout : (c.elapse slot).Timeout type again d) :
    d.Firm .reconnect := by
  have elapsed : (c.elapse slot).Firm .reconnect := live.congr rfl rfl
  cases timeout with
  | reconnect => exact .of_none rfl
  | reaccess | givenUp => exact live.congr rfl rfl
  | sendMoudle => exact elapsed.set .sendMoudle
  | sendHeart => exact elapsed.set .heart
  | register => exact elapsed.set .register
  | sendUbind => exact elapsed.set .sendUnbind

/-- After the timeout action of a slot the reconnect handle names another slot. -/
theorem Firm.timeout_spares {slot : TimerIndex} {type : TimerType} {again : Bool}
    (live : c.Firm .reconnect) (carries : c.slots slot = some type)
    (timeout : (c.elapse slot).Timeout type again d) : d.reconnect ≠ some slot := by
  have other (different : type ≠ .reconnect) : (c.elapse slot).reconnect ≠ some slot :=
    live.ne carries different
  cases timeout with
  | reconnect => nofun
  | reaccess | givenUp => exact other nofun
  | sendMoudle | sendHeart | register | sendUbind => simpa using other nofun

/-- Where no connection attempt waits for the timer, no transition but a new start arms it. -/
theorem Step.reconnect_none {label : Label} (step : c.Step label d) (none : c.reconnect = none)
    (late : label ≠ .reconnect) : d.reconnect = .none := by
  cases step with
  | reconnect => exact absurd rfl late
  | access2 _ outcome => cases outcome <;> simp [none, disconnected, stop]
  | access4 _ outcome => cases outcome <;> simp [none, disconnected, stop]
  | unbindMessage _ outcome => cases outcome <;> simp [none]
  | fire _ _ _ timeout | action _ _ _ timeout =>
    cases timeout <;> simp [none, disconnected, stop, elapse]
  | _ => simp [none, disconnected, slept, wokenUp, registered, stop]

/-- Every transition that spares the reconnect timer keeps it live. -/
theorem Firm.step {label : Label} (live : c.Firm .reconnect) (core : c.Core)
    (spares : c.Spares label) (step : c.Step label d) : d.Firm .reconnect := by
  by_cases new : label = .reconnect
  · subst new
    cases step
    intro slot pending
    cases pending
    rfl
  cases pending : c.reconnect with
  | none => exact .of_none (step.reconnect_none pending new)
  | some place =>
    have waits : c.reconnect ≠ none := by simp [pending]
    have main := core.waiting waits
    have early : c.main.Early := by rcases main with main | main <;> rw [main] <;> trivial
    cases step with
    | stay => exact live
    | connect _ _ none => exact absurd none waits
    | access1Sent now | access1Failed now | access2 now _ | access4 now _ | unbindStart now
    | unbindMessage now _ | command now | networkReset now =>
      rcases main with main | main <;> simp [now] at main
    | reconnect _ none => exact absurd none waits
    | peerClosed up => rcases main with main | main <;> simp [main] at up
    | sleep => exact .of_none rfl
    | wakeUp _ => exact (live.set .register).congr rfl rfl
    | register _ =>
      have stopped : (c.stopHandle .register c.register).Firm .reconnect := by
        cases handle : c.register with
        | none => exact live
        | some other => exact live.stop _ (spares other handle)
      exact stopped.congr (registered_reconnect.trans (stopHandle_reconnect _).symm)
        registered_slots
    | reply named =>
      rw [(core.reset early).1] at named
      cases named
    | fire _ run carries timeout =>
      have carries := core.carries run carries
      exact (live.timeout timeout).stop _ (live.timeout_spares carries timeout)
    | action _ _ _ timeout => exact (live.timeout timeout).congr rfl rfl
    | callbackStop _ => exact (live.stop none spares).congr rfl rfl

end Ctl

theorem ctl_reconnectLive {s : Sys} : s.ctl.Firm .reconnect ↔ ReconnectLive s :=
  forall_congr' fun _ => imp_congr_right fun _ => TimerBank.slots_eq_some_iff

/-- What explains a step that spares the reconnect timer spares it. -/
theorem SparesReconnect.label {s : Sys} {a : Action} {label : Ctl.Label} {d : Ctl}
    (spares : SparesReconnect s a) (cause : label.Cause s a) (step : s.ctl.Step label d) :
    s.ctl.Spares label := by
  cases step with
  | callbackStop busy =>
    obtain rfl := cause
    exact spares _ busy
  | register =>
    obtain ⟨env, pu8Data, u16DataLen, rfl, registers⟩ := cause
    exact spares registers
  | _ => trivial

/-- A step that does not spare the reconnect timer leaves its handle without it. -/
theorem not_reconnectLive {fw : Firmware} {s t : Sys} {a : Action} (taken : ¬ SparesReconnect s a)
    (step : (firmware fw).step? s a = some t) : ¬ ReconnectLive t := by
  rw [← ctl_reconnectLive]
  intro live
  cases a with
  | timerStop =>
    simp only [SparesReconnect, not_forall, not_not] at taken
    obtain ⟨slot, busy, pending⟩ := taken
    cases step
    rcases step_hfTimerCallbackStop s with ⟨free, _⟩ | ⟨other, now, stopped⟩
    · simp [free] at busy
    · obtain rfl := Option.some.inj (now.symm.trans busy)
      rw [stopped] at live
      have carries := live other pending
      simp at carries
  | recvDataFromMoudle env pu8Data u16DataLen =>
    simp only [SparesReconnect, not_forall, not_not] at taken
    obtain ⟨registers, slot, named, pending⟩ := taken
    have handle : s.ctl.register = some slot := named
    rw [ctl_of_registers fw env s registers step] at live
    have carries := live slot (Ctl.registered_reconnect.trans pending)
    rw [Ctl.registered_slots, handle] at carries
    simp [Ctl.stopHandle] at carries
  | _ => exact taken trivial

/-- In a run of the threads the reconnect handle always names a live reconnect timer exactly when no
step frees the slot of that timer for another. -/
theorem reconnectLive_iff (fw : Firmware) (flash : Option ZcConfigDb)
    (registerInfo : ZcRegisterInfo) (tape : List Action) (target : Sys)
    (scheduled : ∀ a ∈ tape, a.Scheduled)
    (replayed : (firmware fw).replay? (hfInit flash registerInfo) tape = some target) :
    (firmware fw).Throughout ReconnectLive (hfInit flash registerInfo) tape ↔
      (firmware fw).EachStep SparesReconnect (hfInit flash registerInfo) tape := by
  refine PartialMachine.throughout_iff_eachStep (I := fun s => s.ctl.Core ∧ s.ctl.Firm .reconnect)
    (fun s holds => ctl_reconnectLive.mp holds.2) ?_ ?_
    ⟨core_hfInit flash registerInfo, .of_none rfl⟩ scheduled replayed
  · rintro s a t ⟨core, live⟩ scheduled spares step
    obtain ⟨label, moved, cause, _⟩ := explained fw s a t scheduled step
    exact ⟨core.step moved, live.step core (spares.label cause moved) moved⟩
  · rintro s a t _ _ taken step
    exact not_reconnectLive taken step

/-! ## A register message takes the reconnect timer's slot -/

/-- The cloud does not answer the first handshake message, and after the new start the next register
message stops the timer that the handle of the registration before names. -/
def lostReconnect : List Action :=
  [.hfWakeUp, .cloudfuncRun .calm, .cloudfuncRest .calm, .cloudfuncRun .calm, .cloudfuncRest .calm,
    .timerAction .calm 1, .timerAction .calm 1, .timerStop, .cloudfuncRun .calm,
    .cloudfuncRest .calm,
    .recvDataFromMoudle .calm (.ofList (messageBytes Code.regsiter 0 (List.replicate 140 0))) 148]

theorem reconnectLive_fails : (∀ a ∈ lostReconnect, a.Scheduled) ∧
    ¬ (firmware .plain).Throughout ReconnectLive (hfInit none .zero) lostReconnect :=
  ⟨by simp [lostReconnect, Action.Scheduled], by decide +kernel⟩

/-- Some step of the run does not spare the reconnect timer. -/
theorem lostReconnect_not_spared :
    ¬ (firmware .plain).EachStep SparesReconnect (hfInit none .zero) lostReconnect := by
  have defined : ((firmware .plain).replay? (hfInit none .zero) lostReconnect).isSome := by
    decide +kernel
  obtain ⟨target, replayed⟩ := Option.isSome_iff_exists.mp defined
  rw [← reconnectLive_iff .plain none .zero lostReconnect target
    (by simp [lostReconnect, Action.Scheduled]) replayed]
  decide +kernel

end ShuangFa
