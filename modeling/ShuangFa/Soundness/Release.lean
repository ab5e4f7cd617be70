import ShuangFa.Control.Tending
import ShuangFa.Lasting.Effect

/-! # The end of an aborted update

An update stops the local tasks and the reception of the UART until it is finished. Nothing else
lets them go on, so they stay stopped where the connection ends before: with an unbinding, a reset of
the network parameters, the end of the socket, a loss of the link, or an access timer that is left
over.
-/

namespace ShuangFa

open Memory SlotPool Machine

/-- A device that is not connected has its local tasks. -/
def Released (s : Sys) : Prop := s.con.u8MainState ≠ .connectCloud → s.u32StopJdTask = 0

instance : DecidablePred Released := fun _ => inferInstanceAs (Decidable (_ → _))

/-- An access timer elapses. -/
def elapsesAccess (s : Sys) (slot : TimerIndex) : Prop :=
  s.callback = none ∧ s.timers.running slot = true ∧
    (s.timers.struHfTimer slot).u32FirstFlag = false ∧
      s.timers.struTimer slot = ⟨.used, .reaccess⟩

instance (s : Sys) (slot : TimerIndex) : Decidable (elapsesAccess s slot) :=
  inferInstanceAs (Decidable (_ ∧ _))

/-- The step does not end a connection in which an update has stopped the local tasks. -/
def EndsReleased (s : Sys) : Action → Prop
  | .cloudfuncRun env => s.u32StopJdTask ≠ 0 → ¬ unbindAsked s ∧ ¬ handlesReset env s
  | .cloudRecvfunc _ none => s.u32StopJdTask = 0
  | .timerCallback _ slot => s.u32StopJdTask ≠ 0 → ¬ elapsesAccess s slot
  | .timerAction _ slot => s.u32StopJdTask ≠ 0 → ¬ elapsesAccess s slot
  | .hfSleep => s.u32StopJdTask = 0
  | _ => True

instance (s : Sys) : (a : Action) → Decidable (EndsReleased s a)
  | .cloudfuncRun _ => inferInstanceAs (Decidable (_ → _))
  | .cloudRecvfunc _ none => inferInstanceAs (Decidable (_ = _))
  | .timerCallback _ _ | .timerAction _ _ => inferInstanceAs (Decidable (_ → _))
  | .hfSleep => inferInstanceAs (Decidable (_ = _))
  | .cloudRecvfunc _ (some _) | .cloudfuncRest _ | .recvDataFromCloud _ _ | .timerStop
  | .moudleEvent _ _ _ | .recvDataFromMoudle _ _ _ | .disConnectCloud | .reconnectCloud _ | .sleep
  | .hfWakeUp => isTrue trivial

section Steps

variable {fw : Firmware} {s t : Sys} {a : Action}

/-- Only the begin of an update stops the local tasks, and only its end lets them go on. -/
theorem u32StopJdTask_step (scheduled : a.Scheduled) (step : (firmware fw).step? s a = some t) :
    t.u32StopJdTask = s.u32StopJdTask ∨
      (t.u32StopJdTask = 1 ∧ ∃ env, a = .cloudfuncRun env ∧ handlesCode env s Code.zotaBegin) ∨
      t.u32StopJdTask = 0 ∧ ∃ env, a = .cloudfuncRun env ∧ handlesCode env s Code.zotaEnd := by
  obtain ⟨e, store, cause⟩ := lasting fw s a t scheduled step
  have stop : t.u32StopJdTask = (s.store.after e).stopJdTask := congrArg Store.stopJdTask store
  rw [stop]
  cases e with
  | otaBegin => exact .inr (.inl ⟨rfl, cause⟩)
  | otaEnd finished =>
    obtain ⟨env, same, handles, _⟩ := cause
    cases finished with
    | false => exact .inl rfl
    | true => exact .inr (.inr ⟨rfl, env, same, handles⟩)
  | config db restarts => cases restarts <;> exact .inl rfl
  | lost fd pending => cases pending <;> exact .inl rfl
  | otaChunk pu8FileData taken => cases taken <;> exact .inl rfl
  | _ => exact .inl rfl

/-- An iteration leaves a connected device connected, unless it unbinds it or resets it. -/
theorem connected_of_cloudfuncRun (fw : Firmware) (env : Env)
    (main : s.con.u8MainState = .connectCloud) :
    (hfCloudfuncRun fw env s).con.u8MainState = .connectCloud ∨ unbindAsked s ∨
      handlesReset env s := by
  have run : (hfCloudfuncRun fw env s).con.u8MainState = (pctRun fw env s).ctl.main := rfl
  have event : pctRun fw env s = pctHandleEvent fw env s := by rw [pctRun, main]
  rw [run, event]
  rcases step_pctHandleEvent fw env s main with
    same | ⟨_, resets⟩ | ⟨_, asked⟩ | ⟨command, _⟩
  · rw [same.eq_of_stay]
    exact .inl main
  · exact .inr (.inr resets)
  · exact .inr (.inl asked)
  · left
    generalize (pctHandleEvent fw env s).ctl = d at command
    cases command with
    | command =>
      rw [Ctl.set_main, Ctl.stopHandle_main, Ctl.set_main]
      exact main

/-- A message that is no reset leaves a connected device connected. -/
theorem connected_of_handlesCode {env : Env} {msgCode : UInt8} (handles : handlesCode env s msgCode)
    (other : msgCode ≠ Code.resetNetwork) :
    (hfCloudfuncRun fw env s).con.u8MainState = .connectCloud := by
  obtain ⟨main, bound, message, taken, _, code⟩ := handles
  rcases connected_of_cloudfuncRun fw env main with connected | asked | ⟨_, _, reset, popped, _, resets⟩
  · exact connected
  · exact absurd asked.2 bound
  · obtain rfl := Option.some.inj (taken.symm.trans popped)
    exact absurd (code.symm.trans resets) other

theorem con_hfTimerCallbackStop : (hfTimerCallbackStop s).con = s.con := by
  rw [hfTimerCallbackStop]
  cases s.callback <;> rfl

/-- Nothing but an access timer ends a connection. -/
theorem connected_of_timerAction {env : Env} {slot : TimerIndex} (core : s.ctl.Core)
    (main : s.con.u8MainState = .connectCloud)
    (step : hfTimerCallbackAction fw env slot s = some t) :
    t.con.u8MainState = .connectCloud ∨ elapsesAccess s slot := by
  rcases ite_eq_iff.mp step with ⟨⟨run, free⟩, step⟩ | ⟨_, step⟩
  · rcases ite_eq_iff.mp step with ⟨_, step⟩ | ⟨first, step⟩
    · cases step
      exact .inl main
    · obtain ⟨acted, action, rfl⟩ := Option.map_eq_some_iff.mp step
      obtain ⟨again, timeout, _⟩ := timeout_timerTimeoutAction fw env _ action
      rw [ctl_elapse] at timeout
      have carries : s.ctl.slots slot = some (s.timers.struTimer slot).u8Type :=
        core.carries run (s.timers.slots_mem slot)
      change acted.ctl.main = _ ∨ _
      have type : ((s.timers.elapse slot).struTimer slot).u8Type =
          (s.timers.struTimer slot).u8Type := rfl
      simp only [type] at timeout
      generalize (s.timers.struTimer slot).u8Type = u8Type at timeout carries
      generalize acted.ctl = d at timeout
      cases timeout with
      | reconnect =>
        have waiting := core.waiting (by rw [core.named slot run carries]; nofun)
        rcases waiting with now | now <;> exact nomatch main.symm.trans now
      | reaccess =>
        exact .inr ⟨free, run, Bool.eq_false_iff.mpr first, TimerBank.slots_eq_some_iff.mp carries⟩
      | givenUp => exact .inl main
      | sendMoudle | sendHeart | register | sendUbind => exact .inl (Ctl.set_main.trans main)
  · cases step
    exact .inl main

/-- An access timer that elapses ends it. -/
theorem disconnected_of_elapsesAccess {env : Env} {slot : TimerIndex} (elapses : elapsesAccess s slot)
    (step : hfTimerCallbackAction fw env slot s = some t) :
    t.con.u8MainState = .disconnectCloud := by
  obtain ⟨free, run, first, carries⟩ := elapses
  have type : ((s.timers.elapse slot).struTimer slot).u8Type = .reaccess :=
    congrArg ZcTimer.u8Type carries
  rw [hfTimerCallbackAction, if_pos ⟨run, free⟩, if_neg (by rw [first]; nofun), timerTimeoutAction,
    type] at step
  cases step
  rfl

/-- Every other step of a connected device leaves it connected. -/
theorem connected_step (core : s.ctl.Core) (main : s.con.u8MainState = .connectCloud)
    (stopped : s.u32StopJdTask ≠ 0) (ends : EndsReleased s a) (scheduled : a.Scheduled)
    (step : (firmware fw).step? s a = some t) : t.con.u8MainState = .connectCloud := by
  have same (ctl : t.ctl = s.ctl) : t.con.u8MainState = .connectCloud :=
    (congrArg Ctl.main ctl).trans main
  have still (moved : s.ctl.Step .stay t.ctl) : t.con.u8MainState = .connectCloud :=
    same moved.eq_of_stay
  have replied (moved : s.ctl.Step .reply t.ctl) : t.con.u8MainState = .connectCloud := by
    have kept : t.ctl.main = s.ctl.main := by
      generalize t.ctl = d at moved
      cases moved
      rfl
    exact kept.trans main
  cases a with
  | cloudfuncRun env =>
    obtain rfl : hfCloudfuncRun fw env s = t := Option.some.inj step
    rcases connected_of_cloudfuncRun fw env main with connected | asked | resets
    · exact connected
    · exact absurd asked (ends stopped).1
    · exact absurd resets (ends stopped).2
  | cloudfuncRest env =>
    cases step
    have other : ¬ (s.con.u8MainState = .disconnectCloud ∧ s.con.u8ReconnectTimer = none) :=
      fun both => nomatch main.symm.trans both.1
    exact same ((ctl_hfCloudfuncRest env s).trans (if_neg other))
  | recvDataFromCloud env pu8Data => exact same (ctl_msgRecvDataFromCloud fw env s step)
  | cloudRecvfunc env received =>
    rcases step_hfCloudRecvfunc fw env s step with moved | ⟨_, rfl⟩
    · exact still moved
    · exact absurd ends stopped
  | timerCallback env slot =>
    rcases ite_eq_iff.mp step with ⟨_, step⟩ | ⟨_, step⟩
    · obtain ⟨acted, action, rfl⟩ := Option.map_eq_some_iff.mp step
      rw [con_hfTimerCallbackStop]
      exact (connected_of_timerAction core main action).resolve_right (ends stopped)
    · cases step
      exact main
  | timerAction env slot => exact (connected_of_timerAction core main step).resolve_right (ends stopped)
  | timerStop =>
    cases step
    rw [con_hfTimerCallbackStop]
    exact main
  | moudleEvent env pu8Msg u16DataLen =>
    rcases step_pctHandleMoudleEvent fw env s step with moved | ⟨moved, _⟩
    · exact still moved
    · exact replied moved
  | recvDataFromMoudle env pu8Data u16DataLen =>
    rcases step_zcRecvDataFromMoudle fw env s step with moved | ⟨moved, _⟩ | ⟨_, early, _⟩
    · exact still moved
    · exact replied moved
    · rcases early with now | now <;> exact nomatch main.symm.trans now
  | disConnectCloud => exact absurd scheduled id
  | reconnectCloud _ => exact absurd scheduled id
  | sleep => exact absurd scheduled id
  | hfSleep => exact absurd ends stopped
  | hfWakeUp =>
    cases step
    have other : ¬ s.con.u8MainState = .init := fun now => nomatch main.symm.trans now
    exact same (congrArg Sys.ctl (if_neg other))

/-- A step that ends such a connection leaves the local tasks stopped. -/
theorem not_released (holds : Released s) (scheduled : a.Scheduled) (ends : ¬ EndsReleased s a)
    (step : (firmware fw).step? s a = some t) : ¬ Released t := by
  have stopped : s.u32StopJdTask ≠ 0 := by
    intro running
    cases a with
    | cloudRecvfunc env received =>
      cases received with
      | none => exact ends running
      | some pu8Data => exact ends trivial
    | cloudfuncRun _ | timerCallback _ _ | timerAction _ _ => exact ends fun stopped => absurd running stopped
    | hfSleep => exact ends running
    | _ => exact ends trivial
  have main : s.con.u8MainState = .connectCloud :=
    Decidable.not_not.mp fun other => stopped (holds other)
  have broken (apart : t.con.u8MainState ≠ .connectCloud)
      (still : ∀ env, a = .cloudfuncRun env → ¬ handlesCode env s Code.zotaEnd) : ¬ Released t := by
    intro released
    rcases u32StopJdTask_step scheduled step with same | ⟨one, _⟩ | ⟨_, env, run, handles⟩
    · exact stopped (same.symm.trans (released apart))
    · exact nomatch one.symm.trans (released apart)
    · exact still env run handles
  cases a with
  | cloudfuncRun env =>
    obtain rfl : hfCloudfuncRun fw env s = t := Option.some.inj step
    by_cases asked : unbindAsked s
    · have ctl := congrArg Ctl.main (ctl_of_unbindAsked fw env s asked)
      rw [Ctl.set_main, Ctl.stopHandle_main] at ctl
      refine broken (fun now => nomatch ctl.symm.trans now) ?_
      intro other _ handles
      exact handles.2.1 asked.2
    · have resets : handlesReset env s := by
        by_contra none
        exact ends fun _ => ⟨asked, none⟩
      have ctl := congrArg Ctl.main (ctl_of_handlesReset fw env s resets)
      refine broken (fun now => nomatch ctl.symm.trans now) ?_
      rintro other same ⟨_, _, message, taken, _, code⟩
      obtain rfl := Action.cloudfuncRun.inj same
      obtain ⟨_, _, reset, popped, _, other⟩ := resets
      obtain rfl := Option.some.inj (taken.symm.trans popped)
      exact nomatch code.symm.trans other
  | cloudRecvfunc env received =>
    cases received with
    | none =>
      rw [show (firmware fw).step? s (.cloudRecvfunc env none) = hfCloudRecvfunc fw env none s from rfl,
        hfCloudRecvfunc, if_pos (by rw [main]; decide)] at step
      cases step
      exact broken nofun nofun
    | some pu8Data => exact absurd trivial ends
  | timerCallback env slot =>
    have elapses : elapsesAccess s slot := by
      by_contra other
      exact ends fun _ => other
    rcases ite_eq_iff.mp step with ⟨_, step⟩ | ⟨busy, _⟩
    · obtain ⟨acted, action, rfl⟩ := Option.map_eq_some_iff.mp step
      refine broken (fun now => ?_) nofun
      rw [con_hfTimerCallbackStop, disconnected_of_elapsesAccess elapses action] at now
      cases now
    · exact absurd elapses.1 busy
  | timerAction env slot =>
    have elapses : elapsesAccess s slot := by
      by_contra other
      exact ends fun _ => other
    refine broken (fun now => ?_) nofun
    rw [disconnected_of_elapsesAccess elapses step] at now
    cases now
  | hfSleep =>
    obtain rfl := Option.some.inj step
    have ctl := congrArg Ctl.main (ctl_hfSleep s)
    exact broken (fun now => nomatch ctl.symm.trans now) nofun
  | _ => exact absurd trivial ends

end Steps

/-- In a run of the threads a device that is not connected always has its local tasks exactly when no
step ends a connection in which an update has stopped them. -/
theorem released_iff (fw : Firmware) (flash : Option ZcConfigDb) (registerInfo : ZcRegisterInfo)
    (tape : List Action) (target : Sys) (scheduled : ∀ a ∈ tape, a.Scheduled)
    (replayed : (firmware fw).replay? (hfInit flash registerInfo) tape = some target) :
    (firmware fw).Throughout Released (hfInit flash registerInfo) tape ↔
      (firmware fw).EachStep EndsReleased (hfInit flash registerInfo) tape := by
  refine PartialMachine.throughout_iff_eachStep (I := fun s => s.ctl.Core ∧ Released s)
    (fun _ => And.right) ?_ ?_ ⟨core_hfInit flash registerInfo, fun _ => rfl⟩ scheduled replayed
  · rintro s a t ⟨core, holds⟩ scheduled ends step
    obtain ⟨label, moved, _⟩ := explained fw s a t scheduled step
    refine ⟨core.step moved, fun apart => ?_⟩
    rcases u32StopJdTask_step scheduled step with same | ⟨_, env, rfl, handles⟩ | ⟨zero, _⟩
    · rw [same]
      by_contra stopped
      by_cases main : s.con.u8MainState = .connectCloud
      · exact apart (connected_step core main stopped ends scheduled step)
      · exact stopped (holds main)
    · obtain rfl : hfCloudfuncRun fw env s = t := Option.some.inj step
      exact absurd (connected_of_handlesCode handles nofun) apart
    · exact zero
  · rintro s a t ⟨_, holds⟩ scheduled ends step
    exact not_released holds scheduled ends step

/-! ## The cloud closes the connection during an update -/

/-- A connected device begins an update, and then the connection ends. -/
def abortedUpdate : List Action :=
  connecting ++ [.cloudRecvfunc .calm (some (plainFrame (messageBytes Code.zotaBegin 1 []))),
    .cloudfuncRun .calm, .cloudRecvfunc .calm none]

theorem released_fails : (∀ a ∈ abortedUpdate, a.Scheduled) ∧
    ¬ (firmware .plain).Throughout Released (hfInit none .zero) abortedUpdate :=
  ⟨by simp [abortedUpdate, connecting, Action.Scheduled], by decide +kernel⟩

/-- Some step of the run ends a connection whose local tasks are stopped. -/
theorem abortedUpdate_ends : ¬ (firmware .plain).EachStep EndsReleased (hfInit none .zero)
    abortedUpdate := by
  have defined : ((firmware .plain).replay? (hfInit none .zero) abortedUpdate).isSome := by
    decide +kernel
  obtain ⟨target, replayed⟩ := Option.isSome_iff_exists.mp defined
  rw [← released_iff .plain none .zero abortedUpdate target
    (by simp [abortedUpdate, connecting, Action.Scheduled]) replayed]
  decide +kernel

end ShuangFa
