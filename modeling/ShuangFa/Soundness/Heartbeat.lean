import ShuangFa.Control.Refinement
import ShuangFa.Control.Tending
import ShuangFa.Send.Outbox

/-! # The heartbeat of a connection

A connection starts with a heart timer, in the slot the access timer has just left. It is lost where
it elapses while every slot is used, since it is armed again before its slot is freed, and where
another handle names its slot: the unbind handle, which starts out as slot 0 and is used before it
is set, and the command handle once it has outlived its timer.
-/

namespace ShuangFa

open Memory SlotPool Machine

namespace Ctl

variable {c d : Ctl} {slot : TimerIndex} {type : TimerType}

/-- The device is connected. -/
def Connected (c : Ctl) : Prop := c.main = .connectCloud ∨ c.main = .waitUnbind

theorem Timeout.connected {again : Bool} (timeout : c.Timeout type again d)
    (connected : d.Connected) : c.Connected := by
  cases timeout with
  | reconnect | reaccess => rcases connected with main | main <;> cases main
  | sendMoudle | sendHeart | register | sendUbind => rwa [Connected, set_main] at connected
  | givenUp => exact connected

/-- A slot that is idle is so after a stop. -/
theorem stopHandle_slots_none {via : TimerField} {handle : Option TimerIndex}
    (free : c.slots slot = none) : (c.stopHandle via handle).slots slot = none := by
  cases handle with
  | none => exact free
  | some place =>
    by_cases same : slot = place
    · rw [same]
      exact Pool.release_self
    · exact (Pool.release_of_ne same).trans free

/-- A slot is used for the heart timer. -/
def Beats (c : Ctl) : Prop := ∃ slot, c.slots slot = some .sendHeart

/-- A slot beside the given one is. -/
def BeatsBeside (c : Ctl) (slot : TimerIndex) : Prop :=
  ∃ other, other ≠ slot ∧ c.slots other = some .sendHeart

/-- The transition does not take the only heart timer; a callback is one transition. -/
def KeepsHeart (c : Ctl) : Label → Prop
  | .unbindStart => ∀ slot, c.sendUnbind = some slot → c.BeatsBeside slot
  | .reply => c.Connected → ∀ slot, c.sendMoudle = some slot → c.BeatsBeside slot
  | .fire slot again => again = true → c.Connected → c.slots slot = some .sendHeart →
      (∃ idle, c.slots idle = none) ∨ c.BeatsBeside slot
  | .action _ => False
  | .callbackStop _ => False
  | _ => True

theorem Beats.set (beats : c.Beats) (type : TimerType) (field : TimerField) :
    (c.set type field).Beats := by
  obtain ⟨slot, carries⟩ := beats
  exact ⟨slot, set_slots_of_used carries⟩

theorem BeatsBeside.set (beats : c.BeatsBeside slot) (type : TimerType) (field : TimerField) :
    (c.set type field).BeatsBeside slot := by
  obtain ⟨other, different, carries⟩ := beats
  exact ⟨other, different, set_slots_of_used carries⟩

theorem BeatsBeside.stop (beats : c.BeatsBeside slot) (via : Option TimerField) :
    (c.stop via slot).Beats := by
  obtain ⟨other, different, carries⟩ := beats
  exact ⟨other, (Pool.release_of_ne different).trans carries⟩

/-- A slot other than the heart timer's is stopped. -/
theorem Beats.stop (beats : c.Beats) (via : Option TimerField) (other : c.slots slot ≠ some .sendHeart) :
    (c.stop via slot).Beats := by
  obtain ⟨place, carries⟩ := beats
  have different : place ≠ slot := by
    rintro rfl
    exact other carries
  exact ⟨place, (Pool.release_of_ne different).trans carries⟩

/-- The heart timer is armed where there is room. -/
theorem beats_set_heart (room : ∃ idle, c.slots idle = none) : (c.set .sendHeart .heart).Beats := by
  obtain ⟨slot, _, _, live⟩ := live_set room .heart
  exact ⟨slot, live.1⟩

/-- The heart timer that is stopped through its handle is armed again. -/
theorem Beats.restart (beats : c.Beats) (via : TimerField) (handle : Option TimerIndex) :
    ((c.stopHandle via handle).set .sendHeart .heart).Beats := by
  cases handle with
  | none => exact beats.set _ _
  | some slot => exact beats_set_heart ⟨slot, Pool.release_self⟩

/-- A timer of a connected device elapses. -/
theorem Beats.fire {again : Bool} (beats : c.Beats) (connected : d.Connected)
    (carries : c.slots slot = some type) (timeout : (c.elapse slot).Timeout type again d)
    (spared : again = true → type = .sendHeart →
      (∃ idle, c.slots idle = none) ∨ c.BeatsBeside slot) :
    (d.stop none slot).Beats := by
  have elapsed : (c.elapse slot).Beats := beats
  have stays (other : type ≠ .sendHeart) (armed : TimerType) (field : TimerField) :
      (((c.elapse slot).set armed field).stop none slot).Beats := by
    apply (elapsed.set armed field).stop
    intro heart
    have kept : ((c.elapse slot).set armed field).slots slot = some type :=
      set_slots_of_used carries
    exact other (Option.some.inj (kept.symm.trans heart))
  cases timeout with
  | reconnect | reaccess => rcases connected with main | main <;> cases main
  | sendMoudle => exact stays nofun _ _
  | register => exact stays nofun _ _
  | sendUbind => exact stays nofun _ _
  | givenUp =>
    have given : { c.elapse slot with sendMoudle := none }.Beats := beats
    apply given.stop
    intro heart
    exact nomatch carries.symm.trans heart
  | sendHeart =>
    rcases spared rfl rfl with room | beside
    · obtain ⟨new, idle, _, live⟩ := live_set (c := c.elapse slot) room .heart
      have different : new ≠ slot := by
        rintro rfl
        exact nomatch idle.symm.trans carries
      exact ⟨new, (live.stop none different).1⟩
    · have elapsed : (c.elapse slot).BeatsBeside slot := beside
      exact (elapsed.set _ _).stop none

/-- Every transition that does not take the only heart timer of a connected device keeps one. -/
theorem beats_step {label : Label} (core : c.Core) (beats : c.Connected → c.Beats)
    (keeps : c.KeepsHeart label) (step : c.Step label d) (connected : d.Connected) : d.Beats := by
  have apart {main : MainState} (now : d.main = main) (first : main ≠ .connectCloud)
      (second : main ≠ .waitUnbind) : d.Beats := by
    rcases connected with shown | shown
    · exact absurd (now.symm.trans shown) first
    · exact absurd (now.symm.trans shown) second
  cases step with
  | stay => exact beats connected
  | connect _ _ _ => exact apart rfl nofun nofun
  | access1Sent _ => exact apart set_main nofun nofun
  | access1Failed _ => exact apart rfl nofun nofun
  | access2 main outcome =>
    cases outcome with
    | ignored => exact apart main nofun nofun
    | corrupt | refused => exact apart rfl nofun nofun
    | accepted key => exact apart set_main nofun nofun
  | access4 main outcome =>
    cases outcome with
    | ignored => exact apart (set_main.trans ((stopHandle_main _).trans main)) nofun nofun
    | corrupt | refused => exact apart (set_main.trans (stopHandle_main _)) nofun nofun
    | accepted =>
      apply beats_set_heart
      refine ⟨c.access, ?_⟩
      have freed : { c.stop (some .access) c.access with main := .connectCloud }.slots c.access =
          none := Pool.release_self
      exact stopHandle_slots_none freed
  | unbindStart main =>
    have before : { c with main := .waitUnbind }.Beats := beats (.inl main)
    apply Beats.set
    cases handle : c.sendUnbind with
    | none => exact before
    | some slot =>
      have beside : { c with main := .waitUnbind }.BeatsBeside slot := keeps slot handle
      exact beside.stop (some .sendUnbind)
  | unbindMessage main outcome =>
    have before := beats (.inr main)
    cases outcome with
    | other => exact before.set _ _
    | answered =>
      cases handle : c.sendUnbind with
      | none =>
        apply Beats.set
        exact before
      | some slot => exact beats_set_heart ⟨slot, Pool.release_self⟩
  | command main => exact ((beats (.inl main)).set _ _).restart _ _
  | networkReset _ | peerClosed _ => exact apart rfl nofun nofun
  | reconnect _ _ | sleep => exact apart rfl nofun nofun
  | wakeUp _ => exact apart rfl nofun nofun
  | register _ => exact apart registered_main nofun nofun
  | @reply slot named =>
    have beside : c.BeatsBeside slot := keeps connected slot named
    exact beside.stop (some .sendMoudle)
  | fire _ run carries timeout =>
    have carries := core.carries run carries
    have before := timeout.connected connected
    refine (beats before).fire connected carries timeout ?_
    rintro rearmed rfl
    exact keeps rearmed before carries
  | action => exact keeps.elim
  | callbackStop => exact keeps.elim

/-- A transition that takes the only heart timer leaves none. -/
theorem not_beats_of_stop (via : Option TimerField) (alone : ¬ c.BeatsBeside slot) :
    ¬ (c.stop via slot).Beats := by
  rintro ⟨other, heart⟩
  obtain ⟨different, carries⟩ := Pool.release_eq_some_iff.mp heart
  exact alone ⟨other, different, carries⟩

theorem not_beats_set (none : ¬ c.Beats) (field : TimerField) (other : field ≠ .heart) :
    ¬ (c.set field.type field).Beats := by
  have absent : c.Absent .sendHeart := fun slot carries => none ⟨slot, carries⟩
  rintro ⟨slot, carries⟩
  exact absent.set field (fun same => other (type_injective same)) slot carries

end Ctl

/-! ## The heartbeat of the firmware -/

/-- A connected device has a heart timer. -/
def HeartbeatLive (s : Sys) : Prop :=
  s.con.u8MainState = .connectCloud ∨ s.con.u8MainState = .waitUnbind →
    ∃ slot, s.timers.struTimer slot = ⟨.used, .sendHeart⟩

instance : DecidablePred HeartbeatLive := fun _ => inferInstanceAs (Decidable (_ → _))

/-- A slot beside the given one is used for the heart timer. -/
def heartBeside (s : Sys) (slot : TimerIndex) : Prop :=
  ∃ other, other ≠ slot ∧ s.timers.struTimer other = ⟨.used, .sendHeart⟩

instance (s : Sys) (slot : TimerIndex) : Decidable (heartBeside s slot) :=
  inferInstanceAs (Decidable (∃ _, _))

/-- The slot a handle names is not the only heart timer's. -/
def sparesHeart (s : Sys) (handle : Option TimerIndex) : Prop :=
  ∀ slot, handle = some slot → heartBeside s slot

instance (s : Sys) (handle : Option TimerIndex) : Decidable (sparesHeart s handle) :=
  inferInstanceAs (Decidable (∀ _, _))

/-- An unbinding that starts and a reply of the module spare the heart timer of a connected device,
and when that elapses there is an idle slot or another heart timer. -/
def KeepsHeartbeat (s : Sys) : Action → Prop
  | .cloudfuncRun _ => unbindAsked s → sparesHeart s s.con.u8SendUnbindTimer
  | .moudleEvent _ pu8Msg _ =>
    s.con.u8MainState = .connectCloud ∨ s.con.u8MainState = .waitUnbind → isReply pu8Msg s →
      sparesHeart s s.con.u8SendMoudleTimer
  | .recvDataFromMoudle _ pu8Data u16DataLen =>
    relays pu8Data u16DataLen s → isReply pu8Data s → sparesHeart s s.con.u8SendMoudleTimer
  | .timerCallback _ slot =>
    s.con.u8MainState = .connectCloud ∨ s.con.u8MainState = .waitUnbind →
      s.timers.struTimer slot = ⟨.used, .sendHeart⟩ → armsAgain slot s → s.callback = none →
        (∃ idle, (s.timers.struTimer idle).u8Status = .idle) ∨ heartBeside s slot
  | _ => True

instance (s : Sys) : (a : Action) → Decidable (KeepsHeartbeat s a)
  | .cloudfuncRun _ => inferInstanceAs (Decidable (_ → _))
  | .moudleEvent _ _ _ | .recvDataFromMoudle _ _ _ => inferInstanceAs (Decidable (_ → _ → _))
  | .timerCallback _ _ => inferInstanceAs (Decidable (_ → _ → _ → _ → _))
  | .cloudfuncRest _ | .recvDataFromCloud _ _ | .cloudRecvfunc _ _ | .timerAction _ _ | .timerStop
  | .disConnectCloud | .reconnectCloud _ | .sleep | .hfSleep | .hfWakeUp => isTrue trivial

section Firmware

variable {fw : Firmware} {s t : Sys} {a : Action}

theorem ctl_beats : s.ctl.Beats ↔ ∃ slot, s.timers.struTimer slot = ⟨.used, .sendHeart⟩ :=
  exists_congr fun _ => TimerBank.slots_eq_some_iff

theorem ctl_beatsBeside {slot : TimerIndex} : s.ctl.BeatsBeside slot ↔ heartBeside s slot :=
  exists_congr fun _ => and_congr_right fun _ => TimerBank.slots_eq_some_iff

theorem ctl_heartbeatLive : (s.ctl.Connected → s.ctl.Beats) ↔ HeartbeatLive s :=
  imp_congr_right fun _ => ctl_beats

theorem exists_idle_iff : (∃ idle, s.ctl.slots idle = none) ↔
    ∃ idle, (s.timers.struTimer idle).u8Status = .idle := by
  refine exists_congr fun idle => ?_
  change s.timers.slots idle = none ↔ _
  rw [TimerBank.slots]
  cases (s.timers.struTimer idle).u8Status <;> simp

/-- What explains a step that keeps the heartbeat keeps it. -/
theorem KeepsHeartbeat.label (atomic : a.Atomic) (keeps : KeepsHeartbeat s a) (free : s.callback = none)
    (label : Ctl.Label) (cause : label.Cause s a) (source : label.Source s a) :
    s.ctl.KeepsHeart label := by
  cases label with
  | unbindStart =>
    obtain ⟨⟨env, rfl⟩, asked⟩ := cause
    intro slot named
    exact ctl_beatsBeside.mpr (keeps asked slot named)
  | reply =>
    obtain ⟨env, pu8Msg, u16DataLen, reply, rfl | ⟨rfl, relays⟩⟩ := source
    · intro connected slot named
      exact ctl_beatsBeside.mpr (keeps connected reply slot named)
    · intro _ slot named
      exact ctl_beatsBeside.mpr (keeps relays reply slot named)
  | fire slot again =>
    obtain ⟨⟨env, rfl⟩, rearms⟩ := cause
    intro rearmed connected carries
    rw [exists_idle_iff, ctl_beatsBeside]
    exact keeps connected (TimerBank.slots_eq_some_iff.mp carries) (rearms rearmed) free
  | action slot =>
    obtain ⟨env, rfl⟩ := cause
    exact atomic
  | callbackStop slot =>
    obtain rfl := cause
    exact atomic
  | _ => trivial

/-- A reply of the module stops the timer the command handle names. -/
theorem ctl_of_isReply {env : Env} {pu8Msg : View} {u16DataLen : ℕ} (reply : isReply pu8Msg s)
    (step : pctHandleMoudleEvent fw env pu8Msg u16DataLen s = some t) :
    ∃ slot, s.con.u8SendMoudleTimer = some slot ∧
      t.ctl = { s.ctl.stop (some .sendMoudle) slot with sendMoudle := none } := by
  rcases pctHandleMoudleEvent_cases fw env s step with ⟨other, _⟩ | ⟨slot, named, _, ctl, _⟩
  · exact absurd reply other
  · exact ⟨slot, named, ctl⟩

/-- A message of the module that is relayed is handled like an event of the module. -/
theorem zcRecvDataFromMoudle_of_relays {env : Env} {pu8Data : View} {u16DataLen : ℕ}
    (relays : relays pu8Data u16DataLen s) : zcRecvDataFromMoudle fw env pu8Data u16DataLen s =
      pctHandleMoudleEvent fw env pu8Data u16DataLen s := by
  obtain ⟨main, nonempty, valid, code⟩ := relays
  simp only [moudleCodes, List.mem_cons, List.not_mem_nil, or_false, not_or] at code
  obtain ⟨one, two, three, four, five, six, seven, eight, nine⟩ := code
  have checksum := mt payloadFails_iff.mp (not_not_intro valid)
  rw [zcRecvDataFromMoudle, if_neg nonempty, if_neg checksum, if_neg one, if_neg two, if_neg three,
    if_neg four, if_neg five, if_neg six, if_neg seven, if_neg eight, if_neg nine, if_pos main]

/-- Where a handle names the only heart timer, stopping through it ends the heartbeat. -/
theorem not_spared {handle : Option TimerIndex} (taken : ¬ sparesHeart s handle) :
    ∃ slot, handle = some slot ∧ ¬ s.ctl.BeatsBeside slot := by
  simp only [sparesHeart, not_forall] at taken
  obtain ⟨slot, named, alone⟩ := taken
  exact ⟨slot, named, fun beside => alone (ctl_beatsBeside.mp beside)⟩

/-- The only heart timer elapses while every slot is used. -/
theorem not_beats_of_full {env : Env} {slot : TimerIndex} (free : s.callback = none)
    (carries : s.timers.struTimer slot = ⟨.used, .sendHeart⟩) (elapses : armsAgain slot s)
    (full : ¬ ∃ idle, s.ctl.slots idle = none) (alone : ¬ s.ctl.BeatsBeside slot)
    (step : hfTimerCallback fw env slot s = some t) :
    t.ctl.main = s.ctl.main ∧ ¬ t.ctl.Beats := by
  rcases hfTimerCallback_cases fw env s free step with ⟨still, _⟩ | ⟨_, _, acted, action, rfl⟩
  · exact absurd ⟨elapses.1, elapses.2.1⟩ still
  obtain ⟨again, timeout, _⟩ := timeout_timerTimeoutAction fw env _ action
  have type : ((s.timers.elapse slot).struTimer slot).u8Type = .sendHeart :=
    congrArg ZcTimer.u8Type carries
  rw [type, ctl_elapse] at timeout
  have used : (s.ctl.elapse slot).slots.firstIdle = none :=
    Pool.firstIdle_eq_none_iff.mpr fun idle none => full ⟨idle, none⟩
  have ctl : acted.ctl = s.ctl.elapse slot := by
    generalize acted.ctl = d at timeout
    cases timeout
    exact Ctl.set_of_full used
  have still : acted.callback = none := by
    have kept : acted.ctl.callback = s.callback := by rw [ctl]; rfl
    exact kept.trans free
  rw [ctl_timerStopTimer_free still, ctl]
  constructor
  · rfl
  · exact Ctl.not_beats_of_stop none alone

/-- A step that takes the only heart timer leaves a connected device without a heartbeat. -/
theorem not_heartbeatLive (taken : ¬ KeepsHeartbeat s a)
    (step : (firmware fw).step? s a = some t) : ¬ HeartbeatLive t := by
  rw [← ctl_heartbeatLive]
  intro live
  have replied {env : Env} {pu8Msg : View} {u16DataLen : ℕ}
      (connected : s.ctl.Connected) (reply : isReply pu8Msg s)
      (spares : ¬ sparesHeart s s.con.u8SendMoudleTimer)
      (step : pctHandleMoudleEvent fw env pu8Msg u16DataLen s = some t) : False := by
    obtain ⟨slot, named, ctl⟩ := ctl_of_isReply reply step
    obtain ⟨other, same, alone⟩ := not_spared spares
    obtain rfl := Option.some.inj (named.symm.trans same)
    rw [ctl] at live
    exact Ctl.not_beats_of_stop (some .sendMoudle) alone (live connected)
  cases a with
  | cloudfuncRun env =>
    simp only [KeepsHeartbeat, Classical.not_imp] at taken
    obtain ⟨asked, spares⟩ := taken
    obtain ⟨slot, named, alone⟩ := not_spared spares
    have named : s.ctl.sendUnbind = some slot := named
    cases step
    have ctl := ctl_of_unbindAsked fw env s asked
    rw [named] at ctl
    rw [ctl] at live
    have alone : ¬ { s.ctl with main := .waitUnbind }.BeatsBeside slot := alone
    exact Ctl.not_beats_set (Ctl.not_beats_of_stop (some .sendUnbind) alone) .sendUnbind nofun
      (live (.inr (Ctl.set_main.trans (Ctl.stopHandle_main _))))
  | moudleEvent env pu8Msg u16DataLen =>
    simp only [KeepsHeartbeat, Classical.not_imp] at taken
    obtain ⟨connected, reply, spares⟩ := taken
    exact replied connected reply spares step
  | recvDataFromMoudle env pu8Data u16DataLen =>
    simp only [KeepsHeartbeat, Classical.not_imp] at taken
    obtain ⟨relays, reply, spares⟩ := taken
    have step : zcRecvDataFromMoudle fw env pu8Data u16DataLen s = some t := step
    rw [zcRecvDataFromMoudle_of_relays relays] at step
    exact replied (.inl relays.1) reply spares step
  | timerCallback env slot =>
    simp only [KeepsHeartbeat, Classical.not_imp, not_or] at taken
    obtain ⟨connected, carries, elapses, free, full, alone⟩ := taken
    obtain ⟨main, none⟩ := not_beats_of_full free carries elapses
      (fun room => full (exists_idle_iff.mp room)) (fun beside => alone (ctl_beatsBeside.mp beside))
      step
    have connected : t.ctl.Connected := by
      rw [Ctl.Connected, main]
      exact connected
    exact none (live connected)
  | _ => exact taken trivial

end Firmware

/-- In a run with callbacks in one piece a connected device always has a heart timer exactly when no
step takes the only one. -/
theorem heartbeatLive_iff (fw : Firmware) (flash : Option ZcConfigDb)
    (registerInfo : ZcRegisterInfo) (tape : List Action) (target : Sys)
    (atomic : ∀ a ∈ tape, a.Atomic)
    (replayed : (firmware fw).replay? (hfInit flash registerInfo) tape = some target) :
    (firmware fw).Throughout HeartbeatLive (hfInit flash registerInfo) tape ↔
      (firmware fw).EachStep KeepsHeartbeat (hfInit flash registerInfo) tape := by
  have start : (hfInit flash registerInfo).ctl.Connected → (hfInit flash registerInfo).ctl.Beats := by
    rintro (main | main) <;> cases main
  refine PartialMachine.throughout_iff_eachStep
    (I := fun s => s.ctl.Core ∧ (s.ctl.Connected → s.ctl.Beats) ∧ s.callback = none)
    (fun s holds => ctl_heartbeatLive.mp holds.2.1) ?_ ?_
    ⟨core_hfInit flash registerInfo, start, rfl⟩ atomic replayed
  · rintro s a t ⟨core, beats, free⟩ atomic keeps step
    obtain ⟨label, moved, ⟨cause, _⟩, source⟩ := explained_source fw s a t atomic.scheduled step
    refine ⟨core.step moved, ?_, moved.callback_none free ?_⟩
    · exact Ctl.beats_step core beats (keeps.label atomic free label cause source) moved
    · rintro slot rfl
      obtain ⟨env, rfl⟩ := cause
      exact atomic
  · intro s a t _ _ taken step
    exact not_heartbeatLive taken step

/-! ## The first unbinding stops slot 0 -/

/-- A configuration whose device is to be unbound. -/
def unbinding : ZcConfigDb := zcConfigUnBind zcMagicFlag (zcConfigInitPara .zero)

/-- The cloud closes the first connection during the handshake; in the second one slot 0 is the heart
timer's, and the unbinding that starts stops slot 0. -/
def lostHeartbeat : List Action :=
  [.hfWakeUp, .cloudfuncRun .calm, .cloudfuncRun .calm, .cloudRecvfunc .calm none,
    .cloudfuncRest .calm, .timerCallback .calm 0, .timerCallback .calm 0] ++
    connecting.drop 1 ++ [.cloudfuncRun .calm]

theorem heartbeatLive_fails : (∀ a ∈ lostHeartbeat, a.Atomic) ∧
    ¬ (firmware .plain).Throughout HeartbeatLive (hfInit (some unbinding) .zero) lostHeartbeat :=
  ⟨by simp [lostHeartbeat, connecting, Action.Atomic, Action.Scheduled], by decide +kernel⟩

/-- Some step of the run takes the only heart timer. -/
theorem lostHeartbeat_taken : ¬ (firmware .plain).EachStep KeepsHeartbeat
    (hfInit (some unbinding) .zero) lostHeartbeat := by
  have defined : ((firmware .plain).replay? (hfInit (some unbinding) .zero) lostHeartbeat).isSome := by
    decide +kernel
  obtain ⟨target, replayed⟩ := Option.isSome_iff_exists.mp defined
  rw [← heartbeatLive_iff .plain (some unbinding) .zero lostHeartbeat target
    (by simp [lostHeartbeat, connecting, Action.Atomic, Action.Scheduled]) replayed]
  decide +kernel

end ShuangFa
