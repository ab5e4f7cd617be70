import ShuangFa.Control.Refinement
import ShuangFa.Control.Tracking

/-! # A handle stops its own timer

The handles of the heart and the command timer name a slot of their type whenever they are set, and
so does the handle of the access timer while a handshake message is awaited. A stop through one of
them is a stop of its own timer. This fails where a handle outlives its timer: the unbind handle
starts out as slot 0, the register handle survives a new start, and a callback that arms its timer
again when every slot is used leaves its handle at the slot it frees.
-/

namespace ShuangFa

open SlotPool Machine

/-- A stop through a handle other than the reconnect timer's stopped a timer of its type. -/
def StopRecord.Own (record : StopRecord) : Prop :=
  ∀ field, record.via = some field → field ≠ .reconnect → record.held = ⟨.used, field.type⟩

instance : DecidablePred StopRecord.Own := fun record =>
  match via : record.via with
  | none => isTrue fun field named => by simp [via] at named
  | some field => decidable_of_iff (field ≠ .reconnect → record.held = ⟨.used, field.type⟩) (by
      constructor
      · intro own other named
        obtain rfl := Option.some.inj (via.symm.trans named)
        exact own
      · exact fun own => own field via)

/-- Every stop so far was one of the handle's own timer. -/
def StopsOwn (s : Sys) : Prop := ∀ record ∈ s.stops, record.Own

instance : DecidablePred StopsOwn := fun _ => inferInstanceAs (Decidable (∀ _ ∈ _, _))

/-- No unbinding is started, no registration is taken while the register handle is set, and a
callback that arms its timer again finds an idle slot for the heart and the command timer. -/
def HandlesFresh (s : Sys) : Action → Prop
  | .cloudfuncRun _ => ¬ unbindAsked s
  | .recvDataFromMoudle _ pu8Data u16DataLen =>
    registers pu8Data u16DataLen s → s.con.u8RegisterTimer = none
  | .timerCallback _ slot => armsAgain slot s →
    s.con.u8HeartTimer = some slot ∨ s.con.u8SendMoudleTimer = some slot →
      ∃ idle, (s.timers.struTimer idle).u8Status = .idle
  | _ => True

instance (s : Sys) : (a : Action) → Decidable (HandlesFresh s a)
  | .cloudfuncRun _ => inferInstanceAs (Decidable (¬ _))
  | .recvDataFromMoudle _ _ _ => inferInstanceAs (Decidable (_ → _))
  | .timerCallback _ _ => inferInstanceAs (Decidable (_ → _ → _))
  | .cloudfuncRest _ | .recvDataFromCloud _ _ | .cloudRecvfunc _ _ | .timerAction _ _ | .timerStop
  | .moudleEvent _ _ _ | .disConnectCloud | .reconnectCloud _ | .sleep | .hfSleep | .hfWakeUp =>
    isTrue trivial

namespace Ctl

/-- `StopRecord.Own` of a stop. -/
def Own (stop : Stop) : Prop :=
  ∀ field, stop.1 = some field → field ≠ .reconnect → stop.2 = some field.type

/-- `HandlesFresh` of the transitions; a callback is one transition. -/
def Fresh (c : Ctl) : Label → Prop
  | .unbindStart => False
  | .register => c.register = none
  | .fire slot again => again = true → c.heart = some slot ∨ c.sendMoudle = some slot →
      ∃ idle, c.slots idle = none
  | .action _ => False
  | .callbackStop _ => False
  | _ => True

variable {c d : Ctl} {slot : TimerIndex} {type : TimerType} {field : TimerField}

theorem Own.of_none (held : Option TimerType) : Own (none, held) := fun _ => nofun

/-- A callback that arms its own timer again moves the handle before it frees the slot. -/
theorem Firm.rearm (firm : c.Firm field) (armed : TimerField)
    (carries : c.slots slot = some armed.type)
    (room : c.handle field = some slot → ∃ idle, c.slots idle = none) :
    (((c.elapse slot).set armed.type armed).stop none slot).Firm field := by
  have elapsed : (c.elapse slot).Firm field := firm.congr (elapse_handle field) rfl
  refine (elapsed.set armed).stop none ?_
  by_cases other : field = armed
  · subst other
    cases found : (c.elapse slot).slots.firstIdle with
    | none =>
      rw [set_of_full found, elapse_handle]
      intro named
      obtain ⟨new, idle, _⟩ := Pool.exists_firstIdle (room named)
      rw [show (c.elapse slot).slots = c.slots from rfl, idle] at found
      cases found
    | some new =>
      rw [set_of_idle found, handle_setHandle_self]
      rintro ⟨⟩
      exact nomatch (Pool.firstIdle_idle found).symm.trans carries
  · rw [set_handle_of_ne other, elapse_handle]
    exact firm.ne carries fun same => other (type_injective same).symm

/-- A callback in one piece of a slot in use keeps a handle that it forgets or moves in time. -/
theorem Firm.fire {again : Bool} (firm : c.Firm field) (carries : c.slots slot = some type)
    (timeout : (c.elapse slot).Timeout type again d)
    (room : again = true → c.handle field = some slot → ∃ idle, c.slots idle = none)
    (forgets : again = false → type = field.type → d.handle field = none) :
    (d.stop none slot).Firm field := by
  have last (kept : type ≠ field.type → d.handle field = c.handle field) (same : d.slots = c.slots)
      (once : again = false) : (d.stop none slot).Firm field := by
    by_cases own : type = field.type
    · exact .of_none ((stop_handle field).trans (forgets once own))
    · have left : d.Firm field := firm.congr (kept own) same
      refine left.stop none ?_
      rw [kept own]
      exact firm.ne carries own
  cases timeout with
  | reconnect => exact last (fun own => by cases field <;> first | rfl | exact absurd rfl own) rfl rfl
  | reaccess => exact last (fun _ => by cases field <;> rfl) rfl rfl
  | givenUp => exact last (fun own => by cases field <;> first | rfl | exact absurd rfl own) rfl rfl
  | sendMoudle => exact firm.rearm .sendMoudle carries (room rfl)
  | sendHeart => exact firm.rearm .heart carries (room rfl)
  | register => exact firm.rearm .register carries (room rfl)
  | sendUbind => exact firm.rearm .sendUnbind carries (room rfl)

/-- The heart timer's new start leaves the other handles alone. -/
theorem Firm.heart (firm : c.Firm field) (other : field ≠ .heart) (named : c.Firm .heart) :
    ((c.stopHandle .heart c.heart).set .sendHeart .heart).Firm field := by
  refine Firm.set_other ?_ .heart other
  cases handle : c.heart with
  | none => exact firm
  | some slot =>
    exact firm.stop _ (firm.ne (named slot handle) fun same => other (type_injective same.symm))

/-- The heart and the command timer's handles are worth something, and no stop was of a foreign
timer. -/
structure Owned (c : Ctl) : Prop where
  heart : c.Firm .heart
  sendMoudle : c.Firm .sendMoudle
  own : ∀ stop ∈ c.stops, Own stop

namespace Owned

theorem congr (owned : c.Owned) (slots : d.slots = c.slots) (heart : d.heart = c.heart)
    (sendMoudle : d.sendMoudle = c.sendMoudle) (stops : d.stops = c.stops) : d.Owned :=
  ⟨owned.heart.congr heart slots, owned.sendMoudle.congr sendMoudle slots, stops ▸ owned.own⟩

/-- One more stop, of a timer the handle it goes through is for. -/
theorem own_stop (owned : c.Owned) {via : Option TimerField} (own : Own (via, c.slots slot)) :
    ∀ stop ∈ (c.stop via slot).stops, Own stop := by
  intro stop member
  rcases List.mem_append.mp member with before | now
  · exact owned.own stop before
  · exact List.mem_singleton.mp now ▸ own

/-- The access timer is stopped through its handle. -/
theorem stop_access (owned : c.Owned) (access : c.Firm .access) :
    (c.stop (some .access) c.access).Owned := by
  have carries : c.slots c.access = some .reaccess := access c.access rfl
  refine ⟨owned.heart.stop _ (owned.heart.ne carries nofun),
    owned.sendMoudle.stop _ (owned.sendMoudle.ne carries nofun), owned.own_stop ?_⟩
  rintro field ⟨⟩ _
  exact carries

theorem set (owned : c.Owned) (armed : TimerField) : (c.set armed.type armed).Owned :=
  ⟨owned.heart.set armed, owned.sendMoudle.set armed, by rw [set_stops]; exact owned.own⟩

/-- The heart timer starts again. -/
theorem restart_heart (owned : c.Owned) :
    ((c.stopHandle .heart c.heart).set .sendHeart .heart).Owned := by
  cases handle : c.heart with
  | none => exact owned.set .heart
  | some slot =>
    have carries : c.slots slot = some .sendHeart := owned.heart slot handle
    refine ⟨Firm.set_self ⟨slot, Pool.release_self⟩ .heart, ?_, ?_⟩
    · have kept := owned.sendMoudle.heart nofun owned.heart
      rwa [handle] at kept
    · rw [set_stops]
      refine owned.own_stop ?_
      rintro field ⟨⟩ _
      exact carries

/-- The loop over the used slots stops them through no handle. -/
theorem own_stopUsed (own : ∀ stop ∈ c.stops, Own stop) (slots : List TimerIndex) :
    ∀ stop ∈ (c.stopUsed slots).stops, Own stop := by
  induction slots generalizing c with
  | nil => exact own
  | cons slot rest ih =>
    rw [stopUsed, List.foldl_cons]
    refine ih ?_
    split_ifs
    · intro stop member
      rcases List.mem_append.mp member with before | now
      · exact own stop before
      · exact List.mem_singleton.mp now ▸ .of_none _
    · exact own

end Owned

/-- What holds in the runs in which every handle that is used is fresh. -/
structure Settled (c : Ctl) : Prop where
  owned : c.Owned
  access : c.main = .waitAccessRsp ∨ c.main = .waitMsg4 → c.Firm .access
  bound : c.main ≠ .waitUnbind

/-- A callback in one piece of a slot in use. -/
theorem Settled.fire {again : Bool} (settled : c.Settled) (carries : c.slots slot = some type)
    (room : again = true → c.heart = some slot ∨ c.sendMoudle = some slot →
      ∃ idle, c.slots idle = none)
    (timeout : (c.elapse slot).Timeout type again d) : (d.stop none slot).Settled := by
  obtain ⟨⟨heart, sendMoudle, own⟩, access, bound⟩ := settled
  refine ⟨⟨?_, ?_, ?_⟩, ?_, ?_⟩
  · refine heart.fire carries timeout (fun rearmed named => room rearmed (.inl named)) ?_
    rintro last rfl
    cases timeout
    cases last
  · refine sendMoudle.fire carries timeout (fun rearmed named => room rearmed (.inr named)) ?_
    rintro last rfl
    cases timeout
    · cases last
    · rfl
  · intro stop member
    rcases List.mem_append.mp member with before | now
    · have same : d.stops = c.stops := by cases timeout <;> first | rfl | exact set_stops
      exact own stop (same ▸ before)
    · exact List.mem_singleton.mp now ▸ .of_none _
  · intro awaited
    have still : c.main = .waitAccessRsp ∨ c.main = .waitMsg4 := by
      cases timeout <;> simp [Ctl.stop, Ctl.elapse, Ctl.disconnected] at awaited ⊢ <;> exact awaited
    refine (access still).fire carries timeout ?_ ?_
    · intro rearmed named
      obtain rfl := Option.some.inj (carries.symm.trans (access still slot named))
      cases timeout
      cases rearmed
    · rintro last rfl
      cases timeout
      simp [Ctl.stop, Ctl.disconnected] at awaited
  · cases timeout <;> simp [Ctl.stop, Ctl.elapse, Ctl.disconnected] <;> exact bound

/-- Outside of the handshake only the owned handles matter. -/
theorem Owned.late (owned : c.Owned) (main : MainState)
    (other : main ∉ [.waitAccessRsp, .waitMsg4, .waitUnbind]) (now : c.main = main) :
    c.Settled := by
  simp only [List.mem_cons, List.not_mem_nil, or_false, not_or] at other
  obtain ⟨rsp, msg4, unbind⟩ := other
  refine ⟨owned, ?_, now ▸ unbind⟩
  rintro (awaited | awaited)
  · exact absurd (now.symm.trans awaited) rsp
  · exact absurd (now.symm.trans awaited) msg4

/-- Every transition whose handles are fresh stops no foreign timer through them. -/
theorem Settled.step {label : Label} (settled : c.Settled) (core : c.Core)
    (reconnect : c.Tracked .reconnect) (register : c.Tracked .register) (fresh : c.Fresh label)
    (step : c.Step label d) : d.Settled := by
  have owned := settled.owned
  cases step with
  | stay => exact settled
  | connect randMsg main _ =>
    exact Owned.late (owned.congr rfl rfl rfl rfl) .waitAccess (by decide) rfl
  | access1Sent main =>
    have none := core.no_reconnect (by rw [main]; decide) (by rw [main]; decide)
    rw [none]
    have moved : { c.stopHandle .reconnect .none with
        reconnect := .none, main := .waitAccessRsp }.Owned := owned.congr rfl rfl rfl rfl
    have room := core.exists_idle main reconnect register
    refine ⟨moved.set .access, fun _ => ?_, by rw [set_main]; rintro ⟨⟩⟩
    exact Firm.set_self (c := { c.stopHandle .reconnect .none with
      reconnect := .none, main := .waitAccessRsp }) room .access
  | access1Failed main =>
    have none := core.no_reconnect (by rw [main]; decide) (by rw [main]; decide)
    rw [none]
    exact Owned.late (owned.congr rfl rfl rfl rfl) .disconnectCloud (by decide) rfl
  | access2 main outcome =>
    have stopped := owned.stop_access (settled.access (.inl main))
    cases outcome with
    | ignored => exact settled
    | corrupt => exact Owned.late (owned.congr rfl rfl rfl rfl) .disconnectCloud (by decide) rfl
    | refused => exact Owned.late (stopped.congr rfl rfl rfl rfl) .disconnectCloud (by decide) rfl
    | accepted key =>
      have moved : { c.stop (some .access) c.access with
          session := c.session.keyed key, keyRecv := true, main := .waitMsg4 }.Owned :=
        stopped.congr rfl rfl rfl rfl
      exact ⟨moved.set .access, fun _ => Firm.set_self ⟨c.access, Pool.release_self⟩ .access,
        by rw [set_main]; rintro ⟨⟩⟩
  | access4 main outcome =>
    have access := settled.access (.inr main)
    have stopped := owned.stop_access access
    cases outcome with
    | ignored =>
      refine ⟨owned.restart_heart, fun _ => access.heart (by decide) owned.heart, ?_⟩
      rw [set_main, stopHandle_main, main]
      decide
    | corrupt =>
      have moved : c.disconnected.Owned := owned.congr rfl rfl rfl rfl
      exact moved.restart_heart.late .disconnectCloud (by decide)
        (set_main.trans (stopHandle_main _))
    | refused =>
      have moved : (c.stop (some .access) c.access).disconnected.Owned :=
        stopped.congr rfl rfl rfl rfl
      exact moved.restart_heart.late .disconnectCloud (by decide)
        (set_main.trans (stopHandle_main _))
    | accepted =>
      have moved : { c.stop (some .access) c.access with main := .connectCloud }.Owned :=
        stopped.congr rfl rfl rfl rfl
      exact moved.restart_heart.late .connectCloud (by decide)
        (set_main.trans (stopHandle_main _))
  | unbindStart => exact fresh.elim
  | unbindMessage main _ => exact absurd main settled.bound
  | command main =>
    have armed : (c.set .sendMoudle .sendMoudle).Owned := owned.set .sendMoudle
    have heart : (c.set .sendMoudle .sendMoudle).heart = c.heart := set_heart _ (by decide)
    rw [← heart]
    refine armed.restart_heart.late .connectCloud (by decide) ?_
    rw [set_main, stopHandle_main, set_main, main]
  | networkReset _ | peerClosed _ => exact Owned.late (owned.congr rfl rfl rfl rfl) .disconnectCloud (by decide) rfl
  | reconnect _ _ =>
    exact Owned.late ⟨.of_none rfl, .of_none rfl, Owned.own_stopUsed owned.own _⟩
      .init (by decide) rfl
  | sleep =>
    exact Owned.late ⟨.of_none rfl, .of_none rfl,
      Owned.own_stopUsed (c := { c with keyRecv := false }) owned.own _⟩ .init (by decide) rfl
  | wakeUp main =>
    have armed : (c.set .register .register).Owned := owned.set .register
    exact Owned.late (armed.congr rfl rfl rfl rfl) .accessNet (by decide) rfl
  | register early =>
    have none : c.register = none := fresh
    rw [registered, none]
    exact Owned.late (owned.congr rfl rfl rfl rfl) .accessNet (by decide) rfl
  | @reply slot named =>
    have carries : c.slots slot = some .sendMoudle := owned.sendMoudle slot named
    have heart : (c.stop (some .sendMoudle) slot).Firm .heart :=
      owned.heart.stop _ (owned.heart.ne carries (by decide))
    refine ⟨⟨heart.congr rfl rfl, .of_none rfl, owned.own_stop ?_⟩, fun awaited => ?_,
      settled.bound⟩
    · rintro field ⟨⟩ _
      exact carries
    · have access := settled.access awaited
      exact (access.stop (some .sendMoudle) (access.ne carries (by decide))).congr rfl rfl
  | fire _ run carries timeout => exact settled.fire (core.carries run carries) fresh timeout
  | action => exact fresh.elim
  | callbackStop => exact fresh.elim

end Ctl

theorem stopsOwn_of_owned {s : Sys} (own : ∀ stop ∈ s.ctl.stops, Ctl.Own stop) : StopsOwn s := by
  intro record member field via other
  have held := own record.stop (List.mem_map_of_mem member) field via other
  simp only [StopRecord.stop] at held
  split_ifs at held with used
  rw [← Option.some.inj held, ← used]

/-- What explains a step with fresh handles has fresh handles. -/
theorem HandlesFresh.label {s : Sys} {a : Action} (atomic : a.Atomic) (fresh : HandlesFresh s a)
    (label : Ctl.Label) (cause : label.Cause s a) : s.ctl.Fresh label := by
  cases label with
  | unbindStart =>
    obtain ⟨⟨env, rfl⟩, asked⟩ := cause
    exact fresh asked
  | register =>
    obtain ⟨env, pu8Data, u16DataLen, rfl, registers⟩ := cause
    exact fresh registers
  | fire slot again =>
    obtain ⟨⟨env, rfl⟩, rearms⟩ := cause
    intro rearmed named
    obtain ⟨idle, status⟩ := fresh (rearms rearmed) named
    exact ⟨idle, by simp [Sys.ctl, TimerBank.slots, status]⟩
  | action slot =>
    obtain ⟨env, rfl⟩ := cause
    exact atomic
  | callbackStop slot =>
    obtain rfl := cause
    exact atomic
  | _ => trivial

/-- In a run in which every handle that is used is fresh, no stop through a handle is of a foreign
timer. -/
theorem stopsOwn_of_fresh (fw : Firmware) (flash : Option ZcConfigDb)
    (registerInfo : ZcRegisterInfo) (tape : List Action) (atomic : ∀ a ∈ tape, a.Atomic)
    (fresh : (firmware fw).EachStep HandlesFresh (hfInit flash registerInfo) tape) :
    (firmware fw).Throughout StopsOwn (hfInit flash registerInfo) tape := by
  have steps := fresh.and (PartialMachine.EachStep.of_forall fun _ => atomic)
  have start : (hfInit flash registerInfo).ctl.Settled :=
    Ctl.Owned.late ⟨.of_none rfl, .of_none rfl, fun _ => nofun⟩ .init (by decide) rfl
  refine (PartialMachine.invariant_throughout
    (I := fun s => s.ctl.Core ∧ s.ctl.Tracked .reconnect ∧ s.ctl.Tracked .register ∧
      s.ctl.Settled) ?_ ⟨core_hfInit flash registerInfo, .of_empty rfl, .of_empty rfl, start⟩
    steps).mono fun s holds => stopsOwn_of_owned holds.2.2.2.owned.own
  rintro s a t ⟨core, reconnect, register, settled⟩ ⟨fresh, atomic⟩ step
  obtain ⟨label, moved, cause, _⟩ := explained fw s a t atomic.scheduled step
  have now := fresh.label atomic label cause
  have once (field : TimerField) (moudle : field ≠ .sendMoudle) (heart : field ≠ .heart) :
      s.ctl.ArmsOnce field label := by
    cases label with
    | command => exact fun same => absurd same moudle
    | unbindMessage => exact fun same => absurd same heart
    | action _ | callbackStop _ => exact now
    | _ => trivial
  exact ⟨core.step moved, reconnect.step core (once _ nofun nofun) moved,
    register.step core (once _ nofun nofun) moved,
    settled.step core reconnect register now moved⟩

/-- A connection and a command use fresh handles only. -/
theorem stopsOwn_commanding :
    (firmware .plain).Throughout StopsOwn (hfInit none .zero) (connecting ++ commanding 1) :=
  stopsOwn_of_fresh .plain none .zero (connecting ++ commanding 1)
    (by simp [connecting, commanding, Action.Atomic, Action.Scheduled]) (by decide +kernel)

/-- The cloud closes the connection, and after the new start a register message of the module stops
the reconnect timer through the register handle of the start before. -/
def staleRegister : List Action :=
  [.hfWakeUp, .cloudfuncRun .calm, .cloudfuncRun .calm, .cloudRecvfunc .calm none,
    .cloudfuncRest .calm,
    .recvDataFromMoudle .calm (.ofList (messageBytes Code.regsiter 0 (List.replicate 140 0))) 148]

theorem stopsOwn_fails : (∀ a ∈ staleRegister, a.Atomic) ∧
    ¬ (firmware .plain).Throughout StopsOwn (hfInit none .zero) staleRegister :=
  ⟨by simp [staleRegister, Action.Atomic, Action.Scheduled], by decide +kernel⟩

end ShuangFa
