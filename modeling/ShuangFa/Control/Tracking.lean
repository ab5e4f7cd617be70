import ShuangFa.Control.Invariant

/-! # Slots that a handle keeps track of

Every slot used for the type of a handle is the one the handle names, so the type is used at most
once. Each site that arms a timer does so where the type is absent: it has stopped the timer its
handle names, or the main state excludes the type. Two sites have neither, a command that arrives
while another one is being sent and a message that is handled while an unbinding is awaited. For
the handles of other types every transition keeps track.
-/

namespace ShuangFa

open SlotPool

namespace Ctl

/-- Every slot used for the type of the handle is the one it names. -/
def Tracked (c : Ctl) (field : TimerField) : Prop := c.slots.Named field.type (c.handle field)

/-- No slot carries the type. -/
def Absent (c : Ctl) (type : TimerType) : Prop := ∀ slot, c.slots slot ≠ some type

/-- The two sites that arm a timer with no further check find its type absent; a callback is one
transition. -/
def ArmsOnce (c : Ctl) (field : TimerField) : Label → Prop
  | .command => field = .sendMoudle → c.Absent .sendMoudle
  | .unbindMessage => field = .heart → c.Absent .sendHeart
  | .action _ => False
  | .callbackStop _ => False
  | _ => True

variable {c d : Ctl} {slot : TimerIndex} {field : TimerField} {type : TimerType}

theorem Absent.stop (absent : c.Absent type) (via : Option TimerField) (slot : TimerIndex) :
    (c.stop via slot).Absent type := fun place used =>
  absent place (Pool.release_eq_some_iff.mp used).2

theorem Absent.stopHandle (absent : c.Absent type) (via : TimerField)
    (handle : Option TimerIndex) : (c.stopHandle via handle).Absent type := by
  cases handle with
  | none => exact absent
  | some slot => exact absent.stop (some via) slot

/-- In the early main states a type that is not allowed is absent. -/
theorem Core.absent (core : c.Core) (excluded : ¬ c.main.Allows type) : c.Absent type :=
  fun slot used => excluded (core.phased slot type used)

/-- Before the first handshake message some slot is idle. -/
theorem Core.exists_idle (core : c.Core) (early : c.main = .waitAccess)
    (reconnect : c.Tracked .reconnect) (register : c.Tracked .register) :
    ∃ idle, c.slots idle = none := by
  refine Pool.exists_idle {.reconnect, .register} ?_ ?_ (by decide)
  · refine core.phased.mono fun type allowed => ?_
    rw [early] at allowed
    rcases allowed with rfl | rfl
    · exact Finset.mem_insert_self ..
    · exact Finset.mem_insert_of_mem (Finset.mem_singleton_self _)
  · intro type member
    simp only [Finset.mem_insert, Finset.mem_singleton] at member
    rcases member with rfl | rfl
    · exact Pool.Named.single reconnect
    · exact Pool.Named.single register

namespace Tracked

/-- A handle may be forgotten or replaced when its type is absent. -/
theorem congr (tracked : c.Tracked field) (slots : d.slots = c.slots)
    (handle : d.handle field = c.handle field ∨ c.Absent field.type) : d.Tracked field := by
  rw [Tracked, slots]
  rcases handle with same | absent
  · rw [same]
    exact tracked
  · exact Pool.named_of_absent absent

theorem of_empty (empty : c.slots = Pool.empty) : c.Tracked field := by
  rw [Tracked, empty]
  exact Pool.named_empty

theorem stop (tracked : c.Tracked field) (via : Option TimerField) (slot : TimerIndex) :
    (c.stop via slot).Tracked field := by
  rw [Tracked, stop_handle]
  exact Pool.Named.release tracked slot

theorem stopHandle (tracked : c.Tracked field) (via : TimerField) (handle : Option TimerIndex) :
    (c.stopHandle via handle).Tracked field := by
  cases handle with
  | none => exact tracked
  | some slot => exact tracked.stop (some via) slot

/-- Stopping the timer a handle names leaves its type nowhere. -/
theorem stopped (tracked : c.Tracked field) (via : TimerField) :
    (c.stopHandle via (c.handle field)).Absent field.type := by
  rw [Tracked] at tracked
  cases handle : c.handle field with
  | none =>
    rw [handle] at tracked
    exact tracked.absent
  | some slot =>
    rw [handle] at tracked
    exact tracked.release_named

theorem released (tracked : c.Tracked field) (carries : c.slots slot = some field.type)
    (via : Option TimerField) : (c.stop via slot).Absent field.type := by
  have named := tracked
  rw [Tracked, tracked slot carries] at named
  exact named.release_named

/-- A timer of an absent type may be armed. -/
theorem set (tracked : c.Tracked field) (armed : TimerField)
    (absent : armed = field → c.Absent field.type) :
    (c.set armed.type armed).Tracked field := by
  rcases set_cases c armed.type armed with same | ⟨slot, idle, same⟩
  · rwa [same]
  · rw [Tracked, same, setHandle_slots, occupy_slots]
    by_cases this : armed = field
    · obtain rfl := this
      rw [handle_setHandle_self]
      exact Pool.Named.occupy_absent (absent rfl) slot
    · rw [handle_setHandle_of_ne (Ne.symm this), occupy_handle]
      exact Pool.Named.occupy_other tracked (fun equal => this (type_injective equal)) slot

/-- A callback arms its own type again before it frees its slot. -/
theorem rearm (tracked : c.Tracked field) (armed : TimerField)
    (carries : c.slots slot = some armed.type) :
    (((c.elapse slot).set armed.type armed).stop none slot).Tracked field := by
  rcases set_cases (c.elapse slot) armed.type armed with same | ⟨new, idle, same⟩
  · rw [same]
    exact tracked.stop none slot
  · rw [Tracked, same, stop_handle, stop_slots, setHandle_slots, occupy_slots]
    by_cases this : armed = field
    · obtain rfl := this
      have named := tracked
      rw [Tracked, tracked slot carries] at named
      rw [handle_setHandle_self]
      exact named.move
    · rw [handle_setHandle_of_ne (Ne.symm this), occupy_handle, elapse_handle]
      have kept := Pool.Named.occupy_other tracked (fun equal => this (type_injective equal)) new
      exact kept.release slot

theorem disconnected (tracked : c.Tracked field) : c.disconnected.Tracked field :=
  tracked.congr rfl (.inl (by cases field <;> rfl))

/-- The heart timer starts again. -/
theorem heart (tracked : c.Tracked field) :
    ((c.stopHandle .heart c.heart).set .sendHeart .heart).Tracked field := by
  refine (tracked.stopHandle .heart c.heart).set .heart ?_
  rintro rfl
  exact tracked.stopped .heart

/-- A callback in one piece of a slot in use. -/
theorem fire {again : Bool} (tracked : c.Tracked field) (carries : c.slots slot = some type)
    (timeout : (c.elapse slot).Timeout type again d) : (d.stop none slot).Tracked field := by
  have stopped := tracked.stop none slot
  cases timeout with
  | reconnect =>
    refine stopped.congr rfl ?_
    cases field with
    | reconnect => exact .inr (tracked.released carries none)
    | _ => exact .inl rfl
  | reaccess => exact stopped.congr rfl (.inl (by cases field <;> rfl))
  | sendMoudle => exact tracked.rearm .sendMoudle carries
  | givenUp =>
    refine stopped.congr rfl ?_
    cases field with
    | sendMoudle => exact .inr (tracked.released carries none)
    | _ => exact .inl rfl
  | sendHeart => exact tracked.rearm .heart carries
  | register => exact tracked.rearm .register carries
  | sendUbind => exact tracked.rearm .sendUnbind carries

/-- Every transition that arms once keeps track of the slot. -/
theorem step {label : Label} (tracked : c.Tracked field) (core : c.Core)
    (once : c.ArmsOnce field label) (step : c.Step label d) : d.Tracked field := by
  cases step with
  | stay => exact tracked
  | connect _ _ _ => exact tracked.congr rfl (.inl (by cases field <;> rfl))
  | access1Sent main =>
    have none := core.no_reconnect (by rw [main]; nofun) (by rw [main]; nofun)
    have absent : c.Absent .reaccess := core.absent (by
      rw [main]
      rintro (allowed | allowed) <;> cases allowed)
    rw [none]
    have moved : { c.stopHandle .reconnect .none with
        reconnect := .none, main := .waitAccessRsp }.Tracked field :=
      tracked.congr rfl (.inl (by cases field <;> first | rfl | exact none.symm))
    refine moved.set .access ?_
    rintro rfl
    exact absent
  | access1Failed main =>
    have none := core.no_reconnect (by rw [main]; nofun) (by rw [main]; nofun)
    rw [none]
    exact tracked.congr rfl (.inl (by cases field <;> first | rfl | exact none.symm))
  | access2 main outcome =>
    have stopped := tracked.stop (some .access) c.access
    cases outcome with
    | ignored => exact tracked
    | corrupt => exact tracked.disconnected
    | refused => exact stopped.disconnected
    | accepted key =>
      have moved : { c.stop (some .access) c.access with
          session := c.session.keyed key, keyRecv := true, main := .waitMsg4 }.Tracked field :=
        stopped.congr rfl (.inl (by cases field <;> rfl))
      refine moved.set .access ?_
      rintro rfl
      exact tracked.stopped .access
  | access4 main outcome =>
    have stopped := tracked.stop (some .access) c.access
    cases outcome with
    | ignored => exact tracked.heart
    | corrupt => exact tracked.disconnected.heart
    | refused => exact stopped.disconnected.heart
    | accepted =>
      have moved : { c.stop (some .access) c.access with main := .connectCloud }.Tracked field :=
        stopped.congr rfl (.inl (by cases field <;> rfl))
      exact moved.heart
  | unbindStart main =>
    have moved : { c with main := .waitUnbind }.Tracked field :=
      tracked.congr rfl (.inl (by cases field <;> rfl))
    refine (moved.stopHandle .sendUnbind c.sendUnbind).set .sendUnbind ?_
    rintro rfl
    exact moved.stopped .sendUnbind
  | unbindMessage main outcome =>
    cases outcome with
    | other => exact tracked.set .heart fun same => same ▸ once same.symm
    | answered =>
      have stopped := tracked.stopHandle .sendUnbind c.sendUnbind
      have moved : { c.stopHandle .sendUnbind c.sendUnbind with
          main := .connectCloud, sendUnbind := none }.Tracked field := by
        refine stopped.congr rfl ?_
        cases field with
        | sendUnbind => exact .inr (tracked.stopped .sendUnbind)
        | _ => exact .inl rfl
      refine moved.set .heart ?_
      rintro rfl
      exact (once rfl).stopHandle .sendUnbind c.sendUnbind
  | command main =>
    have armed : (c.set .sendMoudle .sendMoudle).Tracked field :=
      tracked.set .sendMoudle fun same => same ▸ once same.symm
    have heart : (c.set .sendMoudle .sendMoudle).heart = c.heart := set_heart _ nofun
    rw [← heart]
    exact armed.heart
  | networkReset _ | peerClosed _ => exact tracked.disconnected
  | reconnect _ _ =>
    have cleared : { c.clear with
        reconnect := none, sendMoudle := none, heart := none, main := .init }.Tracked field :=
      .of_empty rfl
    exact (cleared.set .reconnect fun _ _ => nofun).congr rfl (.inl (by cases field <;> rfl))
  | sleep => exact .of_empty rfl
  | wakeUp main =>
    have absent : c.Absent .register := core.absent (by rw [main]; nofun)
    rw [wokenUp, ← set_advance]
    have moved : { c with main := .accessNet }.Tracked field :=
      tracked.congr rfl (.inl (by cases field <;> rfl))
    refine moved.set .register ?_
    rintro rfl
    exact absent
  | register early =>
    have stopped := tracked.stopHandle .register c.register
    refine stopped.congr registered_slots ?_
    by_cases this : field = .register
    · subst this
      exact .inr (tracked.stopped .register)
    · exact .inl ((registered_handle this).trans (stopHandle_handle _ field).symm)
  | @reply slot named =>
    refine (tracked.stop (some .sendMoudle) slot).congr rfl ?_
    cases field with
    | sendMoudle =>
      have gone := tracked.stopped .sendMoudle
      rw [show c.handle .sendMoudle = some slot from named] at gone
      exact .inr gone
    | _ => exact .inl rfl
  | fire _ run carries timeout => exact tracked.fire (core.carries run carries) timeout
  | action => exact once.elim
  | callbackStop => exact once.elim

end Tracked

end Ctl

end ShuangFa
