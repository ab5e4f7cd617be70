import ShuangFa.Control.Refinement
import ShuangFa.Control.Tracking

/-! # No two timers of one type

A type that its handle keeps track of is used at most once. This holds of every type in the runs
that handle no command beside a command timer and no message beside a heart timer while an
unbinding is awaited.
-/

namespace ShuangFa

open SlotPool Machine

/-- No two slots are used for one type. -/
def NoDuplicates (s : Sys) : Prop :=
  ∀ first second, (s.timers.struTimer first).u8Status = .used →
    s.timers.struTimer second = s.timers.struTimer first → first = second

instance : DecidablePred NoDuplicates := fun _ => inferInstanceAs (Decidable (∀ _ _, _ → _ → _))

/-- A command is handled only without a command timer, and a message while unbinding only without a
heart timer. -/
def ArmsOnce (s : Sys) : Action → Prop
  | .cloudfuncRun env =>
    (handlesCommand env s → ∀ slot, s.timers.struTimer slot ≠ ⟨.used, .sendMoudle⟩) ∧
      (handlesWhileUnbinding env s → ∀ slot, s.timers.struTimer slot ≠ ⟨.used, .sendHeart⟩)
  | _ => True

instance (s : Sys) : (a : Action) → Decidable (ArmsOnce s a)
  | .cloudfuncRun _ => inferInstanceAs (Decidable (_ ∧ _))
  | .cloudfuncRest _ | .recvDataFromCloud _ _ | .cloudRecvfunc _ _ | .timerCallback _ _
  | .timerAction _ _ | .timerStop | .moudleEvent _ _ _ | .recvDataFromMoudle _ _ _
  | .disConnectCloud | .reconnectCloud _ | .sleep | .hfSleep | .hfWakeUp => isTrue trivial

theorem noDuplicates_of_tracked {s : Sys} (tracked : ∀ field, s.ctl.Tracked field) :
    NoDuplicates s := by
  have single (field : TimerField) : s.timers.slots.Single field.type :=
    Pool.Named.single (tracked field)
  have every (type : TimerType) : ∃ field : TimerField, field.type = type := by
    cases type
    exacts [⟨.reconnect, rfl⟩, ⟨.access, rfl⟩, ⟨.sendMoudle, rfl⟩, ⟨.heart, rfl⟩, ⟨.register, rfl⟩,
      ⟨.sendUnbind, rfl⟩]
  intro first second used same
  obtain ⟨field, type⟩ := every (s.timers.struTimer first).u8Type
  have carried : s.timers.struTimer first = ⟨.used, field.type⟩ := by rw [← used, type]
  exact single field first second (TimerBank.slots_eq_some_iff.mpr carried)
    (TimerBank.slots_eq_some_iff.mpr (same.trans carried))

/-- What explains a step that arms once arms once. -/
theorem ArmsOnce.label {s : Sys} {a : Action} (atomic : a.Atomic) (once : ArmsOnce s a)
    (label : Ctl.Label) (cause : label.Cause s a) (field : TimerField) :
    s.ctl.ArmsOnce field label := by
  have absent {type : TimerType} (unused : ∀ slot, s.timers.struTimer slot ≠ ⟨.used, type⟩) :
      s.ctl.Absent type := fun slot carries => unused slot (TimerBank.slots_eq_some_iff.mp carries)
  cases label with
  | command =>
    obtain ⟨env, rfl, handles⟩ := cause
    exact fun _ => absent (once.1 handles)
  | unbindMessage =>
    obtain ⟨env, rfl, handles⟩ := cause
    exact fun _ => absent (once.2 handles)
  | action slot =>
    obtain ⟨env, rfl⟩ := cause
    exact atomic
  | callbackStop slot =>
    obtain rfl := cause
    exact atomic
  | _ => trivial

/-- In a run in which no command is handled beside a command timer and no message beside a heart
timer while unbinding, no two slots are ever used with one type. -/
theorem noDuplicates_of_armsOnce (fw : Firmware) (flash : Option ZcConfigDb)
    (registerInfo : ZcRegisterInfo) (tape : List Action) (atomic : ∀ a ∈ tape, a.Atomic)
    (once : (firmware fw).EachStep ArmsOnce (hfInit flash registerInfo) tape) :
    (firmware fw).Throughout NoDuplicates (hfInit flash registerInfo) tape := by
  have start : (hfInit flash registerInfo).ctl.Core ∧
      ∀ field, (hfInit flash registerInfo).ctl.Tracked field :=
    ⟨core_hfInit flash registerInfo, fun _ => .of_empty rfl⟩
  have steps := once.and (PartialMachine.EachStep.of_forall fun _ => atomic)
  refine (PartialMachine.invariant_throughout
    (I := fun s => s.ctl.Core ∧ ∀ field, s.ctl.Tracked field) ?_ start
    steps).mono fun s holds => noDuplicates_of_tracked holds.2
  rintro s a t ⟨core, tracked⟩ ⟨once, atomic⟩ step
  obtain ⟨label, moved, cause, _⟩ := explained fw s a t atomic.scheduled step
  exact ⟨core.step moved, fun field =>
    (tracked field).step core (once.label atomic label cause field) moved⟩

/-- One command arms one command timer. -/
theorem noDuplicates_commanding :
    (firmware .plain).Throughout NoDuplicates (hfInit none .zero) (connecting ++ commanding 1) :=
  noDuplicates_of_armsOnce .plain none .zero (connecting ++ commanding 1)
    (by simp [connecting, commanding, Action.Atomic, Action.Scheduled]) (by decide +kernel)

/-- A second command that arrives before the module has replied arms a second command timer. -/
theorem noDuplicates_fails :
    (∀ a ∈ connecting ++ commanding 1 ++ commanding 2, a.Atomic) ∧
      ¬ (firmware .plain).Throughout NoDuplicates (hfInit none .zero)
        (connecting ++ commanding 1 ++ commanding 2) :=
  ⟨by simp [connecting, commanding, Action.Atomic, Action.Scheduled], by decide +kernel⟩

end ShuangFa
