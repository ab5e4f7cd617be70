import Mathlib.Data.List.Basic

/-! # Calls that may stop half way

A call has effects on the world around it, one after the other, and stops where it does something
that is not defined. The effects it had until then stay. A loop goes through a list as long as no
call of its body stops.
-/

namespace Machine

/-- The effects of a call, and its result if it does not stop. -/
structure Attempt (ε α : Type) where
  effects : List ε
  result : Option α

namespace Attempt

variable {ε α β : Type} {ι : Type*}

/-- An effect. -/
def emit (effect : ε) : Attempt ε Unit := ⟨[effect], some ()⟩

/-- A value that has to be there. -/
def check (value : Option α) : Attempt ε α := ⟨[], value⟩

instance instMonad : Monad (Attempt ε) where
  pure value := ⟨[], some value⟩
  bind call next := ⟨call.effects ++ (call.result.elim [] fun value => (next value).effects),
    call.result.bind fun value => (next value).result⟩

/-- The call comes to its end. -/
def Completes (call : Attempt ε α) : Prop := ∃ value, call.result = some value

/-- The loop over a list. -/
def forEach (body : ι → Attempt ε Unit) : List ι → Attempt ε Unit
  | [] => pure ()
  | item :: items => do
    body item
    forEach body items

section Binds

variable {call : Attempt ε α} {next : α → Attempt ε β} {value : α}

theorem effects_bind (done : call.result = some value) :
    (call >>= next).effects = call.effects ++ (next value).effects := by
  show call.effects ++ _ = _
  rw [done, Option.elim_some]

theorem effects_bind_stop (stopped : call.result = none) :
    (call >>= next).effects = call.effects := by
  show call.effects ++ _ = _
  rw [stopped, Option.elim_none, List.append_nil]

theorem result_bind (done : call.result = some value) :
    (call >>= next).result = (next value).result := by
  show call.result.bind _ = _
  rw [done, Option.bind_some]

@[simp] theorem result_emit_bind (effect : ε) (next : Unit → Attempt ε β) :
    (emit effect >>= next).result = (next ()).result := rfl

@[simp] theorem effects_emit_bind (effect : ε) (next : Unit → Attempt ε β) :
    (emit effect >>= next).effects = effect :: (next ()).effects := rfl

@[simp] theorem check_bind (value : α) (next : α → Attempt ε β) :
    (check (some value) >>= next : Attempt ε β) = next value := rfl

/-- An effect of a sequence is one of its first call, or one of what follows. -/
theorem mem_effects_bind {effect : ε} : effect ∈ (call >>= next).effects ↔
    effect ∈ call.effects ∨ ∃ value, call.result = some value ∧ effect ∈ (next value).effects := by
  cases result : call.result with
  | none =>
    rw [effects_bind_stop result]
    constructor
    · exact .inl
    · rintro (first | ⟨value, found, _⟩)
      · exact first
      · cases found
  | some value =>
    rw [effects_bind result, List.mem_append]
    constructor
    · rintro (first | rest)
      · exact .inl first
      · exact .inr ⟨value, rfl, rest⟩
    · rintro (first | ⟨other, found, rest⟩)
      · exact .inl first
      · cases found
        exact .inr rest

theorem mem_effects_check_bind {effect : ε} {value : Option α} :
    effect ∈ (check value >>= next).effects ↔
      ∃ found, value = some found ∧ effect ∈ (next found).effects := by
  rw [mem_effects_bind]
  exact or_iff_right List.not_mem_nil

theorem mem_effects_emit_bind {first effect : ε} {next : Unit → Attempt ε β} :
    effect ∈ (emit first >>= next).effects ↔ effect = first ∨ effect ∈ (next ()).effects :=
  List.mem_cons

theorem completes_bind :
    (call >>= next).Completes ↔ ∃ value, call.result = some value ∧ (next value).Completes := by
  constructor
  · rintro ⟨last, done⟩
    obtain ⟨value, first, second⟩ := Option.bind_eq_some_iff.mp done
    exact ⟨value, first, last, second⟩
  · rintro ⟨value, first, last, second⟩
    exact ⟨last, Option.bind_eq_some_iff.mpr ⟨value, first, second⟩⟩

theorem completes_pure (value : α) : (pure value : Attempt ε α).Completes := ⟨value, rfl⟩

theorem completes_emit (effect : ε) : (emit effect).Completes := ⟨(), rfl⟩

theorem completes_check_bind {value : Option α} :
    (check value >>= next : Attempt ε β).Completes ↔
      ∃ found, value = some found ∧ (next found).Completes := completes_bind

theorem completes_emit_bind {effect : ε} {next : Unit → Attempt ε β} :
    (emit effect >>= next).Completes ↔ (next ()).Completes := Iff.rfl

end Binds

section Loops

variable {body : ι → Attempt ε Unit} {item : ι} {before after items : List ι}

/-- A loop comes to its end if every call of its body does. -/
theorem completes_forEach :
    (forEach body items).Completes ↔ ∀ item ∈ items, (body item).Completes := by
  induction items with
  | nil => exact ⟨fun _ _ absent => absurd absent List.not_mem_nil, fun _ => completes_pure ()⟩
  | cons item items ih =>
    rw [forEach, completes_bind, List.forall_mem_cons, ← ih]
    constructor
    · rintro ⟨_, first, rest⟩
      exact ⟨⟨_, first⟩, rest⟩
    · rintro ⟨⟨value, first⟩, rest⟩
      exact ⟨value, first, rest⟩

/-- A loop over two lists has the effects of the first, and those of the second if it gets there. -/
theorem effects_forEach_append (done : (forEach body before).Completes) :
    (forEach body (before ++ after)).effects =
      (forEach body before).effects ++ (forEach body after).effects := by
  induction before with
  | nil => rfl
  | cons item items ih =>
    obtain ⟨first, rest⟩ := List.forall_mem_cons.mp (completes_forEach.mp done)
    obtain ⟨value, first⟩ := first
    rw [List.cons_append, forEach, forEach, effects_bind first, effects_bind first,
      ih (completes_forEach.mpr rest), List.append_assoc]

/-- The effects of one round stand between those of the rounds before and after it. -/
theorem effects_forEach_round (done : (forEach body before).Completes)
    (round : (body item).Completes) : (forEach body (before ++ item :: after)).effects =
      (forEach body before).effects ++ ((body item).effects ++ (forEach body after).effects) := by
  obtain ⟨value, round⟩ := round
  rw [effects_forEach_append done, forEach, effects_bind round]

end Loops

end Attempt

end Machine
