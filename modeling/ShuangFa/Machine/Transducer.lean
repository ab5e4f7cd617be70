import Mathlib.Data.List.Basic

/-! # Machines that answer

A machine takes one input at a time and answers it. Where related states answer alike and stay
related, whole runs answer alike. A bounded queue is such a machine: what it has taken comes out
once each, in the order it came in.
-/

namespace Machine

/-- Every input has an answer and a next state. -/
structure Transducer (σ ι ω : Type*) where
  step : σ → ι → ω × σ

namespace Transducer

variable {σ τ ι ω : Type*} {first : Transducer σ ι ω} {second : Transducer τ ι ω}

/-- The answers to a list of inputs, and the state behind them. -/
def run (machine : Transducer σ ι ω) (s : σ) : List ι → List ω × σ
  | [] => ([], s)
  | input :: rest =>
    let answered := machine.step s input
    let remaining := machine.run answered.2 rest
    (answered.1 :: remaining.1, remaining.2)

/-- Related states answer the inputs that may come alike, and stay related. -/
def Follows (first : Transducer σ ι ω) (second : Transducer τ ι ω) (related : σ → τ → Prop)
    (allowed : ι → Prop) : Prop :=
  ∀ s t input, related s t → allowed input →
    (first.step s input).1 = (second.step t input).1 ∧
      related (first.step s input).2 (second.step t input).2

/-- Then whole runs are answered alike. -/
theorem Follows.run {related : σ → τ → Prop} {allowed : ι → Prop}
    (follows : first.Follows second related allowed) {s : σ} {t : τ} (start : related s t)
    {inputs : List ι} (permitted : ∀ input ∈ inputs, allowed input) :
    (first.run s inputs).1 = (second.run t inputs).1 ∧
      related (first.run s inputs).2 (second.run t inputs).2 := by
  induction inputs generalizing s t with
  | nil => exact ⟨rfl, start⟩
  | cons input inputs ih =>
    obtain ⟨permit, later⟩ := List.forall_mem_cons.mp permitted
    obtain ⟨answer, next⟩ := follows s t input start permit
    obtain ⟨answers, last⟩ := ih next later
    exact ⟨congrArg₂ List.cons answer answers, last⟩

end Transducer

namespace Fifo

inductive Request (α : Type*) where
  | push (message : α)
  | pop
deriving DecidableEq

inductive Answer (α : Type*) where
  | taken
  | refused
  | given (message : α)
  | nothing
deriving DecidableEq

variable {α : Type*}

/-- The queue of at most `capacity` messages, the oldest one in front. -/
def queue (capacity : ℕ) : Transducer (List α) (Request α) (Answer α) where
  step
    | stored, .push message =>
      if stored.length < capacity then (.taken, stored ++ [message]) else (.refused, stored)
    | [], .pop => (.nothing, [])
    | message :: stored, .pop => (.given message, stored)

/-- The messages that were taken. -/
def taken : List (Request α) → List (Answer α) → List α
  | .push message :: requests, .taken :: answers => message :: taken requests answers
  | _ :: requests, _ :: answers => taken requests answers
  | _, _ => []

/-- The messages that came out. -/
def given (answers : List (Answer α)) : List α :=
  answers.filterMap fun
    | .given message => some message
    | _ => none

/-- What came out and what is still stored is what was stored and what was taken, in this order. -/
theorem given_append_stored (capacity : ℕ) (stored : List α) (requests : List (Request α)) :
    given ((queue capacity).run stored requests).1 ++ ((queue capacity).run stored requests).2 =
      stored ++ taken requests ((queue capacity).run stored requests).1 := by
  induction requests generalizing stored with
  | nil => simp [Transducer.run, given, taken]
  | cons request requests ih =>
    cases request with
    | push message =>
      by_cases room : stored.length < capacity
      · have ih := ih (stored ++ [message])
        simpa [Transducer.run, queue, room, given, taken] using ih
      · simpa [Transducer.run, queue, room, given, taken] using ih stored
    | pop =>
      cases stored with
      | nil => simpa [Transducer.run, queue, given, taken] using ih []
      | cons message stored => simpa [Transducer.run, queue, given, taken] using ih stored

end Fifo

end Machine
