import ShuangFa.Machine.Replay

/-! # Explaining the steps of a machine by those of an abstract one

A concrete machine follows an abstract transition system through an abstraction of its states, each
step under a label that explains it. Then invariants travel: what every abstract transition
preserves, of the state and of what has been seen so far, holds of the abstraction of every
concrete state.
-/

namespace Machine

namespace PartialMachine

variable {σ ε α κ : Type*} {m : PartialMachine σ ε}

/-- Every concrete step is an abstract step under some label that explains it. -/
def Explained (m : PartialMachine σ ε) (allowed : σ → ε → Prop) (abstraction : σ → α)
    (transition : α → κ → α → Prop) (explains : σ → ε → κ → Prop) : Prop :=
  ∀ s e t, allowed s e → m.step? s e = some t →
    ∃ label, transition (abstraction s) label (abstraction t) ∧ explains s e label

/-- What the abstract transitions preserve of the state and of what an observer has seen, when
explanations fix what a step shows, holds after every replay of allowed steps. -/
theorem Explained.history_invariant {ω : Type*} {allowed : σ → ε → Prop} {abstraction : σ → α}
    {transition : α → κ → α → Prop} {explains : σ → ε → κ → Prop} {observe : σ → ε → List ω}
    {shows : α → κ → List ω} (explained : m.Explained allowed abstraction transition explains)
    (seen : ∀ s e k, explains s e k → observe s e = shows (abstraction s) k)
    {I : List ω → α → Prop}
    (preserved : ∀ before x k y, I before x → transition x k y → I (before ++ shows x k) y)
    {source target : σ} {tape : List ε} (start : I [] (abstraction source))
    (steps : m.EachStep allowed source tape) (replayed : m.replay? source tape = some target) :
    I (m.history observe source tape) (abstraction target) := by
  refine PartialMachine.history_invariant (I := fun before s => I before (abstraction s)) ?_ start
    steps replayed
  intro before s e t holds permitted step
  obtain ⟨label, moved, reason⟩ := explained s e t permitted step
  rw [seen s e label reason]
  exact preserved _ _ _ _ holds moved

end PartialMachine

end Machine
