import Mathlib.Order.Nat

/-! # Loops with a bound on their turns

A loop that only a test leaves is defined by recursion on a bound on its turns, and has no result where
the bound is reached. It ends where all bounds from some one on give the same result.
-/

namespace Machine

variable {α β : Type*} {loop : ℕ → Option α} {value result : α}

/-- The loop ends with a result, whatever bound on its turns is allowed, if it is large enough. -/
def Ends (loop : ℕ → Option α) (result : α) : Prop :=
  ∃ enough, ∀ turns, enough ≤ turns → loop turns = some result

namespace Ends

theorem of_forall (always : ∀ turns, loop turns = some result) : Ends loop result :=
  ⟨0, fun turns _ => always turns⟩

theorem of_succ (next : Ends (fun turns => loop (turns + 1)) result) : Ends loop result := by
  obtain ⟨enough, ends⟩ := next
  refine ⟨enough + 1, ?_⟩
  intro turns least
  cases turns with
  | zero => exact absurd least (Nat.not_succ_le_zero _)
  | succ turns => exact ends turns (Nat.le_of_succ_le_succ least)

/-- What comes behind a loop may have a bound of its own. -/
theorem bind {next : ℕ → α → Option β} {last : β} (first : Ends loop value)
    (second : Ends (fun turns => next turns value) last) :
    Ends (fun turns => (loop turns).bind (next turns)) last := by
  obtain ⟨enough, ends⟩ := first
  obtain ⟨more, goes⟩ := second
  refine ⟨max enough more, ?_⟩
  intro turns least
  dsimp only
  rw [ends turns ((le_max_left _ _).trans least), Option.bind_some]
  exact goes turns ((le_max_right _ _).trans least)

theorem map {f : α → β} (ends : Ends loop value) :
    Ends (fun turns => (loop turns).map f) (f value) := by
  obtain ⟨enough, ends⟩ := ends
  refine ⟨enough, ?_⟩
  intro turns least
  dsimp only
  rw [ends turns least, Option.map_some]

end Ends

end Machine
