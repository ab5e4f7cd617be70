import Mathlib.Data.List.Basic

/-! # A place for one resource at a time

What a program acquires and releases is seen as a list of claims. A place owns at most one resource:
each one it has acquired is released, exactly once and before the next one is acquired, and what is
not released yet is its owner.
-/

namespace Machine

/-- A resource is acquired or released. -/
inductive Claim (ρ : Type*) where
  | acquired (resource : ρ)
  | released (resource : ρ)
deriving DecidableEq

namespace Claim

variable {ρ : Type*} {claims : List (Claim ρ)} {owner : Option ρ}

/-- Every resource but the owner was acquired and then released, one after the other. -/
def Owned (claims : List (Claim ρ)) (owner : Option ρ) : Prop :=
  ∃ finished : List ρ, claims =
    finished.flatMap (fun resource => [acquired resource, released resource]) ++
      owner.toList.map acquired

theorem owned_nil : Owned ([] : List (Claim ρ)) none := ⟨[], rfl⟩

theorem Owned.acquire (owned : Owned claims none) (resource : ρ) :
    Owned (claims ++ [acquired resource]) (some resource) := by
  obtain ⟨finished, rfl⟩ := owned
  exact ⟨finished, by simp⟩

theorem Owned.release {resource : ρ} (owned : Owned claims (some resource)) :
    Owned (claims ++ [released resource]) none := by
  obtain ⟨finished, rfl⟩ := owned
  exact ⟨finished ++ [resource], by simp⟩

/-- A resource that is released at once leaves the place empty. -/
theorem Owned.attempt (owned : Owned claims none) (resource : ρ) :
    Owned (claims ++ [acquired resource, released resource]) none := by
  have attempted := (owned.acquire resource).release
  rwa [List.append_assoc] at attempted

end Claim

end Machine
