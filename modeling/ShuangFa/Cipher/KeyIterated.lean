import Mathlib.Data.List.Induction
import Mathlib.Logic.Equiv.Basic

/-! # Key-iterated ciphers

A round substitutes the parts of a state, permutes them and mixes them, and adds a key; the last
round does not mix. The layers of a round come with their inverses. Where substituting commutes with
permuting and mixing passes over the addition of a key, a cipher of the same shape undoes the first
one: it goes through the keys backwards, and the keys of its full rounds are unmixed beforehand.
-/

namespace Cipher

/-- The layers of a round. -/
structure RoundLayers (σ : Type*) where
  substitute : Equiv.Perm σ
  permute : Equiv.Perm σ
  mix : Equiv.Perm σ

/-- The keys of a run: one before the first round, one for each full round, one for the last round. -/
structure RoundKeys (κ : Type*) where
  first : κ
  full : List κ
  last : κ

variable {σ κ : Type*}

namespace RoundKeys

/-- The keys of the inverse run. -/
def inverse (unmix : κ → κ) (keys : RoundKeys κ) : RoundKeys κ :=
  ⟨keys.last, (keys.full.map unmix).reverse, keys.first⟩

end RoundKeys

namespace RoundLayers

variable (layers : RoundLayers σ) (add : κ → σ → σ)

/-- The layers of the inverse run. -/
def inverse : RoundLayers σ := ⟨layers.substitute.symm, layers.permute.symm, layers.mix.symm⟩

def round (state : σ) (key : κ) : σ :=
  add key (layers.mix (layers.permute (layers.substitute state)))

def lastRound (state : σ) (key : κ) : σ := add key (layers.permute (layers.substitute state))

/-- A run through all rounds. -/
def run (keys : RoundKeys κ) (state : σ) : σ :=
  layers.lastRound add (keys.full.foldl (layers.round add) (add keys.first state)) keys.last

variable {layers add} {unmix : κ → κ}

/-- The full rounds of the inverse run undo full rounds, between two half rounds. -/
theorem inverse_rounds (cancel : ∀ key state, add key (add key state) = state)
    (commute : ∀ state, layers.substitute (layers.permute state) =
      layers.permute (layers.substitute state))
    (spread : ∀ key state, layers.mix.symm (add key state) = add (unmix key) (layers.mix.symm state))
    (keys : List κ) (state : σ) :
    (keys.map unmix).reverse.foldl (layers.inverse.round add)
        (layers.permute (layers.substitute (keys.foldl (layers.round add) state))) =
      layers.permute (layers.substitute state) := by
  induction keys using List.reverseRecOn generalizing state with
  | nil => rfl
  | append_singleton keys key ih =>
    obtain ⟨inner, reached⟩ : ∃ inner, keys.foldl (layers.round add) state = inner := ⟨_, rfl⟩
    have undone : layers.inverse.round add
        (layers.permute (layers.substitute (layers.round add inner key))) (unmix key) =
          layers.permute (layers.substitute inner) := by
      rw [← commute, round, inverse, Equiv.symm_apply_apply, Equiv.symm_apply_apply, round, spread,
        Equiv.symm_apply_apply, cancel]
    rw [List.foldl_append, List.map_append, List.reverse_append, List.foldl_append, reached]
    change (keys.map unmix).reverse.foldl (layers.inverse.round add) (layers.inverse.round add
      (layers.permute (layers.substitute (layers.round add inner key))) (unmix key)) = _
    rw [undone, ← reached, ih]

/-- The inverse run with the inverse keys undoes a run. -/
theorem inverse_run (cancel : ∀ key state, add key (add key state) = state)
    (commute : ∀ state, layers.substitute (layers.permute state) =
      layers.permute (layers.substitute state))
    (spread : ∀ key state, layers.mix.symm (add key state) = add (unmix key) (layers.mix.symm state))
    (keys : RoundKeys κ) (state : σ) :
    layers.inverse.run add (keys.inverse unmix) (layers.run add keys state) = state := by
  have full := inverse_rounds cancel commute spread keys.full (add keys.first state)
  rw [run, run, lastRound, lastRound, RoundKeys.inverse, cancel, full, inverse, ← commute,
    Equiv.symm_apply_apply, Equiv.symm_apply_apply, cancel]

/-- A run undoes the inverse run, where mixing takes the keys back. -/
theorem run_inverse {remix : κ → κ} (cancel : ∀ key state, add key (add key state) = state)
    (commute : ∀ state, layers.substitute (layers.permute state) =
      layers.permute (layers.substitute state))
    (spread : ∀ key state, layers.mix (add key state) = add (remix key) (layers.mix state))
    (back : ∀ key, remix (unmix key) = key) (keys : RoundKeys κ) (state : σ) :
    layers.run add keys (layers.inverse.run add (keys.inverse unmix) state) = state := by
  have exchanged (state : σ) : layers.inverse.substitute (layers.inverse.permute state) =
      layers.inverse.permute (layers.inverse.substitute state) := by
    apply layers.permute.injective
    apply layers.substitute.injective
    rw [commute, inverse, Equiv.apply_symm_apply, Equiv.apply_symm_apply, Equiv.apply_symm_apply,
      Equiv.apply_symm_apply]
  have undone := @inverse_run _ _ layers.inverse add remix cancel exchanged spread
    (keys.inverse unmix) state
  have same : (keys.inverse unmix).inverse remix = keys := by
    rw [RoundKeys.inverse, RoundKeys.inverse, List.map_reverse, List.reverse_reverse, List.map_map,
      show remix ∘ unmix = id from funext back, List.map_id]
  rw [same] at undone
  exact undone

end RoundLayers

end Cipher
