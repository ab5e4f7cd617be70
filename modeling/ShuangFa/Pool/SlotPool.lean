import Mathlib.Data.Fintype.Card
import Mathlib.Data.Finset.Card
import Mathlib.Logic.Function.Basic

/-! # Pools of reusable tagged slots

A pool has a fixed number of slots; each is idle or carries one tag. Allocation takes the first
idle slot and may fail, release empties a slot whatever it carries. The facts below say what each
operation does to two properties users of a pool rely on: which tags occur, and that every slot with
a tag is the one a handle names, so that a tag occurs at most once. A pool whose tags are few and
single always has an idle slot.
-/

namespace SlotPool

/-- Each slot is idle or carries a tag. -/
abbrev Pool (n : ℕ) (τ : Type*) := Fin n → Option τ

namespace Pool

variable {n : ℕ} {τ : Type*}

/-- The pool without a used slot. -/
def empty : Pool n τ := fun _ => none

/-- The idle slot of least index. -/
def firstIdle (pool : Pool n τ) : Option (Fin n) :=
  (List.finRange n).find? fun slot => (pool slot).isNone

/-- Put a tag on a slot. -/
def occupy (pool : Pool n τ) (slot : Fin n) (tag : τ) : Pool n τ :=
  Function.update pool slot (some tag)

/-- Make a slot idle. -/
def release (pool : Pool n τ) (slot : Fin n) : Pool n τ := Function.update pool slot none

/-- Only the tags in `allowed` occur. -/
def Within (pool : Pool n τ) (allowed : τ → Prop) : Prop :=
  ∀ slot tag, pool slot = some tag → allowed tag

/-- At most one slot carries the tag. -/
def Single (pool : Pool n τ) (tag : τ) : Prop :=
  ∀ first second, pool first = some tag → pool second = some tag → first = second

/-- Every slot with the tag is the one the handle names. -/
def Named (pool : Pool n τ) (tag : τ) (handle : Option (Fin n)) : Prop :=
  ∀ slot, pool slot = some tag → handle = some slot

theorem firstIdle_idle {pool : Pool n τ} {slot : Fin n} (found : pool.firstIdle = some slot) :
    pool slot = none := by
  simpa using List.find?_some found

theorem firstIdle_eq_none_iff {pool : Pool n τ} :
    pool.firstIdle = none ↔ ∀ slot, pool slot ≠ none := by
  simp [firstIdle, Option.isNone_iff_eq_none]

theorem exists_firstIdle {pool : Pool n τ} (idle : ∃ slot, pool slot = none) :
    ∃ slot, pool.firstIdle = some slot ∧ pool slot = none := by
  cases found : pool.firstIdle with
  | none =>
    obtain ⟨slot, free⟩ := idle
    exact absurd free (firstIdle_eq_none_iff.mp found slot)
  | some slot => exact ⟨slot, rfl, firstIdle_idle found⟩

section Lookup

variable {pool : Pool n τ} {slot other : Fin n} {tag : τ}

@[simp] theorem occupy_self : pool.occupy slot tag slot = some tag := Function.update_self ..

theorem occupy_of_ne (different : other ≠ slot) : pool.occupy slot tag other = pool other :=
  Function.update_of_ne different ..

@[simp] theorem release_self : pool.release slot slot = none := Function.update_self ..

theorem release_of_ne (different : other ≠ slot) : pool.release slot other = pool other :=
  Function.update_of_ne different ..

theorem release_eq_some_iff : pool.release slot other = some tag ↔
    other ≠ slot ∧ pool other = some tag := by
  by_cases same : other = slot
  · simp [same]
  · simp [release_of_ne same, same]

theorem occupy_eq_some_iff {carried : τ} : pool.occupy slot tag other = some carried ↔
    (other = slot ∧ tag = carried) ∨ (other ≠ slot ∧ pool other = some carried) := by
  by_cases same : other = slot
  · simp [same]
  · simp [occupy_of_ne same, same]

@[simp] theorem empty_apply : (empty : Pool n τ) slot = none := rfl

end Lookup

section Within

variable {pool : Pool n τ} {allowed wider : τ → Prop} {slot : Fin n} {tag : τ}

theorem within_empty : (empty : Pool n τ).Within allowed := fun _ _ => nofun

theorem Within.mono (within : pool.Within allowed) (wide : ∀ tag, allowed tag → wider tag) :
    pool.Within wider := fun slot tag used => wide tag (within slot tag used)

theorem Within.release (within : pool.Within allowed) (slot : Fin n) :
    (pool.release slot).Within allowed := fun other tag used =>
  within other tag (release_eq_some_iff.mp used).2

theorem Within.occupy (within : pool.Within allowed) (fits : allowed tag) (slot : Fin n) :
    (pool.occupy slot tag).Within allowed := by
  intro other carried used
  rcases occupy_eq_some_iff.mp used with ⟨_, rfl⟩ | ⟨_, used⟩
  · exact fits
  · exact within other carried used

end Within

section Named

variable {pool : Pool n τ} {slot : Fin n} {tag carried : τ} {handle : Option (Fin n)}

theorem named_empty : (empty : Pool n τ).Named tag handle := fun _ => nofun

theorem Named.single (named : pool.Named tag handle) : pool.Single tag :=
  fun first second one two => Option.some.inj ((named first one).symm.trans (named second two))

theorem Named.absent (named : pool.Named tag none) (slot : Fin n) : pool slot ≠ some tag :=
  fun used => nomatch named slot used

theorem named_of_absent (absent : ∀ slot, pool slot ≠ some tag) : pool.Named tag handle :=
  fun slot used => absurd used (absent slot)

theorem Named.release (named : pool.Named tag handle) (slot : Fin n) :
    (pool.release slot).Named tag handle := fun other used =>
  named other (release_eq_some_iff.mp used).2

/-- Releasing the named slot leaves the tag nowhere, whatever the handle says afterwards. -/
theorem Named.release_named (named : pool.Named tag (some slot)) :
    ∀ other, pool.release slot other ≠ some tag := by
  intro other used
  obtain ⟨different, there⟩ := release_eq_some_iff.mp used
  exact different (Option.some.inj (named other there)).symm

theorem Named.occupy_other (named : pool.Named tag handle) (other : carried ≠ tag)
    (slot : Fin n) : (pool.occupy slot carried).Named tag handle := by
  intro place used
  rcases occupy_eq_some_iff.mp used with ⟨_, same⟩ | ⟨_, used⟩
  · exact absurd same other
  · exact named place used

theorem Named.occupy_absent (absent : ∀ slot, pool slot ≠ some tag) (slot : Fin n) :
    (pool.occupy slot tag).Named tag (some slot) := by
  intro place used
  rcases occupy_eq_some_iff.mp used with ⟨rfl, _⟩ | ⟨_, used⟩
  · rfl
  · exact absurd used (absent place)

/-- A tag that moves from its named slot to another one is named there. -/
theorem Named.move {old new : Fin n} (named : pool.Named tag (some old)) :
    ((pool.occupy new tag).release old).Named tag (some new) := by
  intro place used
  obtain ⟨kept, used⟩ := release_eq_some_iff.mp used
  rcases occupy_eq_some_iff.mp used with ⟨rfl, _⟩ | ⟨_, used⟩
  · rfl
  · exact absurd (Option.some.inj (named place used)).symm kept

end Named

/-- A pool with more slots than it can have tags, each tag at most once, has an idle slot. -/
theorem exists_idle {pool : Pool n τ} (tags : Finset τ) (within : pool.Within (· ∈ tags))
    (single : ∀ tag ∈ tags, pool.Single tag) (few : tags.card < n) :
    ∃ slot, pool slot = none := by
  by_contra full
  push Not at full
  have carried (slot : Fin n) : ∃ tag, pool slot = some tag :=
    Option.ne_none_iff_exists'.mp (full slot)
  choose tag used using carried
  have injective : Set.InjOn tag (Finset.univ : Finset (Fin n)) := by
    intro first _ second _ same
    exact single (tag first) (within _ _ (used first)) first second (used first)
      (same ▸ used second)
  have bound := Finset.card_le_card_of_injOn tag (fun slot _ => within _ _ (used slot)) injective
  simp only [Finset.card_univ, Fintype.card_fin] at bound
  omega

end Pool

end SlotPool
