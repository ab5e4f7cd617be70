import Mathlib.Algebra.BigOperators.Group.List.Basic
import Mathlib.Algebra.GroupWithZero.Nat

/-! # Tilings of an address range

A span is a run of consecutive addresses. Spans tile a range when each starts where the one before
it stops; then every address of the range lies in exactly one of them, none lies in a span outside
the range, and the lengths add up to the length of the range. Empty spans are admitted anywhere.
-/

namespace Memory

structure Span where
  start : ℕ
  length : ℕ
deriving DecidableEq, Repr

namespace Span

def stop (span : Span) : ℕ := span.start + span.length

/-- The span has this address. -/
def Holds (span : Span) (address : ℕ) : Prop := span.start ≤ address ∧ address < span.stop

instance (span : Span) (address : ℕ) : Decidable (span.Holds address) :=
  inferInstanceAs (Decidable (_ ∧ _))

/-- The spans that have an address, counted. -/
def cover (spans : List Span) (address : ℕ) : ℕ := spans.countP fun span => span.Holds address

/-- The addresses of all spans, counted. -/
def size (spans : List Span) : ℕ := (spans.map Span.length).sum

end Span

/-- The spans follow one another from `first` to `last`. -/
inductive Tiles : ℕ → List Span → ℕ → Prop
  | nil (first : ℕ) : Tiles first [] first
  | cons {span : Span} {rest : List Span} {last : ℕ} (tail : Tiles span.stop rest last) :
      Tiles span.start (span :: rest) last

namespace Tiles

variable {first last : ℕ} {spans : List Span}

theorem le (tiles : Tiles first spans last) : first ≤ last := by
  induction tiles with
  | nil => exact Nat.le_refl _
  | cons _ ih => exact Nat.le_trans (Nat.le_add_right ..) ih

/-- No span starts before the range does. -/
theorem le_start (tiles : Tiles first spans last) : ∀ span ∈ spans, first ≤ span.start := by
  induction tiles with
  | nil => exact fun _ member => nomatch member
  | cons _ ih =>
    intro other member
    rcases List.mem_cons.mp member with rfl | later
    · exact Nat.le_refl _
    · exact Nat.le_trans (Nat.le_add_right ..) (ih other later)

/-- A tiling goes on with a span that starts where it stops. -/
theorem concat {span : Span} (tiles : Tiles first spans span.start) :
    Tiles first (spans ++ [span]) span.stop := by
  induction spans generalizing first with
  | nil =>
    cases tiles
    exact .cons (.nil _)
  | cons head rest ih =>
    cases tiles with
    | cons tail => exact .cons (ih tail)

theorem size (tiles : Tiles first spans last) : first + Span.size spans = last := by
  induction tiles with
  | nil => rfl
  | @cons span rest last tail ih =>
    rw [← ih, Span.stop, Nat.add_assoc]
    rfl

/-- Every address of the range lies in one span, every other one in none. -/
theorem cover (tiles : Tiles first spans last) (address : ℕ) :
    Span.cover spans address = if first ≤ address ∧ address < last then 1 else 0 := by
  induction tiles with
  | nil =>
    rw [if_neg (by omega)]
    rfl
  | @cons span rest last tail ih =>
    have after := tail.le
    have within : span.start ≤ span.stop := Nat.le_add_right ..
    rw [Span.cover] at ih ⊢
    simp only [List.countP_cons, ih, decide_eq_true_eq]
    split_ifs <;> simp only [Span.Holds] at * <;> omega

/-- No span starts before an earlier one stops. -/
theorem pairwise (tiles : Tiles first spans last) :
    spans.Pairwise fun earlier later => earlier.stop ≤ later.start := by
  induction tiles with
  | nil => exact .nil
  | cons tail ih => exact .cons tail.le_start ih

end Tiles

end Memory
