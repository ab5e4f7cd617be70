import Mathlib.Algebra.BigOperators.Pi
import Mathlib.Algebra.Ring.Regular
import Mathlib.Data.Fin.Tuple.Basic
import Mathlib.Data.List.GetD
import Mathlib.Tactic.Ring

/-! # Linear feedback shift registers

A register of `n + 1` cells is shifted towards its last cell, and what leaves that cell comes back
at the taps. A letter of a word is added to the last cell before the shift. The register is linear
in its contents and in the word together, and where the first tap is a unit nothing that is in it
gets lost; so it tells every error apart that is not longer than the register itself.
-/

namespace Coding

variable {R : Type*} [CommRing R] {n : ℕ}

/-- The cells of a register. -/
abbrev Cells (R : Type*) (n : ℕ) := Fin (n + 1) → R

/-- One shift: what leaves the last cell is fed back at the taps. -/
def shift (taps cells : Cells R n) : Cells R n :=
  Fin.cons 0 (Fin.init cells) + cells (Fin.last n) • taps

/-- One letter, added to the last cell before the shift. -/
def feed (taps cells : Cells R n) (letter : R) : Cells R n :=
  shift taps (cells + Pi.single (Fin.last n) letter)

/-- The letters of a word one after the other. -/
def run (taps cells : Cells R n) (word : List R) : Cells R n := word.foldl (feed taps) cells

/-- A word beside the cells of the register, its first letter at the last cell. -/
def placed (n : ℕ) (word : List R) : Cells R n := fun cell => word.getD (n - cell) 0

/-- The letters that are not zero lie in a window of `width` letters. -/
def Burst (width : ℕ) (word : List R) : Prop :=
  ∃ start, ∀ index, word.getD index 0 ≠ 0 → start ≤ index ∧ index < start + width

section Linear

variable (taps first second : Cells R n)

@[simp] theorem shift_first (cells : Cells R n) :
    shift taps cells 0 = cells (Fin.last n) * taps 0 := by
  simp [shift]

@[simp] theorem shift_next (cells : Cells R n) (cell : Fin n) :
    shift taps cells cell.succ = cells cell.castSucc + cells (Fin.last n) * taps cell.succ := by
  simp [shift, Fin.init]

theorem shift_add : shift taps (first + second) = shift taps first + shift taps second := by
  funext cell
  induction cell using Fin.cases with
  | zero => simp [add_mul]
  | succ cell =>
    simp only [shift_next, Pi.add_apply]
    ring

@[simp] theorem shift_zero : shift taps (0 : Cells R n) = 0 := by
  funext cell
  induction cell using Fin.cases <;> simp

theorem shift_iterate_add (times : ℕ) :
    (shift taps)^[times] (first + second) = (shift taps)^[times] first + (shift taps)^[times] second := by
  induction times generalizing first second with
  | zero => rfl
  | succ times ih => rw [Function.iterate_succ_apply, shift_add, ih]; rfl

theorem shift_iterate_zero (times : ℕ) : (shift taps)^[times] (0 : Cells R n) = 0 :=
  Function.iterate_fixed (shift_zero taps) times

theorem feed_add (left right : R) :
    feed taps (first + second) (left + right) = feed taps first left + feed taps second right := by
  rw [feed, Pi.single_add, add_add_add_comm, shift_add]
  rfl

@[simp] theorem feed_zero : feed taps first 0 = shift taps first := by
  rw [feed, Pi.single_zero, add_zero]

/-- A letter joins what leaves the last cell. -/
theorem feed_eq (cells : Cells R n) (letter : R) : feed taps cells letter =
    Fin.cons 0 (Fin.init cells) + (cells (Fin.last n) + letter) • taps := by
  have kept : Fin.init (cells + Pi.single (Fin.last n) letter) = Fin.init cells := by
    funext cell
    simp [Fin.init]
  rw [feed, shift, kept, Pi.add_apply, Pi.single_eq_same]

@[simp] theorem run_nil : run taps first [] = first := rfl

@[simp] theorem run_cons (letter : R) (word : List R) :
    run taps first (letter :: word) = run taps (feed taps first letter) word := rfl

theorem run_append (front back : List R) :
    run taps first (front ++ back) = run taps (run taps first front) back :=
  List.foldl_append

theorem run_replicate_zero (times : ℕ) :
    run taps first (List.replicate times 0) = (shift taps)^[times] first := by
  induction times generalizing first with
  | zero => rfl
  | succ times ih => rw [List.replicate_succ, run_cons, feed_zero, ih, Function.iterate_succ_apply]

/-- The register is linear in its contents and in the word together. -/
theorem run_add {word error : List R} (same : word.length = error.length) :
    run taps (first + second) (List.zipWith (· + ·) word error) =
      run taps first word + run taps second error := by
  induction word generalizing error first second with
  | nil =>
    obtain rfl := List.length_eq_zero_iff.mp same.symm
    rfl
  | cons letter word ih =>
    cases error with
    | nil => cases same
    | cons flip error =>
      rw [List.zipWith_cons_cons, run_cons, feed_add, ih _ _ (Nat.succ.inj same)]
      rfl

end Linear

section Places

variable {taps cells : Cells R n} {word : List R}

@[simp] theorem placed_nil : placed n ([] : List R) = 0 := rfl

theorem placed_add {word error : List R} (same : word.length = error.length) :
    placed n (List.zipWith (· + ·) word error) = placed n word + placed n error := by
  funext cell
  simp only [placed, Pi.add_apply, List.getD_eq_getElem?_getD, List.getElem?_zipWith]
  rcases Nat.lt_or_ge (n - cell) word.length with inside | behind
  · rw [List.getElem?_eq_getElem inside, List.getElem?_eq_getElem (same ▸ inside)]
    rfl
  · rw [List.getElem?_eq_none behind, List.getElem?_eq_none (same ▸ behind)]
    simp

/-- A word that fits beside the register may as well lie in it from the start. -/
theorem run_eq_placed (short : word.length ≤ n + 1) :
    run taps cells word = (shift taps)^[word.length] (cells + placed n word) := by
  induction word generalizing cells with
  | nil => simp
  | cons letter word ih =>
    let below : Cells R n := fun cell => if cell = Fin.last n then 0 else placed n (letter :: word) cell
    have split : placed n (letter :: word) = Pi.single (Fin.last n) letter + below := by
      funext cell
      by_cases last : cell = Fin.last n
      · subst last
        simp [placed, below]
      · simp [below, last]
    have moved : shift taps below = placed n word := by
      funext cell
      induction cell using Fin.cases with
      | zero =>
        have behind : word.length ≤ n := Nat.le_of_succ_le_succ short
        simp [placed, below, List.getElem?_eq_none behind]
      | succ cell =>
        have inside : n - cell = n - (cell + 1) + 1 := by omega
        have before : cell.castSucc ≠ Fin.last n := Fin.castSucc_ne_last cell
        simp [placed, below, before, inside]
    rw [run_cons, ih (Nat.le_of_succ_le short), List.length_cons, Function.iterate_succ_apply, split,
      ← add_assoc, shift_add, moved]
    rfl

end Places

section Errors

variable {taps cells : Cells R n} {word error : List R}

theorem eq_replicate_of_getD (zero : ∀ index, word.getD index 0 = 0) :
    word = List.replicate word.length 0 := by
  rw [List.eq_replicate_iff]
  refine ⟨rfl, fun letter among => ?_⟩
  obtain ⟨index, inside, rfl⟩ := List.getElem_of_mem among
  rw [← zero index, List.getD_eq_getElem _ 0 inside]

/-- Around a burst there are zeros only. -/
theorem Burst.parts {width : ℕ} (burst : Burst width word) : ∃ before window after,
    word = List.replicate before 0 ++ (window ++ List.replicate after 0) ∧
      window.length ≤ width := by
  obtain ⟨start, confined⟩ := burst
  have outside (index : ℕ) (apart : index < start ∨ start + width ≤ index) :
      word.getD index 0 = 0 := by
    by_contra other
    have window := confined index other
    omega
  have front : word.take start = List.replicate (word.take start).length 0 := by
    apply eq_replicate_of_getD
    intro index
    rw [List.getD_eq_getElem?_getD, List.getElem?_take]
    split
    · rw [← List.getD_eq_getElem?_getD]
      exact outside index (.inl ‹_›)
    · rfl
  have back : (word.drop start).drop width =
      List.replicate ((word.drop start).drop width).length 0 := by
    apply eq_replicate_of_getD
    intro index
    rw [List.getD_eq_getElem?_getD, List.getElem?_drop, List.getElem?_drop, ← Nat.add_assoc,
      ← List.getD_eq_getElem?_getD]
    exact outside _ (.inr (Nat.le_add_right ..))
  refine ⟨(word.take start).length, (word.drop start).take width,
    ((word.drop start).drop width).length, ?_, List.length_take_le ..⟩
  rw [← front, ← back, List.take_append_drop, List.take_append_drop]

theorem placed_ne_zero (short : word.length ≤ n + 1) (nonzero : ∃ letter ∈ word, letter ≠ 0) :
    placed n word ≠ 0 := by
  obtain ⟨letter, among, other⟩ := nonzero
  obtain ⟨index, inside, rfl⟩ := List.getElem_of_mem among
  intro zero
  have entry := congrFun zero ⟨n - index, by omega⟩
  have place : n - (n - index) = index := by omega
  rw [placed, place, List.getD_eq_getElem _ 0 inside] at entry
  exact other entry

/-- Nothing gets lost where the first tap is a unit. -/
theorem shift_injective (unit : IsUnit (taps 0)) : Function.Injective (shift taps) := by
  intro first second same
  have last : first (Fin.last n) = second (Fin.last n) := by
    have entry := congrFun same 0
    rwa [shift_first, shift_first, unit.mul_left_inj] at entry
  funext cell
  induction cell using Fin.lastCases with
  | last => exact last
  | cast cell =>
    have entry := congrFun same cell.succ
    rwa [shift_next, shift_next, last, add_left_inj] at entry

theorem shift_iterate_ne_zero (unit : IsUnit (taps 0)) (times : ℕ) (nonzero : cells ≠ 0) :
    (shift taps)^[times] cells ≠ 0 := by
  intro zero
  rw [← shift_iterate_zero taps times] at zero
  exact nonzero ((shift_injective unit).iterate times zero)

/-- A burst that is not longer than the register leaves something in it. -/
theorem run_burst_ne_zero (unit : IsUnit (taps 0)) (burst : Burst (n + 1) error)
    (nonzero : ∃ letter ∈ error, letter ≠ 0) : run taps 0 error ≠ 0 := by
  obtain ⟨before, window, after, rfl, short⟩ := burst.parts
  have inside : ∃ letter ∈ window, letter ≠ 0 := by
    obtain ⟨letter, among, other⟩ := nonzero
    simp only [List.mem_append, List.mem_replicate] at among
    rcases among with ⟨_, zero⟩ | among | ⟨_, zero⟩
    · exact absurd zero other
    · exact ⟨letter, among, other⟩
    · exact absurd zero other
  rw [run_append, run_replicate_zero, shift_iterate_zero, run_append, run_replicate_zero,
    run_eq_placed short, zero_add]
  apply shift_iterate_ne_zero unit
  exact shift_iterate_ne_zero unit _ (placed_ne_zero short inside)

/-- An error is detected that is a burst not longer than the register. -/
theorem run_detects (unit : IsUnit (taps 0)) (same : word.length = error.length)
    (burst : Burst (n + 1) error) (nonzero : ∃ letter ∈ error, letter ≠ 0) :
    run taps cells (List.zipWith (· + ·) word error) ≠ run taps cells word := by
  have sum := run_add taps cells 0 same
  rw [add_zero] at sum
  rw [sum, Ne, add_eq_left]
  exact run_burst_ne_zero unit burst nonzero

end Errors

section Blocks

variable {taps cells : Cells R n} {word : List R} {count : ℕ}

/-- What the next shifts drive out of the last cell, in this order. -/
def leaving (count : ℕ) (cells : Cells R n) : List R :=
  (List.range count).map fun index => cells (@Fin.ofNat (n + 1) Nat.instNeZeroSucc (n - index))

/-- The cells that stay, moved on. -/
def raised (count : ℕ) (cells : Cells R n) : Cells R n := fun cell =>
  if count ≤ cell then cells (@Fin.ofNat (n + 1) Nat.instNeZeroSucc (cell - count)) else 0

omit [CommRing R] in
theorem leaving_length (count : ℕ) (cells : Cells R n) : (leaving count cells).length = count := by
  simp only [leaving, List.length_map, List.length_range]

/-- Until a letter leaves the last cell the cells only move on. -/
theorem shift_iterate_raised (cells : Cells R n)
    (free : ∀ cell : Fin (n + 1), n < cell + count → cells cell = 0) :
    (shift taps)^[count] cells = raised count cells := by
  induction count with
  | zero =>
    funext cell
    simp [raised]
  | succ count ih =>
    rw [Function.iterate_succ_apply', ih fun cell past => free cell (Nat.lt_succ_of_lt past)]
    have last : raised count cells (Fin.last n) = 0 := by
      rw [raised]
      split
      · apply free
        rw [Fin.val_ofNat, Fin.val_last, Nat.mod_eq_of_lt (by omega)]
        omega
      · rfl
    funext cell
    induction cell using Fin.cases with
    | zero =>
      rw [shift_first, last, zero_mul]
      simp [raised]
    | succ cell =>
      rw [shift_next, last, zero_mul, add_zero]
      simp [raised]

/-- What leaves a register can be looked up in a table: a block of letters makes of it what it makes,
added to the letters that leave, of an empty one, and the cells that stay move on. -/
theorem run_block (short : word.length ≤ n + 1) : run taps cells word =
    run taps 0 (List.zipWith (· + ·) (leaving word.length cells) word) +
      raised word.length cells := by
  let staying : Cells R n := fun cell => if n < cell + word.length then 0 else cells cell
  have size := leaving_length word.length cells
  have split : cells = placed n (leaving word.length cells) + staying := by
    funext cell
    have back : n - (n - cell) = cell.val := by omega
    simp only [Pi.add_apply, placed, staying]
    split
    · rw [List.getD_eq_getElem _ _ (by omega)]
      simp [leaving, back]
    · rw [List.getD_eq_default _ _ (by omega), zero_add]
  have moved : raised word.length staying = raised word.length cells := by
    funext cell
    rw [raised, raised]
    split
    · have inside : cell.val - word.length + word.length ≤ n := by omega
      have place : (cell.val - word.length) % (n + 1) = cell.val - word.length :=
        Nat.mod_eq_of_lt (by omega)
      simp [staying, place, Nat.not_lt.mpr inside]
    · rfl
  have whole : (List.zipWith (· + ·) (leaving word.length cells) word).length = word.length := by
    rw [List.length_zipWith, size, Nat.min_self]
  have free : ∀ cell : Fin (n + 1), n < cell + word.length → staying cell = 0 := by
    simp +contextual [staying]
  conv_lhs => rw [run_eq_placed short, split, add_right_comm, ← placed_add size, shift_iterate_add,
    shift_iterate_raised staying free, moved]
  rw [run_eq_placed (by omega), whole, zero_add]

end Blocks

end Coding
