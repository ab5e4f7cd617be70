import Mathlib.Algebra.Order.Ring.Nat
import Mathlib.Data.Nat.Bitwise
import Mathlib.Tactic.Ring

/-! # Powers by a sliding window

A partial multiplication of representations adds exponents. The bits of an exponent are taken from the
top: a window starts at a bit that is set, and when it is full the power is squared as often as it is
wide and multiplied by an entry of a table, which starts at the powers with the top bit of a window.
What is left of a window at the end is multiplied bit by bit.
-/

namespace Powers

/-- What is in front of the next bit: zeros only, an empty window, or a window that is not full. -/
inductive Phase
  | leading
  | between
  | window
  deriving DecidableEq

variable {α : Type*}

/-- A power, and the window behind it: its bits are the top ones of `wbits`. -/
structure Window (α : Type*) where
  x : α
  nbits : ℕ
  wbits : ℕ
  phase : Phase

section Algorithm

variable (mul : α → α → Option α) (copy : α → α) (wsize : ℕ)

def squares : ℕ → α → Option α
  | 0, x => some x
  | count + 1, x => (mul x x).bind (squares count)

/-- The entries behind `entry`, each one multiplication by the base away from the one before. -/
def tableLoop (base : α) : ℕ → α → Option (List α)
  | 0, entry => some [entry]
  | count + 1, entry =>
    (mul (copy entry) base).bind fun next => (tableLoop base count next).map (entry :: ·)

/-- The powers from `2 ^ (wsize - 1)` below `2 ^ wsize`. -/
def table (base : α) : Option (List α) :=
  if 1 < wsize then
    (squares mul (wsize - 1) (copy base)).bind (tableLoop mul copy base (2 ^ (wsize - 1) - 1))
  else some [base]

/-- An entry of a table; there is none below the top bit. -/
def powerAt (entries : List α) (wbits : ℕ) : Option α :=
  if wbits < 2 ^ (wsize - 1) then none else entries[wbits - 2 ^ (wsize - 1)]?

/-- The next bit of the exponent. -/
def step (entries : List α) (s : Window α) (bit : Bool) : Option (Window α) :=
  if bit = false ∧ s.phase = .leading then some s
  else if bit = false ∧ s.phase = .between then (mul s.x s.x).map fun x => { s with x := x }
  else
    let nbits := s.nbits + 1
    let wbits := s.wbits ||| bit.toNat <<< (wsize - nbits)
    if nbits = wsize then do
      let squared ← squares mul wsize s.x
      let entry ← powerAt wsize entries wbits
      let x ← mul squared entry
      some ⟨x, 0, 0, .between⟩
    else some ⟨s.x, nbits, wbits, .window⟩

def steps (entries : List α) : Window α → List Bool → Option (Window α)
  | s, [] => some s
  | s, bit :: bits => (step mul wsize entries s bit).bind fun next => steps entries next bits

/-- The bits of a window that is not full. -/
def remaining (base : α) : ℕ → α → ℕ → Option α
  | 0, x, _ => some x
  | count + 1, x, wbits =>
    (mul x x).bind fun squared =>
      (if wbits <<< 1 &&& 1 <<< wsize ≠ 0 then mul squared base else some squared).bind fun next =>
        remaining base count next (wbits <<< 1)

/-- The power of `base` that `bits` tell, where `one` is the power of zero. -/
def power (one base : α) (bits : List Bool) : Option α := do
  let entries ← table mul copy wsize base
  let s ← steps mul wsize entries ⟨one, 0, 0, .leading⟩ bits
  remaining mul wsize base s.nbits s.x s.wbits

end Algorithm

/-- The number that bits tell, the top one first. -/
def ofBits (bits : List Bool) : ℕ := bits.foldl (fun number bit => 2 * number + bit.toNat) 0

/-- Multiplication adds exponents and a copy keeps its exponent. -/
structure AddsExponents (mul : α → α → Option α) (copy : α → α) (Holds : α → ℕ → Prop) : Prop where
  mul : ∀ {x y first second}, Holds x first → Holds y second →
    ∃ z, mul x y = some z ∧ Holds z (first + second)
  copy : ∀ {x exponent}, Holds x exponent → Holds (copy x) exponent

section Exponents

variable {mul : α → α → Option α} {copy : α → α} {Holds : α → ℕ → Prop} {wsize : ℕ}
  {entries : List α} {base x : α} {s : Window α}

theorem AddsExponents.squares (adds : AddsExponents mul copy Holds) (count : ℕ) {exponent : ℕ}
    (holds : Holds x exponent) :
    ∃ z, Powers.squares mul count x = some z ∧ Holds z (exponent * 2 ^ count) := by
  induction count generalizing x exponent with
  | zero => exact ⟨x, rfl, by rwa [pow_zero, mul_one]⟩
  | succ count ih =>
    obtain ⟨squared, made, holds⟩ := adds.mul holds holds
    obtain ⟨z, later, holds⟩ := ih holds
    refine ⟨z, ?_, ?_⟩
    · rw [Powers.squares, made]
      exact later
    · have same : (exponent + exponent) * 2 ^ count = exponent * 2 ^ (count + 1) := by ring
      rwa [same] at holds

theorem AddsExponents.tableLoop (adds : AddsExponents mul copy Holds) (one : Holds base 1)
    (count : ℕ) {exponent : ℕ} (holds : Holds x exponent) :
    ∃ entries, Powers.tableLoop mul copy base count x = some entries ∧
      ∀ index ≤ count, ∃ z, entries[index]? = some z ∧ Holds z (exponent + index) := by
  induction count generalizing x exponent with
  | zero =>
    refine ⟨[x], rfl, ?_⟩
    intro index inside
    obtain rfl := Nat.le_zero.mp inside
    exact ⟨x, rfl, holds⟩
  | succ count ih =>
    obtain ⟨next, made, holdsNext⟩ := adds.mul (adds.copy holds) one
    obtain ⟨entries, later, each⟩ := ih holdsNext
    refine ⟨x :: entries, ?_, ?_⟩
    · rw [Powers.tableLoop, made, Option.bind_some, later]
      rfl
    · intro index inside
      cases index with
      | zero => exact ⟨x, rfl, holds⟩
      | succ index =>
        obtain ⟨z, found, holdsZ⟩ := each index (Nat.le_of_succ_le_succ inside)
        refine ⟨z, found, ?_⟩
        have same : exponent + 1 + index = exponent + (index + 1) := by ring
        rwa [same] at holdsZ

/-- A table holds the power of each index. -/
theorem AddsExponents.table (adds : AddsExponents mul copy Holds) (one : Holds base 1)
    (wide : 0 < wsize) :
    ∃ entries, Powers.table mul copy wsize base = some entries ∧
      ∀ wbits, 2 ^ (wsize - 1) ≤ wbits → wbits < 2 ^ wsize →
        ∃ z, powerAt wsize entries wbits = some z ∧ Holds z wbits := by
  have double : 2 ^ wsize = 2 * 2 ^ (wsize - 1) := by
    rw [← pow_succ', Nat.sub_add_cancel wide]
  have made : ∃ entries, Powers.table mul copy wsize base = some entries ∧
      ∀ index ≤ 2 ^ (wsize - 1) - 1,
        ∃ z, entries[index]? = some z ∧ Holds z (2 ^ (wsize - 1) + index) := by
    rcases Nat.lt_or_ge 1 wsize with many | single
    · obtain ⟨first, squared, holds⟩ := adds.squares (wsize - 1) (adds.copy one)
      rw [one_mul] at holds
      obtain ⟨entries, looped, each⟩ := adds.tableLoop one (2 ^ (wsize - 1) - 1) holds
      refine ⟨entries, ?_, each⟩
      rw [Powers.table, if_pos many, squared]
      exact looped
    · obtain rfl : wsize = 1 := Nat.le_antisymm single wide
      refine ⟨[base], rfl, ?_⟩
      intro index inside
      obtain rfl := Nat.le_zero.mp inside
      exact ⟨base, rfl, one⟩
  obtain ⟨entries, made, each⟩ := made
  refine ⟨entries, made, ?_⟩
  intro wbits low high
  obtain ⟨z, found, holds⟩ := each (wbits - 2 ^ (wsize - 1)) (by omega)
  refine ⟨z, ?_, ?_⟩
  · rw [powerAt, if_neg (Nat.not_lt.mpr low)]
    exact found
  · rwa [Nat.add_sub_cancel' low] at holds

/-- The power so far and the bits of the window, `exponent` together. -/
structure Window.Tells (Holds : α → ℕ → Prop) (wsize : ℕ) (s : Window α) (exponent : ℕ) : Prop where
  parts : ∃ front window, Holds s.x front ∧ exponent = front * 2 ^ s.nbits + window ∧
    window < 2 ^ s.nbits ∧ s.wbits = window * 2 ^ (wsize - s.nbits) ∧
    (s.phase = .window → 2 ^ s.nbits ≤ 2 * window)
  room : s.nbits < wsize
  leading : s.phase = .leading → exponent = 0
  empty : s.phase ≠ .window → s.nbits = 0

/-- A bit more is a digit more. -/
theorem Window.Tells.step (tells : s.Tells Holds wsize exponent)
    (adds : AddsExponents mul copy Holds)
    (powers : ∀ wbits, 2 ^ (wsize - 1) ≤ wbits → wbits < 2 ^ wsize →
      ∃ z, powerAt wsize entries wbits = some z ∧ Holds z wbits) (bit : Bool) :
    ∃ next, Powers.step mul wsize entries s bit = some next ∧
      next.Tells Holds wsize (2 * exponent + bit.toNat) := by
  obtain ⟨⟨front, window, holds, sum, small, top, set⟩, room, leading, empty⟩ := tells
  rw [Powers.step]
  dsimp only
  split_ifs with skipped squared full
  · obtain ⟨rfl, phase⟩ := skipped
    have zero := leading phase
    refine ⟨s, rfl, ⟨front, window, holds, ?_, small, top, set⟩, room, ?_, empty⟩
    · rw [← sum, zero]
      rfl
    · intro _
      rw [zero]
      rfl
  · obtain ⟨rfl, phase⟩ := squared
    have none : s.nbits = 0 := empty (by rw [phase]; decide)
    rw [none, pow_zero] at small
    obtain rfl := Nat.lt_one_iff.mp small
    obtain ⟨z, made, holds⟩ := adds.mul holds holds
    refine ⟨{ s with x := z }, by rw [made]; rfl, ⟨front + front, 0, holds, ?_, ?_, top, set⟩, room,
      ?_, empty⟩
    · rw [sum, none, Bool.toNat_false]
      ring
    · exact Nat.two_pow_pos _
    · intro other
      exact absurd (phase.symm.trans other) (by decide)
  all_goals
    have shift : wsize - s.nbits = wsize - (s.nbits + 1) + 1 := by omega
    have joined : s.wbits ||| bit.toNat <<< (wsize - (s.nbits + 1)) =
        (2 * window + bit.toNat) * 2 ^ (wsize - (s.nbits + 1)) := by
      have low : bit.toNat <<< (wsize - (s.nbits + 1)) < 2 ^ (wsize - s.nbits) := by
        rw [Nat.shiftLeft_eq, shift, pow_succ']
        exact Nat.mul_lt_mul_of_pos_right (Nat.lt_succ_of_le (Bool.toNat_le bit))
          (Nat.two_pow_pos _)
      rw [top, ← Nat.shiftLeft_eq, ← Nat.shiftLeft_add_eq_or_of_lt low, Nat.shiftLeft_eq,
        Nat.shiftLeft_eq, shift, pow_succ']
      ring
    have digit : 2 * exponent + bit.toNat =
        front * 2 ^ (s.nbits + 1) + (2 * window + bit.toNat) := by
      rw [sum, pow_succ']
      ring
    have bound : 2 * window + bit.toNat < 2 ^ (s.nbits + 1) := by
      have le := Bool.toNat_le bit
      rw [pow_succ']
      omega
    have high : 2 ^ (s.nbits + 1) ≤ 2 * (2 * window + bit.toNat) := by
      rcases eq_or_ne s.phase .window with phase | other
      · have low := set phase
        rw [pow_succ']
        omega
      · have on : bit = true := by
          cases bit with
          | true => rfl
          | false =>
            cases phase : s.phase with
            | leading => exact absurd ⟨rfl, phase⟩ skipped
            | between => exact absurd ⟨rfl, phase⟩ squared
            | window => exact absurd phase other
        rw [empty other, on, Bool.toNat_true]
        omega
  · rw [full, Nat.sub_self, pow_zero, mul_one] at joined
    have half : 2 * 2 ^ (wsize - 1) = 2 ^ wsize := by
      rw [← pow_succ', Nat.sub_add_cancel (Nat.lt_of_le_of_lt (Nat.zero_le _) room)]
    rw [full] at digit bound high
    obtain ⟨squared, squares, holdsSquared⟩ := adds.squares wsize holds
    obtain ⟨entry, found, holdsEntry⟩ := powers (2 * window + bit.toNat) (by omega) bound
    obtain ⟨z, made, holdsZ⟩ := adds.mul holdsSquared holdsEntry
    refine ⟨⟨z, 0, 0, .between⟩, ?_, ⟨_, 0, holdsZ, ?_, Nat.one_pos, (Nat.zero_mul _).symm, ?_⟩,
      Nat.lt_of_le_of_lt (Nat.zero_le _) room, ?_, fun _ => rfl⟩
    · rw [full, Nat.sub_self, joined]
      simp only [squares, found, made, Option.bind_eq_bind, Option.bind_some]
    · rw [digit, pow_zero, mul_one, Nat.add_zero]
    · intro other
      cases other
    · intro other
      cases other
  · refine ⟨_, rfl, ⟨front, 2 * window + bit.toNat, holds, digit, bound, joined, fun _ => high⟩, ?_, ?_,
      ?_⟩
    · exact Nat.lt_of_le_of_ne room full
    · intro other
      cases other
    · intro other
      exact absurd rfl other

theorem Window.Tells.steps (tells : s.Tells Holds wsize exponent)
    (adds : AddsExponents mul copy Holds)
    (powers : ∀ wbits, 2 ^ (wsize - 1) ≤ wbits → wbits < 2 ^ wsize →
      ∃ z, powerAt wsize entries wbits = some z ∧ Holds z wbits) (bits : List Bool) :
    ∃ last, Powers.steps mul wsize entries s bits = some last ∧ last.Tells Holds wsize
      (bits.foldl (fun number bit => 2 * number + bit.toNat) exponent) := by
  induction bits generalizing s exponent with
  | nil => exact ⟨s, rfl, tells⟩
  | cons bit bits ih =>
    obtain ⟨next, stepped, tellsNext⟩ := tells.step adds powers bit
    obtain ⟨last, later, tellsLast⟩ := ih tellsNext
    refine ⟨last, ?_, tellsLast⟩
    rw [Powers.steps, stepped]
    exact later

/-- The bits of a window are taken from its top. -/
theorem AddsExponents.remaining (adds : AddsExponents mul copy Holds) (one : Holds base 1)
    (count : ℕ) {front window : ℕ} (holds : Holds x front) (room : count ≤ wsize) :
    ∃ z, Powers.remaining mul wsize base count x (window * 2 ^ (wsize - count)) = some z ∧
      Holds z (front * 2 ^ count + window % 2 ^ count) := by
  induction count generalizing x front with
  | zero =>
    refine ⟨x, rfl, ?_⟩
    rwa [pow_zero, mul_one, Nat.mod_one, Nat.add_zero]
  | succ count ih =>
    obtain ⟨squared, made, holdsSquared⟩ := adds.mul holds holds
    have shift : wsize - count = wsize - (count + 1) + 1 := by omega
    have shifted : (window * 2 ^ (wsize - (count + 1))) <<< 1 = window * 2 ^ (wsize - count) := by
      rw [Nat.shiftLeft_eq, shift, pow_succ]
      ring
    have tested : (window * 2 ^ (wsize - count) &&& 1 <<< wsize ≠ 0) ↔
        window.testBit count = true := by
      rw [Nat.shiftLeft_eq, one_mul, Nat.and_two_pow, Nat.testBit_mul_two_pow]
      have back : wsize - (wsize - count) = count := by omega
      have inside : wsize - count ≤ wsize := Nat.sub_le _ _
      rw [back]
      simp [inside]
    have next : ∃ next, (if window * 2 ^ (wsize - count) &&& 1 <<< wsize ≠ 0 then
        mul squared base else some squared) = some next ∧
          Holds next (front + front + (window.testBit count).toNat) := by
      split_ifs with set
      · rw [tested.mp set, Bool.toNat_true]
        exact adds.mul holdsSquared one
      · rw [Bool.eq_false_of_not_eq_true fun on => set (tested.mpr on), Bool.toNat_false]
        exact ⟨squared, rfl, holdsSquared⟩
    obtain ⟨next, chosen, holdsNext⟩ := next
    obtain ⟨z, later, holdsZ⟩ := ih holdsNext (Nat.le_of_succ_le room)
    refine ⟨z, ?_, ?_⟩
    · rw [Powers.remaining, made, Option.bind_some, shifted, chosen]
      exact later
    · have split : window % 2 ^ (count + 1) =
          window % 2 ^ count + 2 ^ count * (window.testBit count).toNat := by
        rw [Nat.mod_pow_succ, Nat.toNat_testBit]
      have same : (front + front + (window.testBit count).toNat) * 2 ^ count + window % 2 ^ count =
          front * 2 ^ (count + 1) + window % 2 ^ (count + 1) := by
        rw [split, pow_succ]
        ring
      rwa [same] at holdsZ

/-- What comes out is the power that the bits tell. -/
theorem AddsExponents.power (adds : AddsExponents mul copy Holds) {one : α} (zero : Holds one 0)
    (first : Holds base 1) (wide : 0 < wsize) (bits : List Bool) :
    ∃ z, Powers.power mul copy wsize one base bits = some z ∧ Holds z (ofBits bits) := by
  obtain ⟨entries, made, powers⟩ := adds.table first wide
  have start : (⟨one, 0, 0, .leading⟩ : Window α).Tells Holds wsize 0 :=
    ⟨⟨0, 0, zero, rfl, Nat.one_pos, (Nat.zero_mul _).symm, nofun⟩, wide, fun _ => rfl, fun _ => rfl⟩
  obtain ⟨last, stepped, ⟨front, window, holds, sum, small, top, _⟩, room, _, _⟩ :=
    start.steps adds powers bits
  obtain ⟨z, finished, holdsZ⟩ :=
    @AddsExponents.remaining _ _ _ _ wsize _ _ adds first last.nbits front window holds room.le
  refine ⟨z, ?_, ?_⟩
  · rw [Powers.power]
    simp only [made, stepped, top, finished, Option.bind_eq_bind, Option.bind_some]
  · rwa [Nat.mod_eq_of_lt small, ← sum] at holdsZ

end Exponents

end Powers
