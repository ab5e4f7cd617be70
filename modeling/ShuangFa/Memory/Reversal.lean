import ShuangFa.Memory.Store

/-! # Reversal in place

A loop exchanges the first and the last byte of a run and goes on with the bytes between them. It
leaves the run in the reverse order, and the other bytes as they were.
-/

namespace Memory

namespace View

/-- Exchange two bytes: the first is kept while the second is stored in its place. -/
def exchange (memory : View) (first last : ℕ) : View :=
  (memory.store first [memory last]).store last [memory first]

/-- The loop from both ends of a run. -/
def reverseLoop (memory : View) (first last : ℕ) : View :=
  if first < last then (memory.exchange first last).reverseLoop (first + 1) (last - 1) else memory
termination_by last - first

variable {memory : View} {first last address : ℕ}

theorem store_singleton (memory : View) (offset : ℕ) (byte : UInt8) (address : ℕ) :
    memory.store offset [byte] address = if address = offset then byte else memory address := by
  rw [store, List.length_singleton]
  by_cases same : address = offset
  · subst same
    rw [if_pos (by omega), if_pos rfl, Nat.sub_self]
    rfl
  · rw [if_neg (by omega), if_neg same]

theorem exchange_eq (memory : View) (first last address : ℕ) :
    memory.exchange first last address =
      if address = last then memory first
      else if address = first then memory last else memory address := by
  rw [exchange, store_singleton, store_singleton]

/-- Every byte of the run comes from the other side. -/
theorem reverseLoop_eq (memory : View) (first last address : ℕ) :
    memory.reverseLoop first last address =
      if first ≤ address ∧ address ≤ last then memory (first + last - address)
      else memory address := by
  induction memory, first, last using reverseLoop.induct with
  | case1 memory first last apart ih =>
    rw [reverseLoop, if_pos apart, ih]
    split_ifs with inside around around
    · rw [exchange_eq, if_neg (by omega), if_neg (by omega)]
      congr 1
      omega
    · omega
    · rw [exchange_eq]
      split_ifs with at_last at_first
      · congr 1
        omega
      · congr 1
        omega
      · omega
    · rw [exchange_eq, if_neg (by omega), if_neg (by omega)]
  | case2 memory first last met =>
    rw [reverseLoop, if_neg met]
    split_ifs with inside
    · congr 1
      omega
    · rfl

/-- The run is read backwards, and what is in front of it and behind it stays. -/
theorem read_reverseLoop (memory : View) (first length : ℕ) :
    (memory.reverseLoop first (first + length - 1)).read first length =
      (memory.read first length).reverse := by
  apply List.ext_getElem
  · rw [List.length_reverse, read_length, read_length]
  · intro index left right
    rw [read_length] at left
    rw [read_getElem, List.getElem_reverse, read_getElem, reverseLoop_eq, if_pos (by omega)]
    congr 1
    rw [read_length]
    omega

theorem read_reverseLoop_apart {offset length : ℕ}
    (apart : offset + length ≤ first ∨ last < offset) :
    (memory.reverseLoop first last).read offset length = memory.read offset length := by
  apply read_congr
  intro index inside
  rw [reverseLoop_eq, if_neg (by omega)]

/-- A part of a store is reversed where it is. -/
theorem read_reverseLoop_store (memory : View) (front back : List UInt8) {middle : List UInt8}
    (some_byte : middle ≠ []) :
    ((memory.store 0 (front ++ middle ++ back)).reverseLoop front.length
        (front.length + middle.length - 1)).read 0 (front ++ middle ++ back).length =
      front ++ middle.reverse ++ back := by
  have length := List.length_pos_iff.mpr some_byte
  have parts (part : List UInt8) (before after : List UInt8)
      (split : front ++ middle ++ back = before ++ part ++ after) :
      (memory.store 0 (front ++ middle ++ back)).read before.length part.length = part := by
    rw [split]
    have stored := read_store_part memory 0 before part after
    rwa [Nat.zero_add] at stored
  rw [List.length_append, List.length_append, read_add, read_add, Nat.zero_add, Nat.zero_add,
    read_reverseLoop_apart (.inl (by omega)), read_reverseLoop,
    read_reverseLoop_apart (.inr (by omega)), parts middle front back rfl]
  congr 1
  · congr 1
    exact parts front [] (middle ++ back) (List.append_assoc ..)
  · rw [← List.length_append]
    exact parts back (front ++ middle) [] (List.append_nil _).symm

end View

end Memory
