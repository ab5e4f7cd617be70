import Mathlib.Data.List.GetD
import ShuangFa.Memory.FixedBuffer

/-! # Stores to a flat memory

A store replaces a run of bytes and leaves the others. A read that lies in it shows the stored
bytes, and a read apart from it what was there before. A loop that stores byte after byte is one
store, where no byte depends on those stored before it.
-/

namespace Memory

namespace View

/-- Store `source` from `offset` on. -/
def store (memory : View) (offset : ℕ) (source : List UInt8) : View := fun address =>
  if offset ≤ address ∧ address < offset + source.length then source.getD (address - offset) 0
  else memory address

variable {memory other : View} {offset length start : ℕ} {source : List UInt8}

/-- A read depends on the bytes it covers only. -/
theorem read_congr (same : ∀ index < length, memory (offset + index) = other (offset + index)) :
    memory.read offset length = other.read offset length := by
  rw [read, read]
  exact List.map_congr_left fun index member => same index (List.mem_range.mp member)

/-- The memory behind a list. -/
theorem shift_ofList_append (first second : List UInt8) :
    (ofList (first ++ second)).shift first.length = ofList second := by
  funext index
  rw [shift, ofList, List.getD_append_right _ _ _ _ (Nat.le_add_right ..), Nat.add_sub_cancel_left]
  rfl

/-- A read apart from a store shows what was there. -/
theorem read_store_apart (apart : offset + length ≤ start ∨ start + source.length ≤ offset) :
    (memory.store start source).read offset length = memory.read offset length := by
  apply read_congr
  intro index inside
  exact if_neg (by omega)

/-- A read inside a store shows what was stored. -/
theorem read_store_within (after : start ≤ offset)
    (before : offset + length ≤ start + source.length) :
    (memory.store start source).read offset length = (source.drop (offset - start)).take length := by
  apply List.ext_getElem
  · rw [read_length, List.length_take_of_le]
    rw [List.length_drop]
    omega
  · intro index left right
    rw [read_length] at left
    rw [read_getElem, List.getElem_take, List.getElem_drop, store, if_pos (by omega),
      List.getD_eq_getElem?_getD, List.getElem?_eq_getElem (by omega), Option.getD_some]
    congr 1
    omega

/-- A read of a part of a store. -/
theorem read_store_part (memory : View) (offset : ℕ) (front middle back : List UInt8) :
    (memory.store offset (front ++ middle ++ back)).read (offset + front.length) middle.length =
      middle := by
  rw [read_store_within (Nat.le_add_right ..) (by simp only [List.length_append]; omega),
    Nat.add_sub_cancel_left, List.append_assoc, List.drop_left, List.take_left]

/-- A read of all of a store. -/
theorem read_store_self (memory : View) (offset : ℕ) (source : List UInt8) :
    (memory.store offset source).read offset source.length = source := by
  rw [read_store_within (Nat.le_refl _) (Nat.le_refl _), Nat.sub_self, List.drop_zero,
    List.take_length]

/-- A byte apart from a store is what was there. -/
theorem store_apart {address : ℕ} (apart : address < start ∨ start + source.length ≤ address) :
    memory.store start source address = memory address := if_neg (by omega)

@[simp] theorem store_nil (memory : View) (offset : ℕ) : memory.store offset [] = memory := by
  funext address
  apply store_apart
  rw [List.length_nil]
  omega

/-- Two stores one behind the other are one store. -/
theorem store_append (memory : View) (offset : ℕ) (first second : List UInt8) :
    memory.store offset (first ++ second) =
      (memory.store offset first).store (offset + first.length) second := by
  funext address
  simp only [store, List.length_append]
  rcases Nat.lt_or_ge address (offset + first.length) with before | behind
  · rw [if_neg (show ¬ (offset + first.length ≤ address ∧ _) by omega)]
    by_cases inside : offset ≤ address
    · rw [if_pos (by omega), if_pos (by omega), List.getD_append _ _ _ _ (by omega)]
    · rw [if_neg (by omega), if_neg (by omega)]
  · by_cases inside : address < offset + (first.length + second.length)
    · rw [if_pos (by omega), if_pos (by omega), List.getD_append_right _ _ _ _ (by omega),
        Nat.sub_sub]
    · rw [if_neg (by omega), if_neg (by omega), if_neg (by omega)]

/-- The second part of a store, seen from the place where it begins. -/
theorem shift_store_append (memory : View) (first second : List UInt8) :
    (memory.store 0 (first ++ second)).shift first.length =
      (memory.shift first.length).store 0 second := by
  funext index
  rw [store_append, Nat.zero_add]
  rcases Nat.lt_or_ge index second.length with inside | behind
  · simp only [shift, store]
    rw [if_pos (by omega), if_pos (by omega), Nat.add_sub_cancel_left, Nat.sub_zero]
  · rw [shift, store_apart (by omega), store_apart (by omega), store_apart (by omega), shift]

/-- A store of as many bytes at the same place leaves nothing of the one before. -/
theorem store_store (memory : View) (offset : ℕ) {first second : List UInt8}
    (size : first.length = second.length) :
    (memory.store offset first).store offset second = memory.store offset second := by
  funext address
  simp only [store, size]
  split_ifs
  · rfl
  · rfl

/-- The byte in front of the end of a store, or in front of the store where it stores nothing. -/
theorem store_last (memory : View) (offset : ℕ) (source : List UInt8) :
    memory.store offset source (offset + source.length - 1) =
      source.getLastD (memory (offset - 1)) := by
  rcases List.eq_nil_or_concat source with rfl | ⟨front, last, rfl⟩
  · rw [store_nil]
    rfl
  · rw [List.concat_eq_append, List.getLastD_concat, List.length_append, List.length_singleton, store,
      if_pos (by rw [List.length_append, List.length_singleton]; omega),
      List.getD_append_right _ _ _ _ (by omega)]
    rw [show offset + (front.length + 1) - 1 - offset - front.length = 0 by omega]
    rfl

/-- A store of what is there changes nothing. -/
theorem store_read (memory : View) (offset length : ℕ) :
    memory.store offset (memory.read offset length) = memory := by
  funext address
  rw [store]
  split_ifs with inside
  · rw [read_length] at inside
    have bound : address - offset < (memory.read offset length).length := by
      rw [read_length]
      omega
    rw [List.getD_eq_getElem _ _ bound, read_getElem, Nat.add_sub_cancel' inside.1]
  · rfl

/-- A store shows at an address what it stores there, or what the memory shows there. -/
theorem store_congr {address : ℕ} (same : memory address = other address) :
    memory.store start source address = other.store start source address := by
  simp only [store, same]

/-- The loop that stores a byte at each offset from `first` on, `count` times; the byte may depend
on what was stored before. -/
def fill (start : ℕ) (value : View → ℕ → UInt8) : ℕ → ℕ → View → View
  | _, 0, memory => memory
  | first, count + 1, memory =>
    fill start value (first + 1) count (memory.store (start + first) [value memory first])

@[simp] theorem fill_zero (memory : View) (start first : ℕ) (value : View → ℕ → UInt8) :
    memory.fill start value first 0 = memory := rfl

/-- Where no byte depends on the ones stored before it, the loop is one store. -/
theorem fill_eq_store {value : View → ℕ → UInt8} {first count : ℕ}
    (stable : ∀ other index, first ≤ index → index < first + count →
      (∀ address, address < start + first ∨ start + index ≤ address →
        other address = memory address) → value other index = value memory index) :
    memory.fill start value first count =
      memory.store (start + first) ((List.range' first count).map (value memory)) := by
  induction count generalizing first memory with
  | zero =>
    rw [fill_zero, List.range'_zero, List.map_nil, store_nil]
  | succ count ih =>
    have kept (address : ℕ) (apart : address < start + first ∨ start + (first + 1) ≤ address) :
        memory.store (start + first) [value memory first] address = memory address := by
      apply store_apart
      rw [List.length_singleton]
      omega
    have settled (index : ℕ) (after : first + 1 ≤ index) (inside : index < first + (count + 1)) :
        value (memory.store (start + first) [value memory first]) index = value memory index := by
      apply stable _ _ (by omega) inside
      intro address apart
      exact kept address (by omega)
    have values : (List.range' (first + 1) count).map
        (value (memory.store (start + first) [value memory first])) =
        (List.range' (first + 1) count).map (value memory) := by
      apply List.map_congr_left
      intro index member
      rw [List.mem_range'_1] at member
      exact settled index member.1 (by omega)
    rw [fill, ih, values, List.range'_succ, List.map_cons]
    · exact (store_append memory (start + first) [value memory first] _).symm
    · intro other index after inside same
      rw [settled index after (by omega)]
      apply stable _ _ (by omega) (by omega)
      intro address apart
      rw [same address (by omega)]
      exact kept address (by omega)

end View

end Memory
