import ShuangFa.Memory.FixedBuffer

/-! # Checked accesses to an array

A load or a store through a pointer is defined inside the array only. A loop that rewrites an array
has written the bytes in front of its pointer, and finds the others as they were.
-/

namespace Memory

/-- A byte is one of 256. -/
theorem forall_byte {P : UInt8 → Prop} (all : ∀ n : Fin 256, P (UInt8.ofNat n)) (ch : UInt8) : P ch := by
  have byte := all ⟨ch.toNat, ch.toNat_lt⟩
  rwa [UInt8.ofNat_toNat] at byte

/-- The bytes of a string with the zero that ends it. -/
def terminated (text : List UInt8) : List UInt8 := text ++ [0]

/-- A string: no zero in front of the one that ends it. -/
structure CString where
  bytes : List UInt8
  nonzero : 0 ∉ bytes
deriving DecidableEq

/-- The array that has just room for a string. -/
def CString.memory (text : CString) : FixedBuffer (text.bytes.length + 1) :=
  ⟨terminated text.bytes, List.length_append⟩

theorem CString.memory_bytes (text : CString) : text.memory.bytes = text.bytes ++ [0] := rfl

theorem notMem_takeWhile_ne_zero (bytes : List UInt8) : 0 ∉ bytes.takeWhile (· ≠ 0) := by
  intro member
  have kept := List.all_eq_true.mp (List.all_takeWhile (p := fun byte => decide (byte ≠ 0))
    (l := bytes)) 0 member
  exact of_decide_eq_true kept rfl

theorem ne_zero_of_notMem {text : List UInt8} (nonzero : 0 ∉ text) :
    ∀ byte ∈ text, decide (byte ≠ 0) = true := by
  intro byte member
  apply decide_eq_true
  rintro rfl
  exact nonzero member

/-- A text ends at the zero behind it. -/
theorem takeWhile_ne_zero_append {text : List UInt8} (nonzero : 0 ∉ text) (behind : List UInt8) :
    (text ++ 0 :: behind).takeWhile (· ≠ 0) = text := by
  rw [List.takeWhile_append_of_pos (ne_zero_of_notMem nonzero),
    List.takeWhile_cons_of_neg (by decide), List.append_nil]

/-- The string that bytes begin with. -/
def CString.ofBytes (bytes : List UInt8) : CString :=
  ⟨bytes.takeWhile (· ≠ 0), notMem_takeWhile_ne_zero bytes⟩

namespace FixedBuffer

variable {n : ℕ}

/-- The byte at `offset`. -/
def load? (buffer : FixedBuffer n) (offset : ℕ) : Option UInt8 := buffer.bytes[offset]?

/-- Store `source` from `offset` on. -/
def store? (buffer : FixedBuffer n) (offset : ℕ) (source : List UInt8) : Option (FixedBuffer n) :=
  if offset + source.length ≤ n then some (buffer.overlay offset source) else none

/-- The string that an array holds, if it ends inside the array. -/
def text? (buffer : FixedBuffer n) : Option (List UInt8) :=
  if 0 ∈ buffer.bytes then some (buffer.bytes.takeWhile (· ≠ 0)) else none

/-- The string that an array holds, with the fact that it is one. -/
def string? (buffer : FixedBuffer n) : Option CString :=
  if 0 ∈ buffer.bytes then some (.ofBytes buffer.bytes) else none

variable {buffer : FixedBuffer n} {front old behind source : List UInt8}

/-- A load behind what is written. -/
theorem load?_behind (split : buffer.bytes = front ++ behind) (offset : ℕ) :
    buffer.load? (front.length + offset) = behind[offset]? := by
  rw [load?, split, List.getElem?_append_right (Nat.le_add_right ..), Nat.add_sub_cancel_left]

/-- A store replaces as many bytes as it has. -/
theorem store?_behind (split : buffer.bytes = front ++ (old ++ behind))
    (size : old.length = source.length) : ∃ stored,
      buffer.store? front.length source = some stored ∧ stored.bytes = front ++ (source ++ behind) := by
  have fits : front.length + source.length ≤ n := by
    have whole := buffer.size_eq
    rw [split, List.length_append, List.length_append] at whole
    omega
  refine ⟨_, if_pos fits, ?_⟩
  rw [overlay_bytes _ _ _ fits, split, List.take_left, ← size, ← List.append_assoc front old,
    ← List.length_append, List.drop_left, List.append_assoc]

/-- What lies behind a store. -/
theorem drop_overlay {offset length : ℕ} (fits : offset + source.length ≤ n)
    (apart : offset + source.length ≤ length) :
    (buffer.overlay offset source).bytes.drop length = buffer.bytes.drop length := by
  have size := buffer.size_eq
  have front : (buffer.bytes.take offset ++ source).length = offset + source.length := by
    rw [List.length_append, List.length_take_of_le (by omega)]
  rw [overlay_bytes _ _ _ fits, List.drop_append, List.drop_eq_nil_of_le (by omega), front,
    List.drop_drop, Nat.add_sub_cancel' apart, List.nil_append]

/-- An array that holds a text and a zero behind it. -/
theorem text?_of_split (split : buffer.bytes = source ++ 0 :: behind) (nonzero : 0 ∉ source) :
    buffer.text? = some source := by
  rw [text?, split, if_pos (List.mem_append_right _ (List.mem_cons_self ..)),
    takeWhile_ne_zero_append nonzero]

/-- The string of an array has no zero, and there is room for its end. -/
theorem of_text?_eq_some (holds : buffer.text? = some source) : 0 ∉ source ∧ source.length < n := by
  rw [text?] at holds
  split at holds
  · rename_i zero
    have size := buffer.size_eq
    have same := Option.some.inj holds
    have front := List.takeWhile_prefix (fun byte => decide (byte ≠ 0)) (l := buffer.bytes)
    rw [same] at front
    have nonzero : 0 ∉ source := same ▸ notMem_takeWhile_ne_zero _
    refine ⟨nonzero, lt_of_le_of_ne (size ▸ front.length_le) fun whole => ?_⟩
    rw [← front.eq_of_length (whole.trans size.symm)] at zero
    exact nonzero zero
  · cases holds

/-- A text that is stored without its zero is the string of the array where the zero is there. -/
theorem text?_overlay_iff (nonzero : 0 ∉ source) (room : source.length < n) :
    (buffer.overlay 0 source).text? = some source ↔ buffer.bytes[source.length]? = some 0 := by
  have size := buffer.size_eq
  have inside : source.length < buffer.bytes.length := by omega
  have split : (buffer.overlay 0 source).bytes =
      source ++ buffer.bytes[source.length] :: buffer.bytes.drop (source.length + 1) := by
    rw [overlay_bytes _ _ _ (by omega), List.take_zero, List.nil_append, Nat.zero_add,
      List.drop_eq_getElem_cons inside]
  rw [List.getElem?_eq_getElem inside, Option.some.injEq]
  constructor
  · intro whole
    rw [text?, split] at whole
    split at whole
    · have same := Option.some.inj whole
      rw [List.takeWhile_append_of_pos (ne_zero_of_notMem nonzero), List.append_right_eq_self,
        List.takeWhile_cons] at same
      split at same
      · cases same
      · rename_i stopped
        exact of_not_not fun other => stopped (decide_eq_true other)
    · cases whole
  · intro zero
    rw [zero] at split
    exact text?_of_split split nonzero

/-- A store fits where there are enough bytes behind what is written. -/
theorem store?_room (split : buffer.bytes = front ++ behind) (room : source.length ≤ behind.length) :
    ∃ stored, buffer.store? front.length source = some stored ∧
      stored.bytes = front ++ (source ++ behind.drop source.length) := by
  rw [← List.take_append_drop source.length behind] at split
  exact store?_behind split (List.length_take_of_le room)

end FixedBuffer

end Memory
