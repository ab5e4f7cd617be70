import Mathlib.Data.List.Basic
import Mathlib.Tactic.Ring

/-! # Byte arrays of a fixed size

An array carries its size in its type, so no operation can change it. Reads through a pointer see
a whole memory, a function from offsets to bytes; the bytes behind the end of an array belong to the
environment.
-/

namespace Memory

/-- A memory seen from a pointer: the byte at each offset. -/
abbrev View := ℕ → UInt8

/-- The `length` bytes from `offset` on. -/
def View.read (memory : View) (offset length : ℕ) : List UInt8 :=
  (List.range length).map fun index => memory (offset + index)

/-- The memory seen from a pointer that is `offset` bytes further. -/
def View.shift (memory : View) (offset : ℕ) : View := fun index => memory (offset + index)

/-- The memory that starts with `bytes`. -/
def View.ofList (bytes : List UInt8) : View := fun index => bytes.getD index 0

namespace View

variable (memory : View) (offset length : ℕ)

@[simp] theorem read_length : (memory.read offset length).length = length := by
  simp only [read, List.length_map, List.length_range]

@[simp] theorem read_zero : memory.read offset 0 = [] := rfl

theorem read_shift (first : ℕ) :
    (memory.shift first).read offset length = memory.read (first + offset) length := by
  simp only [read, shift, Nat.add_assoc]

theorem read_getElem (index : ℕ) (bound : index < (memory.read offset length).length) :
    (memory.read offset length)[index] = memory (offset + index) := by
  simp only [read, List.getElem_map, List.getElem_range]

theorem read_getD {index : ℕ} (inside : index < length) :
    (memory.read offset length).getD index 0 = memory (offset + index) := by
  rw [List.getD_eq_getElem?_getD, List.getElem?_eq_getElem (by rwa [read_length]), read_getElem,
    Option.getD_some]

/-- The beginning of a read is a read. -/
theorem take_read (count : ℕ) :
    (memory.read offset length).take count = memory.read offset (min count length) := by
  rw [read, ← List.map_take, List.take_range, read]

/-- Two adjacent reads are one read. -/
theorem read_add (first second : ℕ) :
    memory.read offset (first + second) =
      memory.read offset first ++ memory.read (offset + first) second := by
  simp only [read, List.range_add, List.map_append, List.map_map, Function.comp_def, Nat.add_assoc]

/-- The bytes in front of the end of a memory that starts with a list. -/
theorem read_ofList (bytes : List UInt8) {length : ℕ} (inside : length ≤ bytes.length) :
    (ofList bytes).read 0 length = bytes.take length := by
  apply List.ext_getElem
  · rw [read_length, List.length_take_of_le inside]
  · intro index left _
    rw [read_length] at left
    rw [read_getElem, ofList, Nat.zero_add, List.getElem_take,
      List.getD_eq_getElem?_getD, List.getElem?_eq_getElem (by omega), Option.getD_some]

/-- A part of a read is a read. -/
theorem read_part {offset length whole : ℕ} (inside : offset + length ≤ whole) :
    ((memory.read 0 whole).drop offset).take length = memory.read offset length := by
  obtain ⟨rest, rfl⟩ := Nat.exists_eq_add_of_le inside
  rw [read_add, read_add, Nat.zero_add, Nat.zero_add, List.append_assoc,
    List.drop_left' (read_length ..), List.take_left' (read_length ..)]

end View

/-- An array of exactly `n` bytes. -/
structure FixedBuffer (n : ℕ) where
  bytes : List UInt8
  size_eq : bytes.length = n
deriving DecidableEq

namespace FixedBuffer

variable {n : ℕ}

/-- An array is determined by its bytes. -/
@[ext] theorem ext {first second : FixedBuffer n} (same : first.bytes = second.bytes) :
    first = second := by
  cases first
  cases second
  cases same
  rfl

/-- The zero-initialised array. -/
def zeros (n : ℕ) : FixedBuffer n := ⟨List.replicate n 0, List.length_replicate⟩

instance : Inhabited (FixedBuffer n) := ⟨zeros n⟩

/-- The array as the memory behind its own pointer; `past` are the bytes behind its end. -/
def view (buffer : FixedBuffer n) (past : View) : View := fun index =>
  if bound : index < n then buffer.bytes.get ⟨index, by rw [buffer.size_eq]; exact bound⟩
  else past (index - n)

/-- An array read out of a memory. -/
def ofView (memory : View) (offset n : ℕ) : FixedBuffer n :=
  ⟨memory.read offset n, memory.read_length offset n⟩

/-- Store `source` from `offset` on; what would fall behind the end is cut off. -/
def overlay (buffer : FixedBuffer n) (offset : ℕ) (source : List UInt8) : FixedBuffer n :=
  ⟨(buffer.bytes.take offset ++ source ++ buffer.bytes.drop (offset + source.length)).take n, by
    have size := buffer.size_eq
    simp only [List.length_take, List.length_append, List.length_drop]
    omega⟩

section Views

variable (buffer : FixedBuffer n) (past : View)

/-- Inside the array a view reads the array's own bytes. -/
theorem view_inside (index : ℕ) (bound : index < n) :
    buffer.view past index = buffer.bytes.get ⟨index, by rw [buffer.size_eq]; exact bound⟩ := by
  simp only [view, bound, ↓reduceDIte, List.get_eq_getElem]

/-- Every memory is an array with the bytes behind it. -/
theorem exists_view (n : ℕ) (memory : View) :
    ∃ (buffer : FixedBuffer n) (past : View), buffer.view past = memory := by
  refine ⟨.ofView memory 0 n, memory.shift n, ?_⟩
  funext index
  by_cases inside : index < n
  · rw [view, dif_pos inside, List.get_eq_getElem]
    exact (View.read_getElem ..).trans (congrArg memory (Nat.zero_add index))
  · rw [view, dif_neg inside, View.shift, Nat.add_sub_of_le (Nat.le_of_not_lt inside)]

/-- A read that stays inside the array does not depend on what is behind it. -/
theorem read_inside (offset length : ℕ) (bound : offset + length ≤ n) :
    (buffer.view past).read offset length = (buffer.bytes.drop offset).take length := by
  have size := buffer.size_eq
  apply List.ext_getElem
  · simp only [View.read_length, List.length_take, List.length_drop]
    omega
  · intro index left _
    rw [View.read_length] at left
    rw [View.read_getElem, buffer.view_inside past _ (by omega)]
    simp only [List.get_eq_getElem, List.getElem_take, List.getElem_drop]

end Views

section Overlays

variable (buffer : FixedBuffer n) (offset : ℕ) (source : List UInt8)

/-- A store that fits replaces exactly the bytes it covers. -/
theorem overlay_bytes (fits : offset + source.length ≤ n) :
    (buffer.overlay offset source).bytes =
      buffer.bytes.take offset ++ source ++ buffer.bytes.drop (offset + source.length) := by
  have size := buffer.size_eq
  apply List.take_of_length_le
  simp only [List.length_append, List.length_take, List.length_drop]
  omega

/-- A store that fits leaves the prefix in front of it and then shows the stored bytes. -/
theorem take_overlay (fits : offset + source.length ≤ n) :
    (buffer.overlay offset source).bytes.take (offset + source.length) =
      buffer.bytes.take offset ++ source := by
  have size := buffer.size_eq
  rw [buffer.overlay_bytes offset source fits]
  apply List.take_left'
  simp only [List.length_append, List.length_take]
  omega

theorem take_overlay_zero (fits : source.length ≤ n) :
    (buffer.overlay 0 source).bytes.take source.length = source := by
  simpa using buffer.take_overlay 0 source (by omega)

theorem take_overlay_of_le (length : ℕ) (before : length ≤ offset) (fits : offset ≤ n) :
    (buffer.overlay offset source).bytes.take length = buffer.bytes.take length := by
  have size := buffer.size_eq
  simp only [overlay, List.take_take, List.append_assoc]
  rw [Nat.min_eq_left (by omega), List.take_append_of_le_length, List.take_take,
    Nat.min_eq_left before]
  rw [List.length_take]
  omega

/-- Two adjacent stores show both parts, the one in front stored last. -/
theorem take_overlay_overlay (front : List UInt8) (fits : front.length + source.length ≤ n) :
    ((buffer.overlay front.length source).overlay 0 front).bytes.take
      (front.length + source.length) = front ++ source := by
  have size := buffer.size_eq
  have behind : ((buffer.overlay front.length source).bytes.drop front.length).take source.length =
      source := by
    rw [List.take_drop, buffer.take_overlay _ _ fits]
    exact List.drop_left' (List.length_take_of_le (by omega))
  rw [overlay_bytes _ 0 front (by omega), List.take_zero, List.nil_append, Nat.zero_add,
    List.take_length_add_append, behind]

/-- A store of the array's own bytes changes nothing. -/
theorem overlay_zero_take (length : ℕ) : buffer.overlay 0 (buffer.bytes.take length) = buffer := by
  have size := buffer.size_eq
  apply ext
  rw [buffer.overlay_bytes 0 _ (by rw [List.length_take]; omega), List.take_zero, List.nil_append,
    Nat.zero_add, List.length_take]
  rcases Nat.le_total length buffer.bytes.length with inside | past
  · rw [Nat.min_eq_left inside, List.take_append_drop]
  · rw [Nat.min_eq_right past, List.take_of_length_le past, List.drop_length, List.append_nil]

end Overlays

end FixedBuffer

end Memory
