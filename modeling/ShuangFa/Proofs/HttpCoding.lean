import Mathlib.Data.List.Basic
import ShuangFa.Coding.Escapes
import ShuangFa.Model.HttpCoding

/-! # `httpdecode` in place

The loop writes at most as much as it has read. What it has written is in front of its pointer, and
behind it lies what it has not read yet, so the whole loop is the reading of a text that trusts every
percent sign.
-/

namespace ShuangFa

open Memory Coding

/-- The value of a hexadecimal digit. -/
def hexValue (ch : UInt8) : Option UInt8 :=
  if 48 ≤ ch ∧ ch ≤ 57 then some (ch - 48)
  else if 65 ≤ ch ∧ ch ≤ 70 then some (ch - 55)
  else if 97 ≤ ch ∧ ch ≤ 102 then some (ch - 87)
  else none

theorem hexValue_mark : hexValue 37 = none := by decide

/-- URL escapes: `%` and two hexadecimal digits stand for a byte, `+` for a space. -/
def urlEscapes : Escapes UInt8 where
  mark := 37
  code upper lower := (hexValue upper).bind fun high => (hexValue lower).map fun low => high * 16 + low
  plain ch := if ch = 43 then 32 else ch
  digits := by
    intro upper lower decoded digits
    rw [Option.bind_eq_some_iff] at digits
    obtain ⟨high, upper_digit, digits⟩ := digits
    rw [Option.map_eq_some_iff] at digits
    obtain ⟨low, lower_digit, -⟩ := digits
    constructor
    · rintro rfl
      rw [hexValue_mark] at upper_digit
      cases upper_digit
    · rintro rfl
      rw [hexValue_mark] at lower_digit
      cases lower_digit

theorem urlEscapes_mark : urlEscapes.mark = 37 := rfl

theorem urlEscapes_plain (ch : UInt8) : urlEscapes.plain ch = if ch = 43 then 32 else ch := rfl

/-- What `httpdecode` makes of the two characters behind a percent sign. -/
def httpValue (upper lower : UInt8) : UInt8 := httpDigit upper * 16 + httpDigit lower

theorem hexValue_cases (ch : UInt8) : hexValue ch = none ∨ hexValue ch = some (httpDigit ch) := by
  revert ch
  apply forall_byte
  decide +kernel

theorem httpDigit_of_hexValue {ch value : UInt8} (digit : hexValue ch = some value) :
    httpDigit ch = value := by
  rcases hexValue_cases ch with absent | present
  · rw [absent] at digit
    cases digit
  · exact Option.some.inj (present.symm.trans digit)

theorem httpValue_agrees {upper lower decoded : UInt8}
    (digits : urlEscapes.code upper lower = some decoded) : httpValue upper lower = decoded := by
  rw [urlEscapes, Option.bind_eq_some_iff] at digits
  obtain ⟨high, upper_digit, digits⟩ := digits
  rw [Option.map_eq_some_iff] at digits
  obtain ⟨low, lower_digit, rfl⟩ := digits
  rw [httpValue, httpDigit_of_hexValue upper_digit, httpDigit_of_hexValue lower_digit]

variable {n : ℕ} {s : HttpDecode n} {front behind rest text out back : List UInt8} {ch : UInt8}

/-- The loop is behind the blank line, has written `front`, and `behind` starts at its pointer. -/
structure HttpDecode.At (s : HttpDecode n) (front behind : List UInt8) : Prop where
  isLine : s.isLine = true
  split : s.text.bytes = front ++ behind
  p_eq : s.p = front.length

namespace HttpDecode.At

theorem load?_eq (here : s.At front behind) (offset : ℕ) :
    s.text.load? (s.p + offset) = behind[offset]? := by
  rw [here.p_eq]
  exact FixedBuffer.load?_behind here.split offset

/-- A character that is no percent sign is written as it is read. -/
theorem convert_plain (here : s.At front behind) (unread : behind.drop s.i = ch :: rest)
    (other : ch ≠ 37) : ∃ t, s.convert ch = some t ∧ t.i = s.i ∧
      t.At (front ++ [urlEscapes.plain ch]) (behind.drop 1) := by
  obtain ⟨first, behind, rfl⟩ : ∃ first last, behind = first :: last :=
    List.exists_cons_of_ne_nil fun empty => by rw [empty, List.drop_nil] at unread; cases unread
  obtain ⟨stored, store, split⟩ :=
    @FixedBuffer.store?_behind n s.text front [first] behind [ch] here.split rfl
  have kept : stored.load? (s.p + s.i) = some ch := by
    rw [here.p_eq, FixedBuffer.load?_behind split]
    cases at_pointer : s.i with
    | zero => rfl
    | succ i =>
      rw [at_pointer, List.drop_succ_cons] at unread
      rw [List.singleton_append, List.getElem?_cons_succ, ← List.head?_drop, unread]
      rfl
  rw [HttpDecode.convert, here.p_eq, store, Option.bind_some, if_neg other, ← here.p_eq, kept,
    Option.bind_some]
  by_cases plus : ch = 43
  · obtain ⟨spaced, space, split⟩ :=
      @FixedBuffer.store?_behind n stored front [ch] behind [32] split rfl
    rw [if_pos plus, here.p_eq, space]
    refine ⟨_, rfl, rfl, here.isLine, ?_, ?_⟩
    · rw [urlEscapes_plain, if_pos plus, List.append_assoc]
      exact split
    · rw [List.length_append]
      rfl
  · rw [if_neg plus]
    refine ⟨_, rfl, rfl, here.isLine, ?_, ?_⟩
    · rw [urlEscapes_plain, if_neg plus, List.append_assoc]
      exact split
    · rw [here.p_eq, List.length_append]
      rfl

/-- A percent sign and the two characters behind it are taken for an escape. -/
theorem convert_mark {upper lower : UInt8} (here : s.At front behind)
    (unread : behind.drop s.i = 37 :: upper :: lower :: rest) :
    ∃ t, s.convert 37 = some t ∧ t.i = s.i + 2 ∧
      t.At (front ++ [httpValue upper lower]) (behind.drop 1) := by
  obtain ⟨first, behind, rfl⟩ : ∃ first last, behind = first :: last :=
    List.exists_cons_of_ne_nil fun empty => by rw [empty, List.drop_nil] at unread; cases unread
  obtain ⟨stored, store, split⟩ :=
    @FixedBuffer.store?_behind n s.text front [first] behind [37] here.split rfl
  have ahead (offset : ℕ) : stored.load? (s.p + s.i + (offset + 1)) =
      (upper :: lower :: rest)[offset]? := by
    rw [here.p_eq, Nat.add_assoc, FixedBuffer.load?_behind split, List.singleton_append,
      show s.i + (offset + 1) = s.i + offset + 1 by omega, List.getElem?_cons_succ]
    have same := congrArg (·[offset + 1]?) unread
    rw [List.getElem?_drop, show s.i + (offset + 1) = s.i + offset + 1 by omega,
      List.getElem?_cons_succ] at same
    exact same
  obtain ⟨decoded, decode, split⟩ :=
    @FixedBuffer.store?_behind n stored front [37] behind [httpValue upper lower] split rfl
  rw [HttpDecode.convert, here.p_eq, store, Option.bind_some, if_pos rfl, ← here.p_eq, ahead 0,
    ahead 1, here.p_eq]
  refine ⟨_, congrArg (Option.map _) decode, rfl, here.isLine, ?_, ?_⟩
  · rw [List.append_assoc]
    exact split
  · rw [List.length_append]
    rfl

/-- A percent sign at the end of the array has no outcome. -/
theorem convert_short (here : s.At front behind) (unread : behind.drop s.i = 37 :: rest)
    (short : rest.length < 2) : s.convert 37 = none := by
  obtain ⟨first, behind, rfl⟩ : ∃ first last, behind = first :: last :=
    List.exists_cons_of_ne_nil fun empty => by rw [empty, List.drop_nil] at unread; cases unread
  obtain ⟨stored, store, split⟩ :=
    @FixedBuffer.store?_behind n s.text front [first] behind [37] here.split rfl
  have outside : stored.load? (s.p + s.i + 2) = none := by
    have size := congrArg List.length unread
    rw [List.length_drop, List.length_cons] at size
    rw [here.p_eq, Nat.add_assoc, FixedBuffer.load?_behind split, List.singleton_append]
    apply List.getElem?_eq_none
    rw [List.length_cons]
    rw [List.length_cons] at size
    omega
  rw [HttpDecode.convert, here.p_eq, store, Option.bind_some, if_pos rfl, ← here.p_eq, outside]
  exact Option.bind_fun_none _

end HttpDecode.At

/-- A round of the loop at the next character of the text. -/
theorem httpdecodeLoop_succ (here : s.At front behind) (unread : behind.drop s.i = ch :: rest)
    (nonzero : ch ≠ 0) (rounds : ℕ) :
    httpdecodeLoop (rounds + 1) s = (s.convert ch).bind (httpdecodeLoop rounds) := by
  have loaded : s.text.load? (s.p + s.i) = some ch := by
    rw [here.load?_eq, ← List.head?_drop, unread]
    rfl
  rw [httpdecodeLoop, loaded, Option.bind_some, if_neg nonzero, if_pos here.isLine]

/-- The loop ends at the zero. -/
theorem httpdecodeLoop_zero (here : s.At front behind) (unread : behind.drop s.i = 0 :: back)
    (rounds : ℕ) : httpdecodeLoop (rounds + 1) s = some s := by
  have loaded : s.text.load? (s.p + s.i) = some 0 := by
    rw [here.load?_eq, ← List.head?_drop, unread]
    rfl
  rw [httpdecodeLoop, loaded, Option.bind_some, if_pos rfl]

/-- What is unread when the pointer has moved by one and `used` has been read. -/
theorem unread_next {used : List UInt8} {i j : ℕ} (unread : behind.drop i = used ++ rest)
    (moved : 1 + j = i + used.length) : (behind.drop 1).drop j = rest := by
  rw [List.drop_drop, moved, ← List.drop_drop, unread, List.drop_left]

/-- The loop writes the reading of the text that trusts every percent sign. -/
theorem httpdecodeLoop_eq (here : s.At front behind) (unread : behind.drop s.i = text ++ 0 :: back)
    (nonzero : 0 ∉ text) (read : urlEscapes.trust httpValue text = some out) {rounds : ℕ}
    (enough : text.length < rounds) :
    ∃ t, httpdecodeLoop rounds s = some t ∧ t.At (front ++ out) (behind.drop out.length) ∧
      out.length ≤ text.length := by
  induction rounds generalizing s front behind text out with
  | zero => exact absurd enough (Nat.not_lt_zero _)
  | succ rounds ih =>
    rcases text with _ | ⟨ch, rest⟩
    · cases read
      refine ⟨s, httpdecodeLoop_zero here unread rounds, ?_, Nat.le_refl _⟩
      rw [List.append_nil]
      exact here
    rw [List.mem_cons, not_or] at nonzero
    rw [httpdecodeLoop_succ here unread (Ne.symm nonzero.1)]
    rw [List.length_cons] at enough
    by_cases mark : ch = urlEscapes.mark
    · subst mark
      obtain ⟨upper, lower, rest, written, rfl, trusted, rfl⟩ := Escapes.trust_mark_eq_some.mp read
      obtain ⟨t, converted, i_eq, there⟩ := here.convert_mark unread
      have next := @unread_next behind (rest ++ 0 :: back) [37, upper, lower] s.i t.i unread
        (by rw [i_eq]; exact Nat.add_comm ..)
      rw [List.length_cons, List.length_cons] at enough ⊢
      obtain ⟨last, ended, at_end, shorter⟩ :=
        ih there next (fun member => nonzero.2 (by simp [member])) trusted (by omega)
      rw [List.append_assoc, List.drop_drop, Nat.add_comm] at at_end
      rw [urlEscapes_mark, converted]
      exact ⟨last, ended, at_end, by rw [List.length_cons, List.length_cons]; omega⟩
    · rw [Escapes.trust_plain mark, Option.map_eq_some_iff] at read
      obtain ⟨written, trusted, rfl⟩ := read
      obtain ⟨t, converted, i_eq, there⟩ := here.convert_plain unread mark
      have next := @unread_next behind (rest ++ 0 :: back) [ch] s.i t.i unread
        (by rw [i_eq]; exact Nat.add_comm ..)
      obtain ⟨last, ended, at_end, shorter⟩ := ih there next nonzero.2 trusted (by omega)
      rw [List.append_assoc, List.drop_drop, Nat.add_comm] at at_end
      rw [converted]
      exact ⟨last, ended, at_end, Nat.succ_le_succ shorter⟩

/-- Where the array ends with the text, a percent sign without its two characters leads out of it. -/
theorem httpdecodeLoop_outside (here : s.At front behind) (unread : behind.drop s.i = text ++ [0])
    (nonzero : 0 ∉ text) (read : urlEscapes.trust httpValue text = none) (rounds : ℕ) :
    httpdecodeLoop rounds s = none := by
  induction rounds generalizing s front behind text with
  | zero => rfl
  | succ rounds ih =>
    rcases text with _ | ⟨ch, rest⟩
    · cases read
    rw [List.mem_cons, not_or] at nonzero
    rw [httpdecodeLoop_succ here unread (Ne.symm nonzero.1)]
    by_cases mark : ch = urlEscapes.mark
    · subst mark
      rcases rest with _ | ⟨upper, _ | ⟨lower, rest⟩⟩
      · rw [urlEscapes_mark, here.convert_short unread (by decide)]
        rfl
      · -- the zero is taken for the second digit, and the next byte is behind it
        obtain ⟨t, converted, i_eq, there⟩ := here.convert_mark unread
        have next := @unread_next behind [] [37, upper, 0] s.i t.i unread
          (by rw [i_eq]; exact Nat.add_comm ..)
        have outside : t.text.load? (t.p + t.i) = none := by
          rw [there.load?_eq, ← List.head?_drop, next]
          rfl
        rw [urlEscapes_mark, converted, Option.bind_some]
        cases rounds with
        | zero => rfl
        | succ rounds => rw [httpdecodeLoop, outside, Option.bind_none]
      · rw [Escapes.trust_mark, Option.map_eq_none_iff] at read
        obtain ⟨t, converted, i_eq, there⟩ := here.convert_mark unread
        have next := @unread_next behind (rest ++ [0]) [37, upper, lower] s.i t.i unread
          (by rw [i_eq]; exact Nat.add_comm ..)
        rw [urlEscapes_mark, converted]
        exact ih there next (fun member => nonzero.2 (by simp [member])) read
    · rw [Escapes.trust_plain mark, Option.map_eq_none_iff] at read
      obtain ⟨t, converted, i_eq, there⟩ := here.convert_plain unread mark
      have next := @unread_next behind (rest ++ [0]) [ch] s.i t.i unread
        (by rw [i_eq]; exact Nat.add_comm ..)
      rw [converted]
      exact ih there next nonzero.2 read

section Whole

variable {memory : FixedBuffer n}

theorem HttpDecode.at_start (memory : FixedBuffer n) :
    HttpDecode.At ⟨memory, 0, 0, decide ((0 : ℤ) = 0)⟩ [] memory.bytes :=
  ⟨rfl, rfl, rfl⟩

/-- `httpdecode` leaves the reading of the text that trusts every percent sign, and the zero. -/
theorem httpdecode_eq (holds : memory.bytes = text ++ 0 :: back) (nonzero : 0 ∉ text)
    (read : urlEscapes.trust httpValue text = some out) :
    ∃ decoded, httpdecode memory 0 = some decoded ∧
      decoded.bytes = out ++ 0 :: memory.bytes.drop (out.length + 1) := by
  have size := memory.size_eq
  rw [holds, List.length_append, List.length_cons] at size
  obtain ⟨t, ended, there, shorter⟩ :=
    httpdecodeLoop_eq (HttpDecode.at_start memory) holds nonzero read
      (show text.length < n + 1 by omega)
  obtain ⟨old, last, remains⟩ : ∃ old last, memory.bytes.drop out.length = old :: last := by
    apply List.exists_cons_of_ne_nil
    rw [Ne, List.drop_eq_nil_iff, memory.size_eq]
    omega
  obtain ⟨decoded, stored, split⟩ :=
    @FixedBuffer.store?_behind n t.text out [old] last [0] (by rw [there.split, remains]; rfl) rfl
  refine ⟨decoded, ?_, ?_⟩
  · rw [httpdecode, ended, Option.bind_some, there.p_eq]
    exact stored
  · rw [split, ← List.drop_drop, remains]
    rfl

/-- `httpdecode` has no outcome on a text with a percent sign that lacks its two characters. -/
theorem httpdecode_outside (holds : memory.bytes = text ++ [0]) (nonzero : 0 ∉ text)
    (read : urlEscapes.trust httpValue text = none) : httpdecode memory 0 = none := by
  rw [httpdecode, httpdecodeLoop_outside (HttpDecode.at_start memory) holds nonzero read]
  rfl

end Whole

section Encoding

/-- What `URLEncode` writes for a character. -/
def urlEncodeByte (ch : UInt8) : List UInt8 :=
  if urlKeeps ch then [ch] else if ch = 32 then [43] else urlEscape ch

variable {result : FixedBuffer n} {str : List UInt8} {i : ℕ}

/-- One byte for a character that is kept or a space, three for an escape. -/
theorem urlEncodeByte_length (ch : UInt8) :
    (urlEncodeByte ch).length = if urlKeeps ch ∨ ch = 32 then 1 else 3 := by
  rw [urlEncodeByte]
  split
  · rename_i keeps
    rw [if_pos (.inl keeps)]
    rfl
  · rename_i keeps
    split
    · rename_i space
      rw [if_pos (.inr space)]
      rfl
    · rename_i space
      rw [if_neg (not_or.mpr ⟨keeps, space⟩)]
      rfl

/-- No character is written as a zero. -/
theorem zero_notMem_urlEncoded (text : List UInt8) : 0 ∉ text.flatMap urlEncodeByte := by
  have byte (ch : UInt8) : 0 ∉ urlEncodeByte ch := by
    revert ch
    apply forall_byte
    decide +kernel
  intro member
  obtain ⟨ch, _, inside⟩ := List.mem_flatMap.mp member
  exact byte ch inside

/-- What is in front has a shorter code. -/
theorem length_urlEncoded_mono {front : List UInt8} (within : front <+: text) :
    (front.flatMap urlEncodeByte).length ≤ (text.flatMap urlEncodeByte).length := by
  obtain ⟨back, rfl⟩ := within
  rw [List.flatMap_append, List.length_append]
  omega

theorem length_urlEncoded_le (text : List UInt8) :
    (text.flatMap urlEncodeByte).length ≤ 3 * text.length := by
  induction text with
  | nil => rfl
  | cons ch text ih =>
    have width : (urlEncodeByte ch).length ≤ 3 := by
      rw [urlEncodeByte_length]
      split
      · decide
      · exact Nat.le_refl 3
    rw [List.flatMap_cons, List.length_append, List.length_cons]
    omega

/-- A round of the loop writes what it should for its character. -/
theorem urlEncodeLoop_succ (count : ℕ) (unread : str[i]? = some ch) (written : result.bytes = out ++ behind)
    (room : out.length + (urlEncodeByte ch).length < n) : ∃ stored last,
      urlEncodeLoop str n (count + 1) i out.length result =
        urlEncodeLoop str n count (i + 1) (out ++ urlEncodeByte ch).length stored ∧
      stored.bytes = out ++ urlEncodeByte ch ++ last ∧
      ((∀ byte ∈ behind, byte = 0) → ∀ byte ∈ last, byte = 0) := by
  have size := result.size_eq
  rw [written, List.length_append] at size
  have stores (source : List UInt8) (fits : out.length + source.length ≤ n) :=
    @FixedBuffer.store?_room n result out behind source written (by omega)
  have inside : (out.length : ℤ) < n := by omega
  rw [urlEncodeByte_length] at room
  rw [urlEncodeLoop, if_pos inside, unread, Option.bind_some, urlEncodeByte, List.length_append]
  split_ifs with keeps space escapes
  · rw [if_pos (.inl keeps)] at room
    obtain ⟨stored, store, bytes⟩ := stores [ch] room.le
    exact ⟨stored, _, by rw [store]; rfl, by rw [bytes, List.append_assoc],
      fun zeros byte member => zeros byte (List.mem_of_mem_drop member)⟩
  · rw [if_pos (.inr space)] at room
    obtain ⟨stored, store, bytes⟩ := stores [43] room.le
    exact ⟨stored, _, by rw [store]; rfl, by rw [bytes, List.append_assoc],
      fun zeros byte member => zeros byte (List.mem_of_mem_drop member)⟩
  · obtain ⟨stored, store, bytes⟩ :=
      stores (terminated (urlEscape ch)) (show out.length + 4 ≤ n by omega)
    refine ⟨stored, [0] ++ behind.drop 4, by rw [store]; rfl, ?_, ?_⟩
    · rw [bytes, terminated, List.append_assoc, List.append_assoc]
      rfl
    · intro zeros byte member
      rcases List.mem_append.mp member with written | rest
      · exact List.mem_singleton.mp written
      · exact zeros byte (List.mem_of_mem_drop rest)
  · rw [if_neg (not_or.mpr ⟨keeps, space⟩)] at room
    exact absurd (by omega) escapes

/-- The loop gets through the characters in front as long as they leave room. -/
theorem urlEncodeLoop_front (unread : str.drop i = text ++ rest) (count : ℕ)
    (written : result.bytes = out ++ behind)
    (room : out.length + (text.flatMap urlEncodeByte).length < n) : ∃ stored last,
      urlEncodeLoop str n (text.length + count) i out.length result =
        urlEncodeLoop str n count (i + text.length) (out ++ text.flatMap urlEncodeByte).length stored ∧
      stored.bytes = out ++ text.flatMap urlEncodeByte ++ last ∧
      ((∀ byte ∈ behind, byte = 0) → ∀ byte ∈ last, byte = 0) := by
  induction text generalizing i out behind result with
  | nil =>
    refine ⟨result, behind, ?_, ?_, id⟩
    · rw [List.length_nil, Nat.zero_add, Nat.add_zero, List.flatMap_nil, List.append_nil]
    · rw [List.flatMap_nil, List.append_nil]
      exact written
  | cons ch text ih =>
    rw [List.flatMap_cons, List.length_append] at room
    have next : str.drop (i + 1) = text ++ rest := by
      rw [← List.drop_drop, unread]
      rfl
    have read : str[i]? = some ch := by
      rw [← List.head?_drop, unread]
      rfl
    obtain ⟨stored, last, taken, bytes, first⟩ :=
      urlEncodeLoop_succ (text.length + count) read written (by omega)
    obtain ⟨encoded, last, ended, bytes, others⟩ :=
      ih next bytes (by rw [List.length_append]; omega)
    rw [List.length_cons, Nat.add_right_comm, taken, ended, List.flatMap_cons, ← List.append_assoc,
      Nat.add_assoc, Nat.add_comm 1]
    exact ⟨encoded, last, rfl, bytes, fun zeros => others (first zeros)⟩

/-- A text whose encoding leaves room for the zero is written with it. -/
theorem urlEncodeLoop_eq (unread : str.drop i = text ++ back)
    (written : result.bytes = out ++ behind)
    (room : out.length + (text.flatMap urlEncodeByte).length < n) :
    ∃ encoded last, urlEncodeLoop str n text.length i out.length result =
        some ((out ++ text.flatMap urlEncodeByte).length, encoded) ∧
      encoded.bytes = out ++ text.flatMap urlEncodeByte ++ 0 :: last := by
  obtain ⟨stored, last, taken, bytes, _⟩ := urlEncodeLoop_front unread 0 written room
  have size := stored.size_eq
  rw [bytes, List.length_append, List.length_append] at size
  obtain ⟨encoded, store, ended⟩ := @FixedBuffer.store?_room n stored _ last [0] bytes
    (by rw [List.length_singleton]; omega)
  refine ⟨encoded, last.drop 1, ?_, ended⟩
  rw [Nat.add_zero] at taken
  rw [taken, urlEncodeLoop, store]
  rfl

/-- An escape that does not fit ends the loop with zero. -/
theorem urlEncodeLoop_refused (count : ℕ) (unread : str[i]? = some ch) (inside : out.length < n)
    (long : (urlEncodeByte ch).length = 3) (full : n ≤ out.length + 3) :
    urlEncodeLoop str n (count + 1) i out.length result = some (0, result) := by
  rw [urlEncodeByte_length] at long
  have escapes : ¬ (urlKeeps ch ∨ ch = 32) := fun short => by
    rw [if_pos short] at long
    cases long
  rw [not_or] at escapes
  rw [urlEncodeLoop, if_pos (by omega), unread, Option.bind_some, if_neg escapes.1,
    if_neg escapes.2, if_neg (by omega)]

/-- Behind a character that takes the last byte the zero is stored outside. -/
theorem urlEncodeLoop_overrun (count : ℕ) (unread : str[i]? = some ch)
    (short : (urlEncodeByte ch).length = 1) (full : out.length + 1 = n) :
    urlEncodeLoop str n (count + 1) i out.length result = none := by
  have outside (stored : FixedBuffer n) : stored.store? (out.length + 1) [0] = none :=
    if_neg (by rw [List.length_singleton]; omega)
  have ends (stored : FixedBuffer n) :
      urlEncodeLoop str n count (i + 1) (out.length + 1) stored = none := by
    cases count with
    | zero => rw [urlEncodeLoop, outside, Option.map_none]
    | succ count => rw [urlEncodeLoop, if_neg (by omega), outside, Option.map_none]
  rw [urlEncodeByte_length] at short
  have kept : urlKeeps ch ∨ ch = 32 := by
    by_contra escapes
    rw [if_neg escapes] at short
    cases short
  rw [urlEncodeLoop, if_pos (by omega), unread, Option.bind_some]
  split_ifs with keeps space
  · exact Option.bind_eq_none_iff.mpr fun stored _ => ends stored
  · exact Option.bind_eq_none_iff.mpr fun stored _ => ends stored
  · exact absurd kept (not_or.mpr ⟨keeps, space⟩)
  · exact absurd kept (not_or.mpr ⟨keeps, space⟩)

/-- Characters in front whose code has `resultSize` bytes, the last of them with a single byte. -/
def FillsExactly (text : List UInt8) (resultSize : ℕ) : Prop :=
  ∃ front ch back, text = front ++ ch :: back ∧ (urlEncodeByte ch).length = 1 ∧
    (front.flatMap urlEncodeByte).length + 1 = resultSize

instance (text : List UInt8) (resultSize : ℕ) : Decidable (FillsExactly text resultSize) :=
  decidable_of_iff (∃ i : Fin text.length, (urlEncodeByte (text.get i)).length = 1 ∧
      ((text.take i).flatMap urlEncodeByte).length + 1 = resultSize) (by
    constructor
    · rintro ⟨i, single, full⟩
      refine ⟨text.take i, text.get i, text.drop (i + 1), ?_, single, full⟩
      rw [List.get_eq_getElem, ← List.drop_eq_getElem_cons i.isLt, List.take_append_drop]
    · rintro ⟨front, ch, back, rfl, single, full⟩
      have inside : front.length < (front ++ ch :: back).length := by
        rw [List.length_append, List.length_cons]
        omega
      refine ⟨⟨front.length, inside⟩, ?_, ?_⟩
      · rwa [List.get_eq_getElem, List.getElem_append_right (Nat.le_refl _), List.getElem_cons,
          dif_pos (Nat.sub_self _)]
      · rwa [List.take_left])

section Long

variable {front : List UInt8}

/-- `URLEncode` behind the characters in front whose code fits. -/
theorem urlEncode_front (result : FixedBuffer n) (fits : (front.flatMap urlEncodeByte).length < n)
    (ch : UInt8) (rest back : List UInt8) : ∃ stored last,
      urlEncode (some (front ++ ch :: rest ++ back)) (front ++ ch :: rest).length (some result) n =
        (urlEncodeLoop (front ++ ch :: rest ++ back) n (rest.length + 1) (0 + front.length)
          (front.flatMap urlEncodeByte).length stored).map (fun encoded =>
            (encoded.1, some encoded.2)) ∧
      (front ++ ch :: rest ++ back)[0 + front.length]? = some ch ∧
      stored.bytes = front.flatMap urlEncodeByte ++ last ∧
      ((∀ byte ∈ result.bytes, byte = 0) → ∀ byte ∈ last, byte = 0) := by
  have unread : (front ++ ch :: rest ++ back).drop 0 = front ++ (ch :: rest ++ back) :=
    List.append_assoc ..
  obtain ⟨stored, last, taken, bytes, zeros⟩ := @urlEncodeLoop_front n result.bytes
    (ch :: rest ++ back) front [] result _ 0 unread (rest.length + 1) rfl
    (by rw [List.length_nil, Nat.zero_add]; exact fits)
  have length : (front ++ ch :: rest).length = front.length + (rest.length + 1) := List.length_append
  rw [List.nil_append] at taken bytes
  refine ⟨stored, last, ?_, ?_, bytes, zeros⟩
  · rw [urlEncode, if_neg (by omega), Int.toNat_natCast, length]
    exact congrArg _ taken
  · rw [Nat.zero_add, List.append_assoc, List.getElem?_append_right (Nat.le_refl _), Nat.sub_self]
    rfl

/-- `URLEncode` stores outside where the code fills the array with a single byte. -/
theorem urlEncode_fillsExactly (result : FixedBuffer n) (fills : FillsExactly text n)
    (back : List UInt8) :
    urlEncode (some (text ++ back)) text.length (some result) n = none := by
  obtain ⟨front, ch, rest, rfl, single, full⟩ := fills
  have fits : (front.flatMap urlEncodeByte).length < n := by omega
  obtain ⟨stored, last, started, next, -⟩ := urlEncode_front result fits ch rest back
  rw [started, urlEncodeLoop_overrun _ next single full]
  rfl

/-- `URLEncode` stops at an escape where the code does not fit otherwise, and leaves what it has
written. -/
theorem urlEncode_refused (result : FixedBuffer n) (long : n ≤ (text.flatMap urlEncodeByte).length)
    (other : ¬ FillsExactly text n) (positive : 0 < n) (back : List UInt8) :
    ∃ front encoded last, front <+: text ∧ (front.flatMap urlEncodeByte).length < n ∧
      urlEncode (some (text ++ back)) text.length (some result) n = some (0, some encoded) ∧
      encoded.bytes = front.flatMap urlEncodeByte ++ last ∧
      ((∀ byte ∈ result.bytes, byte = 0) → ∀ byte ∈ last, byte = 0) ∧
      ∀ other, other <+: text → (other.flatMap urlEncodeByte).length < n →
        (other.flatMap urlEncodeByte).length ≤ (front.flatMap urlEncodeByte).length := by
  obtain ⟨front, ch, rest, rfl, fits, across⟩ := exists_letter_across urlEncodeByte positive long
  obtain ⟨stored, last, started, next, bytes, zeros⟩ := urlEncode_front result fits ch rest back
  have escape : (urlEncodeByte ch).length = 3 := by
    rw [urlEncodeByte_length] at across ⊢
    split_ifs at across ⊢ with short
    · have single : (urlEncodeByte ch).length = 1 := (urlEncodeByte_length ch).trans (if_pos short)
      exact absurd ⟨front, ch, rest, rfl, single, by omega⟩ other
    · rfl
  refine ⟨front, stored, last, List.prefix_append .., fits, ?_, bytes, zeros, ?_⟩
  · rw [started, urlEncodeLoop_refused _ next fits escape (by omega)]
    rfl
  · intro other within short
    rcases List.prefix_or_prefix_of_prefix within (List.prefix_append front (ch :: rest)) with
      shorter | ⟨_ | ⟨first, more⟩, rfl⟩
    · exact length_urlEncoded_mono shorter
    · rw [List.append_nil]
    · obtain ⟨back, split⟩ := within
      rw [List.append_assoc, List.append_cancel_left_eq, List.cons_append, List.cons.injEq] at split
      rw [split.1, List.flatMap_append, List.flatMap_cons, List.length_append,
        List.length_append] at short
      omega

end Long

/-- A text with room for its code and the zero is written with both. -/
theorem urlEncode_fits (result : FixedBuffer n) {text : List UInt8} (back : List UInt8)
    (some_character : text ≠ []) (fits : (text.flatMap urlEncodeByte).length < n) :
    ∃ encoded last, urlEncode (some (text ++ back)) text.length (some result) n =
        some ((text.flatMap urlEncodeByte).length, some encoded) ∧
      encoded.bytes = text.flatMap urlEncodeByte ++ 0 :: last := by
  have length := List.length_pos_iff.mpr some_character
  obtain ⟨encoded, last, ended, bytes⟩ := @urlEncodeLoop_eq n result.bytes text [] back result
    (text ++ back) 0 rfl rfl (by rw [List.length_nil, Nat.zero_add]; exact fits)
  rw [List.nil_append] at ended bytes
  refine ⟨encoded, last, ?_, bytes⟩
  rw [urlEncode, if_neg (by omega), Int.toNat_natCast]
  exact congrArg (Option.map _) ended

end Encoding

end ShuangFa
