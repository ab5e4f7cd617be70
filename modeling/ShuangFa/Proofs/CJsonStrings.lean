import Mathlib.Tactic.Ring
import ShuangFa.Model.CJsonText

/-! # Strings in the texts of documents

A string is spelled by its own bytes, by letters behind a backslash, and by the numbers of characters
in hexadecimal. `parse_string` reads every spelling, into memory that it has counted before, and
`print_string_ptr` writes one that fits exactly.
-/

namespace ShuangFa

open Memory Coding Coding.Reading

/-- The letters that stand for a byte behind a backslash. -/
def shortEscapes : List (UInt8 × UInt8) :=
  [(34, 34), (92, 92), (47, 47), (98, 8), (102, 12), (110, 10), (114, 13), (116, 9)]

/-- Four digits in hexadecimal. -/
def HexDigits (code : ℕ) (digits : List UInt8) : Prop :=
  ∃ first second third fourth : UInt8 × ℕ, digits = [first.1, second.1, third.1, fourth.1] ∧
    (∀ digit ∈ [first, second, third, fourth], hexDigit? digit.1 = some digit.2) ∧
    code = ((first.2 * 16 + second.2) * 16 + third.2) * 16 + fourth.2

/-- What stands for the bytes of a string between its quotes. -/
inductive SpellsString : List UInt8 → List UInt8 → Prop where
  | nil : SpellsString [] []
  | byte {byte : UInt8} {string body : List UInt8} (plain : byte ≠ 0 ∧ byte ≠ 34 ∧ byte ≠ 92)
    (later : SpellsString string body) : SpellsString (byte :: string) (byte :: body)
  | letter {letter byte : UInt8} {string body : List UInt8} (stands : (letter, byte) ∈ shortEscapes)
    (later : SpellsString string body) : SpellsString (byte :: string) (92 :: letter :: body)
  | unit {char : Char} {digits string body : List UInt8} (nonzero : char.toNat ≠ 0)
    (hex : HexDigits char.toNat digits) (later : SpellsString string body) :
    SpellsString (String.utf8EncodeChar char ++ string) (92 :: 117 :: (digits ++ body))
  | pair {char : Char} {high low string body : List UInt8} (large : 0x10000 ≤ char.toNat)
    (first : HexDigits (0xD800 + (char.toNat - 0x10000) / 0x400) high)
    (second : HexDigits (0xDC00 + (char.toNat - 0x10000) % 0x400) low)
    (later : SpellsString string body) :
    SpellsString (String.utf8EncodeChar char ++ string)
      (92 :: 117 :: (high ++ 92 :: 117 :: (low ++ body)))

section Characters

theorem continuation_byte (uc : ℕ) : (uc ||| 0x80) &&& 0xBF = uc % 64 + 0x80 := by
  have low : ∀ rest < 256, (rest ||| 0x80) &&& 0xBF = rest % 64 + 0x80 := by decide +kernel
  have masked : (uc ||| 0x80) &&& 0xBF = (uc % 256 ||| 0x80) &&& 0xBF := by
    have cut (number : ℕ) : number &&& 0xBF = number % 256 &&& 0xBF := by
      rw [show (256 : ℕ) = 2 ^ 8 from rfl, ← Nat.and_two_pow_sub_one_eq_mod, Nat.and_assoc]
      rfl
    rw [cut (uc ||| 0x80), cut (uc % 256 ||| 0x80), show (256 : ℕ) = 2 ^ 8 from rfl,
      Nat.or_mod_two_pow, Nat.or_mod_two_pow, Nat.mod_mod]
  rw [masked, low _ (Nat.mod_lt _ (by decide))]
  omega

/-- The first byte tells how many there are. -/
theorem first_byte : (∀ left < 32, left ||| 0xC0 = left + 0xC0) ∧
    (∀ left < 16, left ||| 0xE0 = left + 0xE0) ∧ ∀ left < 8, left ||| 0xF0 = left + 0xF0 := by
  decide

theorem utf8EncodeChar_length (char : Char) : (String.utf8EncodeChar char).length ≤ 4 := by
  rw [String.utf8EncodeChar]
  split_ifs
  all_goals exact Nat.le_of_ble_eq_true rfl

theorem char_toNat_lt (char : Char) : char.toNat < 0x110000 := by
  rcases char.valid with low | ⟨_, high⟩
  · exact low.trans (by decide)
  · exact high

/-- What is written for a character is its encoding. -/
theorem utf8_char (char : Char) : utf8 char.toNat = String.utf8EncodeChar char := by
  obtain ⟨two, three, four⟩ := first_byte
  have bound := char_toNat_lt char
  have same : char.val.toNat = char.toNat := rfl
  rw [String.utf8EncodeChar, same, utf8]
  generalize char.toNat = uc at bound
  rcases Nat.lt_or_ge uc 0x80 with small | large
  · rw [if_pos small, if_pos (show uc ≤ 0x7f by omega)]
    exact congrArg (fun left => [UInt8.ofNat left]) (Nat.or_zero uc)
  rw [if_neg (show ¬ uc < 0x80 by omega), if_neg (show ¬ uc ≤ 0x7f by omega)]
  rcases Nat.lt_or_ge uc 0x800 with small | large
  · rw [if_pos small, if_pos (show uc ≤ 0x7ff by omega)]
    simp only [utf8Behind, continuation_byte, Nat.shiftRight_eq_div_pow]
    have left : uc / 2 ^ 6 ||| 0xC0 = uc / 64 % 0x20 + 0xC0 := by
      rw [two _ (by omega)]
      omega
    exact congrArg (fun first => [UInt8.ofNat first, UInt8.ofNat _]) left
  rw [if_neg (show ¬ uc < 0x800 by omega), if_neg (show ¬ uc ≤ 0x7ff by omega)]
  rcases Nat.lt_or_ge uc 0x10000 with small | large
  · rw [if_pos small, if_pos (show uc ≤ 0xffff by omega)]
    simp only [utf8Behind, continuation_byte, Nat.shiftRight_eq_div_pow]
    have left : uc / 2 ^ 6 / 2 ^ 6 ||| 0xE0 = uc / 4096 % 0x10 + 0xE0 := by
      rw [three _ (by omega)]
      omega
    exact congrArg (fun first => [UInt8.ofNat first, UInt8.ofNat _, UInt8.ofNat _]) left
  · rw [if_neg (show ¬ uc < 0x10000 by omega), if_neg (show ¬ uc ≤ 0xffff by omega)]
    simp only [utf8Behind, continuation_byte, Nat.shiftRight_eq_div_pow]
    have left : uc / 2 ^ 6 / 2 ^ 6 / 2 ^ 6 ||| 0xF0 = uc / 262144 % 0x08 + 0xF0 := by
      rw [four _ (by omega)]
      omega
    have third : uc / 2 ^ 6 / 2 ^ 6 % 64 + 0x80 = uc / 4096 % 0x40 + 0x80 := by omega
    exact congrArg₂ (fun first second =>
      [UInt8.ofNat first, UInt8.ofNat second, UInt8.ofNat _, UInt8.ofNat _]) left third

end Characters

section Parser

variable {string body digits ptr rest written out : List UInt8} {byte : UInt8} {code len : ℕ}

theorem hexDigit?_spec {digit : UInt8} {value : ℕ} (hex : hexDigit? digit = some value) :
    digit ≠ 34 ∧ digit ≠ 92 ∧ value < 16 := by
  refine ⟨?_, ?_, ?_⟩
  · rintro rfl
    cases hex
  · rintro rfl
    cases hex
  · rw [hexDigit?] at hex
    simp only [UInt8.le_iff_toNat_le, UInt8.reduceToNat] at hex
    split_ifs at hex
    all_goals
      obtain rfl := Option.some.inj hex
      omega

theorem HexDigits.length (hex : HexDigits code digits) : digits.length = 4 := by
  obtain ⟨_, _, _, _, rfl, _⟩ := hex
  rfl

theorem HexDigits.parseHex4 (hex : HexDigits code digits) (rest : List UInt8) :
    parseHex4 (digits ++ rest) = code := by
  obtain ⟨first, second, third, fourth, rfl, all, rfl⟩ := hex
  simp only [List.forall_mem_cons] at all
  obtain ⟨one, two, three, four, -⟩ := all
  simp only [List.cons_append, ShuangFa.parseHex4, one, two, three, four]

theorem countLoop_plain (plain : byte ≠ 34 ∧ byte ≠ 92) :
    countLoop (byte :: ptr) = (countLoop ptr).map (· + 1) := by
  rw [countLoop.eq_def]
  dsimp only
  rw [if_neg plain.1, if_neg plain.2]

/-- Digits end no string, and escape nothing. -/
theorem HexDigits.plain (hex : HexDigits code digits) : ∀ digit ∈ digits, digit ≠ 34 ∧ digit ≠ 92 := by
  obtain ⟨first, second, third, fourth, rfl, all, rfl⟩ := hex
  intro digit member
  have among : digit ∈ [first, second, third, fourth].map Prod.fst := member
  obtain ⟨known, inside, rfl⟩ := List.mem_map.mp among
  obtain ⟨quote, backslash, _⟩ := hexDigit?_spec (all known inside)
  exact ⟨quote, backslash⟩

theorem HexDigits.countLoop (hex : HexDigits code digits) (rest : List UInt8) :
    countLoop (digits ++ rest) = (ShuangFa.countLoop rest).map (· + 4) := by
  have plain := hex.plain
  rw [← hex.length]
  clear hex
  induction digits with
  | nil => exact Option.map_id'.symm
  | cons digit digits ih =>
    obtain ⟨head, later⟩ := List.forall_mem_cons.mp plain
    rw [List.cons_append, countLoop_plain head, ih later, Option.map_map]
    rfl

theorem copyLoop_plain (plain : byte ≠ 34 ∧ byte ≠ 92) :
    copyLoop (byte :: ptr) = (copyLoop ptr).map fun (out, ptr) => (byte :: out, ptr) := by
  rw [copyLoop, if_neg plain.1, if_pos plain.2]

theorem copyLoop_escape (turn : unescape ptr = some (written, rest)) :
    copyLoop (92 :: ptr) = (copyLoop rest).map fun (out, ptr) => (written ++ out, ptr) := by
  rw [copyLoop, if_neg (by decide), if_neg (by decide)]
  split
  · rename_i none
    rw [turn] at none
    cases none
  · rename_i some
    rw [turn] at some
    cases some
    rfl

theorem goOn_append (written : List UInt8) {front : List UInt8} (size : front.length = len) :
    goOn written len (front ++ rest) = some (written, rest) := by
  subst size
  rw [goOn, if_pos (by rw [List.length_append]; omega), List.drop_left]

/-- A letter of an escape stands for its byte. -/
theorem unescape_short {letter : UInt8} (stands : (letter, byte) ∈ shortEscapes) :
    unescape (letter :: ptr) = some ([byte], ptr) := by
  simp only [shortEscapes, List.mem_cons, Prod.mk.injEq, List.not_mem_nil, or_false] at stands
  rcases stands with ⟨rfl, rfl⟩ | ⟨rfl, rfl⟩ | ⟨rfl, rfl⟩ | ⟨rfl, rfl⟩ | ⟨rfl, rfl⟩ | ⟨rfl, rfl⟩ |
    ⟨rfl, rfl⟩ | ⟨rfl, rfl⟩ <;> rfl

/-- A character with four digits is no half of a pair. -/
theorem unescape_unit {char : Char} (nonzero : char.toNat ≠ 0) (hex : HexDigits char.toNat digits) :
    unescape (117 :: (digits ++ rest)) = some (String.utf8EncodeChar char, rest) := by
  have whole : ¬ (0xD800 ≤ char.toNat ∧ char.toNat ≤ 0xDFFF) := by
    rintro ⟨low, high⟩
    rcases char.valid with below | ⟨above, _⟩
    · exact absurd below (Nat.not_lt.mpr low)
    · exact absurd above (Nat.not_lt.mpr high)
  have value := hex.parseHex4 rest
  rw [← utf8_char, ← goOn_append (utf8 char.toNat) hex.length, ← value]
  change unescapeUnicode (digits ++ rest) = _
  rw [unescapeUnicode]
  dsimp only
  rw [value, if_neg (by omega), if_neg (by omega)]

/-- Two halves make the character they are of. -/
theorem halves_join {code : ℕ} (large : 0x10000 ≤ code) (bound : code < 0x110000) :
    0x10000 + ((((0xD800 + (code - 0x10000) / 0x400) &&& 0x3FF) <<< 10) |||
      ((0xDC00 + (code - 0x10000) % 0x400) &&& 0x3FF)) = code := by
  have low (number : ℕ) : number &&& 0x3FF = number % 2 ^ 10 := Nat.and_two_pow_sub_one_eq_mod _ 10
  rw [low, low, ← Nat.shiftLeft_add_eq_or_of_lt (Nat.mod_lt _ (by decide)), Nat.shiftLeft_eq]
  omega

/-- A character behind the first `0x10000` has two halves with four digits each. -/
theorem unescape_pair {char : Char} {high low : List UInt8} (large : 0x10000 ≤ char.toNat)
    (first : HexDigits (0xD800 + (char.toNat - 0x10000) / 0x400) high)
    (second : HexDigits (0xDC00 + (char.toNat - 0x10000) % 0x400) low) :
    unescape (117 :: (high ++ 92 :: 117 :: (low ++ rest))) =
      some (String.utf8EncodeChar char, rest) := by
  have bound := char_toNat_lt char
  have whole : high ++ 92 :: 117 :: (low ++ rest) = (high ++ 92 :: 117 :: low) ++ rest := by
    rw [List.append_assoc, List.cons_append, List.cons_append]
  have size : (high ++ 92 :: 117 :: low).length = 10 := by
    rw [List.length_append, first.length, List.length_cons, List.length_cons, second.length]
  have behind (count : ℕ) : (high ++ 92 :: 117 :: (low ++ rest))[4 + count]? =
      (92 :: 117 :: (low ++ rest))[count]? := by
    rw [← first.length, List.getElem?_append_right (Nat.le_add_right ..), Nat.add_sub_cancel_left]
  have halves : parseHex4 ((high ++ 92 :: 117 :: (low ++ rest)).drop 6) =
      0xDC00 + (char.toNat - 0x10000) % 0x400 := by
    have six : (high ++ [92, 117]).length = 6 := by rw [List.length_append, first.length]; rfl
    rw [show high ++ 92 :: 117 :: (low ++ rest) = (high ++ [92, 117]) ++ (low ++ rest) by
      rw [List.append_assoc]; rfl, List.drop_left' six, second.parseHex4]
  change unescapeUnicode _ = _
  rw [unescapeUnicode]
  dsimp only
  rw [halves, first.parseHex4, if_neg (by omega), if_pos (by omega), if_neg (by
    rw [show (5 : ℕ) = 4 + 1 from rfl, behind 0, behind 1]
    simp), if_neg (by omega), halves_join large bound, utf8_char, whole, goOn_append _ size]

/-- `parse_string` reads what spells a string, and has counted no less than it writes. -/
theorem SpellsString.loops {string body : List UInt8} (spelled : SpellsString string body)
    (rest : List UInt8) : copyLoop (body ++ 34 :: rest) = some (string, 34 :: rest) ∧
      ∃ len, countLoop (body ++ 34 :: rest) = some len ∧ string.length ≤ len := by
  have escape (letter : UInt8) (ptr : List UInt8) :
      countLoop (92 :: letter :: ptr) = (countLoop ptr).map (· + 1) := rfl
  induction spelled with
  | nil =>
    rw [List.nil_append, copyLoop, if_pos rfl, countLoop.eq_def]
    exact ⟨rfl, 0, if_pos rfl, Nat.le_refl _⟩
  | byte plain later ih =>
    obtain ⟨copied, len, counted, room⟩ := ih
    rw [List.cons_append, copyLoop_plain plain.2, copied, countLoop_plain plain.2, counted]
    exact ⟨rfl, _, rfl, Nat.succ_le_succ room⟩
  | letter stands later ih =>
    obtain ⟨copied, len, counted, room⟩ := ih
    rw [List.cons_append, List.cons_append, copyLoop_escape (unescape_short stands), copied, escape,
      counted]
    exact ⟨rfl, _, rfl, Nat.succ_le_succ room⟩
  | unit nonzero hex later ih =>
    obtain ⟨copied, len, counted, room⟩ := ih
    rw [List.cons_append, List.cons_append, List.append_assoc,
      copyLoop_escape (unescape_unit nonzero hex), copied, escape, hex.countLoop, counted]
    refine ⟨rfl, _, rfl, ?_⟩
    rw [List.length_append]
    exact (Nat.add_le_add (utf8EncodeChar_length _) room).trans (show 4 + len ≤ len + 4 + 1 by omega)
  | pair large first second later ih =>
    obtain ⟨copied, len, counted, room⟩ := ih
    have split {high low body : List UInt8} : 92 :: 117 :: (high ++ 92 :: 117 :: (low ++ body)) ++
        34 :: rest = 92 :: 117 :: (high ++ 92 :: 117 :: (low ++ (body ++ 34 :: rest))) := by
      simp only [List.cons_append, List.append_assoc]
    rw [split, copyLoop_escape (unescape_pair large first second), copied, escape, first.countLoop,
      escape, second.countLoop, counted]
    refine ⟨rfl, _, rfl, ?_⟩
    rw [List.length_append]
    exact (Nat.add_le_add (utf8EncodeChar_length _) room).trans
      (show 4 + len ≤ len + 4 + 1 + 4 + 1 by omega)

theorem ofBytes_bytes (value : CString) : CString.ofBytes value.bytes = value := by
  rw [CString.ofBytes, CString.mk.injEq]
  exact List.takeWhile_eq_self_iff.mpr (ne_zero_of_notMem value.nonzero)

/-- `parse_string` reads a string. -/
theorem parseString_spelled {value : CString} {body : List UInt8}
    (spelled : SpellsString value.bytes body) (rest : List UInt8) :
    parseString (34 :: (body ++ 34 :: rest)) = read value rest := by
  obtain ⟨copied, len, counted, room⟩ := spelled.loops rest
  rw [parseString, if_neg (not_not_intro List.head?_cons), List.tail_cons, copied, counted]
  dsimp only
  rw [if_pos room, if_pos List.head?_cons, ofBytes_bytes, List.tail_cons]

end Parser

section Bounds

variable {ptr rest digits : List UInt8} {byte : UInt8} {code : ℕ}

/-- Up to the quote that ends a string, a backslash has a letter behind it, and four digits if that is
a `u`. -/
def EscapesComplete : List UInt8 → Prop
  | [] => True
  | byte :: ptr =>
    if byte = 34 then True
    else if byte = 92 then
      match ptr with
      | [] => False
      | letter :: ptr => (letter = 117 → ∃ code, HexDigits code (ptr.take 4)) ∧ EscapesComplete ptr
    else EscapesComplete ptr

theorem escapesComplete_plain (plain : byte ≠ 34 ∧ byte ≠ 92) :
    EscapesComplete (byte :: ptr) ↔ EscapesComplete ptr := by
  rw [EscapesComplete.eq_def]
  dsimp only
  rw [if_neg plain.1, if_neg plain.2]

/-- Digits are passed over. -/
theorem HexDigits.complete (hex : HexDigits code digits) :
    EscapesComplete (digits ++ rest) ↔ EscapesComplete rest := by
  have plain := hex.plain
  clear hex
  induction digits with
  | nil => exact Iff.rfl
  | cons digit digits ih =>
    obtain ⟨head, later⟩ := List.forall_mem_cons.mp plain
    rw [List.cons_append, escapesComplete_plain head]
    exact ih later

/-- Digits where they have to be. -/
theorem EscapesComplete.unicode (complete : EscapesComplete (92 :: 117 :: ptr)) :
    ∃ code digits rest, ptr = digits ++ rest ∧ HexDigits code digits ∧ EscapesComplete rest := by
  obtain ⟨hex, later⟩ : (117 = (117 : UInt8) → ∃ code, HexDigits code (ptr.take 4)) ∧
    EscapesComplete ptr := complete
  obtain ⟨code, hex⟩ := hex rfl
  refine ⟨code, ptr.take 4, ptr.drop 4, (List.take_append_drop ..).symm, hex, ?_⟩
  rwa [← hex.complete, List.take_append_drop]

theorem utf8_length (uc : ℕ) : (utf8 uc).length ≤ 4 := by
  rw [utf8]
  dsimp only
  split_ifs
  all_goals exact Nat.le_of_ble_eq_true rfl

/-- What one turn of the loops does with an escape: it writes no more than it has counted. -/
structure Turn (ptr : List UInt8) (written rest : List UInt8) (count : ℕ) : Prop where
  copied : unescape ptr = some (written, rest)
  counted : countLoop (92 :: ptr) = (countLoop rest).map (· + count)
  room : written.length ≤ count
  part : rest <:+ ptr
  complete : EscapesComplete rest

/-- An escape of one unit. -/
theorem turn_unit (hex : HexDigits code digits) (complete : EscapesComplete rest)
    {written : List UInt8} (short : written.length ≤ 4)
    (gone : unescapeUnicode (digits ++ rest) = goOn written 4 (digits ++ rest)) :
    Turn (117 :: (digits ++ rest)) written rest 5 where
  copied := gone.trans (goOn_append written hex.length)
  counted := by
    change (countLoop (digits ++ rest)).map (· + 1) = _
    rw [hex.countLoop, Option.map_map]
    rfl
  room := short.trans (by decide)
  part := (List.suffix_append ..).trans (List.suffix_cons ..)
  complete := complete

/-- An escape of two units. -/
theorem turn_pair {other : ℕ} {low written : List UInt8} (first : HexDigits code digits)
    (second : HexDigits other low) (complete : EscapesComplete rest) (short : written.length ≤ 4)
    (gone : unescapeUnicode (digits ++ 92 :: 117 :: (low ++ rest)) =
      goOn written 10 (digits ++ 92 :: 117 :: (low ++ rest))) :
    Turn (117 :: (digits ++ 92 :: 117 :: (low ++ rest))) written rest 10 where
  copied := by
    have size : (digits ++ 92 :: 117 :: low).length = 10 := by
      rw [List.length_append, first.length, List.length_cons, List.length_cons, second.length]
    have whole : digits ++ 92 :: 117 :: (low ++ rest) = (digits ++ 92 :: 117 :: low) ++ rest := by
      rw [List.append_assoc, List.cons_append, List.cons_append]
    rw [whole] at gone ⊢
    exact gone.trans (goOn_append written size)
  counted := by
    change (countLoop (digits ++ _)).map (· + 1) = _
    rw [first.countLoop]
    change (((countLoop (low ++ rest)).map (· + 1)).map (· + 4)).map (· + 1) = _
    rw [second.countLoop]
    simp only [Option.map_map]
    rfl
  room := short.trans (by decide)
  part := by
    have behind : rest <:+ 92 :: 117 :: (low ++ rest) :=
      (List.suffix_append low rest).trans ((List.suffix_cons ..).trans (List.suffix_cons ..))
    exact behind.trans ((List.suffix_append digits _).trans (List.suffix_cons ..))
  complete := complete

/-- Behind four digits the text goes on, or behind another escape. -/
theorem unescapeUnicode_hex (hex : HexDigits code digits) (rest : List UInt8) :
    ∃ written count, unescapeUnicode (digits ++ rest) = goOn written count (digits ++ rest) ∧
      written.length ≤ 4 ∧ (count = 4 ∨ count = 10 ∧ ∃ more, rest = 92 :: 117 :: more) := by
  have behind (index : ℕ) : (digits ++ rest)[4 + index]? = rest[index]? := by
    rw [← hex.length, List.getElem?_append_right (Nat.le_add_right ..), Nat.add_sub_cancel_left]
  have pair (both : ¬ (rest[0]? ≠ some 92 ∨ rest[1]? ≠ some 117)) :
      ∃ more, rest = 92 :: 117 :: more := by
    rw [not_or, not_not, not_not] at both
    match rest, both with
    | first :: second :: more, both =>
      obtain rfl := Option.some.inj both.1
      obtain rfl := Option.some.inj both.2
      exact ⟨more, rfl⟩
  rw [unescapeUnicode]
  dsimp only
  rw [behind 0, behind 1]
  split_ifs with low high single other
  · exact ⟨[], 4, rfl, Nat.zero_le _, .inl rfl⟩
  · exact ⟨[], 4, rfl, Nat.zero_le _, .inl rfl⟩
  · exact ⟨[], 10, rfl, Nat.zero_le _, .inr ⟨rfl, pair single⟩⟩
  · exact ⟨utf8 _, 10, rfl, utf8_length _, .inr ⟨rfl, pair single⟩⟩
  · exact ⟨utf8 _, 4, rfl, utf8_length _, .inl rfl⟩

/-- An escape that is complete. -/
theorem exists_turn (complete : EscapesComplete (92 :: ptr)) :
    ∃ written rest count, Turn ptr written rest count := by
  cases ptr with
  | nil => exact absurd complete id
  | cons letter ptr =>
    rcases unescape_cons letter ptr with ⟨byte, single⟩ | ⟨rfl, -⟩
    · exact ⟨[byte], ptr, 1, single, rfl, Nat.le_refl _, List.suffix_cons .., complete.2⟩
    · obtain ⟨code, digits, rest, rfl, hex, later⟩ := complete.unicode
      obtain ⟨written, count, gone, short, rfl | ⟨rfl, more, rfl⟩⟩ := unescapeUnicode_hex hex rest
      · exact ⟨_, _, _, turn_unit hex later short gone⟩
      · obtain ⟨other, low, rest, rfl, second, last⟩ := later.unicode
        exact ⟨_, _, _, turn_pair hex second last short gone⟩

/-- The loops of `parse_string` stay inside the text and the memory. -/
theorem loops_inside {ptr : List UInt8} (complete : EscapesComplete ptr) : ∃ out rest len,
    copyLoop ptr = some (out, rest) ∧ countLoop ptr = some len ∧ out.length ≤ len ∧ rest <:+ ptr := by
  induction size : ptr.length using Nat.strong_induction_on generalizing ptr with
  | h length ih =>
    subst size
    cases ptr with
    | nil => exact ⟨[], [], 0, by rw [copyLoop], rfl, Nat.le_refl _, List.suffix_refl _⟩
    | cons byte ptr =>
      rcases eq_or_ne byte 34 with rfl | quote
      · exact ⟨[], _, 0, by rw [copyLoop, if_pos rfl], by rw [countLoop.eq_def]; exact if_pos rfl,
          Nat.le_refl _, List.suffix_refl _⟩
      rcases eq_or_ne byte 92 with rfl | backslash
      · obtain ⟨written, rest, count, turn⟩ := exists_turn complete
        obtain ⟨out, last, len, copied, counted, room, part⟩ :=
          ih rest.length (Nat.lt_succ_of_lt (unescape_length turn.copied)) turn.complete rfl
        refine ⟨written ++ out, last, len + count, ?_, ?_, ?_, ?_⟩
        · rw [copyLoop_escape turn.copied, copied]
          rfl
        · rw [turn.counted, counted]
          rfl
        · rw [List.length_append, Nat.add_comm]
          exact Nat.add_le_add room turn.room
        · exact part.trans (turn.part.trans (List.suffix_cons ..))
      · obtain ⟨out, last, len, copied, counted, room, part⟩ := ih ptr.length (Nat.lt_succ_self _)
          ((escapesComplete_plain ⟨quote, backslash⟩).mp complete) rfl
        refine ⟨byte :: out, last, len + 1, ?_, ?_, Nat.succ_le_succ room,
          part.trans (List.suffix_cons ..)⟩
        · rw [copyLoop_plain ⟨quote, backslash⟩, copied]
          rfl
        · rw [countLoop_plain ⟨quote, backslash⟩, counted]
          rfl

/-- `parse_string` stays inside a text where the escapes are complete behind a quote. -/
theorem parseString_inside {str : List UInt8}
    (complete : ∀ ptr, str = 34 :: ptr → EscapesComplete ptr) :
    (parseString str).Inside (fun _ => True) str := by
  rw [parseString]
  split
  · exact List.suffix_refl _
  · rename_i quote
    obtain ⟨ptr, rfl⟩ := List.head?_eq_some_iff.mp (not_not.mp quote)
    obtain ⟨out, rest, len, copied, counted, room, part⟩ := loops_inside (complete ptr rfl)
    rw [List.tail_cons, copied, counted]
    dsimp only
    rw [if_pos room]
    have behind : rest <:+ 34 :: ptr := part.trans (List.suffix_cons ..)
    have shorter : rest.length < (34 :: ptr).length := Nat.lt_succ_of_le part.length_le
    split
    · rename_i closes
      obtain ⟨last, _⟩ := tail_shorter closes
      exact ⟨last.trans behind, last.length_le.trans_lt shorter, trivial⟩
    · exact ⟨behind, shorter, trivial⟩

end Bounds

section Printer

theorem hexDigit?_lowerHex : ∀ digit < 16, hexDigit? (lowerHex digit) = some digit := by decide

theorem printUnicode_hex (byte : UInt8) : ∃ digits, printUnicode byte = 117 :: digits ∧
    HexDigits byte.toNat digits := by
  have bound := byte.toNat_lt
  refine ⟨_, rfl, (48, 0), (48, 0), (_, byte.toNat / 16), (_, byte.toNat % 16), rfl, ?_, ?_⟩
  · simp only [List.forall_mem_cons]
    exact ⟨rfl, rfl, hexDigit?_lowerHex _ (by omega), hexDigit?_lowerHex _ (by omega),
      List.forall_mem_nil _⟩
  · dsimp only
    omega

theorem control_char : ∀ number < 32, (Char.ofNat number).toNat = number ∧
    String.utf8EncodeChar (Char.ofNat number) = [UInt8.ofNat number] := by decide

/-- What is printed for a byte spells it. -/
theorem printByte_spells {byte : UInt8} (nonzero : byte ≠ 0) {string body : List UInt8}
    (later : SpellsString string body) : SpellsString (byte :: string) (printByte byte ++ body) := by
  rw [printByte]
  split
  · rename_i plain
    exact .byte ⟨nonzero, plain.2⟩ later
  · rename_i special
    split_ifs
    case neg =>
      have small : byte.toNat < 32 := by
        by_contra large
        exact special ⟨UInt8.lt_iff_toNat_lt.mpr (show 31 < byte.toNat by omega), ‹_›, ‹_›⟩
      obtain ⟨number, encoded⟩ := control_char _ small
      obtain ⟨digits, printed, hex⟩ := printUnicode_hex byte
      rw [UInt8.ofNat_toNat] at encoded
      rw [← number] at hex
      rw [printed, ← List.singleton_append, ← encoded]
      exact .unit (fun zero => nonzero (UInt8.toNat_inj.mp (number.symm.trans zero))) hex later
    all_goals
      subst byte
      exact .letter (by decide) later

theorem printByte_length : ∀ byte : UInt8, (printByte byte).length = countByte byte :=
  forall_byte (by decide +kernel)

theorem printByte_nonzero : ∀ byte : UInt8, byte ≠ 0 → 0 ∉ printByte byte :=
  forall_byte (by decide +kernel)

/-- `print_string_ptr` fills what it allocates, and what it writes spells the string. -/
theorem printStringPtr_spells (str : CString) : ∃ body, SpellsString str.bytes body ∧ 0 ∉ body ∧
    printStringPtr str = some (34 :: (body ++ [34])) := by
  refine ⟨str.bytes.flatMap printByte, ?_, ?_, ?_⟩
  · have nonzero := str.nonzero
    generalize str.bytes = bytes at nonzero
    induction bytes with
    | nil => exact .nil
    | cons byte bytes ih =>
      rw [List.mem_cons, not_or] at nonzero
      exact printByte_spells (Ne.symm nonzero.1) (ih nonzero.2)
  · rw [List.mem_flatMap]
    rintro ⟨byte, member, zero⟩
    exact printByte_nonzero byte (fun same => str.nonzero (same ▸ member)) zero
  · apply if_pos
    rw [List.length_cons, List.length_append, List.length_flatMap,
      List.map_congr_left fun byte _ => printByte_length byte]
    exact Nat.le_refl _

end Printer

end ShuangFa
