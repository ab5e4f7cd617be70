import ShuangFa.Proofs.HttpCoding

/-! # Decoding what the server sends

`httpdecode` takes the two characters behind a percent sign for digits whatever they are. It decodes a
string as it should where every percent sign has its digits; `%3%35` is the one mistake whose outcome
is right, since what it skips is what it should have decoded.
-/

namespace ShuangFa

open Memory Coding

/-- `httpdecode` stays inside the string, which fills its array, and leaves its decoding. -/
def DecodesInside (text : CString) : Prop :=
  ∃ decoded last, httpdecode text.memory 0 = some decoded ∧
    decoded.bytes = urlEscapes.decode text.bytes ++ 0 :: last

/-- Every percent sign is followed by two hexadecimal digits, or by `3%3` and a decimal digit. -/
inductive PercentEncoded : List UInt8 → Prop
  | nil : PercentEncoded []
  | plain {ch : UInt8} {rest : List UInt8} : ch ≠ 37 → PercentEncoded rest →
      PercentEncoded (ch :: rest)
  | escape {upper lower : UInt8} {rest : List UInt8} : (hexValue upper).isSome →
      (hexValue lower).isSome → PercentEncoded rest → PercentEncoded (37 :: upper :: lower :: rest)
  | skipped {digit : UInt8} {rest : List UInt8} : 48 ≤ digit → digit ≤ 57 → PercentEncoded rest →
      PercentEncoded (37 :: 51 :: 37 :: 51 :: digit :: rest)

theorem urlEscapes_code_eq_some {upper lower decoded : UInt8} :
    urlEscapes.code upper lower = some decoded ↔
      (hexValue upper).isSome ∧ (hexValue lower).isSome ∧ httpValue upper lower = decoded := by
  constructor
  · intro digits
    refine ⟨?_, ?_, httpValue_agrees digits⟩
    · rw [urlEscapes, Option.bind_eq_some_iff] at digits
      obtain ⟨high, upper_digit, -⟩ := digits
      rw [upper_digit]
      rfl
    · rw [urlEscapes, Option.bind_eq_some_iff] at digits
      obtain ⟨high, -, digits⟩ := digits
      rw [Option.map_eq_some_iff] at digits
      obtain ⟨low, lower_digit, -⟩ := digits
      rw [lower_digit]
      rfl
  · rintro ⟨upper_digit, lower_digit, rfl⟩
    obtain ⟨high, upper_eq⟩ := Option.isSome_iff_exists.mp upper_digit
    obtain ⟨low, lower_eq⟩ := Option.isSome_iff_exists.mp lower_digit
    have code : urlEscapes.code upper lower = some (high * 16 + low) := by
      show (hexValue upper).bind _ = _
      rw [upper_eq, Option.bind_some, lower_eq, Option.map_some]
    rw [code, httpValue_agrees code]

/-- Behind a percent sign, another one and a digit are not taken for a percent sign. -/
theorem httpValue_mark_ne (digit : UInt8) : (hexValue digit).isSome → httpValue 37 digit ≠ 37 := by
  revert digit
  apply forall_byte
  decide +kernel

/-- The digit in front of a percent sign is `3` where the two are taken for a percent sign. -/
theorem httpValue_digit_mark (digit : UInt8) : (hexValue digit).isSome →
    httpValue digit 37 = 37 → digit = 51 := by
  revert digit
  apply forall_byte
  decide +kernel

/-- `3` and a hexadecimal digit stand for that digit where it is decimal. -/
theorem httpValue_three (digit : UInt8) : (hexValue digit).isSome →
    (httpValue 51 digit = digit ↔ 48 ≤ digit ∧ digit ≤ 57) := by
  revert digit
  apply forall_byte
  decide +kernel

theorem hexValue_decimal (digit : UInt8) : 48 ≤ digit → digit ≤ 57 → (hexValue digit).isSome := by
  revert digit
  apply forall_byte
  decide +kernel

theorem urlEscapes_plain_digit (digit : UInt8) : (hexValue digit).isSome →
    urlEscapes.plain digit = digit := by
  revert digit
  apply forall_byte
  decide +kernel

theorem PercentEncoded.of_trusted {text : List UInt8}
    (trusted : urlEscapes.Trusted httpValue text) : PercentEncoded text := by
  induction trusted with
  | nil => exact .nil
  | plain other _ ih => exact .plain other ih
  | escape digits _ ih =>
    obtain ⟨upper, lower, -⟩ := urlEscapes_code_eq_some.mp digits
    exact .escape upper lower ih
  | early digits same _ _ =>
    obtain ⟨digit, -, -⟩ := urlEscapes_code_eq_some.mp digits
    exact absurd same (httpValue_mark_ne _ digit)
  | @late letter first second rest digits same skipped _ ih =>
    obtain ⟨upper, lower, value⟩ := urlEscapes_code_eq_some.mp digits
    rw [urlEscapes_plain_digit first upper] at skipped
    obtain rfl : first = letter := by
      rw [urlEscapes_plain] at skipped
      split_ifs at skipped with plus
      · rw [skipped] at upper
        exact absurd upper (by decide)
      · exact skipped
    obtain rfl := httpValue_digit_mark first upper same
    rw [urlEscapes_plain_digit second lower] at value
    obtain ⟨low, high⟩ := (httpValue_three second lower).mp value
    exact .skipped low high ih

theorem PercentEncoded.trusted {text : List UInt8} (encoded : PercentEncoded text) :
    urlEscapes.Trusted httpValue text := by
  induction encoded with
  | nil => exact .nil
  | plain other _ ih => exact .plain other ih
  | escape upper lower _ ih => exact .escape (urlEscapes_code_eq_some.mpr ⟨upper, lower, rfl⟩) ih
  | @skipped digit rest low high _ ih =>
    have lower := hexValue_decimal digit low high
    have digits : urlEscapes.code 51 digit = some (urlEscapes.plain digit) := by
      rw [urlEscapes_plain_digit digit lower]
      exact urlEscapes_code_eq_some.mpr ⟨by decide, lower, (httpValue_three digit lower).mpr ⟨low, high⟩⟩
    exact .late digits (by decide) rfl ih

/-- What is left of the array behind an outcome that is too short cannot make up for the rest. -/
theorem eq_of_decoded {text out last : List UInt8} (nonzero : 0 ∉ text)
    (shorter : out.length ≤ (urlEscapes.decode text).length)
    (same : out ++ 0 :: (terminated text).drop (out.length + 1) =
      urlEscapes.decode text ++ 0 :: last) : out = urlEscapes.decode text := by
  rcases Nat.lt_or_eq_of_le shorter with less | equal
  · exfalso
    obtain ⟨within, kept⟩ := Escapes.length_decode_le urlEscapes text
    have at_end := congrArg (·[(urlEscapes.decode text).length]?) same
    have at_out := congrArg (·[out.length]?) same
    simp only [List.getElem?_append_right (Nat.le_refl _), Nat.sub_self,
      List.getElem?_cons_zero] at at_end at_out
    have full : (urlEscapes.decode text).length = text.length := by
      by_contra less_text
      have inside := Nat.lt_of_le_of_ne within less_text
      rw [List.getElem?_append_right (by omega), show (urlEscapes.decode text).length - out.length =
        (urlEscapes.decode text).length - (out.length + 1) + 1 by omega, List.getElem?_cons_succ,
        List.getElem?_drop, Nat.add_sub_cancel' less, terminated,
        List.getElem?_append_left inside] at at_end
      exact nonzero (List.mem_of_getElem? at_end)
    rw [List.getElem?_append_left less, kept full] at at_out
    obtain ⟨ch, member, plain⟩ := List.mem_map.mp (List.mem_of_getElem? at_out.symm)
    rw [urlEscapes_plain] at plain
    split_ifs at plain
    · exact absurd plain (by decide)
    · rw [plain] at member
      exact nonzero member
  · exact (List.append_inj same equal).1

/-- `httpdecode` stays inside its text and decodes it if and only if every percent sign has its two
digits, or is skipped with `3%3` and a decimal digit behind it. -/
theorem decodesInside_iff (text : CString) : DecodesInside text ↔ PercentEncoded text.bytes := by
  constructor
  · rintro ⟨decoded, last, taken, bytes⟩
    apply PercentEncoded.of_trusted
    cases read : urlEscapes.trust httpValue text.bytes with
    | none =>
      rw [httpdecode_outside text.memory_bytes text.nonzero read] at taken
      cases taken
    | some out =>
      obtain ⟨left, ended, written⟩ := httpdecode_eq text.memory_bytes text.nonzero read
      obtain rfl := Option.some.inj (ended.symm.trans taken)
      apply Escapes.Trusted.of_trust_eq
      rw [read, eq_of_decoded text.nonzero (Escapes.length_trust_le read) (written.symm.trans bytes)]
  · intro encoded
    obtain ⟨decoded, ended, written⟩ :=
      httpdecode_eq text.memory_bytes text.nonzero (encoded.trusted.trust_eq httpValue_agrees)
    exact ⟨decoded, _, ended, written⟩

/-- A percent sign at the end. -/
theorem decodesInside_fails : ¬ ∀ text, DecodesInside text := by
  intro all
  obtain ⟨decoded, last, taken, -⟩ := all ⟨[37], by decide⟩
  rw [httpdecode_outside rfl (by decide) rfl] at taken
  cases taken

end ShuangFa
