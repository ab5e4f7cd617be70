import ShuangFa.Proofs.HttpCoding

/-! # URL coding, forth and back

`URLEncode` escapes three characters more than it has to, and `httpdecode` opens every escape. Every
percent sign of an encoded string has its two digits, so the string comes back, in its place.
-/

namespace ShuangFa

open Memory Coding

/-- Letters, digits and `. - _ * + %`. -/
def urlAlphabet (ch : UInt8) : Bool :=
  (65 ≤ ch && ch ≤ 90) || (97 ≤ ch && ch ≤ 122) || (48 ≤ ch && ch ≤ 57) ||
    ch = 46 || ch = 45 || ch = 95 || ch = 42 || ch = 43 || ch = 37

theorem urlEncodeByte_alphabet (ch : UInt8) : (urlEncodeByte ch).all urlAlphabet := by
  revert ch
  apply forall_byte
  decide +kernel

/-- What `URLEncode` writes for a character is read as the character. -/
theorem urlEncodeByte_cases (ch : UInt8) :
    (∃ written, urlEncodeByte ch = [written] ∧ written ≠ 37 ∧ urlEscapes.plain written = ch) ∨
      ∃ upper lower, urlEncodeByte ch = [37, upper, lower] ∧
        urlEscapes.code upper lower = some ch := by
  have kept (ch : UInt8) : urlKeeps ch → ch ≠ 37 ∧ urlEscapes.plain ch = ch := by
    revert ch
    apply forall_byte
    decide +kernel
  have digits (ch : UInt8) :
      urlEscapes.code (hexDigit (ch / 16)) (hexDigit (ch % 16)) = some ch := by
    revert ch
    apply forall_byte
    decide +kernel
  rw [urlEncodeByte]
  split_ifs with keeps space
  · exact .inl ⟨ch, rfl, kept ch keeps⟩
  · exact .inl ⟨43, rfl, by decide, space ▸ rfl⟩
  · exact .inr ⟨_, _, rfl, digits ch⟩

/-- An encoded string decodes to the string. -/
theorem decode_urlEncoded (text : List UInt8) :
    urlEscapes.decode (text.flatMap urlEncodeByte) = text := by
  apply Escapes.decode_flatMap
  intro ch _ rest
  obtain ⟨written, encoded, other, plain⟩ | ⟨upper, lower, encoded, digits⟩ := urlEncodeByte_cases ch
  · rw [encoded, List.singleton_append, Escapes.decode_plain other, plain]
  · rw [encoded]
    exact Escapes.decode_escape digits

theorem trusted_urlEncoded (text : List UInt8) :
    urlEscapes.Trusted httpValue (text.flatMap urlEncodeByte) := by
  induction text with
  | nil => exact .nil
  | cons ch text ih =>
    rw [List.flatMap_cons]
    obtain ⟨written, encoded, other, -⟩ | ⟨upper, lower, encoded, digits⟩ := urlEncodeByte_cases ch
    · rw [encoded]
      exact .plain other ih
    · rw [encoded]
      exact .escape digits ih

/-- With room for three bytes for each character and for the zero, `URLEncode` returns the length of a
text over its alphabet, and `httpdecode` turns the text back into the string. -/
theorem url_round_trip (str : CString) (some_character : str.bytes ≠ []) {resultSize : ℕ}
    (result : FixedBuffer resultSize) (room : 3 * str.bytes.length < resultSize) :
    ∃ encoded written, urlEncode (some str.memory.bytes) str.bytes.length (some result) resultSize =
        some (encoded.length, some written) ∧
      encoded ++ [0] <+: written.bytes ∧ (∀ ch ∈ encoded, urlAlphabet ch) ∧
      ∃ decoded, httpdecode written 0 = some decoded ∧ str.bytes ++ [0] <+: decoded.bytes := by
  have spells (ch : UInt8) (member : ch ∈ str.bytes.flatMap urlEncodeByte) : urlAlphabet ch := by
    obtain ⟨source, -, member⟩ := List.mem_flatMap.mp member
    exact List.all_eq_true.mp (urlEncodeByte_alphabet source) ch member
  have fits := length_urlEncoded_le str.bytes
  obtain ⟨written, last, ended, bytes⟩ :=
    urlEncode_fits result [0] some_character (fits.trans_lt room)
  have nonzero := zero_notMem_urlEncoded str.bytes
  obtain ⟨decoded, opened, reads⟩ :=
    httpdecode_eq bytes nonzero ((trusted_urlEncoded str.bytes).trust_eq httpValue_agrees)
  rw [decode_urlEncoded] at reads
  refine ⟨str.bytes.flatMap urlEncodeByte, written, ended, ⟨last, ?_⟩, spells, decoded, opened,
    ⟨written.bytes.drop (str.bytes.length + 1), ?_⟩⟩
  · rw [bytes, List.append_assoc]
    rfl
  · rw [reads, List.append_assoc]
    rfl

/-- `9 %` -/
theorem url_round_trip_percent :
    ∃ encoded written, urlEncode (some [57, 32, 37, 0]) 3 (some (.zeros 10)) 10 =
        some (encoded.length, some written) ∧
      encoded ++ [0] <+: written.bytes ∧ (∀ ch ∈ encoded, urlAlphabet ch) ∧
      ∃ decoded, httpdecode written 0 = some decoded ∧ [57, 32, 37] ++ [0] <+: decoded.bytes :=
  url_round_trip ⟨[57, 32, 37], by decide⟩ (by decide) (.zeros 10) (by decide)

end ShuangFa
