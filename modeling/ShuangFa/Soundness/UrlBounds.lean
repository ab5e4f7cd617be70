import ShuangFa.Proofs.HttpCoding

/-! # The room that `URLEncode` needs

A character that is kept is written while there is a byte left, an escape while there are four. So
there is no byte left for the zero where kept characters fill the array, and `URLEncode` stores it
behind the array. Everything else that does not fit ends at an escape, with zero.
-/

namespace ShuangFa

open Memory

/-- `URLEncode` stays inside the array. It returns the length of the encoding, which is in the array
with its zero, or zero, as it does where the encoding and the zero do not fit. -/
def EncodesWithin {resultSize : ℕ} (str : CString) (result : FixedBuffer resultSize) : Prop :=
  ∃ j written, urlEncode (some str.memory.bytes) str.bytes.length (some result) resultSize =
      some (j, some written) ∧
    (0 < j → written.bytes[j]? = some 0 ∧
      written.bytes.take j = str.bytes.flatMap urlEncodeByte) ∧
    (resultSize < (terminated (str.bytes.flatMap urlEncodeByte)).length → j = 0)

/-- `URLEncode` is bounded and writes all or nothing if and only if no characters in front fill the
array with a last one that is kept. -/
theorem encodesWithin_iff {resultSize : ℕ} (positive : 0 < resultSize) (str : CString)
    (result : FixedBuffer resultSize) :
    EncodesWithin str result ↔ ¬ FillsExactly str.bytes resultSize := by
  constructor
  · rintro ⟨j, written, ended, _⟩ fills
    rw [CString.memory_bytes, urlEncode_fillsExactly result fills [0]] at ended
    cases ended
  · intro other
    rw [EncodesWithin, CString.memory_bytes, terminated, List.length_append]
    rcases Nat.lt_or_ge (str.bytes.flatMap urlEncodeByte).length resultSize with fits | long
    · rcases eq_or_ne str.bytes [] with empty | some_character
      · refine ⟨0, result, ?_, fun absent => absurd absent (Nat.lt_irrefl 0), fun _ => rfl⟩
        rw [empty, urlEncode, if_pos (.inl (Int.le_refl 0))]
      · obtain ⟨encoded, last, ended, bytes⟩ := urlEncode_fits result [0] some_character fits
        refine ⟨_, encoded, ended, fun _ => ⟨?_, ?_⟩, fun long => absurd fits (by
          rw [List.length_singleton] at long
          omega)⟩
        · rw [bytes, List.getElem?_append_right (Nat.le_refl _), Nat.sub_self]
          rfl
        · rw [bytes, List.take_left]
    · obtain ⟨front, encoded, last, _, _, ended, _⟩ := urlEncode_refused result long other positive [0]
      exact ⟨0, encoded, ended, fun absent => absurd absent (Nat.lt_irrefl 0), fun _ => rfl⟩

/-- An escape that does not fit behind a letter. -/
theorem encodesWithin_refused : EncodesWithin ⟨[97, 37], by decide⟩ (.zeros 4) :=
  (encodesWithin_iff (by decide) ⟨[97, 37], by decide⟩ (.zeros 4)).mpr (by decide)

/-- One letter for one byte. -/
theorem encodesWithin_fails : ¬ ∀ (resultSize : ℕ), 0 < resultSize → ∀ (str : CString)
    (result : FixedBuffer resultSize), EncodesWithin str result := by
  intro all
  obtain ⟨j, written, ended, _⟩ := all 1 (by decide) ⟨[97], by decide⟩ (.zeros 1)
  cases ended

end ShuangFa
