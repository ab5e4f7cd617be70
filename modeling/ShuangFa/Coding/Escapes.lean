import Mathlib.Data.List.Basic
import Mathlib.Data.List.Induction

/-! # Texts with escapes

A mark and the two letters behind it stand for one letter. The reading of a text decodes what is an
escape and keeps every other letter, a mark without its letters too. A reader that trusts every mark
takes the two letters behind it for an escape whatever they are, and has none where they are missing.
It writes no more letters than there are in the reading, and where every mark has its letters it is
right.
-/

namespace Coding

/-- A text whose code does not fit has a letter whose code does not, behind letters whose code does. -/
theorem exists_letter_across {α β : Type*} (encode : α → List β) {text : List α} {room : ℕ}
    (positive : 0 < room) (long : room ≤ (text.flatMap encode).length) : ∃ front letter back,
      text = front ++ letter :: back ∧ (front.flatMap encode).length < room ∧
        room ≤ (front.flatMap encode).length + (encode letter).length := by
  induction text using List.reverseRecOn with
  | nil =>
    rw [List.flatMap_nil, List.length_nil] at long
    omega
  | append_singleton text letter ih =>
    rcases Nat.lt_or_ge (text.flatMap encode).length room with fits | longer
    · refine ⟨text, letter, [], rfl, fits, ?_⟩
      rwa [List.flatMap_append, List.flatMap_singleton, List.length_append] at long
    · obtain ⟨front, other, back, split, fits, across⟩ := ih longer
      refine ⟨front, other, back ++ [letter], ?_, fits, across⟩
      rw [split, List.append_assoc]
      rfl

/-- The mark, the letter that two letters behind it stand for if they are digits, and what a letter
apart from an escape stands for. The mark is no digit. -/
structure Escapes (α : Type*) where
  mark : α
  code : α → α → Option α
  plain : α → α
  digits : ∀ {first second decoded : α}, code first second = some decoded →
    first ≠ mark ∧ second ≠ mark

namespace Escapes

variable {α : Type*} [DecidableEq α] (escapes : Escapes α)

/-- The reading of a text, from the left. -/
def decode : List α → List α
  | [] => []
  | letter :: first :: second :: behind =>
    if letter = escapes.mark then
      match escapes.code first second with
      | some decoded => decoded :: decode behind
      | none => escapes.plain letter :: decode (first :: second :: behind)
    else escapes.plain letter :: decode (first :: second :: behind)
  | letter :: rest => escapes.plain letter :: decode rest

/-- The reading by a reader that takes every mark for an escape; `value` is what it makes of two
letters. -/
def trust (value : α → α → α) : List α → Option (List α)
  | [] => some []
  | letter :: rest =>
    if letter = escapes.mark then
      match rest with
      | first :: second :: behind => (trust value behind).map (value first second :: ·)
      | _ => none
    else (trust value rest).map (escapes.plain letter :: ·)

variable {escapes} {value : α → α → α} {letter first second decoded : α} {rest text out : List α}

@[simp] theorem decode_nil : escapes.decode [] = [] := rfl

theorem decode_plain (other : letter ≠ escapes.mark) :
    escapes.decode (letter :: rest) = escapes.plain letter :: escapes.decode rest := by
  rw [decode.eq_def]
  rcases rest with _ | ⟨first, _ | ⟨second, behind⟩⟩
  · rfl
  · rfl
  · exact if_neg other

theorem decode_escape (digits : escapes.code first second = some decoded) :
    escapes.decode (escapes.mark :: first :: second :: rest) = decoded :: escapes.decode rest := by
  rw [decode.eq_def]
  simp only [↓reduceIte, digits]

theorem decode_mark (digits : escapes.code first second = none) :
    escapes.decode (escapes.mark :: first :: second :: rest) =
      escapes.plain escapes.mark :: escapes.decode (first :: second :: rest) := by
  rw [decode.eq_def]
  simp only [↓reduceIte, digits]

/-- The reading of a text that is written letter by letter. -/
theorem decode_flatMap {encode : α → List α}
    (reads : ∀ letter ∈ text, ∀ rest,
      escapes.decode (encode letter ++ rest) = letter :: escapes.decode rest) :
    escapes.decode (text.flatMap encode) = text := by
  induction text with
  | nil => rfl
  | cons letter text ih =>
    rw [List.flatMap_cons, reads letter (List.mem_cons_self ..),
      ih fun other member => reads other (List.mem_cons_of_mem _ member)]

@[simp] theorem trust_nil : escapes.trust value [] = some [] := rfl

theorem trust_plain (other : letter ≠ escapes.mark) :
    escapes.trust value (letter :: rest) =
      (escapes.trust value rest).map (escapes.plain letter :: ·) := by
  rw [trust.eq_def]
  exact if_neg other

theorem trust_mark : escapes.trust value (escapes.mark :: first :: second :: rest) =
    (escapes.trust value rest).map (value first second :: ·) := by
  rw [trust.eq_def]
  exact if_pos rfl

theorem trust_short (short : rest.length < 2) :
    escapes.trust value (escapes.mark :: rest) = none := by
  rw [trust.eq_def]
  rcases rest with _ | ⟨first, _ | ⟨second, behind⟩⟩
  · exact if_pos rfl
  · exact if_pos rfl
  · exact absurd short (by simp only [List.length_cons]; omega)

theorem trust_mark_eq_some : escapes.trust value (escapes.mark :: rest) = some out ↔
    ∃ first second behind read, rest = first :: second :: behind ∧
      escapes.trust value behind = some read ∧ out = value first second :: read := by
  rcases rest with _ | ⟨first, _ | ⟨second, behind⟩⟩
  · simp [trust_short]
  · simp [trust_short]
  · rw [trust_mark, Option.map_eq_some_iff]
    constructor
    · rintro ⟨read, trusted, rfl⟩
      exact ⟨first, second, behind, read, rfl, trusted, rfl⟩
    · rintro ⟨_, _, _, read, same, trusted, rfl⟩
      cases same
      exact ⟨read, trusted, rfl⟩

/-- A letter in front of a text is kept unless it is the mark of an escape. -/
theorem decode_cons (escapes : Escapes α) (letter : α) (rest : List α) :
    escapes.decode (letter :: rest) = escapes.plain letter :: escapes.decode rest ∨
      ∃ first second behind decoded, letter = escapes.mark ∧ rest = first :: second :: behind ∧
        escapes.code first second = some decoded ∧
        escapes.decode (letter :: rest) = decoded :: escapes.decode behind := by
  by_cases mark : letter = escapes.mark
  · subst mark
    rcases rest with _ | ⟨first, _ | ⟨second, behind⟩⟩
    · exact .inl rfl
    · exact .inl rfl
    · cases digits : escapes.code first second with
      | none => exact .inl (decode_mark digits)
      | some decoded =>
        exact .inr ⟨first, second, behind, decoded, rfl, rfl, digits, decode_escape digits⟩
  · exact .inl (decode_plain mark)

/-- Two letters in front of a text are kept unless one of them is the mark of an escape. -/
theorem decode_pair (escapes : Escapes α) (first second : α) (rest : List α) :
    escapes.decode (first :: second :: rest) =
        escapes.plain first :: escapes.plain second :: escapes.decode rest ∨
      (∃ digit behind decoded, first = escapes.mark ∧ rest = digit :: behind ∧
        escapes.code second digit = some decoded ∧
        escapes.decode (first :: second :: rest) = decoded :: escapes.decode behind) ∨
      ∃ upper lower behind decoded, second = escapes.mark ∧ rest = upper :: lower :: behind ∧
        escapes.code upper lower = some decoded ∧
        escapes.decode (first :: second :: rest) =
          escapes.plain first :: decoded :: escapes.decode behind := by
  obtain kept | ⟨_, digit, behind, decoded, mark, same, digits, read⟩ :=
    decode_cons escapes first (second :: rest)
  · rw [kept]
    obtain kept | ⟨upper, lower, behind, decoded, mark, same, digits, read⟩ :=
      decode_cons escapes second rest
    · exact .inl (congrArg _ kept)
    · exact .inr (.inr ⟨upper, lower, behind, decoded, mark, same, digits, congrArg _ read⟩)
  · cases same
    exact .inr (.inl ⟨digit, behind, decoded, mark, rfl, digits, read⟩)

/-- A reading has at most as many letters as the text, and as many only where there is no escape. -/
theorem length_decode_le (escapes : Escapes α) (text : List α) :
    (escapes.decode text).length ≤ text.length ∧
      ((escapes.decode text).length = text.length → escapes.decode text = text.map escapes.plain) := by
  induction size : text.length using Nat.strongRecOn generalizing text with
  | ind size ih =>
    subst size
    rcases text with _ | ⟨letter, rest⟩
    · exact ⟨Nat.le_refl _, fun _ => rfl⟩
    obtain kept | ⟨first, second, behind, decoded, rfl, rfl, -, read⟩ :=
      decode_cons escapes letter rest
    · obtain ⟨shorter, same⟩ := ih rest.length (Nat.lt_succ_self _) rest rfl
      rw [kept]
      exact ⟨Nat.succ_le_succ shorter, fun equal =>
        congrArg (escapes.plain letter :: ·) (same (Nat.succ.inj equal))⟩
    · obtain ⟨shorter, -⟩ :=
        ih behind.length (by simp only [List.length_cons]; omega) behind rfl
      rw [read]
      simp only [List.length_cons]
      exact ⟨by omega, fun equal => absurd equal (by omega)⟩

/-- The reader that trusts every mark writes at most as many letters as the reading has. -/
theorem length_trust_le (read : escapes.trust value text = some out) :
    out.length ≤ (escapes.decode text).length := by
  induction size : text.length using Nat.strongRecOn generalizing text out with
  | ind size ih =>
    subst size
    rcases text with _ | ⟨letter, rest⟩
    · cases read
      exact Nat.le_refl _
    by_cases mark : letter = escapes.mark
    · subst mark
      obtain ⟨first, second, behind, read, rfl, trusted, rfl⟩ := trust_mark_eq_some.mp read
      have shorter := ih behind.length (by simp only [List.length_cons]; omega) trusted rfl
      cases digits : escapes.code first second with
      | some decoded =>
        rw [decode_escape digits]
        exact Nat.succ_le_succ shorter
      | none =>
        rw [decode_mark digits]
        apply Nat.succ_le_succ
        obtain kept | ⟨digit, last, decoded, -, rfl, digits, kept⟩ |
          ⟨upper, lower, last, decoded, -, rfl, digits, kept⟩ := decode_pair escapes first second behind
        · rw [kept, List.length_cons, List.length_cons]
          omega
        · rw [trust_plain (escapes.digits digits).2, Option.map_eq_some_iff] at trusted
          obtain ⟨out, trusted, rfl⟩ := trusted
          rw [kept, List.length_cons, List.length_cons]
          exact Nat.succ_le_succ
            (ih last.length (by simp only [List.length_cons]; omega) trusted rfl)
        · rw [trust_plain (escapes.digits digits).1, trust_plain (escapes.digits digits).2,
            Option.map_map, Option.map_eq_some_iff] at trusted
          obtain ⟨out, trusted, rfl⟩ := trusted
          rw [kept]
          exact Nat.succ_le_succ (Nat.succ_le_succ
            (ih last.length (by simp only [List.length_cons]; omega) trusted rfl))
    · rw [trust_plain mark, Option.map_eq_some_iff] at read
      obtain ⟨out, trusted, rfl⟩ := read
      rw [decode_plain mark]
      exact Nat.succ_le_succ (ih rest.length (Nat.lt_succ_self _) trusted rfl)

/-- The texts that are read as they should be. A mark without its digits is read right where what the
reader makes of the two letters is the mark, and the letters it has skipped are those of an escape
that are taken for what was skipped. -/
inductive Trusted (escapes : Escapes α) (value : α → α → α) : List α → Prop
  | nil : Trusted escapes value []
  | plain {letter : α} {rest : List α} : letter ≠ escapes.mark → Trusted escapes value rest →
      Trusted escapes value (letter :: rest)
  | escape {first second decoded : α} {rest : List α} :
      escapes.code first second = some decoded → Trusted escapes value rest →
      Trusted escapes value (escapes.mark :: first :: second :: rest)
  | early {first second : α} {rest : List α} :
      escapes.code first second = some (escapes.plain second) →
      value escapes.mark first = escapes.plain escapes.mark → Trusted escapes value rest →
      Trusted escapes value (escapes.mark :: escapes.mark :: first :: second :: rest)
  | late {letter first second : α} {rest : List α} :
      escapes.code first second = some (escapes.plain second) →
      value letter escapes.mark = escapes.plain escapes.mark →
      escapes.plain first = escapes.plain letter → Trusted escapes value rest →
      Trusted escapes value (escapes.mark :: letter :: escapes.mark :: first :: second :: rest)

omit [DecidableEq α] in
/-- The mark is no digit. -/
theorem code_mark_left : escapes.code escapes.mark second = none :=
  Option.eq_none_iff_forall_ne_some.mpr fun _ digits => (escapes.digits digits).1 rfl

omit [DecidableEq α] in
theorem code_mark_right : escapes.code first escapes.mark = none :=
  Option.eq_none_iff_forall_ne_some.mpr fun _ digits => (escapes.digits digits).2 rfl

theorem Trusted.of_trust_eq (read : escapes.trust value text = some (escapes.decode text)) :
    Trusted escapes value text := by
  induction size : text.length using Nat.strongRecOn generalizing text with
  | ind size ih =>
    subst size
    rcases text with _ | ⟨letter, rest⟩
    · exact .nil
    by_cases mark : letter = escapes.mark
    · subst mark
      obtain ⟨first, second, behind, out, rfl, trusted, written⟩ := trust_mark_eq_some.mp read
      cases digits : escapes.code first second with
      | some decoded =>
        rw [decode_escape digits, List.cons.injEq] at written
        rw [← written.2] at trusted
        exact .escape digits (ih behind.length (by simp only [List.length_cons]; omega) trusted rfl)
      | none =>
        rw [decode_mark digits, List.cons.injEq] at written
        obtain ⟨same, written⟩ := written
        obtain kept | ⟨digit, last, decoded, rfl, rfl, digits, kept⟩ |
          ⟨upper, lower, last, decoded, rfl, rfl, digits, kept⟩ :=
            decode_pair escapes first second behind
        · have longer := length_trust_le trusted
          rw [← written, kept, List.length_cons, List.length_cons] at longer
          omega
        · rw [← written, kept, trust_plain (escapes.digits digits).2, Option.map_eq_some_iff]
            at trusted
          obtain ⟨out, trusted, cut⟩ := trusted
          rw [List.cons.injEq] at cut
          rw [cut.2] at trusted
          rw [← cut.1] at digits
          exact .early digits same.symm
            (ih last.length (by simp only [List.length_cons]; omega) trusted rfl)
        · rw [← written, kept, trust_plain (escapes.digits digits).1,
            trust_plain (escapes.digits digits).2, Option.map_map, Option.map_eq_some_iff] at trusted
          obtain ⟨out, trusted, cut⟩ := trusted
          rw [Function.comp_apply, List.cons.injEq, List.cons.injEq] at cut
          rw [cut.2.2] at trusted
          rw [← cut.2.1] at digits
          exact .late digits same.symm cut.1
            (ih last.length (by simp only [List.length_cons]; omega) trusted rfl)
    · rw [trust_plain mark, decode_plain mark, Option.map_eq_some_iff] at read
      obtain ⟨out, trusted, cut⟩ := read
      rw [(List.cons.inj cut).2] at trusted
      exact .plain mark (ih rest.length (Nat.lt_succ_self _) trusted rfl)

section Agreement

variable (agrees : ∀ {first second decoded : α}, escapes.code first second = some decoded →
  value first second = decoded)
include agrees

theorem Trusted.trust_eq (trusted : Trusted escapes value text) :
    escapes.trust value text = some (escapes.decode text) := by
  induction trusted with
  | nil => rfl
  | plain other _ ih => rw [trust_plain other, ih, decode_plain other, Option.map_some]
  | escape digits _ ih => rw [trust_mark, ih, decode_escape digits, agrees digits, Option.map_some]
  | early digits same _ ih =>
    have kept := (escapes.digits digits).2
    rw [trust_mark, trust_plain kept, ih, decode_mark code_mark_left, decode_escape digits, same]
    rfl
  | @late letter first second rest digits same skipped _ ih =>
    have kept := escapes.digits digits
    have reads : escapes.decode (letter :: escapes.mark :: first :: second :: rest) =
        escapes.plain letter :: escapes.plain second :: escapes.decode rest := by
      by_cases mark : letter = escapes.mark
      · rw [mark, decode_mark code_mark_left, decode_escape digits]
      · rw [decode_plain mark, decode_escape digits]
    rw [trust_mark, trust_plain kept.1, trust_plain kept.2, ih, decode_mark code_mark_right, reads,
      same, skipped]
    rfl

end Agreement

end Escapes

end Coding
