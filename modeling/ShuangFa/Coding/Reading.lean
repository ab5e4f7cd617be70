import Mathlib.Algebra.Order.Ring.Nat
import Mathlib.Data.List.Forall2
import Mathlib.Data.List.TakeWhile

/-! # Readers of texts

A reader takes a value off the front of a text, fails at a place of the text, or does what is not
defined. Items between two brackets have a separator between them and blanks around them, and the
items are read where each of them is. A reader that stays inside the text makes a reader of lists that
does.
-/

namespace Coding

variable {α β γ : Type*}

/-- What a reader makes of a text. -/
inductive Reading (β α : Type*) where
  | read (value : α) (rest : List β)
  | failed (place : List β)
  | undefined
deriving DecidableEq

namespace Reading

/-- Go on behind what is read. -/
def andThen : Reading β α → (α → List β → Reading β γ) → Reading β γ
  | read value rest, next => next value rest
  | failed place, _ => failed place
  | undefined, _ => undefined

def map (f : α → γ) (reading : Reading β α) : Reading β γ :=
  reading.andThen fun value rest => read (f value) rest

/-- The value that is read. -/
def value? : Reading β α → Option α
  | read value _ => some value
  | _ => none

@[simp] theorem andThen_read (value : α) (rest : List β) (next : α → List β → Reading β γ) :
    (read value rest).andThen next = next value rest := rfl

@[simp] theorem map_read (f : α → γ) (value : α) (rest : List β) :
    (read value rest).map f = read (f value) rest := rfl

/-- What is left of a text, or the place of the failure, is a part of it, and something is read; what is
left is as good as the text. -/
def Inside (good : List β → Prop) (text : List β) : Reading β α → Prop
  | read _ rest => rest <:+ text ∧ rest.length < text.length ∧ good rest
  | failed place => place <:+ text
  | undefined => False

variable {good other : List β → Prop} {text front : List β} {reading : Reading β α}
  {next : α → List β → Reading β γ}

/-- A longer text. -/
theorem Inside.of_suffix (inside : reading.Inside good text) (part : text <:+ front) :
    reading.Inside good front := by
  cases reading with
  | read value rest => exact ⟨inside.1.trans part, inside.2.1.trans_le part.length_le, inside.2.2⟩
  | failed place => exact List.IsSuffix.trans inside part
  | undefined => exact inside

/-- What is left may be good for a reason of its own. -/
theorem Inside.of_left (inside : reading.Inside other text)
    (left : ∀ value rest, reading = read value rest → good rest) : reading.Inside good text := by
  cases reading with
  | read value rest => exact ⟨inside.1, inside.2.1, left value rest rfl⟩
  | failed place => exact inside
  | undefined => exact inside

/-- A reader that goes on may leave what it finds. -/
theorem Inside.andThen (inside : reading.Inside good text)
    (later : ∀ value rest, rest <:+ text → rest.length < text.length → good rest →
      (next value rest).Inside good text) : (reading.andThen next).Inside good text := by
  cases reading with
  | read value rest => exact later value rest inside.1 inside.2.1 inside.2.2
  | failed place => exact inside
  | undefined => exact inside

theorem Inside.map (f : α → γ) (inside : reading.Inside good text) :
    (reading.map f).Inside good text :=
  inside.andThen fun _ _ part shorter left => ⟨part, shorter, left⟩

end Reading

open Reading

section Blanks

/-- Go past blanks. -/
def skip (blank : β → Bool) (text : List β) : List β := text.dropWhile blank

/-- A reader with blanks on both sides. -/
def trimmed (blank : β → Bool) (reader : List β → Reading β α) (text : List β) : Reading β α :=
  (reader (skip blank text)).andThen fun value rest => read value (skip blank rest)

variable {blank : β → Bool} {text rest : List β}

theorem skip_suffix (blank : β → Bool) (text : List β) : skip blank text <:+ text :=
  List.dropWhile_suffix _

/-- Blanks in front of a text that starts with none. -/
theorem skip_blanks {blanks : List β} (all : ∀ letter ∈ blanks, blank letter)
    (starts : text.head?.any blank = false) : skip blank (blanks ++ text) = text := by
  rw [skip, List.dropWhile_append_of_pos all]
  cases text with
  | nil => rfl
  | cons letter text => exact List.dropWhile_cons_of_neg (Bool.not_eq_true _ ▸ starts)

end Blanks

section Lists

/-- The letters of a list, and what is blank; the letters behind an item are not. -/
structure ListSyntax (β : Type*) where
  opening : β
  closing : β
  separator : β
  blank : β → Bool
  apart : closing ≠ separator
  closing_solid : blank closing = false
  separator_solid : blank separator = false

variable {l : ListSyntax β} {item reader : List β → Reading β α} {value : α} {values : List α}
  {fuel limit : ℕ} {text texts rest : List β} {spells : List β → Prop}
  {predicates : List (List β → Prop)} {letter : β}

/-- Blanks around a text. -/
inductive Padded (blank : β → Bool) (spells : List β → Prop) : List β → Prop where
  | pad {before text after : List β} (front : ∀ letter ∈ before, blank letter) (spelled : spells text)
    (behind : ∀ letter ∈ after, blank letter) : Padded blank spells (before ++ (text ++ after))

/-- Texts with a separator between each two. -/
inductive Separated (l : ListSyntax β) : List (List β → Prop) → List β → Prop where
  | last {spells : List β → Prop} {text : List β} (spelled : Padded l.blank spells text) :
    Separated l [spells] text
  | more {spells : List β → Prop} {others : List (List β → Prop)} {text texts : List β}
    (spelled : Padded l.blank spells text) (later : Separated l others texts) :
    Separated l (spells :: others) (text ++ l.separator :: texts)

namespace ListSyntax

/-- Where an item of a list ends. -/
def Ends (l : ListSyntax β) (rest : List β) : Prop :=
  rest.head? = some l.separator ∨ rest.head? = some l.closing

/-- A text that may stand for an item does not start with what ends the list. -/
def Begins (l : ListSyntax β) (text : List β) : Prop :=
  ∃ letter rest, text = letter :: rest ∧ l.blank letter = false ∧ letter ≠ l.closing

/-- The texts of an item, up to a length, are read where the list goes on behind them. -/
def ReadsItem (l : ListSyntax β) (item : List β → Reading β α) (limit : ℕ) (value : α)
    (spells : List β → Prop) : Prop :=
  ∀ text, Padded l.blank spells text → text.length ≤ limit →
    ∀ rest, l.Ends rest → item (text ++ rest) = read value rest

theorem Ends.solid (ends : l.Ends rest) : rest.head?.any l.blank = false := by
  rcases ends with same | same
  · rw [same]
    exact l.separator_solid
  · rw [same]
    exact l.closing_solid

end ListSyntax

/-- A reader with blanks on both sides reads what has them. -/
theorem trimmed_padded (starts : ∀ text, spells text → text.head?.any l.blank = false ∧ text ≠ [])
    (reads : ∀ text after rest, spells text → text.length ≤ limit →
      (∀ letter ∈ after, l.blank letter) → l.Ends rest →
        reader (text ++ (after ++ rest)) = read value (after ++ rest)) :
    l.ReadsItem (trimmed l.blank reader) limit value spells := by
  rintro _ @⟨before, text, after, front, spelled, behind⟩ short rest ends
  obtain ⟨solid, some_letter⟩ := starts text spelled
  rw [List.length_append, List.length_append] at short
  have first : (text ++ (after ++ rest)).head?.any l.blank = false := by
    rwa [List.head?_append_of_ne_nil _ some_letter]
  rw [List.append_assoc, List.append_assoc, trimmed, skip_blanks front first,
    reads text after rest spelled (by omega) behind ends, andThen_read,
    skip_blanks behind ends.solid]

section Joined

variable {pieces : List (List β)} {before after blanks : List β}

theorem Padded.of_spells {blank : β → Bool} (spelled : spells text) : Padded blank spells text := by
  have alone := @Padded.pad _ blank _ [] text [] (List.forall_mem_nil _) spelled
    (List.forall_mem_nil _)
  rwa [List.nil_append, List.append_nil] at alone

/-- More blanks around a text. -/
theorem Padded.wider {blank : β → Bool} (padded : Padded blank spells text)
    (front : ∀ letter ∈ before, blank letter) (behind : ∀ letter ∈ after, blank letter) :
    Padded blank spells (before ++ (text ++ after)) := by
  obtain @⟨first, text, last, left, spelled, right⟩ := padded
  have split : before ++ (first ++ (text ++ last) ++ after) =
      (before ++ first) ++ (text ++ (last ++ after)) := by simp only [List.append_assoc]
  rw [split]
  exact .pad (List.forall_mem_append.mpr ⟨front, left⟩) spelled
    (List.forall_mem_append.mpr ⟨right, behind⟩)

/-- Joined texts, with blanks behind each separator and around the whole. -/
theorem separated_intercalate
    (padded : List.Forall₂ (fun spells text => Padded l.blank spells text) predicates pieces)
    (some_piece : pieces ≠ []) (front : ∀ letter ∈ before, l.blank letter)
    (blank : ∀ letter ∈ blanks, l.blank letter) (behind : ∀ letter ∈ after, l.blank letter) :
    Separated l predicates
      (before ++ (List.intercalate (l.separator :: blanks) pieces ++ after)) := by
  induction padded generalizing before with
  | nil => exact absurd rfl some_piece
  | @cons spells text predicates pieces first others ih =>
    cases others with
    | nil =>
      rw [List.intercalate_singleton]
      exact .last (first.wider front behind)
    | cons second others =>
      have later := ih (List.cons_ne_nil _ _) blank
      have split {joined : List β} : before ++ (text ++ (l.separator :: blanks) ++ joined ++ after) =
          (before ++ (text ++ [])) ++ l.separator :: (blanks ++ (joined ++ after)) := by
        simp only [List.append_assoc, List.cons_append, List.nil_append]
      rw [List.intercalate_cons_cons, split]
      exact .more (first.wider front (List.forall_mem_nil _)) later

/-- Joined texts fit where each fits with a separator. -/
theorem intercalate_length_le {ι : Type*} {entries : List ι} (separator : List β) {piece : ι → List β}
    {size : ι → ℕ} (some_entry : entries ≠ [])
    (each : ∀ entry, (piece entry).length + separator.length ≤ size entry) :
    (List.intercalate separator (entries.map piece)).length + separator.length ≤
      (entries.map size).sum := by
  induction entries with
  | nil => exact absurd rfl some_entry
  | cons first others ih =>
    have head := each first
    cases others with
    | nil =>
      rw [List.map_singleton, List.intercalate_singleton, List.map_singleton, List.sum_singleton]
      exact head
    | cons second others =>
      have later := ih (List.cons_ne_nil _ _)
      rw [List.map_cons] at later
      rw [List.map_cons, List.map_cons, List.intercalate_cons_cons, List.map_cons, List.sum_cons,
        List.length_append, List.length_append]
      omega

theorem notMem_intercalate {separator : List β} (between : letter ∉ separator)
    (all : ∀ piece ∈ pieces, letter ∉ piece) : letter ∉ List.intercalate separator pieces := by
  induction pieces with
  | nil => exact List.not_mem_nil
  | cons first others ih =>
    obtain ⟨head, later⟩ := List.forall_mem_cons.mp all
    cases others with
    | nil =>
      rw [List.intercalate_singleton]
      exact head
    | cons second others =>
      rw [List.intercalate_cons_cons, List.mem_append, List.mem_append, not_or, not_or]
      exact ⟨⟨head, between⟩, ih later⟩

end Joined

section Places

variable {bound : ℕ} {good : List β → Prop} {blank : β → Bool}

/-- A letter behind which a good text is still good. -/
def Passes (good : List β → Prop) (letter : β) : Prop := ∀ rest, good (letter :: rest) → good rest

/-- A reader stays inside the good texts, up to a length. -/
def StaysInside (reader : List β → Reading β α) (good : List β → Prop) (bound : ℕ) : Prop :=
  ∀ text, text.length < bound → good text → (reader text).Inside good text

theorem tail_shorter (starts : text.head? = some letter) :
    text.tail <:+ text ∧ text.tail.length < text.length := by
  obtain ⟨rest, rfl⟩ := List.head?_eq_some_iff.mp starts
  exact ⟨List.suffix_cons letter rest, Nat.lt_succ_self _⟩

theorem Passes.tail (passes : Passes good letter) (starts : text.head? = some letter)
    (all : good text) : good text.tail := by
  obtain ⟨rest, rfl⟩ := List.head?_eq_some_iff.mp starts
  exact passes rest all

theorem good_skip (passes : ∀ letter, blank letter → Passes good letter) (all : good text) :
    good (skip blank text) := by
  induction text with
  | nil => exact all
  | cons letter text ih =>
    rw [skip, List.dropWhile_cons]
    split
    · rename_i space
      exact ih (passes letter space text all)
    · exact all

theorem trimmed_inside (inside : StaysInside reader good bound)
    (passes : ∀ letter, blank letter → Passes good letter) :
    StaysInside (trimmed blank reader) good bound := by
  intro text short all
  have part := skip_suffix blank text
  have first := inside (skip blank text) (part.length_le.trans_lt short) (good_skip passes all)
  apply (first.of_suffix part).andThen
  intro value rest within shorter left
  exact ⟨(skip_suffix blank rest).trans within, (skip_suffix blank rest).length_le.trans_lt shorter,
    good_skip passes left⟩

end Places

section Readers

variable [DecidableEq β]

/-- Separators, each with an item behind it. -/
def readMore (separator : β) (item : List β → Reading β α) : ℕ → List β → Reading β (List α)
  | 0, text => if text.head? = some separator then undefined else read [] text
  | fuel + 1, text =>
    if text.head? = some separator then
      (item text.tail).andThen fun value rest => (readMore separator item fuel rest).map (value :: ·)
    else read [] text

/-- The items between two brackets. -/
def readItems (l : ListSyntax β) (item : List β → Reading β α) (fuel : ℕ) (text : List β) :
    Reading β (List α) :=
  if text.head? ≠ some l.opening then failed text
  else
    let text := skip l.blank text.tail
    if text.head? = some l.closing then read [] text.tail
    else (item text).andThen fun first rest =>
      (readMore l.separator item fuel rest).andThen fun items rest =>
        if rest.head? = some l.closing then read (first :: items) rest.tail else failed rest

/-- The items behind separators are read. -/
theorem readMore_separated (reads : List.Forall₂ (l.ReadsItem item limit) values predicates)
    (separated : Separated l predicates texts) (short : texts.length ≤ limit)
    (room : texts.length < fuel) :
    readMore l.separator item fuel (l.separator :: (texts ++ l.closing :: rest)) =
      read values (l.closing :: rest) := by
  induction separated generalizing values fuel with
  | last spelled =>
    obtain ⟨fuel, rfl⟩ := Nat.exists_eq_succ_of_ne_zero (Nat.ne_zero_of_lt room)
    cases reads with
    | cons first others =>
      cases others
      have stop : readMore l.separator item fuel (l.closing :: rest) =
          read [] (l.closing :: rest) := by
        cases fuel <;> exact if_neg (fun same => l.apart (Option.some.inj same))
      rw [readMore, if_pos List.head?_cons, List.tail_cons, first _ spelled short _ (.inr rfl),
        andThen_read, stop, map_read]
  | more spelled later ih =>
    obtain ⟨fuel, rfl⟩ := Nat.exists_eq_succ_of_ne_zero (Nat.ne_zero_of_lt room)
    rw [List.length_append, List.length_cons] at short room
    cases reads with
    | cons first others =>
      rw [readMore, if_pos List.head?_cons, List.tail_cons, List.append_assoc, List.cons_append,
        first _ spelled (by omega) _ (.inl rfl), andThen_read, ih others (by omega) (by omega),
        map_read]

/-- Brackets with nothing but blanks between them. -/
theorem readItems_empty (blanks : ∀ letter ∈ texts, l.blank letter) :
    readItems l item fuel (l.opening :: (texts ++ l.closing :: rest)) = read [] rest := by
  have closed : skip l.blank (texts ++ l.closing :: rest) = l.closing :: rest :=
    skip_blanks blanks l.closing_solid
  rw [readItems, if_neg (not_not_intro List.head?_cons), List.tail_cons, closed]
  exact if_pos List.head?_cons

/-- The first item of a list. -/
theorem readItems_first (reads : l.ReadsItem item limit value spells)
    (begins : ∀ text, spells text → l.Begins text) (spelled : Padded l.blank spells text)
    (short : text.length ≤ limit) (ends : l.Ends rest) :
    readItems l item fuel (l.opening :: (text ++ rest)) =
      (readMore l.separator item fuel rest).andThen fun items rest =>
        if rest.head? = some l.closing then read (value :: items) rest.tail else failed rest := by
  obtain @⟨before, text, after, front, spelled, behind⟩ := spelled
  obtain ⟨letter, more, split, solid, other⟩ := begins text spelled
  have trimmed : skip l.blank (before ++ (text ++ (after ++ rest))) = text ++ (after ++ rest) := by
    apply skip_blanks front
    rwa [split, List.cons_append, List.head?_cons, Option.any_some]
  have starts : (text ++ (after ++ rest)).head? ≠ some l.closing := by
    rw [split]
    exact fun same => other (Option.some.inj same)
  have whole : item (text ++ (after ++ rest)) = read value rest := by
    have padded : Padded l.blank spells ([] ++ (text ++ after)) :=
      .pad (List.forall_mem_nil _) spelled behind
    rw [List.length_append] at short
    rw [← List.append_assoc]
    exact reads _ padded (by rw [List.nil_append]; omega) rest ends
  rw [readItems, if_neg (not_not_intro List.head?_cons), List.tail_cons, List.append_assoc,
    List.append_assoc, trimmed]
  dsimp only
  rw [if_neg starts, whole, andThen_read]

/-- A list is read item by item. -/
theorem readItems_separated (reads : List.Forall₂ (l.ReadsItem item limit) values predicates)
    (begins : ∀ spells ∈ predicates, ∀ text, spells text → l.Begins text)
    (separated : Separated l predicates texts) (short : texts.length ≤ limit)
    (room : texts.length ≤ fuel) :
    readItems l item fuel (l.opening :: (texts ++ l.closing :: rest)) = read values rest := by
  cases separated with
  | last spelled =>
    cases reads with
    | cons first others =>
      cases others
      have stop : readMore l.separator item fuel (l.closing :: rest) =
          read [] (l.closing :: rest) := by
        cases fuel <;> exact if_neg (fun same => l.apart (Option.some.inj same))
      rw [readItems_first first (begins _ (List.mem_singleton_self _)) spelled short (.inr rfl), stop,
        andThen_read, if_pos List.head?_cons, List.tail_cons]
  | more spelled later =>
    rw [List.length_append, List.length_cons] at short room
    cases reads with
    | cons first others =>
      rw [List.append_assoc, List.cons_append,
        readItems_first first (begins _ (List.mem_cons_self ..)) spelled (by omega) (.inl rfl),
        readMore_separated others later (by omega) (by omega), andThen_read, if_pos List.head?_cons,
        List.tail_cons]

variable {bound : ℕ} {good : List β → Prop}

/-- The items behind separators, of which there may be none. -/
theorem readMore_inside (inside : StaysInside item good bound) {separator : β}
    (passes : Passes good separator) {front : List β} (part : text <:+ front)
    (shorter : text.length < front.length) (short : front.length ≤ bound) (all : good text)
    (room : text.length ≤ fuel) : (readMore separator item fuel text).Inside good front := by
  induction fuel generalizing text front with
  | zero =>
    obtain rfl := List.length_eq_zero_iff.mp (Nat.le_zero.mp room)
    exact ⟨part, shorter, all⟩
  | succ fuel ih =>
    unfold readMore
    split
    · rename_i starts
      obtain ⟨within, less⟩ := tail_shorter starts
      have inner := within.trans part
      have first := inside text.tail (by omega) (passes.tail starts all)
      refine Inside.of_suffix (first.andThen ?_) inner
      intro value rest behind later left
      exact .map _ (ih behind later (by omega) left (by omega))
    · exact ⟨part, shorter, all⟩

/-- The marks of a list, and its blanks, leave a text good. -/
structure ListSyntax.Passes (l : ListSyntax β) (good : List β → Prop) : Prop where
  opening : Coding.Passes good l.opening
  closing : Coding.Passes good l.closing
  separator : Coding.Passes good l.separator
  blank : ∀ letter, l.blank letter → Coding.Passes good letter

/-- The items between two brackets. -/
theorem readItems_inside (inside : StaysInside item good bound) (passes : l.Passes good)
    (short : text.length ≤ bound) (all : good text) (room : text.length ≤ fuel) :
    (readItems l item fuel text).Inside good text := by
  unfold readItems
  split
  · exact List.suffix_refl _
  · rename_i starts
    obtain ⟨within, less⟩ := tail_shorter (not_not.mp starts)
    have behind := (skip_suffix l.blank text.tail).trans within
    have smaller := (skip_suffix l.blank text.tail).length_le.trans_lt less
    have inner := good_skip passes.blank (passes.opening.tail (not_not.mp starts) all)
    dsimp only
    split
    · rename_i closes
      obtain ⟨last, _⟩ := tail_shorter closes
      exact ⟨last.trans behind, last.length_le.trans_lt smaller, passes.closing.tail closes inner⟩
    · have first := inside (skip l.blank text.tail) (by omega) inner
      refine Inside.of_suffix (first.andThen ?_) behind
      intro value rest later lesser left
      refine (readMore_inside inside passes.separator later lesser (by omega) left (by omega)).andThen ?_
      intro items rest part fewer left
      split
      · rename_i closes
        obtain ⟨last, _⟩ := tail_shorter closes
        exact ⟨last.trans part, last.length_le.trans_lt fewer, passes.closing.tail closes left⟩
      · exact part

end Readers

end Lists

end Coding
