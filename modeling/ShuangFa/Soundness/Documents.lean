import ShuangFa.Proofs.CJsonStrings
import ShuangFa.Soundness.NumberTexts

/-! # Documents are read from every text of theirs

A text spells a document with blanks of its own between the tokens, and with escapes and numbers of its
own. `cJSON_Parse` takes the document off the front of every such text. Of a text that spells nothing
it reads no byte behind the end, if the escapes of its strings are complete and its numbers have an
`int`, and the place of a failure is in the text.
-/

namespace ShuangFa

open Memory Coding Coding.Reading

/-- An induction over the items inside an item. -/
@[elab_as_elim]
theorem CJson.induction {P : CJson → Prop} (null : P .null) (false : P .false) (true : P .true)
    (number : ∀ valueint valuedouble, P (.number valueint valuedouble))
    (string : ∀ valuestring, P (.string valuestring))
    (array : ∀ child : List CJson, (∀ item ∈ child, P item) → P (.array child))
    (object : ∀ child : List (CString × CJson), (∀ member ∈ child, P member.2) → P (.object child)) :
    ∀ item, P item
  | .null => null
  | .false => false
  | .true => true
  | .number valueint valuedouble => number valueint valuedouble
  | .string valuestring => string valuestring
  | .array child => array child fun item member =>
    have := List.sizeOf_lt_of_mem member
    CJson.induction null false true number string array object item
  | .object child => object child fun (name, item) member =>
    have := List.sizeOf_lt_of_mem member
    CJson.induction null false true number string array object item
termination_by item => sizeOf item
decreasing_by
  · simp only [CJson.array.sizeOf_spec]
    omega
  · simp only [CJson.object.sizeOf_spec, Prod.mk.sizeOf_spec] at *
    omega

section Spelling

variable (n : CJsonNumbers)

/-- A name, a colon and what spells the value. -/
inductive SpellsMember (name : CString) (spells : List UInt8 → Prop) : List UInt8 → Prop where
  | colon {body before after text : List UInt8} (named : SpellsString name.bytes body)
    (front : ∀ byte ∈ before, isBlank byte) (behind : ∀ byte ∈ after, isBlank byte)
    (spelled : spells text) :
    SpellsMember name spells (34 :: (body ++ 34 :: (before ++ 58 :: (after ++ text))))

mutual

/-- What stands for a document. -/
def Spells : CJson → List UInt8 → Prop
  | .null, text => text = ascii "null".toList
  | .false, text => text = ascii "false".toList
  | .true, text => text = ascii "true".toList
  | .number valueint valuedouble, text => NumberText n valueint valuedouble text
  | .string valuestring, text =>
    ∃ body, text = 34 :: (body ++ [34]) ∧ SpellsString valuestring.bytes body
  | .array child, text => ∃ inner, text = 91 :: (inner ++ [93]) ∧
    (child = [] ∧ (∀ byte ∈ inner, isBlank byte) ∨ Separated arraySyntax (spellsEach child) inner)
  | .object child, text => ∃ inner, text = 123 :: (inner ++ [125]) ∧
    (child = [] ∧ (∀ byte ∈ inner, isBlank byte) ∨
      Separated objectSyntax (spellsMembers child) inner)

def spellsEach : List CJson → List (List UInt8 → Prop)
  | [] => []
  | item :: child => Spells item :: spellsEach child

def spellsMembers : List (CString × CJson) → List (List UInt8 → Prop)
  | [] => []
  | (name, item) :: child => SpellsMember name (Spells item) :: spellsMembers child

end

variable {n} {item : CJson} {text rest : List UInt8} {fuel : ℕ}

theorem spellsEach_eq (child : List CJson) : spellsEach n child = child.map (Spells n) := by
  induction child with
  | nil => rw [spellsEach, List.map_nil]
  | cons item child ih => rw [spellsEach, List.map_cons, ih]

theorem spellsMembers_eq (child : List (CString × CJson)) :
    spellsMembers n child = child.map fun member => SpellsMember member.1 (Spells n member.2) := by
  induction child with
  | nil => rw [spellsMembers, List.map_nil]
  | cons member child ih => rw [spellsMembers, List.map_cons, ih]

/-- The first byte of a document tells its kind. -/
theorem Spells.head (spelled : Spells n item text) : ∃ letter rest, text = letter :: rest ∧
    isBlank letter = false ∧ letter ≠ 93 ∧ letter ≠ 125 := by
  cases item with
  | null =>
    rw [Spells] at spelled
    exact ⟨_, _, spelled, rfl, by decide⟩
  | false =>
    rw [Spells] at spelled
    exact ⟨_, _, spelled, rfl, by decide⟩
  | true =>
    rw [Spells] at spelled
    exact ⟨_, _, spelled, rfl, by decide⟩
  | number valueint valuedouble =>
    rw [Spells] at spelled
    have starts := spelled.starts
    cases text with
    | nil =>
      rcases starts with sign | digit
      · cases sign
      · cases digit
    | cons letter rest =>
      refine ⟨letter, rest, rfl, (spelled.solid letter (List.mem_cons_self ..)).1, ?_, ?_⟩
      · rintro rfl
        revert starts
        simp [ParseNumber.isDigit]
      · rintro rfl
        revert starts
        simp [ParseNumber.isDigit]
  | string valuestring =>
    rw [Spells] at spelled
    obtain ⟨body, rfl, _⟩ := spelled
    exact ⟨_, _, rfl, rfl, by decide⟩
  | array child =>
    rw [Spells] at spelled
    obtain ⟨inner, rfl, _⟩ := spelled
    exact ⟨_, _, rfl, rfl, by decide⟩
  | object child =>
    rw [Spells] at spelled
    obtain ⟨inner, rfl, _⟩ := spelled
    exact ⟨_, _, rfl, rfl, by decide⟩

end Spelling

section Parser

variable {n : CJsonNumbers} {item : CJson} {letter : UInt8} {text rest : List UInt8} {fuel : ℕ}

/-- No word starts with other letters. -/
theorem parseValue_mark (other : letter ≠ 110 ∧ letter ≠ 102 ∧ letter ≠ 116) :
    parseValue n (fuel + 1) (letter :: rest) =
      if letter = 34 then (parseString (letter :: rest)).map .string
      else if letter = 45 ∨ ParseNumber.isDigit letter then parseItemNumber n (letter :: rest)
      else if letter = 91 then
        (readItems arraySyntax (trimmed isBlank (parseValue n fuel)) fuel (letter :: rest)).map .array
      else if letter = 123 then
        (readItems objectSyntax (parseMember (parseValue n fuel)) fuel (letter :: rest)).map .object
      else failed (letter :: rest) := by
  have absent (word : List UInt8) (count : ℕ) {first : UInt8} {others : List UInt8}
      (split : word = first :: others) (apart : letter ≠ first) :
      ¬ (letter :: rest).take (count + 1) = word := by
    rw [split, List.take_succ_cons]
    exact fun same => apart (List.head_eq_of_cons_eq same)
  rw [parseValue, if_neg (absent (ascii "null".toList) 3 rfl other.1),
    if_neg (absent (ascii "false".toList) 4 rfl other.2.1),
    if_neg (absent (ascii "true".toList) 3 rfl other.2.2)]
  simp only [List.head?_cons, Option.some.injEq, Option.any_some]

theorem blank_stops {byte : UInt8} (blank : isBlank byte) : continuesNumber byte = false := by
  have small : byte ≤ 32 := of_decide_eq_true blank
  rw [UInt8.le_iff_toNat_le] at small
  rw [continuesNumber, decide_eq_false_iff_not, ParseNumber.isDigit, decide_eq_true_iff,
    UInt8.le_iff_toNat_le, UInt8.le_iff_toNat_le]
  simp only [UInt8.reduceToNat] at small ⊢
  rintro (digit | rfl | rfl | rfl)
  · omega
  · exact absurd small (by decide)
  · exact absurd small (by decide)
  · exact absurd small (by decide)

/-- Behind an item of a list no number goes on. -/
theorem ends_stops {l : ListSyntax UInt8} (separator : l.separator = 44)
    (closing : l.closing = 93 ∨ l.closing = 125) {after : List UInt8}
    (blanks : ∀ byte ∈ after, isBlank byte) (ends : l.Ends rest) :
    (after ++ rest).head?.any continuesNumber = false := by
  cases after with
  | nil =>
    rw [List.nil_append]
    rcases ends with same | same
    · rw [same, separator]
      rfl
    · rw [same]
      rcases closing with same | same <;> rw [same] <;> rfl
  | cons byte after =>
    have blank := blanks byte (List.mem_cons_self ..)
    rw [List.cons_append, List.head?_cons, Option.any_some]
    exact blank_stops blank

/-- A number has an end, and the others end by themselves. -/
def EndsBefore (rest : List UInt8) : CJson → Prop
  | .number _ _ => rest.head?.any continuesNumber = false
  | _ => True

theorem endsBefore_of_stops (stops : rest.head?.any continuesNumber = false) :
    EndsBefore rest item := by
  cases item with
  | number valueint valuedouble => exact stops
  | null | false | true | string | array | object => exact trivial

/-- What spells a document is read. -/
def ReadsDocument (n : CJsonNumbers) (item : CJson) : Prop :=
  ∀ (text : List UInt8) (fuel : ℕ), Spells n item text → text.length ≤ fuel →
    ∀ rest, EndsBefore rest item → parseValue n fuel (text ++ rest) = read item rest

/-- An item of an array. -/
theorem ReadsDocument.readsItem (reads : ReadsDocument n item) :
    arraySyntax.ReadsItem (trimmed isBlank (parseValue n fuel)) fuel item (Spells n item) := by
  apply trimmed_padded
  · intro text spelled
    obtain ⟨letter, rest, rfl, solid, _⟩ := spelled.head
    exact ⟨solid, List.cons_ne_nil _ _⟩
  · intro text after rest spelled short blanks ends
    exact reads _ _ spelled short _
      (endsBefore_of_stops (ends_stops rfl (.inl rfl) blanks ends))

/-- A member of an object. -/
theorem ReadsDocument.readsMember (reads : ReadsDocument n item) (name : CString) :
    objectSyntax.ReadsItem (parseMember (parseValue n fuel)) fuel (name, item)
      (SpellsMember name (Spells n item)) := by
  rintro _ @⟨before, _, after, front, @⟨body, left, right, text, named, blanks, others, spelled⟩,
    behind⟩ short rest ends
  obtain ⟨letter, more, rfl, solid, _⟩ := spelled.head
  have split : before ++ (34 :: (body ++ 34 :: (left ++ 58 :: (right ++ letter :: more))) ++ after) ++
      rest = before ++ 34 :: (body ++ 34 :: (left ++ 58 :: (right ++
        (letter :: more ++ (after ++ rest))))) := by
    simp only [List.append_assoc, List.cons_append]
  have quote (more : List UInt8) : skip isBlank (before ++ 34 :: more) = 34 :: more :=
    skip_blanks front rfl
  have colon (more : List UInt8) : skip isBlank (left ++ 58 :: more) = 58 :: more :=
    skip_blanks blanks rfl
  have value : skip isBlank (right ++ (letter :: more ++ (after ++ rest))) =
      letter :: more ++ (after ++ rest) := skip_blanks others solid
  have last : skip isBlank (after ++ rest) = rest := skip_blanks behind ends.solid
  have long : (letter :: more).length ≤ fuel := by
    simp only [List.length_append, List.length_cons] at short ⊢
    omega
  rw [split, parseMember, trimmed, quote, parseString_spelled named, andThen_read, andThen_read,
    colon, if_neg (not_not_intro List.head?_cons), List.tail_cons, trimmed, value,
    reads _ _ spelled long _ (endsBefore_of_stops (ends_stops rfl (.inr rfl) behind ends)),
    andThen_read, last, map_read]

/-- A text that spells something takes a turn of the parser. -/
theorem readsDocument_of (turn : ∀ {text : List UInt8} {fuel : ℕ}, Spells n item text →
    text.length ≤ fuel + 1 → ∀ rest, EndsBefore rest item →
      parseValue n (fuel + 1) (text ++ rest) = read item rest) : ReadsDocument n item := by
  intro text fuel spelled short rest stops
  obtain ⟨letter, more, split, _⟩ := spelled.head
  obtain ⟨fuel, rfl⟩ := Nat.exists_eq_succ_of_ne_zero
    (show fuel ≠ 0 by rw [split, List.length_cons] at short; omega)
  exact turn spelled short rest stops

/-- `parse_value` reads every text of a document. -/
theorem parseValue_spelled (item : CJson) : ReadsDocument n item := by
  induction item using CJson.induction with
  | null =>
    apply readsDocument_of
    intro text fuel spelled _ rest _
    rw [Spells] at spelled
    subst spelled
    rfl
  | false =>
    apply readsDocument_of
    intro text fuel spelled _ rest _
    rw [Spells] at spelled
    subst spelled
    rfl
  | true =>
    apply readsDocument_of
    intro text fuel spelled _ rest _
    rw [Spells] at spelled
    subst spelled
    rfl
  | number valueint valuedouble =>
    apply readsDocument_of
    intro text fuel spelled _ rest stops
    rw [Spells] at spelled
    have starts := spelled.starts
    have parsed := spelled.parsed stops
    obtain ⟨letter, more, rfl⟩ : ∃ letter more, text = letter :: more := by
      cases text with
      | nil => simp at starts
      | cons letter more => exact ⟨letter, more, rfl⟩
    rw [List.head?_cons, Option.some.injEq, Option.any_some] at starts
    have mark : letter ≠ 110 ∧ letter ≠ 102 ∧ letter ≠ 116 ∧ letter ≠ 34 := by
      rcases starts with rfl | digit
      · decide
      · refine ⟨?_, ?_, ?_, ?_⟩ <;> (rintro rfl; cases digit)
    rw [List.cons_append, parseValue_mark ⟨mark.1, mark.2.1, mark.2.2.1⟩, if_neg mark.2.2.2,
      if_pos starts, parseItemNumber, ← List.cons_append, parsed]
  | string valuestring =>
    apply readsDocument_of
    intro text fuel spelled _ rest _
    rw [Spells] at spelled
    obtain ⟨body, rfl, spelled⟩ := spelled
    rw [List.cons_append, parseValue_mark (by decide), if_pos rfl, List.append_assoc,
      List.singleton_append, parseString_spelled spelled, map_read]
  | array child ih =>
    apply readsDocument_of
    intro text fuel spelled short rest _
    rw [Spells] at spelled
    obtain ⟨inner, rfl, list⟩ := spelled
    rw [List.length_cons, List.length_append, List.length_singleton] at short
    rw [List.cons_append, parseValue_mark (by decide), if_neg (by decide), if_neg (by decide),
      if_pos rfl, List.append_assoc]
    suffices listed : readItems arraySyntax (trimmed isBlank (parseValue n fuel)) fuel
        (91 :: (inner ++ 93 :: rest)) = read child rest from congrArg (Reading.map CJson.array) listed
    rcases list with ⟨rfl, blanks⟩ | separated
    · exact readItems_empty (l := arraySyntax) blanks
    · have reads : List.Forall₂ (arraySyntax.ReadsItem (trimmed isBlank (parseValue n fuel)) fuel)
          child (child.map (Spells n)) := by
        rw [List.forall₂_map_right_iff, List.forall₂_same]
        exact fun item member => (ih item member).readsItem
      rw [spellsEach_eq] at separated
      refine readItems_separated reads ?_ separated (by omega) (by omega)
      intro spells member text spelled
      obtain ⟨item, _, rfl⟩ := List.mem_map.mp member
      obtain ⟨letter, more, split, solid, other, _⟩ := spelled.head
      exact ⟨letter, more, split, solid, other⟩
  | object child ih =>
    apply readsDocument_of
    intro text fuel spelled short rest _
    rw [Spells] at spelled
    obtain ⟨inner, rfl, list⟩ := spelled
    rw [List.length_cons, List.length_append, List.length_singleton] at short
    rw [List.cons_append, parseValue_mark (by decide), if_neg (by decide), if_neg (by decide),
      if_neg (by decide), if_pos rfl, List.append_assoc]
    suffices listed : readItems objectSyntax (parseMember (parseValue n fuel)) fuel
        (123 :: (inner ++ 125 :: rest)) = read child rest from
      congrArg (Reading.map CJson.object) listed
    rcases list with ⟨rfl, blanks⟩ | separated
    · exact readItems_empty (l := objectSyntax) blanks
    · have reads : List.Forall₂ (objectSyntax.ReadsItem (parseMember (parseValue n fuel)) fuel)
          child (child.map fun member => SpellsMember member.1 (Spells n member.2)) := by
        rw [List.forall₂_map_right_iff, List.forall₂_same]
        exact fun member inside => (ih member inside).readsMember member.1
      rw [spellsMembers_eq] at separated
      refine readItems_separated reads ?_ separated (by omega) (by omega)
      intro spells inside text spelled
      obtain ⟨member, _, rfl⟩ := List.mem_map.mp inside
      obtain @⟨body, before, after, text, _, _, _, _⟩ := spelled
      exact ⟨34, _, rfl, rfl, by decide⟩

/-- The value behind the blanks in front is read. -/
theorem parseValue_padded (spelled : Spells n item text) {before : List UInt8}
    (blanks : ∀ byte ∈ before, isBlank byte) (rest : List UInt8) (ends : EndsBefore rest item) :
    parseValue n ((before ++ (text ++ rest)).length + 1) (skip isBlank (before ++ (text ++ rest))) =
      read item rest := by
  obtain ⟨letter, more, split, solid, _⟩ := spelled.head
  have first : skip isBlank (before ++ (text ++ rest)) = text ++ rest := by
    apply skip_blanks blanks
    rwa [split, List.cons_append, List.head?_cons, Option.any_some]
  rw [first]
  apply parseValue_spelled item _ _ spelled _ rest ends
  simp only [List.length_append]
  omega

theorem cJsonParse_padded (spelled : Spells n item text) {before : List UInt8}
    (blanks : ∀ byte ∈ before, isBlank byte) (rest : List UInt8) (ends : EndsBefore rest item) :
    cJsonParse n (before ++ (text ++ rest)) = read item rest := by
  rw [cJsonParse, cJsonParseWithOpts, parseValue_padded spelled blanks rest ends]
  rfl

/-- `cJSON_Parse` takes a document off the front of every text that spells it, with blanks in front and
whatever follows, but not what goes on with a number. So does `cJSON_ParseWithOpts`, which may insist
that nothing but blanks follows. -/
theorem cJsonParse_spelled (n : CJsonNumbers) (item : CJson) {text : List UInt8}
    (spelled : Spells n item text) {before : List UInt8} (blanks : ∀ byte ∈ before, isBlank byte)
    (rest : List UInt8) (ends : EndsBefore rest item) :
    cJsonParse n (before ++ (text ++ rest)) = read item rest ∧
      cJsonParseWithOpts n true (before ++ (text ++ rest)) =
        if skip isBlank rest = [] then read item [] else failed (skip isBlank rest) := by
  refine ⟨cJsonParse_padded spelled blanks rest ends, ?_⟩
  rw [cJsonParseWithOpts, parseValue_padded spelled blanks rest ends]
  rfl

/-- Powers with a whole exponent. -/
def wholePowers : CJsonNumbers where
  pow base exponent := match exponent.toModel.unpack.toInt 0 0 with
    | .ofNat count => (fun power => power * base)^[count] (double 1)
    | .negSucc count => double 1 / (fun power => power * base)^[count + 1] (double 1)
  pow_zero _ := rfl

/-- A string with an escape and a number with a sign and a fraction, and blanks around them. -/
theorem cJsonParse_spelled_escape :
    let item : CJson := .array [.string (literal "A"), .number (-5) (double (-5))]
    let text := ascii "[ \"\\u0041\",-5.0 ]".toList
    cJsonParse wholePowers ([32] ++ (text ++ [120])) = read item [120] ∧
      cJsonParseWithOpts wholePowers true ([32] ++ (text ++ [120])) =
        if skip isBlank [120] = [] then read item [] else failed (skip isBlank [120]) := by
  have hex : HexDigits 'A'.toNat [48, 48, 52, 49] :=
    ⟨(48, 0), (48, 0), (52, 4), (49, 1), rfl, by decide, rfl⟩
  have string : Spells wholePowers (.string (literal "A"))
      (34 :: (92 :: 117 :: ([48, 48, 52, 49] ++ []) ++ [34])) := by
    rw [Spells]
    exact ⟨_, rfl, .unit (by decide) hex .nil⟩
  have digit (byte : UInt8) (is : ParseNumber.isDigit byte) : Digits [byte] :=
    ⟨List.cons_ne_nil _ _, List.forall_mem_singleton.mpr is⟩
  have number : Spells wholePowers (.number (-5) (double (-5))) [45, 53, 46, 48] := by
    rw [Spells]
    exact @NumberText.spelled _ _ _ true [53] [48] [46, 48] [] 0 (digit 53 rfl) (.inr (by decide))
      (.point (digit 48 rfl)) (by decide) .absent (by decide +kernel) (by decide +kernel)
  refine cJsonParse_spelled wholePowers _ ?_ (List.forall_mem_singleton.mpr rfl) [120] trivial
  rw [Spells, spellsEach, spellsEach, spellsEach]
  refine ⟨ascii " \"\\u0041\",-5.0 ".toList, by decide, .inr ?_⟩
  exact .more (@Padded.pad _ _ _ [32] _ [] (List.forall_mem_singleton.mpr rfl) string
      (List.forall_mem_nil _))
    (.last (@Padded.pad _ _ _ [] _ [32] (List.forall_mem_nil _) number
      (List.forall_mem_singleton.mpr rfl)))

end Parser

section Places

variable {n : CJsonNumbers} {d : DoubleArithmetic} {num text : List UInt8} {fuel : ℕ}

theorem suffix_of_tail {front : List UInt8} (part : text <:+ front.tail) : text <:+ front :=
  part.trans (List.tail_suffix _)

/-- The digits of a number are in front of what is left. -/
theorem numberLoop_suffix (number : d.Double) (num : List UInt8) :
    (ParseNumber.numberLoop d number num).2 <:+ num := by
  induction num generalizing number with
  | nil => exact List.suffix_refl _
  | cons byte num ih =>
    rw [ParseNumber.numberLoop]
    split
    · exact (ih _).trans (List.suffix_cons ..)
    · exact List.suffix_refl _

theorem fractionLoop_suffix (number scale : d.Double) (num : List UInt8) :
    (ParseNumber.fractionLoop d number scale num).2.2 <:+ num := by
  induction num generalizing number scale with
  | nil => exact List.suffix_refl _
  | cons byte num ih =>
    rw [ParseNumber.fractionLoop]
    split
    · exact (ih _ _).trans (List.suffix_cons ..)
    · exact List.suffix_refl _

theorem exponentLoop_suffix {subscale last : ℤ} {rest : List UInt8}
    (read : ParseNumber.exponentLoop subscale num = some (last, rest)) : rest <:+ num := by
  induction num generalizing subscale with
  | nil =>
    obtain ⟨rfl, rfl⟩ := Prod.mk.inj (Option.some.inj read)
    exact List.suffix_refl _
  | cons byte num ih =>
    rw [ParseNumber.exponentLoop] at read
    split at read
    · dsimp only at read
      split at read
      · exact (ih read).trans (List.suffix_cons ..)
      · cases read
    · obtain ⟨rfl, rfl⟩ := Prod.mk.inj (Option.some.inj read)
      exact List.suffix_refl _

theorem number_suffix (num : List UInt8) : (ParseNumber.number d num).2 <:+ num := by
  rw [ParseNumber.number]
  split
  · exact numberLoop_suffix ..
  · exact List.suffix_refl _

theorem fraction_suffix (number : d.Double) (num : List UInt8) :
    (ParseNumber.fraction d number num).2.2 <:+ num := by
  rw [ParseNumber.fraction]
  split
  · exact suffix_of_tail (fractionLoop_suffix ..)
  · exact List.suffix_refl _

theorem exponent_suffix {last : ℤ} {rest : List UInt8}
    (read : ParseNumber.exponent num = some (last, rest)) : rest <:+ num := by
  rw [ParseNumber.exponent] at read
  split at read
  · apply suffix_of_tail
    split at read
    · rename_i behind
      rw [behind]
      exact (exponentLoop_suffix read).trans (List.suffix_cons ..)
    · rename_i behind
      rw [behind]
      obtain ⟨⟨subscale, left⟩, looped, same⟩ := Option.map_eq_some_iff.mp read
      obtain ⟨rfl, rfl⟩ := Prod.mk.inj same
      exact (exponentLoop_suffix looped).trans (List.suffix_cons ..)
    · exact exponentLoop_suffix read
  · obtain ⟨rfl, rfl⟩ := Prod.mk.inj (Option.some.inj read)
    exact List.suffix_refl _

/-- Behind a sign and the digits something is gone. -/
theorem number_behind {letter : UInt8} (starts : letter = 45 ∨ ParseNumber.isDigit letter)
    (rest : List UInt8) :
    let unsigned := if (letter :: rest).head? = some 45 then rest else letter :: rest
    let num := if unsigned.head? = some 48 then unsigned.tail else unsigned
    (ParseNumber.number d num).2 <:+ rest := by
  intro unsigned num
  rcases eq_or_ne letter 45 with rfl | sign
  · have stripped : unsigned = rest := if_pos rfl
    have zeroed : num <:+ unsigned := by
      dsimp only [num]
      split
      · exact List.tail_suffix _
      · exact List.suffix_refl _
    exact (number_suffix _).trans (stripped ▸ zeroed)
  have same : unsigned = letter :: rest := if_neg (fun head => sign (Option.some.inj head))
  rcases eq_or_ne letter 48 with rfl | zero
  · have stripped : num = rest := by
      dsimp only [num]
      rw [same]
      rfl
    rw [stripped]
    exact number_suffix _
  · have kept : num = letter :: rest := by
      dsimp only [num]
      rw [same]
      exact if_neg (fun head => zero (Option.some.inj head))
    have digit : ParseNumber.isDigit letter := starts.resolve_left sign
    have positive : 49 ≤ letter ∧ letter ≤ 57 := by
      obtain ⟨low, high⟩ := of_decide_eq_true digit
      have other : letter.toNat ≠ 48 := fun same => zero (UInt8.toNat_inj.mp same)
      have least : 48 ≤ letter.toNat := low
      exact ⟨show 49 ≤ letter.toNat by omega, high⟩
    have first : (letter :: rest).head?.any (fun byte => 49 ≤ byte ∧ byte ≤ 57) = true :=
      decide_eq_true positive
    rw [kept, ParseNumber.number, if_pos first, ParseNumber.numberLoop, if_pos digit]
    exact numberLoop_suffix ..

/-- `parse_number` takes a sign or a digit at least. -/
theorem parseNumber_suffix {parsed : ParsedNumber d.Double} (read : parseNumber d num = some parsed)
    (starts : num.head? = some 45 ∨ num.head?.any ParseNumber.isDigit) :
    parsed.num <:+ num ∧ parsed.num.length < num.length := by
  cases num with
  | nil => simp at starts
  | cons letter rest =>
    rw [List.head?_cons, Option.some.injEq, Option.any_some] at starts
    have behind := @number_behind d letter starts rest
    rw [parseNumber] at read
    simp only [Option.bind_eq_bind, Option.bind_eq_some_iff, List.tail_cons] at read behind
    obtain ⟨⟨subscale, last⟩, exponent, valueint, _, same⟩ := read
    obtain rfl := Option.some.inj same
    have part : last <:+ rest := (exponent_suffix exponent).trans ((fraction_suffix ..).trans behind)
    exact ⟨part.trans (List.suffix_cons ..), Nat.lt_succ_of_le part.length_le⟩

/-- The tokens of a text, to its end: the escapes of each string are complete, and each number has an
`int`. The digits in a string or in a number are no numbers of their own. -/
inductive Tokens (n : CJsonNumbers) : List UInt8 → Prop where
  | done : Tokens n []
  | other {byte : UInt8} {rest : List UInt8}
    (plain : byte ≠ 34 ∧ byte ≠ 45 ∧ ParseNumber.isDigit byte = false) (later : Tokens n rest) :
    Tokens n (byte :: rest)
  | string {ptr : List UInt8} (complete : EscapesComplete ptr)
    (later : ∀ string rest, parseString (34 :: ptr) = read string rest → Tokens n rest) :
    Tokens n (34 :: ptr)
  | number {num : List UInt8} {parsed : ParsedNumber n.d.Double}
    (starts : num.head? = some 45 ∨ num.head?.any ParseNumber.isDigit)
    (int : parseNumber n.d num = some parsed) (later : Tokens n parsed.num) : Tokens n num

/-- Bytes that are part of no string and no number are passed. -/
theorem Tokens.passes {byte : UInt8}
    (plain : byte ≠ 34 ∧ byte ≠ 45 ∧ ParseNumber.isDigit byte = false) : Passes (Tokens n) byte := by
  intro rest tokens
  cases tokens with
  | other _ later => exact later
  | string complete later => exact absurd rfl plain.1
  | number starts int later =>
    rcases starts with sign | digit
    · exact absurd (Option.some.inj sign) plain.2.1
    · rw [List.head?_cons, Option.any_some, plain.2.2] at digit
      cases digit

theorem Tokens.blank (byte : UInt8) (blank : isBlank byte) : Passes (Tokens n) byte := by
  have stops := blank_stops blank
  rw [continuesNumber, decide_eq_false_iff_not, not_or] at stops
  refine Tokens.passes ⟨?_, ?_, Bool.not_eq_true _ ▸ stops.1⟩
  · rintro rfl
    cases blank
  · rintro rfl
    cases blank

theorem Tokens.array : arraySyntax.Passes (Tokens n) where
  opening := Tokens.passes (by decide)
  closing := Tokens.passes (by decide)
  separator := Tokens.passes (by decide)
  blank := Tokens.blank

theorem Tokens.object : objectSyntax.Passes (Tokens n) where
  opening := Tokens.passes (by decide)
  closing := Tokens.passes (by decide)
  separator := Tokens.passes (by decide)
  blank := Tokens.blank

/-- A word is passed byte by byte. -/
theorem word_inside {value : CJson} {count : ℕ} {word : List UInt8} (size : word.length = count + 1)
    (same : text.take (count + 1) = word)
    (plain : ∀ byte ∈ word, byte ≠ 34 ∧ byte ≠ 45 ∧ ParseNumber.isDigit byte = false)
    (tokens : Tokens n text) :
    (Reading.read value (text.drop (count + 1))).Inside (Tokens n) text := by
  have long : count + 1 ≤ text.length := by
    rw [← size, ← same, List.length_take]
    exact Nat.min_le_right ..
  refine ⟨List.drop_suffix .., ?_, ?_⟩
  · rw [List.length_drop]
    omega
  · rw [← List.take_append_drop (count + 1) text, same] at tokens
    generalize text.drop (count + 1) = rest at tokens
    clear size same
    induction word with
    | nil => exact tokens
    | cons byte word ih =>
      obtain ⟨first, others⟩ := List.forall_mem_cons.mp plain
      exact ih others (Tokens.passes first _ tokens)

theorem parseItemNumber_inside (tokens : Tokens n text)
    (starts : text.head? = some 45 ∨ text.head?.any ParseNumber.isDigit) :
    (parseItemNumber n text).Inside (Tokens n) text := by
  cases tokens with
  | done => simp at starts
  | @other byte rest plain later =>
    rcases starts with sign | digit
    · exact absurd (Option.some.inj sign) plain.2.1
    · rw [List.head?_cons, Option.any_some, plain.2.2] at digit
      cases digit
  | string complete later => simp [ParseNumber.isDigit] at starts
  | number _ int later =>
    obtain ⟨part, shorter⟩ := parseNumber_suffix int starts
    rw [parseItemNumber, int]
    exact ⟨part, shorter, later⟩

theorem parseString_staysInside (bound : ℕ) : StaysInside parseString (Tokens n) bound := by
  intro text _ tokens
  by_cases quote : text.head? = some 34
  · obtain ⟨ptr, rfl⟩ := List.head?_eq_some_iff.mp quote
    cases tokens with
    | other plain later => exact absurd rfl plain.1
    | string complete later =>
      refine (parseString_inside ?_).of_left later
      intro other same
      rwa [← (List.cons.inj same).2]
    | number starts int later => simp [ParseNumber.isDigit] at starts
  · rw [parseString, if_pos quote]
    exact List.suffix_refl _

theorem parseMember_inside {value : List UInt8 → Reading UInt8 CJson} {bound : ℕ}
    (inside : StaysInside value (Tokens n) bound) :
    StaysInside (parseMember value) (Tokens n) bound := by
  intro text short tokens
  apply (trimmed_inside (parseString_staysInside bound) Tokens.blank text short tokens).andThen
  intro name rest part shorter left
  split
  · exact part
  · rename_i colon
    obtain ⟨within, less⟩ := tail_shorter (not_not.mp colon)
    have behind := within.trans part
    have passed := (Tokens.passes (by decide)).tail (not_not.mp colon) left
    exact .of_suffix (.map _ (trimmed_inside inside Tokens.blank rest.tail (by omega) passed)) behind

/-- `parse_value` stays inside a text of tokens. -/
theorem parseValue_inside (fuel : ℕ) : StaysInside (parseValue n fuel) (Tokens n) fuel := by
  induction fuel with
  | zero =>
    intro text short
    exact absurd short (Nat.not_lt_zero _)
  | succ fuel ih =>
    intro text short tokens
    rw [parseValue]
    split_ifs with null false true quote number array object
    · exact word_inside rfl null (by simp [ascii, ParseNumber.isDigit]) tokens
    · exact word_inside rfl false (by simp [ascii, ParseNumber.isDigit]) tokens
    · exact word_inside rfl true (by simp [ascii, ParseNumber.isDigit]) tokens
    · exact (parseString_staysInside _ text short tokens).map _
    · exact parseItemNumber_inside tokens number
    · exact .map _ (readItems_inside (trimmed_inside ih Tokens.blank) Tokens.array
        (Nat.le_of_lt_succ short) tokens (Nat.le_of_lt_succ short))
    · exact .map _ (readItems_inside (parseMember_inside ih) Tokens.object
        (Nat.le_of_lt_succ short) tokens (Nat.le_of_lt_succ short))
    · exact List.suffix_refl _

/-- Of any text where the escapes of each string are complete and where each number has an `int`,
`cJSON_ParseWithOpts` reads no byte behind the end and writes none behind what it allocates; what is
left, or the place of the failure, is a part of the text, and what is left is such a text too. -/
theorem cJsonParseWithOpts_inside (n : CJsonNumbers) (requireNullTerminated : Bool)
    (text : List UInt8) (tokens : Tokens n text) :
    (cJsonParseWithOpts n requireNullTerminated text).Inside (Tokens n) text := by
  have front := skip_suffix isBlank text
  have parsed := parseValue_inside (n := n) (text.length + 1) (skip isBlank text)
    (Nat.lt_succ_of_le front.length_le) (good_skip Tokens.blank tokens)
  apply (parsed.of_suffix front).andThen
  intro item rest part shorter left
  have behind := skip_suffix isBlank rest
  split_ifs
  · exact ⟨List.nil_suffix, (Nat.zero_le _).trans_lt shorter, .done⟩
  · exact behind.trans part
  · exact ⟨part, shorter, left⟩

/-- Plain bytes in front of a string leave its escapes. -/
theorem escapesComplete_append {digits rest : List UInt8} (plain : ∀ byte ∈ digits, byte ≠ 34 ∧ byte ≠ 92) :
    EscapesComplete (digits ++ rest) ↔ EscapesComplete rest := by
  induction digits with
  | nil => rfl
  | cons byte digits ih =>
    obtain ⟨first, others⟩ := List.forall_mem_cons.mp plain
    rw [List.cons_append, escapesComplete_plain first, ih others]

/-- A number with many digits, and a string of as many that does not end. -/
theorem cJsonParseWithOpts_inside_endless :
    let digits := List.replicate 11 49
    let text := 91 :: 48 :: 46 :: (digits ++ 44 :: 34 :: (digits ++ [92, 110]))
    (cJsonParseWithOpts wholePowers true text).Inside (Tokens wholePowers) text := by
  intro digits text
  have complete : EscapesComplete (digits ++ [92, 110]) := by
    refine (escapesComplete_append ?_).mpr ⟨fun other => absurd other (by decide), trivial⟩
    intro byte member
    rw [List.eq_of_mem_replicate member]
    decide
  have string : Tokens wholePowers (34 :: (digits ++ [92, 110])) := by
    refine .string complete ?_
    intro string rest found
    have ends : parseString (34 :: (digits ++ [92, 110])) = read (.ofBytes (digits ++ [10])) [] := by
      decide +kernel
    obtain ⟨-, rfl⟩ := Reading.read.inj (found.symm.trans ends)
    exact .done
  have number : (parseNumber wholePowers.d
      (48 :: 46 :: (digits ++ 44 :: 34 :: (digits ++ [92, 110])))).map ParsedNumber.num =
        some (44 :: 34 :: (digits ++ [92, 110])) := by decide +kernel
  obtain ⟨parsed, int, same⟩ := Option.map_eq_some_iff.mp number
  refine cJsonParseWithOpts_inside wholePowers true text (.other (by decide) (.number (.inr rfl) int ?_))
  rw [same]
  exact .other (by decide) string

end Places

end ShuangFa
