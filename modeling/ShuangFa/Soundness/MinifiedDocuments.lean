import ShuangFa.Soundness.PrintedDocuments

/-! # A minified text spells what it did

`cJSON_Minify` goes through the tokens of a document one by one, keeps what is inside strings, and
leaves some of the blanks out. What is left spells the same document. Of what `cJSON_Print` writes it
leaves what `cJSON_PrintUnformatted` writes.
-/

namespace ShuangFa

open Memory Coding Coding.Reading

/-- A text that is minified by itself, whatever follows. -/
def Minifies (text short : List UInt8) : Prop :=
  ∀ rest, cJsonMinify (text ++ rest) = (cJsonMinify rest).map (short ++ ·)

section Tokens

variable {text short first second left right rest string body : List UInt8} {byte : UInt8}

theorem minifies_nil : Minifies [] [] := by
  intro rest
  rw [List.nil_append]
  simp

theorem Minifies.append (before : Minifies first left) (behind : Minifies second right) :
    Minifies (first ++ second) (left ++ right) := by
  intro rest
  rw [List.append_assoc, before, behind, Option.map_map]
  congr 1
  funext more
  exact (List.append_assoc ..).symm

/-- A byte apart from blanks, quotes and comments is kept. -/
theorem minifies_solid (solid : SolidByte byte) :
    Minifies [byte] [byte] := by
  intro rest
  have apart : ¬ (byte = 32 ∨ byte = 9 ∨ byte = 13 ∨ byte = 10) := by
    rintro (rfl | rfl | rfl | rfl) <;> cases solid.1
  rw [List.singleton_append, cJsonMinify, if_neg apart, if_neg (fun both => solid.2.2.1 both.1),
    if_neg (fun both => solid.2.2.1 both.1), if_neg solid.2.1]
  rfl

/-- A text of such bytes. -/
theorem minifies_plain (solid : ∀ byte ∈ text, SolidByte byte) :
    Minifies text text := by
  induction text with
  | nil => exact minifies_nil
  | cons byte text ih =>
    obtain ⟨head, later⟩ := List.forall_mem_cons.mp solid
    exact (minifies_solid head).append (ih later)

/-- Blanks that are left out or kept are blanks. -/
theorem minifies_blanks (blanks : ∀ byte ∈ text, isBlank byte) :
    ∃ short, Minifies text short ∧ ∀ byte ∈ short, isBlank byte := by
  induction text with
  | nil => exact ⟨[], minifies_nil, List.forall_mem_nil _⟩
  | cons byte text ih =>
    obtain ⟨head, later⟩ := List.forall_mem_cons.mp blanks
    obtain ⟨short, minified, blank⟩ := ih later
    have one : Minifies [byte] [] ∨ Minifies [byte] [byte] := by
      rcases em (byte = 32 ∨ byte = 9 ∨ byte = 13 ∨ byte = 10) with space | other
      · left
        intro rest
        rw [List.singleton_append, cJsonMinify, if_pos space]
        simp
      · right
        intro rest
        have slash : byte ≠ 47 := by
          rintro rfl
          cases head
        have quote : byte ≠ 34 := by
          rintro rfl
          cases head
        rw [List.singleton_append, cJsonMinify, if_neg other, if_neg (fun both => slash both.1),
          if_neg (fun both => slash both.1), if_neg quote]
        rfl
    rcases one with gone | kept
    · exact ⟨[] ++ short, gone.append minified, blank⟩
    · exact ⟨[byte] ++ short, kept.append minified, List.forall_mem_cons.mpr ⟨head, blank⟩⟩

/-- The four blanks that are printed are left out. -/
theorem minifies_spaces (spaces : ∀ byte ∈ text, byte = 32 ∨ byte = 9 ∨ byte = 10) :
    Minifies text [] := by
  induction text with
  | nil => exact minifies_nil
  | cons byte text ih =>
    obtain ⟨head, later⟩ := List.forall_mem_cons.mp spaces
    have one : Minifies [byte] [] := by
      intro rest
      rw [List.singleton_append, cJsonMinify, if_pos (by tauto)]
      simp
    exact one.append (ih later)

theorem copyString_plain (plain : byte ≠ 34 ∧ byte ≠ 92) (rest : List UInt8) :
    copyString (byte :: rest) =
      (copyString rest).map fun (into, json) => (byte :: into, json) := by
  rw [copyString.eq_def]
  dsimp only
  rw [if_neg plain.1, if_neg plain.2]

theorem HexDigits.copyString {code : ℕ} {digits : List UInt8} (hex : HexDigits code digits)
    {into : List UInt8} (copied : copyString text = some (into, rest)) :
    ShuangFa.copyString (digits ++ text) = some (digits ++ into, rest) := by
  have plain := hex.plain
  clear hex
  induction digits with
  | nil => exact copied
  | cons digit digits ih =>
    obtain ⟨head, later⟩ := List.forall_mem_cons.mp plain
    rw [List.cons_append, copyString_plain head, ih later]
    rfl

/-- A string is copied up to its quote. -/
theorem SpellsString.copyString (spelled : SpellsString string body) (rest : List UInt8) :
    ShuangFa.copyString (body ++ 34 :: rest) = some (body ++ [34], rest) := by
  have escape (letter : UInt8) (json : List UInt8) : ShuangFa.copyString (92 :: letter :: json) =
      (ShuangFa.copyString json).map fun (into, json) => (92 :: letter :: into, json) := rfl
  induction spelled with
  | nil =>
    rw [List.nil_append, ShuangFa.copyString.eq_def]
    exact if_pos rfl
  | byte plain later ih =>
    rw [List.cons_append, copyString_plain plain.2, ih]
    rfl
  | letter stands later ih =>
    rw [List.cons_append, List.cons_append, escape, ih]
    rfl
  | unit nonzero hex later ih =>
    rw [List.cons_append, List.cons_append, List.append_assoc, escape, hex.copyString ih,
      Option.map_some, List.cons_append, List.cons_append, List.append_assoc]
  | @pair _ high low _ body large front back later ih =>
    have split (last : List UInt8) : 92 :: 117 :: (high ++ 92 :: 117 :: (low ++ body)) ++ last =
        92 :: 117 :: (high ++ 92 :: 117 :: (low ++ (body ++ last))) := by
      simp only [List.cons_append, List.append_assoc]
    have half : ShuangFa.copyString (92 :: 117 :: (low ++ (body ++ 34 :: rest))) =
        some (92 :: 117 :: (low ++ (body ++ [34])), rest) := by
      rw [escape, back.copyString ih]
      rfl
    rw [split, split, escape, front.copyString half]
    rfl

theorem minifies_string (spelled : SpellsString string body) :
    Minifies (34 :: (body ++ [34])) (34 :: (body ++ [34])) := by
  intro rest
  have copied := spelled.copyString rest
  rw [List.cons_append, List.append_assoc, List.singleton_append, cJsonMinify, if_neg (by decide),
    if_neg (fun both => absurd both.1 (by decide)), if_neg (fun both => absurd both.1 (by decide)),
    if_pos rfl]
  split
  · rename_i none
    rw [copied] at none
    cases none
  · rename_i some
    rw [copied] at some
    cases some
    rfl

end Tokens

section Lists

variable {n : CJsonNumbers} {spells : List UInt8 → Prop} {text : List UInt8}
  {predicates : List (List UInt8 → Prop)} {l : ListSyntax UInt8}

/-- What spells something, minified, spells it still. -/
def StaysSpelled (spells : List UInt8 → Prop) : Prop :=
  ∀ text, spells text → ∃ short, Minifies text short ∧ spells short

theorem StaysSpelled.padded (stays : StaysSpelled spells) : StaysSpelled (Padded isBlank spells) := by
  rintro _ @⟨before, text, after, front, spelled, behind⟩
  obtain ⟨first, minifiesFirst, blankFirst⟩ := minifies_blanks front
  obtain ⟨last, minifiesLast, blankLast⟩ := minifies_blanks behind
  obtain ⟨short, minifies, spelledShort⟩ := stays text spelled
  exact ⟨_, minifiesFirst.append (minifies.append minifiesLast),
    .pad blankFirst spelledShort blankLast⟩

/-- A list of what stays spelled. -/
theorem staysSpelled_separated (blank : l.blank = isBlank) (separator : l.separator = 44)
    (all : ∀ spells ∈ predicates, StaysSpelled spells) : StaysSpelled (Separated l predicates) := by
  intro text separated
  have comma : Minifies [l.separator] [l.separator] := by
    rw [separator]
    exact minifies_solid (by decide)
  induction separated with
  | last spelled =>
    rw [blank] at spelled
    obtain ⟨short, minifies, padded⟩ := (all _ (List.mem_singleton_self _)).padded _ spelled
    exact ⟨short, minifies, .last (by rwa [blank])⟩
  | more spelled later ih =>
    obtain ⟨first, others⟩ := List.forall_mem_cons.mp all
    rw [blank] at spelled
    obtain ⟨short, minifies, padded⟩ := first.padded _ spelled
    obtain ⟨rest, minifiesRest, separated⟩ := ih others
    exact ⟨_, minifies.append (comma.append minifiesRest), .more (by rwa [blank]) separated⟩

/-- Between brackets. -/
theorem minifies_brackets {opening closing : UInt8} {inner short : List UInt8}
    (first : SolidByte opening)
    (last : SolidByte closing) (minifies : Minifies inner short) :
    Minifies (opening :: (inner ++ [closing])) (opening :: (short ++ [closing])) :=
  (minifies_solid first).append (minifies.append (minifies_solid last))

theorem StaysSpelled.member (stays : StaysSpelled spells) (name : CString) :
    StaysSpelled (SpellsMember name spells) := by
  rintro _ @⟨body, before, after, text, named, front, behind, spelled⟩
  obtain ⟨first, minifiesFirst, blankFirst⟩ := minifies_blanks front
  obtain ⟨last, minifiesLast, blankLast⟩ := minifies_blanks behind
  obtain ⟨short, minifies, spelledShort⟩ := stays text spelled
  have whole := (minifies_string named).append (minifiesFirst.append
    ((@minifies_solid 58 (by decide)).append (minifiesLast.append minifies)))
  refine ⟨_, ?_, .colon named blankFirst blankLast spelledShort⟩
  have split (left right rest : List UInt8) : 34 :: (body ++ [34]) ++ (left ++ ([58] ++ (right ++ rest))) =
      34 :: (body ++ 34 :: (left ++ 58 :: (right ++ rest))) := by
    simp only [List.cons_append, List.append_assoc, List.nil_append]
  rwa [split, split] at whole

/-- A text of a document, minified, is one of the same document. -/
theorem staysSpelled (item : CJson) : StaysSpelled (Spells n item) := by
  induction item using CJson.induction with
  | null =>
    intro text spelled
    rw [Spells] at spelled
    subst spelled
    exact ⟨_, minifies_plain (by simp [ascii, SolidByte, isBlank]), by rw [Spells]⟩
  | false =>
    intro text spelled
    rw [Spells] at spelled
    subst spelled
    exact ⟨_, minifies_plain (by simp [ascii, SolidByte, isBlank]), by rw [Spells]⟩
  | true =>
    intro text spelled
    rw [Spells] at spelled
    subst spelled
    exact ⟨_, minifies_plain (by simp [ascii, SolidByte, isBlank]), by rw [Spells]⟩
  | number valueint valuedouble =>
    intro text spelled
    rw [Spells] at spelled
    exact ⟨text, minifies_plain spelled.solid, by rw [Spells]; exact spelled⟩
  | string valuestring =>
    intro text spelled
    rw [Spells] at spelled
    obtain ⟨body, rfl, string⟩ := spelled
    exact ⟨_, minifies_string string, by rw [Spells]; exact ⟨body, rfl, string⟩⟩
  | array child ih =>
    intro text spelled
    rw [Spells, spellsEach_eq] at spelled
    obtain ⟨inner, rfl, list⟩ := spelled
    obtain ⟨short, minifies, shorter⟩ : ∃ short, Minifies inner short ∧
        (child = [] ∧ (∀ byte ∈ short, isBlank byte) ∨
          Separated arraySyntax (child.map (Spells n)) short) := by
      rcases list with ⟨empty, blanks⟩ | separated
      · obtain ⟨short, minifies, blank⟩ := minifies_blanks blanks
        exact ⟨short, minifies, .inl ⟨empty, blank⟩⟩
      · have all : ∀ spells ∈ child.map (Spells n), StaysSpelled spells := by
          rw [List.forall_mem_map]
          exact ih
        obtain ⟨short, minifies, list⟩ := staysSpelled_separated rfl rfl all inner separated
        exact ⟨short, minifies, .inr list⟩
    refine ⟨_, minifies_brackets (by decide) (by decide) minifies, ?_⟩
    rw [Spells, spellsEach_eq]
    exact ⟨short, rfl, shorter⟩
  | object child ih =>
    intro text spelled
    rw [Spells, spellsMembers_eq] at spelled
    obtain ⟨inner, rfl, list⟩ := spelled
    obtain ⟨short, minifies, shorter⟩ : ∃ short, Minifies inner short ∧
        (child = [] ∧ (∀ byte ∈ short, isBlank byte) ∨ Separated objectSyntax
          (child.map fun member => SpellsMember member.1 (Spells n member.2)) short) := by
      rcases list with ⟨empty, blanks⟩ | separated
      · obtain ⟨short, minifies, blank⟩ := minifies_blanks blanks
        exact ⟨short, minifies, .inl ⟨empty, blank⟩⟩
      · have all : ∀ spells ∈ child.map fun member => SpellsMember member.1 (Spells n member.2),
            StaysSpelled spells := by
          rw [List.forall_mem_map]
          exact fun member inside => (ih member inside).member member.1
        obtain ⟨short, minifies, list⟩ := staysSpelled_separated rfl rfl all inner separated
        exact ⟨short, minifies, .inr list⟩
    refine ⟨_, minifies_brackets (by decide) (by decide) minifies, ?_⟩
    rw [Spells, spellsMembers_eq]
    exact ⟨short, rfl, shorter⟩

end Lists

/-- A document with blanks around it. -/
theorem cJsonParseWithOpts_padded {n : CJsonNumbers} {item : CJson} {text : List UInt8}
    (padded : Padded isBlank (Spells n item) text) : cJsonParseWithOpts n true text = read item [] := by
  obtain @⟨before, text, after, front, spelled, behind⟩ := padded
  have stops : after.head?.any continuesNumber = false := by
    cases after with
    | nil => rfl
    | cons byte after => exact blank_stops (behind byte (List.mem_cons_self ..))
  have skipped : skip isBlank after = [] := List.dropWhile_eq_nil_iff.mpr behind
  rw [cJsonParseWithOpts, parseValue_padded spelled front after (endsBefore_of_stops stops),
    andThen_read, if_pos rfl, if_pos skipped]

/-- `cJSON_Minify` leaves a text that is read as the document it was read as before, however the text
spelled it. -/
theorem cJsonMinify_spelled (n : CJsonNumbers) (item : CJson) (text : List UInt8)
    (padded : Padded isBlank (Spells n item) text) :
    ∃ short, cJsonMinify text = some short ∧ cJsonParseWithOpts n true text = read item [] ∧
      cJsonParseWithOpts n true short = read item [] := by
  obtain ⟨short, minifies, shorter⟩ := (staysSpelled item).padded text padded
  have whole := minifies []
  rw [List.append_nil, cJsonMinify, Option.map_some, List.append_nil] at whole
  exact ⟨short, whole, cJsonParseWithOpts_padded padded, cJsonParseWithOpts_padded shorter⟩

/-- A string with a blank in it, between blanks. -/
theorem cJsonMinify_spelled_string : ∃ short,
    cJsonMinify (ascii " \"a b\"\n".toList) = some short ∧
      cJsonParseWithOpts wholePowers true (ascii " \"a b\"\n".toList) =
        read (.string (literal "a b")) [] ∧
      cJsonParseWithOpts wholePowers true short = read (.string (literal "a b")) [] := by
  apply cJsonMinify_spelled
  have string : Spells wholePowers (.string (literal "a b")) (34 :: ([97, 32, 98] ++ [34])) := by
    rw [Spells]
    exact ⟨_, rfl, .byte (by decide) (.byte (by decide) (.byte (by decide) .nil))⟩
  exact @Padded.pad _ _ _ [32] _ [10] (by simp [isBlank]) string (by simp [isBlank])

section Printed

variable {item : CJson} {child : List CJson} {members : List (CString × CJson)}
  {longs shorts : List (List UInt8)}

/-- Entries with spaces behind the commas. -/
theorem minifies_intercalate {spaces : List UInt8}
    (blank : ∀ byte ∈ spaces, byte = 32 ∨ byte = 9 ∨ byte = 10)
    (each : List.Forall₂ Minifies longs shorts) :
    Minifies (List.intercalate (44 :: spaces) longs) (List.intercalate [44] shorts) := by
  have comma : Minifies (44 :: spaces) [44] :=
    (minifies_solid (by decide)).append (minifies_spaces blank)
  induction each with
  | nil => exact minifies_nil
  | @cons long short longs shorts first others ih =>
    cases others with
    | nil =>
      rw [List.intercalate_singleton, List.intercalate_singleton]
      exact first
    | cons second others =>
      rw [List.intercalate_cons_cons, List.intercalate_cons_cons]
      exact (first.append comma).append ih

/-- What is printed of a document with blanks is minified to what is printed without. -/
def PrintsMinified (item : CJson) : Prop :=
  ∀ depth other long short, printValue depth true item = some long →
    printValue other false item = some short → Minifies long short

theorem allocated_eq {size : ℕ} {text stored : List UInt8} (fits : allocated size text = some stored) :
    text = stored := by
  rw [allocated] at fits
  split at fits
  · exact Option.some.inj fits
  · cases fits

theorem printEntries_minifies (all : ∀ item ∈ child, PrintsMinified item) {depth other : ℕ}
    (formatted : printEntries depth true child = some longs)
    (unformatted : printEntries other false child = some shorts) :
    List.Forall₂ Minifies longs shorts := by
  induction child generalizing longs shorts with
  | nil =>
    rw [printEntries] at formatted unformatted
    cases formatted
    cases unformatted
    exact .nil
  | cons item child ih =>
    rw [printEntries] at formatted unformatted
    simp only [Option.bind_eq_bind, Option.bind_eq_some_iff] at formatted unformatted
    obtain ⟨long, first, longs, second, same⟩ := formatted
    obtain ⟨short, third, shorts, fourth, same'⟩ := unformatted
    cases same
    cases same'
    obtain ⟨head, later⟩ := List.forall_mem_cons.mp all
    exact .cons (head _ _ _ _ first third) (ih later second fourth)

theorem printStringPtr_minifies {str : CString} {text : List UInt8}
    (printed : printStringPtr str = some text) : Minifies text text := by
  obtain ⟨body, spelled, _, whole⟩ := printStringPtr_spells str
  obtain rfl := Option.some.inj (printed.symm.trans whole)
  exact minifies_string spelled

theorem printMembers_minifies (all : ∀ member ∈ members, PrintsMinified member.2)
    {depth other : ℕ} {longs shorts : List (List UInt8 × List UInt8)}
    (formatted : printMembers depth true members = some longs)
    (unformatted : printMembers other false members = some shorts) :
    List.Forall₂ (fun long short => Minifies long.1 short.1 ∧ Minifies long.2 short.2)
      longs shorts := by
  induction members generalizing longs shorts with
  | nil =>
    rw [printMembers] at formatted unformatted
    cases formatted
    cases unformatted
    exact .nil
  | cons member members ih =>
    obtain ⟨name, item⟩ := member
    rw [printMembers] at formatted unformatted
    simp only [Option.bind_eq_bind, Option.bind_eq_some_iff] at formatted unformatted
    obtain ⟨str, named, long, first, longs, second, same⟩ := formatted
    obtain ⟨str', named', short, third, shorts, fourth, same'⟩ := unformatted
    obtain rfl := Option.some.inj (named.symm.trans named')
    cases same
    cases same'
    obtain ⟨head, later⟩ := List.forall_mem_cons.mp all
    exact .cons ⟨printStringPtr_minifies named, head _ _ _ _ first third⟩ (ih later second fourth)

theorem replicate_space (count : ℕ) :
    ∀ byte ∈ List.replicate count (9 : UInt8), byte = 32 ∨ byte = 9 ∨ byte = 10 :=
  fun _ member => .inr (.inl (List.eq_of_mem_replicate member))

/-- An object with members. -/
theorem printObject_minifies {depth other : ℕ} {longs shorts : List (List UInt8 × List UInt8)}
    (each : List.Forall₂ (fun long short => Minifies long.1 short.1 ∧ Minifies long.2 short.2)
      longs shorts) {long short : List UInt8} (formatted : printObject (depth + 1) true longs = some long)
    (unformatted : printObject other false shorts = some short) : Minifies long short := by
  obtain rfl := allocated_eq ((printObject_formatted ..).symm.trans formatted)
  obtain rfl := allocated_eq ((printObject_unformatted ..).symm.trans unformatted)
  have newline : Minifies [10] [] := minifies_spaces (by simp)
  have indent (count : ℕ) : Minifies (10 :: List.replicate count 9) [] :=
    newline.append (minifies_spaces (replicate_space count))
  have lines : List.Forall₂ Minifies
      (longs.map fun entry => List.replicate (depth + 1) 9 ++ (entry.1 ++ 58 :: ([9] ++ entry.2)))
      (shorts.map fun entry => [] ++ (entry.1 ++ 58 :: ([] ++ entry.2))) := by
    rw [List.forall₂_map_left_iff, List.forall₂_map_right_iff]
    refine each.imp fun long short parts => ?_
    have colon : Minifies (58 :: ([9] ++ long.2)) (58 :: ([] ++ short.2)) :=
      (@minifies_solid 58 (by decide)).append
        ((@minifies_spaces [9] (by simp)).append parts.2)
    exact (minifies_spaces (replicate_space _)).append (parts.1.append colon)
  have joined := @minifies_intercalate _ _ [10] (by simp) lines
  exact (@minifies_solid 123 (by decide)).append (newline.append (joined.append
    ((indent depth).append (@minifies_solid 125 (by decide)))))

/-- An array. -/
theorem printArray_minifies (each : List.Forall₂ Minifies longs shorts) {long short : List UInt8}
    (formatted : printArray true longs = some long)
    (unformatted : printArray false shorts = some short) : Minifies long short := by
  rw [printArray] at formatted unformatted
  cases each with
  | nil =>
    rw [if_pos rfl] at formatted unformatted
    obtain rfl := allocated_eq formatted
    obtain rfl := allocated_eq unformatted
    exact minifies_plain (by simp [SolidByte, isBlank])
  | cons first others =>
    rw [if_neg (List.cons_ne_nil _ _)] at formatted unformatted
    obtain rfl := allocated_eq formatted
    obtain rfl := allocated_eq unformatted
    exact minifies_brackets (by decide) (by decide)
      (minifies_intercalate (by simp) (.cons first others))

/-- An object without members. -/
theorem printEmptyObject_minifies {depth other : ℕ} {long short : List UInt8}
    (formatted : printEmptyObject depth true = some long)
    (unformatted : printEmptyObject other false = some short) : Minifies long short := by
  obtain rfl := allocated_eq formatted
  obtain rfl := allocated_eq unformatted
  have indent : Minifies (10 :: List.replicate (depth - 1) 9) [] :=
    (@minifies_spaces [10] (by simp)).append (minifies_spaces (replicate_space _))
  exact minifies_brackets (by decide) (by decide) indent

/-- What is printed with blanks is minified to what is printed without, at any two depths. -/
theorem printsMinified (item : CJson) : PrintsMinified item := by
  have word {size : ℕ} {word long short : List UInt8} (first : allocated size word = some long)
      (second : allocated size word = some short)
      (solid : ∀ byte ∈ word, SolidByte byte) :
      Minifies long short := by
    obtain rfl := allocated_eq first
    obtain rfl := allocated_eq second
    exact minifies_plain solid
  induction item using CJson.induction with
  | null =>
    intro depth other long short formatted unformatted
    rw [printValue] at formatted unformatted
    exact word formatted unformatted (by simp [ascii, SolidByte, isBlank])
  | false =>
    intro depth other long short formatted unformatted
    rw [printValue] at formatted unformatted
    exact word formatted unformatted (by simp [ascii, SolidByte, isBlank])
  | true =>
    intro depth other long short formatted unformatted
    rw [printValue] at formatted unformatted
    exact word formatted unformatted (by simp [ascii, SolidByte, isBlank])
  | number valueint valuedouble =>
    intro depth other long short formatted unformatted
    obtain ⟨text, printed, solid⟩ := printNumber_prints valueint valuedouble
    rw [printValue] at formatted unformatted
    obtain rfl := Option.some.inj (formatted.symm.trans printed)
    obtain rfl := Option.some.inj (unformatted.symm.trans printed)
    exact minifies_plain solid
  | string valuestring =>
    intro depth other long short formatted unformatted
    rw [printValue] at formatted unformatted
    obtain rfl := Option.some.inj (formatted.symm.trans unformatted)
    exact printStringPtr_minifies formatted
  | array child ih =>
    intro depth other long short formatted unformatted
    rw [printValue, Option.bind_eq_some_iff] at formatted unformatted
    obtain ⟨longs, first, formatted⟩ := formatted
    obtain ⟨shorts, second, unformatted⟩ := unformatted
    exact printArray_minifies (printEntries_minifies ih first second) formatted unformatted
  | object members ih =>
    intro depth other long short formatted unformatted
    cases members with
    | nil =>
      rw [printValue] at formatted unformatted
      exact printEmptyObject_minifies formatted unformatted
    | cons first others =>
      rw [printValue, Option.bind_eq_some_iff] at formatted unformatted
      obtain ⟨longs, entries, formatted⟩ := formatted
      obtain ⟨shorts, entries', unformatted⟩ := unformatted
      exact printObject_minifies (printMembers_minifies ih entries entries') formatted unformatted

end Printed

/-- `cJSON_Minify` makes of what `cJSON_Print` writes what `cJSON_PrintUnformatted` writes. -/
theorem cJsonMinify_print (item : CJson) :
    ∃ long short, cJsonPrint item = some long ∧ cJsonPrintUnformatted item = some short ∧
      cJsonMinify long = some short := by
  have prints : Prints wholePowers False item := CJson.prints False.elim
  obtain ⟨long, formatted, _⟩ := prints 0 true
  obtain ⟨short, unformatted, _⟩ := prints 0 false
  have whole := printsMinified item 0 0 long short formatted unformatted []
  rw [List.append_nil, cJsonMinify, Option.map_some, List.append_nil] at whole
  exact ⟨long, short, formatted, unformatted, whole⟩

end ShuangFa
