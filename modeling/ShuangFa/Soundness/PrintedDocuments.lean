import ShuangFa.Soundness.Documents

/-! # Printed documents are read back

`cJSON_Print` and `cJSON_PrintUnformatted` write a document in no more memory than they have allocated
at any depth, whatever its numbers are. What they write spells the document if its numbers are such
that what is printed of them is read back, so `cJSON_Parse` gets it back from both. Numbers that are
their own `int` are such numbers.
-/

namespace ShuangFa

open Memory Coding Coding.Reading

mutual

/-- The numbers in a document. -/
def CJson.numbers : CJson → List (Int32 × Float)
  | .number valueint valuedouble => [(valueint, valuedouble)]
  | .array child => CJson.numbersEach child
  | .object child => CJson.numbersMembers child
  | _ => []

def CJson.numbersEach : List CJson → List (Int32 × Float)
  | [] => []
  | item :: child => item.numbers ++ CJson.numbersEach child

def CJson.numbersMembers : List (CString × CJson) → List (Int32 × Float)
  | [] => []
  | (_, item) :: child => item.numbers ++ CJson.numbersMembers child

end

/-- What `print_number` writes for the numbers of a document is a text of theirs. -/
def CJson.Readable (n : CJsonNumbers) (item : CJson) : Prop :=
  ∀ number ∈ item.numbers, ∃ text, printNumber number.1 number.2 = some text ∧
    NumberText n number.1 number.2 text

/-- A document is printed, and what is printed spells it on a condition. -/
def Prints (n : CJsonNumbers) (known : Prop) (item : CJson) : Prop :=
  ∀ depth fmt, ∃ text, printValue depth fmt item = some text ∧ (known → Spells n item text) ∧
    0 ∉ text

section Parts

variable {n : CJsonNumbers} {known : Prop} {item : CJson} {child : List CJson}
  {members : List (CString × CJson)}

theorem CJson.mem_numbersEach {number : Int32 × Float} (member : item ∈ child)
    (inside : number ∈ item.numbers) : number ∈ (CJson.array child).numbers := by
  rw [CJson.numbers]
  induction child with
  | nil => cases member
  | cons first others ih =>
    rw [CJson.numbersEach, List.mem_append]
    rcases List.mem_cons.mp member with rfl | later
    · exact .inl inside
    · exact .inr (ih later)

theorem CJson.mem_numbersMembers {number : Int32 × Float} {name : CString}
    (member : (name, item) ∈ members) (inside : number ∈ item.numbers) :
    number ∈ (CJson.object members).numbers := by
  rw [CJson.numbers]
  induction members with
  | nil => cases member
  | cons first others ih =>
    obtain ⟨other, value⟩ := first
    rw [CJson.numbersMembers, List.mem_append]
    rcases List.mem_cons.mp member with same | later
    · obtain ⟨rfl, rfl⟩ := Prod.mk.inj same
      exact .inl inside
    · exact .inr (ih later)

/-- The entries of an array are printed one by one. -/
theorem printEntries_eq (all : ∀ item ∈ child, Prints n known item) (depth : ℕ) (fmt : Bool) :
    ∃ entries, printEntries depth fmt child = some entries ∧
      List.Forall₂ (fun item entry => known → Spells n item entry) child entries ∧
        ∀ entry ∈ entries, 0 ∉ entry := by
  induction child with
  | nil => exact ⟨[], by rw [printEntries], .nil, List.forall_mem_nil _⟩
  | cons item child ih =>
    obtain ⟨first, others⟩ := List.forall_mem_cons.mp all
    obtain ⟨ret, printed, spelled, nonzero⟩ := first depth fmt
    obtain ⟨entries, later, spelledLater, nonzeroLater⟩ := ih others
    refine ⟨ret :: entries, ?_, .cons spelled spelledLater,
      List.forall_mem_cons.mpr ⟨nonzero, nonzeroLater⟩⟩
    rw [printEntries, printed, later]
    rfl

/-- A member of an object, as its name and its value are printed. -/
def SpellsEntry (n : CJsonNumbers) (member : CString × CJson) (entry : List UInt8 × List UInt8) :
    Prop :=
  ∃ body, entry.1 = 34 :: (body ++ [34]) ∧ SpellsString member.1.bytes body ∧
    Spells n member.2 entry.2

/-- The names and the entries of an object are printed one by one. -/
theorem printMembers_eq (all : ∀ member ∈ members, Prints n known member.2) (depth : ℕ) (fmt : Bool) :
    ∃ entries, printMembers depth fmt members = some entries ∧
      List.Forall₂ (fun member entry => known → SpellsEntry n member entry) members entries ∧
        ∀ entry ∈ entries, 0 ∉ entry.1 ∧ 0 ∉ entry.2 := by
  induction members with
  | nil => exact ⟨[], by rw [printMembers], .nil, List.forall_mem_nil _⟩
  | cons member members ih =>
    obtain ⟨name, item⟩ := member
    obtain ⟨first, others⟩ := List.forall_mem_cons.mp all
    obtain ⟨ret, printed, spelled, nonzero⟩ := first depth fmt
    obtain ⟨body, named, solid, string⟩ := printStringPtr_spells name
    obtain ⟨entries, later, spelledLater, nonzeroLater⟩ := ih others
    have quoted : (0 : UInt8) ∉ 34 :: (body ++ [34]) := by
      simpa using solid
    refine ⟨(34 :: (body ++ [34]), ret) :: entries, ?_,
      .cons (fun holds => ⟨body, rfl, named, spelled holds⟩) spelledLater,
      List.forall_mem_cons.mpr ⟨⟨quoted, nonzero⟩, nonzeroLater⟩⟩
    rw [printMembers, string, printed, later]
    rfl

/-- `print_array` fits into what it allocates. -/
theorem printArray_spells {entries : List (List UInt8)} (fmt : Bool)
    (printed : List.Forall₂ (fun item entry => known → Spells n item entry) child entries)
    (nonzero : ∀ entry ∈ entries, 0 ∉ entry) :
    ∃ text, printArray fmt entries = some text ∧ (known → Spells n (.array child) text) ∧
      0 ∉ text := by
  rcases eq_or_ne entries [] with rfl | some_entry
  · cases printed
    refine ⟨[91, 93], rfl, fun _ => ?_, by decide⟩
    rw [Spells]
    exact ⟨[], rfl, .inl ⟨rfl, List.forall_mem_nil _⟩⟩
  · obtain ⟨blanks, separator, blank, solid, short⟩ : ∃ blanks : List UInt8,
        (if fmt then [44, 32] else [44] : List UInt8) = 44 :: blanks ∧
          (∀ byte ∈ blanks, isBlank byte) ∧ 0 ∉ 44 :: blanks ∧
            blanks.length ≤ if fmt then 1 else 0 := by
      cases fmt
      · exact ⟨[], rfl, List.forall_mem_nil _, by simp, Nat.le_refl _⟩
      · exact ⟨[32], rfl, by simp [isBlank], by simp, Nat.le_refl _⟩
    refine ⟨91 :: (List.intercalate (44 :: blanks) entries ++ [93]), ?_, ?_, ?_⟩
    · rw [printArray, if_neg some_entry, separator]
      apply if_pos
      have size := @intercalate_length_le _ _ entries (44 :: blanks) id
        (fun ret => ret.length + 2 + if fmt then 1 else 0) some_entry (by
          intro entry
          rw [id, List.length_cons]
          omega)
      rw [List.map_id, List.length_cons] at size
      rw [List.length_cons, List.length_append, List.length_singleton]
      omega
    · intro holds
      rw [Spells, spellsEach_eq]
      refine ⟨_, rfl, .inr ?_⟩
      have padded : List.Forall₂ (fun spells text => Padded arraySyntax.blank spells text)
          (child.map (Spells n)) entries := by
        rw [List.forall₂_map_left_iff]
        exact printed.imp fun item text spelled => .of_spells (spelled holds)
      have separated := @separated_intercalate _ arraySyntax _ _ [] [] blanks padded some_entry
        (List.forall_mem_nil _) blank (List.forall_mem_nil _)
      rwa [List.nil_append, List.append_nil] at separated
    · simpa using notMem_intercalate solid nonzero

/-- Members with blanks around the parts of theirs spell an object. -/
theorem spells_object {entries : List (List UInt8 × List UInt8)} {tabs gap blanks closing : List UInt8}
    (some_entry : entries ≠ []) (printed : List.Forall₂ (SpellsEntry n) members entries)
    (indent : ∀ byte ∈ tabs, isBlank byte) (between : ∀ byte ∈ gap, isBlank byte)
    (blank : ∀ byte ∈ blanks, isBlank byte) (behind : ∀ byte ∈ closing, isBlank byte) :
    Spells n (.object members) (123 :: (blanks ++ (List.intercalate (44 :: blanks)
      (entries.map fun entry => tabs ++ (entry.1 ++ 58 :: (gap ++ entry.2))) ++
        (closing ++ [125])))) := by
  have padded : List.Forall₂ (fun spells text => Padded objectSyntax.blank spells text)
      (members.map fun member => SpellsMember member.1 (Spells n member.2))
      (entries.map fun entry => tabs ++ (entry.1 ++ 58 :: (gap ++ entry.2))) := by
    rw [List.forall₂_map_left_iff, List.forall₂_map_right_iff]
    refine printed.imp ?_
    rintro ⟨name, item⟩ ⟨first, second⟩ ⟨body, rfl, named, spelled⟩
    have member : SpellsMember name (Spells n item) (34 :: (body ++ 34 :: ([] ++ 58 ::
      (gap ++ second)))) := .colon named (List.forall_mem_nil _) between spelled
    have split : tabs ++ (34 :: (body ++ [34]) ++ 58 :: (gap ++ second)) =
        tabs ++ (34 :: (body ++ 34 :: ([] ++ 58 :: (gap ++ second))) ++ []) := by
      simp only [List.append_assoc, List.cons_append, List.nil_append, List.append_nil]
    dsimp only
    rw [split]
    exact .pad indent member (List.forall_mem_nil _)
  have separated := @separated_intercalate _ objectSyntax _ _ blanks closing blanks padded
    (fun none => some_entry (List.map_eq_nil_iff.mp none)) blank blank behind
  rw [Spells, spellsMembers_eq]
  refine ⟨_, ?_, .inr separated⟩
  simp only [List.append_assoc]
  rfl

theorem replicate_tab (count : ℕ) : (∀ byte ∈ List.replicate count 9, isBlank byte) ∧
    0 ∉ List.replicate count (9 : UInt8) := by
  refine ⟨fun byte member => ?_, fun member => ?_⟩
  · rw [List.eq_of_mem_replicate member]
    rfl
  · cases List.eq_of_mem_replicate member

theorem printObject_unformatted (depth : ℕ) (entries : List (List UInt8 × List UInt8)) :
    printObject depth false entries =
      allocated (7 + 0 + (entries.map fun entry => entry.2.length + entry.1.length + 2 + 0).sum)
        (123 :: ([] ++ (List.intercalate (44 :: [])
          (entries.map fun entry => [] ++ (entry.1 ++ 58 :: ([] ++ entry.2))) ++ ([] ++ [125])))) :=
  rfl

theorem printObject_formatted (depth : ℕ) (entries : List (List UInt8 × List UInt8)) :
    printObject (depth + 1) true entries = allocated (7 + (depth + 1) +
        (entries.map fun entry => entry.2.length + entry.1.length + 2 + (2 + (depth + 1))).sum)
      (123 :: ([10] ++ (List.intercalate (44 :: [10]) (entries.map fun entry =>
        List.replicate (depth + 1) 9 ++ (entry.1 ++ 58 :: ([9] ++ entry.2))) ++
          (10 :: List.replicate depth 9 ++ [125])))) :=
  rfl

/-- `print_object` fits into what it allocates, at any depth. -/
theorem printObject_spells {entries : List (List UInt8 × List UInt8)} (depth : ℕ) (fmt : Bool)
    (some_member : members ≠ [])
    (printed : List.Forall₂ (fun member entry => known → SpellsEntry n member entry) members entries)
    (nonzero : ∀ entry ∈ entries, 0 ∉ entry.1 ∧ 0 ∉ entry.2) :
    ∃ text, printObject (depth + 1) fmt entries = some text ∧
      (known → Spells n (.object members) text) ∧ 0 ∉ text := by
  have some_entry : entries ≠ [] := by
    rintro rfl
    cases printed
    exact some_member rfl
  have named (holds : known) : List.Forall₂ (SpellsEntry n) members entries :=
    printed.imp fun _ _ spelled => spelled holds
  have lines (tabs gap : List UInt8) (front : 0 ∉ tabs) (between : 0 ∉ gap) :
      ∀ line ∈ entries.map fun entry => tabs ++ (entry.1 ++ 58 :: (gap ++ entry.2)), 0 ∉ line := by
    intro line member
    obtain ⟨entry, inside, rfl⟩ := List.mem_map.mp member
    obtain ⟨name, value⟩ := nonzero entry inside
    simp [front, between, name, value]
  have quiet {blanks closing : List UInt8} {joined : List (List UInt8)} (solid : 0 ∉ blanks)
      (last : 0 ∉ closing) (others : ∀ line ∈ joined, 0 ∉ line) :
      (0 : UInt8) ∉ 123 :: (blanks ++ (List.intercalate (44 :: blanks) joined ++
        (closing ++ [125]))) := by
    have inside := notMem_intercalate (show (0 : UInt8) ∉ 44 :: blanks by simpa using solid) others
    simp [solid, last, inside]
  cases fmt with
  | false =>
    have spelled (holds : known) := @spells_object n members entries [] [] [] [] some_entry (named holds)
      (List.forall_mem_nil _) (List.forall_mem_nil _)
      (List.forall_mem_nil _) (List.forall_mem_nil _)
    have size := @intercalate_length_le _ _ entries [44]
      (fun entry => [] ++ (entry.1 ++ 58 :: ([] ++ entry.2)))
      (fun entry => entry.2.length + entry.1.length + 2 + 0) some_entry (by
        intro entry
        simp only [List.nil_append, List.length_append, List.length_cons, List.length_nil]
        omega)
    refine ⟨_, (printObject_unformatted ..).trans (if_pos ?_), spelled,
      quiet List.not_mem_nil List.not_mem_nil (lines [] [] List.not_mem_nil List.not_mem_nil)⟩
    simp only [List.length_cons, List.length_append, List.length_nil] at size ⊢
    omega
  | true =>
    have spelled (holds : known) := @spells_object n members entries (List.replicate (depth + 1) 9)
      [9] [10] (10 :: List.replicate depth 9) some_entry (named holds) (replicate_tab _).1
      (by simp [isBlank]) (by simp [isBlank]) (List.forall_mem_cons.mpr ⟨rfl, (replicate_tab _).1⟩)
    have size := @intercalate_length_le _ _ entries [44, 10]
      (fun entry => List.replicate (depth + 1) 9 ++ (entry.1 ++ 58 :: ([9] ++ entry.2)))
      (fun entry => entry.2.length + entry.1.length + 2 + (2 + (depth + 1))) some_entry (by
        intro entry
        simp only [List.length_append, List.length_cons, List.length_nil, List.length_replicate]
        omega)
    refine ⟨_, (printObject_formatted ..).trans (if_pos ?_), spelled,
      quiet (by decide) (List.not_mem_cons_of_ne_of_not_mem (by decide) (replicate_tab _).2)
        (lines _ [9] (replicate_tab _).2 (by decide))⟩
    simp only [List.length_cons, List.length_append, List.length_nil, List.length_replicate] at size ⊢
    omega

/-- An object without members. -/
theorem printEmptyObject_spells (n : CJsonNumbers) (depth : ℕ) (fmt : Bool) :
    ∃ text, printEmptyObject depth fmt = some text ∧ Spells n (.object []) text ∧ 0 ∉ text := by
  have spells {blanks : List UInt8} (blank : ∀ byte ∈ blanks, isBlank byte) :
      Spells n (.object []) (123 :: (blanks ++ [125])) := by
    rw [Spells]
    exact ⟨blanks, rfl, .inl ⟨rfl, blank⟩⟩
  cases fmt with
  | false => exact ⟨123 :: ([] ++ [125]), rfl, spells (List.forall_mem_nil _), by decide⟩
  | true =>
    have blank := (replicate_tab (depth - 1)).1
    refine ⟨123 :: (10 :: List.replicate (depth - 1) 9 ++ [125]), if_pos ?_,
      spells (List.forall_mem_cons.mpr ⟨rfl, blank⟩), by simp⟩
    change (123 :: (10 :: List.replicate (depth - 1) 9 ++ [125])).length + 1 ≤ depth + 4
    simp only [List.length_cons, List.length_append, List.length_replicate, List.length_nil]
    omega

/-- A document is printed, at every depth and in both formats. -/
theorem CJson.prints {item : CJson} (readable : known → item.Readable n) : Prints n known item := by
  have word {word : List UInt8} {item : CJson} {size : ℕ} (room : word.length + 1 ≤ size)
      (solid : 0 ∉ word) (spelled : Spells n item word) :
      ∃ text, allocated size word = some text ∧ (known → Spells n item text) ∧ 0 ∉ text :=
    ⟨word, if_pos room, fun _ => spelled, solid⟩
  induction item using CJson.induction with
  | null =>
    intro depth fmt
    rw [printValue]
    exact word (by decide) (by decide) (by rw [Spells])
  | false =>
    intro depth fmt
    rw [printValue]
    exact word (by decide) (by decide) (by rw [Spells])
  | true =>
    intro depth fmt
    rw [printValue]
    exact word (by decide) (by decide) (by rw [Spells])
  | number valueint valuedouble =>
    intro depth fmt
    obtain ⟨text, printed, solid⟩ := printNumber_prints valueint valuedouble
    rw [printValue]
    refine ⟨text, printed, fun holds => ?_, fun zero => (solid 0 zero).2.2.2 rfl⟩
    have number := readable holds
    rw [CJson.Readable, CJson.numbers, List.forall_mem_singleton] at number
    obtain ⟨other, same, spelled⟩ := number
    obtain rfl := Option.some.inj (same.symm.trans printed)
    rw [Spells]
    exact spelled
  | string valuestring =>
    intro depth fmt
    obtain ⟨body, spelled, solid, printed⟩ := printStringPtr_spells valuestring
    rw [printValue]
    refine ⟨_, printed, fun _ => ?_, by simpa using solid⟩
    rw [Spells]
    exact ⟨body, rfl, spelled⟩
  | array child ih =>
    intro depth fmt
    have each : ∀ item ∈ child, Prints n known item := fun item member =>
      ih item member fun holds number inside => readable holds number (CJson.mem_numbersEach member inside)
    obtain ⟨entries, printed, spelled, solid⟩ := printEntries_eq each (depth + 1) fmt
    rw [printValue, printed]
    exact printArray_spells fmt spelled solid
  | object members ih =>
    intro depth fmt
    have each : ∀ member ∈ members, Prints n known member.2 := fun member inside =>
      ih member inside fun holds number within =>
        readable holds number (CJson.mem_numbersMembers inside within)
    cases members with
    | nil =>
      rw [printValue]
      obtain ⟨text, printed, spelled, solid⟩ := printEmptyObject_spells n depth fmt
      exact ⟨text, printed, fun _ => spelled, solid⟩
    | cons first others =>
      obtain ⟨entries, printed, spelled, solid⟩ := printMembers_eq each (depth + 1) fmt
      rw [printValue, printed]
      exact printObject_spells depth fmt (List.cons_ne_nil _ _) spelled solid

end Parts

/-- Each number of a document is its own `int`. -/
def CJson.Whole (item : CJson) : Prop := ∀ number ∈ item.numbers, number.2 = double number.1.toInt

/-- Whole numbers are read back. -/
theorem CJson.Whole.readable {item : CJson} (whole : item.Whole) (n : CJsonNumbers) :
    item.Readable n := by
  intro number member
  rw [whole number member]
  exact ⟨_, printNumber_double number.1, numberText_decimalInt n number.1⟩

/-- `cJSON_Print` and `cJSON_PrintUnformatted` stay inside what they allocate, whatever document they
print, and `cJSON_Parse` reads what they write as the document it is of, with nothing left over, if what
`print_number` writes for its numbers are texts of them; for numbers that are their own `int` it is. -/
theorem cJsonParse_print (n : CJsonNumbers) (item : CJson) :
    ((∃ text, cJsonPrint item = some text ∧ (item.Readable n → cJsonParse n text = read item [])) ∧
      ∃ text, cJsonPrintUnformatted item = some text ∧
        (item.Readable n → cJsonParse n text = read item [])) ∧
      (item.Whole → item.Readable n) := by
  have format (fmt : Bool) : ∃ text, printValue 0 fmt item = some text ∧
      (item.Readable n → cJsonParse n text = read item []) := by
    have prints : Prints n (item.Readable n) item := CJson.prints id
    obtain ⟨text, printed, spelled, _⟩ := prints 0 fmt
    refine ⟨text, printed, fun readable => ?_⟩
    have parsed := @cJsonParse_padded n item text (spelled readable) [] (List.forall_mem_nil _) []
      (endsBefore_of_stops rfl)
    rwa [List.nil_append, List.append_nil] at parsed
  exact ⟨⟨format true, format false⟩, fun whole => whole.readable n⟩

/-- Two numbers of an array in an object. -/
theorem cJsonParse_print_five :
    let five : CJson := .object [(literal "a", .array [.number 5 (double 5), .number (-7) (double (-7))])]
    (∃ text, cJsonPrint five = some text ∧ cJsonParse wholePowers text = read five []) ∧
      ∃ text, cJsonPrintUnformatted five = some text ∧
        cJsonParse wholePowers text = read five [] := by
  intro five
  obtain ⟨⟨⟨first, printed, readFirst⟩, second, unformatted, readSecond⟩, whole⟩ :=
    cJsonParse_print wholePowers five
  have readable : five.Readable wholePowers := by
    apply whole
    intro number member
    have numbers : number = (5, double 5) ∨ number = (-7, double (-7)) := by
      simpa [five, CJson.numbers, CJson.numbersMembers, CJson.numbersEach] using member
    rcases numbers with rfl | rfl
    · rfl
    · rfl
  exact ⟨⟨first, printed, readFirst readable⟩, second, unformatted, readSecond readable⟩

section Library

variable {n : CJsonNumbers} {root : CJson}

/-- The string at a text in memory goes on with what lies behind. -/
theorem string_store {text : List UInt8} (solid : 0 ∉ text) (short : text.length ≤ 2 ^ 32)
    (memory : View) : ∃ rest,
      ((memory.store 0 text).read 0 (2 ^ 32)).takeWhile (· ≠ 0) = text ++ rest := by
  obtain ⟨more, split⟩ := Nat.exists_eq_add_of_le short
  refine ⟨((memory.store 0 text).read text.length more).takeWhile (· ≠ 0), ?_⟩
  rw [split, View.read_add, Nat.zero_add, View.read_store_self,
    List.takeWhile_append_of_pos (ne_zero_of_notMem solid)]

/-- The document of a packet is no number, and is printed in a size that memory has. -/
structure Sendable (n : CJsonNumbers) (root : CJson) : Prop where
  readable : root.Readable n
  ends : ∀ rest, EndsBefore rest root

theorem cJsonLibrary_parse_eq (text : View) : (cJsonLibrary n).parse text =
    (cJsonParse n ((text.read 0 (2 ^ 32)).takeWhile (· ≠ 0))).value? := by
  rw [cJsonLibrary]

/-- The library gets a document back from memory, whatever lies behind it. -/
theorem cJsonLibrary_parse (sendable : Sendable n root)
    (short : ((cJsonLibrary n).print root).bytes.length ≤ 2 ^ 32) (memory : View) :
    (cJsonLibrary n).parse (memory.store 0 ((cJsonLibrary n).print root).bytes) = some root := by
  obtain ⟨text, printed, spells, solid⟩ := CJson.prints (fun _ : True => sendable.readable) 0 false
  have spelled := spells trivial
  have bytes : ((cJsonLibrary n).print root).bytes = text := by
    change (CString.ofBytes ((cJsonPrintUnformatted root).getD [])).bytes = text
    rw [cJsonPrintUnformatted, printed, Option.getD_some]
    exact List.takeWhile_eq_self_iff.mpr (ne_zero_of_notMem solid)
  rw [bytes] at short ⊢
  obtain ⟨rest, string⟩ := string_store solid short memory
  have parsed := @cJsonParse_padded n root text spelled [] (List.forall_mem_nil _) rest
    (sendable.ends rest)
  rw [cJsonLibrary_parse_eq, string, ← List.nil_append (text ++ rest), parsed]
  rfl

end Library

end ShuangFa
