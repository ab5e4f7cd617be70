import ShuangFa.Coding.Reading
import ShuangFa.Model.CJson
import ShuangFa.Model.Double
import ShuangFa.Model.ParseNumber

/-! # The texts of documents

`cJSON_Parse` takes a document off the front of a text, and `cJSON_Print` writes one. A text is a list;
behind its end is the zero that ends it, and reading behind that zero is not defined. A printer, and
the parser of strings, count what they need before they write, and writing more is not defined.
Allocations do not fail.
-/

namespace ShuangFa

open Memory Coding Coding.Reading

/-- `pow`, of which the parser needs that the power of zero is one; nothing else is asked of its
rounding. -/
structure CJsonNumbers where
  pow : Float → Float → Float
  pow_zero (base : Float) : pow base (double 0) = double 1

/-- The arithmetic of the numbers in documents. -/
def CJsonNumbers.d (n : CJsonNumbers) : DoubleArithmetic where
  Double := Float
  ofInt := double
  add first second := first + second
  mul first second := first * second
  pow := n.pow
  toInt := truncate?
  add_ofInt first second small := by
    rw [Nat.cast_add]
    exact double_add _ _ (by omega) (by omega) (by omega)
  mul_ofInt first second small := by
    rw [Nat.cast_mul]
    exact double_mul _ _ (by omega) (by omega) (by rw [← Nat.cast_mul, Int.natAbs_natCast]; exact small.2.2)
      (.inr ⟨Int.natCast_nonneg _, Int.natCast_nonneg _⟩)
  pow_zero := n.pow_zero
  toInt_ofInt number small := truncate?_double (by omega) (by omega)

/-- What an allocation has room for, with the zero that ends it. -/
def allocated (size : ℕ) (text : List UInt8) : Option (List UInt8) :=
  if text.length + 1 ≤ size then some text else none

/-- What `skip` jumps. -/
def isBlank (byte : UInt8) : Bool := byte ≤ 32

def arraySyntax : ListSyntax UInt8 := ⟨91, 93, 44, isBlank, by decide, rfl, rfl⟩

def objectSyntax : ListSyntax UInt8 := ⟨123, 125, 44, isBlank, by decide, rfl, rfl⟩

section Strings

/-- A digit of `parse_hex4`. -/
def hexDigit? (byte : UInt8) : Option ℕ :=
  if 48 ≤ byte ∧ byte ≤ 57 then some (byte.toNat - 48)
  else if 65 ≤ byte ∧ byte ≤ 70 then some (byte.toNat - 55)
  else if 97 ≤ byte ∧ byte ≤ 102 then some (byte.toNat - 87)
  else none

/-- `parse_hex4`; what is no digit, or not there, makes it zero. -/
def parseHex4 : List UInt8 → ℕ
  | first :: second :: third :: fourth :: _ =>
    match hexDigit? first, hexDigit? second, hexDigit? third, hexDigit? fourth with
    | some first, some second, some third, some fourth =>
      ((first * 16 + second) * 16 + third) * 16 + fourth
    | _, _, _, _ => 0
  | _ => 0

def firstByteMark : List ℕ := [0x00, 0x00, 0xC0, 0xE0, 0xF0, 0xF8, 0xFC]

/-- The bytes behind the first one, which are written from the last one on, and what is left. -/
def utf8Behind : ℕ → ℕ → List UInt8 × ℕ
  | 0, uc => ([], uc)
  | count + 1, uc =>
    let (front, left) := utf8Behind count (uc >>> 6)
    (front ++ [UInt8.ofNat ((uc ||| 0x80) &&& 0xBF)], left)

/-- What `parse_string` writes for a character. -/
def utf8 (uc : ℕ) : List UInt8 :=
  let len := if uc < 0x80 then 1 else if uc < 0x800 then 2 else if uc < 0x10000 then 3 else 4
  let (behind, left) := utf8Behind (len - 1) uc
  UInt8.ofNat (left ||| firstByteMark.getD len 0) :: behind

/-- What is written, and where the text goes on if that is no place behind its zero. -/
def goOn (written : List UInt8) (count : ℕ) (ptr : List UInt8) : Option (List UInt8 × List UInt8) :=
  if count ≤ ptr.length then some (written, ptr.drop count) else none

/-- `case 'u'` of `parse_string`, from behind that letter on. -/
def unescapeUnicode (ptr : List UInt8) : Option (List UInt8 × List UInt8) :=
  let uc := parseHex4 ptr
  if (0xDC00 ≤ uc ∧ uc ≤ 0xDFFF) ∨ uc = 0 then goOn [] 4 ptr
  else if 0xD800 ≤ uc ∧ uc ≤ 0xDBFF then
    if ptr[4]? ≠ some 92 ∨ ptr[5]? ≠ some 117 then goOn [] 4 ptr
    else
      let uc2 := parseHex4 (ptr.drop 6)
      if uc2 < 0xDC00 ∨ 0xDFFF < uc2 then goOn [] 10 ptr
      else goOn (utf8 (0x10000 + (((uc &&& 0x3FF) <<< 10) ||| (uc2 &&& 0x3FF)))) 10 ptr
  else goOn (utf8 uc) 4 ptr

/-- The `switch` of `parse_string`, from behind a backslash on. -/
def unescape : List UInt8 → Option (List UInt8 × List UInt8)
  | [] => none
  | letter :: ptr =>
    if letter = 98 then some ([8], ptr)
    else if letter = 102 then some ([12], ptr)
    else if letter = 110 then some ([10], ptr)
    else if letter = 114 then some ([13], ptr)
    else if letter = 116 then some ([9], ptr)
    else if letter = 117 then unescapeUnicode ptr
    else some ([letter], ptr)

theorem goOn_length {written out ptr rest : List UInt8} {count : ℕ}
    (gone : goOn written count ptr = some (out, rest)) : rest.length ≤ ptr.length := by
  rw [goOn] at gone
  split at gone
  · obtain ⟨rfl, rfl⟩ := gone
    exact (List.drop_suffix ..).length_le
  · cases gone

theorem unescapeUnicode_eq (ptr : List UInt8) :
    ∃ written count, unescapeUnicode ptr = goOn written count ptr := by
  rw [unescapeUnicode]
  dsimp only
  split_ifs
  all_goals exact ⟨_, _, rfl⟩

/-- An escape is one of a single byte, or of a character. -/
theorem unescape_cons (letter : UInt8) (ptr : List UInt8) :
    (∃ byte, unescape (letter :: ptr) = some ([byte], ptr)) ∨
      letter = 117 ∧ unescape (letter :: ptr) = unescapeUnicode ptr := by
  rw [unescape]
  split_ifs
  all_goals first
    | exact .inl ⟨_, rfl⟩
    | exact .inr ⟨‹_›, rfl⟩

/-- What is left behind an escape is shorter. -/
theorem unescape_length {ptr written rest : List UInt8} (turn : unescape ptr = some (written, rest)) :
    rest.length < ptr.length := by
  cases ptr with
  | nil => cases turn
  | cons letter ptr =>
    rw [List.length_cons, Nat.lt_succ_iff]
    rcases unescape_cons letter ptr with ⟨byte, single⟩ | ⟨-, unicode⟩
    · rw [single] at turn
      obtain ⟨rfl, rfl⟩ := turn
      exact Nat.le_refl _
    · obtain ⟨out, count, gone⟩ := unescapeUnicode_eq ptr
      rw [unicode, gone] at turn
      exact goOn_length turn

/-- The first loop of `parse_string`, which counts an escape of two letters as one. -/
def countLoop : List UInt8 → Option ℕ
  | [] => some 0
  | byte :: ptr =>
    if byte = 34 then some 0
    else if byte = 92 then
      match ptr with
      | [] => none
      | _ :: ptr => (countLoop ptr).map (· + 1)
    else (countLoop ptr).map (· + 1)

/-- The second loop of `parse_string`: what it writes, and where it ends. -/
def copyLoop : List UInt8 → Option (List UInt8 × List UInt8)
  | [] => some ([], [])
  | byte :: ptr =>
    if byte = 34 then some ([], byte :: ptr)
    else if byte ≠ 92 then (copyLoop ptr).map fun (out, ptr) => (byte :: out, ptr)
    else match _turn : unescape ptr with
      | none => none
      | some (written, ptr) => (copyLoop ptr).map fun (out, ptr) => (written ++ out, ptr)
termination_by ptr => ptr.length
decreasing_by
  · exact Nat.lt_succ_self _
  · exact Nat.lt_succ_of_lt (unescape_length _turn)

/-- `parse_string`; a text that ends before the string does ends the string. -/
def parseString (str : List UInt8) : Reading UInt8 CString :=
  if str.head? ≠ some 34 then failed str
  else match countLoop str.tail, copyLoop str.tail with
    | some len, some (out, ptr) =>
      if out.length ≤ len then read (.ofBytes out) (if ptr.head? = some 34 then ptr.tail else ptr)
      else undefined
    | _, _ => undefined

/-- What the first loop of `print_string_ptr` counts for a byte. -/
def countByte (byte : UInt8) : ℕ :=
  if byte ∈ [34, 92, 8, 12, 10, 13, 9] then 2 else if byte < 32 then 6 else 1

/-- A digit of `%x`. -/
def lowerHex (digit : ℕ) : UInt8 := UInt8.ofNat (if digit < 10 then 48 + digit else 87 + digit)

/-- `u%04x`, of a byte. -/
def printUnicode (token : UInt8) : List UInt8 :=
  [117, 48, 48, lowerHex (token.toNat / 16), lowerHex (token.toNat % 16)]

/-- What the second loop of `print_string_ptr` writes for a byte. -/
def printByte (byte : UInt8) : List UInt8 :=
  if 31 < byte ∧ byte ≠ 34 ∧ byte ≠ 92 then [byte]
  else 92 ::
    if byte = 92 then [92]
    else if byte = 34 then [34]
    else if byte = 8 then [98]
    else if byte = 12 then [102]
    else if byte = 10 then [110]
    else if byte = 13 then [114]
    else if byte = 9 then [116]
    else printUnicode byte

/-- `print_string_ptr` -/
def printStringPtr (str : CString) : Option (List UInt8) :=
  allocated ((str.bytes.map countByte).sum + 3) (34 :: (str.bytes.flatMap printByte ++ [34]))

end Strings

section Parser

variable (n : CJsonNumbers)

/-- `parse_number` into an item. -/
def parseItemNumber (num : List UInt8) : Reading UInt8 CJson :=
  match parseNumber n.d num with
  | none => undefined
  | some parsed => read (.number parsed.valueint parsed.valuedouble) parsed.num

/-- A name, a colon and a value. -/
def parseMember (value : List UInt8 → Reading UInt8 CJson) (text : List UInt8) :
    Reading UInt8 (CString × CJson) :=
  (trimmed isBlank parseString text).andThen fun name rest =>
    if rest.head? ≠ some 58 then failed rest
    else (trimmed isBlank value rest.tail).map (name, ·)

/-- `parse_value`, with `parse_array` and `parse_object` -/
def parseValue : ℕ → List UInt8 → Reading UInt8 CJson
  | 0, _ => undefined
  | fuel + 1, value =>
    if value.take 4 = ascii "null".toList then read .null (value.drop 4)
    else if value.take 5 = ascii "false".toList then read .false (value.drop 5)
    else if value.take 4 = ascii "true".toList then read .true (value.drop 4)
    else if value.head? = some 34 then (parseString value).map .string
    else if value.head? = some 45 ∨ value.head?.any ParseNumber.isDigit then parseItemNumber n value
    else if value.head? = some 91 then
      (readItems arraySyntax (trimmed isBlank (parseValue fuel)) fuel value).map .array
    else if value.head? = some 123 then
      (readItems objectSyntax (parseMember (parseValue fuel)) fuel value).map .object
    else failed value

/-- `cJSON_ParseWithOpts`; every failure sets `ep` to its place. -/
def cJsonParseWithOpts (requireNullTerminated : Bool) (value : List UInt8) : Reading UInt8 CJson :=
  (parseValue n (value.length + 1) (skip isBlank value)).andThen fun item rest =>
    if requireNullTerminated then
      if skip isBlank rest = [] then read item [] else failed (skip isBlank rest)
    else read item rest

/-- `cJSON_Parse` -/
def cJsonParse (value : List UInt8) : Reading UInt8 CJson := cJsonParseWithOpts n false value

end Parser

section Printer

/-- `print_number`: what has its `int` is printed as that, what is whole without a fraction, and the
rest with an exponent if it is small or large. -/
def printNumber (valueint : Int32) (d : Float) : Option (List UInt8) :=
  if (double valueint.toInt - d).abs ≤ dblEpsilon ∧ d ≤ double (2 ^ 31 - 1) ∧ d ≥ double (-2 ^ 31) then
    allocated 21 (decimalInt valueint.toInt)
  else if (floor d - d).abs ≤ dblEpsilon ∧ d.abs < 1.0e60 then
    allocated 64 (sprintfDouble printWhole d)
  else if d.abs < 1.0e-6 ∨ d.abs > 1.0e9 then allocated 64 (sprintfDouble printScientific d)
  else allocated 64 (sprintfDouble printFixed d)

/-- `print_array`, from the printed entries on. -/
def printArray (fmt : Bool) (entries : List (List UInt8)) : Option (List UInt8) :=
  if entries = [] then allocated 3 [91, 93]
  else allocated (5 + (entries.map fun ret => ret.length + 2 + if fmt then 1 else 0).sum)
    (91 :: (List.intercalate (if fmt then [44, 32] else [44]) entries ++ [93]))

/-- A member of an object, with its tabs. -/
def printMember (depth : ℕ) (fmt : Bool) (name entry : List UInt8) : List UInt8 :=
  (if fmt then List.replicate depth 9 else []) ++
    (name ++ 58 :: ((if fmt then [9] else []) ++ entry))

/-- `print_object` of an empty object. -/
def printEmptyObject (depth : ℕ) (fmt : Bool) : Option (List UInt8) :=
  allocated (if fmt then depth + 4 else 3)
    (123 :: ((if fmt then 10 :: List.replicate (depth - 1) 9 else []) ++ [125]))

/-- `print_object`, from the printed names and entries on; `depth` is one more already. -/
def printObject (depth : ℕ) (fmt : Bool) (members : List (List UInt8 × List UInt8)) :
    Option (List UInt8) :=
  allocated (7 + (if fmt then depth else 0) + (members.map fun (str, ret) =>
      ret.length + str.length + 2 + if fmt then 2 + depth else 0).sum)
    (123 :: ((if fmt then [10] else []) ++
      (List.intercalate (if fmt then [44, 10] else [44])
        (members.map fun (name, entry) => printMember depth fmt name entry) ++
        ((if fmt then 10 :: List.replicate (depth - 1) 9 else []) ++ [125]))))

mutual

/-- `print_value` -/
def printValue (depth : ℕ) (fmt : Bool) : CJson → Option (List UInt8)
  | .null => allocated 5 (ascii "null".toList)
  | .false => allocated 6 (ascii "false".toList)
  | .true => allocated 5 (ascii "true".toList)
  | .number valueint valuedouble => printNumber valueint valuedouble
  | .string valuestring => printStringPtr valuestring
  | .array child => (printEntries (depth + 1) fmt child).bind (printArray fmt)
  | .object [] => printEmptyObject depth fmt
  | .object (member :: members) =>
    (printMembers (depth + 1) fmt (member :: members)).bind (printObject (depth + 1) fmt)

/-- The entries of an array. -/
def printEntries (depth : ℕ) (fmt : Bool) : List CJson → Option (List (List UInt8))
  | [] => some []
  | item :: child => do
    let ret ← printValue depth fmt item
    let entries ← printEntries depth fmt child
    some (ret :: entries)

/-- The names and the entries of an object. -/
def printMembers (depth : ℕ) (fmt : Bool) :
    List (CString × CJson) → Option (List (List UInt8 × List UInt8))
  | [] => some []
  | (name, item) :: child => do
    let str ← printStringPtr name
    let ret ← printValue depth fmt item
    let members ← printMembers depth fmt child
    some ((str, ret) :: members)

end

/-- `cJSON_Print` -/
def cJsonPrint (item : CJson) : Option (List UInt8) := printValue 0 true item

/-- `cJSON_PrintUnformatted` -/
def cJsonPrintUnformatted (item : CJson) : Option (List UInt8) := printValue 0 false item

end Printer

section Minify

/-- Behind the end of a comment; a comment that does not end is left behind its zero. -/
def skipComment : List UInt8 → Option (List UInt8)
  | [] => none
  | byte :: json =>
    if byte = 42 ∧ json.head? = some 47 then some json.tail else skipComment json

/-- What is left behind a comment is shorter. -/
theorem skipComment_length {json rest : List UInt8} (skipped : skipComment json = some rest) :
    rest.length < json.length := by
  induction json with
  | nil => cases skipped
  | cons byte json ih =>
    rw [skipComment] at skipped
    split at skipped
    · obtain rfl := Option.some.inj skipped
      rw [List.length_tail, List.length_cons]
      omega
    · exact Nat.lt_succ_of_lt (ih skipped)

/-- A string as it is copied, from behind its quote on; one that does not end is copied with the zero,
and left behind it. -/
def copyString : List UInt8 → Option (List UInt8 × List UInt8)
  | [] => none
  | byte :: json =>
    if byte = 34 then some ([34], json)
    else if byte = 92 then
      match json with
      | [] => none
      | letter :: json => (copyString json).map fun (into, json) => (92 :: letter :: into, json)
    else (copyString json).map fun (into, json) => (byte :: into, json)

/-- A string is copied as it is. -/
theorem copyString_append {json into rest : List UInt8} (copied : copyString json = some (into, rest)) :
    json = into ++ rest := by
  fun_induction copyString json generalizing into rest with
  | case1 => cases copied
  | case2 =>
    obtain ⟨rfl, rfl⟩ := Prod.mk.inj (Option.some.inj copied)
    rfl
  | case3 => cases copied
  | case4 letter json _ ih =>
    obtain ⟨⟨more, last⟩, found, same⟩ := Option.map_eq_some_iff.mp copied
    obtain ⟨rfl, rfl⟩ := Prod.mk.inj same
    rw [ih found]
    rfl
  | case5 byte json _ _ ih =>
    obtain ⟨⟨more, last⟩, found, same⟩ := Option.map_eq_some_iff.mp copied
    obtain ⟨rfl, rfl⟩ := Prod.mk.inj same
    rw [ih found]
    rfl

/-- `cJSON_Minify`: what it leaves in the text. It writes no more than it has read, so writing into the
text it reads does no harm. -/
def cJsonMinify (json : List UInt8) : Option (List UInt8) :=
  match json with
  | [] => some []
  | byte :: json =>
    if byte = 32 ∨ byte = 9 ∨ byte = 13 ∨ byte = 10 then cJsonMinify json
    else if byte = 47 ∧ json.head? = some 47 then cJsonMinify (json.dropWhile (· ≠ 10))
    else if byte = 47 ∧ json.head? = some 42 then
      match _skipped : skipComment json with
      | none => none
      | some json => cJsonMinify json
    else if byte = 34 then
      match _copied : copyString json with
      | none => none
      | some (into, json) => (cJsonMinify json).map fun out => 34 :: (into ++ out)
    else (cJsonMinify json).map (byte :: ·)
termination_by json.length
decreasing_by
  · exact Nat.lt_succ_self _
  · exact Nat.lt_succ_of_le (List.dropWhile_suffix _).length_le
  · exact Nat.lt_succ_of_lt (skipComment_length _skipped)
  · have split := congrArg List.length (copyString_append _copied)
    rw [List.length_append] at split
    exact Nat.lt_succ_of_le (by omega)
  · exact Nat.lt_succ_self _

end Minify

/-- The library as the JD cloud uses it. A string ends inside the address space; what is not defined
has no document. -/
def cJsonLibrary (n : CJsonNumbers) : CJsonLibrary where
  parse text := (cJsonParse n ((text.read 0 (2 ^ 32)).takeWhile (· ≠ 0))).value?
  print item := .ofBytes ((cJsonPrintUnformatted item).getD [])

end ShuangFa
