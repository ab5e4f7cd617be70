import ShuangFa.Coding.Format
import ShuangFa.Memory.Access

/-! # Documents of the JSON library

An item of `cJSON` has a type, and `valuestring` and the numbers belong to one type each. The items
inside an array or an object are a list, and those inside an object have names. The parser and the
printer are parameters: the parser reads from a pointer and gives `NULL` for what is no document.
-/

namespace ShuangFa

open Memory Coding

/-- `cJSON` -/
inductive CJson where
  | null
  | false
  | true
  | number (valueint : Int32) (valuedouble : Float)
  | string (valuestring : CString)
  | array (child : List CJson)
  | object (child : List (CString × CJson))

/-- `tolower` -/
def tolower (byte : UInt8) : UInt8 := if 65 ≤ byte ∧ byte ≤ 90 then byte + 32 else byte

/-- `cJSON_strcasecmp` finds no difference. -/
def SameName (first second : CString) : Prop :=
  first.bytes.map tolower = second.bytes.map tolower

instance (first second : CString) : Decidable (SameName first second) :=
  inferInstanceAs (Decidable (_ = _))

/-- A literal of the source. -/
def literal (text : String) : CString := .ofBytes (ascii text.toList)

namespace CJson

/-- The items inside an item. -/
def child : CJson → List CJson
  | array child => child
  | object child => child.map Prod.snd
  | _ => []

/-- `cJSON_GetObjectItem`; the items of an array have no names. -/
def getObjectItem (item : CJson) (name : String) : Option CJson :=
  match item with
  | object child =>
    (child.find? fun member => decide (SameName member.1 (literal name))).map Prod.snd
  | _ => none

/-- `valueint`, which belongs to numbers. -/
def valueint? : CJson → Option Int32
  | number valueint _ => some valueint
  | _ => none

/-- `valuestring`, which belongs to strings. -/
def valuestring? : CJson → Option CString
  | string valuestring => some valuestring
  | _ => none

/-- `valueint` of the item with a name. -/
def valueintAt (item : CJson) (name : String) : Option Int32 :=
  (item.getObjectItem name).bind valueint?

/-- `valuestring` of the item with a name. -/
def valuestringAt (item : CJson) (name : String) : Option CString :=
  (item.getObjectItem name).bind valuestring?

theorem valuestring?_eq_some_iff {item : CJson} {value : CString} :
    item.valuestring? = some value ↔ item = string value := by
  cases item with
  | string valuestring => rw [valuestring?, Option.some.injEq, string.injEq]
  | null | false | true | number | array | object =>
    constructor
    · intro read
      cases read
    · intro same
      cases same

end CJson

/-- `cJSON_Parse` of the text behind a pointer, and `cJSON_PrintUnformatted`. -/
structure CJsonLibrary where
  parse : View → Option CJson
  print : CJson → CString

end ShuangFa
