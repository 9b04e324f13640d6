import StDevice.Foundation.CString

/-!
# JSON documents

A document as the cJSON interface shows it. The fields of an item that its type does not
use read as the library leaves them: no text, and zero for the numbers. Names are looked
up without regard to the case of letters, and the first member found counts.
-/

/-- A document. The value of a number is kept as the bits of the double. -/
inductive Json where
  | null
  | bool (value : Bool)
  | number (valueint : Int) (valuedouble : UInt64)
  | string (valuestring : List UInt8)
  | array (items : List Json)
  | object (members : List (List UInt8 × Json))

namespace Json

/-- `tolower`. -/
def toLower (c : UInt8) : UInt8 := if 65 ≤ c ∧ c ≤ 90 then c + 32 else c

/-- `valuestring`, which is NULL unless the item is a string. -/
def valuestring : Json → Option (List UInt8)
  | string text => some text
  | _ => none

def valueint : Json → Int
  | number value _ => value
  | _ => 0

def valuedouble : Json → UInt64
  | number _ bits => bits
  | _ => 0

/-- `cJSON_IsTrue`. -/
def isTrue : Json → Bool
  | bool value => value
  | _ => false

/-- The list at `child`, with the name of each item. -/
def children : Json → List (Option (List UInt8) × Json)
  | array items => items.map fun item => (none, item)
  | object members => members.map fun member => (some member.1, member.2)
  | _ => []

/-- `cJSON_GetObjectItem`. -/
def getObjectItem (json : Json) (name : String) : Option Json :=
  (json.children.find? fun child =>
    child.1.map (List.map toLower) == some ((CString.ascii name).map toLower)).map Prod.snd

/-- The text of a member that is a string. -/
def memberText (json : Json) (name : String) : Option (List UInt8) :=
  (json.getObjectItem name).bind valuestring

/-- A member that is there is a string or something else. -/
theorem memberText_eq_of_getObjectItem {json item : Json} {name : String}
    (found : json.getObjectItem name = some item) : json.memberText name = item.valuestring := by
  rw [memberText, found, Option.bind_some]

end Json

/-- The library: what it makes of a text, and the text it makes of a document. It fails to
print only when memory runs out, which is left out. -/
structure JsonLibrary where
  parse : List UInt8 → Option Json
  print : Json → Option (List UInt8)
  prints : ∀ json, (print json).isSome = true
