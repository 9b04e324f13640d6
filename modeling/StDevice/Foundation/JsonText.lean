import StDevice.Foundation.Double
import StDevice.Foundation.Json

/-!
# Documents that are printed and read again

A document is built from its members, printed, and read back by someone else. JSON has no
text for a number that is infinite or NaN, and the library prints `null` for it. The parser
stops at the end of the document and does not look at what follows.
-/

namespace Json

/-- `cJSON_CreateNumber`: `valueint` saturates. -/
def createNumber (bits : UInt64) : Json :=
  number (max (-2 ^ 31) (min (2 ^ 31 - 1) (Double.truncate bits))) bits

/-- `cJSON_AddStringToObject`, which adds nothing for NULL. -/
def stringMember (name : String) (text : Option (List UInt8)) : List (List UInt8 × Json) :=
  match text with
  | none => []
  | some text => [(CString.ascii name, string text)]

/-- `cJSON_AddItemToObject`, which adds nothing for NULL. -/
def itemMember (name : String) (item : Option Json) : List (List UInt8 × Json) :=
  match item with
  | none => []
  | some item => [(CString.ascii name, item)]

mutual

/-- What the text of the document says. -/
def asPrinted : Json → Json
  | null => null
  | bool value => bool value
  | number valueint valuedouble =>
      if Double.isFinite valuedouble then number valueint valuedouble else null
  | string valuestring => string valuestring
  | array items => array (itemsAsPrinted items)
  | object members => object (membersAsPrinted members)

def itemsAsPrinted : List Json → List Json
  | [] => []
  | item :: items => item.asPrinted :: itemsAsPrinted items

def membersAsPrinted : List (List UInt8 × Json) → List (List UInt8 × Json)
  | [] => []
  | (name, item) :: members => (name, item.asPrinted) :: membersAsPrinted members

end

theorem createNumber_ofInt {n : Int} (low : -2 ^ 31 ≤ n) (high : n < 2 ^ 31) :
    createNumber (Double.ofInt n) = number n (Double.ofInt n) := by
  rw [createNumber, Double.truncate_ofInt low high]
  congr 1
  omega

theorem asPrinted_createNumber_ofInt {n : Int} (low : -2 ^ 31 ≤ n) (high : n < 2 ^ 31) :
    (createNumber (Double.ofInt n)).asPrinted = createNumber (Double.ofInt n) := by
  rw [createNumber, asPrinted, if_pos (Double.isFinite_ofInt low high)]

/-! ## Looking a member up -/

/-- The comparison of `cJSON_GetObjectItem`. -/
def sameName (wanted : String) (name : List UInt8) : Bool :=
  name.map toLower == (CString.ascii wanted).map toLower

theorem getObjectItem_object (members : List (List UInt8 × Json)) (wanted : String) :
    (object members).getObjectItem wanted =
      (members.find? fun member => sameName wanted member.1).map Prod.snd := by
  rw [getObjectItem, children, List.find?_map, Option.map_map]
  congr 1

/-- A member that comes behind others with other names. -/
theorem getObjectItem_behind {front rest : List (List UInt8 × Json)} {wanted : String}
    {item : Json} (others : ∀ member ∈ front, sameName wanted member.1 = false) :
    (object (front ++ ((CString.ascii wanted, item) :: rest))).getObjectItem wanted =
      some item := by
  have passed : (front.find? fun member => sameName wanted member.1) = none :=
    List.find?_eq_none.mpr fun member inside => by simp [others member inside]
  have here : sameName wanted (CString.ascii wanted) = true := beq_self_eq_true _
  rw [getObjectItem_object, List.find?_append, passed, Option.none_or, List.find?_cons, here,
    Option.map_some]

theorem other_stringMember {wanted name : String}
    (other : sameName wanted (CString.ascii name) = false) (text : Option (List UInt8)) :
    ∀ member ∈ stringMember name text, sameName wanted member.1 = false := by
  intro member inside
  cases text with
  | none => cases inside
  | some text =>
      rw [List.mem_singleton.mp inside]
      exact other

theorem other_itemMember {wanted name : String}
    (other : sameName wanted (CString.ascii name) = false) (item : Option Json) :
    ∀ member ∈ itemMember name item, sameName wanted member.1 = false := by
  intro member inside
  cases item with
  | none => cases inside
  | some item =>
      rw [List.mem_singleton.mp inside]
      exact other

theorem find?_membersAsPrinted (members : List (List UInt8 × Json)) (wanted : String) :
    ((membersAsPrinted members).find? fun member => sameName wanted member.1) =
      (members.find? fun member => sameName wanted member.1).map
        fun member => (member.1, member.2.asPrinted) := by
  induction members with
  | nil => rfl
  | cons member members ih =>
      obtain ⟨name, item⟩ := member
      rw [membersAsPrinted, List.find?_cons, List.find?_cons]
      cases sameName wanted name with
      | true => rfl
      | false => exact ih

/-- The members of a document that was printed and read back. -/
theorem getObjectItem_asPrinted {members : List (List UInt8 × Json)} {wanted : String}
    {item : Json} (found : (object members).getObjectItem wanted = some item) :
    (object members).asPrinted.getObjectItem wanted = some item.asPrinted := by
  rw [getObjectItem_object] at found
  obtain ⟨member, there, rfl⟩ := Option.map_eq_some_iff.mp found
  rw [asPrinted, getObjectItem_object, find?_membersAsPrinted, there]
  rfl

/-- The first item of an array that was printed and read back. -/
theorem head?_children_asPrinted (item : Json) (items : List Json) :
    (array (item :: items)).asPrinted.children.head? = some (none, item.asPrinted) := by
  rw [asPrinted, itemsAsPrinted, children, List.map_cons, List.head?_cons]

end Json

namespace JsonLibrary

/-- The library reads back what it prints for the document, also with other bytes behind
it. cJSON does so for documents that are nested less than a thousand deep. -/
def ReadsBack (lib : JsonLibrary) (json : Json) : Prop :=
  ∀ text, lib.print json = some text →
    0 ∉ text ∧ ∀ rest, lib.parse (text ++ rest) = some json.asPrinted

end JsonLibrary
