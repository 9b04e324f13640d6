import StDevice.Foundation.JsonText

/-!
# Members that are set

A member is added behind the others, or put in the place of the one that is there. The search
for it does not look at the case of letters and the replacement does, so that both mean the
same member only while no other member has a name that differs in case.
-/

namespace Json

/-- The first member of this name gets another item. -/
def replaceMember (name : List UInt8) (item : Json) :
    List (List UInt8 × Json) → List (List UInt8 × Json)
  | [] => []
  | member :: members =>
      if member.1 = name then (name, item) :: members
      else member :: replaceMember name item members

/-- `cJSON_AddItemToObject`, for objects. -/
def addItem (json : Json) (name : String) (item : Json) : Json :=
  match json with
  | object members => object (members ++ [(CString.ascii name, item)])
  | other => other

/-- `cJSON_ReplaceItemInObjectCaseSensitive`, for objects. -/
def replaceItem (json : Json) (name : String) (item : Json) : Json :=
  match json with
  | object members => object (replaceMember (CString.ascii name) item members)
  | other => other

/-- The member is replaced if it is there, and added if not. -/
def setItem (json : Json) (name : String) (item : Json) : Json :=
  match json.getObjectItem name with
  | none => json.addItem name item
  | some _ => json.replaceItem name item

/-- The members that are found under this name have it in this spelling. -/
def Spelled (members : List (List UInt8 × Json)) (name : String) : Prop :=
  ∀ member ∈ members, sameName name member.1 = true → member.1 = CString.ascii name

section Set

variable {members : List (List UInt8 × Json)} {name other : String} {item : Json}

theorem sameName_self (name : String) : sameName name (CString.ascii name) = true :=
  beq_self_eq_true _

theorem Spelled.tail {member : List UInt8 × Json} (spelled : Spelled (member :: members) name) :
    Spelled members name :=
  fun other inside => spelled other (List.mem_cons_of_mem _ inside)

theorem find?_replaceMember_self (spelled : Spelled members name)
    (found : (members.find? fun m => sameName name m.1).isSome = true) :
    ((replaceMember (CString.ascii name) item members).find? fun m => sameName name m.1) =
      some (CString.ascii name, item) := by
  induction members with
  | nil => cases found
  | cons member members ih =>
      rw [replaceMember]
      by_cases here : member.1 = CString.ascii name
      · rw [if_pos here, List.find?_cons, sameName_self]
      · have differs : sameName name member.1 = false :=
          Bool.eq_false_iff.mpr fun same => here (spelled member List.mem_cons_self same)
        rw [List.find?_cons, differs] at found
        rw [if_neg here, List.find?_cons, differs]
        exact ih spelled.tail found

theorem find?_replaceMember_other (differs : sameName other (CString.ascii name) = false) :
    ((replaceMember (CString.ascii name) item members).find? fun m => sameName other m.1) =
      members.find? fun m => sameName other m.1 := by
  induction members with
  | nil => rfl
  | cons member members ih =>
      rw [replaceMember]
      by_cases here : member.1 = CString.ascii name
      · rw [if_pos here, List.find?_cons, List.find?_cons, here, differs]
      · rw [if_neg here, List.find?_cons, List.find?_cons, ih]

/-- The item that is there already changes nothing. -/
theorem replaceMember_eq_self (spelled : Spelled members name)
    (there : (members.find? fun m => sameName name m.1).map Prod.snd = some item) :
    replaceMember (CString.ascii name) item members = members := by
  induction members with
  | nil => rfl
  | cons member members ih =>
      rw [replaceMember]
      by_cases here : member.1 = CString.ascii name
      · rw [List.find?_cons, here, sameName_self, Option.map_some, Option.some.injEq] at there
        rw [if_pos here, ← here, ← there]
      · have differs : sameName name member.1 = false :=
          Bool.eq_false_iff.mpr fun same => here (spelled member List.mem_cons_self same)
        rw [List.find?_cons, differs] at there
        rw [if_neg here, ih spelled.tail there]

theorem mem_replaceMember {member : List UInt8 × Json}
    (inside : member ∈ replaceMember (CString.ascii name) item members) :
    member ∈ members ∨ member = (CString.ascii name, item) := by
  induction members with
  | nil => cases inside
  | cons first members ih =>
      rw [replaceMember] at inside
      split at inside
      · obtain rfl | later := List.mem_cons.mp inside
        · exact .inr rfl
        · exact .inl (List.mem_cons_of_mem _ later)
      · obtain rfl | later := List.mem_cons.mp inside
        · exact .inl List.mem_cons_self
        · exact (ih later).imp_left (List.mem_cons_of_mem _)

/-- The members after `setItem`. -/
def setMember (name : String) (item : Json) (members : List (List UInt8 × Json)) :
    List (List UInt8 × Json) :=
  if (members.find? fun m => sameName name m.1).isSome then
    replaceMember (CString.ascii name) item members
  else members ++ [(CString.ascii name, item)]

theorem setItem_object :
    (object members).setItem name item = object (setMember name item members) := by
  rw [setItem, getObjectItem_object, setMember]
  cases members.find? fun m => sameName name m.1 with
  | none => rfl
  | some member => rfl

theorem mem_setMember {member : List UInt8 × Json} (inside : member ∈ setMember name item members) :
    member ∈ members ∨ member = (CString.ascii name, item) := by
  rw [setMember] at inside
  split at inside
  · exact mem_replaceMember inside
  · exact (List.mem_append.mp inside).imp_right List.mem_singleton.mp

/-- The member that was set is found. -/
theorem getObjectItem_setMember_self (spelled : Spelled members name) :
    (object (setMember name item members)).getObjectItem name = some item := by
  rw [getObjectItem_object, setMember]
  by_cases found : (members.find? fun m => sameName name m.1).isSome = true
  · rw [if_pos found, find?_replaceMember_self spelled found, Option.map_some]
  · rw [if_neg found, List.find?_append, Option.not_isSome_iff_eq_none.mp found, Option.none_or,
      List.find?_cons, sameName_self, Option.map_some]

/-- The other members stay as they are. -/
theorem getObjectItem_setMember_other (differs : sameName other (CString.ascii name) = false) :
    (object (setMember name item members)).getObjectItem other =
      (object members).getObjectItem other := by
  rw [getObjectItem_object, getObjectItem_object, setMember]
  split
  · rw [find?_replaceMember_other differs]
  · rw [List.find?_append, List.find?_cons, differs, List.find?_nil, Option.or_none]

/-- Setting a member to the item that it has changes nothing. -/
theorem setMember_eq_self (spelled : Spelled members name)
    (there : (object members).getObjectItem name = some item) :
    setMember name item members = members := by
  rw [getObjectItem_object] at there
  have found : (members.find? fun m => sameName name m.1).isSome = true := by
    rw [← Option.isSome_map, there, Option.isSome_some]
  rw [setMember, if_pos found, replaceMember_eq_self spelled there]

/-- The spelling of a name survives if the member that is set has another name or this very
one. -/
theorem Spelled.setMember (spelled : Spelled members other)
    (exact : sameName other (CString.ascii name) = true → name = other) :
    Spelled (setMember name item members) other := by
  intro member inside same
  obtain old | rfl := mem_setMember inside
  · exact spelled member old same
  · rw [exact same]

end Set

/-- Members that are printed as they are. -/
theorem membersAsPrinted_eq_self {members : List (List UInt8 × Json)}
    (all : ∀ member ∈ members, member.2.asPrinted = member.2) :
    membersAsPrinted members = members := by
  induction members with
  | nil => rfl
  | cons member members ih =>
      obtain ⟨name, item⟩ := member
      rw [membersAsPrinted, all _ List.mem_cons_self,
        ih fun other inside => all other (List.mem_cons_of_mem _ inside)]

theorem asPrinted_object_eq_self {members : List (List UInt8 × Json)}
    (all : ∀ member ∈ members, member.2.asPrinted = member.2) :
    (object members).asPrinted = object members := by
  rw [asPrinted, membersAsPrinted_eq_self all]

end Json
