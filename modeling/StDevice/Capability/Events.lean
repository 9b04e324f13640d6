import StDevice.Foundation.JsonText
import StDevice.Mqtt.Packet

/-!
# The documents of device events

`st_cap_send_attr` and `st_cap_send_attr_v2` number a message and make one document of all its
attributes, each of which carries the number. When the message is not delivered, the number is
read out of the document again: `_iot_parse_sequence_num` takes it from the first attribute.

Allocations succeed. The time is what `iot_get_time_in_ms` gives for an attribute, if anything.
-/

namespace StDevice.Capability

/-- `MAX_SQNUM`. -/
def maxSqnum : Nat := 0x7FFFFFFF

/-- How `event_sequence_num` moves on. -/
def nextSequenceNum (eventSequenceNum : Nat) : Nat :=
  let eventSequenceNum := if eventSequenceNum = maxSqnum then 0 else eventSequenceNum
  (eventSequenceNum + 1) &&& maxSqnum

/-- `iot_cap_val_t`, by its type. -/
inductive CapVal where
  | boolean (value : Bool)
  | integer (value : Int)
  | number (bits : UInt64)
  | string (text : Option CString)
  | strArray (texts : List CString)
  | jsonObject (text : CString)
  | other

/-- `iot_cap_evt_data_t`, with the names of the capability it refers to. -/
structure EvtData where
  component : CString
  capability : CString
  evtType : CString
  evtValue : CapVal
  /-- the text of a unit of type string -/
  evtUnit : Option CString
  evtValueData : Option CString
  commandId : Option CString
  displayed : Option Bool
  stateChange : Bool

/-- `st_data`. -/
inductive StData where
  | string (text : Option CString)
  | number (bits : UInt64)
  | boolean (value : Bool)
  | rawJson (text : CString)
  /-- JSON objects, arrays and null, which are not sent -/
  | unsent

/-- `st_attr_data`. -/
structure AttrData where
  /-- ST_COMPONENT_CUSTOM -/
  customComponent : Bool
  customComponentName : Option CString
  /-- ST_ATTR_CUSTOM -/
  customAttr : Bool
  customCapName : Option CString
  customAttrName : Option CString
  value : StData
  unit : Option CString
  data : Option CString
  supportHistory : Bool
  stateChange : Bool
  relatedCommandId : Option CString

/-- A text that may be NULL. -/
def textOf (text : Option CString) : Option (List UInt8) := text.map CString.bytes

/-- The `providerData` of an attribute. -/
def providerData (seqNum : Nat) (timeInMs : Option CString) (stateChange : Bool) : Json :=
  .object ((CString.ascii "sequenceNumber", .createNumber (Double.ofInt seqNum)) ::
    (Json.stringMember "timestamp" (textOf timeInMs) ++
      if stateChange then [(CString.ascii "stateChange", .string (CString.ascii "Y"))] else []))

/-- `visibility`, where the attribute says something about it. -/
def visibility (displayed : Option Bool) : Option Json :=
  displayed.map fun value => .object [(CString.ascii "displayed", .bool value)]

section Make

variable (lib : JsonLibrary)

/-- The `value` of an attribute, or `none` for a type that there is not. -/
def CapVal.json : CapVal → Option (Option Json)
  | boolean value => some (some (.bool value))
  | integer value => some (some (.createNumber (Double.ofInt value)))
  | number bits => some (some (.createNumber bits))
  | string text => some (text.map fun text => .string text.bytes)
  | strArray texts => some (some (.array (texts.map fun text => .string text.bytes)))
  | jsonObject text => some (lib.parse text.bytes)
  | other => none

/-- What `_iot_make_evt_data` puts in front of the `providerData`. -/
def evtFront (evtData : EvtData) (value : Option Json) : List (List UInt8 × Json) :=
  Json.stringMember "commandId" (textOf evtData.commandId) ++
    Json.stringMember "component" (some evtData.component.bytes) ++
    Json.stringMember "capability" (some evtData.capability.bytes) ++
    Json.stringMember "attribute" (some evtData.evtType.bytes) ++
    Json.itemMember "value" value ++
    Json.stringMember "unit" (textOf evtData.evtUnit) ++
    Json.itemMember "data" (evtData.evtValueData.bind fun text => lib.parse text.bytes) ++
    Json.itemMember "visibility" (visibility evtData.displayed)

/-- `_iot_make_evt_data`. -/
def iotMakeEvtData (seqNum : Nat) (timeInMs : Option CString) (evtData : EvtData) :
    Option Json :=
  (evtData.evtValue.json lib).map fun value =>
    .object (evtFront lib evtData value ++
      [(CString.ascii "providerData", providerData seqNum timeInMs evtData.stateChange)])

/-- The `value` of `_iot_make_evt_data_v2`. -/
def StData.json : StData → Option Json
  | string text => text.map fun text => .string text.bytes
  | number bits => some (.createNumber bits)
  | boolean value => some (.bool value)
  | rawJson text => lib.parse text.bytes
  | unsent => none

/-- The component that `_iot_make_evt_data_v2` names. -/
def AttrData.component (attrData : AttrData) : Option (List UInt8) :=
  if attrData.customComponent then textOf attrData.customComponentName
  else some (CString.ascii "main")

/-- The capability and the attribute that `_iot_make_evt_data_v2` names. -/
def AttrData.names (attrData : AttrData) : Option (List UInt8 × List UInt8) :=
  if attrData.customAttr then do
    let capability ← attrData.customCapName
    let attrName ← attrData.customAttrName
    pure (capability.bytes, attrName.bytes)
  else none

/-- What `_iot_make_evt_data_v2` puts in front of the `providerData`. -/
def attrFront (attrData : AttrData) (component capability attrName : List UInt8) :
    List (List UInt8 × Json) :=
  Json.stringMember "component" (some component) ++
    Json.stringMember "capability" (some capability) ++
    Json.stringMember "attribute" (some attrName) ++
    Json.itemMember "value" (attrData.value.json lib) ++
    Json.stringMember "unit" (textOf attrData.unit) ++
    Json.itemMember "data" (attrData.data.bind fun text => lib.parse text.bytes) ++
    Json.itemMember "visibility" (visibility (if attrData.supportHistory then none else some false))

/-- `_iot_make_evt_data_v2`. -/
def iotMakeEvtDataV2 (seqNum : Nat) (timeInMs : Option CString) (attrData : AttrData) :
    Option Json := do
  let component ← attrData.component
  let (capability, attrName) ← attrData.names
  pure (.object (attrFront lib attrData component capability attrName ++
    (CString.ascii "providerData", providerData seqNum timeInMs attrData.stateChange) ::
      Json.stringMember "commandId" (textOf attrData.relatedCommandId)))

end Make

/-- The loops of both functions, which stop at the first attribute that cannot be sent. An
attribute comes with the time that is read for it. -/
def makeAll {α : Type} (make : Option CString → α → Option Json) :
    List (Option α × Option CString) → Option (List Json)
  | [] => some []
  | (none, _) :: _ => none
  | (some data, timeInMs) :: rest => do
      let item ← make timeInMs data
      let items ← makeAll make rest
      pure (item :: items)

/-- `evt_root`. -/
def evtRoot (items : List Json) : Json := .object [(CString.ascii "deviceEvents", .array items)]

/-- `_iot_parse_sequence_num`. There is no result where the conversion of the number to `int`
is undefined. -/
def iotParseSequenceNum (lib : JsonLibrary) (payload : List UInt8) : Option Int :=
  match lib.parse (CString.cstr payload) with
  | none => some 0
  | some json =>
      match json.getObjectItem "deviceEvents" with
      | none => some 0
      | some deviceEvents =>
          match deviceEvents.children.head? with
          | none => some 0
          | some (_, firstEvent) =>
              match firstEvent.getObjectItem "providerData" with
              | none => some 0
              | some providerData =>
                  match providerData.getObjectItem "sequenceNumber" with
                  | none => some 0
                  | some sequenceNumber => Double.toInt sequenceNumber.valuedouble

/-! ## The counter -/

/-- The mask takes nothing away. -/
theorem nextSequenceNum_eq {n : Nat} (inside : n ≤ maxSqnum) :
    nextSequenceNum n = if n = maxSqnum then 1 else n + 1 := by
  have mask (m : Nat) : m &&& maxSqnum = m % 2 ^ 31 := Nat.and_two_pow_sub_one_eq_mod m 31
  unfold nextSequenceNum
  rw [mask]
  unfold maxSqnum at inside ⊢
  split
  · rfl
  · exact Nat.mod_eq_of_lt (by omega)

theorem nextSequenceNum_bounds {n : Nat} (inside : n ≤ maxSqnum) :
    1 ≤ nextSequenceNum n ∧ nextSequenceNum n ≤ maxSqnum := by
  rw [nextSequenceNum_eq inside]
  unfold maxSqnum at inside ⊢
  split
  · exact ⟨Nat.le_refl 1, by decide⟩
  · exact ⟨by omega, by omega⟩

theorem nextSequenceNum_ne {n : Nat} (inside : n ≤ maxSqnum) : nextSequenceNum n ≠ n := by
  rw [nextSequenceNum_eq inside]
  unfold maxSqnum
  split
  · omega
  · omega

/-! ## The number in the document -/

/-- The attribute carries the number. -/
def Numbered (seqNum : Nat) (item : Json) : Prop :=
  ∃ members timeInMs stateChange, item = .object members ∧
    item.getObjectItem "providerData" = some (providerData seqNum timeInMs stateChange)

section Numbered

variable {lib : JsonLibrary} {seqNum : Nat} {timeInMs : Option CString}

theorem other_evtFront (evtData : EvtData) (value : Option Json) :
    ∀ member ∈ evtFront lib evtData value, Json.sameName "providerData" member.1 = false := by
  simp only [evtFront, List.forall_mem_append]
  refine ⟨⟨⟨⟨⟨⟨⟨?_, ?_⟩, ?_⟩, ?_⟩, ?_⟩, ?_⟩, ?_⟩, ?_⟩
  · exact Json.other_stringMember (by decide) _
  · exact Json.other_stringMember (by decide) _
  · exact Json.other_stringMember (by decide) _
  · exact Json.other_stringMember (by decide) _
  · exact Json.other_itemMember (by decide) _
  · exact Json.other_stringMember (by decide) _
  · exact Json.other_itemMember (by decide) _
  · exact Json.other_itemMember (by decide) _

theorem other_attrFront (attrData : AttrData) (component capability attrName : List UInt8) :
    ∀ member ∈ attrFront lib attrData component capability attrName,
      Json.sameName "providerData" member.1 = false := by
  simp only [attrFront, List.forall_mem_append]
  refine ⟨⟨⟨⟨⟨⟨?_, ?_⟩, ?_⟩, ?_⟩, ?_⟩, ?_⟩, ?_⟩
  · exact Json.other_stringMember (by decide) _
  · exact Json.other_stringMember (by decide) _
  · exact Json.other_stringMember (by decide) _
  · exact Json.other_itemMember (by decide) _
  · exact Json.other_stringMember (by decide) _
  · exact Json.other_itemMember (by decide) _
  · exact Json.other_itemMember (by decide) _

theorem iotMakeEvtData_numbered {evtData : EvtData} {item : Json}
    (made : iotMakeEvtData lib seqNum timeInMs evtData = some item) : Numbered seqNum item := by
  obtain ⟨value, -, rfl⟩ := Option.map_eq_some_iff.mp made
  exact ⟨_, _, _, rfl, Json.getObjectItem_behind (other_evtFront evtData value)⟩

theorem iotMakeEvtDataV2_numbered {attrData : AttrData} {item : Json}
    (made : iotMakeEvtDataV2 lib seqNum timeInMs attrData = some item) :
    Numbered seqNum item := by
  simp only [iotMakeEvtDataV2, Option.bind_eq_bind, Option.pure_def, Option.bind_eq_some_iff,
    Option.some.injEq] at made
  obtain ⟨component, -, ⟨capability, attrName⟩, -, rfl⟩ := made
  exact ⟨_, _, _, rfl, Json.getObjectItem_behind (other_attrFront attrData _ _ _)⟩

/-- The items that a loop made, if it came to the end. -/
theorem makeAll_cons {α : Type} {make : Option CString → α → Option Json}
    {first : Option α × Option CString} {rest : List (Option α × Option CString)}
    {items : List Json} (made : makeAll make (first :: rest) = some items) :
    ∃ data item others, make first.2 data = some item ∧ items = item :: others := by
  obtain ⟨data, timeInMs⟩ := first
  cases data with
  | none => cases made
  | some data =>
      simp only [makeAll, Option.bind_eq_bind, Option.pure_def, Option.bind_eq_some_iff,
        Option.some.injEq] at made
      obtain ⟨item, here, others, -, rfl⟩ := made
      exact ⟨data, item, others, here, rfl⟩

theorem Numbered.sequenceNumber {item : Json} (numbered : Numbered seqNum item) :
    ∃ provider, item.asPrinted.getObjectItem "providerData" = some provider ∧
      provider.getObjectItem "sequenceNumber" =
        some (Json.createNumber (Double.ofInt seqNum)).asPrinted := by
  obtain ⟨members, timeInMs, stateChange, rfl, found⟩ := numbered
  refine ⟨_, Json.getObjectItem_asPrinted found, ?_⟩
  exact Json.getObjectItem_asPrinted (Json.getObjectItem_behind (List.forall_mem_nil _))

/-- The number of a message is read out of its text, whatever comes behind it. -/
theorem iotParseSequenceNum_evtRoot {item : Json} {items : List Json} {text : List UInt8}
    (numbered : Numbered seqNum item) (small : seqNum ≤ maxSqnum)
    (reads : lib.ReadsBack (evtRoot (item :: items)))
    (printed : lib.print (evtRoot (item :: items)) = some text) (after : List UInt8) :
    iotParseSequenceNum lib (text ++ after) = some seqNum := by
  obtain ⟨plain, back⟩ := reads text printed
  obtain ⟨provider, found, number⟩ := numbered.sequenceNumber
  have events : (evtRoot (item :: items)).asPrinted.getObjectItem "deviceEvents" =
      some (Json.array (item :: items)).asPrinted :=
    Json.getObjectItem_asPrinted (Json.getObjectItem_behind (List.forall_mem_nil _))
  have low : -2 ^ 31 ≤ (seqNum : Int) := by omega
  have high : (seqNum : Int) < 2 ^ 31 := by
    unfold maxSqnum at small
    omega
  rw [Json.asPrinted_createNumber_ofInt low high, Json.createNumber_ofInt low high] at number
  rw [iotParseSequenceNum, CString.cstr_append_of_notMem plain, back]
  simp only [events, Json.head?_children_asPrinted, found, number, Json.valuedouble]
  exact Double.toInt_ofInt low high

end Numbered

end StDevice.Capability
