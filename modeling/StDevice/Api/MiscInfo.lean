import Mathlib.Data.List.Induction
import Mathlib.Logic.Function.Basic
import StDevice.Foundation.Fallible
import StDevice.Foundation.JsonMember
import StDevice.NvData.Text
import StDevice.Util.Uuid

/-!
# The misc info

Three kinds of data share one JSON text in NV memory. `iot_misc_info_store` reads the text,
sets the member of its kind and writes the text again, unless the SHA-256 hash says that it
is the same; `iot_misc_info_load` reads the text and takes the member out.

To its callers this is a record with one field for each kind (`recordAfter`).
-/

namespace StDevice.Api

open Util (IotUuid iotUtilConvertStrUuid iotUtilConvertUuidStr)
open NvData (TextPlatform iotNvGetMiscInfo)

/-- `struct iot_dip_data`. -/
structure IotDipData where
  dipId : IotUuid
  dipMajorVersion : Int32
  dipMinorVersion : Int32

/-- `iot_misc_info_t`. -/
inductive MiscType where
  | dip | location | prevErr
  deriving DecidableEq

/-- What `in_data` and `out_data` point to. -/
def MiscType.Data : MiscType → Type
  | dip => IotDipData
  | location => IotUuid
  | prevErr => CString

/-- The data of a call with its type. -/
abbrev MiscInfo := (type : MiscType) × type.Data

inductive MiscError where
  | nvDataError | badReq | uuidError
  deriving DecidableEq

section Load

variable (uninit : IotUuid)

/-- `_get_dip_from_json`, with what is in the local variable for the id. -/
def getDipFromJson (json : Json) : Fallible MiscError IotDipData := do
  let subItem ← .orFail (json.getObjectItem "dip") .badReq
  let id ← .orFail (subItem.getObjectItem "id") .badReq
  let dipId ← .orFail (iotUtilConvertStrUuid id.valuestring (some uninit)) .uuidError
  let major ← .orFail (subItem.getObjectItem "maj") .badReq
  let minor := ((subItem.getObjectItem "min").map Json.valueint).getD 0
  .done ⟨dipId, .ofInt major.valueint, .ofInt minor⟩

/-- `_get_location_from_json`. -/
def getLocationFromJson (json : Json) : Fallible MiscError IotUuid := do
  let item ← .orFail (json.getObjectItem "loId") .badReq
  .orFail (iotUtilConvertStrUuid item.valuestring (some uninit)) .uuidError

/-- `_get_preverr_from_json`. -/
def getPreverrFromJson (json : Json) : Fallible MiscError CString := do
  let item ← .orFail (json.getObjectItem "prevErr") .badReq
  let valuestring ← .deref item.valuestring
  .done ⟨CString.cstr valuestring, CString.notMem_cstr valuestring⟩

/-- The switch of `iot_misc_info_load`. -/
def getFromJson (json : Json) : (type : MiscType) → Fallible MiscError type.Data
  | .dip => getDipFromJson uninit json
  | .location => getLocationFromJson uninit json
  | .prevErr => getPreverrFromJson json

/-- `iot_misc_info_load`, for what is in NV memory. -/
def iotMiscInfoLoad (p : TextPlatform) (lib : JsonLibrary) (stored : Option (List UInt8))
    (type : MiscType) : Fallible MiscError type.Data :=
  match iotNvGetMiscInfo p stored with
  | .undefined => .stopped
  | .error => .failed .nvDataError
  | .text miscInfo _ =>
      match lib.parse miscInfo with
      | none => .failed .badReq
      | some json => getFromJson uninit json type

end Load

/-- The number of an `int`. -/
def intItem (value : Int32) : Json := .createNumber (Double.ofInt value.toInt)

/-- The member that `_set_dip_to_json` makes, with the text of the id. -/
def dipItem (dipIdStr : List UInt8) (newDip : IotDipData) : Json :=
  .object ((CString.ascii "id", .string dipIdStr) ::
    (CString.ascii "maj", intItem newDip.dipMajorVersion) ::
    if newDip.dipMinorVersion ≠ 0 then [(CString.ascii "min", intItem newDip.dipMinorVersion)]
    else [])

/-- `_set_dip_to_json`. -/
def setDipToJson (json : Json) (newDip : IotDipData) : Option Json :=
  (iotUtilConvertUuidStr newDip.dipId 40).map fun dipIdStr =>
    json.setItem "dip" (dipItem dipIdStr newDip)

/-- `_set_location_to_json`. -/
def setLocationToJson (json : Json) (uuid : IotUuid) : Option Json :=
  (iotUtilConvertUuidStr uuid (36 + 1)).map fun locationId =>
    json.setItem "loId" (.string locationId)

/-- `_set_preverr_to_json`. -/
def setPreverrToJson (json : Json) (prevErr : CString) : Option Json :=
  some (json.setItem "prevErr" (.string prevErr.bytes))

/-- The switch of `iot_misc_info_store`. -/
def setToJson (json : Json) : MiscInfo → Option Json
  | ⟨.dip, newDip⟩ => setDipToJson json newDip
  | ⟨.location, uuid⟩ => setLocationToJson json uuid
  | ⟨.prevErr, prevErr⟩ => setPreverrToJson json prevErr

section Store

variable (p : TextPlatform) (lib : JsonLibrary) (sha256 : List UInt8 → List UInt8)

/-- `iot_misc_info_store` after it has read `oldMiscInfo`, which is missing where there was no
text or none that could be parsed. The result is what NV memory holds afterwards. -/
def storeJson (oldMiscInfo : Option (List UInt8)) (json : Json) (info : MiscInfo) :
    Fallible MiscError (List UInt8) := do
  let json ← .orFail (setToJson json info) .uuidError
  let newMiscInfo ← .orFail (lib.print json) .badReq
  match oldMiscInfo with
  | none => .done newMiscInfo
  | some oldMiscInfo =>
      if sha256 oldMiscInfo = sha256 newMiscInfo then .done oldMiscInfo else .done newMiscInfo

/-- `iot_misc_info_store`, for what is in NV memory. A call that fails leaves it alone. -/
def iotMiscInfoStore (stored : Option (List UInt8)) (info : MiscInfo) :
    Fallible MiscError (List UInt8) :=
  match iotNvGetMiscInfo p stored with
  | .undefined => .stopped
  | .error => storeJson lib sha256 none (.object []) info
  | .text oldMiscInfo _ =>
      match lib.parse oldMiscInfo with
      | none => storeJson lib sha256 none (.object []) info
      | some json => storeJson lib sha256 (some oldMiscInfo) json info

/-- Calls that all succeed. -/
def storeAll (stored : Option (List UInt8)) :
    List MiscInfo → Fallible MiscError (Option (List UInt8))
  | [] => .done stored
  | info :: later => do
      let stored ← iotMiscInfoStore p lib sha256 stored info
      storeAll (some stored) later

end Store

/-- The record after some calls. -/
def recordAfter (calls : List MiscInfo) : (type : MiscType) → Option type.Data :=
  calls.foldl (fun fields info => Function.update fields info.1 (some info.2)) fun _ => none

/-- The document after some calls. -/
def documentAfter (calls : List MiscInfo) : Json :=
  calls.foldl (fun json info => (setToJson json info).getD json) (.object [])

/-- Ids with a version from 1 to 5. -/
def MiscInfo.Valid : MiscInfo → Prop
  | ⟨.dip, newDip⟩ => newDip.dipId.Versioned
  | ⟨.location, uuid⟩ => uuid.Versioned
  | ⟨.prevErr, _⟩ => True

/-! ## One member -/

/-- The name of the member. -/
def MiscType.name : MiscType → String
  | dip => "dip"
  | location => "loId"
  | prevErr => "prevErr"

/-- No two names differ in case only. -/
theorem sameName_name {type other : MiscType}
    (same : Json.sameName other.name (CString.ascii type.name) = true) : type = other := by
  revert same
  cases type <;> cases other <;> decide

/-- The item that a call sets: it is printed as it is, and the data is read back from it. -/
structure Carries (info : MiscInfo) (item : Json) : Prop where
  sets : ∀ json, setToJson json info = some (json.setItem info.1.name item)
  plain : item.asPrinted = item
  reads : ∀ uninit json, json.getObjectItem info.1.name = some item →
    getFromJson uninit json info.1 = .done info.2

theorem asPrinted_intItem (value : Int32) : (intItem value).asPrinted = intItem value :=
  Json.asPrinted_createNumber_ofInt (Int32.le_toInt value) (Int32.toInt_lt value)

theorem valueint_intItem (value : Int32) : Int32.ofInt (intItem value).valueint = value := by
  rw [intItem, Json.createNumber_ofInt (Int32.le_toInt value) (Int32.toInt_lt value),
    Json.valueint, Int32.ofInt_toInt]

theorem carries_dip {newDip : IotDipData} (versioned : newDip.dipId.Versioned) :
    ∃ item, Carries ⟨.dip, newDip⟩ item := by
  obtain ⟨dipIdStr, printed⟩ : ∃ text, iotUtilConvertUuidStr newDip.dipId 40 = some text := by
    obtain ⟨text, printed, -⟩ := Util.convert_printed _ newDip.dipId versioned (by decide : 37 ≤ 40)
    exact ⟨text, printed⟩
  refine ⟨dipItem dipIdStr newDip, ?_, ?_, ?_⟩
  · intro json
    change setDipToJson json newDip = _
    rw [setDipToJson, printed]
    rfl
  · apply Json.asPrinted_object_eq_self
    intro member inside
    obtain rfl | rfl | third := by simpa only [List.mem_cons] using inside
    · rw [Json.asPrinted]
    · exact asPrinted_intItem _
    · split at third
      · rw [List.mem_singleton.mp third]
        exact asPrinted_intItem _
      · cases third
  · intro uninit json found
    obtain ⟨text, again, reads⟩ :=
      Util.convert_printed newDip.dipId uninit versioned (by decide : 37 ≤ 40)
    obtain rfl := Option.some.inj (printed.symm.trans again)
    have id : (dipItem dipIdStr newDip).getObjectItem "id" = some (.string dipIdStr) := rfl
    have major : (dipItem dipIdStr newDip).getObjectItem "maj" =
        some (intItem newDip.dipMajorVersion) := rfl
    have minor : Int32.ofInt ((((dipItem dipIdStr newDip).getObjectItem "min").map
        Json.valueint).getD 0) = newDip.dipMinorVersion := by
      unfold dipItem
      by_cases zero : newDip.dipMinorVersion = 0
      · rw [if_neg fun other => other zero, zero]
        rfl
      · rw [if_pos zero]
        exact valueint_intItem _
    change json.getObjectItem "dip" = _ at found
    simp only [getFromJson, getDipFromJson, found, id, major, Fallible.orFail, Json.valuestring,
      reads, Fallible.done_bind, valueint_intItem, minor]
    rfl

theorem carries_location {uuid : IotUuid} (versioned : uuid.Versioned) :
    ∃ item, Carries ⟨.location, uuid⟩ item := by
  obtain ⟨locationId, printed⟩ : ∃ text, iotUtilConvertUuidStr uuid (36 + 1) = some text := by
    obtain ⟨text, printed, -⟩ := Util.convert_printed _ uuid versioned (Nat.le_refl 37)
    exact ⟨text, printed⟩
  refine ⟨.string locationId, ?_, ?_, ?_⟩
  · intro json
    change setLocationToJson json uuid = _
    rw [setLocationToJson, printed]
    rfl
  · rw [Json.asPrinted]
  · intro uninit json found
    obtain ⟨text, again, reads⟩ := Util.convert_printed uuid uninit versioned (Nat.le_refl 37)
    obtain rfl := Option.some.inj (printed.symm.trans again)
    change json.getObjectItem "loId" = _ at found
    simp only [getFromJson, getLocationFromJson, found, Fallible.orFail, Json.valuestring, reads,
      Fallible.done_bind]
    rfl

theorem carries_prevErr (prevErr : CString) : ∃ item, Carries ⟨.prevErr, prevErr⟩ item := by
  refine ⟨.string prevErr.bytes, fun json => rfl, ?_, ?_⟩
  · rw [Json.asPrinted]
  · intro uninit json found
    change json.getObjectItem "prevErr" = _ at found
    have whole : CString.cstr prevErr.bytes = prevErr.bytes := by
      have text := CString.cstr_append_of_notMem prevErr.noNul []
      rw [List.append_nil] at text
      exact text.trans (List.append_nil _)
    simp only [getFromJson, getPreverrFromJson, found, Fallible.orFail, Json.valuestring,
      Fallible.deref, Fallible.done_bind, whole]
    rfl

theorem exists_carries {info : MiscInfo} (valid : MiscInfo.Valid info) :
    ∃ item, Carries info item := by
  match info, valid with
  | ⟨.dip, _⟩, versioned => exact carries_dip versioned
  | ⟨.location, _⟩, versioned => exact carries_location versioned
  | ⟨.prevErr, prevErr⟩, _ => exact carries_prevErr prevErr

/-! ## The whole document -/

/-- The members show the record: those that are there carry the data of their type, in this
spelling. -/
structure Shows (members : List (List UInt8 × Json))
    (fields : (type : MiscType) → Option type.Data) : Prop where
  spelled : ∀ type : MiscType, Json.Spelled members type.name
  plain : ∀ member ∈ members, member.2.asPrinted = member.2
  missing : ∀ type, fields type = none → (Json.object members).getObjectItem type.name = none
  found : ∀ type data, fields type = some data →
    ∃ item, Carries ⟨type, data⟩ item ∧ (Json.object members).getObjectItem type.name = some item

theorem Shows.nil : Shows [] fun _ => none where
  spelled type := List.forall_mem_nil _
  plain := List.forall_mem_nil _
  missing type _ := rfl
  found type data impossible := by cases impossible

/-- A call changes the field of its type and no other. -/
theorem Shows.setMember {members : List (List UInt8 × Json)}
    {fields : (type : MiscType) → Option type.Data} (shows : Shows members fields)
    {info : MiscInfo} {item : Json} (carries : Carries info item) :
    Shows (Json.setMember info.1.name item members)
      (Function.update fields info.1 (some info.2)) where
  spelled type := (shows.spelled type).setMember fun same => congrArg _ (sameName_name same)
  plain member inside := by
    obtain old | rfl := Json.mem_setMember inside
    · exact shows.plain member old
    · exact carries.plain
  missing type none := by
    have other : type ≠ info.1 := by
      rintro rfl
      rw [Function.update_self] at none
      cases none
    have differs := Bool.eq_false_iff.mpr fun same => other (sameName_name same).symm
    rw [Function.update_of_ne other] at none
    rw [Json.getObjectItem_setMember_other differs, shows.missing type none]
  found type data some := by
    by_cases same : type = info.1
    · subst same
      rw [Function.update_self, Option.some.injEq] at some
      rw [← some]
      exact ⟨item, carries, Json.getObjectItem_setMember_self (shows.spelled _)⟩
    · have differs := Bool.eq_false_iff.mpr fun named => same (sameName_name named).symm
      rw [Function.update_of_ne same] at some
      rw [Json.getObjectItem_setMember_other differs]
      exact shows.found type data some

section Calls

variable {p : TextPlatform} {lib : JsonLibrary} {sha256 : List UInt8 → List UInt8}
  {members : List (List UInt8 × Json)} {fields : (type : MiscType) → Option type.Data}

theorem iotNvGetMiscInfo_of_text {text : List UInt8} (ready : ∀ call, p.succeeds call = true)
    (plain : 0 ∉ text) (fits : text.length ≤ 2048) :
    iotNvGetMiscInfo p (some text) = .text text text.length := by
  have same : text.take NvData.storageBufMaxLen = text := List.take_of_length_le fits
  have read : NvData.iotSecurityStorageRead p .miscInfo (some text) = .ok text := by
    change NvData.loadFromNv p (some text) = _
    rw [NvData.loadFromNv, same]
    simp [ready]
  rw [iotNvGetMiscInfo, NvData.getText_of_read plain read ⟨ready _, ready _⟩,
    if_neg (by omega), if_neg (by omega), if_pos (ready _)]

theorem iotNvGetMiscInfo_of_none (ready : ∀ call, p.succeeds call = true) :
    iotNvGetMiscInfo p none = .error := by
  have read : NvData.iotNvReadText p .miscInfo (2048 + 1) none = .error .notExist := by
    rw [NvData.iotNvReadText, if_pos (ready _)]
    rfl
  rw [iotNvGetMiscInfo, NvData.getText, if_pos (ready _), read]

/-- NV memory holds the text of the document. -/
structure Holds (p : TextPlatform) (lib : JsonLibrary) (members : List (List UInt8 × Json))
    (text : List UInt8) : Prop where
  reads : iotNvGetMiscInfo p (some text) = .text text text.length
  parses : lib.parse text = some (.object members)

theorem Shows.holds (shows : Shows members fields) (ready : ∀ call, p.succeeds call = true)
    (faithful : lib.ReadsBack (.object members)) {text : List UInt8}
    (printed : lib.print (.object members) = some text) (fits : text.length ≤ 2048) :
    Holds p lib members text := by
  obtain ⟨plain, parses⟩ := faithful text printed
  refine ⟨iotNvGetMiscInfo_of_text ready plain fits, ?_⟩
  have whole := parses []
  rwa [List.append_nil, Json.asPrinted_object_eq_self shows.plain] at whole

theorem storeJson_eq (collisionFree : Function.Injective sha256) (oldMiscInfo : Option (List UInt8))
    {info : MiscInfo} {item : Json} (carries : Carries info item) {text : List UInt8}
    (printed : lib.print (.object (Json.setMember info.1.name item members)) = some text) :
    storeJson lib sha256 oldMiscInfo (.object members) info = .done text := by
  rw [storeJson, carries.sets, Json.setItem_object]
  simp only [Fallible.orFail, Fallible.done_bind, printed]
  cases oldMiscInfo with
  | none => rfl
  | some oldMiscInfo =>
      simp only
      split
      · rw [collisionFree ‹sha256 oldMiscInfo = sha256 text›]
      · rfl

/-- A store on top of a text sets the member. -/
theorem Holds.store {old text : List UInt8} (holds : Holds p lib members old)
    (collisionFree : Function.Injective sha256) {info : MiscInfo} {item : Json}
    (carries : Carries info item)
    (printed : lib.print (.object (Json.setMember info.1.name item members)) = some text) :
    iotMiscInfoStore p lib sha256 (some old) info = .done text := by
  rw [iotMiscInfoStore, holds.reads]
  simp only [holds.parses]
  exact storeJson_eq collisionFree (some old) carries printed

/-- A load takes the field out. -/
theorem Holds.load {text : List UInt8} (holds : Holds p lib members text)
    (shows : Shows members fields) (uninit : IotUuid) (type : MiscType) :
    (∀ data, fields type = some data →
      iotMiscInfoLoad uninit p lib (some text) type = .done data) ∧
    (fields type = none → iotMiscInfoLoad uninit p lib (some text) type = .failed .badReq) := by
  have switch : iotMiscInfoLoad uninit p lib (some text) type =
      getFromJson uninit (.object members) type := by
    rw [iotMiscInfoLoad, holds.reads]
    simp only [holds.parses]
  rw [switch]
  constructor
  · intro data stored
    obtain ⟨item, carries, found⟩ := shows.found type data stored
    exact carries.reads uninit _ found
  · intro none
    have missing := shows.missing type none
    cases type with
    | dip =>
        change (Json.object members).getObjectItem "dip" = .none at missing
        rw [getFromJson, getDipFromJson, missing]
        rfl
    | location =>
        change (Json.object members).getObjectItem "loId" = .none at missing
        rw [getFromJson, getLocationFromJson, missing]
        rfl
    | prevErr =>
        change (Json.object members).getObjectItem "prevErr" = .none at missing
        rw [getFromJson, getPreverrFromJson, missing]
        rfl

/-! ## Sequences of calls -/

theorem recordAfter_append (calls : List MiscInfo) (info : MiscInfo) :
    recordAfter (calls ++ [info]) =
      Function.update (recordAfter calls) info.1 (some info.2) := by
  rw [recordAfter, List.foldl_append]
  rfl

theorem documentAfter_append (calls : List MiscInfo) {info : MiscInfo} {item : Json}
    (carries : Carries info item) :
    documentAfter (calls ++ [info]) = (documentAfter calls).setItem info.1.name item := by
  rw [documentAfter, List.foldl_append, List.foldl_cons, List.foldl_nil, carries.sets]
  rfl

theorem storeAll_append (stored : Option (List UInt8)) (calls later : List MiscInfo) :
    storeAll p lib sha256 stored (calls ++ later) =
      (storeAll p lib sha256 stored calls >>= fun stored =>
        storeAll p lib sha256 stored later) := by
  induction calls generalizing stored with
  | nil => rfl
  | cons info calls ih =>
      rw [List.cons_append, storeAll, storeAll]
      cases iotMiscInfoStore p lib sha256 stored info with
      | stopped => rfl
      | failed err => rfl
      | done text => exact ih (some text)

/-- After some calls the document shows the record. -/
theorem exists_members {calls : List MiscInfo} (valid : ∀ info ∈ calls, MiscInfo.Valid info) :
    ∃ members, documentAfter calls = .object members ∧ Shows members (recordAfter calls) := by
  induction calls using List.reverseRecOn with
  | nil => exact ⟨[], rfl, Shows.nil⟩
  | append_singleton calls info ih =>
      obtain ⟨item, carries⟩ :=
        exists_carries (valid info (List.mem_append_right _ List.mem_cons_self))
      obtain ⟨members, document, shows⟩ :=
        ih fun other inside => valid other (List.mem_append_left _ inside)
      refine ⟨Json.setMember info.1.name item members, ?_, ?_⟩
      · rw [documentAfter_append calls carries, document, Json.setItem_object]
      · rw [recordAfter_append]
        exact shows.setMember carries

/-- What the calls rely on: NV memory that does not fail, a hash without collisions, and a
library that reads back every document that is stored, each of which fits the NV item. -/
structure Faithful (p : TextPlatform) (lib : JsonLibrary) (sha256 : List UInt8 → List UInt8)
    (calls : List MiscInfo) : Prop where
  ready : ∀ call, p.succeeds call = true
  collisionFree : Function.Injective sha256
  readsBack : ∀ front, front <+: calls → front ≠ [] → lib.ReadsBack (documentAfter front)
  fits : ∀ front text, front <+: calls → front ≠ [] →
    lib.print (documentAfter front) = some text → text.length ≤ 2048

theorem Faithful.front {calls later : List MiscInfo}
    (faithful : Faithful p lib sha256 (calls ++ later)) : Faithful p lib sha256 calls where
  ready := faithful.ready
  collisionFree := faithful.collisionFree
  readsBack front inside := faithful.readsBack front (inside.trans (List.prefix_append _ _))
  fits front text inside := faithful.fits front text (inside.trans (List.prefix_append _ _))

/-- After some calls NV memory holds the text of the document. -/
theorem storeAll_eq {calls : List MiscInfo} (faithful : Faithful p lib sha256 calls)
    (valid : ∀ info ∈ calls, MiscInfo.Valid info) (some : calls ≠ []) :
    ∃ members text, documentAfter calls = .object members ∧ Shows members (recordAfter calls) ∧
      lib.print (documentAfter calls) = .some text ∧ Holds p lib members text ∧
      storeAll p lib sha256 none calls = .done (.some text) := by
  induction calls using List.reverseRecOn with
  | nil => exact absurd rfl some
  | append_singleton calls info ih =>
      obtain ⟨item, carries⟩ :=
        exists_carries (valid info (List.mem_append_right _ List.mem_cons_self))
      have before : ∀ other ∈ calls, MiscInfo.Valid other :=
        fun other inside => valid other (List.mem_append_left _ inside)
      obtain ⟨old, document, shown⟩ := exists_members before
      have same : documentAfter (calls ++ [info]) =
          .object (Json.setMember info.1.name item old) := by
        rw [documentAfter_append calls carries, document, Json.setItem_object]
      have shows : Shows (Json.setMember info.1.name item old) (recordAfter (calls ++ [info])) := by
        rw [recordAfter_append]
        exact shown.setMember carries
      obtain ⟨text, printed⟩ := Option.isSome_iff_exists.mp (lib.prints
        (documentAfter (calls ++ [info])))
      have readsBack := faithful.readsBack _ (List.prefix_refl _) some
      have fits := faithful.fits _ text (List.prefix_refl _) some printed
      rw [same] at readsBack printed
      refine ⟨_, text, same, shows, by rw [same, printed],
        shows.holds faithful.ready readsBack printed fits, ?_⟩
      have last : ∀ stored, storeAll p lib sha256 stored [info] =
          (iotMiscInfoStore p lib sha256 stored info >>= fun text => .done (.some text)) :=
        fun _ => rfl
      by_cases first : calls = []
      · subst first
        obtain rfl : old = [] := (Json.object.inj document).symm
        rw [List.nil_append, last, iotMiscInfoStore, iotNvGetMiscInfo_of_none faithful.ready]
        simp only [storeJson_eq faithful.collisionFree none carries printed, Fallible.done_bind]
      · obtain ⟨members, oldText, again, -, -, holds, stored⟩ := ih faithful.front before first
        obtain rfl := Json.object.inj (document.symm.trans again)
        rw [storeAll_append, stored, Fallible.done_bind, last,
          holds.store faithful.collisionFree carries printed, Fallible.done_bind]

/-- All calls succeed, and a load returns what the last call of its type has stored, or an
error if there was none. Storing the last data once more changes nothing. -/
theorem miscInfo_record {calls : List MiscInfo} (faithful : Faithful p lib sha256 calls)
    (valid : ∀ info ∈ calls, MiscInfo.Valid info) :
    ∃ stored, storeAll p lib sha256 none calls = .done stored ∧
      (∀ uninit type,
        (∀ data, recordAfter calls type = some data →
          iotMiscInfoLoad uninit p lib stored type = .done data) ∧
        (recordAfter calls type = none →
          ∃ err, iotMiscInfoLoad uninit p lib stored type = .failed err)) ∧
      ∀ last, calls.getLast? = some last →
        storeAll p lib sha256 stored [last] = .done stored := by
  by_cases first : calls = []
  · subst first
    refine ⟨none, rfl, fun uninit type => ⟨fun data impossible => ?_, fun _ => ?_⟩, ?_⟩
    · cases impossible
    · refine ⟨.nvDataError, ?_⟩
      rw [iotMiscInfoLoad, iotNvGetMiscInfo_of_none faithful.ready]
    · intro last impossible
      cases impossible
  · obtain ⟨members, text, document, shows, printed, holds, stored⟩ :=
      storeAll_eq faithful valid first
    refine ⟨some text, stored, fun uninit type => ?_, ?_⟩
    · obtain ⟨found, missing⟩ := holds.load shows uninit type
      exact ⟨found, fun none => ⟨.badReq, missing none⟩⟩
    · intro last ends
      obtain ⟨front, rfl⟩ := List.getLast?_eq_some_iff.mp ends
      have field : recordAfter (front ++ [last]) last.1 = some last.2 := by
        rw [recordAfter_append, Function.update_self]
      obtain ⟨item, carries, found⟩ := shows.found _ _ field
      have unchanged := Json.setMember_eq_self (shows.spelled last.1) found
      rw [document] at printed
      rw [← unchanged] at printed
      rw [storeAll, holds.store faithful.collisionFree carries printed]
      rfl

end Calls

/-! ## A sequence -/

/-- The id of the template. -/
def sampleId : IotUuid where
  id := [0x42, 0x36, 0x57, 0x32, 0xc6, 0xdb, 0x4b, 0xc9, 0x89, 0x45, 0x2a, 0x7c,
    0xa1, 0x0d, 0x6f, 0x23]
  size := rfl

def sampleErr : CString := ⟨CString.ascii "E", by decide⟩

/-- A location, and an error that is stored twice. -/
def sampleCalls : List MiscInfo :=
  [⟨.location, sampleId⟩, ⟨.prevErr, sampleErr⟩, ⟨.prevErr, sampleErr⟩]

def locationMember : List UInt8 × Json := (CString.ascii "loId", .string Util.refId)

def errMember : List UInt8 × Json := (CString.ascii "prevErr", .string sampleErr.bytes)

def locationText : List UInt8 :=
  CString.ascii "\x7b\"loId\":\"42365732-c6db-4bc9-8945-2a7ca10d6f23\"\x7d"

def bothText : List UInt8 :=
  CString.ascii "\x7b\"loId\":\"42365732-c6db-4bc9-8945-2a7ca10d6f23\",\"prevErr\":\"E\"\x7d"

/-- A library that knows these documents. -/
def sampleLibrary : JsonLibrary where
  parse text :=
    if bothText.isPrefixOf text then some (.object [locationMember, errMember])
    else if locationText.isPrefixOf text then some (.object [locationMember])
    else none
  print json :=
    some (if (json.getObjectItem "prevErr").isSome then bothText else locationText)
  prints _ := rfl

def locationHash : List UInt8 :=
  [0xa8, 0x03, 0x5a, 0x86, 0xd9, 0x48, 0x08, 0x25, 0x17, 0x0c, 0x68, 0x12,
    0x98, 0xa7, 0x02, 0x50, 0x4a, 0x75, 0x77, 0xd5, 0xdd, 0xde, 0xe2, 0x96,
    0xd4, 0x24, 0xc3, 0xd5, 0xdc, 0x83, 0xde, 0xfb]

def bothHash : List UInt8 :=
  [0x21, 0x27, 0x61, 0x2d, 0xd9, 0xf0, 0x5c, 0x28, 0x05, 0x3e, 0xa5, 0x30,
    0x06, 0xf3, 0xc4, 0xd4, 0xb7, 0x97, 0x4d, 0xb3, 0x9b, 0xfc, 0x73, 0x35,
    0x86, 0xbd, 0x4f, 0xf1, 0xcc, 0x02, 0xfb, 0x14]

/-- The SHA-256 of these texts; other texts are kept apart by their length. -/
def sampleSha256 (text : List UInt8) : List UInt8 :=
  if text = locationText then locationHash
  else if text = bothText then bothHash
  else text ++ List.replicate 33 0

theorem sampleSha256_injective : Function.Injective sampleSha256 := by
  have long (text : List UInt8) : 33 ≤ (text ++ List.replicate 33 0).length := by
    rw [List.length_append, List.length_replicate]
    omega
  have short : locationHash.length = 32 ∧ bothHash.length = 32 ∧ locationHash ≠ bothHash := by
    decide +kernel
  have apart (text hash : List UInt8) (size : hash.length = 32) :
      text ++ List.replicate 33 0 ≠ hash := by
    rintro rfl
    have := long text
    omega
  intro first second same
  unfold sampleSha256 at same
  by_cases firstLocation : first = locationText
  · by_cases secondLocation : second = locationText
    · rw [firstLocation, secondLocation]
    · rw [if_pos firstLocation, if_neg secondLocation] at same
      split at same
      · exact absurd same short.2.2
      · exact absurd same.symm (apart _ _ short.1)
  · rw [if_neg firstLocation] at same
    by_cases secondLocation : second = locationText
    · rw [if_pos secondLocation] at same
      split at same
      · exact absurd same.symm short.2.2
      · exact absurd same (apart _ _ short.1)
    · rw [if_neg secondLocation] at same
      by_cases firstBoth : first = bothText
      · by_cases secondBoth : second = bothText
        · rw [firstBoth, secondBoth]
        · rw [if_pos firstBoth, if_neg secondBoth] at same
          exact absurd same.symm (apart _ _ short.2.1)
      · by_cases secondBoth : second = bothText
        · rw [if_neg firstBoth, if_pos secondBoth] at same
          exact absurd same (apart _ _ short.2.1)
        · rw [if_neg firstBoth, if_neg secondBoth] at same
          exact List.append_cancel_right same

theorem sample_documents :
    documentAfter [⟨.location, sampleId⟩] = .object [locationMember] ∧
      documentAfter [⟨.location, sampleId⟩, ⟨.prevErr, sampleErr⟩] =
        .object [locationMember, errMember] ∧
      documentAfter sampleCalls = .object [locationMember, errMember] := by
  have printed : iotUtilConvertUuidStr sampleId (36 + 1) = some Util.refId := by decide +kernel
  have location : setToJson (.object []) ⟨.location, sampleId⟩ =
      some (.object [locationMember]) := by
    change setLocationToJson (.object []) sampleId = _
    rw [setLocationToJson, printed]
    rfl
  have first : documentAfter [⟨.location, sampleId⟩] = .object [locationMember] := by
    rw [documentAfter, List.foldl_cons, location]
    rfl
  have last (calls : List MiscInfo) : documentAfter (calls ++ [⟨.prevErr, sampleErr⟩]) =
      (documentAfter calls).setItem "prevErr" (.string sampleErr.bytes) := by
    rw [documentAfter, List.foldl_append]
    rfl
  have second : documentAfter [⟨.location, sampleId⟩, ⟨.prevErr, sampleErr⟩] =
      .object [locationMember, errMember] := by
    refine (last [⟨.location, sampleId⟩]).trans ?_
    rw [first]
    rfl
  refine ⟨first, second, (last [⟨.location, sampleId⟩, ⟨.prevErr, sampleErr⟩]).trans ?_⟩
  rw [second]
  rfl

theorem sample_readsBack :
    sampleLibrary.ReadsBack (.object [locationMember]) ∧
      sampleLibrary.ReadsBack (.object [locationMember, errMember]) := by
  constructor
  · intro text printed
    obtain rfl := Option.some.inj printed
    refine ⟨by decide +kernel, fun rest => ?_⟩
    rfl
  · intro text printed
    obtain rfl := Option.some.inj printed
    refine ⟨by decide +kernel, fun rest => ?_⟩
    have starts : bothText.isPrefixOf (bothText ++ rest) = true :=
      List.isPrefixOf_iff_prefix.mpr (List.prefix_append _ _)
    change sampleLibrary.parse (bothText ++ rest) = _
    simp only [sampleLibrary, starts, if_true]
    rfl

theorem sample_faithful :
    Faithful ⟨false, fun _ => true⟩ sampleLibrary sampleSha256 sampleCalls := by
  obtain ⟨one, two, three⟩ := sample_documents
  have fronts (front : List MiscInfo) (inside : front <+: sampleCalls) (some : front ≠ []) :
      documentAfter front = .object [locationMember] ∨
        documentAfter front = .object [locationMember, errMember] := by
    simp only [sampleCalls, List.prefix_cons_iff, List.prefix_nil] at inside
    obtain rfl | ⟨_, rfl, rfl | ⟨_, rfl, rfl | ⟨_, rfl, rfl⟩⟩⟩ := inside
    · exact absurd rfl some
    · exact .inl one
    · exact .inr two
    · exact .inr three
  refine ⟨fun _ => rfl, sampleSha256_injective, ?_, ?_⟩
  · intro front inside some
    obtain same | same := fronts front inside some
    · exact same ▸ sample_readsBack.1
    · exact same ▸ sample_readsBack.2
  · intro front text inside some printed
    obtain same | same := fronts front inside some
    · rw [same] at printed
      obtain rfl := Option.some.inj printed
      decide +kernel
    · rw [same] at printed
      obtain rfl := Option.some.inj printed
      decide +kernel

/-- Both are loaded, and the third kind was not stored. -/
theorem miscInfo_record_sample : ∃ stored,
    storeAll ⟨false, fun _ => true⟩ sampleLibrary sampleSha256 none sampleCalls = .done stored ∧
      iotMiscInfoLoad sampleId ⟨false, fun _ => true⟩ sampleLibrary stored .location =
        .done sampleId ∧
      iotMiscInfoLoad sampleId ⟨false, fun _ => true⟩ sampleLibrary stored .prevErr =
        .done sampleErr ∧
      ∃ err, iotMiscInfoLoad sampleId ⟨false, fun _ => true⟩ sampleLibrary stored .dip =
        .failed err := by
  have valid : ∀ info ∈ sampleCalls, MiscInfo.Valid info := by
    have versioned : sampleId.Versioned := ⟨by decide +kernel, by decide +kernel⟩
    intro info inside
    simp only [sampleCalls, List.mem_cons, List.not_mem_nil, or_false] at inside
    obtain rfl | rfl | rfl := inside
    · exact versioned
    · trivial
    · trivial
  obtain ⟨stored, all, loads, -⟩ := miscInfo_record sample_faithful valid
  exact ⟨stored, all, (loads sampleId .location).1 sampleId rfl,
    (loads sampleId .prevErr).1 sampleErr rfl, (loads sampleId .dip).2 rfl⟩

end StDevice.Api
