import Mathlib.Data.List.TakeDrop
import StDevice.NvData.Whole

/-!
# The broker's address from the URL to the connection

A handler parses the broker's URL and stores its domain and port; after a restart they are
read from NV memory and handed to `port_net_connect`, the port once more as text. The port
is text three times and a number twice on that way.

Allocations succeed, and NV memory returns what was written.
-/

namespace StDevice.NvData

open Decimal Nonvolatile

/-- `url_parse_t`. -/
structure UrlParse where
  protocol : CString
  domain : CString
  port : Int

/-- A part of a text. -/
def slice (text : CString) (start len : Nat) : CString where
  bytes := (text.bytes.drop start).take len
  noNul mem := text.noNul (List.mem_of_mem_drop (List.mem_of_mem_take mem))

/-- `iot_util_url_parse`; `none` is an error. -/
def iotUtilUrlParse (url : CString) : Option UrlParse := do
  let p1 ← CString.strstr url.bytes (CString.ascii "://")
  let pDomain := p1 + 3
  let p2 ← CString.strstr (url.bytes.drop pDomain) (CString.ascii ":")
  let pPort := pDomain + p2 + 1
  pure {
    protocol := slice url 0 p1
    domain := slice url pDomain p2
    port := atoi (url.bytes.drop pPort) }

/-- The data the handlers fill in. `atoi` has no defined result outside an `int`. -/
def cloudProvData (url : UrlParse) (label : Option CString) : Option CloudProvData :=
  if fits : -2147483648 ≤ url.port ∧ url.port < 2147483648 then
    some { brokerUrl := some url.domain, brokerPort := url.port, label, portFits := fits }
  else none

/-- `iot_nv_set_cloud_prov_data` where the memory fails nowhere. -/
def iotNvSetCloudProvData (c : CloudProvData) (nv : Nv) : Nv :=
  (run (setCloudOps c) (List.replicate (setCloudOps c).length true) nv).1

/-- `st_mqtt_broker_info_t`. -/
structure BrokerInfo where
  url : List UInt8
  port : Int
  deriving DecidableEq, Repr

/-- `iot_es_connect` fills it from the data read; without a URL it fails. -/
def brokerInfo (cloud : CloudRead) : Option BrokerInfo :=
  cloud.brokerUrl.map fun url => ⟨url, cloud.brokerPort⟩

/-- `sizeof(port)` in `_iot_mqtt_connect_net`. -/
def portSize : Nat := 5

/-- What `_iot_mqtt_connect_net` passes to `port_net_connect`: `snprintf` leaves what has
room before the terminator. -/
def iotMqttConnectNet (broker : BrokerInfo) : List UInt8 × List UInt8 :=
  (broker.url, (decimal broker.port).take (portSize - 1))

/-- The address a provisioned device connects to. -/
def connectAddress (url : CString) (label : Option CString) (nv : Nv) :
    Option (List UInt8 × List UInt8) := do
  let parsed ← iotUtilUrlParse url
  let cloud ← cloudProvData parsed label
  let read ← iotNvGetCloudProvData (iotNvSetCloudProvData cloud nv)
  let broker ← brokerInfo read
  pure (iotMqttConnectNet broker)

/-- A URL `protocol://domain:port`. The first `://` ends the protocol; the port may have
leading zeros. -/
structure BrokerUrl where
  protocol : CString
  domain : CString
  portText : List UInt8
  port : Nat
  scheme : CString.strstr protocol.bytes (CString.ascii "://") = none
  named : domain.bytes ≠ []
  noColon : 58 ∉ domain.bytes
  digits : ∀ b ∈ portText, isDigit b = true
  value : digitsValue portText = port
  range : 1 ≤ port ∧ port ≤ 65535

private theorem zero_notMem_digits {text : List UInt8} (digits : ∀ b ∈ text, isDigit b = true) :
    0 ∉ text := fun mem => absurd (digits 0 mem) (by decide)

/-- The text of the URL. -/
def BrokerUrl.text (u : BrokerUrl) : CString where
  bytes := u.protocol.bytes ++ (CString.ascii "://" ++ (u.domain.bytes ++ 58 :: u.portText))
  noNul mem := by
    simp only [List.mem_append, List.mem_cons] at mem
    rcases mem with mem | mem | mem | mem | mem
    · exact u.protocol.noNul mem
    · exact absurd mem (by decide)
    · exact u.domain.noNul mem
    · exact absurd mem (by decide)
    · exact zero_notMem_digits u.digits mem

/-- No `://` begins in a protocol without one, also not where the protocol ends. -/
theorem BrokerUrl.strstr_text (u : BrokerUrl) :
    CString.strstr u.text.bytes (CString.ascii "://") = some u.protocol.bytes.length := by
  refine CString.strstr_append fun i inside found => ?_
  have absent := CString.not_prefix_of_strstr u.scheme i
  cases tail : u.protocol.bytes.drop i with
  | nil => exact absurd tail (by simpa using inside)
  | cons a tail' =>
      rw [tail] at found absent
      obtain ⟨rest, eq⟩ := found
      cases tail' with
      | nil => exact absurd eq (by simp [CString.ascii])
      | cons b tail' =>
          cases tail' with
          | nil => exact absurd eq (by simp [CString.ascii])
          | cons c tail' =>
              refine absent ⟨tail', ?_⟩
              simp only [CString.ascii, String.reduceToList, List.map_cons, List.map_nil,
                List.cons_append, List.nil_append, List.cons.injEq] at eq ⊢
              exact ⟨eq.1, eq.2.1, eq.2.2.1, trivial⟩

theorem BrokerUrl.drop_text (u : BrokerUrl) :
    u.text.bytes.drop (u.protocol.bytes.length + 3) = u.domain.bytes ++ 58 :: u.portText := by
  rw [← List.drop_drop]
  simp [BrokerUrl.text, CString.ascii]

private theorem CString.ext_bytes {s t : CString} (same : s.bytes = t.bytes) : s = t := by
  cases s
  cases t
  congr

/-- The parser takes a URL apart as it was put together. -/
theorem iotUtilUrlParse_text (u : BrokerUrl) :
    iotUtilUrlParse u.text = some ⟨u.protocol, u.domain, u.port⟩ := by
  have colon : CString.strstr (u.domain.bytes ++ 58 :: u.portText) (CString.ascii ":") =
      some u.domain.bytes.length := CString.strstr_singleton u.noColon _
  have protocol : slice u.text 0 u.protocol.bytes.length = u.protocol :=
    CString.ext_bytes (by simp [slice, BrokerUrl.text])
  have domain : slice u.text (u.protocol.bytes.length + 3) u.domain.bytes.length = u.domain := by
    refine CString.ext_bytes ?_
    show (u.text.bytes.drop (u.protocol.bytes.length + 3)).take _ = _
    rw [u.drop_text, List.take_left]
  have port : u.text.bytes.drop (u.protocol.bytes.length + 3 + u.domain.bytes.length + 1) =
      u.portText := by
    rw [Nat.add_assoc, ← List.drop_drop, u.drop_text, ← List.drop_drop, List.drop_left]
    rfl
  simp only [iotUtilUrlParse, u.strstr_text, Option.bind_eq_bind, Option.bind_some, u.drop_text,
    colon, protocol, domain, port, Option.pure_def, atoi_of_digits u.digits, u.value]

/-- The data of a URL, as they are stored. -/
def BrokerUrl.cloud (u : BrokerUrl) (label : Option CString) : CloudProvData where
  brokerUrl := some u.domain
  brokerPort := u.port
  label := label
  portFits := by
    have range := u.range
    omega

theorem cloudProvData_eq (u : BrokerUrl) (label : Option CString) :
    cloudProvData ⟨u.protocol, u.domain, u.port⟩ label = some (u.cloud label) :=
  dif_pos (u.cloud label).portFits

/-- Every text has a character, and room in the buffer it is read into. -/
def CloudProvData.Storable (c : CloudProvData) : Prop :=
  ∀ t, c.brokerUrl = some t ∨ c.label = some t → t.bytes ≠ [] ∧ t.strlen < cloudDataSize

private theorem writeOrErase_eq_refuse_iff (item : Item) (t : Option CString) :
    writeOrErase item t = .refuse ↔ ∃ text, t = some text ∧ text.bytes = [] := by
  cases t with
  | none => simp [writeOrErase]
  | some text => simp [writeOrErase, iotNvWriteData]

theorem refuse_mem_cloudItems_iff (c : CloudProvData) :
    Op.refuse ∈ cloudItems c ↔
      ∃ t, (c.brokerUrl = some t ∨ c.label = some t) ∧ t.bytes = [] := by
  simp only [cloudItems, iotNvWriteData_of_ne_nil (decimal_ne_nil _), List.mem_cons,
    List.not_mem_nil, or_false, reduceCtorEq, false_or, eq_comm (a := Op.refuse),
    writeOrErase_eq_refuse_iff]
  constructor
  · rintro (⟨t, eq, empty⟩ | ⟨t, eq, empty⟩)
    · exact ⟨t, .inl eq, empty⟩
    · exact ⟨t, .inr eq, empty⟩
  · rintro ⟨t, eq | eq, empty⟩
    · exact .inl ⟨t, eq, empty⟩
    · exact .inr ⟨t, eq, empty⟩

theorem storable_iff (c : CloudProvData) :
    c.Storable ↔ Op.refuse ∉ cloudItems c ∧ ¬ c.Long := by
  rw [refuse_mem_cloudItems_iff]
  constructor
  · intro storable
    refine ⟨fun ⟨t, mem, empty⟩ => (storable t mem).1 empty, ?_⟩
    rintro (⟨t, mem, long⟩ | ⟨t, mem, long⟩)
    · exact absurd (storable t (.inl mem)).2 (Nat.not_lt.mpr long)
    · exact absurd (storable t (.inr mem)).2 (Nat.not_lt.mpr long)
  · rintro ⟨accepted, short⟩ t mem
    refine ⟨fun empty => accepted ⟨t, mem, empty⟩, Nat.lt_of_not_le fun long => short ?_⟩
    rcases mem with url | label
    · exact .inl ⟨t, url, long⟩
    · exact .inr ⟨t, label, long⟩

theorem refuse_mem_setCloudOps_iff (c : CloudProvData) :
    Op.refuse ∈ setCloudOps c ↔ Op.refuse ∈ cloudItems c := by
  simp [setCloudOps, guarded]

/-- What the memory holds afterwards, where it fails nowhere. -/
theorem iotNvSetCloudProvData_items {c : CloudProvData} (accepted : Op.refuse ∉ cloudItems c)
    (nv : Nv) :
    iotNvSetCloudProvData c nv .cloudProvStatus = some statusDone ∧
      ∀ item ∈ cloudKeys, iotNvSetCloudProvData c nv item = c.contents item := by
  have ends := left_replicate (mt (refuse_mem_setCloudOps_iff c).mp accepted)
  obtain ⟨done, contents⟩ := cloud_left ends nv
  refine ⟨done, fun item mem => (contents item mem).trans (if_neg ?_)⟩
  rw [List.tail_replicate, stuck_replicate]
  exact List.not_mem_nil

/-- Storable data are read back. -/
theorem iotNvGetCloudProvData_set {c : CloudProvData} (storable : c.Storable) (nv : Nv) :
    iotNvGetCloudProvData (iotNvSetCloudProvData c nv) = some c.read := by
  obtain ⟨accepted, short⟩ := (storable_iff c).mp storable
  obtain ⟨done, contents⟩ := iotNvSetCloudProvData_items accepted nv
  have status : isDone (iotNvSetCloudProvData c nv) .cloudProvStatus cloudDataSize = true := by
    simp only [isDone, iotNvReadData, done]
    decide
  have fits : ∀ item ∈ cloudKeys, Fits (iotNvSetCloudProvData c nv) cloudDataSize item :=
    fun item mem data eq => cloud_fits short item mem data (contents item mem ▸ eq)
  rw [iotNvGetCloudProvData, status, if_pos rfl, readCloud_eq fits, cloudOf_congr contents,
    cloudOf_contents]

/-- Data that are not storable are not read back: an empty text is refused and leaves the
status away, and a long one does not fit the buffer. -/
theorem iotNvGetCloudProvData_set_eq_none {c : CloudProvData} (unfit : ¬ c.Storable) (nv : Nv) :
    iotNvGetCloudProvData (iotNvSetCloudProvData c nv) = none := by
  by_cases refused : Op.refuse ∈ cloudItems c
  · have stops := left_of_refuse ((refuse_mem_setCloudOps_iff c).mpr refused)
      (List.replicate (setCloudOps c).length true)
    have status : iotNvSetCloudProvData c nv .cloudProvStatus = some statusNone :=
      run_guarded_of_begun nv rfl stops (cloudProvStatus_notMem c)
    have off : isDone (iotNvSetCloudProvData c nv) .cloudProvStatus cloudDataSize = false := by
      simp only [isDone, iotNvReadData, status]
      decide
    rw [iotNvGetCloudProvData, off]
    rfl
  · have long : c.Long := by
      by_contra short
      exact unfit ((storable_iff c).mpr ⟨refused, short⟩)
    obtain ⟨item, mem, data, wanted, long⟩ := exists_of_long long
    have contents := (iotNvSetCloudProvData_items refused nv).2 item mem
    rw [iotNvGetCloudProvData, readCloud_eq_none mem (contents.trans wanted) long, ite_self]

/-- The address the device connects to, if the data were stored. -/
theorem connectAddress_of_storable {u : BrokerUrl} {label : Option CString}
    (storable : (u.cloud label).Storable) (nv : Nv) :
    connectAddress u.text label nv = some (u.domain.bytes, (decimal u.port).take 4) := by
  rw [connectAddress, iotUtilUrlParse_text, Option.bind_eq_bind, Option.bind_some,
    cloudProvData_eq, Option.bind_eq_bind, Option.bind_some,
    iotNvGetCloudProvData_set storable]
  rfl

theorem connectAddress_of_not_storable {u : BrokerUrl} {label : Option CString}
    (unfit : ¬ (u.cloud label).Storable) (nv : Nv) : connectAddress u.text label nv = none := by
  rw [connectAddress, iotUtilUrlParse_text, Option.bind_eq_bind, Option.bind_some,
    cloudProvData_eq, Option.bind_eq_bind, Option.bind_some,
    iotNvGetCloudProvData_set_eq_none unfit]
  rfl

theorem BrokerUrl.storable_iff (u : BrokerUrl) (label : Option CString) :
    (u.cloud label).Storable ↔
      u.domain.strlen ≤ 1024 ∧ ∀ text ∈ label, 1 ≤ text.strlen ∧ text.strlen ≤ 1024 := by
  have filled (t : CString) : t.bytes ≠ [] ↔ 1 ≤ t.strlen :=
    List.length_pos_iff.symm
  have room (t : CString) : t.strlen < cloudDataSize ↔ t.strlen ≤ 1024 := Nat.lt_succ_iff
  constructor
  · intro storable
    refine ⟨(room _).mp (storable u.domain (.inl rfl)).2, fun text mem => ?_⟩
    obtain ⟨some, fits⟩ := storable text (.inr mem)
    exact ⟨(filled _).mp some, (room _).mp fits⟩
  · rintro ⟨domain, texts⟩ t (url | label)
    · obtain rfl : u.domain = t := Option.some.inj url
      exact ⟨u.named, (room _).mpr domain⟩
    · obtain ⟨some, fits⟩ := texts t label
      exact ⟨(filled _).mpr some, (room _).mpr fits⟩

/-- The device connects to the domain and the port of the URL if and only if the port has
four digits at most and the texts fit the buffer they are read into. -/
theorem connectAddress_exact_iff (u : BrokerUrl) (label : Option CString) (nv : Nv) :
    connectAddress u.text label nv = some (u.domain.bytes, decimal u.port) ↔
      u.port ≤ 9999 ∧ u.domain.strlen ≤ 1024 ∧
        ∀ text ∈ label, 1 ≤ text.strlen ∧ text.strlen ≤ 1024 := by
  rw [← u.storable_iff]
  by_cases storable : (u.cloud label).Storable
  · have digits : (decimal u.port).take 4 = decimal u.port ↔ u.port ≤ 9999 := by
      rw [List.take_eq_self_iff, length_decimal_le_iff (by decide)]
      omega
    rw [connectAddress_of_storable storable, Option.some.injEq, Prod.mk.injEq, digits]
    exact ⟨fun same => ⟨same.2, storable⟩, fun fits => ⟨rfl, fits.1⟩⟩
  · rw [connectAddress_of_not_storable storable]
    exact ⟨fun same => absurd same (by simp), fun fits => absurd fits.2 storable⟩

/-- `ssl://a:65535`. -/
def highPort : BrokerUrl where
  protocol := ⟨CString.ascii "ssl", by decide⟩
  domain := ⟨CString.ascii "a", by decide⟩
  portText := CString.ascii "65535"
  port := 65535
  scheme := by decide
  named := by decide
  noColon := by decide
  digits := List.all_eq_true.mp (by decide)
  value := by decide
  range := by decide

/-- The device asks for port 6553 instead of 65535. -/
theorem connectAddress_highPort :
    connectAddress highPort.text none (fun _ => none) =
        some (CString.ascii "a", CString.ascii "6553") ∧
      connectAddress highPort.text none (fun _ => none) ≠
        some (highPort.domain.bytes, decimal highPort.port) := by
  decide

end StDevice.NvData
