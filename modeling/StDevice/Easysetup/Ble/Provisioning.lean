import StDevice.Foundation.Fallible
import StDevice.Foundation.Json
import StDevice.NvData.Broker

/-!
# Provisioning over BLE

The two parsers of the provisioning request: `_es_wifi_prov_parse` fills in the access point,
`_es_cloud_prov_parse` the broker and the name of the device. The members of the request are
read through helpers that treat a missing member and a member of another type differently, and
the broker's data are copied to the context at the end.

The texts of the context are allocations of their own, so the context records which of them
are allocated. The main result says for which requests both parsers return, take optional
members for optional, and leave no released text in the context when they fail.
-/

namespace StDevice.Easysetup.Ble

open Fallible NvData

/-- The error codes of the parsers. -/
inductive ProvError where
  | invalidRequest | memAllocError | invalidMac | invalidBrokerUrl | cloudDataWriteFail | memAlloc
  deriving DecidableEq, Repr

/-- The places where memory is asked for. -/
inductive ProvMalloc where
  | wifiProv | cloudProv
  | member (name : String)
  | protocol | domain
  | brokerUrl | label
  deriving DecidableEq

/-- What the calls outside of the parsers come back with: the allocations, and
`iot_nv_set_cloud_prov_data`. -/
structure ProvAnswers where
  malloc : ProvMalloc → Bool
  nvSetCloudProvData : Bool

/-- An allocated text. -/
structure Text where
  buffer : Nat
  bytes : List UInt8
  deriving DecidableEq

/-- `struct iot_wifi_prov_data` after it was filled in. -/
structure WifiProv where
  ssid : List UInt8
  password : List UInt8
  macStr : List UInt8
  bssid : List UInt8
  securityType : Int
  deriving DecidableEq, Repr

/-- `struct iot_cloud_prov_data` in the context. -/
structure CloudProv where
  brokerUrl : Option Text
  brokerPort : Int
  location : Option Text
  room : Option Text
  label : Option Text

/-- A result of the last scan. -/
structure ScanResult where
  ssid : List UInt8
  authmode : Int

/-- What the parsers use of `struct iot_context`, with the allocated texts. -/
structure ProvContext where
  scanResult : List ScanResult
  wifi : WifiProv
  cloud : CloudProv
  live : List Nat
  next : Nat
  fresh : ∀ buffer ∈ live, buffer < next

namespace ProvContext

/-- A new text, where the allocation succeeds. -/
def malloc (succeeds : Bool) (bytes : List UInt8) (ctx : ProvContext) :
    Option Text × ProvContext :=
  if succeeds then
    (some ⟨ctx.next, bytes⟩,
      { ctx with
        live := ctx.next :: ctx.live
        next := ctx.next + 1
        fresh := by
          intro buffer mem
          rcases List.mem_cons.mp mem with rfl | mem
          · exact Nat.lt_succ_self _
          · exact Nat.lt_succ_of_lt (ctx.fresh buffer mem) })
  else (none, ctx)

/-- `iot_os_free`, for a pointer that may be NULL. -/
def free (pointer : Option Text) (ctx : ProvContext) : ProvContext :=
  match pointer with
  | none => ctx
  | some text =>
      { ctx with
        live := ctx.live.filter (· ≠ text.buffer)
        fresh := fun buffer mem => ctx.fresh buffer (List.mem_of_mem_filter mem) }

/-- NULL, or an allocated text. -/
def Valid (ctx : ProvContext) (pointer : Option Text) : Prop :=
  ∀ text, pointer = some text → text.buffer ∈ ctx.live

/-- Every pointer in `prov_data.cloud` is NULL or points to an allocated text. -/
structure PointersValid (ctx : ProvContext) : Prop where
  brokerUrl : ctx.Valid ctx.cloud.brokerUrl
  location : ctx.Valid ctx.cloud.location
  room : ctx.Valid ctx.cloud.room
  label : ctx.Valid ctx.cloud.label

end ProvContext

/-- The result of a parser and the context it leaves. No result where the parser reads through
a pointer that is not there. -/
abbrev Parsed := Option (Except ProvError Unit × ProvContext)

/-- `_decide_wifi_auth_mode`. -/
def decideWifiAuthMode (item : Option Json) (ssid password : List UInt8)
    (scanResult : List ScanResult) : Int :=
  match item, scanResult.find? (fun result => CString.cstr result.ssid == ssid) with
  | none, some result => result.authmode
  | none, none => if password.length = 0 then 0 else 4
  | some _, some result => result.authmode
  | some item, none => item.valueint

/-- A member that `strncpy` copies, if it is there. -/
def optionalMember (json : Json) (name : String) : Fallible ProvError (Option (List UInt8)) :=
  match json.getObjectItem name with
  | none => pure none
  | some item => do
      let text ← deref item.valuestring
      pure (some (CString.cstr text))

/-- The member `macAddress`: its text and its bytes. `mac_str` has room for 18 characters. -/
def readMac (json : Json) : Fallible ProvError (List UInt8 × List UInt8) := do
  match ← optionalMember json "macAddress" with
  | none => pure noMac
  | some text => do
      let bssid ← orFail (iotUtilConvertStrMac (text.take 18)) .invalidMac
      pure (text.take 18, bssid)

/-- What `_es_wifi_prov_parse` reads from the credential. -/
def readWifi (credential : Json) (scanResult : List ScanResult) : Fallible ProvError WifiProv := do
  let item ← orFail (credential.getObjectItem "ssid") .invalidRequest
  let text ← deref item.valuestring
  let ssid := (CString.cstr text).take 32
  let password ← optionalMember credential "password"
  let password := (password.getD []).take 64
  let mac ← readMac credential
  pure ⟨ssid, password, mac.1, mac.2,
    decideWifiAuthMode (credential.getObjectItem "authType") ssid password scanResult⟩

section Parsers

variable (library : JsonLibrary) (answers : ProvAnswers)

/-- `_es_wifi_prov_parse` up to the data of the access point. -/
def wifiProv (payload : List UInt8) (scanResult : List ScanResult) :
    Fallible ProvError WifiProv := do
  let root ← orFail (library.parse payload) .invalidRequest
  let data ← orFail (root.getObjectItem "data") .invalidRequest
  let credential ← orFail (data.getObjectItem "wifiCredential") .invalidRequest
  require (answers.malloc .wifiProv) .memAllocError
  readWifi credential scanResult

/-- `_es_wifi_prov_parse`. -/
def esWifiProvParse (payload : List UInt8) (ctx : ProvContext) : Parsed :=
  match wifiProv library answers payload ctx.scanResult with
  | .stopped => none
  | .failed err => some (.error err, ctx)
  | .done wifi => some (.ok (), { ctx with wifi := wifi })

/-- `_es_json_parse_string`: NULL without the member or the memory. A member that is no string
is read through NULL. -/
def esJsonParseString (json : Json) (name : String) : Fallible ProvError (Option (List UInt8)) :=
  match json.getObjectItem name with
  | none => pure none
  | some item => do
      let text ← deref item.valuestring
      pure (if answers.malloc (.member name) then some (CString.cstr text) else none)

/-- A text as a C string. -/
def toCString (text : List UInt8) : CString where
  bytes := CString.cstr text
  noNul mem := by simpa using List.mem_takeWhile_imp mem

/-- `iot_util_url_parse`, with its two allocations. -/
def urlParse (url : List UInt8) : Option UrlParse := do
  let parsed ← iotUtilUrlParse (toCString url)
  if answers.malloc .protocol && answers.malloc .domain then pure parsed else none

/-- The broker and the name of the device, as `_es_cloud_prov_parse` reads them and writes them
to NV memory. -/
def readCloud (data : Json) : Fallible ProvError (UrlParse × Option (List UInt8)) := do
  let fullUrl ← esJsonParseString answers data "brokerUrl"
  let fullUrl ← orFail fullUrl .invalidRequest
  let url ← orFail (urlParse answers fullUrl) .invalidBrokerUrl
  let label ← esJsonParseString answers data "deviceName"
  require answers.nvSetCloudProvData .cloudDataWriteFail
  pure (url, label)

/-- `_es_copy_cloud_prov`. The length of the label is taken whether there is one or not. -/
def esCopyCloudProv (url : UrlParse) (label : Option (List UInt8)) (ctx : ProvContext) :
    Option (Bool × ProvContext) :=
  let (brokerUrl, ctx) := ctx.malloc (answers.malloc .brokerUrl) url.domain.bytes
  match label with
  | none => none
  | some label =>
      let (label, ctx) := ctx.malloc (answers.malloc .label) label
      some (brokerUrl.isSome && label.isSome,
        { ctx with cloud := { ctx.cloud with brokerUrl, label, brokerPort := url.port } })

/-- The label `cloud_parse_out`, which reads a field of `cloud_prov` first. -/
def cloudParseOut (cloudProv : Bool) (result : Except ProvError Unit) (ctx : ProvContext) :
    Parsed :=
  if cloudProv then some (result, ctx) else none

/-- The end of `_es_cloud_prov_parse`, from the copy on. -/
def copyCloud (url : UrlParse) (label : Option (List UInt8)) (ctx : ProvContext) : Parsed :=
  match esCopyCloudProv answers url label ctx with
  | none => none
  | some (true, ctx) => cloudParseOut true (.ok ()) ctx
  | some (false, ctx) =>
      -- `cloud_prov_copy_failed`: the pointers keep their values
      cloudParseOut true (.error .memAlloc)
        ((ctx.free ctx.cloud.brokerUrl).free ctx.cloud.label)

/-- `_es_cloud_prov_parse` from the member `data` on. -/
def parseCloud (data : Json) (ctx : ProvContext) : Parsed :=
  match readCloud answers data with
  | .stopped => none
  | .failed err => cloudParseOut true (.error err) ctx
  | .done (url, label) => copyCloud answers url label ctx

/-- `_es_cloud_prov_parse`. -/
def esCloudProvParse (payload : List UInt8) (ctx : ProvContext) : Parsed :=
  match library.parse payload with
  | none => cloudParseOut false (.error .invalidRequest) ctx
  | some root =>
      match root.getObjectItem "data" with
      | none => cloudParseOut false (.error .invalidRequest) ctx
      | some data =>
          if answers.malloc .cloudProv then parseCloud answers data ctx
          else cloudParseOut false (.error .memAllocError) ctx

end Parsers

/-- What is asked of a parser: it returns, it succeeds where all it needs is there, and when it
fails it leaves no released text in the context. -/
structure Parsed.Safe (parsed : Parsed) (ordered : Prop) : Prop where
  returns : parsed ≠ none
  accepts : ordered → ∃ ctx', parsed = some (.ok (), ctx')
  pointers : ∀ err ctx', parsed = some (.error err, ctx') → ctx'.PointersValid

section Wifi

variable {library : JsonLibrary} {answers : ProvAnswers} {payload : List UInt8}
  {ctx : ProvContext} {credential : Json}

/-- An optional member is missing or a string. -/
def Optionally (json : Json) (name : String) : Prop :=
  json.getObjectItem name = none ∨ (json.memberText name).isSome = true

/-- The request has a credential, and there is memory for its data. -/
def HasCredential (library : JsonLibrary) (answers : ProvAnswers) (payload : List UInt8)
    (credential : Json) : Prop :=
  ∃ root data, library.parse payload = some root ∧ root.getObjectItem "data" = some data ∧
    data.getObjectItem "wifiCredential" = some credential ∧ answers.malloc .wifiProv = true

/-- A credential with all that is mandatory: a name, and no address or one that can be read.
The password may be missing. -/
structure WifiOrdered (credential : Json) : Prop where
  ssid : (credential.memberText "ssid").isSome = true
  password : Optionally credential "password"
  macAddress : credential.getObjectItem "macAddress" = none ∨
    ∃ text, credential.memberText "macAddress" = some text ∧
      (iotUtilConvertStrMac ((CString.cstr text).take 18)).isSome = true

/-- No member that is read has another type. -/
def WifiTyped (credential : Json) : Prop :=
  credential.getObjectItem "ssid" = none ∨
    (credential.memberText "ssid").isSome = true ∧ Optionally credential "password" ∧
      Optionally credential "macAddress"

theorem optionalMember_eq_stopped_iff {json : Json} {name : String} :
    optionalMember json name = .stopped ↔ ¬ Optionally json name := by
  unfold optionalMember Optionally Json.memberText
  cases json.getObjectItem name with
  | none => simp
  | some item => cases text : item.valuestring <;> simp [deref, text]

theorem exists_optionalMember_iff {json : Json} {name : String} :
    (∃ text, optionalMember json name = .done text) ↔ Optionally json name := by
  unfold optionalMember Optionally Json.memberText
  cases json.getObjectItem name with
  | none => simp
  | some item => cases value : item.valuestring <;> simp [deref, value]

theorem readMac_eq_stopped_iff {json : Json} :
    readMac json = .stopped ↔ ¬ Optionally json "macAddress" := by
  unfold readMac
  rw [bind_eq_stopped_iff, optionalMember_eq_stopped_iff, or_iff_left]
  rintro ⟨text, -, stops⟩
  cases text with
  | none => cases stops
  | some text => simp [bind_eq_stopped_iff] at stops

theorem exists_readMac_iff {json : Json} :
    (∃ mac, readMac json = .done mac) ↔
      json.getObjectItem "macAddress" = none ∨
        ∃ text, json.memberText "macAddress" = some text ∧
          (iotUtilConvertStrMac ((CString.cstr text).take 18)).isSome = true := by
  unfold readMac optionalMember Json.memberText
  cases json.getObjectItem "macAddress" with
  | none => simp
  | some item =>
      cases value : item.valuestring with
      | none => simp [deref, value]
      | some text =>
          cases read : iotUtilConvertStrMac ((CString.cstr text).take 18) <;>
            simp [deref, value, orFail, read]

theorem readWifi_eq_stopped_iff {scanResult : List ScanResult} :
    readWifi credential scanResult = .stopped ↔ ¬ WifiTyped credential := by
  unfold readWifi WifiTyped
  cases found : credential.getObjectItem "ssid" with
  | none => simp [orFail]
  | some item =>
      rw [Json.memberText_eq_of_getObjectItem found]
      cases value : item.valuestring with
      | none => simp [orFail, deref, value]
      | some text =>
          simp only [orFail, deref, value, done_bind, bind_eq_stopped_iff,
            optionalMember_eq_stopped_iff,
            readMac_eq_stopped_iff, pure_eq, reduceCtorEq, and_false, exists_false, or_false,
            exists_and_right, exists_optionalMember_iff, Option.isSome_some, true_and, false_or]
          by_cases optional : Optionally credential "password" <;> simp [optional]

theorem exists_readWifi_iff {scanResult : List ScanResult} :
    (∃ wifi, readWifi credential scanResult = .done wifi) ↔ WifiOrdered credential := by
  unfold readWifi
  constructor
  · rintro ⟨wifi, reads⟩
    simp only [bind_eq_done_iff, orFail_eq_done_iff, deref_eq_done_iff] at reads
    obtain ⟨item, found, text, isText, password, hasPassword, mac, hasMac, -⟩ := reads
    refine ⟨?_, exists_optionalMember_iff.mp ⟨_, hasPassword⟩, exists_readMac_iff.mp ⟨_, hasMac⟩⟩
    rw [Json.memberText_eq_of_getObjectItem found, isText]
    rfl
  · rintro ⟨hasSsid, hasPassword, hasMac⟩
    obtain ⟨text, isText⟩ := Option.isSome_iff_exists.mp hasSsid
    obtain ⟨item, found, isText⟩ := Option.bind_eq_some_iff.mp isText
    obtain ⟨password, readsPassword⟩ := exists_optionalMember_iff.mpr hasPassword
    obtain ⟨mac, readsMac⟩ := exists_readMac_iff.mpr hasMac
    exact ⟨_, by
      simp only [found, isText, readsPassword, readsMac, orFail, deref, done_bind, pure_eq]
      rfl⟩

theorem wifiProv_eq_stopped_iff {scanResult : List ScanResult} :
    wifiProv library answers payload scanResult = .stopped ↔
      ∃ credential, HasCredential library answers payload credential ∧ ¬ WifiTyped credential := by
  simp only [wifiProv, bind_eq_stopped_iff, orFail_ne_stopped, orFail_eq_done_iff,
    require_ne_stopped, require_eq_done_iff, readWifi_eq_stopped_iff, false_or, exists_const]
  constructor
  · rintro ⟨root, parses, data, hasData, credential, hasCredential, malloc, untyped⟩
    exact ⟨credential, ⟨root, data, parses, hasData, hasCredential, malloc⟩, untyped⟩
  · rintro ⟨credential, ⟨root, data, parses, hasData, hasCredential, malloc⟩, untyped⟩
    exact ⟨root, parses, data, hasData, credential, hasCredential, malloc, untyped⟩

theorem exists_wifiProv_iff (scanResult : List ScanResult) :
    (∃ wifi, wifiProv library answers payload scanResult = .done wifi) ↔
      ∃ credential, HasCredential library answers payload credential ∧
        WifiOrdered credential := by
  simp only [wifiProv, bind_eq_done_iff, orFail_eq_done_iff, require_eq_done_iff, exists_const]
  constructor
  · rintro ⟨wifi, root, parses, data, hasData, credential, hasCredential, malloc, reads⟩
    exact ⟨credential, ⟨root, data, parses, hasData, hasCredential, malloc⟩,
      exists_readWifi_iff.mp ⟨wifi, reads⟩⟩
  · rintro ⟨credential, ⟨root, data, parses, hasData, hasCredential, malloc⟩, ordered⟩
    obtain ⟨wifi, reads⟩ := exists_readWifi_iff.mpr ordered
    exact ⟨wifi, root, parses, data, hasData, credential, hasCredential, malloc, reads⟩

/-- The parser of the access point returns unless a member has another type, and takes optional
members for optional; when it fails the texts of the context are as before. -/
theorem esWifiProvParse_safe_iff :
    (esWifiProvParse library answers payload ctx).Safe
        (∃ credential, HasCredential library answers payload credential ∧
          WifiOrdered credential) ↔
      (∀ credential, HasCredential library answers payload credential → WifiTyped credential) ∧
        (ctx.PointersValid ∨ ∃ credential, HasCredential library answers payload credential ∧
          WifiOrdered credential) := by
  have typed : (∀ credential, HasCredential library answers payload credential →
      WifiTyped credential) ↔ wifiProv library answers payload ctx.scanResult ≠ .stopped := by
    rw [Ne, wifiProv_eq_stopped_iff]
    push Not
    exact Iff.rfl
  rw [typed, ← exists_wifiProv_iff ctx.scanResult]
  unfold esWifiProvParse
  cases wifiProv library answers payload ctx.scanResult with
  | stopped =>
      refine iff_of_false (fun safe => safe.returns rfl) ?_
      simp
  | failed err =>
      simp only [reduceCtorEq, exists_false, or_false, ne_eq, not_false_eq_true, true_and]
      constructor
      · intro safe
        exact safe.pointers err ctx rfl
      · intro valid
        refine ⟨by simp, by simp, ?_⟩
        rintro _ _ ⟨⟩
        exact valid
  | done wifi =>
      refine iff_of_true ⟨by simp, fun _ => ⟨_, rfl⟩, by simp⟩ ?_
      simp

end Wifi

section Cloud

variable {library : JsonLibrary} {answers : ProvAnswers} {payload : List UInt8}
  {ctx : ProvContext} {data : Json}

/-- The request has the member `data`, and there is memory for the broker's data. -/
def HasData (library : JsonLibrary) (answers : ProvAnswers) (payload : List UInt8) (data : Json) :
    Prop :=
  ∃ root, library.parse payload = some root ∧ root.getObjectItem "data" = some data ∧
    answers.malloc .cloudProv = true

/-- The broker's URL is read, with all allocations on the way. -/
def ReadsUrl (answers : ProvAnswers) (data : Json) : Prop :=
  ∃ text, data.memberText "brokerUrl" = some text ∧ answers.malloc (.member "brokerUrl") = true ∧
    (urlParse answers (CString.cstr text)).isSome = true

/-- A request with all that is mandatory: a broker's URL, the memory and the NV memory. The
name of the device may be missing. -/
structure CloudOrdered (answers : ProvAnswers) (data : Json) : Prop where
  brokerUrl : ReadsUrl answers data
  deviceName : data.getObjectItem "deviceName" = none ∨
    (data.memberText "deviceName").isSome = true ∧
      answers.malloc (.member "deviceName") = true
  nv : answers.nvSetCloudProvData = true
  memory : answers.malloc .brokerUrl = true ∧ answers.malloc .label = true

/-- The requests whose data are handled as they should be: either they fail before the
context is touched, and its texts are in order, or there is a name and both copies succeed or
both fail. -/
inductive CloudFine (answers : ProvAnswers) (data : Json) (ctx : ProvContext) : Prop where
  | noUrl (missing : data.getObjectItem "brokerUrl" = none) (valid : ctx.PointersValid)
  | badUrl (isText : (data.memberText "brokerUrl").isSome = true)
      (fails : ¬ ReadsUrl answers data) (valid : ctx.PointersValid)
  | nvFails (reads : ReadsUrl answers data) (typed : Optionally data "deviceName")
      (fails : answers.nvSetCloudProvData = false) (valid : ctx.PointersValid)
  | copied (reads : ReadsUrl answers data) (named : (data.memberText "deviceName").isSome = true)
      (malloc : answers.malloc (.member "deviceName") = true)
      (nv : answers.nvSetCloudProvData = true) (brokerUrl : answers.malloc .brokerUrl = true)
      (label : answers.malloc .label = true)
  | notCopied (reads : ReadsUrl answers data)
      (named : (data.memberText "deviceName").isSome = true)
      (malloc : answers.malloc (.member "deviceName") = true)
      (nv : answers.nvSetCloudProvData = true) (brokerUrl : answers.malloc .brokerUrl = false)
      (label : answers.malloc .label = false) (location : ctx.Valid ctx.cloud.location)
      (room : ctx.Valid ctx.cloud.room)

/-- What is left where the copy of the broker's URL and that of the name both fail. -/
theorem copyCloud_safe_iff {url : UrlParse} {label : Option (List UInt8)} {ordered : Prop}
    (complete : ordered → answers.malloc .brokerUrl = true ∧ answers.malloc .label = true) :
    (copyCloud answers url label ctx).Safe ordered ↔
      label.isSome = true ∧
        (answers.malloc .brokerUrl = true ∧ answers.malloc .label = true ∨
          answers.malloc .brokerUrl = false ∧ answers.malloc .label = false ∧
            ctx.Valid ctx.cloud.location ∧ ctx.Valid ctx.cloud.room) := by
  unfold copyCloud esCopyCloudProv
  cases label with
  | none => exact iff_of_false (fun safe => safe.returns rfl) (by simp)
  | some label =>
      cases first : answers.malloc .brokerUrl with
      | true =>
          cases second : answers.malloc .label with
          | true =>
              exact iff_of_true ⟨by simp [cloudParseOut, ProvContext.malloc], fun _ => ⟨_, rfl⟩,
                by simp [cloudParseOut, ProvContext.malloc]⟩ (by simp)
          | false =>
              refine iff_of_false (fun safe => ?_) (by simp)
              have released := (safe.pointers _ _ rfl).brokerUrl _ rfl
              simp [ProvContext.free] at released
      | false =>
          cases second : answers.malloc .label with
          | true =>
              refine iff_of_false (fun safe => ?_) (by simp)
              have released := (safe.pointers _ _ rfl).label _ rfl
              simp [ProvContext.free] at released
          | false =>
              simp only [Option.isSome_some, true_and, Bool.false_eq_true, false_and, false_or]
              constructor
              · intro safe
                have valid := safe.pointers _ _ rfl
                exact ⟨valid.location, valid.room⟩
              · rintro ⟨location, room⟩
                refine ⟨by simp [cloudParseOut, ProvContext.malloc], fun ordered => ?_, ?_⟩
                · exact absurd (complete ordered).1 (by simp [first])
                · rintro _ _ ⟨⟩
                  exact ⟨by rintro text ⟨⟩, location, room, by rintro text ⟨⟩⟩

/-- A string of the request, unless it is missing, has no memory, or has another type. -/
theorem esJsonParseString_cases (answers : ProvAnswers) (json : Json) (name : String) :
    (json.getObjectItem name = none ∧ esJsonParseString answers json name = .done none) ∨
    (¬ Optionally json name ∧ esJsonParseString answers json name = .stopped) ∨
    (∃ text, json.memberText name = some text ∧
      esJsonParseString answers json name =
        .done (if answers.malloc (.member name) then some (CString.cstr text) else none)) := by
  unfold esJsonParseString Optionally
  cases found : json.getObjectItem name with
  | none => exact .inl ⟨rfl, rfl⟩
  | some item =>
      rw [Json.memberText_eq_of_getObjectItem found]
      cases value : item.valuestring with
      | none => exact .inr (.inl ⟨by simp, by simp [deref, value]⟩)
      | some text => exact .inr (.inr ⟨text, rfl, by simp [deref, value]⟩)

/-- A parser that fails without touching the context. -/
theorem safe_failed_iff {err : ProvError} {ordered : Prop} (disordered : ¬ ordered) :
    Parsed.Safe (cloudParseOut true (.error err) ctx) ordered ↔ ctx.PointersValid := by
  constructor
  · intro safe
    exact safe.pointers err ctx rfl
  · intro valid
    refine ⟨by simp [cloudParseOut], fun given => absurd given disordered, ?_⟩
    rintro _ _ ⟨⟩
    exact valid

theorem not_safe_none {ordered : Prop} : ¬ Parsed.Safe none ordered := fun safe => safe.returns rfl

theorem isSome_memberText_iff {json : Json} {name : String} :
    (json.memberText name).isSome = true ↔
      Optionally json name ∧ json.getObjectItem name ≠ none := by
  unfold Optionally Json.memberText
  cases json.getObjectItem name <;> simp

/-- The requests without a URL that can be read. -/
theorem cloudFine_iff_of_not_reads (fails : ¬ ReadsUrl answers data) :
    CloudFine answers data ctx ↔ Optionally data "brokerUrl" ∧ ctx.PointersValid := by
  constructor
  · intro fine
    cases fine with
    | noUrl missing valid => exact ⟨.inl missing, valid⟩
    | badUrl isText _ valid => exact ⟨.inr isText, valid⟩
    | nvFails reads => exact absurd reads fails
    | copied reads => exact absurd reads fails
    | notCopied reads => exact absurd reads fails
  · rintro ⟨missing | isText, valid⟩
    · exact .noUrl missing valid
    · exact .badUrl isText fails valid

/-- The requests with a URL that is read. -/
theorem cloudFine_iff_of_reads (reads : ReadsUrl answers data) :
    CloudFine answers data ctx ↔
      (Optionally data "deviceName" ∧ answers.nvSetCloudProvData = false ∧ ctx.PointersValid) ∨
      ((data.memberText "deviceName").isSome = true ∧
        answers.malloc (.member "deviceName") = true ∧ answers.nvSetCloudProvData = true ∧
        (answers.malloc .brokerUrl = true ∧ answers.malloc .label = true ∨
          answers.malloc .brokerUrl = false ∧ answers.malloc .label = false ∧
            ctx.Valid ctx.cloud.location ∧ ctx.Valid ctx.cloud.room)) := by
  constructor
  · intro fine
    cases fine with
    | noUrl missing =>
        obtain ⟨text, isText, -⟩ := reads
        exact absurd missing (isSome_memberText_iff.mp (by rw [isText]; rfl)).2
    | badUrl _ fails => exact absurd reads fails
    | nvFails _ typed fails valid => exact .inl ⟨typed, fails, valid⟩
    | copied _ named malloc nv brokerUrl label =>
        exact .inr ⟨named, malloc, nv, .inl ⟨brokerUrl, label⟩⟩
    | notCopied _ named malloc nv brokerUrl label location room =>
        exact .inr ⟨named, malloc, nv, .inr ⟨brokerUrl, label, location, room⟩⟩
  · rintro (⟨typed, fails, valid⟩ | ⟨named, malloc, nv, ⟨brokerUrl, label⟩ | rest⟩)
    · exact .nvFails reads typed fails valid
    · exact .copied reads named malloc nv brokerUrl label
    · exact .notCopied reads named malloc nv rest.1 rest.2.1 rest.2.2.1 rest.2.2.2

/-- Without a URL that can be read nothing is copied. -/
theorem parseCloud_of_not_reads (ctx : ProvContext) (fails : ¬ ReadsUrl answers data) :
    (¬ Optionally data "brokerUrl" ∧ parseCloud answers data ctx = none) ∨
      Optionally data "brokerUrl" ∧
        ∃ err, parseCloud answers data ctx = cloudParseOut true (.error err) ctx := by
  unfold parseCloud readCloud
  rcases esJsonParseString_cases answers data "brokerUrl" with
    ⟨missing, url⟩ | ⟨untyped, url⟩ | ⟨text, isText, url⟩
  · exact .inr ⟨.inl missing, .invalidRequest, by rw [url]; rfl⟩
  · exact .inl ⟨untyped, by rw [url]; rfl⟩
  · refine .inr ⟨.inr (by rw [isText]; rfl), ?_⟩
    rw [url]
    cases malloc : answers.malloc (.member "brokerUrl") with
    | false => exact ⟨.invalidRequest, rfl⟩
    | true =>
        cases parsed : urlParse answers (CString.cstr text) with
        | none => exact ⟨.invalidBrokerUrl, by simp [orFail, parsed]⟩
        | some url => exact absurd ⟨text, isText, malloc, by rw [parsed]; rfl⟩ fails

/-- With a URL that is read the name of the device and the NV memory decide. -/
theorem parseCloud_of_reads (ctx : ProvContext) (reads : ReadsUrl answers data) :
    ∃ url, parseCloud answers data ctx =
      match esJsonParseString answers data "deviceName" with
      | .stopped => none
      | .failed err => cloudParseOut true (.error err) ctx
      | .done label =>
          if answers.nvSetCloudProvData then copyCloud answers url label ctx
          else cloudParseOut true (.error .cloudDataWriteFail) ctx := by
  obtain ⟨text, isText, malloc, parses⟩ := reads
  obtain ⟨url, parsed⟩ := Option.isSome_iff_exists.mp parses
  refine ⟨url, ?_⟩
  have fullUrl : esJsonParseString answers data "brokerUrl" = .done (some (CString.cstr text)) := by
    rcases esJsonParseString_cases answers data "brokerUrl" with
      ⟨missing, -⟩ | ⟨untyped, -⟩ | ⟨other, same, reads⟩
    · simp [Json.memberText, missing] at isText
    · exact absurd (Or.inr (by rw [isText]; rfl)) untyped
    · rw [reads, malloc, if_pos rfl, Option.some.inj (same.symm.trans isText)]
  unfold parseCloud readCloud
  simp only [fullUrl, done_bind, orFail, parsed]
  cases esJsonParseString answers data "deviceName" with
  | stopped => rfl
  | failed err => rfl
  | done label => cases answers.nvSetCloudProvData <;> rfl

/-- The part after the URL was read. -/
theorem parseCloud_safe_iff :
    (parseCloud answers data ctx).Safe (CloudOrdered answers data) ↔
      CloudFine answers data ctx := by
  by_cases reads : ReadsUrl answers data
  · rw [cloudFine_iff_of_reads reads]
    obtain ⟨url, parsed⟩ := parseCloud_of_reads ctx reads
    rw [parsed]
    rcases esJsonParseString_cases answers data "deviceName" with
      ⟨missing, name⟩ | ⟨untyped, name⟩ | ⟨text, isText, name⟩
    · rw [name]
      have unnamed : data.memberText "deviceName" = none := by simp [Json.memberText, missing]
      cases nv : answers.nvSetCloudProvData with
      | false =>
          simp only [Bool.false_eq_true, if_false]
          rw [safe_failed_iff fun ordered => by simp [ordered.nv] at nv]
          simp [Optionally, missing, unnamed]
      | true =>
          simp only [if_true]
          rw [copyCloud_safe_iff CloudOrdered.memory]
          simp [unnamed]
    · rw [name]
      refine iff_of_false not_safe_none ?_
      rintro (⟨typed, -⟩ | ⟨isText, -⟩)
      · exact untyped typed
      · exact untyped (.inr isText)
    · rw [name]
      cases nv : answers.nvSetCloudProvData with
      | false =>
          simp only [Bool.false_eq_true, if_false]
          rw [safe_failed_iff fun ordered => by simp [ordered.nv] at nv]
          simp [Optionally, isText]
      | true =>
          simp only [if_true]
          rw [copyCloud_safe_iff CloudOrdered.memory]
          cases answers.malloc (.member "deviceName") <;> simp [isText]
  · rw [cloudFine_iff_of_not_reads reads]
    rcases parseCloud_of_not_reads ctx reads with ⟨untyped, stops⟩ | ⟨typed, err, fails⟩
    · rw [stops]
      exact iff_of_false not_safe_none fun fine => untyped fine.1
    · rw [fails, safe_failed_iff fun ordered => reads ordered.brokerUrl]
      exact ⟨fun valid => ⟨typed, valid⟩, fun fine => fine.2⟩

/-- The parser of the broker is safe for the requests that are fine and have the member `data`,
and only for these. -/
theorem esCloudProvParse_safe_iff :
    (esCloudProvParse library answers payload ctx).Safe
        (∃ data, HasData library answers payload data ∧ CloudOrdered answers data) ↔
      ∃ data, HasData library answers payload data ∧ CloudFine answers data ctx := by
  unfold esCloudProvParse HasData
  cases library.parse payload with
  | none => exact iff_of_false not_safe_none (by simp)
  | some root =>
      cases found : root.getObjectItem "data" with
      | none =>
          exact iff_of_false (by simpa [found, cloudParseOut] using not_safe_none) (by simp [found])
      | some data =>
          cases malloc : answers.malloc .cloudProv with
          | false =>
              exact iff_of_false (by simpa [found, cloudParseOut] using not_safe_none) (by simp)
          | true => simpa [found] using parseCloud_safe_iff

end Cloud

/-- For every request, every state of the context and every failure of the memory and of the
NV memory: both parsers do what is asked of them exactly under these conditions. -/
theorem provisioning_safe_iff (library : JsonLibrary) (answers : ProvAnswers)
    (payload : List UInt8) (ctx : ProvContext) :
    ((esWifiProvParse library answers payload ctx).Safe
        (∃ credential, HasCredential library answers payload credential ∧
          WifiOrdered credential) ↔
      (∀ credential, HasCredential library answers payload credential → WifiTyped credential) ∧
        (ctx.PointersValid ∨ ∃ credential, HasCredential library answers payload credential ∧
          WifiOrdered credential)) ∧
    ((esCloudProvParse library answers payload ctx).Safe
        (∃ data, HasData library answers payload data ∧ CloudOrdered answers data) ↔
      ∃ data, HasData library answers payload data ∧ CloudFine answers data ctx) :=
  ⟨esWifiProvParse_safe_iff, esCloudProvParse_safe_iff⟩

section Example

theorem unprovisioned_fresh : ∀ buffer ∈ ([] : List Nat), buffer < 0 := by simp

/-- A context without provisioning data. -/
def unprovisioned : ProvContext where
  scanResult := []
  wifi := ⟨[], [], [], [], 0⟩
  cloud := ⟨none, 0, none, none, none⟩
  live := []
  next := 0
  fresh := unprovisioned_fresh

/-- A library that takes no text for a document. -/
def nothingParses : JsonLibrary where
  parse _ := none
  print _ := some []
  prints _ := rfl

/-- A payload that is no document makes the parser of the broker read through NULL. -/
theorem not_safe_notJson :
    ¬ (esCloudProvParse nothingParses ⟨fun _ => true, true⟩ (CString.ascii "hello")
      unprovisioned).Safe (∃ data, HasData nothingParses ⟨fun _ => true, true⟩
        (CString.ascii "hello") data ∧ CloudOrdered ⟨fun _ => true, true⟩ data) :=
  not_safe_none

end Example

end StDevice.Easysetup.Ble
