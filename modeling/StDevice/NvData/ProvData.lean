import StDevice.Foundation.Decimal
import StDevice.Foundation.Nonvolatile
import StDevice.Mqtt.Packet

/-!
# The provisioning data in NV memory

The data are kept in nine NV items. `iot_nv_set_wifi_prov_data` and
`iot_nv_set_cloud_prov_data` take the status item of their part away, write or erase the
other items, and put the status back; `iot_nv_get_prov_data` reads a part only under its
status. Text fields are stored with the length of their array, numbers in decimal.

Allocations succeed, and so do the reads; a failed read makes `iot_nv_get_prov_data`
return an error. Text that fills the buffer of a read to its last byte has no end there;
the model takes it for text that is too long.
-/

namespace StDevice.NvData

open Decimal Nonvolatile

/-- The NV items of the provisioning data. -/
inductive Item where
  | wifiProvStatus | apSsid | apPass | apBssid | apAuthType
  | cloudProvStatus | serverUrl | serverPort | label
  deriving DecidableEq, Repr

/-- The NV memory. -/
abbrev Nv := Item → Option (List UInt8)

/-- `struct iot_wifi_prov_data` as it is passed. -/
structure WifiProvData where
  ssid : Vector UInt8 33
  password : Vector UInt8 65
  macStr : Vector UInt8 18
  securityType : Int

/-- `struct iot_cloud_prov_data` as it is passed. -/
structure CloudProvData where
  brokerUrl : Option CString
  brokerPort : Int
  label : Option CString
  portFits : -2147483648 ≤ brokerPort ∧ brokerPort < 2147483648

structure ProvData where
  wifi : WifiProvData
  cloud : CloudProvData

/-- What the fields of `struct iot_wifi_prov_data` say after it was read. -/
structure WifiRead where
  ssid : List UInt8
  password : List UInt8
  macStr : List UInt8
  bssid : List UInt8
  securityType : Int
  deriving DecidableEq, Repr

/-- What the fields of `struct iot_cloud_prov_data` say after it was read. -/
structure CloudRead where
  brokerUrl : Option (List UInt8)
  brokerPort : Int
  label : Option (List UInt8)
  deriving DecidableEq, Repr

/-- `IOT_WIFI_AUTH_MAX`. -/
def wifiAuthMax : Int := 8

/-! ## MAC addresses -/

def isAlpha (c : UInt8) : Bool := (65 ≤ c && c ≤ 90) || (97 ≤ c && c ≤ 122)

/-- The value of a hexadecimal letter. -/
def hexLetter (c : UInt8) : Option UInt8 :=
  if 65 ≤ c ∧ c ≤ 70 then some (c - 55) else if 97 ≤ c ∧ c ≤ 102 then some (c - 87) else none

/-- The loop of `iot_util_convert_str_mac`. -/
def convertStrMacLoop (i j k : Nat) (c : UInt8) (addr : List UInt8) :
    List UInt8 → Option (List UInt8)
  | [] => some addr
  | ch :: str =>
      if i % 3 = 2 then
        if ch = 58 then convertStrMacLoop (i + 1) j k c addr str else none
      else
        match if isAlpha ch then hexLetter ch else some (ch - 48) with
        | none => none
        | some nibble =>
            if (j + 1) * 2 = k then
              convertStrMacLoop (i + 1) (j + 1) (k + 1) 0 (addr ++ [c ||| nibble]) str
            else convertStrMacLoop (i + 1) j (k + 1) ((c ||| nibble) <<< 4) addr str

/-- `iot_util_convert_str_mac`. -/
def iotUtilConvertStrMac (str : List UInt8) : Option (List UInt8) :=
  if (CString.cstr str).length ≠ 17 then none
  else convertStrMacLoop 0 0 1 0 [] (CString.cstr str)

def hexDigit (n : UInt8) : UInt8 := if n < 10 then 48 + n else 87 + n

/-- `iot_util_convert_mac_str`. -/
def iotUtilConvertMacStr (addr : List UInt8) : List UInt8 :=
  List.intercalate [58] (addr.map fun b : UInt8 => [hexDigit (b >>> 4), hexDigit (b &&& 15)])

/-- `mac_str` and `bssid` when there is no address. -/
def noMac : List UInt8 × List UInt8 := ([], List.replicate 6 0)

/-- `mac_str` and `bssid` for what is stored: text, or the bytes of the address. -/
def macOf (data : List UInt8) : List UInt8 × List UInt8 :=
  if 17 ≤ data.length then
    match iotUtilConvertStrMac (data.take 17) with
    | some addr => (data.take 17, addr)
    | none => noMac
  else if 6 ≤ data.length then (iotUtilConvertMacStr (data.take 6), data.take 6)
  else noMac

/-! ## Writing -/

/-- `_iot_nv_write_data`, which refuses empty data. -/
def iotNvWriteData (item : Item) (data : List UInt8) : Op Item (List UInt8) :=
  if data = [] then .refuse else .write item data

def statusNone : List UInt8 := CString.ascii "NONE"

def statusDone : List UInt8 := CString.ascii "DONE"

/-- The text in an array is empty. -/
def isEmpty {n : Nat} (array : Vector UInt8 (n + 1)) : Bool := array[0] == 0

/-- What `iot_nv_set_wifi_prov_data` does between the writes of the status. -/
def wifiItems (w : WifiProvData) : List (Op Item (List UInt8)) :=
  [if isEmpty w.ssid then .erase .apSsid else iotNvWriteData .apSsid (w.ssid.toList.take 32),
    if isEmpty w.password then .erase .apPass
    else iotNvWriteData .apPass (w.password.toList.take 64),
    if isEmpty w.macStr then .erase .apBssid else iotNvWriteData .apBssid (w.macStr.toList.take 17),
    if w.securityType < 0 ∨ wifiAuthMax < w.securityType then .erase .apAuthType
    else iotNvWriteData .apAuthType (decimal w.securityType)]

/-- A text that may be missing. -/
def writeOrErase (item : Item) : Option CString → Op Item (List UInt8)
  | none => .erase item
  | some text => iotNvWriteData item text.bytes

/-- What `iot_nv_set_cloud_prov_data` does between the writes of the status. -/
def cloudItems (c : CloudProvData) : List (Op Item (List UInt8)) :=
  [writeOrErase .serverUrl c.brokerUrl,
    iotNvWriteData .serverPort (decimal c.brokerPort),
    writeOrErase .label c.label]

def setWifiOps (w : WifiProvData) : List (Op Item (List UInt8)) :=
  guarded .wifiProvStatus statusNone statusDone (wifiItems w)

def setCloudOps (c : CloudProvData) : List (Op Item (List UInt8)) :=
  guarded .cloudProvStatus statusNone statusDone (cloudItems c)

/-- `iot_nv_set_prov_data`: the memory after it, and the outcomes left if it returns
IOT_ERROR_NONE. -/
def iotNvSetProvData (p : ProvData) (outcomes : List Bool) (nv : Nv) : Nv × Option (List Bool) :=
  match run (setWifiOps p.wifi) outcomes nv with
  | (nv, some rest) => run (setCloudOps p.cloud) rest nv
  | (nv, none) => (nv, none)

/-! ## Reading -/

inductive NvRead where
  | data (bytes : List UInt8)
  | notExist
  | error

/-- `_iot_nv_read_data` into a buffer of the given size. -/
def iotNvReadData (nv : Nv) (item : Item) (size : Nat) : NvRead :=
  match nv item with
  | none => .notExist
  | some bytes => if bytes.length < size then .data bytes else .error

/-- A field that has `missing` for its value when there is no item. -/
def readField {α : Type} (nv : Nv) (item : Item) (size : Nat) (value : List UInt8 → α)
    (missing : α) : Option α :=
  match iotNvReadData nv item size with
  | .data bytes => some (value bytes)
  | .notExist => some missing
  | .error => none

def isDone (nv : Nv) (item : Item) (size : Nat) : Bool :=
  match iotNvReadData nv item size with
  | .data bytes => CString.strncmp bytes statusDone 4 == 0
  | _ => false

/-- `DATA_SIZE` of the functions for the wifi part. -/
def wifiDataSize : Nat := 65

/-- `DATA_SIZE` of the functions for the cloud part. -/
def cloudDataSize : Nat := 1025

def text (bytes : List UInt8) : List UInt8 := CString.cstr bytes

/-- `iot_nv_get_wifi_prov_data` after the status. -/
def readWifi (nv : Nv) : Option WifiRead := do
  let ssid ← readField nv .apSsid wifiDataSize (fun data => (text data).take 32) []
  let password ← readField nv .apPass wifiDataSize (fun data => (text data).take 64) []
  let (macStr, bssid) ← readField nv .apBssid wifiDataSize macOf noMac
  let securityType ← readField nv .apAuthType wifiDataSize (fun data => atoi (text data)) (-1)
  pure { ssid, password, macStr, bssid, securityType }

/-- `iot_nv_get_cloud_prov_data` after the status. -/
def readCloud (nv : Nv) : Option CloudRead := do
  let brokerUrl ← readField nv .serverUrl cloudDataSize (fun data => some (text data)) none
  let brokerPort ← readField nv .serverPort cloudDataSize (fun data => atoi (text data)) (-1)
  let label ← readField nv .label cloudDataSize (fun data => some (text data)) none
  pure { brokerUrl, brokerPort, label }

def iotNvGetWifiProvData (nv : Nv) : Option WifiRead :=
  if isDone nv .wifiProvStatus wifiDataSize then readWifi nv else none

def iotNvGetCloudProvData (nv : Nv) : Option CloudRead :=
  if isDone nv .cloudProvStatus cloudDataSize then readCloud nv else none

/-- `iot_nv_get_prov_data`; `none` is an error. -/
def iotNvGetProvData (nv : Nv) : Option (WifiRead × CloudRead) := do
  let wifi ← iotNvGetWifiProvData nv
  let cloud ← iotNvGetCloudProvData nv
  pure (wifi, cloud)

end StDevice.NvData
