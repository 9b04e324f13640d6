import StDevice.Foundation.Action
import StDevice.Foundation.Json
import StDevice.Main.Context

/-!
# What the handlers of delivered messages touch

The handlers change a few fields of the context, send commands to the main task, call the
callbacks of the application, set the clock and write log lines. A line that shows a
document shows what JSON_PRINT makes of it, and is kept with the document itself.

Calls that may fail for lack of memory take their results from a stream. A run stops where
the code hands a NULL pointer to a function that reads it.
-/

namespace StDevice.Delivered

open CString Effect Main

inductive Level where
  | error | warn | info | debug
  deriving DecidableEq, Repr

/-- An argument of a log line. -/
inductive Arg where
  | text (bytes : List UInt8)
  | number (value : Int)
  | double (bits : UInt64)
  | json (document : Json)

/-- A string argument; NULL is written as `(null)`. -/
def Arg.string (value : Option (List UInt8)) : Arg := .text (value.getD (ascii "(null)"))

/-- A log line: `iot_bsp_debug` writes the function before the text. -/
structure Line where
  level : Level
  func : String
  format : String
  args : List Arg

/-- `iot_cap_val_t`. -/
inductive CapVal where
  | null | unknown
  | boolean (value : Bool)
  | integer (value : Int)
  | number (bits : UInt64)
  | intOrNum (value : Int) (bits : UInt64)
  | string (text : Option (List UInt8))
  | jsonObject (text : Option (List UInt8))
  deriving DecidableEq, Repr

/-- `iot_cap_cmd_data_t`. The values are those of the arguments of a known type; their
number is kept in eight bits. -/
structure CapCmdData where
  numArgs : Nat
  cmdData : List CapVal
  totalCommandsNum : Nat
  orderOfCommand : Nat
  commandId : Option (List UInt8)
  deriving DecidableEq, Repr

/-- `st_data`. An argument of no known type leaves it cleared. -/
inductive StData where
  | cleared
  | boolean (value : Bool)
  | number (bits : UInt64)
  | string (text : List UInt8)
  | rawJson (text : Option (List UInt8))
  deriving DecidableEq, Repr

/-- `st_command_data`. -/
structure StCommandData where
  commandId : Option (List UInt8)
  customComponentName : Option (List UInt8)
  customCapName : Option (List UInt8)
  customCommandName : Option (List UInt8)
  paramList : List StData
  deriving DecidableEq, Repr

/-- `raw` of `iot_noti_data_t`. -/
inductive NotiRaw where
  | cleared
  | rateLimit (count threshold remainingTime sequenceNumber : Int)
  | quota (used limit : Int)
  | preferences (data : List (Option (List UInt8) × CapVal))
  deriving DecidableEq, Repr

/-- `iot_noti_data_t`. -/
structure NotiData where
  type : NotiType
  raw : NotiRaw
  deriving DecidableEq, Repr

/-- `struct iot_dip_data`. -/
structure DipData where
  dipId : List UInt8
  dipMajorVersion : Int
  dipMinorVersion : Int
  deriving DecidableEq, Repr

/-- `struct iot_registered_data`. -/
structure RegisteredData where
  dip : Option DipData
  locationId : Option (List UInt8)
  deviceId : List UInt8
  updated : Bool
  newReged : Bool
  deriving DecidableEq, Repr

/-- `struct iot_cap_handle`: its names and the names of its commands. -/
structure CapHandle where
  component : List UInt8
  capability : List UInt8
  cmdList : List (List UInt8)
  deriving DecidableEq, Repr

/-- What a handler does to the outside. -/
inductive Output where
  | log (line : Line)
  /-- `iot_bsp_system_set_time_in_sec` -/
  | setTimeInSec (timeStr : List UInt8)
  /-- `iot_command_send` -/
  | commandSend (command : Command) (noti : Option NotiData)
  /-- the command callback of a capability -/
  | cmdCb (handle : CapHandle) (command : List UInt8) (data : CapCmdData)
  /-- `noti_cb` for IOT_NOTI_TYPE_COMMANDS -/
  | notiCb (commands : List StCommandData)

/-- The fields of `struct iot_context` that the handlers use, and the number of fallible
calls made so far. -/
structure Device where
  signUpStatus : ConnectionStatus
  signInStatus : ConnectionStatus
  iotRegData : RegisteredData
  rateLimit : Bool
  rateLimitTimeout : Bool
  /-- `cap_handle_list`, NULL when empty -/
  capHandleList : List CapHandle
  /-- `noti_cb` is set -/
  notiCb : Bool
  calls : Nat
  deriving DecidableEq, Repr

/-- The build and what it runs on: the JSON library, the results of the fallible calls, the
memory behind a printed text, and whether IOT_DEBUG writes lines. -/
structure Platform extends JsonLibrary where
  succeeds : Nat → Bool
  heap : Nat → UInt8
  debug : Bool

abbrev Act := Action Device Output

section Calls

variable (p : Platform)

/-- A log line of one of the levels that are always on. -/
def log (level : Level) (func format : String) (args : List Arg) : Act Unit :=
  .emit (.log ⟨level, func, format, args⟩)

/-- `IOT_DEBUG`. -/
def logDebug (func format : String) (args : List Arg) : Act Unit :=
  if p.debug then log .debug func format args else pure ()

/-- The next result of a fallible call. -/
def attempt : Act Bool := do
  let d ← Action.get
  Action.modify fun d => { d with calls := d.calls + 1 }
  pure (p.succeeds d.calls)

/-- An allocation that is made only when there is something to store. -/
def attemptIf (needed : Bool) : Act Bool := if needed then attempt p else pure true

/-- `iot_os_strdup`. -/
def iotOsStrdup (src : Option (List UInt8)) : Act (Option (List UInt8)) := do
  let text ← Action.deref src
  if ← attempt p then pure (some text) else pure none

/-- `strncmp` of a string value with a literal, over the length of the literal. -/
def startsWith (value : Option (List UInt8)) (literal : String) : Act Bool := do
  let text ← Action.deref value
  pure (strncmp text (ascii literal) (ascii literal).length = 0)

/-- `iot_command_send`, and whether it succeeds. -/
def iotCommandSend (command : Command) (noti : Option NotiData) : Act Bool := do
  if ← attempt p then
    Action.emit (.commandSend command noti)
    pure true
  else pure false

/-- `time_str` of eleven bytes, and the line that shows it, for the two handlers that set
the clock. -/
def setSntp (func : String) (valueint : Int) : Act Unit := do
  let timeStr := (ascii (toString valueint)).take 10
  log .info func "Set SNTP with current time %s" [.text timeStr]
  Action.emit (.setTimeInSec timeStr)

end Calls

/-- `_ishex`. -/
def isHex (c : UInt8) : Bool := (48 ≤ c && c ≤ 57) || (97 ≤ c && c ≤ 102) || (65 ≤ c && c ≤ 90)

/-- `_ishex_len` at `pos`. -/
def isHexLen (str : List UInt8) (pos len : Nat) : Bool :=
  (List.range len).all fun i => isHex (str.getD (pos + i) 0)

/-- `validate_uuid_format`. -/
def validateUuidFormat (str : List UInt8) : Bool :=
  str.length == 36 &&
  isHexLen str 0 8 && str.getD 8 0 == 45 &&
  isHexLen str 9 4 && str.getD 13 0 == 45 &&
  (49 ≤ str.getD 14 0 && str.getD 14 0 ≤ 53) &&
  isHexLen str 15 3 && str.getD 18 0 == 45 &&
  isHexLen str 19 4 && str.getD 23 0 == 45 &&
  isHexLen str 24 12

/-- The bits a character adds to `c` in `iot_util_convert_str_uuid`. Letters behind F add
nothing. -/
def uuidDigit (c : UInt8) : UInt8 :=
  if 97 ≤ c ∧ c ≤ 102 then c - 87
  else if 65 ≤ c ∧ c ≤ 70 then c - 55
  else if 48 ≤ c ∧ c ≤ 57 then c - 48
  else 0

def uuidBytes : List UInt8 → List UInt8
  | high :: low :: rest => (uuidDigit high <<< 4 ||| uuidDigit low) :: uuidBytes rest
  | _ => []

/-- `iot_util_convert_str_uuid`. -/
def iotUtilConvertStrUuid : Option (List UInt8) → Act (Option (List UInt8))
  | none => do
      log .error "iot_util_convert_str_uuid" "Invalid args" []
      pure none
  | some str =>
      if validateUuidFormat str then pure (some (uuidBytes (str.filter (· != 45))))
      else do
        log .error "iot_util_convert_str_uuid" "Invalid uuid format" []
        pure none

end StDevice.Delivered
