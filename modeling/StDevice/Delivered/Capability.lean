import StDevice.Delivered.Device

/-!
# Commands and notifications

The handlers of `iot_capability.c`. Each of them reads the payload by parsing it, and the
first line it writes shows the document or says that there is none. A command goes to the
callback of the capability it names and, in one list with the others, to the notification
callback of the application.
-/

namespace StDevice.Delivered

open CString Effect Main

section Handlers

variable (p : Platform)

/-- The steps after an item is found, and the error where it is missing. -/
def withItem {α : Type} (func message : String) (json : Json) (name : String)
    (next : Json → Act (Option α)) : Act (Option α) :=
  match json.getObjectItem name with
  | none => do
      log .error func message []
      pure none
  | some item => next item

/-- One entry of the preferences. -/
def parsePreference (child : Option (List UInt8) × Json) :
    Act (Option (List UInt8) × CapVal) := do
  let type := (child.2.getObjectItem "preferenceType").bind Json.valuestring
  let name ← if child.1.isSome then iotOsStrdup p child.1 else pure none
  match child.2.getObjectItem "value" with
  | none => pure (name, .null)
  | some value =>
      if ← startsWith type "string" then
        let text ← iotOsStrdup p value.valuestring
        pure (name, .string text)
      else if ← startsWith type "number" then pure (name, .number value.valuedouble)
      else if ← startsWith type "boolean" then pure (name, .boolean value.isTrue)
      else if ← startsWith type "integer" then pure (name, .integer value.valueint)
      else pure (name, .unknown)

def parsePreferences :
    List (Option (List UInt8) × Json) → Act (List (Option (List UInt8) × CapVal))
  | [] => pure []
  | child :: rest => do
      let preference ← parsePreference p child
      let preferences ← parsePreferences rest
      pure (preference :: preferences)

/-- The branches of `_iot_parse_noti_data` for each type of notification. -/
def parseNotiType (json : Json) (type : List UInt8) : Act (Option NotiData) :=
  let func := "_iot_parse_noti_data"
  let is (literal : String) : Bool := strncmp type (ascii literal) (ascii literal).length = 0
  if is "device.deleted" then pure (some ⟨.devDeleted, .cleared⟩)
  else if is "expired.jwt" then
    withItem func "there is no currentTime in raw_msgn" json "currentTime" fun item => do
      setSntp func item.valueint
      pure (some ⟨.jwtExpired, .cleared⟩)
  else if is "rate.limit.reached" then
    withItem func "there is no count in raw_msgn" json "count" fun count =>
    withItem func "there is no threshold in raw_msgn" json "threshold" fun threshold =>
    withItem func "there is no remainingTime in raw_msgn" json "remainingTime" fun time =>
    withItem func "there is no sequenceNumber in raw_msgn" json "sequenceNumber" fun number =>
      pure (some ⟨.rateLimit,
        .rateLimit count.valueint threshold.valueint time.valueint number.valueint⟩)
  else if is "quota.reached" then
    withItem func "there is no used in raw_msgn" json "used" fun used =>
    withItem func "there is no limit in raw_msgn" json "limit" fun limit =>
      pure (some ⟨.quotaReached, .quota used.valueint limit.valueint⟩)
  else if is "device.preferences" then
    withItem func "there is value in updated preference" json "values" fun item => do
      if item.children = [] then
        log .info func "No references" []
        pure none
      else if ← attempt p then
        let preferences ← parsePreferences p item.children
        pure (some ⟨.preferenceUpdated, .preferences preferences⟩)
      else
        log .error func "Failed to alloc preferences data" []
        pure none
  else do
    log .warn func "There is no noti_type matched" []
    pure none

/-- `_iot_parse_noti_data`. -/
def iotParseNotiData (payload : List UInt8) : Act (Option NotiData) :=
  match p.parse payload with
  | none => do
      log .error "_iot_parse_noti_data" "Cannot parse by json" []
      pure none
  | some json => do
      log .info "_iot_parse_noti_data" "payload : %s" [.json json]
      withItem "_iot_parse_noti_data" "there is no event in raw_msgn" json "event" fun event =>
        match event.valuestring with
        | none => do
            log .error "_iot_parse_noti_data" "there is no event type string" []
            pure none
        | some type => parseNotiType p json type

/-- The timer of the rate limit in `iot_noti_sub_cb`. -/
def startRateLimit : Act Unit := do
  if ← attempt p then
    Action.modify fun d => { d with rateLimitTimeout := true }
    if ← attempt p then Action.modify fun d => { d with rateLimit := true }
  else
    Action.modify fun d => { d with rateLimitTimeout := false }
    log .error "iot_noti_sub_cb" "Failed to create rate limit timeout" []

/-- `iot_noti_sub_cb`. -/
def iotNotiSubCb (payload : List UInt8) : Act Unit := do
  match ← iotParseNotiData p payload with
  | none => log .info "iot_noti_sub_cb" "Ignore notification" []
  | some noti =>
      if noti.type = .rateLimit then startRateLimit p
      let _ ← iotCommandSend p (.notificationReceived noti.type) (some noti)

/-- The search of `_iot_process_cmd` for the handle. -/
def findHandle (component capability : Option (List UInt8)) :
    List CapHandle → Act (Option CapHandle)
  | [] => pure none
  | handle :: rest => do
      let name ← Action.deref component
      if name = handle.component then
        let name ← Action.deref capability
        if name = handle.capability then pure (some handle)
        else findHandle component capability rest
      else findHandle component capability rest

/-- The search of `_iot_process_cmd` for the command, and the call of its callback. -/
def callCommand (handle : CapHandle) (command : Option (List UInt8)) (data : CapCmdData) :
    List (List UInt8) → Act Unit
  | [] => log .warn "_iot_process_cmd" "Not registed cmd set received '%s'" [.string command]
  | cmdType :: rest => do
      let name ← Action.deref command
      if name = cmdType then Action.emit (.cmdCb handle name data)
      else callCommand handle command data rest

/-- `_iot_process_cmd`. -/
def iotProcessCmd (handles : List CapHandle) (component capability command : Option (List UInt8))
    (data : CapCmdData) : Act Unit := do
  match ← findHandle component capability handles with
  | none =>
      log .error "_iot_process_cmd" "Cannot find handle for [%s]%s"
        [.string component, .string capability]
  | some handle =>
      logDebug p "_iot_process_cmd" "found handle for [%s]%s"
        [.string component, .string capability]
      callCommand handle command data handle.cmdList

/-- One argument of a command in `_iot_parse_cmd_data`. -/
def parseCmdArg (numArgs : Nat) : Json → Act (Option CapVal)
  | .bool value => do
      logDebug p "_iot_parse_cmd_data" (if value then "[%d] True" else "[%d] False")
        [.number numArgs]
      pure (some (.boolean value))
  | .number value bits => do
      logDebug p "_iot_parse_cmd_data" "[%d] %d | %f"
        [.number numArgs, .number value, .double bits]
      pure (some (.intOrNum value bits))
  | .string text => do
      logDebug p "_iot_parse_cmd_data" "[%d] %s" [.number numArgs, .text text]
      let copy ← iotOsStrdup p (some text)
      pure (some (.string copy))
  | .null => pure none
  | subitem => do
      match p.print subitem with
      | none => pure (some (.jsonObject none))
      | some text =>
          let copy ← iotOsStrdup p (some text)
          logDebug p "_iot_parse_cmd_data" "[%d] %s" [.number numArgs, .string copy]
          pure (some (.jsonObject copy))

/-- The arguments of a command. One of no known type takes no place. -/
def parseCmdArgs : (numArgs : Nat) → List Json → Act (List CapVal)
  | _, [] => pure []
  | numArgs, subitem :: rest => do
      match ← parseCmdArg p numArgs subitem with
      | none => parseCmdArgs numArgs rest
      | some value =>
          let values ← parseCmdArgs (numArgs + 1) rest
          pure (value :: values)

/-- A command as `_iot_parse_cmd_data` finds it. -/
structure ParsedCmd where
  component : Option (List UInt8)
  capability : Option (List UInt8)
  command : Option (List UInt8)
  values : List CapVal
  commandId : Option (List UInt8)

/-- `_iot_parse_cmd_data`. -/
def iotParseCmdData (cmditem : Json) : Act (Option ParsedCmd) :=
  let func := "_iot_parse_cmd_data"
  match cmditem.getObjectItem "component", cmditem.getObjectItem "capability",
      cmditem.getObjectItem "command" with
  | some capComponent, some capCapability, some capCommand => do
      let component ← iotOsStrdup p capComponent.valuestring
      let capability ← iotOsStrdup p capCapability.valuestring
      let command ← iotOsStrdup p capCommand.valuestring
      logDebug p func "component:%s, capability:%s command:%s"
        [.string component, .string capability, .string command]
      let args := ((cmditem.getObjectItem "arguments").elim [] Json.children).map Prod.snd
      logDebug p func "cap_args arr_size=%d" [.number args.length]
      if !(← attemptIf p !args.isEmpty) then
        log .error func "Failed to malloc args_str" []
        pure none
      else if !(← attemptIf p !args.isEmpty) then
        log .error func "Failed to malloc cmd_data" []
        pure none
      else
        let values ← parseCmdArgs p 0 args
        match cmditem.getObjectItem "id" with
        | none => pure (some ⟨component, capability, command, values, none⟩)
        | some commandId =>
            let copy ← iotOsStrdup p commandId.valuestring
            pure (some ⟨component, capability, command, values, copy⟩)
  | _, _, _ => do
      log .error func "Cannot find value index!!" []
      pure none

/-- The loop of `iot_cap_sub_cb` over the commands. -/
def processCommands (handles : List CapHandle) (arrSize : Nat) : (i : Nat) → List Json → Act Unit
  | _, [] => pure ()
  | i, cmditem :: rest => do
      match ← iotParseCmdData p cmditem with
      | none => log .error "iot_cap_sub_cb" "Cannot parse %dth command data" [.number i]
      | some cmd =>
          iotProcessCmd p handles cmd.component cmd.capability cmd.command
            { numArgs := cmd.values.length % 256
              cmdData := cmd.values
              totalCommandsNum := arrSize
              orderOfCommand := i + 1
              commandId := cmd.commandId }
      processCommands handles arrSize (i + 1) rest

/-- `iot_cap_sub_cb`. -/
def iotCapSubCb (handles : List CapHandle) (payload : List UInt8) : Act Unit :=
  let func := "iot_cap_sub_cb"
  if handles = [] then log .error func "There is no cap_handle_list or payload" []
  else
    match p.parse payload with
    | none => log .error func "Cannot parse by json" []
    | some json => do
        log .info func "command : %s" [.json json]
        match json.getObjectItem "commands" with
        | none => log .error func "there is no commands in raw_data" []
        | some capCmds =>
            let items := capCmds.children.map Prod.snd
            logDebug p func "cap_cmds arr_size=%d" [.number items.length]
            if items = [] then log .error func "There are no commands data" []
            else processCommands p handles items.length 0 items

/-- One argument of a command in `_iot_parse_cmd_data_v2`. -/
def parseParam (i : Nat) : Json → Act StData
  | .bool value => do
      logDebug p "_iot_parse_cmd_data_v2" (if value then "[%d] True" else "[%d] False")
        [.number i]
      pure (.boolean value)
  | .number _ bits => do
      logDebug p "_iot_parse_cmd_data_v2" "[%d] %f" [.number i, .double bits]
      pure (.number bits)
  | .string text => do
      logDebug p "_iot_parse_cmd_data_v2" "[%d] %s" [.number i, .text text]
      pure (.string text)
  | .null => pure .cleared
  | subitem => do
      logDebug p "_iot_parse_cmd_data_v2" "[%d] %s" [.number i, .string (p.print subitem)]
      pure (.rawJson (p.print subitem))

def parseParams : (i : Nat) → List Json → Act (List StData)
  | _, [] => pure []
  | i, subitem :: rest => do
      let param ← parseParam p i subitem
      let params ← parseParams (i + 1) rest
      pure (param :: params)

/-- `_iot_parse_cmd_data_v2`. -/
def iotParseCmdDataV2 (cmditem : Json) : Act (Option StCommandData) :=
  let func := "_iot_parse_cmd_data_v2"
  match cmditem.getObjectItem "component", cmditem.getObjectItem "capability",
      cmditem.getObjectItem "command", cmditem.getObjectItem "arguments",
      cmditem.getObjectItem "id" with
  | some capComponent, some capCapability, some capCommand, some capArgs, some commandId => do
      let args := capArgs.children.map Prod.snd
      logDebug p func "cap_args arr_size=%d" [.number args.length]
      if !(← attemptIf p !args.isEmpty) then
        log .error func "Failed to malloc for cmd data param list" []
        pure none
      else
        let id ← iotOsStrdup p commandId.valuestring
        let component ← iotOsStrdup p capComponent.valuestring
        let capability ← iotOsStrdup p capCapability.valuestring
        let command ← iotOsStrdup p capCommand.valuestring
        logDebug p func "component:%s, capability:%s command:%s"
          [.string component, .string capability, .string command]
        let params ← parseParams p 0 args
        pure (some ⟨id, component, capability, command, params⟩)
  | _, _, _, _, _ => do
      log .error func "Cannot find value index!!" []
      pure none

/-- The loop of `iot_cap_commands_cb`. The first command that is not understood ends it. -/
def parseCommands : (i : Nat) → List Json → Act (Option (List StCommandData))
  | _, [] => pure (some [])
  | i, cmditem :: rest => do
      match ← iotParseCmdDataV2 p cmditem with
      | none =>
          log .error "iot_cap_commands_cb" "Cannot parse %dth command data" [.number i]
          pure none
      | some command =>
          match ← parseCommands (i + 1) rest with
          | none => pure none
          | some commands => pure (some (command :: commands))

/-- `iot_cap_commands_cb`. -/
def iotCapCommandsCb (payload : List UInt8) : Act Unit :=
  let func := "iot_cap_commands_cb"
  match p.parse payload with
  | none => log .error func "Cannot parse by json" []
  | some json => do
      log .info func "command : %s" [.json json]
      match json.getObjectItem "commands" with
      | none => log .error func "there is no commands in raw_data" []
      | some capCmds =>
          let items := capCmds.children.map Prod.snd
          logDebug p func "cap_cmds arr_size=%d" [.number items.length]
          if items = [] then log .error func "There are no commands data" []
          else if ← attempt p then
            match ← parseCommands p 0 items with
            | none => pure ()
            | some commands =>
                let d ← Action.get
                if d.notiCb then Action.emit (.notiCb commands)
          else log .error func "Failed to malloc command_noti cmd data" []

end Handlers

end StDevice.Delivered
