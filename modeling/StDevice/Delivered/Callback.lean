import StDevice.Delivered.Capability

/-!
# The callbacks for a delivered message

The two MQTT clients of `iot_easysetup_st_mqtt.c` hand each message to a callback. Until the
connection request is answered, every message is taken for the answer. After that the topic
chooses the handler.

In the build without CBOR the callbacks get plain pointers into the packet. `topic` and
`payload` are the memory from there on, so a text is read up to the first NUL and a topic as
far as `strncmp` compares it. The length is known, and only a log line uses it.
-/

namespace StDevice.Delivered

open CString Effect Main

/-- `st_mqtt_msg`, with the memory behind its pointers. -/
structure Msg where
  topic : List UInt8
  payload : List UInt8
  payloadlen : Nat
  deriving DecidableEq, Repr

/-- `IOT_SUB_TOPIC_REGISTRATION_PREFIX`. -/
def registrationPrefix : List UInt8 := ascii "/v1/registrations/notification"

/-- `IOT_SUB_TOPIC_COMMAND_PREFIX`. -/
def commandPrefix : List UInt8 := ascii "/v1/commands"

/-- `IOT_SUB_TOPIC_NOTIFICATION_PREFIX`. -/
def notificationPrefix : List UInt8 := ascii "/v1/notifications"

/-- `IOT_ERROR_INVALID_ARGS`. -/
def invalidArgs : Int := -2

section Callbacks

variable (p : Platform)

/-- `_check_connection_response`. The length that the source passes is not used. -/
def checkConnectionResponse (payload : List UInt8) : Act ConnectionStatus :=
  let func := "_check_connection_response"
  match p.parse (cstr payload) with
  | none => do
      log .error func "Response payload parsing failed" []
      pure .fail
  | some json => do
      log .info func "Connection response payload %s" [.json json]
      match json.getObjectItem "event" with
      | none =>
          log .error func "No event item in payload" []
          pure .waiting
      | some event =>
          if ← startsWith event.valuestring "expired.jwt" then
            match json.getObjectItem "currentTime" with
            | none =>
                log .error func "There is no currentTime in json" []
                pure .fail
            | some time =>
                setSntp func time.valueint
                pure .fail
          else if ← startsWith event.valuestring "connect.success" then pure .success
          else
            log .error func "No connection response payload %s" [.string event.valuestring]
            pure .waiting

/-- The part of `mqtt_reg_sub_cb` on the integration profile, and whether the rest is
reached. -/
def updateDip (dipKey : Json) : Act Bool := do
  let func := "mqtt_reg_sub_cb"
  if ← attempt p then
    match dipKey.getObjectItem "id" with
    | none =>
        log .error func "Can't find id for dip_key!!" []
        pure false
    | some id =>
        match ← iotUtilConvertStrUuid id.valuestring with
        | none =>
            log .error func "Can't convert str to uuid(%d)" [.number invalidArgs]
            pure false
        | some dipId =>
            match dipKey.getObjectItem "majorVersion" with
            | none =>
                log .error func "Can't find majorVersion for dip_key!!" []
                pure false
            | some major =>
                let minor := (dipKey.getObjectItem "minorVersion").elim 0 Json.valueint
                Action.modify fun d =>
                  { d with iotRegData.dip := some ⟨dipId, major.valueint, minor⟩ }
                pure true
  else
    log .error func "Can't alloc iot_dip_data!!" []
    pure false

/-- The part on the location. -/
def updateLocation (item : Json) : Act Bool := do
  let func := "mqtt_reg_sub_cb"
  if ← attempt p then
    match ← iotUtilConvertStrUuid item.valuestring with
    | none =>
        log .error func "Can't convert str to uuid(%d)" [.number invalidArgs]
        pure false
    | some location =>
        Action.modify fun d => { d with iotRegData.locationId := some location }
        pure true
  else
    log .error func "Can't alloc iot_uuid for location!!" []
    pure false

/-- The device id: 36 bytes behind the quote, whatever the length of the printed text. -/
def copiedDeviceId (svrDidStr : List UInt8) : List UInt8 :=
  ((svrDidStr ++ 0 :: (List.range 36).map p.heap).drop 1).take 36

/-- The part on the device id. -/
def updateDeviceId (json : Json) : Act Unit := do
  let func := "mqtt_reg_sub_cb"
  let d ← Action.get
  match json.getObjectItem "deviceId" with
  | none => pure ()
  | some item =>
      if d.iotRegData.updated then pure ()
      else
        match p.print item with
        | none => log .error func "Can't print server's did str!!" []
        | some svrDidStr =>
            Action.modify fun d =>
              { d with
                iotRegData.deviceId := copiedDeviceId p svrDidStr
                iotRegData.updated := true
                iotRegData.newReged := false }
            if ← iotCommandSend p .cloudRegistered none then pure ()
            else log .error func "Cannot send cloud registered cmd!!" []

/-- The integration profile is optional. -/
def dipReceived (json : Json) : Act Bool :=
  match json.getObjectItem "deviceIntegrationProfileKey" with
  | none => pure true
  | some dipKey => updateDip p dipKey

/-- A missing location is only reported. -/
def locationReceived (json : Json) : Act Bool :=
  match json.getObjectItem "locationId" with
  | none => do
      log .warn "mqtt_reg_sub_cb" "Server does not send locationId!!" []
      pure true
  | some item => updateLocation p item

/-- `mqtt_reg_sub_cb` behind the event: the registered data. -/
def updateRegistered (json : Json) : Act Unit := do
  if ← dipReceived p json then
    if ← locationReceived p json then updateDeviceId p json

/-- The web token has expired: the clock is set and the registration is sent again. -/
def registerAgain (valueint : Int) : Act Unit := do
  setSntp "mqtt_reg_sub_cb" valueint
  if ← iotCommandSend p .cloudRegistering none then pure ()
  else log .error "mqtt_reg_sub_cb" "Cannot send cloud registering cmd!!" []

/-- `mqtt_reg_sub_cb` from the event on. `mqttPayload` is shown in one of the errors. -/
def handleEvent (json : Json) (mqttPayload : List UInt8) : Act Unit :=
  let func := "mqtt_reg_sub_cb"
  match json.getObjectItem "event" with
  | none => updateRegistered p json
  | some event => do
      if ← startsWith event.valuestring "expired.jwt" then
        match json.getObjectItem "currentTime" with
        | none =>
            log .error func "%s : there is no currentTime in json, mqtt_payload : \n%s"
              [.text (ascii func), .text mqttPayload]
        | some time => do
            registerAgain p time.valueint
            updateRegistered p json
      else if ← startsWith event.valuestring "error" then
        log .error func "TODO : signaling restart onboarding %d" [.number 188]
      else log .error func "event type %s is not defined" [.string event.valuestring]

/-- `mqtt_reg_sub_cb`. -/
def mqttRegSubCb (payload : List UInt8) : Act Unit :=
  let func := "mqtt_reg_sub_cb"
  match p.parse (cstr payload) with
  | none => log .error func "mqtt_payload(%s) parsing failed" [.text (cstr payload)]
  | some json =>
      if (p.print json).isNone then
        log .error func "There are no registered msg, payload : %s" [.text (cstr payload)]
      else do
        log .info func "Registered MSG : %s" [.json json]
        handleEvent p json (cstr payload)

/-- The choice of the handler in `_iot_mqtt_registration_client_callback`. -/
def registrationHandler (md : Msg) : Act Unit :=
  if strncmp md.topic registrationPrefix registrationPrefix.length = 0 then
    mqttRegSubCb p md.payload
  else
    log .warn "_iot_mqtt_registration_client_callback" "No msg delivery handler for %s"
      [.text (cstr md.topic)]

/-- The line that shows a message after its handler. -/
def showRawMsg (md : Msg) : Act Unit :=
  logDebug p "_iot_mqtt_registration_client_callback" "raw msg (len:%d) : %s"
    [.number md.payloadlen, .text (cstr md.payload)]

/-- `_iot_mqtt_registration_client_callback` for ST_MQTT_EVENT_MSG_DELIVERED. -/
def iotMqttRegistrationClientCallback (md : Msg) : Act Unit := do
  let d ← Action.get
  if d.signUpStatus ≠ .success then
    let status ← checkConnectionResponse p md.payload
    Action.modify fun d => { d with signUpStatus := status }
  else
    registrationHandler p md
    showRawMsg p md

/-- The choice of the handler in `_iot_mqtt_signin_client_callback`. -/
def signinHandler (handles : List CapHandle) (md : Msg) : Act Unit :=
  if strncmp md.topic commandPrefix commandPrefix.length = 0 then do
    iotCapSubCb p handles (cstr md.payload)
    iotCapCommandsCb p (cstr md.payload)
  else if strncmp md.topic notificationPrefix notificationPrefix.length = 0 then
    iotNotiSubCb p (cstr md.payload)
  else
    log .warn "_iot_mqtt_signin_client_callback" "No msg delivery handler for %s"
      [.text (cstr md.topic)]

/-- `_iot_mqtt_signin_client_callback` for ST_MQTT_EVENT_MSG_DELIVERED. -/
def iotMqttSigninClientCallback (md : Msg) : Act Unit := do
  let d ← Action.get
  if d.signInStatus ≠ .success then
    let status ← checkConnectionResponse p md.payload
    Action.modify fun d => { d with signInStatus := status }
  else
    logDebug p "_iot_mqtt_signin_client_callback" "raw msg : %s" [.text (cstr md.payload)]
    signinHandler p d.capHandleList md

/-- The callback of each client. -/
def clientCallback : ConnType → Msg → Act Unit
  | .registration => iotMqttRegistrationClientCallback p
  | .communication => iotMqttSigninClientCallback p

end Callbacks

end StDevice.Delivered
