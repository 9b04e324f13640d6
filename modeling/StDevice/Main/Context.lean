import Mathlib.Logic.Function.Basic

/-!
# The context of the main task

The main task runs commands from the work queue. The commands, the timers and the
events of the MQTT clients meet in one context: the state, the two client handles with
their topics, and the flags that other code sets.

`iot_command_send` may run out of memory, so each context carries a stream of results
for its calls. Two numbers are kept for the proofs only. `epoch` counts the restarts,
and `origin` is the restart after which the work being done was created: a command
inherits it from the command or the timer that sent it.
-/

namespace StDevice.Main

/-- `iot_error_t`, as far as the main task tells its values apart. -/
inductive IotError where
  | none | memAlloc | invalidArgs | badReq | netDnsFail | mqttConnectFail
  | mqttServerUnavail | mqttRejectConnect | mqttConnectTimeout | connDnsQueryFail
  | connStaNoInternet
  | other (code : Nat)
  deriving DecidableEq, Repr

/-- `iot_state_t`. -/
inductive IotState where
  | initialized | provSleep | provEnter | provConfirm | provDone | cloudDisconnected
  | cloudConnected
  deriving DecidableEq, Repr

/-- The notifications the main task tells apart. -/
inductive NotiType where
  | devDeleted | rateLimit | quotaReached | preferenceUpdated | sendFailed | jwtExpired
  deriving DecidableEq, Repr

/-- `struct iot_command`. -/
inductive Command where
  | stateUpdate (state : IotState)
  | cloudRegistering
  | cloudRegistered
  | cloudConnecting
  | notificationReceived (noti : NotiType)
  deriving DecidableEq, Repr

/-- A command in the work queue, with the restart after which it was created. -/
structure Entry where
  command : Command
  origin : Nat
  deriving DecidableEq, Repr

/-- `gg_connection_request_status`. -/
inductive ConnectionStatus where
  | waiting | success | fail
  deriving DecidableEq, Repr

/-- `IOT_CONNECT_TYPE_COMMUNICATION` and `IOT_CONNECT_TYPE_REGISTRATION`. -/
inductive ConnType where
  | communication | registration
  deriving DecidableEq, Repr

/-- The topics a client subscribes to. -/
inductive Topic where
  | notification | command | registration
  deriving DecidableEq, Repr

/-- An MQTT client as the main task sees it. -/
structure MqttClient where
  isconnected : Bool := false
  /-- the EVENT_CHUNK_DISCONNECTED chunks in `user_event_callback_queue` -/
  disconnects : Nat := 0
  subscribed : List Topic := []
  /-- the registration message was accepted -/
  registered : Bool := false
  destroyed : Bool := false
  deriving DecidableEq, Repr

/-- The flags that code outside the main task sets at any time. `conTimerExpired` is
what `_con_timeout_check` returns. -/
structure Settings where
  brokerUrl : Bool := true
  updated : Bool := false
  selfReged : Bool := false
  newReged : Bool := false
  isWifiStation : Bool := false
  d2dEventRequest : Bool := false
  requestDisconnect : Bool := false
  cloudConnectionPause : Bool := false
  rateLimit : Bool := false
  registeredMsgRequested : Bool := false
  usrDeleteReq : Bool := false
  conTimerExpired : Bool := false
  esHttpReady : Bool := false
  esBleReady : Bool := false
  deriving DecidableEq, Repr

/-- `struct iot_context`. Clients are numbered in the order of their creation, a topic is
the number of its memory block, and a timer is present while it is armed. -/
structure Context where
  currState : IotState
  /-- the main commands in `work_queue` -/
  queue : List Entry
  stateTimer : Option Nat
  nextConnectionRetryTimer : Option Nat
  evtMqttcli : Option Nat
  regMqttcli : Option Nat
  mqttEventTopic : Option Nat
  mqttHealthTopic : Option Nat
  client : Nat → MqttClient
  /-- the clients created so far -/
  created : Nat
  signInStatus : ConnectionStatus
  signUpStatus : ConnectionStatus
  criticalRejectCount : Nat
  esNetworkStatus : IotError
  settings : Settings
  /-- the build has `CONFIG_STDK_IOT_CORE_EASYSETUP_BLE` -/
  ble : Bool
  /-- the build has `CONFIG_STDK_IOT_CORE_EASYSETUP_DISCOVERY_SSID` -/
  softap : Bool
  /-- which calls of `iot_command_send` find memory -/
  memory : Nat → Bool
  sends : Nat
  epoch : Nat
  origin : Nat
  /-- for each change of `curr_state` by a command and each connection that was opened:
  the origin of the work that did it, and the epoch it was done in -/
  acted : List (Nat × Nat)

namespace Context

/-- The context after `st_conn_init`. -/
def initial (ble softap : Bool) (memory : Nat → Bool) : Context where
  currState := .initialized
  queue := []
  stateTimer := none
  nextConnectionRetryTimer := none
  evtMqttcli := none
  regMqttcli := none
  mqttEventTopic := none
  mqttHealthTopic := none
  client := fun _ => {}
  created := 0
  signInStatus := .waiting
  signUpStatus := .waiting
  criticalRejectCount := 0
  esNetworkStatus := .none
  settings := {}
  ble := ble
  softap := softap
  memory := memory
  sends := 0
  epoch := 0
  origin := 0
  acted := []

/-- `iot_command_send`. -/
def commandSend (s : Context) (command : Command) : Context :=
  { s with
    queue := if s.memory s.sends then s.queue ++ [⟨command, s.origin⟩] else s.queue
    sends := s.sends + 1 }

/-- `iot_state_update`. -/
def stateUpdate (s : Context) (state : IotState) : Context :=
  s.commandSend (.stateUpdate state)

/-- The work being done opens a connection or assigns `curr_state`. -/
def act (s : Context) : Context := { s with acted := (s.origin, s.epoch) :: s.acted }

def setClient (s : Context) (c : Nat) (x : MqttClient) : Context :=
  { s with client := Function.update s.client c x }

/-- `iot_easysetup_deinit`. The HTTP version changes nothing of the context that the main
task reads. -/
def easysetupDeinit (s : Context) : Context :=
  if s.ble && s.settings.esBleReady then
    if s.esNetworkStatus ≠ .none then
      { s with settings.d2dEventRequest := false }.stateUpdate .provConfirm
    else { s with settings.d2dEventRequest := false }
  else s

/-- A message as the handlers read it: its answer to the connection request, the
notification in it, whether it says that the web token has expired, and whether it has a
device id. -/
structure Message where
  response : ConnectionStatus
  noti : Option NotiType := none
  expiredJwt : Bool := false
  deviceId : Bool := false
  deriving DecidableEq, Repr

/-- What happens to a client between two calls. -/
inductive ClientEvent where
  /-- the network fails; `chunk` when the event chunk could be allocated -/
  | dropped (chunk : Bool)
  /-- the user callback runs for an EVENT_CHUNK_DISCONNECTED chunk -/
  | disconnected
  /-- the user callback runs for a message -/
  | delivered (message : Message)
  deriving DecidableEq, Repr

/-- `_iot_mqtt_signin_client_callback` and `_iot_mqtt_registration_client_callback` for
ST_MQTT_EVENT_DISCONNECTED. -/
def disconnectedCallback (s : Context) : ConnType → Context
  | .communication => s.stateUpdate .cloudDisconnected
  | .registration =>
      if s.currState = .provDone ∧ s.settings.updated = false ∧
          s.settings.registeredMsgRequested = true then
        s.commandSend .cloudRegistering
      else s

/-- `mqtt_reg_sub_cb`, up to the registered data. -/
def regSubExpired (s : Context) (message : Message) : Context :=
  if message.expiredJwt then s.commandSend .cloudRegistering else s

/-- `mqtt_reg_sub_cb`. -/
def regSubCb (s : Context) (message : Message) : Context :=
  if message.deviceId && !s.settings.updated then
    { s.regSubExpired message with
      settings.updated := true
      settings.newReged := false }.commandSend .cloudRegistered
  else s.regSubExpired message

/-- The same callbacks for ST_MQTT_EVENT_MSG_DELIVERED. -/
def deliveredCallback (s : Context) (message : Message) : ConnType → Context
  | .communication =>
      if s.signInStatus ≠ .success then { s with signInStatus := message.response }
      else
        match message.noti with
        | some noti => s.commandSend (.notificationReceived noti)
        | none => s
  | .registration =>
      if s.signUpStatus ≠ .success then { s with signUpStatus := message.response }
      else s.regSubCb message

def clientEvent (type : ConnType) (c : Nat) (s : Context) : ClientEvent → Context
  | .dropped chunk =>
      s.setClient c { s.client c with
        isconnected := false
        disconnects := (s.client c).disconnects + if chunk then 1 else 0 }
  | .disconnected =>
      match (s.client c).disconnects with
      | 0 => s
      | n + 1 => (s.setClient c { s.client c with disconnects := n }).disconnectedCallback type
  | .delivered message => s.deliveredCallback message type

end Context

end StDevice.Main
