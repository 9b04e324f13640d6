import StDevice.Main.Context

/-!
# Opening and closing a connection

`iot_es_connect` makes about fifteen calls that may fail, and leaves through one block
that destroys the client when the return variable says so. The results of the calls are
the input of the model; what happens while it waits for the answer of the server is a
list of yields, each with the client events handled in it.

The allocation of the topic filter of a registration has an exit of its own. It jumps
into the block of the other connection type, past the initialisation of the filters
there, and frees whatever is in them.
-/

namespace StDevice.Main

/-- What `st_mqtt_connect` returns, as far as `_iot_es_mqtt_connect` tells it apart. -/
inductive MqttResult where
  | success | unacceptableProtocol | serverUnavailable | clientidRejected
  | badUsernameOrPassword | notAuthorized | packetTimeout | other
  deriving DecidableEq, Repr

/-- The results of the calls of `iot_es_connect`. A Boolean is true when the call
succeeds, and `yields` has one list for each round of the wait for the response, until
the response timer has expired. -/
structure Calls where
  serialNumber : IotError := .none
  mnid : Bool := true
  token : IotError := .none
  create : Bool := true
  clientId : IotError := .none
  certificate : IotError := .none
  mqttConnect : MqttResult := .success
  responseTimer : Bool := true
  topicfilter : Bool := true
  secondTopicfilter : Bool := true
  subscribe : Bool := true
  yields : List (List Context.ClientEvent) := []
  eventTopic : Bool := true
  healthTopic : Bool := true
  registration : IotError := .none

/-- How a function that may not return ends. -/
inductive Outcome where
  | returned (error : IotError) (ctx : Context)
  | rebooted
  /-- it frees a pointer that was never set -/
  | undefined

/-- `IOT_MQTT_CONNECT_CRITICAL_REJECT_MAX`. -/
def criticalRejectMax : Nat := 3

namespace Context

/-- `_iot_es_mqtt_disconnect`. -/
def mqttDisconnect (s : Context) (c : Nat) : Context :=
  s.setClient c { s.client c with isconnected := false }

/-- `st_mqtt_destroy`. The events of the client are freed with it. -/
def mqttDestroy (s : Context) (c : Nat) : Context :=
  s.setClient c { s.client c with isconnected := false, disconnects := 0, destroyed := true }

/-- The end of `iot_es_disconnect`. -/
def closeClient (s : Context) : Option Nat → Context
  | some c => (s.mqttDisconnect c).mqttDestroy c
  | none => s

/-- `iot_es_disconnect`. -/
def esDisconnect (s : Context) : ConnType → Context
  | .communication =>
      { s with mqttEventTopic := none, mqttHealthTopic := none, evtMqttcli := none }.closeClient
        s.evtMqttcli
  | .registration => { s with regMqttcli := none }.closeClient s.regMqttcli

/-- `st_mqtt_create`. -/
def mqttCreate (s : Context) : Context :=
  { s.setClient s.created {} with created := s.created + 1 }

/-- `_iot_es_mqtt_connect`, for each result of `st_mqtt_connect`. After too many
rejections the device is cleaned up and rebooted. -/
def mqttConnectResult (s : Context) (c : Nat) : MqttResult → Outcome
  | .success =>
      .returned .none { s.setClient c { s.client c with isconnected := true } with
        criticalRejectCount := 0 }
  | .unacceptableProtocol | .serverUnavailable =>
      .returned .mqttServerUnavail { s with criticalRejectCount := 0 }
  | .clientidRejected | .badUsernameOrPassword | .notAuthorized =>
      if s.criticalRejectCount < criticalRejectMax then
        .returned .mqttConnectFail { s with criticalRejectCount := s.criticalRejectCount + 1 }
      else .rebooted
  | .packetTimeout => .returned .mqttConnectTimeout { s with criticalRejectCount := 0 }
  | .other => .returned .mqttConnectFail { s with criticalRejectCount := 0 }

/-- `_iot_es_mqtt_connect`. -/
def esMqttConnect (s : Context) (c : Nat) (calls : Calls) : Outcome :=
  if calls.clientId ≠ .none then .returned calls.clientId s
  else if s.settings.brokerUrl = false then .returned .invalidArgs s
  else if calls.certificate ≠ .none then .returned calls.certificate s
  else s.act.mqttConnectResult c calls.mqttConnect

/-- The label `out` of `iot_es_connect`: a client is destroyed if the return variable is
set. -/
def out (s : Context) (c : Option Nat) (error : IotError) : Outcome :=
  .returned error
    (match c, error with
    | _, .none => s
    | some c, _ => s.mqttDestroy c
    | none, _ => s)

def requestStatus (s : Context) : ConnType → ConnectionStatus
  | .communication => s.signInStatus
  | .registration => s.signUpStatus

/-- One `st_mqtt_yield`. -/
def yield (type : ConnType) (c : Nat) (s : Context) (events : List ClientEvent) : Context :=
  events.foldl (clientEvent type c) s

/-- The loop that waits for the response while its timer is active. -/
def awaitResponse (type : ConnType) (c : Nat) (s : Context) : List (List ClientEvent) → Context
  | [] => s
  | events :: yields =>
      if (s.yield type c events).requestStatus type ≠ .waiting then s.yield type c events
      else awaitResponse type c (s.yield type c events) yields

def subscribe (s : Context) (c : Nat) (topics : List Topic) : Context :=
  s.setClient c { s.client c with subscribed := topics }

/-- A memory block that holds no topic of the context. -/
def freshTopic (s : Context) : Nat :=
  s.mqttEventTopic.elim 0 Nat.succ + s.mqttHealthTopic.elim 0 Nat.succ

/-- The event topic is allocated. -/
def allocateEventTopic (s : Context) : Context := { s with mqttEventTopic := some s.freshTopic }

/-- The health topic is allocated. -/
def allocateHealthTopic (s : Context) : Context := { s with mqttHealthTopic := some s.freshTopic }

/-- The last part of a sign-in, after the response. -/
def finishSignIn (s : Context) (c : Nat) (calls : Calls) : Outcome :=
  if s.signInStatus ≠ .success then (s.mqttDisconnect c).out c .mqttConnectFail
  else if calls.eventTopic = false then
    ({ s with mqttEventTopic := none }.mqttDisconnect c).out c .memAlloc
  else if calls.healthTopic = false then
    ({ s.allocateEventTopic with mqttHealthTopic := none }.mqttDisconnect c).out c .memAlloc
  else { s.allocateEventTopic.allocateHealthTopic with evtMqttcli := some c }.out c .none

/-- A sign-in, from the connected client on. -/
def communicate (s : Context) (c : Nat) (calls : Calls) : Outcome :=
  if calls.responseTimer = false then s.out c .mqttConnectFail
  else if calls.topicfilter = false then s.out c .memAlloc
  else if calls.secondTopicfilter = false then s.out c .memAlloc
  else if calls.subscribe = false then (s.mqttDisconnect c).out c .badReq
  else ((s.subscribe c [.notification, .command]).awaitResponse .communication c
    calls.yields).finishSignIn c calls

/-- The last part of a registration, after the response. -/
def finishSignUp (s : Context) (c : Nat) (calls : Calls) : Outcome :=
  if s.signUpStatus ≠ .success then (s.mqttDisconnect c).out c .mqttConnectFail
  else if calls.registration ≠ .none then
    ({ s with settings.updated := false }.mqttDisconnect c).out c calls.registration
  else
    { s.setClient c { s.client c with registered := true } with
      settings.updated := false
      regMqttcli := some c }.out c .none

/-- A registration, from the connected client on. -/
def register (s : Context) (c : Nat) (calls : Calls) : Outcome :=
  if calls.responseTimer = false then s.out c .mqttConnectFail
  else if calls.topicfilter = false then .undefined
  else if calls.subscribe = false then (s.mqttDisconnect c).out c .badReq
  else ((s.subscribe c [.registration]).awaitResponse .registration c
    calls.yields).finishSignUp c calls

/-- A connection, from the result of `_iot_es_mqtt_connect` on. -/
def connected (c : Nat) (calls : Calls) (type : ConnType) : Outcome → Outcome
  | .returned .none s =>
      match type with
      | .communication => s.communicate c calls
      | .registration => s.register c calls
  | .returned error s => s.out c error
  | .rebooted => .rebooted
  | .undefined => .undefined

/-- The request status is reset before the client connects. -/
def resetStatus (s : Context) : ConnType → Context
  | .communication => { s with signInStatus := .waiting }
  | .registration => { s with signUpStatus := .waiting }

/-- `iot_es_connect`, from the web token on. -/
def openClient (s : Context) (type : ConnType) (calls : Calls) : Outcome :=
  if type = .communication ∧ s.settings.updated = false then s.out none .none
  else if calls.create = false then s.out none .none
  else
    connected s.created calls type
      ((s.mqttCreate.resetStatus type).esMqttConnect s.created calls)

/-- `iot_es_connect`. Several exits do not set the return variable, which still holds the
success of the call before. -/
def esConnect (s : Context) (type : ConnType) (calls : Calls) : Outcome :=
  if s.settings.rateLimit then .returned .mqttConnectFail s
  else if calls.serialNumber ≠ .none then s.out none calls.serialNumber
  else if calls.mnid = false then s.out none .none
  else if calls.token ≠ .none then s.out none calls.token
  else s.openClient type calls

/-- Work on the client `c` between two commands: the state and the timers stay, and
commands are sent, but never the one that reports a connection. -/
structure Frame (c : Nat) (s t : Context) : Prop where
  currState : t.currState = s.currState
  stateTimer : t.stateTimer = s.stateTimer
  retryTimer : t.nextConnectionRetryTimer = s.nextConnectionRetryTimer
  epoch : t.epoch = s.epoch
  origin : t.origin = s.origin
  memory : t.memory = s.memory
  requestDisconnect : t.settings.requestDisconnect = s.settings.requestDisconnect
  others : ∀ d, d ≠ c → t.client d = s.client d
  queue : ∃ sent, t.queue = s.queue ++ sent ∧
    ∀ x ∈ sent, x.origin = s.origin ∧ x.command ≠ .stateUpdate .cloudConnected

namespace Frame

variable {c : Nat} {s t u : Context}

theorem refl (c : Nat) (s : Context) : Frame c s s :=
  ⟨rfl, rfl, rfl, rfl, rfl, rfl, rfl, fun _ _ => rfl, [], (List.append_nil _).symm, by simp⟩

theorem trans (first : Frame c s t) (second : Frame c t u) : Frame c s u where
  currState := second.currState.trans first.currState
  stateTimer := second.stateTimer.trans first.stateTimer
  retryTimer := second.retryTimer.trans first.retryTimer
  epoch := second.epoch.trans first.epoch
  origin := second.origin.trans first.origin
  memory := second.memory.trans first.memory
  requestDisconnect := second.requestDisconnect.trans first.requestDisconnect
  others d other := (second.others d other).trans (first.others d other)
  queue := by
    obtain ⟨sent, queue, commands⟩ := first.queue
    obtain ⟨sent', queue', commands'⟩ := second.queue
    refine ⟨sent ++ sent', by rw [queue', queue, List.append_assoc], ?_⟩
    intro x member
    obtain member | member := List.mem_append.mp member
    · exact commands x member
    · exact first.origin ▸ commands' x member

theorem commandSend {command : Command} (c : Nat) (s : Context)
    (other : command ≠ .stateUpdate .cloudConnected) : Frame c s (s.commandSend command) := by
  refine ⟨rfl, rfl, rfl, rfl, rfl, rfl, rfl, fun _ _ => rfl, ?_⟩
  by_cases memory : s.memory s.sends = true
  · exact ⟨[⟨command, s.origin⟩], by simp [Context.commandSend, memory], by simpa using other⟩
  · exact ⟨[], by simp [Context.commandSend, memory], by simp⟩

theorem setClient (c : Nat) (s : Context) (x : MqttClient) : Frame c s (s.setClient c x) :=
  ⟨rfl, rfl, rfl, rfl, rfl, rfl, rfl, fun _ other => Function.update_of_ne other _ _,
    [], (List.append_nil _).symm, by simp⟩

end Frame

/-- What the events of the client `c` leave as it is. -/
structure Kept (c : Nat) (s t : Context) : Prop where
  frame : Frame c s t
  evt : t.evtMqttcli = s.evtMqttcli
  reg : t.regMqttcli = s.regMqttcli
  eventTopic : t.mqttEventTopic = s.mqttEventTopic
  healthTopic : t.mqttHealthTopic = s.mqttHealthTopic
  created : t.created = s.created
  acted : t.acted = s.acted
  destroyed : (t.client c).destroyed = (s.client c).destroyed
  subscribed : (t.client c).subscribed = (s.client c).subscribed

namespace Kept

variable {c : Nat} {s t u : Context}

theorem refl (c : Nat) (s : Context) : Kept c s s :=
  ⟨.refl c s, rfl, rfl, rfl, rfl, rfl, rfl, rfl, rfl⟩

theorem trans (first : Kept c s t) (second : Kept c t u) : Kept c s u where
  frame := first.frame.trans second.frame
  evt := second.evt.trans first.evt
  reg := second.reg.trans first.reg
  eventTopic := second.eventTopic.trans first.eventTopic
  healthTopic := second.healthTopic.trans first.healthTopic
  created := second.created.trans first.created
  acted := second.acted.trans first.acted
  destroyed := second.destroyed.trans first.destroyed
  subscribed := second.subscribed.trans first.subscribed

theorem commandSend {command : Command} (c : Nat) (s : Context)
    (other : command ≠ .stateUpdate .cloudConnected) : Kept c s (s.commandSend command) :=
  ⟨.commandSend c s other, rfl, rfl, rfl, rfl, rfl, rfl, rfl, rfl⟩

theorem setClient {x : MqttClient} (c : Nat) (s : Context)
    (destroyed : x.destroyed = (s.client c).destroyed)
    (subscribed : x.subscribed = (s.client c).subscribed) : Kept c s (s.setClient c x) := by
  refine ⟨.setClient c s x, rfl, rfl, rfl, rfl, rfl, rfl, ?_, ?_⟩
  · simpa [Context.setClient] using destroyed
  · simpa [Context.setClient] using subscribed

theorem regSubExpired (c : Nat) (s : Context) (message : Message) :
    Kept c s (s.regSubExpired message) := by
  unfold Context.regSubExpired
  split
  · exact commandSend c s (by simp)
  · exact refl c s

theorem deliveredCallback (c : Nat) (s : Context) (message : Message) (type : ConnType) :
    Kept c s (s.deliveredCallback message type) := by
  cases type with
  | communication =>
      simp only [Context.deliveredCallback]
      split
      · exact ⟨{ Frame.refl c s with }, rfl, rfl, rfl, rfl, rfl, rfl, rfl, rfl⟩
      · split
        · exact commandSend c s (by simp)
        · exact refl c s
  | registration =>
      simp only [Context.deliveredCallback, Context.regSubCb]
      split
      · exact ⟨{ Frame.refl c s with }, rfl, rfl, rfl, rfl, rfl, rfl, rfl, rfl⟩
      · split
        · have updated : Kept c (s.regSubExpired message) { s.regSubExpired message with
              settings.updated := true
              settings.newReged := false } :=
            ⟨{ Frame.refl c (s.regSubExpired message) with },
              rfl, rfl, rfl, rfl, rfl, rfl, rfl, rfl⟩
          exact (regSubExpired c s message).trans (updated.trans (commandSend c _ (by simp)))
        · exact regSubExpired c s message

theorem disconnectedCallback (c : Nat) (s : Context) (type : ConnType) :
    Kept c s (s.disconnectedCallback type) := by
  cases type with
  | communication => exact commandSend c s (by simp)
  | registration =>
      simp only [Context.disconnectedCallback]
      split
      · exact commandSend c s (by simp)
      · exact refl c s

theorem clientEvent (type : ConnType) (c : Nat) (s : Context) (event : ClientEvent) :
    Kept c s (clientEvent type c s event) := by
  cases event with
  | dropped chunk => exact setClient c s rfl rfl
  | disconnected =>
      simp only [Context.clientEvent]
      split
      · exact refl c s
      · rename_i n _
        have taken : Kept c s (s.setClient c { s.client c with disconnects := n }) :=
          setClient c s rfl rfl
        exact taken.trans (disconnectedCallback c _ type)
  | delivered message => exact deliveredCallback c s message type

theorem yield (type : ConnType) (c : Nat) (s : Context) (events : List ClientEvent) :
    Kept c s (s.yield type c events) := by
  induction events generalizing s with
  | nil => exact refl c s
  | cons event events ih => exact (clientEvent type c s event).trans (ih _)

theorem awaitResponse (type : ConnType) (c : Nat) (s : Context)
    (yields : List (List ClientEvent)) : Kept c s (s.awaitResponse type c yields) := by
  induction yields generalizing s with
  | nil => exact refl c s
  | cons events yields ih =>
      simp only [Context.awaitResponse]
      split
      · exact yield type c s events
      · exact (yield type c s events).trans (ih _)

end Kept

end Context

end StDevice.Main
