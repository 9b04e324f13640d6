import StDevice.Main.Connection

/-!
# The calls of a connection attempt

The result of `iot_es_connect` is decided by the first of its calls that fails. This
module lists the calls of each connection type in their order, says when each of them
fails, and proves which error the attempt returns, or that it does not return.
-/

namespace StDevice.Main

/-- The calls of `iot_es_connect` and its other conditions. -/
inductive Call where
  | rateLimit | serialNumber | mnid | token | userId | create | connect | responseTimer
  | topicfilter | secondTopicfilter | subscribe | response | eventTopic | healthTopic
  | registration
  deriving DecidableEq, Repr

/-- The calls in the order in which they are made. -/
def ConnType.calls : ConnType → List Call
  | .communication =>
      [.rateLimit, .serialNumber, .mnid, .token, .userId, .create, .connect, .responseTimer,
        .topicfilter, .secondTopicfilter, .subscribe, .response, .eventTopic, .healthTopic]
  | .registration =>
      [.rateLimit, .serialNumber, .mnid, .token, .create, .connect, .responseTimer,
        .topicfilter, .subscribe, .response, .registration]

/-- Whether the exit of a call that fails sets the return variable. -/
def Call.setsError : Call → Bool
  | mnid | userId | create => false
  | _ => true

/-- The attempt has waited for the response when it finds that the call fails. -/
def Call.afterResponse : Call → Bool
  | response | eventTopic | healthTopic | registration => true
  | _ => false

namespace Context

/-- The request status after the events of one yield. -/
def answer : ConnectionStatus → List ClientEvent → ConnectionStatus
  | status, [] => status
  | status, .delivered message :: events =>
      answer (if status ≠ .success then message.response else status) events
  | status, .dropped _ :: events => answer status events
  | status, .disconnected :: events => answer status events

/-- The request status when the wait for the response ends. -/
def finalAnswer : ConnectionStatus → List (List ClientEvent) → ConnectionStatus
  | status, [] => status
  | status, events :: yields =>
      if answer status events ≠ .waiting then answer status events
      else finalAnswer (answer status events) yields

/-- Whether a call fails. -/
def fails (s : Context) (calls : Calls) : Call → Bool
  | .rateLimit => s.settings.rateLimit
  | .serialNumber => calls.serialNumber ≠ .none
  | .mnid => !calls.mnid
  | .token => calls.token ≠ .none
  | .userId => !s.settings.updated
  | .create => !calls.create
  | .connect =>
      calls.clientId ≠ .none ∨ s.settings.brokerUrl = false ∨ calls.certificate ≠ .none ∨
        calls.mqttConnect ≠ .success
  | .responseTimer => !calls.responseTimer
  | .topicfilter => !calls.topicfilter
  | .secondTopicfilter => !calls.secondTopicfilter
  | .subscribe => !calls.subscribe
  | .response => finalAnswer .waiting calls.yields ≠ .success
  | .eventTopic => !calls.eventTopic
  | .healthTopic => !calls.healthTopic
  | .registration => calls.registration ≠ .none

/-- The error of `_iot_es_mqtt_connect` when it fails, if it returns. -/
def mqttConnectError (s : Context) (calls : Calls) : Option IotError :=
  if calls.clientId ≠ .none then some calls.clientId
  else if s.settings.brokerUrl = false then some .invalidArgs
  else if calls.certificate ≠ .none then some calls.certificate
  else
    match calls.mqttConnect with
    | .success => some .none
    | .unacceptableProtocol | .serverUnavailable => some .mqttServerUnavail
    | .clientidRejected | .badUsernameOrPassword | .notAuthorized =>
        if s.criticalRejectCount < criticalRejectMax then some .mqttConnectFail else none
    | .packetTimeout => some .mqttConnectTimeout
    | .other => some .mqttConnectFail

/-- What the attempt returns when a call fails, if it returns. -/
def callError (s : Context) (type : ConnType) (calls : Calls) : Call → Option IotError
  | .mnid | .userId | .create => some .none
  | .rateLimit | .responseTimer | .response => some .mqttConnectFail
  | .serialNumber => some calls.serialNumber
  | .token => some calls.token
  | .connect => s.mqttConnectError calls
  | .topicfilter => if type = .registration then none else some .memAlloc
  | .secondTopicfilter | .eventTopic | .healthTopic => some .memAlloc
  | .subscribe => some .badReq
  | .registration => some calls.registration

/-- What `iot_es_connect` returns, if it returns. -/
def connectError (s : Context) (type : ConnType) (calls : Calls) : Option IotError :=
  match type.calls.find? (s.fails calls) with
  | none => some .none
  | some call => s.callError type calls call

section Status

variable (type : ConnType) (c : Nat)

theorem requestStatus_disconnectedCallback (s : Context) :
    (s.disconnectedCallback type).requestStatus type = s.requestStatus type := by
  cases type with
  | communication => rfl
  | registration =>
      simp only [disconnectedCallback]
      split
      · rfl
      · rfl

theorem requestStatus_delivered (s : Context) (message : Message) :
    (s.deliveredCallback message type).requestStatus type =
      if s.requestStatus type ≠ .success then message.response else s.requestStatus type := by
  cases type with
  | communication =>
      by_cases unsigned : s.signInStatus ≠ .success
      · rw [if_pos (show s.requestStatus .communication ≠ .success from unsigned),
          deliveredCallback, if_pos unsigned]
        rfl
      · rw [if_neg (show ¬ s.requestStatus .communication ≠ .success from unsigned),
          deliveredCallback, if_neg unsigned]
        cases message.noti with
        | none => rfl
        | some noti => rfl
  | registration =>
      by_cases unsigned : s.signUpStatus ≠ .success
      · rw [if_pos (show s.requestStatus .registration ≠ .success from unsigned), deliveredCallback,
          if_pos unsigned]
        rfl
      · have expired : (s.regSubExpired message).signUpStatus = s.signUpStatus := by
          unfold regSubExpired
          split
          · rfl
          · rfl
        rw [if_neg (show ¬ s.requestStatus .registration ≠ .success from unsigned),
          deliveredCallback, if_neg unsigned, regSubCb]
        split
        · exact expired
        · exact expired

theorem requestStatus_yield (s : Context) (events : List ClientEvent) :
    (s.yield type c events).requestStatus type = answer (s.requestStatus type) events := by
  induction events generalizing s with
  | nil => rfl
  | cons event events ih =>
      have later := ih (clientEvent type c s event)
      cases event with
      | dropped chunk =>
          rw [answer, ← show (clientEvent type c s (.dropped chunk)).requestStatus type =
            s.requestStatus type by cases type <;> rfl]
          exact later
      | disconnected =>
          have same : (clientEvent type c s .disconnected).requestStatus type =
              s.requestStatus type := by
            simp only [clientEvent]
            split
            · rfl
            · rw [requestStatus_disconnectedCallback]
              cases type <;> rfl
          rw [answer, ← same]
          exact later
      | delivered message =>
          rw [answer, ← requestStatus_delivered]
          exact later

theorem requestStatus_awaitResponse (s : Context) (yields : List (List ClientEvent)) :
    (s.awaitResponse type c yields).requestStatus type =
      finalAnswer (s.requestStatus type) yields := by
  induction yields generalizing s with
  | nil => rfl
  | cons events yields ih =>
      simp only [awaitResponse, finalAnswer, ← requestStatus_yield type c]
      split
      · rfl
      · exact ih _

end Status

/-- The context of an attempt whose client has connected. -/
def opened (s : Context) (type : ConnType) : Context :=
  { (s.mqttCreate.resetStatus type).act.setClient s.created { isconnected := true } with
    criticalRejectCount := 0 }

/-- The context after the wait for the response. -/
def answered (s : Context) (type : ConnType) (calls : Calls) : Context :=
  match type with
  | .communication =>
      ((s.opened .communication).subscribe s.created [.notification, .command]).awaitResponse
        .communication s.created calls.yields
  | .registration =>
      ((s.opened .registration).subscribe s.created [.registration]).awaitResponse
        .registration s.created calls.yields

/-- The context after an attempt in which no call fails. -/
def succeeded (s : Context) (type : ConnType) (calls : Calls) : Context :=
  match type with
  | .communication =>
      { (s.answered .communication calls).allocateEventTopic.allocateHealthTopic with
        evtMqttcli := some s.created }
  | .registration =>
      { (s.answered .registration calls).setClient s.created
          { (s.answered .registration calls).client s.created with registered := true } with
        settings.updated := false
        regMqttcli := some s.created }

/-- How an attempt ends when the given call is the first that fails. -/
def exit (s : Context) (type : ConnType) (calls : Calls) : Option Call → Outcome
  | some .rateLimit => s.out none .mqttConnectFail
  | some .serialNumber => s.out none calls.serialNumber
  | some .mnid | some .userId | some .create => s.out none .none
  | some .token => s.out none calls.token
  | some .connect =>
      connected s.created calls type
        ((s.mqttCreate.resetStatus type).esMqttConnect s.created calls)
  | some .responseTimer => (s.opened type).out s.created .mqttConnectFail
  | some .topicfilter =>
      if type = .registration then .undefined else (s.opened type).out s.created .memAlloc
  | some .secondTopicfilter => (s.opened type).out s.created .memAlloc
  | some .subscribe => ((s.opened type).mqttDisconnect s.created).out s.created .badReq
  | some .response =>
      ((s.answered type calls).mqttDisconnect s.created).out s.created .mqttConnectFail
  | some .eventTopic =>
      ({ s.answered type calls with mqttEventTopic := none }.mqttDisconnect s.created).out
        s.created .memAlloc
  | some .healthTopic =>
      ({ (s.answered type calls).allocateEventTopic with mqttHealthTopic := none }.mqttDisconnect
        s.created).out s.created .memAlloc
  | some .registration =>
      ({ s.answered type calls with settings.updated := false }.mqttDisconnect s.created).out
        s.created calls.registration
  | none => (s.succeeded type calls).out s.created .none

section Exits

variable {s : Context} {calls : Calls}

theorem status_answered (s : Context) (type : ConnType) (calls : Calls) :
    (s.answered type calls).requestStatus type = finalAnswer .waiting calls.yields := by
  cases type with
  | communication => exact requestStatus_awaitResponse .communication s.created _ calls.yields
  | registration => exact requestStatus_awaitResponse .registration s.created _ calls.yields

theorem finishSignIn_eq (s : Context) (calls : Calls) :
    (s.answered .communication calls).finishSignIn s.created calls =
      s.exit .communication calls
        ([.response, .eventTopic, .healthTopic].find? (s.fails calls)) := by
  have status : (s.answered .communication calls).signInStatus =
    finalAnswer .waiting calls.yields := status_answered s .communication calls
  unfold finishSignIn
  by_cases unsigned : (s.answered .communication calls).signInStatus ≠ .success
  · rw [if_pos unsigned, List.find?_cons_of_pos (by simpa [fails, ← status] using unsigned)]
    rfl
  rw [if_neg unsigned, List.find?_cons_of_neg (by simpa [fails, ← status] using unsigned)]
  by_cases event : calls.eventTopic = false
  · rw [if_pos event, List.find?_cons_of_pos (by simp [fails, event])]
    rfl
  rw [if_neg event, List.find?_cons_of_neg (by simp [fails, event])]
  by_cases health : calls.healthTopic = false
  · rw [if_pos health, List.find?_cons_of_pos (by simp [fails, health])]
    rfl
  rw [if_neg health, List.find?_cons_of_neg (by simp [fails, health])]
  rfl

theorem communicate_eq (s : Context) (calls : Calls) :
    (s.opened .communication).communicate s.created calls =
      s.exit .communication calls ([.responseTimer, .topicfilter, .secondTopicfilter,
        .subscribe, .response, .eventTopic, .healthTopic].find? (s.fails calls)) := by
  unfold communicate
  by_cases timer : calls.responseTimer = false
  · rw [if_pos timer, List.find?_cons_of_pos (by simp [fails, timer])]
    rfl
  rw [if_neg timer, List.find?_cons_of_neg (by simp [fails, timer])]
  by_cases first : calls.topicfilter = false
  · rw [if_pos first, List.find?_cons_of_pos (by simp [fails, first])]
    rfl
  rw [if_neg first, List.find?_cons_of_neg (by simp [fails, first])]
  by_cases second : calls.secondTopicfilter = false
  · rw [if_pos second, List.find?_cons_of_pos (by simp [fails, second])]
    rfl
  rw [if_neg second, List.find?_cons_of_neg (by simp [fails, second])]
  by_cases unsubscribed : calls.subscribe = false
  · rw [if_pos unsubscribed, List.find?_cons_of_pos (by simp [fails, unsubscribed])]
    rfl
  rw [if_neg unsubscribed, List.find?_cons_of_neg (by simp [fails, unsubscribed])]
  exact finishSignIn_eq s calls

theorem finishSignUp_eq (s : Context) (calls : Calls) :
    (s.answered .registration calls).finishSignUp s.created calls =
      s.exit .registration calls ([.response, .registration].find? (s.fails calls)) := by
  have status : (s.answered .registration calls).signUpStatus =
    finalAnswer .waiting calls.yields := status_answered s .registration calls
  unfold finishSignUp
  by_cases unsigned : (s.answered .registration calls).signUpStatus ≠ .success
  · rw [if_pos unsigned, List.find?_cons_of_pos (by simpa [fails, ← status] using unsigned)]
    rfl
  rw [if_neg unsigned, List.find?_cons_of_neg (by simpa [fails, ← status] using unsigned)]
  by_cases refused : calls.registration ≠ .none
  · rw [if_pos refused, List.find?_cons_of_pos (by simpa [fails] using refused)]
    rfl
  rw [if_neg refused, List.find?_cons_of_neg (by simpa [fails] using refused)]
  rfl

theorem register_eq (s : Context) (calls : Calls) :
    (s.opened .registration).register s.created calls =
      s.exit .registration calls
        ([.responseTimer, .topicfilter, .subscribe, .response, .registration].find?
          (s.fails calls)) := by
  unfold register
  by_cases timer : calls.responseTimer = false
  · rw [if_pos timer, List.find?_cons_of_pos (by simp [fails, timer])]
    rfl
  rw [if_neg timer, List.find?_cons_of_neg (by simp [fails, timer])]
  by_cases filter : calls.topicfilter = false
  · rw [if_pos filter, List.find?_cons_of_pos (by simp [fails, filter])]
    rfl
  rw [if_neg filter, List.find?_cons_of_neg (by simp [fails, filter])]
  by_cases unsubscribed : calls.subscribe = false
  · rw [if_pos unsubscribed, List.find?_cons_of_pos (by simp [fails, unsubscribed])]
    rfl
  rw [if_neg unsubscribed, List.find?_cons_of_neg (by simp [fails, unsubscribed])]
  exact finishSignUp_eq s calls

/-- When no call up to the connection fails, the client has connected. -/
theorem esMqttConnect_eq (type : ConnType) (passes : s.fails calls .connect = false) :
    (s.mqttCreate.resetStatus type).esMqttConnect s.created calls =
      .returned .none (s.opened type) := by
  simp only [fails, decide_eq_false_iff_not, not_or, not_not] at passes
  obtain ⟨clientId, url, certificate, result⟩ := passes
  have client : (s.mqttCreate.resetStatus type).client s.created = {} := by
    cases type with
    | _ => simp [resetStatus, mqttCreate, setClient]
  have settings : (s.mqttCreate.resetStatus type).settings = s.settings := by
    cases type with
    | _ => rfl
  unfold esMqttConnect
  rw [if_neg (not_not.mpr clientId), settings, if_neg url, if_neg (not_not.mpr certificate), result]
  simp only [mqttConnectResult, opened, act, client]

theorem openClient_communication (s : Context) (calls : Calls) :
    s.openClient .communication calls =
      s.exit .communication calls ([.userId, .create, .connect, .responseTimer, .topicfilter,
        .secondTopicfilter, .subscribe, .response, .eventTopic, .healthTopic].find?
          (s.fails calls)) := by
  unfold openClient
  by_cases unknown : s.settings.updated = false
  · rw [if_pos ⟨rfl, unknown⟩, List.find?_cons_of_pos (by simp [fails, unknown])]
    rfl
  rw [if_neg (fun both => unknown both.2), List.find?_cons_of_neg (by simp [fails, unknown])]
  by_cases create : calls.create = false
  · rw [if_pos create, List.find?_cons_of_pos (by simp [fails, create])]
    rfl
  rw [if_neg create, List.find?_cons_of_neg (by simp [fails, create])]
  by_cases connect : s.fails calls .connect = true
  · rw [List.find?_cons_of_pos connect]
    rfl
  rw [List.find?_cons_of_neg connect, esMqttConnect_eq _ (Bool.not_eq_true _ ▸ connect)]
  exact communicate_eq s calls

theorem openClient_registration (s : Context) (calls : Calls) :
    s.openClient .registration calls =
      s.exit .registration calls ([.create, .connect, .responseTimer, .topicfilter,
        .subscribe, .response, .registration].find? (s.fails calls)) := by
  unfold openClient
  rw [if_neg (fun both => by cases both.1)]
  by_cases create : calls.create = false
  · rw [if_pos create, List.find?_cons_of_pos (by simp [fails, create])]
    rfl
  rw [if_neg create, List.find?_cons_of_neg (by simp [fails, create])]
  by_cases connect : s.fails calls .connect = true
  · rw [List.find?_cons_of_pos connect]
    rfl
  rw [List.find?_cons_of_neg connect, esMqttConnect_eq _ (Bool.not_eq_true _ ▸ connect)]
  exact register_eq s calls

/-- `iot_es_connect` leaves through the exit of the first call that fails. -/
theorem esConnect_eq (s : Context) (type : ConnType) (calls : Calls) :
    s.esConnect type calls = s.exit type calls (type.calls.find? (s.fails calls)) := by
  have order : type.calls = .rateLimit :: .serialNumber :: .mnid :: .token ::
      type.calls.drop 4 := by
    cases type with
    | communication => rfl
    | registration => rfl
  rw [order]
  unfold esConnect
  by_cases limited : s.settings.rateLimit = true
  · rw [if_pos limited, List.find?_cons_of_pos (by simp [fails, limited])]
    rfl
  rw [if_neg limited, List.find?_cons_of_neg (by simp [fails, limited])]
  by_cases serial : calls.serialNumber ≠ .none
  · rw [if_pos serial, List.find?_cons_of_pos (by simpa [fails] using serial)]
    rfl
  rw [if_neg serial, List.find?_cons_of_neg (by simpa [fails] using serial)]
  by_cases mnid : calls.mnid = false
  · rw [if_pos mnid, List.find?_cons_of_pos (by simp [fails, mnid])]
    rfl
  rw [if_neg mnid, List.find?_cons_of_neg (by simp [fails, mnid])]
  by_cases token : calls.token ≠ .none
  · rw [if_pos token, List.find?_cons_of_pos (by simpa [fails] using token)]
    rfl
  rw [if_neg token, List.find?_cons_of_neg (by simpa [fails] using token)]
  cases type with
  | communication => exact openClient_communication s calls
  | registration => exact openClient_registration s calls

end Exits

/-- The context while an attempt that started in `s` has its client. -/
structure Attempt (s t : Context) : Prop where
  frame : Frame s.created s t
  evt : t.evtMqttcli = s.evtMqttcli
  reg : t.regMqttcli = s.regMqttcli
  created : t.created = s.created + 1
  alive : (t.client s.created).destroyed = false
  acted : t.acted = s.acted ∨ t.acted = (s.origin, s.epoch) :: s.acted

/-- The topics are as before. -/
def SameTopics (s t : Context) : Prop :=
  t.mqttEventTopic = s.mqttEventTopic ∧ t.mqttHealthTopic = s.mqttHealthTopic

namespace Attempt

variable {s t u : Context}

theorem setClient (h : Attempt s t) {x : MqttClient}
    (alive : x.destroyed = (t.client s.created).destroyed) :
    Attempt s (t.setClient s.created x) where
  frame := h.frame.trans (.setClient _ _ _)
  evt := h.evt
  reg := h.reg
  created := h.created
  alive := by simpa [Context.setClient] using alive.trans h.alive
  acted := h.acted

theorem mqttDisconnect (h : Attempt s t) : Attempt s (t.mqttDisconnect s.created) :=
  h.setClient rfl

theorem kept (h : Attempt s t) (kept : Kept s.created t u) : Attempt s u where
  frame := h.frame.trans kept.frame
  evt := kept.evt.trans h.evt
  reg := kept.reg.trans h.reg
  created := kept.created.trans h.created
  alive := kept.destroyed.trans h.alive
  acted := kept.acted ▸ h.acted

/-- The topics of an attempt and the registration flag may change. -/
theorem retopic (h : Attempt s t) (event health : Option Nat) (updated : Bool) :
    Attempt s { t with
      mqttEventTopic := event
      mqttHealthTopic := health
      settings.updated := updated } :=
  ⟨{ h.frame with }, h.evt, h.reg, h.created, h.alive, h.acted⟩

theorem mqttCreate (s : Context) (type : ConnType) :
    Attempt s (s.mqttCreate.resetStatus type) := by
  have alive : ((s.mqttCreate.resetStatus type).client s.created).destroyed = false := by
    cases type with
    | _ => simp [resetStatus, Context.mqttCreate, Context.setClient]
  cases type with
  | _ => exact ⟨{ Frame.setClient s.created s {} with }, rfl, rfl, rfl, alive, .inl rfl⟩

/-- `st_mqtt_connect` is called, and the rejections are counted. -/
theorem connecting (s : Context) (type : ConnType) (count : Nat) :
    Attempt s { (s.mqttCreate.resetStatus type).act with criticalRejectCount := count } := by
  have h := mqttCreate s type
  refine ⟨{ h.frame with }, h.evt, h.reg, h.created, h.alive, ?_⟩
  cases type with
  | _ => exact .inr rfl

theorem opened (s : Context) (type : ConnType) : Attempt s (s.opened type) :=
  (connecting s type 0).setClient (connecting s type 0).alive.symm

theorem answered (s : Context) (type : ConnType) (calls : Calls) :
    Attempt s (s.answered type calls) := by
  cases type with
  | communication =>
      have subscribed : Attempt s ((s.opened .communication).subscribe s.created
        [.notification, .command]) := (opened s _).setClient rfl
      exact subscribed.kept (.awaitResponse _ _ _ _)
  | registration =>
      have subscribed : Attempt s ((s.opened .registration).subscribe s.created
        [.registration]) := (opened s _).setClient rfl
      exact subscribed.kept (.awaitResponse _ _ _ _)

end Attempt

theorem frame_succeeded (s : Context) (type : ConnType) (calls : Calls) :
    Frame s.created s (s.succeeded type calls) := by
  have frame := (Attempt.answered s type calls).frame
  cases type with
  | communication => exact { frame with }
  | registration => exact { frame.trans (.setClient s.created _ _) with }

theorem queue_succeeded (s : Context) (type : ConnType) (calls : Calls) :
    (s.succeeded type calls).queue = (s.answered type calls).queue := by
  cases type with
  | communication => rfl
  | registration => rfl

theorem SameTopics.setClient {s t : Context} (h : SameTopics s t) (c : Nat) (x : MqttClient) :
    SameTopics s (t.setClient c x) := ⟨h.1, h.2⟩

theorem SameTopics.kept {s t u : Context} {c : Nat} (h : SameTopics s t) (kept : Kept c t u) :
    SameTopics s u := ⟨kept.eventTopic.trans h.1, kept.healthTopic.trans h.2⟩

theorem sameTopics_mqttCreate (s : Context) (type : ConnType) :
    SameTopics s (s.mqttCreate.resetStatus type) := by
  cases type with
  | _ => exact ⟨rfl, rfl⟩

theorem sameTopics_connecting (s : Context) (type : ConnType) (count : Nat) :
    SameTopics s { (s.mqttCreate.resetStatus type).act with criticalRejectCount := count } :=
  ⟨(sameTopics_mqttCreate s type).1, (sameTopics_mqttCreate s type).2⟩

theorem sameTopics_opened (s : Context) (type : ConnType) : SameTopics s (s.opened type) :=
  (sameTopics_connecting s type 0).setClient s.created _

theorem sameTopics_answered (s : Context) (type : ConnType) (calls : Calls) :
    SameTopics s (s.answered type calls) := by
  cases type with
  | communication =>
      exact ((sameTopics_opened s _).setClient s.created _).kept (.awaitResponse _ _ _ _)
  | registration =>
      exact ((sameTopics_opened s _).setClient s.created _).kept (.awaitResponse _ _ _ _)

theorem queue_mqttCreate (s : Context) (type : ConnType) :
    (s.mqttCreate.resetStatus type).queue = s.queue := by
  cases type with
  | _ => rfl

theorem queue_opened (s : Context) (type : ConnType) : (s.opened type).queue = s.queue := by
  have connecting : { (s.mqttCreate.resetStatus type).act with
    criticalRejectCount := 0 }.queue = s.queue := queue_mqttCreate s type
  exact connecting

theorem settings_mqttCreate (s : Context) (type : ConnType) :
    (s.mqttCreate.resetStatus type).settings = s.settings := by
  cases type with
  | _ => rfl

theorem settings_opened (s : Context) (type : ConnType) :
    (s.opened type).settings = s.settings := by
  have connecting : { (s.mqttCreate.resetStatus type).act with
    criticalRejectCount := 0 }.settings = s.settings := settings_mqttCreate s type
  exact connecting

/-- A failed `_iot_es_mqtt_connect` reboots or returns its error. -/
theorem esMqttConnect_fails {s : Context} {calls : Calls} (type : ConnType)
    (failed : s.fails calls .connect = true) :
    ((s.mqttCreate.resetStatus type).esMqttConnect s.created calls = .rebooted ∧
      s.mqttConnectError calls = none) ∨
    ∃ error t, error ≠ .none ∧ s.mqttConnectError calls = some error ∧
      (s.mqttCreate.resetStatus type).esMqttConnect s.created calls = .returned error t ∧
      Attempt s t ∧ SameTopics s t ∧ t.queue = s.queue := by
  have topics := sameTopics_mqttCreate s type
  have queue := queue_mqttCreate s type
  have settings := settings_mqttCreate s type
  have count : (s.mqttCreate.resetStatus type).act.criticalRejectCount =
      s.criticalRejectCount := by
    cases type with
    | _ => rfl
  have created := Attempt.mqttCreate s type
  unfold esMqttConnect mqttConnectError
  rw [settings]
  by_cases clientId : calls.clientId ≠ .none
  · rw [if_pos clientId, if_pos clientId]
    exact .inr ⟨_, _, clientId, rfl, rfl, created, topics, queue⟩
  rw [if_neg clientId, if_neg clientId]
  by_cases url : s.settings.brokerUrl = false
  · rw [if_pos url, if_pos url]
    exact .inr ⟨_, _, by simp, rfl, rfl, created, topics, queue⟩
  rw [if_neg url, if_neg url]
  by_cases certificate : calls.certificate ≠ .none
  · rw [if_pos certificate, if_pos certificate]
    exact .inr ⟨_, _, certificate, rfl, rfl, created, topics, queue⟩
  rw [if_neg certificate, if_neg certificate]
  cases result : calls.mqttConnect with
  | success =>
      rw [not_not] at clientId certificate
      simp [fails, clientId, url, certificate, result] at failed
  | unacceptableProtocol | serverUnavailable | packetTimeout | other =>
      exact .inr ⟨_, _, by simp, rfl, rfl, .connecting s type 0, sameTopics_connecting s type 0,
        queue⟩
  | clientidRejected | badUsernameOrPassword | notAuthorized =>
      simp only [mqttConnectResult, count]
      by_cases few : s.criticalRejectCount < criticalRejectMax
      · rw [if_pos few, if_pos few]
        exact .inr ⟨_, _, by simp, rfl, rfl, .connecting s type _, sameTopics_connecting s type _,
          queue⟩
      · rw [if_neg few, if_neg few]
        exact .inl ⟨rfl, rfl⟩

/-- The context after an attempt that leaves no connection. -/
structure Ended (s t : Context) : Prop where
  frame : Frame s.created s t
  evt : t.evtMqttcli = s.evtMqttcli
  reg : t.regMqttcli = s.regMqttcli
  created : s.created ≤ t.created
  gone : ∀ c, s.created ≤ c → c < t.created → (t.client c).destroyed = true
  acted : t.acted = s.acted ∨ t.acted = (s.origin, s.epoch) :: s.acted

theorem Ended.refl (s : Context) : Ended s s :=
  ⟨.refl _ s, rfl, rfl, Nat.le_refl _, fun _ low high => absurd high (Nat.not_lt.mpr low), .inl rfl⟩

/-- The client of an attempt is destroyed. -/
theorem Attempt.ended {s t : Context} (h : Attempt s t) : Ended s (t.mqttDestroy s.created) where
  frame := h.frame.trans (.setClient s.created t _)
  evt := h.evt
  reg := h.reg
  created := h.created ▸ Nat.le_succ _
  gone := by
    intro c low high
    have below : c < t.created := high
    rw [h.created] at below
    have only : c = s.created := by omega
    rw [only]
    simp [mqttDestroy, Context.setClient]
  acted := h.acted

theorem out_error (t : Context) (c : Nat) {error : IotError} (isError : error ≠ .none) :
    t.out (some c) error = .returned error (t.mqttDestroy c) := by
  cases error with
  | none => exact absurd rfl isError
  | _ => rfl

theorem out_early (s : Context) (error : IotError) : s.out none error = .returned error s := by
  cases error with
  | _ => rfl

/-- A fresh topic is not the one the context has. -/
theorem freshTopic_ne (t : Context) : t.mqttEventTopic ≠ some t.freshTopic := by
  intro same
  have value : t.freshTopic =
    t.mqttEventTopic.elim 0 Nat.succ + t.mqttHealthTopic.elim 0 Nat.succ := rfl
  rw [same, Option.elim_some] at value
  omega

/-- The context whose queue an attempt leaves when the call is its first failure. -/
def reached (s : Context) (type : ConnType) (calls : Calls) (call : Call) : Context :=
  if call.afterResponse then s.answered type calls else s

/-- What the topics are after an attempt whose first failure is the call. -/
def TopicsAfter (s t : Context) : Call → Prop
  | .eventTopic => t.mqttEventTopic = none ∧ t.mqttHealthTopic = s.mqttHealthTopic
  | .healthTopic => t.mqttEventTopic ≠ s.mqttEventTopic
  | _ => SameTopics s t

/-- An attempt in which a call fails ends with the error of the call, or does not
return. -/
theorem exit_some {s : Context} {calls : Calls} {call : Call} (type : ConnType)
    (failed : s.fails calls call = true) :
    (s.callError type calls call = none ∧
      (call = .connect ∧ s.exit type calls (some call) = .rebooted ∨
        call = .topicfilter ∧ type = .registration ∧
          s.exit type calls (some call) = .undefined)) ∨
    ∃ error t, s.callError type calls call = some error ∧ (error ≠ .none ↔ call.setsError) ∧
      s.exit type calls (some call) = .returned error t ∧ Ended s t ∧ TopicsAfter s t call ∧
      t.queue = (s.reached type calls call).queue := by
  have opened := Attempt.opened s type
  have answered := Attempt.answered s type calls
  have topics := sameTopics_opened s type
  have topics' := sameTopics_answered s type calls
  cases call with
  | rateLimit | mnid | userId | create =>
      exact .inr ⟨_, s, rfl, by simp [Call.setsError], rfl, .refl s, ⟨rfl, rfl⟩, rfl⟩
  | serialNumber | token =>
      refine .inr ⟨_, s, rfl, ?_, out_early s _, .refl s, ⟨rfl, rfl⟩, rfl⟩
      simpa [fails, Call.setsError] using failed
  | connect =>
      obtain ⟨rebooted, error⟩ | ⟨error, t, isError, known, returned, attempt, same, queue⟩ :=
        esMqttConnect_fails type failed
      · exact .inl ⟨error, .inl ⟨rfl, by rw [exit, rebooted]; rfl⟩⟩
      · refine .inr ⟨error, t.mqttDestroy s.created, known, by simpa [Call.setsError] using isError,
          ?_, attempt.ended, same, queue⟩
        rw [exit, returned, ← out_error t s.created isError]
        cases error with
        | none => exact absurd rfl isError
        | _ => rfl
  | responseTimer | secondTopicfilter =>
      exact .inr ⟨_, _, rfl, by simp [Call.setsError], rfl, opened.ended, topics,
        queue_opened s type⟩
  | topicfilter =>
      cases type with
      | communication => exact .inr ⟨_, _, rfl, by simp [Call.setsError], rfl, opened.ended, topics,
        queue_opened s _⟩
      | registration => exact .inl ⟨rfl, .inr ⟨rfl, rfl, rfl⟩⟩
  | subscribe =>
      exact .inr ⟨_, _, rfl, by simp [Call.setsError], rfl, opened.mqttDisconnect.ended, topics,
        queue_opened s type⟩
  | response =>
      exact .inr ⟨_, _, rfl, by simp [Call.setsError], rfl, answered.mqttDisconnect.ended, topics',
        rfl⟩
  | eventTopic =>
      exact .inr ⟨_, _, rfl, by simp [Call.setsError], rfl,
        (answered.retopic none _ _).mqttDisconnect.ended, ⟨rfl, topics'.2⟩, rfl⟩
  | healthTopic =>
      refine .inr ⟨_, _, rfl, by simp [Call.setsError], rfl,
        (answered.retopic _ none _).mqttDisconnect.ended, ?_, rfl⟩
      intro same
      exact freshTopic_ne _ (topics'.1.trans same.symm)
  | registration =>
      have refused : calls.registration ≠ .none := by simpa [fails] using failed
      exact .inr ⟨_, _, rfl, by simpa [Call.setsError] using refused, out_error _ _ refused,
        (answered.retopic _ _ _).mqttDisconnect.ended, topics', rfl⟩

/-- How an attempt that returns ends: without a failure, or at the first one. -/
theorem returned_cases {s t : Context} {type : ConnType} {calls : Calls} {error : IotError}
    (returned : s.esConnect type calls = .returned error t) :
    (type.calls.find? (s.fails calls) = none ∧ error = .none ∧ t = s.succeeded type calls) ∨
    ∃ call, type.calls.find? (s.fails calls) = some call ∧
      s.callError type calls call = some error ∧ (error ≠ .none ↔ call.setsError = true) ∧
      Ended s t ∧ t.queue = (s.reached type calls call).queue := by
  rw [esConnect_eq] at returned
  cases first : type.calls.find? (s.fails calls) with
  | none =>
      rw [first] at returned
      obtain ⟨rfl, rfl⟩ := Outcome.returned.inj returned
      exact .inl ⟨rfl, rfl, rfl⟩
  | some call =>
      rw [first] at returned
      obtain ⟨-, ⟨-, other⟩ | ⟨-, -, other⟩⟩ |
        ⟨error', t', known, sets, returned', ended, -, queue⟩ :=
          exit_some type (List.find?_some first)
      · rw [other] at returned
        cases returned
      · rw [other] at returned
        cases returned
      · rw [returned'] at returned
        obtain ⟨rfl, rfl⟩ := Outcome.returned.inj returned
        exact .inr ⟨call, rfl, known, sets, ended, queue⟩

theorem connectError_of_returned {s t : Context} {type : ConnType} {calls : Calls}
    {error : IotError} (returned : s.esConnect type calls = .returned error t) :
    s.connectError type calls = some error := by
  unfold connectError
  obtain ⟨first, rfl, -⟩ | ⟨call, first, known, -⟩ := returned_cases returned
  · rw [first]
  · rw [first]
    exact known

/-- An attempt that reboots has no error to return. -/
theorem connectError_of_rebooted {s : Context} {type : ConnType} {calls : Calls}
    (rebooted : s.esConnect type calls = .rebooted) : s.connectError type calls = none := by
  rw [esConnect_eq] at rebooted
  unfold connectError
  cases first : type.calls.find? (s.fails calls) with
  | none =>
      rw [first] at rebooted
      cases rebooted
  | some call =>
      rw [first] at rebooted
      obtain ⟨known, -⟩ | ⟨error, t, -, -, returned, -⟩ := exit_some type (List.find?_some first)
      · exact known
      · rw [returned] at rebooted
        cases rebooted

end Context

end StDevice.Main
