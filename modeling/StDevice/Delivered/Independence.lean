import StDevice.Delivered.Memory

/-!
# Handling a message depends on the message only

Two placements of one message are told apart exactly when a text runs past its end into
what can still be seen. Every handler of a payload first writes a line with the document
that the library has read, so two runs that end alike have read the same document.
The proofs compare first lines; they need nothing of what the handlers do afterwards.
-/

namespace StDevice.Delivered

open CString Effect Main

/-- The function that wrote a line. -/
def Output.func : Output → Option String
  | .log line => some line.func
  | _ => none

/-- The first line of a handler: the document, or that there is none. -/
def documentLine (func failure shown : String) : Option Json → Output
  | none => .log ⟨.error, func, failure, []⟩
  | some json => .log ⟨.info, func, shown, [.json json]⟩

@[simp] theorem documentLine_func (func failure shown : String) (read : Option Json) :
    (documentLine func failure shown read).func = some func := by
  cases read with
  | none => rfl
  | some json => rfl

theorem documentLine_inj {func failure shown : String} {read read' : Option Json}
    (same : documentLine func failure shown read = documentLine func failure shown read') :
    read = read' := by
  cases read with
  | none =>
      cases read' with
      | none => rfl
      | some json => simp [documentLine] at same
  | some json =>
      cases read' with
      | none => simp [documentLine] at same
      | some json' => simpa [documentLine] using same

section Lines

variable (p : Platform) {d : Device} {x y : List UInt8}

theorem checkConnectionResponse_opens (payload : List UInt8) (d : Device) :
    (checkConnectionResponse p payload).Opens d
      (documentLine "_check_connection_response" "Response payload parsing failed"
        "Connection response payload %s" (p.parse (cstr payload))) := by
  unfold checkConnectionResponse
  cases p.parse (cstr payload) with
  | none => exact (Action.opens_emit _ d).bind _
  | some json => exact (Action.opens_emit _ d).bind _

theorem iotParseNotiData_opens (text : List UInt8) (d : Device) :
    (iotParseNotiData p text).Opens d
      (documentLine "_iot_parse_noti_data" "Cannot parse by json" "payload : %s"
        (p.parse text)) := by
  unfold iotParseNotiData
  cases p.parse text with
  | none => exact (Action.opens_emit _ d).bind _
  | some json => exact (Action.opens_emit _ d).bind _

theorem iotNotiSubCb_opens (text : List UInt8) (d : Device) :
    (iotNotiSubCb p text).Opens d
      (documentLine "_iot_parse_noti_data" "Cannot parse by json" "payload : %s"
        (p.parse text)) :=
  (iotParseNotiData_opens p text d).bind _

theorem iotCapCommandsCb_opens (text : List UInt8) (d : Device) :
    (iotCapCommandsCb p text).Opens d
      (documentLine "iot_cap_commands_cb" "Cannot parse by json" "command : %s"
        (p.parse text)) := by
  unfold iotCapCommandsCb
  cases p.parse text with
  | none => exact Action.opens_emit _ d
  | some json => exact (Action.opens_emit _ d).bind _

theorem iotCapSubCb_nil {handles : List CapHandle} (none : handles = []) (text : List UInt8) :
    iotCapSubCb p handles text =
      log .error "iot_cap_sub_cb" "There is no cap_handle_list or payload" [] := by
  unfold iotCapSubCb
  rw [if_pos none]

theorem iotCapSubCb_opens {handles : List CapHandle} (some : handles ≠ []) (text : List UInt8)
    (d : Device) :
    (iotCapSubCb p handles text).Opens d
      (documentLine "iot_cap_sub_cb" "Cannot parse by json" "command : %s" (p.parse text)) := by
  unfold iotCapSubCb
  rw [if_neg some]
  cases p.parse text with
  | none => exact Action.opens_emit _ d
  | some json => exact (Action.opens_emit _ d).bind _

/-- Both handlers of a command, whichever of them shows the document first. -/
theorem parse_eq_of_commands {handles : List CapHandle} {s : Device}
    (same : (do iotCapSubCb p handles x; iotCapCommandsCb p x) s =
      (do iotCapSubCb p handles y; iotCapCommandsCb p y) s) :
    p.parse x = p.parse y := by
  by_cases none : handles = []
  · rw [iotCapSubCb_nil p none, iotCapSubCb_nil p none] at same
    exact documentLine_inj <| (iotCapCommandsCb_opens p x s).inj (iotCapCommandsCb_opens p y s)
      (Outcome.after_inj same)
  · exact documentLine_inj <| ((iotCapSubCb_opens p none x s).bind _).inj
      ((iotCapSubCb_opens p none y s).bind _) same

theorem commands_opens (handles : List CapHandle) (text : List UInt8) (d : Device) :
    ∃ output, (do iotCapSubCb p handles text; iotCapCommandsCb p text : Act Unit).Opens d output ∧
      output.func = some "iot_cap_sub_cb" := by
  by_cases none : handles = []
  · rw [iotCapSubCb_nil p none]
    exact ⟨_, (Action.opens_emit _ d).bind _, rfl⟩
  · exact ⟨_, (iotCapSubCb_opens p none text d).bind _, documentLine_func _ _ _ _⟩

end Lines

section Texts

variable {p : Platform} {topic payload : List UInt8}

/-- The library reads the same document whatever follows the payload. -/
def Settled (p : Platform) (payload : List UInt8) : Prop :=
  0 ∈ payload ∨ ∀ more, 0 ∉ more → p.parse (payload ++ more) = p.parse payload

private theorem cstr_nul : cstr [0] = [] := rfl

theorem text_nul (goesOn : 0 ∉ payload) : cstr (payload ++ [0]) = payload := by
  rw [cstr_append_of_notMem goesOn, cstr_nul, List.append_nil]

theorem Settled.parse_eq (settled : Settled p payload) (goesOn : 0 ∉ payload) (a : Placement) :
    p.parse (cstr (payload ++ a.after)) = p.parse payload := by
  rw [cstr_append_of_notMem goesOn]
  exact settled.resolve_left goesOn _ (notMem_cstr _)

theorem settled_iff : Settled p payload ↔ ∀ a b : Placement,
    p.parse (cstr (payload ++ a.after)) = p.parse (cstr (payload ++ b.after)) := by
  by_cases ends : 0 ∈ payload
  · refine iff_of_true (.inl ends) fun a b => ?_
    rw [cstr_append_of_mem ends, cstr_append_of_mem ends]
  · constructor
    · intro settled a b
      exact (settled.parse_eq ends a).trans (settled.parse_eq ends b).symm
    · intro same
      refine .inr fun more plain => ?_
      have nul : (0 : UInt8) ∈ more ++ [0] := List.mem_append_right more (List.mem_singleton_self 0)
      have agree := same (.bare (more ++ [0]) nul) (.bare [0] (List.mem_singleton_self 0))
      simp only [Placement.bare] at agree
      rwa [text_nul ends, ← List.append_assoc, text_nul] at agree
      simpa using ⟨ends, plain⟩

/-- The text of the payload is the same in every placement when it ends inside. -/
theorem payloadText_iff : 0 ∈ payload ↔ ∀ a b : Placement,
    cstr (payload ++ a.after) = cstr (payload ++ b.after) := by
  by_cases ends : 0 ∈ payload
  · refine iff_of_true ends fun a b => ?_
    rw [cstr_append_of_mem ends, cstr_append_of_mem ends]
  · refine iff_of_false ends fun same => ?_
    have agree := same (.bare [1, 0] (by decide)) (.bare [0] (List.mem_singleton_self 0))
    simp only [Placement.bare] at agree
    rw [text_nul ends, cstr_append_of_notMem ends] at agree
    exact absurd (List.append_right_eq_self.mp agree) (by decide)

/-- The text of the topic is the same in every placement when it ends inside. -/
theorem topicText_iff (payload : List UInt8) : 0 ∈ topic ↔ ∀ a b : Placement,
    cstr (a.msg topic payload).topic = cstr (b.msg topic payload).topic := by
  by_cases ends : 0 ∈ topic
  · refine iff_of_true ends fun a b => ?_
    simp only [Placement.msg]
    rw [cstr_append_of_mem ends, cstr_append_of_mem ends]
  · refine iff_of_false ends fun same => ?_
    have agree := same (.withId 1 1 [0] (List.mem_singleton_self 0))
      (.withId 2 2 [0] (List.mem_singleton_self 0))
    simp only [Placement.msg, Placement.withId] at agree
    rw [cstr_append_of_notMem ends, cstr_append_of_notMem ends, List.append_cancel_left_eq] at agree
    have heads := congrArg List.head? agree
    exact absurd heads (by simp [cstr])

end Texts

section Congruence

variable {p : Platform} {x y : List UInt8}

theorem checkConnectionResponse_congr (same : p.parse (cstr x) = p.parse (cstr y)) :
    checkConnectionResponse p x = checkConnectionResponse p y := by
  unfold checkConnectionResponse
  rw [same]

theorem iotCapSubCb_congr (handles : List CapHandle) (same : p.parse x = p.parse y) :
    iotCapSubCb p handles x = iotCapSubCb p handles y := by
  unfold iotCapSubCb
  rw [same]

theorem iotCapCommandsCb_congr (same : p.parse x = p.parse y) :
    iotCapCommandsCb p x = iotCapCommandsCb p y := by
  unfold iotCapCommandsCb
  rw [same]

theorem iotNotiSubCb_congr (same : p.parse x = p.parse y) :
    iotNotiSubCb p x = iotNotiSubCb p y := by
  unfold iotNotiSubCb iotParseNotiData
  rw [same]

end Congruence

section Signin

variable (p : Platform) (handles : List CapHandle) {md : Msg} {d : Device}

theorem signinHandler_command (starts : commandPrefix <+: md.topic) :
    signinHandler p handles md =
      (do iotCapSubCb p handles (cstr md.payload); iotCapCommandsCb p (cstr md.payload)) := by
  unfold signinHandler
  rw [if_pos ((strncmp_eq_zero_iff (by decide) _).mpr starts)]

theorem signinHandler_notification (differs : ¬ commandPrefix <+: md.topic)
    (starts : notificationPrefix <+: md.topic) :
    signinHandler p handles md = iotNotiSubCb p (cstr md.payload) := by
  unfold signinHandler
  rw [if_neg (mt (strncmp_eq_zero_iff (by decide) _).mp differs),
    if_pos ((strncmp_eq_zero_iff (by decide) _).mpr starts)]

theorem signinHandler_other (differs : ¬ commandPrefix <+: md.topic)
    (differs' : ¬ notificationPrefix <+: md.topic) :
    signinHandler p handles md =
      log .warn "_iot_mqtt_signin_client_callback" "No msg delivery handler for %s"
        [.text (cstr md.topic)] := by
  unfold signinHandler
  rw [if_neg (mt (strncmp_eq_zero_iff (by decide) _).mp differs),
    if_neg (mt (strncmp_eq_zero_iff (by decide) _).mp differs')]

/-- The function whose line comes first tells which handler the topic has chosen. -/
theorem signinHandler_opens (md : Msg) (d : Device) :
    ∃ output, (signinHandler p handles md).Opens d output ∧
      output.func = some (if commandPrefix <+: md.topic then "iot_cap_sub_cb"
        else if notificationPrefix <+: md.topic then "_iot_parse_noti_data"
        else "_iot_mqtt_signin_client_callback") := by
  by_cases command : commandPrefix <+: md.topic
  · rw [signinHandler_command p handles command, if_pos command]
    exact commands_opens p handles _ d
  rw [if_neg command]
  by_cases notification : notificationPrefix <+: md.topic
  · rw [signinHandler_notification p handles command notification, if_pos notification]
    exact ⟨_, iotNotiSubCb_opens p _ d, documentLine_func _ _ _ _⟩
  · rw [signinHandler_other p handles command notification, if_neg notification]
    exact ⟨_, Action.opens_emit _ d, rfl⟩

theorem signin_route {md md' : Msg}
    (same : signinHandler p handles md d = signinHandler p handles md' d) :
    (commandPrefix <+: md.topic ↔ commandPrefix <+: md'.topic) ∧
    (¬ commandPrefix <+: md.topic →
      (notificationPrefix <+: md.topic ↔ notificationPrefix <+: md'.topic)) := by
  obtain ⟨output, opens, func⟩ := signinHandler_opens p handles md d
  obtain ⟨output', opens', func'⟩ := signinHandler_opens p handles md' d
  obtain rfl := opens.inj opens' same
  have route := Option.some.inj (func.symm.trans func')
  by_cases command : commandPrefix <+: md.topic
  · by_cases command' : commandPrefix <+: md'.topic
    · exact ⟨iff_of_true command command', fun differs => absurd command differs⟩
    · rw [if_pos command, if_neg command'] at route
      split at route
      · exact absurd route (by decide)
      · exact absurd route (by decide)
  · rw [if_neg command] at route
    by_cases command' : commandPrefix <+: md'.topic
    · rw [if_pos command'] at route
      split at route
      · exact absurd route (by decide)
      · exact absurd route (by decide)
    · rw [if_neg command'] at route
      refine ⟨iff_of_false command command', fun _ => ?_⟩
      by_cases notification : notificationPrefix <+: md.topic
      · by_cases notification' : notificationPrefix <+: md'.topic
        · exact iff_of_true notification notification'
        · rw [if_pos notification, if_neg notification'] at route
          exact absurd route (by decide)
      · by_cases notification' : notificationPrefix <+: md'.topic
        · rw [if_neg notification, if_pos notification'] at route
          exact absurd route (by decide)
        · exact iff_of_false notification notification'

/-- What the sign-in handlers need: the topic chooses the handler by itself, the payload
settles what a handler reads, and a topic that no handler takes is shown up to its NUL. -/
def SigninHolds (p : Platform) (topic payload : List UInt8) : Prop :=
  commandPrefix <+: topic ∧ Settled p payload ∨
  Refused commandPrefix topic payload ∧
    (notificationPrefix <+: topic ∧ Settled p payload ∨
      Refused notificationPrefix topic payload ∧ 0 ∈ topic)

variable {topic payload : List UInt8}

theorem signinHandler_iff :
    (∀ a b : Placement, signinHandler p handles (a.msg topic payload) d =
      signinHandler p handles (b.msg topic payload) d) ↔ SigninHolds p topic payload := by
  constructor
  · intro same
    by_cases command : commandPrefix <+: topic
    · refine .inl ⟨command, settled_iff.mpr fun a b => ?_⟩
      have equal := same a b
      rw [signinHandler_command p handles (a.starts payload command),
        signinHandler_command p handles (b.starts payload command)] at equal
      exact parse_eq_of_commands p equal
    have refused : Refused commandPrefix topic payload := refused_iff.mpr fun a starts =>
      command <| prefix_of_starts (by decide) fun b =>
        (signin_route p handles (same a b)).1.mp starts
    have differs := refused_iff.mp refused
    refine .inr ⟨refused, ?_⟩
    by_cases notification : notificationPrefix <+: topic
    · refine .inl ⟨notification, settled_iff.mpr fun a b => ?_⟩
      have equal := same a b
      rw [signinHandler_notification p handles (differs a) (a.starts payload notification),
        signinHandler_notification p handles (differs b) (b.starts payload notification)] at equal
      exact documentLine_inj <| (iotNotiSubCb_opens p _ d).inj (iotNotiSubCb_opens p _ d) equal
    have refused' : Refused notificationPrefix topic payload := refused_iff.mpr fun a starts =>
      notification <| prefix_of_starts (by decide) fun b =>
        ((signin_route p handles (same a b)).2 (differs a)).mp starts
    have differs' := refused_iff.mp refused'
    refine .inr ⟨refused', (topicText_iff payload).mpr fun a b => ?_⟩
    have equal := same a b
    rw [signinHandler_other p handles (differs a) (differs' a),
      signinHandler_other p handles (differs b) (differs' b)] at equal
    have line := (Action.opens_emit _ d).inj (Action.opens_emit _ d) equal
    simpa using line
  · rintro (⟨command, settled⟩ | ⟨refused, ⟨notification, settled⟩ | ⟨refused', ends⟩⟩) a b
    · have read := settled_iff.mp settled a b
      rw [signinHandler_command p handles (a.starts payload command),
        signinHandler_command p handles (b.starts payload command)]
      exact congrFun (congrArg₂ (fun m n : Act Unit => m >>= fun _ => n)
        (iotCapSubCb_congr handles read) (iotCapCommandsCb_congr read)) d
    · have differs := refused_iff.mp refused
      rw [signinHandler_notification p handles (differs a) (a.starts payload notification),
        signinHandler_notification p handles (differs b) (b.starts payload notification)]
      exact congrFun (iotNotiSubCb_congr (settled_iff.mp settled a b)) d
    · have differs := refused_iff.mp refused
      have differs' := refused_iff.mp refused'
      rw [signinHandler_other p handles (differs a) (differs' a),
        signinHandler_other p handles (differs b) (differs' b), (topicText_iff payload).mp ends a b]

end Signin

section Returning

variable (p : Platform)

theorem returns_log (level : Level) (func format : String) (args : List Arg) :
    (log level func format args).Returns :=
  Action.returns_emit _

theorem returns_attempt : (attempt p).Returns :=
  Action.returns_get.bind fun _ => (Action.returns_modify _).bind fun _ => Action.returns_pure _

theorem returns_iotCommandSend (command : Command) (noti : Option NotiData) :
    (iotCommandSend p command noti).Returns := by
  refine (returns_attempt p).bind fun sent => ?_
  cases sent with
  | false => exact Action.returns_pure _
  | true => exact (Action.returns_emit _).bind fun _ => Action.returns_pure _

theorem returns_setSntp (func : String) (valueint : Int) : (setSntp func valueint).Returns :=
  (returns_log _ _ _ _).bind fun _ => Action.returns_emit _

theorem returns_iotUtilConvertStrUuid (str : Option (List UInt8)) :
    (iotUtilConvertStrUuid str).Returns := by
  cases str with
  | none => exact (returns_log _ _ _ _).bind fun _ => Action.returns_pure _
  | some str =>
      rw [iotUtilConvertStrUuid]
      split
      · exact Action.returns_pure _
      · exact (returns_log _ _ _ _).bind fun _ => Action.returns_pure _

theorem returns_updateDip (dipKey : Json) : (updateDip p dipKey).Returns := by
  refine (returns_attempt p).bind fun allocated => ?_
  cases allocated with
  | false => exact (returns_log _ _ _ _).bind fun _ => Action.returns_pure _
  | true =>
      cases dipKey.getObjectItem "id" with
      | none => exact (returns_log _ _ _ _).bind fun _ => Action.returns_pure _
      | some id =>
          refine (returns_iotUtilConvertStrUuid _).bind fun uuid => ?_
          cases uuid with
          | none => exact (returns_log _ _ _ _).bind fun _ => Action.returns_pure _
          | some dipId =>
              cases dipKey.getObjectItem "majorVersion" with
              | none => exact (returns_log _ _ _ _).bind fun _ => Action.returns_pure _
              | some major =>
                  exact (Action.returns_modify _).bind fun _ => Action.returns_pure _

theorem returns_updateLocation (item : Json) : (updateLocation p item).Returns := by
  refine (returns_attempt p).bind fun allocated => ?_
  cases allocated with
  | false => exact (returns_log _ _ _ _).bind fun _ => Action.returns_pure _
  | true =>
      refine (returns_iotUtilConvertStrUuid _).bind fun uuid => ?_
      cases uuid with
      | none => exact (returns_log _ _ _ _).bind fun _ => Action.returns_pure _
      | some location => exact (Action.returns_modify _).bind fun _ => Action.returns_pure _

theorem returns_updateDeviceId (json : Json) : (updateDeviceId p json).Returns := by
  refine Action.returns_get.bind fun d => ?_
  cases json.getObjectItem "deviceId" with
  | none => exact Action.returns_pure _
  | some item =>
      dsimp only
      split
      · exact Action.returns_pure _
      cases p.print item with
      | none => exact returns_log _ _ _ _
      | some svrDidStr =>
          refine (Action.returns_modify _).bind fun _ => ?_
          refine (returns_iotCommandSend p _ _).bind fun sent => ?_
          cases sent with
          | false => exact returns_log _ _ _ _
          | true => exact Action.returns_pure _

/-- Storing the registered data goes through for every document. -/
theorem returns_updateRegistered (json : Json) : (updateRegistered p json).Returns := by
  have dip : (dipReceived p json).Returns := by
    unfold dipReceived
    cases json.getObjectItem "deviceIntegrationProfileKey" with
    | none => exact Action.returns_pure _
    | some dipKey => exact returns_updateDip p dipKey
  have location : (locationReceived p json).Returns := by
    unfold locationReceived
    cases json.getObjectItem "locationId" with
    | none => exact (returns_log _ _ _ _).bind fun _ => Action.returns_pure _
    | some item => exact returns_updateLocation p item
  refine dip.bind fun goOn => ?_
  cases goOn with
  | false => exact Action.returns_pure _
  | true =>
      refine location.bind fun goOn => ?_
      cases goOn with
      | false => exact Action.returns_pure _
      | true => exact returns_updateDeviceId p json

theorem returns_registerAgain (valueint : Int) : (registerAgain p valueint).Returns := by
  refine (returns_setSntp _ _).bind fun _ => (returns_iotCommandSend p _ _).bind fun sent => ?_
  cases sent with
  | false => exact returns_log _ _ _ _
  | true => exact Action.returns_pure _

end Returning

/-- The reply says that the web token has expired and does not tell the time. -/
def ExpiredWithoutTime (json : Json) : Prop :=
  ∃ event text, json.getObjectItem "event" = some event ∧ event.valuestring = some text ∧
    strncmp text (ascii "expired.jwt") (ascii "expired.jwt").length = 0 ∧
    json.getObjectItem "currentTime" = none

/-- The event of the reply, if it has one, is a string. -/
def EventReadable (json : Json) : Prop :=
  ∀ event, json.getObjectItem "event" = some event → event.valuestring ≠ none

/-- The registration handler shows the payload itself. -/
def QuotesPayload (p : Platform) : Option Json → Prop
  | none => True
  | some json => ExpiredWithoutTime json ∨ p.debug = true ∧ EventReadable json

section Registration

variable (p : Platform) {json : Json} {x y : List UInt8}

theorem startsWith_some (text : List UInt8) (literal : String) :
    startsWith (some text) literal =
      pure (decide (strncmp text (ascii literal) (ascii literal).length = 0)) :=
  rfl

/-- Only the error about the time shows the payload. -/
theorem handleEvent_congr (fine : ¬ ExpiredWithoutTime json) (text text' : List UInt8) :
    handleEvent p json text = handleEvent p json text' := by
  unfold handleEvent
  cases found : json.getObjectItem "event" with
  | none => rfl
  | some event =>
      dsimp only
      cases value : event.valuestring with
      | none => rfl
      | some name =>
          rw [startsWith_some, Action.pure_bind_eq, Action.pure_bind_eq]
          by_cases expired : strncmp name (ascii "expired.jwt") (ascii "expired.jwt").length = 0
          · rw [decide_eq_true expired, if_pos rfl, if_pos rfl]
            cases time : json.getObjectItem "currentTime" with
            | none => exact absurd ⟨event, name, found, value, expired, time⟩ fine
            | some time => rfl
          · rw [decide_eq_false expired]
            rfl

theorem handleEvent_expired (expired : ExpiredWithoutTime json) (text : List UInt8) :
    handleEvent p json text =
      log .error "mqtt_reg_sub_cb" "%s : there is no currentTime in json, mqtt_payload : \n%s"
        [.text (ascii "mqtt_reg_sub_cb"), .text text] := by
  obtain ⟨event, name, found, value, starts, time⟩ := expired
  unfold handleEvent
  rw [found]
  dsimp only
  rw [value, startsWith_some, Action.pure_bind_eq, decide_eq_true starts, if_pos rfl, time]

/-- The handler stops at an event that is not a string. -/
theorem handleEvent_stops (unreadable : ¬ EventReadable json) (text : List UInt8) (d : Device) :
    (handleEvent p json text d).result = none := by
  simp only [EventReadable, not_forall, not_not] at unreadable
  obtain ⟨event, found, value⟩ := unreadable
  unfold handleEvent
  rw [found]
  dsimp only
  rw [value]
  rfl

theorem returns_handleEvent (readable : EventReadable json) (text : List UInt8) :
    (handleEvent p json text).Returns := by
  unfold handleEvent
  cases found : json.getObjectItem "event" with
  | none => exact returns_updateRegistered p json
  | some event =>
      obtain ⟨name, value⟩ := Option.ne_none_iff_exists'.mp (readable event found)
      dsimp only
      rw [value]
      refine Action.Returns.bind (Action.returns_pure _) fun expired => ?_
      cases expired with
      | true =>
          cases json.getObjectItem "currentTime" with
          | none => exact returns_log _ _ _ _
          | some time =>
              exact (returns_registerAgain p _).bind fun _ => returns_updateRegistered p json
      | false =>
          refine Action.Returns.bind (Action.returns_pure _) fun error => ?_
          cases error with
          | true => exact returns_log _ _ _ _
          | false => exact returns_log _ _ _ _

theorem mqttRegSubCb_none (failed : p.parse (cstr x) = none) :
    mqttRegSubCb p x =
      log .error "mqtt_reg_sub_cb" "mqtt_payload(%s) parsing failed" [.text (cstr x)] := by
  unfold mqttRegSubCb
  rw [failed]

theorem mqttRegSubCb_some (read : p.parse (cstr x) = some json) :
    mqttRegSubCb p x =
      (do log .info "mqtt_reg_sub_cb" "Registered MSG : %s" [.json json]
          handleEvent p json (cstr x)) := by
  have printed : (p.print json).isNone = false := by simpa using p.prints json
  unfold mqttRegSubCb
  rw [read]
  dsimp only
  rw [printed, if_neg (by decide)]

theorem mqttRegSubCb_opens (x : List UInt8) (d : Device) :
    ∃ output, (mqttRegSubCb p x).Opens d output ∧ output.func = some "mqtt_reg_sub_cb" := by
  cases read : p.parse (cstr x) with
  | none =>
      rw [mqttRegSubCb_none p read]
      exact ⟨_, Action.opens_emit _ d, rfl⟩
  | some json =>
      rw [mqttRegSubCb_some p read]
      exact ⟨_, (Action.opens_emit _ d).bind _, rfl⟩

/-- Runs of the registration handler that end alike have read the same document. -/
theorem parse_eq_of_mqttRegSubCb {f g : Unit → Act Unit} {d : Device}
    (same : (mqttRegSubCb p x >>= f) d = (mqttRegSubCb p y >>= g) d) :
    p.parse (cstr x) = p.parse (cstr y) := by
  cases read : p.parse (cstr x) with
  | none =>
      cases read' : p.parse (cstr y) with
      | none => rfl
      | some json =>
          rw [mqttRegSubCb_none p read, mqttRegSubCb_some p read'] at same
          have line := ((Action.opens_emit _ d).bind f).inj
            (((Action.opens_emit _ d).bind _).bind g) same
          simp at line
  | some json =>
      cases read' : p.parse (cstr y) with
      | none =>
          rw [mqttRegSubCb_some p read, mqttRegSubCb_none p read'] at same
          have line := (((Action.opens_emit _ d).bind _).bind f).inj
            ((Action.opens_emit _ d).bind g) same
          simp at line
      | some json' =>
          rw [mqttRegSubCb_some p read, mqttRegSubCb_some p read'] at same
          have line := (((Action.opens_emit _ d).bind _).bind f).inj
            (((Action.opens_emit _ d).bind _).bind g) same
          simpa using line

theorem mqttRegSubCb_congr (read : p.parse (cstr x) = some json)
    (read' : p.parse (cstr y) = some json) (fine : ¬ ExpiredWithoutTime json) :
    mqttRegSubCb p x = mqttRegSubCb p y := by
  rw [mqttRegSubCb_some p read, mqttRegSubCb_some p read', handleEvent_congr p fine]

theorem text_eq_of_shown {md md' : Msg} {d d' : Device} (debug : p.debug = true)
    (same : (showRawMsg p md d).outputs = (showRawMsg p md' d').outputs) :
    cstr md.payload = cstr md'.payload := by
  simp only [showRawMsg, logDebug, debug, if_true, log] at same
  have shown : (md.payloadlen : Int) = md'.payloadlen ∧ cstr md.payload = cstr md'.payload := by
    simpa [Action.emit] using same
  exact shown.2

/-- A document after which the payload is shown makes the text of the payload visible. -/
theorem text_eq_of_quotes {md md' : Msg} {d : Device}
    (read : p.parse (cstr md.payload) = p.parse (cstr md'.payload))
    (quotes : QuotesPayload p (p.parse (cstr md.payload)))
    (same : (mqttRegSubCb p md.payload >>= fun _ => showRawMsg p md) d =
      (mqttRegSubCb p md'.payload >>= fun _ => showRawMsg p md') d) :
    cstr md.payload = cstr md'.payload := by
  cases result : p.parse (cstr md.payload) with
  | none =>
      rw [mqttRegSubCb_none p result, mqttRegSubCb_none p (read.symm.trans result)] at same
      have line := ((Action.opens_emit _ d).bind _).inj ((Action.opens_emit _ d).bind _) same
      simpa using line
  | some json =>
      rw [result] at quotes
      have result' := read.symm.trans result
      by_cases expired : ExpiredWithoutTime json
      · -- the error about the time is the second line
        rw [mqttRegSubCb_some p result, mqttRegSubCb_some p result',
          handleEvent_expired p expired, handleEvent_expired p expired] at same
        obtain ⟨more, outputs⟩ := Action.outputs_bind _ (fun _ => showRawMsg p md) d
        obtain ⟨more', outputs'⟩ := Action.outputs_bind _ (fun _ => showRawMsg p md') d
        have lines := outputs.symm.trans ((congrArg Outcome.outputs same).trans outputs')
        simpa [log] using (List.cons.inj (List.cons.inj lines).2).1
      · obtain ⟨debug, readable⟩ := quotes.resolve_left expired
        have handler := mqttRegSubCb_congr p result result' expired
        have returned : (mqttRegSubCb p md.payload).Returns := by
          rw [mqttRegSubCb_some p result]
          exact (returns_log _ _ _ _).bind fun _ => returns_handleEvent p readable _
        obtain ⟨value, ended⟩ := Option.isSome_iff_exists.mp (returned d)
        have lines := congrArg Outcome.outputs same
        rw [← handler, Action.outputs_bind_of_result ended, Action.outputs_bind_of_result ended,
          List.append_cancel_left_eq] at lines
        exact text_eq_of_shown p debug lines

theorem registrationHandler_matched {md : Msg} (starts : registrationPrefix <+: md.topic) :
    registrationHandler p md = mqttRegSubCb p md.payload := by
  unfold registrationHandler
  rw [if_pos ((strncmp_eq_zero_iff (by decide) _).mpr starts)]

theorem registrationHandler_other {md : Msg} (differs : ¬ registrationPrefix <+: md.topic) :
    registrationHandler p md =
      log .warn "_iot_mqtt_registration_client_callback" "No msg delivery handler for %s"
        [.text (cstr md.topic)] := by
  unfold registrationHandler
  rw [if_neg (mt (strncmp_eq_zero_iff (by decide) _).mp differs)]

theorem registration_route {md md' : Msg} {d : Device}
    (same : (registrationHandler p md >>= fun _ => showRawMsg p md) d =
      (registrationHandler p md' >>= fun _ => showRawMsg p md') d)
    (starts : registrationPrefix <+: md.topic) : registrationPrefix <+: md'.topic := by
  by_contra differs
  rw [registrationHandler_matched p starts, registrationHandler_other p differs] at same
  obtain ⟨output, opens, func⟩ := mqttRegSubCb_opens p md.payload d
  have line := (opens.bind _).inj ((Action.opens_emit _ d).bind _) same
  rw [line] at func
  have names : "_iot_mqtt_registration_client_callback" = "mqtt_reg_sub_cb" :=
    Option.some.inj func
  exact absurd names (by decide)

/-- What the registration handler needs. Behind it the payload may be shown, and then it has
to end with a NUL. -/
def RegistrationHolds (p : Platform) (topic payload : List UInt8) : Prop :=
  registrationPrefix <+: topic ∧
      (0 ∈ payload ∨ Settled p payload ∧ ¬ QuotesPayload p (p.parse payload)) ∨
    Refused registrationPrefix topic payload ∧ 0 ∈ topic ∧ (p.debug = true → 0 ∈ payload)

variable {topic payload : List UInt8} {d : Device}

/-- Without the debug lines, and wherever the payload ends inside, nothing more is shown. -/
theorem showRawMsg_congr (ends : p.debug = true → 0 ∈ payload) (a b : Placement) :
    showRawMsg p (a.msg topic payload) = showRawMsg p (b.msg topic payload) := by
  unfold showRawMsg logDebug
  cases debug : p.debug with
  | false => rfl
  | true =>
      have text : cstr (a.msg topic payload).payload = cstr (b.msg topic payload).payload :=
        payloadText_iff.mp (ends debug) a b
      rw [text]
      rfl

theorem mqttRegSubCb_of_nul (ends : 0 ∈ payload) (a b : Placement) :
    (mqttRegSubCb p (a.msg topic payload).payload >>=
      fun _ => showRawMsg p (a.msg topic payload)) d =
    (mqttRegSubCb p (b.msg topic payload).payload >>=
      fun _ => showRawMsg p (b.msg topic payload)) d := by
  have text : cstr (a.msg topic payload).payload = cstr (b.msg topic payload).payload :=
    payloadText_iff.mp ends a b
  have handler : mqttRegSubCb p (a.msg topic payload).payload =
      mqttRegSubCb p (b.msg topic payload).payload := by
    unfold mqttRegSubCb
    rw [text]
  rw [handler, showRawMsg_congr p (fun _ => ends) a b]

/-- A reply that is read alike and not shown. With the debug lines on, the handler does not
come to the line that would show it. -/
theorem mqttRegSubCb_of_silent (goesOn : 0 ∉ payload) (settled : Settled p payload)
    (silent : ¬ QuotesPayload p (p.parse payload)) (a b : Placement) :
    (mqttRegSubCb p (a.msg topic payload).payload >>=
      fun _ => showRawMsg p (a.msg topic payload)) d =
    (mqttRegSubCb p (b.msg topic payload).payload >>=
      fun _ => showRawMsg p (b.msg topic payload)) d := by
  cases result : p.parse payload with
  | none =>
      rw [result] at silent
      exact absurd trivial silent
  | some json =>
      rw [result] at silent
      have fine : ¬ ExpiredWithoutTime json := fun expired => silent (.inl expired)
      have read : p.parse (cstr (a.msg topic payload).payload) = some json :=
        (settled.parse_eq goesOn a).trans result
      have read' : p.parse (cstr (b.msg topic payload).payload) = some json :=
        (settled.parse_eq goesOn b).trans result
      have handler : mqttRegSubCb p (a.msg topic payload).payload =
          mqttRegSubCb p (b.msg topic payload).payload := mqttRegSubCb_congr p read read' fine
      cases debug : p.debug with
      | false =>
          have off : p.debug = true → 0 ∈ payload := by simp [debug]
          rw [handler, showRawMsg_congr p off a b]
      | true =>
          have unreadable : ¬ EventReadable json := fun readable => silent (.inr ⟨debug, readable⟩)
          have stopped : (mqttRegSubCb p (b.msg topic payload).payload d).result = none := by
            rw [mqttRegSubCb_some p read']
            exact handleEvent_stops p unreadable _ d
          rw [handler, Action.bind_apply, Action.bind_apply, stopped]

theorem registrationHandler_iff :
    (∀ a b : Placement,
      (registrationHandler p (a.msg topic payload) >>=
        fun _ => showRawMsg p (a.msg topic payload)) d =
      (registrationHandler p (b.msg topic payload) >>=
        fun _ => showRawMsg p (b.msg topic payload)) d) ↔ RegistrationHolds p topic payload := by
  constructor
  · intro same
    by_cases whole : registrationPrefix <+: topic
    · refine .inl ⟨whole, ?_⟩
      have runs : ∀ a b : Placement,
          (mqttRegSubCb p (a.msg topic payload).payload >>=
            fun _ => showRawMsg p (a.msg topic payload)) d =
          (mqttRegSubCb p (b.msg topic payload).payload >>=
            fun _ => showRawMsg p (b.msg topic payload)) d := by
        intro a b
        have equal := same a b
        rwa [registrationHandler_matched p (a.starts payload whole),
          registrationHandler_matched p (b.starts payload whole)] at equal
      have read : ∀ a b : Placement,
          p.parse (cstr (payload ++ a.after)) = p.parse (cstr (payload ++ b.after)) :=
        fun a b => parse_eq_of_mqttRegSubCb p (runs a b)
      by_cases ends : 0 ∈ payload
      · exact .inl ends
      refine .inr ⟨settled_iff.mpr read, fun quotes => ends <| payloadText_iff.mpr fun a b => ?_⟩
      have alone := read a (.bare [0] (List.mem_singleton_self 0))
      simp only [Placement.bare] at alone
      rw [text_nul ends] at alone
      rw [← alone] at quotes
      exact text_eq_of_quotes p (read a b) quotes (runs a b)
    · have refused : Refused registrationPrefix topic payload := refused_iff.mpr fun a starts =>
        whole <| prefix_of_starts (by decide) fun b => registration_route p (same a b) starts
      have differs := refused_iff.mp refused
      have lines : ∀ a b : Placement, _ := fun a b => by
        have equal := congrArg Outcome.outputs (same a b)
        rw [registrationHandler_other p (differs a), registrationHandler_other p (differs b)]
          at equal
        exact List.cons.inj equal
      refine .inr ⟨refused, (topicText_iff payload).mpr fun a b => ?_, fun debug => ?_⟩
      · simpa using (lines a b).1
      · exact payloadText_iff.mpr fun a b => text_eq_of_shown p debug (lines a b).2
  · rintro (⟨whole, ends | ⟨settled, silent⟩⟩ | ⟨refused, ends, debug⟩) a b
    · rw [registrationHandler_matched p (a.starts payload whole),
        registrationHandler_matched p (b.starts payload whole)]
      exact mqttRegSubCb_of_nul p ends a b
    · rw [registrationHandler_matched p (a.starts payload whole),
        registrationHandler_matched p (b.starts payload whole)]
      by_cases ends : 0 ∈ payload
      · exact mqttRegSubCb_of_nul p ends a b
      · exact mqttRegSubCb_of_silent p ends settled silent a b
    · have differs := refused_iff.mp refused
      rw [registrationHandler_other p (differs a), registrationHandler_other p (differs b),
        showRawMsg_congr p debug a b, (topicText_iff payload).mp ends a b]

end Registration

section Callbacks

variable {p : Platform} {d : Device} {topic payload : List UInt8} {md : Msg}

/-- The callback does the same for every placement of the message. -/
def Independent (p : Platform) (type : ConnType) (d : Device) (topic payload : List UInt8) :
    Prop :=
  ∀ a b : Placement, clientCallback p type (a.msg topic payload) d =
    clientCallback p type (b.msg topic payload) d

/-- The answer to the connection request is read like any other text. -/
theorem response_iff (store : ConnectionStatus → Act Unit) :
    (∀ a b : Placement,
      (checkConnectionResponse p (a.msg topic payload).payload >>= store) d =
      (checkConnectionResponse p (b.msg topic payload).payload >>= store) d) ↔
    Settled p payload := by
  rw [settled_iff]
  constructor
  · intro same a b
    have line := ((checkConnectionResponse_opens p _ d).bind store).inj
      ((checkConnectionResponse_opens p _ d).bind store) (same a b)
    exact documentLine_inj line
  · intro read a b
    have response : checkConnectionResponse p (a.msg topic payload).payload =
        checkConnectionResponse p (b.msg topic payload).payload :=
      checkConnectionResponse_congr (read a b)
    rw [response]

theorem registration_waiting (waiting : d.signUpStatus ≠ .success) :
    clientCallback p .registration md d =
      (checkConnectionResponse p md.payload >>= fun status =>
        Action.modify fun d => { d with signUpStatus := status }) d := by
  simp only [clientCallback, iotMqttRegistrationClientCallback, Action.get_bind_apply]
  rw [if_pos waiting]

theorem registration_success (success : d.signUpStatus = .success) :
    clientCallback p .registration md d =
      (registrationHandler p md >>= fun _ => showRawMsg p md) d := by
  simp only [clientCallback, iotMqttRegistrationClientCallback, Action.get_bind_apply]
  rw [if_neg (not_not.mpr success)]

theorem signin_waiting (waiting : d.signInStatus ≠ .success) :
    clientCallback p .communication md d =
      (checkConnectionResponse p md.payload >>= fun status =>
        Action.modify fun d => { d with signInStatus := status }) d := by
  simp only [clientCallback, iotMqttSigninClientCallback, Action.get_bind_apply]
  rw [if_pos waiting]

theorem signin_success (success : d.signInStatus = .success) :
    clientCallback p .communication md d =
      (logDebug p "_iot_mqtt_signin_client_callback" "raw msg : %s" [.text (cstr md.payload)] >>=
        fun _ => signinHandler p d.capHandleList md) d := by
  simp only [clientCallback, iotMqttSigninClientCallback, Action.get_bind_apply]
  rw [if_neg (not_not.mpr success)]

/-- The sign-in callback shows the payload first when the debug lines are on. -/
theorem signin_iff (success : d.signInStatus = .success) :
    Independent p .communication d topic payload ↔
      (p.debug = true → 0 ∈ payload) ∧ SigninHolds p topic payload := by
  cases debug : p.debug with
  | false =>
      have quiet : ∀ md : Msg, clientCallback p .communication md d =
          signinHandler p d.capHandleList md d := by
        intro md
        rw [signin_success success, logDebug, debug]
        rfl
      simp only [Independent, quiet, signinHandler_iff, Bool.false_eq_true, false_implies, true_and]
  | true =>
      have shown : ∀ md : Msg, clientCallback p .communication md d =
          (signinHandler p d.capHandleList md d).after
            [.log ⟨.debug, "_iot_mqtt_signin_client_callback", "raw msg : %s",
              [.text (cstr md.payload)]⟩] := by
        intro md
        rw [signin_success success, logDebug, debug]
        rfl
      constructor
      · intro same
        have ends : 0 ∈ payload := payloadText_iff.mpr fun a b => by
          have lines := congrArg Outcome.outputs (same a b)
          rw [shown, shown] at lines
          have text : cstr (a.msg topic payload).payload = cstr (b.msg topic payload).payload := by
            simpa using (List.cons.inj lines).1
          exact text
        refine ⟨fun _ => ends, (signinHandler_iff (d := d) p d.capHandleList).mp fun a b => ?_⟩
        have equal := same a b
        have text : cstr (a.msg topic payload).payload = cstr (b.msg topic payload).payload :=
          payloadText_iff.mp ends a b
        rw [shown, shown, text] at equal
        exact Outcome.after_inj equal
      · rintro ⟨ends, holds⟩ a b
        have text : cstr (a.msg topic payload).payload = cstr (b.msg topic payload).payload :=
          payloadText_iff.mp (ends rfl) a b
        rw [shown, shown, text, (signinHandler_iff p d.capHandleList).mpr holds a b]

/-- When the effect of a callback depends on the message only. Before the answer to the
connection request the payload has to settle what is read of it. After it, the callbacks
need what their handlers need. -/
def MessageHolds (p : Platform) (d : Device) (topic payload : List UInt8) : ConnType → Prop
  | .registration =>
      if d.signUpStatus = .success then RegistrationHolds p topic payload else Settled p payload
  | .communication =>
      if d.signInStatus = .success then
        (p.debug = true → 0 ∈ payload) ∧ SigninHolds p topic payload
      else Settled p payload

/-- For every context and every message, the callback does the same wherever the message
stands in memory exactly when no text that matters runs past its end. -/
theorem independent_iff_messageHolds (p : Platform) (type : ConnType) (d : Device)
    (topic payload : List UInt8) :
    Independent p type d topic payload ↔ MessageHolds p d topic payload type := by
  cases type with
  | registration =>
      by_cases success : d.signUpStatus = .success
      · rw [MessageHolds, if_pos success]
        simp only [Independent, registration_success success]
        exact registrationHandler_iff p
      · rw [MessageHolds, if_neg success]
        simp only [Independent, registration_waiting success]
        exact response_iff _
  | communication =>
      by_cases success : d.signInStatus = .success
      · rw [MessageHolds, if_pos success]
        exact signin_iff success
      · rw [MessageHolds, if_neg success]
        simp only [Independent, signin_waiting success]
        exact response_iff _

end Callbacks

section EmptyAnswer

/-- A library that knows documents with an event and nothing else. What follows a document
is ignored. -/
def eventParse (text : List UInt8) : Option Json :=
  let opening := ascii "\x7b\"event\":\""
  let name := (text.drop opening.length).takeWhile (· ≠ 34)
  if opening <+: text ∧ ascii "\"\x7d" <+: text.drop (opening.length + name.length) then
    some (.object [(ascii "event", .string name)])
  else none

def eventPrint : Json → Option (List UInt8)
  | .object [(name, .string value)] =>
      some (ascii "\x7b\"" ++ name ++ ascii "\":\"" ++ value ++ ascii "\"\x7d")
  | _ => some (ascii "null")

def eventPlatform : Platform where
  parse := eventParse
  print := eventPrint
  prints := by
    intro json
    unfold eventPrint
    split
    · rfl
    · rfl
  succeeds := fun _ => true
  heap := fun _ => 0
  debug := false

/-- The answer to the connection request has not come. -/
def awaitingAnswer : Device where
  signUpStatus := .waiting
  signInStatus := .waiting
  iotRegData := ⟨none, none, [], true, false⟩
  rateLimit := false
  rateLimitTimeout := false
  capHandleList := []
  notiCb := false
  calls := 0

/-- An answer with a NUL inside is read alike everywhere. -/
example : MessageHolds eventPlatform awaitingAnswer (ascii "/v1/notifications/id")
    (ascii "\x7b\"event\":\"connect.success\"\x7d" ++ [0]) .communication :=
  .inl (by decide)

/-- A message without a payload is taken for the answer that an earlier message has left
behind it in memory. -/
theorem emptyAnswer_not_independent :
    ¬ Independent eventPlatform .communication awaitingAnswer
      (ascii "/v1/notifications/id") [] := by
  intro same
  have equal := same
    (.bare (ascii "\x7b\"event\":\"connect.success\"\x7d" ++ [0]) (by decide))
    (.bare [0] (by decide))
  have status := congrArg (fun r => r.state.signInStatus) equal
  exact absurd status (by decide)

end EmptyAnswer

end StDevice.Delivered
