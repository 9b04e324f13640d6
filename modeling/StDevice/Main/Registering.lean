import StDevice.Main.Calls
import StDevice.Main.Command

/-!
# Retries of the registration

`IOT_COMMAND_CLOUD_REGISTERING` puts itself back into the work queue when it fails. How
many copies one handling adds is a function of its inputs: the result of the wifi call,
the result of `iot_es_connect`, and the messages about an expired web token that the
client handles while it waits for the response.

A handling that adds at most the one it took out, and none once BLE asks to disconnect,
keeps the number of pending registrations from growing. After a failed connection the
command adds two copies, or one in spite of the request.
-/

namespace StDevice.Main.Context

/-- The registrations in the work queue. -/
def pending (s : Context) : Nat := s.queue.countP fun x => x.command = .cloudRegistering

/-- The registrations sent by the events of one yield. -/
def echoes : ConnectionStatus → List ClientEvent → Nat
  | _, [] => 0
  | status, .delivered message :: events =>
      (if status = .success ∧ message.expiredJwt = true then 1 else 0) +
        echoes (if status ≠ .success then message.response else status) events
  | status, .dropped _ :: events => echoes status events
  | status, .disconnected :: events => echoes status events

/-- The registrations sent during the wait for the response. -/
def allEchoes : ConnectionStatus → List (List ClientEvent) → Nat
  | _, [] => 0
  | status, events :: yields =>
      echoes status events +
        if answer status events ≠ .waiting then 0 else allEchoes (answer status events) yields

/-- The registrations sent during `iot_es_connect`. -/
def connectEchoes (s : Context) (calls : Calls) : Nat :=
  match ConnType.registration.calls.find? (s.fails calls) with
  | none => allEchoes .waiting calls.yields
  | some call => if call.afterResponse then allEchoes .waiting calls.yields else 0

/-- From `s` to `t` at most `n` registrations are added, and exactly `n` when memory never
runs out. -/
structure Added (n : Nat) (s t : Context) : Prop where
  memory : t.memory = s.memory
  requestDisconnect : t.settings.requestDisconnect = s.settings.requestDisconnect
  upper : t.pending ≤ s.pending + n
  exact : (∀ k, s.memory k = true) → t.pending = s.pending + n

namespace Added

variable {m n : Nat} {s t u : Context}

theorem trans (first : Added m s t) (second : Added n t u) : Added (m + n) s u where
  memory := second.memory.trans first.memory
  requestDisconnect := second.requestDisconnect.trans first.requestDisconnect
  upper := by
    have upper := first.upper
    have upper' := second.upper
    omega
  exact := by
    intro memory
    have exact := first.exact memory
    have exact' := second.exact (first.memory ▸ memory)
    omega

theorem same (memory : t.memory = s.memory)
    (requestDisconnect : t.settings.requestDisconnect = s.settings.requestDisconnect)
    (queue : t.queue = s.queue) : Added 0 s t := by
  have pending : t.pending = s.pending := congrArg (List.countP _) queue
  exact ⟨memory, requestDisconnect, Nat.le_of_eq pending, fun _ => pending⟩

theorem refl (s : Context) : Added 0 s s := same rfl rfl rfl

theorem registering (s : Context) : Added 1 s (s.commandSend .cloudRegistering) := by
  refine ⟨rfl, rfl, ?_, ?_⟩
  · by_cases memory : s.memory s.sends = true
    · simp [pending, commandSend, memory]
    · simp [pending, commandSend, memory]
  · intro memory
    simp [pending, commandSend, memory]

theorem other (s : Context) {command : Command} (other : command ≠ .cloudRegistering) :
    Added 0 s (s.commandSend command) := by
  have pending : (s.commandSend command).pending = s.pending := by
    by_cases memory : s.memory s.sends = true
    · simp [Context.pending, commandSend, memory, other]
    · simp [Context.pending, commandSend, memory]
  exact ⟨rfl, rfl, Nat.le_of_eq pending, fun _ => pending⟩

theorem absorbs : Absorbs (Added 0) where
  refl := refl
  trans := trans
  settings _ _ _ _ := same rfl rfl rfl
  confirm s := other s (by simp)

theorem closePrevious (s : Context) : Added 0 s (s.closePrevious .registration) := by
  simp only [Context.closePrevious]
  split
  · exact refl s
  · rename_i open'
    cases handle : s.regMqttcli with
    | none => exact absurd handle open'
    | some c =>
        simp only [esDisconnect, handle]
        exact same rfl rfl rfl

end Added

theorem added_regSubExpired (s : Context) (message : Message) :
    Added (if message.expiredJwt = true then 1 else 0) s (s.regSubExpired message) := by
  unfold regSubExpired
  by_cases expired : message.expiredJwt = true
  · rw [if_pos expired, if_pos expired]
    exact .registering s
  · rw [if_neg expired, if_neg expired]
    exact .refl s

theorem added_regSubCb (s : Context) (message : Message) :
    Added (if message.expiredJwt = true then 1 else 0) s (s.regSubCb message) := by
  have expired := added_regSubExpired s message
  unfold regSubCb
  by_cases registered : (message.deviceId && !s.settings.updated) = true
  · rw [if_pos registered]
    have updated : Added 0 (s.regSubExpired message) { s.regSubExpired message with
      settings.updated := true
      settings.newReged := false } := .same rfl rfl rfl
    exact expired.trans (updated.trans (.other _ (by simp)))
  · rw [if_neg registered]
    exact expired

/-- While no registration message has been requested, the events of a registration client
send a registration only for an expired web token. -/
theorem added_clientEvent (c : Nat) (s : Context) (event : ClientEvent)
    (unrequested : s.settings.registeredMsgRequested = false) :
    Added (echoes s.signUpStatus [event]) s (clientEvent .registration c s event) := by
  cases event with
  | dropped chunk => exact .same rfl rfl rfl
  | disconnected =>
      simp only [clientEvent]
      split
      · exact .refl s
      · simp only [disconnectedCallback]
        rw [if_neg (by simp [setClient, unrequested])]
        exact .same rfl rfl rfl
  | delivered message =>
      simp only [clientEvent, deliveredCallback, echoes]
      by_cases unsigned : s.signUpStatus ≠ .success
      · rw [if_pos unsigned, if_neg (fun both => unsigned both.1)]
        exact .same rfl rfl rfl
      · have signed : s.signUpStatus = .success := not_not.mp unsigned
        simp only [signed, ne_eq, not_true_eq_false, if_false, true_and, Nat.add_zero]
        exact added_regSubCb s message

theorem unrequested_clientEvent (c : Nat) (s : Context) (event : ClientEvent)
    (unrequested : s.settings.registeredMsgRequested = false) :
    (clientEvent .registration c s event).settings.registeredMsgRequested = false := by
  cases event with
  | dropped chunk => exact unrequested
  | disconnected =>
      simp only [clientEvent]
      split
      · exact unrequested
      · simp only [disconnectedCallback]
        split
        · exact unrequested
        · exact unrequested
  | delivered message =>
      simp only [clientEvent, deliveredCallback]
      split
      · exact unrequested
      · have expired : (s.regSubExpired message).settings.registeredMsgRequested = false := by
          unfold regSubExpired
          split
          · exact unrequested
          · exact unrequested
        unfold regSubCb
        split
        · exact expired
        · exact expired

theorem echoes_cons (status : ConnectionStatus) (event : ClientEvent) (events : List ClientEvent) :
    echoes status (event :: events) =
      echoes status [event] + echoes (answer status [event]) events := by
  cases event with
  | dropped chunk => simp [echoes, answer]
  | disconnected => simp [echoes, answer]
  | delivered message => simp [echoes, answer]

theorem added_yield (c : Nat) (s : Context) (events : List ClientEvent)
    (unrequested : s.settings.registeredMsgRequested = false) :
    Added (echoes s.signUpStatus events) s (s.yield .registration c events) ∧
      (s.yield .registration c events).settings.registeredMsgRequested = false := by
  induction events generalizing s with
  | nil => exact ⟨.refl s, unrequested⟩
  | cons event events ih =>
      have first := added_clientEvent c s event unrequested
      have rest := ih (clientEvent .registration c s event)
        (unrequested_clientEvent c s event unrequested)
      have status : (clientEvent .registration c s event).signUpStatus =
        answer s.signUpStatus [event] := requestStatus_yield .registration c s [event]
      rw [status] at rest
      rw [echoes_cons]
      exact ⟨first.trans rest.1, rest.2⟩

theorem added_awaitResponse (c : Nat) (s : Context) (yields : List (List ClientEvent))
    (unrequested : s.settings.registeredMsgRequested = false) :
    Added (allEchoes s.signUpStatus yields) s (s.awaitResponse .registration c yields) := by
  induction yields generalizing s with
  | nil => exact .refl s
  | cons events yields ih =>
      obtain ⟨first, still⟩ := added_yield c s events unrequested
      have status : (s.yield .registration c events).signUpStatus =
        answer s.signUpStatus events := requestStatus_yield .registration c s events
      have rest := ih (s.yield .registration c events) still
      rw [status] at rest
      simp only [awaitResponse, allEchoes]
      by_cases answered : answer s.signUpStatus events ≠ .waiting
      · have shown : (s.yield .registration c events).requestStatus .registration ≠ .waiting :=
          fun waiting => answered (status.symm.trans waiting)
        rw [if_pos answered, if_pos shown]
        exact first
      · have shown : ¬ (s.yield .registration c events).requestStatus .registration ≠ .waiting :=
          fun shown => answered (fun waiting => shown (status.trans waiting))
        rw [if_neg answered, if_neg shown]
        exact first.trans rest

theorem added_answered (s : Context) (calls : Calls)
    (unrequested : s.settings.registeredMsgRequested = false) :
    Added (allEchoes .waiting calls.yields) s (s.answered .registration calls) := by
  have frame := (Attempt.opened s .registration).frame
  have opened : Added 0 s (s.opened .registration) :=
    .same frame.memory frame.requestDisconnect (queue_opened s .registration)
  have subscribed : Added 0 (s.opened .registration)
    ((s.opened .registration).subscribe s.created [.registration]) := .same rfl rfl rfl
  have answered := added_awaitResponse s.created
    ((s.opened .registration).subscribe s.created [.registration]) calls.yields
    (show (s.opened .registration).settings.registeredMsgRequested = false by
      rw [settings_opened, unrequested])
  have total := (opened.trans subscribed).trans answered
  rw [Nat.zero_add] at total
  exact total

/-- `iot_es_connect` for a registration. -/
theorem added_esConnect {s t : Context} {calls : Calls} {error : IotError}
    (unrequested : s.settings.registeredMsgRequested = false)
    (returned : s.esConnect .registration calls = .returned error t) :
    Added (s.connectEchoes calls) s t ∧ s.connectError .registration calls = some error := by
  have answered := added_answered s calls unrequested
  refine ⟨?_, connectError_of_returned returned⟩
  have before := (Attempt.answered s .registration calls).frame
  unfold connectEchoes
  obtain ⟨first, -, rfl⟩ | ⟨call, first, -, -, ended, queue⟩ := returned_cases returned
  · rw [first]
    have after := frame_succeeded s .registration calls
    have finished : Added 0 (s.answered .registration calls) (s.succeeded .registration calls) :=
      .same (after.memory.trans before.memory.symm)
        (after.requestDisconnect.trans before.requestDisconnect.symm) (queue_succeeded s _ calls)
    exact answered.trans finished
  · rw [first]
    unfold reached at queue
    by_cases late : call.afterResponse = true
    · rw [if_pos late] at queue
      simp only [late, if_true]
      exact answered.trans (.same (ended.frame.memory.trans before.memory.symm)
        (ended.frame.requestDisconnect.trans before.requestDisconnect.symm) queue)
    · rw [if_neg late] at queue
      simp only [late]
      exact .same ended.frame.memory ended.frame.requestDisconnect queue

/-- The result of `iot_es_connect` for a registration depends on few fields. -/
theorem find_congr {s t : Context} (calls : Calls)
    (rateLimit : t.settings.rateLimit = s.settings.rateLimit)
    (brokerUrl : t.settings.brokerUrl = s.settings.brokerUrl) :
    ConnType.registration.calls.find? (t.fails calls) =
      ConnType.registration.calls.find? (s.fails calls) := by
  simp only [ConnType.calls, List.find?_cons, List.find?_nil, fails, rateLimit, brokerUrl]

theorem connectError_congr {s t : Context} (calls : Calls)
    (rateLimit : t.settings.rateLimit = s.settings.rateLimit)
    (brokerUrl : t.settings.brokerUrl = s.settings.brokerUrl)
    (rejects : t.criticalRejectCount = s.criticalRejectCount) :
    t.connectError .registration calls = s.connectError .registration calls := by
  unfold connectError
  rw [find_congr calls rateLimit brokerUrl]
  have same : ∀ call, t.callError .registration calls call =
      s.callError .registration calls call := by
    intro call
    cases call with
    | connect => simp only [callError, mqttConnectError, brokerUrl, rejects]
    | _ => rfl
  split
  · rfl
  · exact same _

theorem connectEchoes_congr {s t : Context} (calls : Calls)
    (rateLimit : t.settings.rateLimit = s.settings.rateLimit)
    (brokerUrl : t.settings.brokerUrl = s.settings.brokerUrl) :
    t.connectEchoes calls = s.connectEchoes calls := by
  unfold connectEchoes
  rw [find_congr calls rateLimit brokerUrl]

/-- The copies a handling adds by itself when `iot_es_connect` has returned. -/
def retriesAfter (s : Context) (error : IotError) : Nat :=
  if error = .none ∨ error = .mqttRejectConnect then 0
  else if s.settings.requestDisconnect then 1 else 2

theorem added_registeringFailed (s : Context) (error : IotError) :
    Added (if s.settings.requestDisconnect = true then 1 else 2) s (s.registeringFailed error) := by
  have status : Added 0 s { s with esNetworkStatus := error } := .same rfl rfl rfl
  unfold registeringFailed
  by_cases disconnect : s.settings.requestDisconnect = true
  · rw [if_pos disconnect, if_pos disconnect]
    exact status.trans (.registering _)
  · rw [if_neg disconnect, if_neg disconnect]
    exact status.trans ((Added.registering _).trans (.registering _))

theorem added_registeringDone (s : Context) (error : IotError) :
    Added (s.retriesAfter error) s (registeringDone error s) := by
  cases error with
  | none => exact .same rfl rfl rfl
  | mqttRejectConnect =>
      have status : Added 0 s { s with esNetworkStatus := .mqttRejectConnect } := .same rfl rfl rfl
      exact status.trans ((Added.absorbs.easysetupDeinit _).trans (.other _ (by simp)))
  | netDnsFail => exact added_registeringFailed s _
  | _ => exact added_registeringFailed s _

/-- The context of a handling before `iot_es_connect`: no registration is added, and what
decides the result is as before. -/
structure Prepared (s t : Context) : Prop where
  added : Added 0 s t
  rateLimit : t.settings.rateLimit = s.settings.rateLimit
  brokerUrl : t.settings.brokerUrl = s.settings.brokerUrl
  rejects : t.criticalRejectCount = s.criticalRejectCount

namespace Prepared

variable {s t : Context}

theorem absorbs : Absorbs Prepared where
  refl s := ⟨.refl s, rfl, rfl, rfl⟩
  trans first second :=
    ⟨first.added.trans second.added, second.rateLimit.trans first.rateLimit,
      second.brokerUrl.trans first.brokerUrl, second.rejects.trans first.rejects⟩
  settings _ _ _ _ := ⟨.same rfl rfl rfl, rfl, rfl, rfl⟩
  confirm s := ⟨.other s (by simp), rfl, rfl, rfl⟩

/-- The wifi station is ready. -/
theorem station (s : Context) : Prepared s (s.closeHttp.wifiMode true .none) :=
  absorbs.trans (absorbs.closeHttp s) (absorbs.wifiMode _ true .none)

theorem closePrevious (s : Context) : Prepared s (s.closePrevious .registration) := by
  refine ⟨.closePrevious s, ?_, ?_, ?_⟩
  all_goals
    simp only [Context.closePrevious, esDisconnect]
    split
    · rfl
    · cases s.regMqttcli with
      | none => rfl
      | some c => rfl

end Prepared

/-- The copies a handling of `IOT_COMMAND_CLOUD_REGISTERING` adds. -/
def retries (s : Context) (x : Inputs) : Nat :=
  if s.settings.conTimerExpired then 0
  else if s.settings.isWifiStation = false ∧ x.station ≠ .none then
    if s.settings.selfReged then 1 else 0
  else
    match s.connectError .registration x.calls with
    | none => 0
    | some error => s.connectEchoes x.calls + s.retriesAfter error

theorem Prepared.ready (s : Context) : Prepared s s.registeringReady := by
  have closed := closePrevious { s with settings.d2dEventRequest := true }
  have requested : Added 0 s { s with settings.d2dEventRequest := true } := .same rfl rfl rfl
  have reset : Added 0 ({ s with settings.d2dEventRequest := true }.closePrevious .registration)
    s.registeringReady := .same rfl rfl rfl
  exact ⟨(requested.trans closed.added).trans reset, closed.rateLimit, closed.brokerUrl,
    closed.rejects⟩

/-- The handling from the wifi connection on. -/
theorem added_registeringConnect {s t : Context} {x : Inputs}
    (handled : s.registeringConnect x = some t) :
    (s.connectError .registration x.calls = none ∧ t = s.reboot) ∨
    ∃ error, s.connectError .registration x.calls = some error ∧
      Added (s.connectEchoes x.calls + s.retriesAfter error) s t := by
  have ready := Prepared.ready s
  rw [← connectError_congr x.calls ready.rateLimit ready.brokerUrl ready.rejects,
    ← connectEchoes_congr x.calls ready.rateLimit ready.brokerUrl]
  unfold registeringConnect at handled
  cases outcome : s.registeringReady.esConnect .registration x.calls with
  | returned error u =>
      obtain ⟨connected, known⟩ := added_esConnect rfl outcome
      rw [outcome] at handled
      obtain rfl := Option.some.inj handled
      have done := added_registeringDone u error
      have same : u.retriesAfter error = s.retriesAfter error := by
        unfold retriesAfter
        rw [connected.requestDisconnect, ready.added.requestDisconnect]
      rw [same] at done
      have total := (ready.added.trans connected).trans done
      rw [Nat.zero_add] at total
      exact .inr ⟨error, known, total⟩
  | rebooted =>
      rw [outcome] at handled
      exact .inl ⟨connectError_of_rebooted outcome, (Option.some.inj handled).symm⟩
  | undefined =>
      rw [outcome] at handled
      cases handled

/-- A handling adds the registrations its inputs say, or the device reboots. -/
theorem added_cloudRegistering {s t : Context} {x : Inputs}
    (handled : s.cloudRegistering x = some t) :
    Added (s.retries x) s t ∨ (s.retries x = 0 ∧ t.pending = 0) := by
  have connect : ∀ r, Prepared s r → r.registeringConnect x = some t →
      ¬ (s.settings.isWifiStation = false ∧ x.station ≠ .none) →
      s.settings.conTimerExpired = false →
      Added (s.retries x) s t ∨ (s.retries x = 0 ∧ t.pending = 0) := by
    intro r ready connected station unexpired
    have sameError := connectError_congr x.calls ready.rateLimit ready.brokerUrl ready.rejects
    unfold retries
    rw [if_neg (by simp [unexpired]), if_neg station, ← sameError]
    obtain ⟨none, rfl⟩ | ⟨error, known, added⟩ := added_registeringConnect connected
    · rw [none]
      exact .inr ⟨rfl, rfl⟩
    · rw [known]
      have same : r.retriesAfter error = s.retriesAfter error := by
        unfold retriesAfter
        rw [ready.added.requestDisconnect]
      rw [same, connectEchoes_congr x.calls ready.rateLimit ready.brokerUrl] at added
      have total := ready.added.trans added
      rw [Nat.zero_add] at total
      exact .inl total
  unfold cloudRegistering at handled
  by_cases expired : s.settings.conTimerExpired = true
  · rw [if_pos expired] at handled
    obtain rfl := Option.some.inj handled
    rw [retries, if_pos expired]
    exact .inl (Added.absorbs.easysetupDeinit s)
  have unexpired : s.settings.conTimerExpired = false := by simpa using expired
  rw [if_neg expired] at handled
  by_cases station : s.settings.isWifiStation = true
  · rw [if_pos station] at handled
    exact connect s ⟨.refl s, rfl, rfl, rfl⟩ handled (by simp [station]) unexpired
  rw [if_neg station] at handled
  by_cases started : x.station = .none
  · rw [if_pos started] at handled
    exact connect _ (.station s) handled (by simp [started]) unexpired
  rw [if_neg started] at handled
  have keeps : Absorbs fun s t => t.settings.selfReged = s.settings.selfReged :=
    ⟨fun _ => rfl, fun first second => second.trans first, fun _ _ _ _ => rfl, fun _ => rfl⟩
  have self := keeps.closeHttp s
  rw [retries, if_neg expired, if_pos ⟨by simpa using station, started⟩]
  rw [self] at handled
  have marked : Added 0 s.closeHttp { s.closeHttp with esNetworkStatus := x.station } :=
    .same rfl rfl rfl
  have failed := (Added.absorbs.closeHttp s).trans marked
  by_cases reged : s.settings.selfReged = true
  · rw [if_pos reged] at handled ⊢
    obtain rfl := Option.some.inj handled
    exact .inl (failed.trans (.registering _))
  · rw [if_neg reged] at handled ⊢
    obtain rfl := Option.some.inj handled
    exact .inl (failed.trans (Added.absorbs.easysetupDeinit _))

/-- From `s` to `t` at most one registration is added, and none when BLE asks to
disconnect. -/
def WithinOne (s t : Context) : Prop :=
  t.pending ≤ s.pending + 1 ∧ (s.settings.requestDisconnect = true → t.pending ≤ s.pending)

/-- The condition on the inputs of a handling: the connection timer has expired; or the
wifi fails, and not for a self registration that is asked to stop; or `iot_es_connect`
does not fail, and at most one message says meanwhile that the web token has expired,
none when BLE asks to disconnect. -/
def Calm (s : Context) (x : Inputs) : Prop :=
  s.settings.conTimerExpired = true ∨
  (s.settings.isWifiStation = false ∧ x.station ≠ .none ∧
    ¬ (s.settings.selfReged = true ∧ s.settings.requestDisconnect = true)) ∨
  ((s.settings.isWifiStation = true ∨ x.station = .none) ∧
    ∀ error, s.connectError .registration x.calls = some error →
      (error = .none ∨ error = .mqttRejectConnect) ∧ s.connectEchoes x.calls ≤ 1 ∧
      (s.settings.requestDisconnect = true → s.connectEchoes x.calls = 0))

theorem calm_iff (s : Context) (x : Inputs) :
    s.Calm x ↔
      s.retries x ≤ 1 ∧ (s.settings.requestDisconnect = true → s.retries x = 0) := by
  unfold Calm retries
  by_cases expired : s.settings.conTimerExpired = true
  · simp [expired]
  by_cases failed : s.settings.isWifiStation = false ∧ x.station ≠ .none
  · obtain ⟨station, refused⟩ := failed
    by_cases self : s.settings.selfReged = true
    · simp [expired, station, refused, self]
    · simp [expired, station, refused, self]
  rw [if_neg expired, if_neg failed]
  have station : s.settings.isWifiStation = true ∨ x.station = .none := by
    by_cases station : s.settings.isWifiStation = true
    · exact .inl station
    · exact .inr (not_not.mp fun refused => failed ⟨by simpa using station, refused⟩)
  have other : ¬ (s.settings.isWifiStation = false ∧ x.station ≠ .none ∧
      ¬ (s.settings.selfReged = true ∧ s.settings.requestDisconnect = true)) :=
    fun all => failed ⟨all.1, all.2.1⟩
  simp only [expired, other, station, false_or, true_and, Bool.false_eq_true]
  cases known : s.connectError .registration x.calls with
  | none => simp
  | some error =>
      simp only [Option.some.injEq, forall_eq']
      unfold retriesAfter
      by_cases succeeded : error = .none ∨ error = .mqttRejectConnect
      · simp [succeeded]
      · simp only [succeeded, false_and, if_false, false_iff, not_and]
        -- a failed connection adds one copy in spite of the request, and two without it
        intro few
        by_cases disconnect : s.settings.requestDisconnect = true
        · simp [disconnect]
        · rw [if_neg disconnect] at few
          omega

/-- A calm handling adds at most one registration, and a handling that does so was calm,
unless memory ran out. -/
theorem withinOne_of_calm {s t : Context} {x : Inputs} (handled : s.cloudRegistering x = some t)
    (calm : s.Calm x) : WithinOne s t := by
  obtain ⟨few, none⟩ := (calm_iff s x).mp calm
  obtain added | ⟨-, empty⟩ := added_cloudRegistering handled
  · refine ⟨Nat.le_trans added.upper (Nat.add_le_add_left few _), fun disconnect => ?_⟩
    have upper := added.upper
    rwa [none disconnect] at upper
  · rw [WithinOne, empty]
    exact ⟨Nat.zero_le _, fun _ => Nat.zero_le _⟩

theorem calm_of_withinOne {s t : Context} {x : Inputs} (handled : s.cloudRegistering x = some t)
    (memory : ∀ k, s.memory k = true) (within : WithinOne s t) : s.Calm x := by
  refine (calm_iff s x).mpr ?_
  obtain added | ⟨zero, -⟩ := added_cloudRegistering handled
  · obtain ⟨one, disconnect⟩ := within
    rw [added.exact memory] at one disconnect
    exact ⟨Nat.le_of_add_le_add_left one, fun asked => by
      have := disconnect asked
      omega⟩
  · rw [zero]
    exact ⟨Nat.zero_le _, fun _ => rfl⟩

/-- The step handles `IOT_COMMAND_CLOUD_REGISTERING`. -/
def registers (s : Context) : MainEvent → Bool
  | .handle _ => s.queue.head?.map Entry.command == some .cloudRegistering
  | _ => false

/-- Only the handling of registrations adds registrations, and each handling is calm. -/
def Restrained (s : Context) (e : MainEvent) : Prop :=
  (s.registers e = false → ∀ t, s.Transition e t → t.pending ≤ s.pending) ∧
  ∀ x entry queue, e = .handle x → s.queue = entry :: queue →
    entry.command = .cloudRegistering → { s with queue := queue, origin := entry.origin }.Calm x

/-- The registrations handled in a run. -/
def registrations (s : Context) : List MainEvent → Nat
  | [] => 0
  | e :: events =>
      (if s.registers e then 1 else 0) +
        match s.step e with
        | some t => registrations t events
        | none => 0

/-- A restrained step adds no registration, and takes one out when it handles one that is
asked to stop. -/
theorem Restrained.step {s t : Context} {e : MainEvent} (h : s.Restrained e)
    (transition : s.Transition e t) :
    t.pending ≤ s.pending ∧
      (s.settings.requestDisconnect = true →
        t.pending + (if s.registers e then 1 else 0) ≤ s.pending) := by
  cases handles : s.registers e with
  | false =>
      have bound := h.1 handles t transition
      exact ⟨bound, fun _ => bound⟩
  | true =>
      cases e with
      | handle x =>
          cases queued : s.queue with
          | nil => simp [registers, queued] at handles
          | cons entry queue =>
              have command : entry.command = .cloudRegistering := by
                simpa [registers, queued] using handles
              have calm := h.2 x entry queue rfl queued command
              have handled : { s with queue := queue, origin := entry.origin }.cloudRegistering x =
                  some t := by
                simpa [Transition, Context.step, queued, doIotMainCommand, command] using transition
              have within := withinOne_of_calm handled calm
              have popped : s.pending =
                  { s with queue := queue, origin := entry.origin }.pending + 1 := by
                simp [pending, queued, command]
              rw [popped]
              exact ⟨within.1, fun asked => Nat.add_le_add_right (within.2 asked) 1⟩
      | _ => cases handles

/-- Along a restrained run the pending registrations do not grow. -/
theorem pending_le_of_restrained {s t : Context} {events : List MainEvent}
    (run : Run.Steps Transition s events t) (along : Run.Along Transition Restrained s events) :
    t.pending ≤ s.pending :=
  run.invariant_along (I := fun u => u.pending ≤ s.pending)
    (fun _ _ _ bound restrained transition =>
      Nat.le_trans (restrained.step transition).1 bound) along (Nat.le_refl _)

/-- Along a restrained run that is asked to stop, every registration that is handled was
pending at its start. -/
theorem registrations_le_of_restrained {s t : Context} {events : List MainEvent}
    (run : Run.Steps Transition s events t)
    (along : Run.Along Transition
      (fun u e => u.Restrained e ∧ u.settings.requestDisconnect = true) s events) :
    t.pending + s.registrations events ≤ s.pending := by
  induction run with
  | nil s => exact Nat.le_refl _
  | cons transition rest ih =>
      obtain ⟨⟨restrained, asked⟩, later⟩ := along
      have first := (restrained.step transition).2 asked
      have others := ih (later _ transition)
      rw [registrations, transition]
      simp only
      omega

/-- A calm handling adds at most one registration and none when BLE asks to disconnect,
and only a calm one does so, unless memory runs out. Along a run of calm handlings in which
nothing else adds registrations their number does not grow, and once BLE asks to disconnect
no more than the pending ones are handled. -/
theorem registering_restrained (s : Context) :
    (∀ (x : Inputs) (t : Context), s.cloudRegistering x = some t →
      (s.Calm x → WithinOne s t) ∧ ((∀ k, s.memory k = true) → WithinOne s t → s.Calm x)) ∧
    (∀ (events : List MainEvent) (t : Context), Run.Steps Transition s events t →
      Run.Along Transition Restrained s events →
      t.pending ≤ s.pending ∧
        (Run.Along Transition
          (fun u e => u.Restrained e ∧ u.settings.requestDisconnect = true) s events →
          t.pending + s.registrations events ≤ s.pending)) := by
  constructor
  · intro x t handled
    exact ⟨withinOne_of_calm handled, calm_of_withinOne handled⟩
  · intro events t run along
    exact ⟨pending_le_of_restrained run along, registrations_le_of_restrained run⟩

/-- A device in station mode with one registration to handle. -/
def oneRegistration (requestDisconnect : Bool) : Context :=
  { initial false true (fun _ => true) with
    currState := .provDone
    queue := [⟨.cloudRegistering, 0⟩]
    settings := { isWifiStation := true, requestDisconnect := requestDisconnect } }

/-- A registration that the broker does not answer. -/
def unanswered : Inputs := { calls := { mqttConnect := .other } }

/-- A registration that is signed up and accepted. -/
def accepted : Inputs := { calls := { yields := [[.delivered { response := .success }]] } }

/-- A registration that succeeds leaves none behind. -/
theorem accepted_restrained :
    ∃ t, Run.Steps Transition (oneRegistration false) [.handle accepted] t ∧
      t.pending ≤ (oneRegistration false).pending := by
  have run : ∃ t, Run.Steps Transition (oneRegistration false) [.handle accepted] t :=
    ⟨_, .cons rfl (.nil _)⟩
  obtain ⟨t, run⟩ := run
  refine ⟨t, run, ((registering_restrained _).2 _ _ run ⟨⟨?_, ?_⟩, fun _ _ => trivial⟩).1⟩
  · intro other
    cases other
  · rintro x entry queue same queued -
    obtain rfl := MainEvent.handle.inj same
    obtain ⟨rfl, rfl⟩ := List.cons.inj queued
    refine .inr (.inr ⟨.inl rfl, ?_⟩)
    rintro error known
    obtain rfl := Option.some.inj known
    exact ⟨.inl rfl, by decide, fun _ => by decide⟩

/-- A connection that fails turns one registration into two, and is tried again in spite of
a request to disconnect. -/
theorem unanswered_not_withinOne :
    (∃ t, Run.Steps Transition (oneRegistration false) [.handle unanswered] t ∧
      ¬ t.pending ≤ (oneRegistration false).pending) ∧
    ∃ t, { oneRegistration true with queue := [] }.cloudRegistering unanswered = some t ∧
      ¬ WithinOne { oneRegistration true with queue := [] } t := by
  constructor
  · exact ⟨_, .cons rfl (.nil _), by decide⟩
  · refine ⟨_, rfl, ?_⟩
    rintro ⟨-, stops⟩
    exact absurd (stops rfl) (by decide)

end StDevice.Main.Context
