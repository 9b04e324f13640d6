import StDevice.Main.Standing

/-!
# Connected means connected

A sign-in replaces the event client. Whether the new client is still online when the
sign-in reports success is decided by the client events handled during the wait for the
response: a loss that is reported there stands in the queue before the report of the
connection, and is dropped in the disconnected state.

The invariant is also lost when a sign-in reports a client that it does not have, when a
sign-in for an expired web token fails, or when memory runs out for the report of a loss.
Every run without such a step keeps it.
-/

namespace StDevice.Main.Context

/-- The events handled during the wait for the response. -/
def waited : ConnectionStatus → List (List ClientEvent) → List ClientEvent
  | _, [] => []
  | status, events :: yields =>
      events ++
        if answer status events ≠ .waiting then [] else waited (answer status events) yields

/-- What the events of a client make of its connection. -/
structure Link where
  connected : Bool := true
  disconnects : Nat := 0
  /-- the user callback ran for a lost connection -/
  reported : Bool := false
  deriving DecidableEq, Repr

namespace Link

def event (link : Link) : ClientEvent → Link
  | .dropped chunk =>
      { link with
        connected := false
        disconnects := link.disconnects + if chunk then 1 else 0 }
  | .disconnected =>
      match link.disconnects with
      | 0 => link
      | n + 1 => { link with disconnects := n, reported := true }
  | .delivered _ => link

/-- The connection at the end of the wait for the response. -/
def afterWait (calls : Calls) : Link := (waited .waiting calls.yields).foldl event {}

/-- The connection is up, or the chunk that reports its loss is pending. -/
def Up (link : Link) : Prop := link.connected = true ∨ 0 < link.disconnects

/-- The client `c` of the context has this link, and a loss that was reported is in the
queue. -/
structure Shown (link : Link) (c : Nat) (s : Context) : Prop where
  connected : (s.client c).isconnected = link.connected
  disconnects : (s.client c).disconnects = link.disconnects
  reported : link.reported = true → (∀ k, s.memory k = true) →
    ∀ state, drained state s.queue ≠ .cloudConnected

variable {link : Link} {c : Nat} {s : Context}

theorem client_deliveredCallback (s : Context) (message : Message) :
    (s.deliveredCallback message .communication).client = s.client := by
  simp only [deliveredCallback]
  split
  · rfl
  · split
    · rfl
    · rfl

theorem Shown.delivered (shown : link.Shown c s) (message : Message) :
    link.Shown c (s.deliveredCallback message .communication) := by
  have kept := Kept.deliveredCallback c s message .communication
  have client := client_deliveredCallback s message
  refine ⟨by rw [client, shown.connected], by rw [client, shown.disconnects], ?_⟩
  intro reported memory state
  obtain ⟨sent, queue, silent⟩ := kept.frame.queue
  rw [queue, drained_append]
  refine drained_ne (fun x member => (silent x member).2) ?_
  exact shown.reported reported (kept.frame.memory ▸ memory) state

theorem Shown.event (shown : link.Shown c s) (e : ClientEvent) :
    (link.event e).Shown c (clientEvent .communication c s e) := by
  cases e with
  | dropped chunk =>
      refine ⟨by simp [clientEvent, setClient, Link.event], ?_, shown.reported⟩
      simp [clientEvent, setClient, Link.event, shown.disconnects]
  | disconnected =>
      simp only [clientEvent, Link.event, shown.disconnects]
      cases link.disconnects with
      | zero => exact shown
      | succ n =>
          refine ⟨?_, ?_, ?_⟩
          · simp [disconnectedCallback, stateUpdate, commandSend, setClient, shown.connected]
          · simp [disconnectedCallback, stateUpdate, commandSend, setClient]
          · intro _ memory state
            have memory' : ∀ k, s.memory k = true := memory
            simp [disconnectedCallback, stateUpdate, commandSend, setClient, memory',
              drained_append, drained, updated]
  | delivered message => exact shown.delivered message

theorem Shown.yield (shown : link.Shown c s) (events : List ClientEvent) :
    (events.foldl Link.event link).Shown c (s.yield .communication c events) := by
  induction events generalizing link s with
  | nil => exact shown
  | cons e events ih => exact ih (shown.event e)

end Link

/-- The wait for the response is one yield over the events handled in it. -/
theorem awaitResponse_eq (type : ConnType) (c : Nat) (s : Context)
    (yields : List (List ClientEvent)) :
    s.awaitResponse type c yields = s.yield type c (waited (s.requestStatus type) yields) := by
  induction yields generalizing s with
  | nil => rfl
  | cons events yields ih =>
      have status := requestStatus_yield type c s events
      have split : ∀ rest, s.yield type c (events ++ rest) =
          (s.yield type c events).yield type c rest := by
        intro rest
        exact List.foldl_append
      simp only [awaitResponse, waited, split, status]
      by_cases shown : answer (s.requestStatus type) events ≠ .waiting
      · rw [if_pos shown, if_pos shown]
        rfl
      · rw [if_neg shown, if_neg shown, ih, status]

/-- After the wait for the response the client has the link that the events give. -/
theorem shown_answered (s : Context) (calls : Calls) :
    (Link.afterWait calls).Shown s.created (s.answered .communication calls) := by
  have start : ({} : Link).Shown s.created
      ((s.opened .communication).subscribe s.created [.notification, .command]) :=
    ⟨by simp [Context.subscribe, setClient, opened], by simp [Context.subscribe, setClient, opened],
      nofun⟩
  have answered : s.answered .communication calls =
      ((s.opened .communication).subscribe s.created [.notification, .command]).yield
        .communication s.created (waited .waiting calls.yields) :=
    awaitResponse_eq .communication s.created _ calls.yields
  rw [answered]
  exact start.yield _

/-- The results of the calls of an attempt mean the same in both contexts. -/
structure SameCalls (s t : Context) : Prop where
  rateLimit : t.settings.rateLimit = s.settings.rateLimit
  updated : t.settings.updated = s.settings.updated
  brokerUrl : t.settings.brokerUrl = s.settings.brokerUrl
  rejects : t.criticalRejectCount = s.criticalRejectCount
  memory : t.memory = s.memory

/-- The first call of a sign-in that fails. -/
def firstFailure (s : Context) (calls : Calls) : Option Call :=
  ConnType.communication.calls.find? (s.fails calls)

namespace SameCalls

variable {s t u : Context}

theorem refl (s : Context) : SameCalls s s := ⟨rfl, rfl, rfl, rfl, rfl⟩

theorem trans (first : SameCalls s t) (second : SameCalls t u) : SameCalls s u :=
  ⟨second.rateLimit.trans first.rateLimit, second.updated.trans first.updated,
    second.brokerUrl.trans first.brokerUrl, second.rejects.trans first.rejects,
    second.memory.trans first.memory⟩

theorem firstFailure (h : SameCalls s t) (calls : Calls) :
    t.firstFailure calls = s.firstFailure calls := by
  unfold Context.firstFailure
  simp only [ConnType.calls, List.find?_cons, List.find?_nil, fails, h.rateLimit, h.updated,
    h.brokerUrl]

theorem connectError (h : SameCalls s t) (calls : Calls) :
    t.connectError .communication calls = s.connectError .communication calls := by
  have same : ∀ call, t.callError .communication calls call =
      s.callError .communication calls call := by
    intro call
    cases call with
    | connect => simp only [callError, mqttConnectError, h.brokerUrl, h.rejects]
    | _ => rfl
  have first := h.firstFailure calls
  unfold Context.firstFailure at first
  unfold Context.connectError
  rw [first]
  split
  · rfl
  · exact same _

theorem absorbs : Absorbs SameCalls where
  refl := refl
  trans := trans
  settings _ _ _ _ := ⟨rfl, rfl, rfl, rfl, rfl⟩
  confirm _ := ⟨rfl, rfl, rfl, rfl, rfl⟩

end SameCalls

/-- The event client is closed, and what the connection rests on is kept. -/
structure Closed (s t : Context) : Prop where
  calls : SameCalls s t
  currState : t.currState = s.currState
  evt : t.evtMqttcli = none
  reg : t.regMqttcli = s.regMqttcli
  created : t.created = s.created
  queue : t.queue = s.queue

theorem closed_esDisconnect (s : Context) : Closed s (s.esDisconnect .communication) := by
  simp only [esDisconnect]
  cases handle : s.evtMqttcli with
  | none => exact ⟨⟨rfl, rfl, rfl, rfl, rfl⟩, rfl, rfl, rfl, rfl, rfl⟩
  | some c => exact ⟨⟨rfl, rfl, rfl, rfl, rfl⟩, rfl, rfl, rfl, rfl, rfl⟩

theorem closed_closePrevious (s : Context) : Closed s (s.closePrevious .communication) := by
  simp only [closePrevious]
  split
  · rename_i evt
    exact ⟨.refl s, rfl, evt, rfl, rfl, rfl⟩
  · exact closed_esDisconnect s

theorem Closed.recovers {s t : Context} (h : Closed s t) (recovers : s.Recovers) :
    t.Recovers := by
  unfold Recovers
  rw [h.currState, h.queue]
  exact recovers

theorem Closed.handles {s t : Context} (h : Closed s t) (handles : Distinct s) : Distinct t where
  evt c evt := by rw [h.evt] at evt; cases evt
  reg c reg := h.created ▸ handles.reg c (h.reg ▸ reg)
  apart c evt := by rw [h.evt] at evt; cases evt

section SignIn

variable {s t : Context} {calls : Calls}

/-- No call of the sign-in fails, and its client is online when it ends. -/
def LinksUp (s : Context) (calls : Calls) : Prop :=
  s.firstFailure calls = none ∧ (Link.afterWait calls).Up

/-- The sign-in reports the loss of its client, and no call fails before the wait. -/
def ReportsLoss (s : Context) (calls : Calls) : Prop :=
  (∀ k, s.memory k = true) ∧ (Link.afterWait calls).reported = true ∧
    ∀ call, s.firstFailure calls = some call → call.afterResponse = true

theorem SameCalls.linksUp (h : SameCalls s t) (up : s.LinksUp calls) : t.LinksUp calls :=
  ⟨(h.firstFailure calls).trans up.1, up.2⟩

theorem SameCalls.reportsLoss (h : SameCalls s t) (reports : s.ReportsLoss calls) :
    t.ReportsLoss calls :=
  ⟨h.memory ▸ reports.1, reports.2.1, fun call first =>
    reports.2.2 call ((h.firstFailure calls).symm.trans first)⟩

/-- What a sign-in leaves. -/
theorem signIn_kept {error : IotError} (handles : Distinct s)
    (returned : s.esConnect .communication calls = .returned error t) :
    Distinct t ∧ Frame s.created s t := by
  obtain ⟨-, -, rfl⟩ | ⟨call, -, -, -, ended, -⟩ := returned_cases returned
  · have attempt := Attempt.answered s .communication calls
    refine ⟨⟨?_, ?_, ?_⟩, frame_succeeded s .communication calls⟩
    · intro c evt
      obtain rfl := Option.some.inj evt
      exact attempt.created ▸ Nat.lt_succ_self s.created
    · intro c reg
      have below := handles.reg c (attempt.reg ▸ reg)
      exact attempt.created ▸ Nat.lt_succ_of_lt below
    · intro c evt reg
      obtain rfl := Option.some.inj evt
      exact absurd (handles.reg _ (attempt.reg ▸ reg)) (Nat.lt_irrefl _)
  · exact ⟨(ended.steady handles).handles handles, ended.frame⟩

theorem Frame.recovers {c : Nat} (frame : Frame c s t) (recovers : s.Recovers) : t.Recovers := by
  obtain ⟨sent, queue, silent⟩ := frame.queue
  unfold Recovers
  rw [frame.currState, queue, drained_append]
  exact drained_ne (fun x member => (silent x member).2) recovers

theorem LinksUp.online {error : IotError} (up : s.LinksUp calls)
    (returned : s.esConnect .communication calls = .returned error t) :
    error = .none ∧ t.Online := by
  obtain ⟨-, none, rfl⟩ | ⟨call, first, -⟩ := returned_cases returned
  · have shown := shown_answered s calls
    refine ⟨none, s.created, rfl, ?_⟩
    have client : (s.succeeded .communication calls).client =
      (s.answered .communication calls).client := rfl
    rw [client, shown.connected, shown.disconnects]
    exact up.2
  · have passes : s.firstFailure calls = some call := first
    rw [up.1] at passes
    cases passes

theorem ReportsLoss.recovers {error : IotError} (reports : s.ReportsLoss calls)
    (returned : s.esConnect .communication calls = .returned error t) : t.Recovers := by
  have shown := shown_answered s calls
  have memory := (Attempt.answered s .communication calls).frame.memory
  have leads := shown.reported reports.2.1 (fun k => memory ▸ reports.1 k)
  obtain ⟨-, -, rfl⟩ | ⟨call, first, -, -, -, queue⟩ := returned_cases returned
  · exact leads _
  · unfold reached at queue
    rw [if_pos (reports.2.2 call first)] at queue
    unfold Recovers
    rw [queue]
    exact leads _

end SignIn

/-- `IOT_COMMAND_CLOUD_CONNECTING` gets as far as `iot_es_connect`. -/
def connectsNow (s : Context) (x : Inputs) : Prop :=
  ¬ (s.settings.conTimerExpired = true ∧ s.settings.d2dEventRequest = true) ∧
    s.currState = .cloudDisconnected ∧ s.settings.cloudConnectionPause = false ∧
    (s.settings.isWifiStation = true ∨ x.station = .none)

/-- The command reports a connection only if it is there, and leaves the connected state
without one only if the queue leads out of it. -/
def FaithfulCommand (s : Context) (x : Inputs) : Command → Prop
  | .cloudConnecting => s.connectsNow x →
      s.LinksUp x.calls ∨ s.connectError .communication x.calls = none ∨
      ∃ call, s.firstFailure x.calls = some call ∧ call.setsError = true ∧
        (s.Recovers ∨ s.ReportsLoss x.calls)
  | .notificationReceived .jwtExpired =>
      s.LinksUp x.calls ∨ s.connectError .communication x.calls = none ∨
      s.Recovers ∨ s.ReportsLoss x.calls
  | _ => True

section Commands

variable {s t : Context} {x : Inputs}

theorem standing_connectingDone {error : IotError} (handles : Distinct s)
    (live : error = .none ∧ s.Online ∨ error ≠ .none ∧ s.Recovers) :
    Standing (connectingDone x error s) := by
  cases error with
  | none =>
      obtain ⟨-, online⟩ | ⟨isError, -⟩ := live
      · have succeeded : Steady s s.connectingSucceeded := .same rfl rfl rfl rfl rfl rfl
        have before : Steady s (if s.ble && s.settings.d2dEventRequest then
            s.connectingSucceeded.easysetupDeinit else s.connectingSucceeded) := by
          split
          · exact succeeded.trans (Steady.absorbs.easysetupDeinit _)
          · exact succeeded
        have handles' := before.handles handles
        obtain ⟨c, evt, up⟩ := before.online online
        exact ⟨⟨handles'.evt, handles'.reg, handles'.apart⟩, .inl ⟨c, evt, up⟩⟩
      · exact absurd rfl isError
  | mqttRejectConnect | invalidArgs =>
      obtain ⟨isNone, -⟩ | ⟨-, recovers⟩ := live
      · cases isNone
      · have sent : Steady s (s.commandSend (.notificationReceived .devDeleted)) :=
          .commandSend s (by simp)
        exact sent.standing ⟨handles, .inr recovers⟩
  | _ =>
      obtain ⟨isNone, -⟩ | ⟨-, recovers⟩ := live
      · cases isNone
      · have failed : ∀ error, Steady s (s.connectingFailed error x) := by
          intro error
          unfold connectingFailed
          split
          · exact .same rfl rfl rfl rfl rfl rfl
          · exact .same rfl rfl rfl rfl rfl rfl
        exact (failed _).standing ⟨handles, .inr recovers⟩

theorem standing_connectingConnect (handles : Distinct s)
    (faithful : s.LinksUp x.calls ∨ s.connectError .communication x.calls = none ∨
      ∃ call, s.firstFailure x.calls = some call ∧ call.setsError = true ∧
        (s.Recovers ∨ s.ReportsLoss x.calls))
    (handled : s.connectingConnect x = some t) : Standing t := by
  have closed := closed_closePrevious s
  unfold connectingConnect at handled
  cases outcome : (s.closePrevious .communication).esConnect .communication x.calls with
  | returned error u =>
      rw [outcome] at handled
      obtain rfl := Option.some.inj handled
      obtain ⟨handles', frame⟩ := signIn_kept (closed.handles handles) outcome
      refine standing_connectingDone handles' ?_
      obtain up | none | ⟨call, first, sets, recovers⟩ := faithful
      · exact .inl ((closed.calls.linksUp up).online outcome)
      · have known := connectError_of_returned outcome
        rw [closed.calls.connectError, none] at known
        cases known
      · have isError : error ≠ .none := by
          have same := (closed.calls.firstFailure x.calls).trans first
          obtain ⟨passes, -⟩ | ⟨call', first', -, sets', -⟩ := returned_cases outcome
          · cases same.symm.trans passes
          · obtain rfl := Option.some.inj (same.symm.trans first')
            exact sets'.mpr sets
        refine .inr ⟨isError, ?_⟩
        obtain recovers | reports := recovers
        · exact frame.recovers (closed.recovers recovers)
        · exact (closed.calls.reportsLoss reports).recovers outcome
  | rebooted =>
      rw [outcome] at handled
      obtain rfl := Option.some.inj handled
      exact standing_reboot s
  | undefined =>
      rw [outcome] at handled
      cases handled

/-- Work before the sign-in keeps the condition on it. -/
theorem standing_stationConnect (handles : Distinct s)
    (faithful : s.LinksUp x.calls ∨ s.connectError .communication x.calls = none ∨
      ∃ call, s.firstFailure x.calls = some call ∧ call.setsError = true ∧
        (s.Recovers ∨ s.ReportsLoss x.calls))
    (handled : (s.closeHttp.wifiMode true .none).connectingConnect x = some t) :
    Standing t := by
  have steady := (Steady.absorbs.closeHttp s).trans (Steady.absorbs.wifiMode _ true .none)
  have same := (SameCalls.absorbs.closeHttp s).trans (SameCalls.absorbs.wifiMode _ true .none)
  refine standing_connectingConnect (steady.handles handles) ?_ handled
  obtain up | none | ⟨call, first, sets, recovers⟩ := faithful
  · exact .inl (same.linksUp up)
  · exact .inr (.inl ((same.connectError x.calls).trans none))
  · exact .inr (.inr ⟨call, (same.firstFailure x.calls).trans first, sets,
      recovers.imp steady.recovers same.reportsLoss⟩)

theorem standing_cloudConnecting (standing : Standing s)
    (faithful : s.FaithfulCommand x .cloudConnecting)
    (handled : s.cloudConnecting x = some t) : Standing t := by
  unfold cloudConnecting at handled
  by_cases expired : s.settings.conTimerExpired = true ∧ s.settings.d2dEventRequest = true
  · rw [if_pos expired] at handled
    obtain rfl := Option.some.inj handled
    exact ((Steady.absorbs.easysetupDeinit s).trans (.commandSend _ (by simp))).standing standing
  rw [if_neg expired] at handled
  by_cases elsewhere : s.currState ≠ .cloudDisconnected
  · rw [if_pos elsewhere] at handled
    obtain rfl := Option.some.inj handled
    exact standing
  rw [if_neg elsewhere] at handled
  by_cases paused : s.settings.cloudConnectionPause = true
  · rw [if_pos paused] at handled
    obtain rfl := Option.some.inj handled
    exact (Steady.commandSend s (by simp)).standing standing
  rw [if_neg paused] at handled
  have ready : s.settings.isWifiStation = true ∨ x.station = .none → s.connectsNow x :=
    fun wifi => ⟨expired, not_not.mp elsewhere, Bool.not_eq_true _ ▸ paused, wifi⟩
  by_cases station : s.settings.isWifiStation = true
  · rw [if_pos station] at handled
    exact standing_connectingConnect standing.handles (faithful (ready (.inl station))) handled
  rw [if_neg station] at handled
  by_cases wifi : x.station = .none
  · rw [if_pos wifi] at handled
    exact standing_stationConnect standing.handles (faithful (ready (.inr wifi))) handled
  · rw [if_neg wifi] at handled
    obtain rfl := Option.some.inj handled
    exact ((Steady.absorbs.closeHttp s).trans (.commandSend _ (by simp))).standing standing

theorem standing_jwtExpired (standing : Standing s)
    (faithful : s.FaithfulCommand x (.notificationReceived .jwtExpired))
    (handled : s.notificationReceived .jwtExpired x = some t) : Standing t := by
  have closed := closed_esDisconnect s
  simp only [notificationReceived] at handled
  cases outcome : (s.esDisconnect .communication).esConnect .communication x.calls with
  | returned error u =>
      rw [outcome] at handled
      obtain rfl := Option.some.inj handled
      obtain ⟨handles, frame⟩ := signIn_kept (closed.handles standing.handles) outcome
      refine ⟨handles, ?_⟩
      obtain up | none | recovers | reports := faithful
      · exact .inl ((closed.calls.linksUp up).online outcome).2
      · have known := connectError_of_returned outcome
        rw [closed.calls.connectError, none] at known
        cases known
      · exact .inr (frame.recovers (closed.recovers recovers))
      · exact .inr ((closed.calls.reportsLoss reports).recovers outcome)
  | rebooted =>
      rw [outcome] at handled
      obtain rfl := Option.some.inj handled
      exact standing_reboot s
  | undefined =>
      rw [outcome] at handled
      cases handled

/-- A command that was taken out of the queue. -/
theorem standing_command {command : Command} (handles : Distinct s)
    (live : s.Online ∨ drained (updated s.currState command) s.queue ≠ .cloudConnected)
    (faithful : s.FaithfulCommand x command)
    (handled : s.doIotMainCommand command x = some t) : Standing t := by
  cases command with
  | stateUpdate state =>
      obtain rfl := Option.some.inj handled
      exact standing_doStateUpdating state x handles live
  | cloudRegistering => exact standing_cloudRegistering ⟨handles, live⟩ handled
  | cloudRegistered =>
      obtain rfl := Option.some.inj handled
      exact standing_cloudRegistered ⟨handles, live⟩
  | cloudConnecting => exact standing_cloudConnecting ⟨handles, live⟩ faithful handled
  | notificationReceived noti =>
      cases noti with
      | jwtExpired => exact standing_jwtExpired ⟨handles, live⟩ faithful handled
      | devDeleted =>
          simp only [doIotMainCommand, notificationReceived] at handled
          split at handled
          · obtain rfl := Option.some.inj handled
            exact ⟨⟨handles.evt, handles.reg, handles.apart⟩, live⟩
          · obtain rfl := Option.some.inj handled
            exact standing_reboot s
      | _ =>
          obtain rfl := Option.some.inj handled
          exact ⟨handles, live⟩

end Commands

section Restart

variable {s t : Context}

theorem steady_checkProvStatus (s : Context) (stored : StoredData) :
    Steady s (s.checkProvStatus stored) := by
  cases stored with
  | _ => exact .same rfl rfl rfl rfl rfl rfl

/-- `st_conn_start_ex` after it has stopped the device. -/
theorem steady_startEx (s : Context) (start : StartPoint) :
    Steady s.stopWorking (s.startEx start) := by
  cases start with
  | connecting stored =>
      have checked := steady_checkProvStatus s.stopWorking stored
      simp only [startEx]
      split
      · exact checked
      · exact checked.trans (.commandSend _ (by simp))
  | provisioning resources =>
      simp only [startEx]
      split
      · have fresh : Steady s.stopWorking { s.stopWorking with settings.newReged := true } :=
          .same rfl rfl rfl rfl rfl rfl
        exact fresh.trans (.commandSend _ (by simp))
      · exact .refl _

/-- The clients of the device are gone and it is back in its first state. -/
structure Stopped (s t : Context) : Prop where
  currState : t.currState = .initialized
  evt : t.evtMqttcli = none
  reg : t.regMqttcli = none
  memory : t.memory = s.memory
  queue : ∃ sent, t.queue = s.queue ++ sent ∧
    ∀ x ∈ sent, x.command ≠ .stateUpdate .cloudConnected

theorem closePrevious_registration (s : Context) :
    (s.closePrevious .registration).evtMqttcli = s.evtMqttcli ∧
      (s.closePrevious .registration).regMqttcli = none ∧
      (s.closePrevious .registration).memory = s.memory ∧
      (s.closePrevious .registration).queue = s.queue := by
  simp only [closePrevious]
  split
  · rename_i reg
    exact ⟨rfl, reg, rfl, rfl⟩
  · simp only [esDisconnect]
    cases s.regMqttcli with
    | none => exact ⟨rfl, rfl, rfl, rfl⟩
    | some c => exact ⟨rfl, rfl, rfl, rfl⟩

theorem stopped_cleanup (s : Context) : Stopped s s.cleanup := by
  have http := Steady.absorbs.closeHttp s
  have memory := (SameCalls.absorbs.closeHttp s).memory
  have first := closed_closePrevious { s.closeHttp with
    settings.esBleReady := false
    settings.brokerUrl := false }
  obtain ⟨evt, reg, memory', queue⟩ := closePrevious_registration
    ({ s.closeHttp with
      settings.esBleReady := false
      settings.brokerUrl := false }.closePrevious .communication)
  obtain ⟨sent, appended, silent⟩ := http.queue
  exact ⟨rfl, evt.trans first.evt, reg, (memory'.trans first.calls.memory).trans memory, sent,
    (queue.trans first.queue).trans appended, silent⟩

theorem stopped_stopWorking (working : s.currState ≠ .initialized) : Stopped s s.stopWorking := by
  have stopped := stopped_cleanup s.present
  unfold stopWorking
  rw [if_pos working]
  exact ⟨stopped.currState, stopped.evt, stopped.reg, stopped.memory, stopped.queue⟩

theorem Stopped.handles (h : Stopped s t) : Distinct t where
  evt c evt := by rw [h.evt] at evt; cases evt
  reg c reg := by rw [h.reg] at reg; cases reg
  apart c evt := by rw [h.evt] at evt; cases evt

/-- The queue does not lead the restarted device to the connected state, or the restart
sends the update to CLOUD_DISCONNECTED. -/
def FaithfulStart (s : Context) (start : StartPoint) : Prop :=
  s.currState = .initialized ∨ drained .initialized s.queue ≠ .cloudConnected ∨
    (∀ k, s.memory k = true) ∧
      (start = .connecting .registered ∨ start = .connecting .otherDip)

theorem recovers_startEx (h : Stopped s t) (memory : ∀ k, s.memory k = true)
    (stored : StoredData) :
    ((t.checkProvStatus stored).stateUpdate .cloudDisconnected).Recovers := by
  have memory' : ∀ k, (t.checkProvStatus stored).memory k = true := by
    cases stored with
    | _ => exact h.memory ▸ memory
  simp [Recovers, stateUpdate, commandSend, memory', drained_append, drained, updated]

theorem standing_startEx {start : StartPoint} (standing : Standing s)
    (faithful : s.FaithfulStart start) : Standing (s.startEx start) := by
  by_cases working : s.currState ≠ .initialized
  · have stopped := stopped_stopWorking working
    have steady := steady_startEx s start
    refine ⟨steady.handles stopped.handles, .inr ?_⟩
    obtain initialized | apart | ⟨memory, started⟩ := faithful
    · exact absurd initialized working
    · refine steady.recovers ?_
      obtain ⟨sent, queue, silent⟩ := stopped.queue
      unfold Recovers
      rw [stopped.currState, queue, drained_append]
      exact drained_ne silent apart
    · obtain rfl | rfl := started
      · exact recovers_startEx stopped memory .registered
      · exact recovers_startEx stopped memory .otherDip
  · have present : Steady s s.stopWorking := by
      unfold stopWorking
      rw [if_neg working]
      exact .same rfl rfl rfl rfl rfl rfl
    exact (present.trans (steady_startEx s start)).standing standing

end Restart

/-- The step reports a connection only if it is there, and loses one only with a report
or when the queue leads out of the connected state. -/
def Faithful (s : Context) : MainEvent → Prop
  | .handle x => ∀ entry queue, s.queue = entry :: queue →
      { s with queue := queue, origin := entry.origin }.FaithfulCommand x entry.command
  | .client .communication (.dropped chunk) =>
      chunk = true ∨ s.Recovers ∨ ∃ c, s.evtMqttcli = some c ∧ 0 < (s.client c).disconnects
  | .client .communication .disconnected =>
      (∀ k, s.memory k = true) ∨ s.Recovers ∨
        ∃ c, s.evtMqttcli = some c ∧ (s.client c).disconnects ≠ 1
  | .startEx start => s.FaithfulStart start
  | _ => True

section Steps

variable {s t : Context}

theorem Kept.handles {c : Nat} (kept : Kept c s t) (handles : Distinct s) : Distinct t where
  evt d evt := kept.created ▸ handles.evt d (kept.evt ▸ evt)
  reg d reg := kept.created ▸ handles.reg d (kept.reg ▸ reg)
  apart d evt reg := handles.apart d (kept.evt ▸ evt) (kept.reg ▸ reg)

/-- An event of the event client. -/
theorem standing_communication {c : Nat} {event : ClientEvent} (standing : Standing s)
    (evt : s.evtMqttcli = some c) (faithful : s.Faithful (.client .communication event)) :
    Standing (clientEvent .communication c s event) := by
  have kept := Kept.clientEvent .communication c s event
  have evt' := kept.evt.trans evt
  refine ⟨kept.handles standing.handles, ?_⟩
  cases event with
  | dropped chunk =>
      obtain rfl | recovers | ⟨d, handle, pending⟩ := faithful
      · exact .inl ⟨c, evt', .inr (by simp [clientEvent, setClient])⟩
      · exact .inr (kept.frame.recovers recovers)
      · obtain rfl := Option.some.inj (evt.symm.trans handle)
        refine .inl ⟨c, evt', .inr ?_⟩
        simp only [clientEvent, setClient, Function.update_self]
        omega
  | disconnected =>
      obtain memory | recovers | ⟨d, handle, several⟩ := faithful
      · simp only [clientEvent]
        split
        · exact standing.live
        · refine .inr ?_
          simp [disconnectedCallback, Recovers, stateUpdate, commandSend, setClient, memory,
            drained_append, drained, updated]
      · exact .inr (kept.frame.recovers recovers)
      · obtain rfl := Option.some.inj (evt.symm.trans handle)
        simp only [clientEvent]
        split
        · exact standing.live
        · rename_i n pending
          refine .inl ⟨c, evt, .inr ?_⟩
          simp only [disconnectedCallback, stateUpdate, commandSend, setClient,
            Function.update_self]
          omega
  | delivered message =>
      have client := Link.client_deliveredCallback s message
      refine standing.live.imp (fun online => ?_) kept.frame.recovers
      obtain ⟨d, handle, up⟩ := online
      refine ⟨d, kept.evt.trans handle, ?_⟩
      simp only [clientEvent, client]
      exact up

/-- Every faithful step keeps the invariant. -/
theorem standing_step {e : MainEvent} (standing : Standing s) (faithful : s.Faithful e)
    (transition : s.Transition e t) : Standing t := by
  have present : Steady s s.present := .same rfl rfl rfl rfl rfl rfl
  unfold Transition step at transition
  cases e with
  | handle x =>
      cases queued : s.queue with
      | nil => simp [queued] at transition
      | cons entry queue =>
          simp only [queued] at transition
          have handles := standing.handles
          refine standing_command (s := { s with queue := queue, origin := entry.origin })
            ⟨handles.evt, handles.reg, handles.apart⟩ ?_ (faithful entry queue queued) transition
          refine standing.live.imp id fun recovers => ?_
          unfold Recovers at recovers
          rw [queued] at recovers
          exact recovers
  | client type event =>
      cases type with
      | communication =>
          cases evt : s.evtMqttcli with
          | none => simp [handle, evt] at transition
          | some c =>
              simp only [handle, evt, Option.map_some, Option.some.injEq] at transition
              obtain rfl := transition
              exact standing_communication (present.standing standing) evt faithful
      | registration =>
          cases reg : s.regMqttcli with
          | none => simp [handle, reg] at transition
          | some c =>
              simp only [handle, reg, Option.map_some, Option.some.injEq] at transition
              obtain rfl := transition
              have other : s.evtMqttcli ≠ some c := fun evt => standing.handles.apart c evt reg
              have kept := Kept.clientEvent .registration c s.present event
              exact (present.trans (.kept kept other)).standing standing
  | stateTimeout =>
      obtain ⟨origin, -, rfl⟩ := Option.map_eq_some_iff.mp transition
      have cleared : Steady s { s with stateTimer := none, origin := origin } :=
        .same rfl rfl rfl rfl rfl rfl
      refine (cleared.trans ?_).standing standing
      unfold Context.stateTimeout
      split
      · exact .commandSend _ (by simp)
      · exact .commandSend _ (by simp)
      · exact .refl _
  | retryTimeout =>
      obtain ⟨origin, -, rfl⟩ := Option.map_eq_some_iff.mp transition
      have cleared : Steady s { s with nextConnectionRetryTimer := none, origin := origin } :=
        .same rfl rfl rfl rfl rfl rfl
      exact (cleared.trans (.commandSend _ (by simp))).standing standing
  | post command =>
      simp only at transition
      split at transition
      · cases transition
      · rename_i silent
        obtain rfl := Option.some.inj transition
        exact (present.trans (.commandSend _ silent)).standing standing
  | configure settings =>
      obtain rfl := Option.some.inj transition
      exact ⟨⟨standing.handles.evt, standing.handles.reg, standing.handles.apart⟩, standing.live⟩
  | startEx start =>
      obtain rfl := Option.some.inj transition
      exact standing_startEx standing faithful

end Steps

/-- Every run of faithful steps keeps the connected state connected. -/
theorem connected_of_faithful (ble softap : Bool) (memory : Nat → Bool)
    (events : List MainEvent) (t : Context)
    (run : Run.Steps Transition (initial ble softap memory) events t)
    (along : Run.Along Transition Faithful (initial ble softap memory) events) : t.Connected :=
  (run.invariant_along (I := Standing)
    (fun _ _ _ standing faithful transition => standing_step standing faithful transition) along
    (standing_initial ble softap memory)).connected

/-- A sign-in that the server answers at once. -/
def signedIn : Inputs := { calls := { yields := [[.delivered { response := .success }]] } }

/-- A registered device starts and connects to the server. -/
def bringUp : List MainEvent :=
  [.startEx (.connecting .registered), .handle {}, .handle signedIn, .handle {}]

/-- A device that starts and connects is connected. -/
theorem bringUp_connected :
    ∃ t, Run.Steps Transition (initial false true fun _ => true) bringUp t ∧
      t.currState = .cloudConnected ∧ t.Connected := by
  have only : ∀ {s t : Context} {e : MainEvent}, s.Transition e t →
      ∀ u, s.Transition e u → u = t :=
    fun here _ other => Option.some.inj (other.symm.trans here)
  have run : ∃ t, (Run.Steps Transition (initial false true fun _ => true) bringUp t ∧
      Run.Along Transition Faithful (initial false true fun _ => true) bringUp) ∧
        t.currState = .cloudConnected := by
    refine ⟨_, Run.cons_along rfl (only rfl) (.inl rfl) (Run.cons_along rfl (only rfl) ?_
      (Run.cons_along rfl (only rfl) ?_ (Run.cons_along rfl (only rfl) ?_ (Run.nil_along _)))), rfl⟩
    · intro entry queue queued
      obtain ⟨rfl, rfl⟩ := List.cons.inj queued
      trivial
    · intro entry queue queued
      obtain ⟨rfl, rfl⟩ := List.cons.inj queued
      exact fun _ => .inl ⟨rfl, .inl rfl⟩
    · intro entry queue queued
      obtain ⟨rfl, rfl⟩ := List.cons.inj queued
      trivial
  obtain ⟨t, ⟨steps, along⟩, state⟩ := run
  exact ⟨t, steps, state, connected_of_faithful _ _ _ _ t steps along⟩

/-- The web token of a connected device expires, and the broker does not answer. -/
def expired : List MainEvent :=
  bringUp ++
    [.client .communication (.delivered { response := .success, noti := some .jwtExpired }),
    .handle { calls := { mqttConnect := .other } }]

/-- A sign-in for an expired web token that fails leaves the connected state without a
client, and nothing is left to restore it. -/
theorem expired_not_connected :
    ∃ t, Run.Steps Transition (initial false true fun _ => true) expired t ∧ ¬ t.Connected := by
  have run : ∃ t, Run.Steps Transition (initial false true fun _ => true) expired t ∧
      t.currState = .cloudConnected ∧ t.queue = [] ∧ t.nextConnectionRetryTimer = none ∧
        t.evtMqttcli = none :=
    ⟨_, .cons rfl (.cons rfl (.cons rfl (.cons rfl (.cons rfl (.cons rfl (.nil _)))))),
      rfl, rfl, rfl, rfl⟩
  obtain ⟨t, steps, state, queue, timer, closed⟩ := run
  refine ⟨t, steps, fun connected => ?_⟩
  obtain ⟨c, evt, -⟩ := connected state (by simp [queue]) timer (by simp [closed])
  rw [closed] at evt
  cases evt

end StDevice.Main.Context
