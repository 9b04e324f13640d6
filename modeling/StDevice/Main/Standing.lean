import StDevice.Main.Calls
import StDevice.Main.Command

/-!
# The queue and the event client

The connection, its loss and the state change are separate commands. The device may be in
the connected state without a connection for a while, as long as the state updates in the
work queue take it out of that state again.

The state that the updates in the queue lead to is a function of the queue. The invariant
says that the event client is online, or that this state is not the connected one. It is
kept by all work that leaves the event client alone and reports no connection.
-/

namespace StDevice.Main.Context

/-- What a command does to the connection state. From the other states the update to
CLOUD_DISCONNECTED is accepted at most. -/
def updated (state : IotState) : Command → IotState
  | .stateUpdate .cloudDisconnected => .cloudDisconnected
  | .stateUpdate .cloudConnected =>
      if state = .cloudDisconnected then .cloudConnected else state
  | _ => state

/-- The connection state after the updates in the queue. -/
def drained : IotState → List Entry → IotState
  | state, [] => state
  | state, x :: queue => drained (updated state x.command) queue

/-- The updates in the queue do not leave the device in the connected state. -/
def Recovers (s : Context) : Prop := drained s.currState s.queue ≠ .cloudConnected

/-- The event client is connected, or the chunk that reports its loss is pending. -/
def Online (s : Context) : Prop :=
  ∃ c, s.evtMqttcli = some c ∧ ((s.client c).isconnected = true ∨ 0 < (s.client c).disconnects)

/-- The connected state without a connection and with nothing left to restore it is not
reached. -/
def Connected (s : Context) : Prop :=
  s.currState = .cloudConnected →
  (∀ x ∈ s.queue, x.command ≠ .cloudConnecting ∧ ∀ state, x.command ≠ .stateUpdate state) →
  s.nextConnectionRetryTimer = none →
  (∀ c, s.evtMqttcli = some c → (s.client c).disconnects = 0) →
  ∃ c, s.evtMqttcli = some c ∧ (s.client c).isconnected = true

section Drained

variable {state other : IotState} {queue sent : List Entry}

theorem drained_append (state : IotState) (queue sent : List Entry) :
    drained state (queue ++ sent) = drained (drained state queue) sent := by
  induction queue generalizing state with
  | nil => rfl
  | cons x queue ih => exact ih _

/-- Without a report of a connection, no other state becomes the connected one. -/
theorem drained_ne (silent : ∀ x ∈ sent, x.command ≠ .stateUpdate .cloudConnected)
    (apart : state ≠ .cloudConnected) : drained state sent ≠ .cloudConnected := by
  induction sent generalizing state with
  | nil => exact apart
  | cons x sent ih =>
      refine ih (fun y member => silent y (List.mem_cons_of_mem x member)) ?_
      have here := silent x List.mem_cons_self
      cases command : x.command with
      | stateUpdate update =>
          cases update with
          | cloudConnected => exact absurd command here
          | cloudDisconnected => simp [updated]
          | _ => exact apart
      | _ => exact apart

/-- From a state apart from the connection states the queue leads to the connected state
only if it does so from every state. -/
theorem drained_of_apart (unconnected : state ≠ .cloudConnected)
    (undisconnected : state ≠ .cloudDisconnected)
    (reaches : drained state queue = .cloudConnected) :
    drained other queue = .cloudConnected := by
  induction queue generalizing other with
  | nil => exact absurd reaches unconnected
  | cons x queue ih =>
      cases command : x.command with
      | stateUpdate update =>
          cases update with
          | cloudDisconnected =>
              simp only [drained, command, updated] at reaches ⊢
              exact reaches
          | cloudConnected =>
              simp only [drained, command, updated, if_neg undisconnected] at reaches ⊢
              exact ih reaches
          | _ =>
              simp only [drained, command, updated] at reaches ⊢
              exact ih reaches
      | _ =>
          simp only [drained, command, updated] at reaches ⊢
          exact ih reaches

/-- Without state updates the state stays. -/
theorem drained_idle (idle : ∀ x ∈ queue, ∀ update, x.command ≠ .stateUpdate update) :
    drained state queue = state := by
  induction queue with
  | nil => rfl
  | cons x queue ih =>
      have here := idle x List.mem_cons_self
      have later := ih fun y member => idle y (List.mem_cons_of_mem x member)
      cases command : x.command with
      | stateUpdate update => exact absurd command (here update)
      | _ =>
          simp only [drained, command, updated]
          exact later

end Drained

/-- The two client handles are distinct clients that have been created. -/
structure Distinct (s : Context) : Prop where
  evt : ∀ c, s.evtMqttcli = some c → c < s.created
  reg : ∀ c, s.regMqttcli = some c → c < s.created
  apart : ∀ c, s.evtMqttcli = some c → s.regMqttcli ≠ some c

/-- The event client is online, or the queue leads out of the connected state. -/
structure Standing (s : Context) : Prop where
  handles : Distinct s
  live : s.Online ∨ s.Recovers

theorem Standing.connected {s : Context} (h : Standing s) : s.Connected := by
  intro state idle _ pending
  obtain ⟨c, evt, connected | waiting⟩ | recovers := h.live
  · exact ⟨c, evt, connected⟩
  · rw [pending c evt] at waiting
    exact absurd waiting (Nat.lt_irrefl 0)
  · have same : drained s.currState s.queue = s.currState :=
      drained_idle fun x member => (idle x member).2
    exact absurd (same.trans state) recovers

theorem standing_initial (ble softap : Bool) (memory : Nat → Bool) :
    Standing (initial ble softap memory) where
  handles := ⟨nofun, nofun, nofun⟩
  live := .inr nofun

theorem standing_reboot (s : Context) : Standing s.reboot where
  handles := ⟨nofun, nofun, nofun⟩
  live := .inr nofun

/-- Work that keeps the state and the event client and reports no connection. -/
structure Steady (s t : Context) : Prop where
  currState : t.currState = s.currState
  evt : t.evtMqttcli = s.evtMqttcli
  client : ∀ c, s.evtMqttcli = some c → t.client c = s.client c
  created : s.created ≤ t.created
  reg : ∀ c, t.regMqttcli = some c → s.regMqttcli = some c ∨ s.created ≤ c ∧ c < t.created
  queue : ∃ sent, t.queue = s.queue ++ sent ∧
    ∀ x ∈ sent, x.command ≠ .stateUpdate .cloudConnected

namespace Steady

variable {s t u : Context}

/-- The fields that the connection rests on are as before. -/
theorem same (currState : t.currState = s.currState) (evt : t.evtMqttcli = s.evtMqttcli)
    (reg : t.regMqttcli = s.regMqttcli) (client : t.client = s.client)
    (created : t.created = s.created) (queue : t.queue = s.queue) : Steady s t where
  currState := currState
  evt := evt
  client c _ := congrFun client c
  created := Nat.le_of_eq created.symm
  reg c handle := .inl (reg ▸ handle)
  queue := ⟨[], by rw [queue, List.append_nil], by simp⟩

theorem refl (s : Context) : Steady s s := same rfl rfl rfl rfl rfl rfl

theorem trans (first : Steady s t) (second : Steady t u) : Steady s u where
  currState := second.currState.trans first.currState
  evt := second.evt.trans first.evt
  client c evt := (second.client c (first.evt.trans evt)).trans (first.client c evt)
  created := Nat.le_trans first.created second.created
  reg := by
    have created := first.created
    have created' := second.created
    intro c handle
    obtain earlier | ⟨low, high⟩ := second.reg c handle
    · obtain earlier | ⟨low, high⟩ := first.reg c earlier
      · exact .inl earlier
      · exact .inr ⟨low, by omega⟩
    · exact .inr ⟨by omega, high⟩
  queue := by
    obtain ⟨sent, queue, silent⟩ := first.queue
    obtain ⟨sent', queue', silent'⟩ := second.queue
    refine ⟨sent ++ sent', by rw [queue', queue, List.append_assoc], ?_⟩
    intro x member
    obtain member | member := List.mem_append.mp member
    · exact silent x member
    · exact silent' x member

/-- Work on a client other than the event client. -/
theorem kept {c : Nat} (kept : Kept c s t) (other : s.evtMqttcli ≠ some c) : Steady s t where
  currState := kept.frame.currState
  evt := kept.evt
  client d evt := kept.frame.others d fun same => other (same ▸ evt)
  created := Nat.le_of_eq kept.created.symm
  reg d handle := .inl (kept.reg ▸ handle)
  queue := by
    obtain ⟨sent, queue, silent⟩ := kept.frame.queue
    exact ⟨sent, queue, fun x member => (silent x member).2⟩

theorem commandSend {command : Command} (s : Context)
    (silent : command ≠ .stateUpdate .cloudConnected) : Steady s (s.commandSend command) where
  currState := rfl
  evt := rfl
  client _ _ := rfl
  created := Nat.le_refl _
  reg _ handle := .inl handle
  queue := by
    obtain ⟨sent, queue, commands⟩ := (Frame.commandSend 0 s silent).queue
    exact ⟨sent, queue, fun x member => (commands x member).2⟩

theorem absorbs : Absorbs Steady where
  refl := refl
  trans := trans
  settings _ _ _ _ := same rfl rfl rfl rfl rfl rfl
  confirm s := commandSend s (by simp)

theorem handles (h : Steady s t) (handles : Distinct s) : Distinct t where
  evt c evt := Nat.lt_of_lt_of_le (handles.evt c (h.evt ▸ evt)) h.created
  reg c reg := by
    obtain earlier | ⟨-, high⟩ := h.reg c reg
    · exact Nat.lt_of_lt_of_le (handles.reg c earlier) h.created
    · exact high
  apart c evt reg := by
    have evt' : s.evtMqttcli = some c := h.evt ▸ evt
    obtain earlier | ⟨low, -⟩ := h.reg c reg
    · exact handles.apart c evt' earlier
    · exact absurd (handles.evt c evt') (Nat.not_lt.mpr low)

theorem online (h : Steady s t) (online : s.Online) : t.Online := by
  obtain ⟨c, evt, up⟩ := online
  refine ⟨c, h.evt.trans evt, ?_⟩
  rw [h.client c evt]
  exact up

theorem recovers (h : Steady s t) (recovers : s.Recovers) : t.Recovers := by
  obtain ⟨sent, queue, silent⟩ := h.queue
  unfold Recovers
  rw [h.currState, queue, drained_append]
  exact drained_ne silent recovers

theorem standing (h : Steady s t) (standing : Standing s) : Standing t where
  handles := h.handles standing.handles
  live := standing.live.imp h.online h.recovers

end Steady

section Updates

variable {s : Context}

theorem steady_enterEasysetup (s : Context) (ble : Bool) (x : Inputs) :
    Steady s (s.enterEasysetup ble x).ctx := by
  unfold enterEasysetup
  split
  · exact .refl s
  split
  · exact Steady.absorbs.wifiMode s false .none
  split
  · exact Steady.absorbs.softapMode s
  · exact (Steady.absorbs.softapMode s).trans (.same rfl rfl rfl rfl rfl rfl)

theorem steady_enter (s : Context) (state : IotState) (x : Inputs) :
    Steady s (s.enter state x).ctx := by
  unfold enter
  split
  · exact steady_enterEasysetup s s.ble x
  · exact .commandSend s (by simp)
  · exact .commandSend s (by simp)
  · exact .commandSend s (by simp)
  · exact .commandSend s (by simp)
  · exact .commandSend s (by simp)
  · exact (Steady.absorbs.closeHttp s).trans (Steady.absorbs.wifiMode _ false x.wifiOff)
  · exact steady_enterEasysetup s false x
  · exact .refl s
  · exact .refl s
  · exact .refl s
  · exact .refl s
  · exact .refl s

/-- The state after an update is the one that the queue was taken to lead to, or apart
from the connection states. -/
theorem state_doStateUpdating (s : Context) (state : IotState) (x : Inputs) :
    (s.doStateUpdating state x).currState = updated s.currState (.stateUpdate state) ∨
      (s.doStateUpdating state x).currState ≠ .cloudConnected ∧
        (s.doStateUpdating state x).currState ≠ .cloudDisconnected := by
  have assigned : (s.doStateUpdating state x).currState =
      if (s.enter state x).accepted then state else s.currState := by
    unfold doStateUpdating Entered.commit
    split
    · rfl
    · exact (steady_enter s state x).currState
  rw [assigned]
  cases state with
  | cloudConnected =>
      cases current : s.currState with
      | cloudDisconnected => exact .inl (by simp [enter, current, updated])
      | _ => exact .inl (by simp [enter, current, updated])
  | cloudDisconnected =>
      cases current : s.currState with
      | initialized | provDone | cloudConnected | cloudDisconnected =>
          exact .inl (by simp [enter, current, updated])
      | _ => exact .inr (by simp [enter, current])
  | _ =>
      split
      · exact .inr (by simp)
      · exact .inl rfl

/-- A state update that was taken out of the queue. -/
theorem standing_doStateUpdating (state : IotState) (x : Inputs) (handles : Distinct s)
    (live : s.Online ∨
      drained (updated s.currState (.stateUpdate state)) s.queue ≠ .cloudConnected) :
    Standing (s.doStateUpdating state x) := by
  have steady := steady_enter s state x
  have queue : (s.doStateUpdating state x).queue = (s.enter state x).ctx.queue := by
    unfold doStateUpdating Entered.commit
    split
    · rfl
    · rfl
  have handles' : Distinct (s.doStateUpdating state x) ∧
      (s.Online → (s.doStateUpdating state x).Online) := by
    have entered := steady.handles handles
    unfold doStateUpdating Entered.commit
    split
    · exact ⟨⟨entered.evt, entered.reg, entered.apart⟩, steady.online⟩
    · exact ⟨entered, steady.online⟩
  refine ⟨handles'.1, live.imp handles'.2 fun recovers => ?_⟩
  obtain ⟨sent, appended, silent⟩ := steady.queue
  unfold Recovers
  rw [queue, appended, drained_append]
  refine drained_ne silent ?_
  obtain same | ⟨unconnected, undisconnected⟩ := state_doStateUpdating s state x
  · rw [same]
    exact recovers
  · intro reaches
    exact recovers (drained_of_apart unconnected undisconnected reaches)

end Updates

section Registration

variable {s t : Context}

theorem steady_esDisconnect (handles : Distinct s) : Steady s (s.esDisconnect .registration) := by
  simp only [esDisconnect]
  cases handle : s.regMqttcli with
  | none => exact .same rfl rfl handle.symm rfl rfl rfl
  | some c =>
      refine ⟨rfl, rfl, ?_, Nat.le_refl _, nofun, [], (List.append_nil _).symm, by simp⟩
      intro d evt
      have other : d ≠ c := by
        rintro rfl
        exact handles.apart d evt handle
      simp [closeClient, mqttDestroy, mqttDisconnect, setClient, other]

theorem steady_closePrevious (handles : Distinct s) :
    Steady s (s.closePrevious .registration) := by
  simp only [closePrevious]
  split
  · exact .refl s
  · exact steady_esDisconnect handles

/-- An attempt without a connection keeps the event client. -/
theorem Ended.steady (ended : Ended s t) (handles : Distinct s) : Steady s t where
  currState := ended.frame.currState
  evt := ended.evt
  client c evt := ended.frame.others c (Nat.ne_of_lt (handles.evt c evt))
  created := ended.created
  reg c handle := .inl (ended.reg ▸ handle)
  queue := by
    obtain ⟨sent, queue, silent⟩ := ended.frame.queue
    exact ⟨sent, queue, fun x member => (silent x member).2⟩

theorem steady_succeeded (calls : Calls) (handles : Distinct s) :
    Steady s (s.succeeded .registration calls) where
  currState := (frame_succeeded s .registration calls).currState
  evt := (Attempt.answered s .registration calls).evt
  client c evt :=
    (frame_succeeded s .registration calls).others c (Nat.ne_of_lt (handles.evt c evt))
  created := Nat.le_of_lt ((Attempt.answered s .registration calls).created ▸
    Nat.lt_succ_self s.created)
  reg c handle := by
    have created := (Attempt.answered s .registration calls).created
    obtain rfl := Option.some.inj handle
    exact .inr ⟨Nat.le_refl _, created ▸ Nat.lt_succ_self s.created⟩
  queue := by
    obtain ⟨sent, queue, silent⟩ := (frame_succeeded s .registration calls).queue
    exact ⟨sent, queue, fun x member => (silent x member).2⟩

/-- `iot_es_connect` for a registration keeps the event client. -/
theorem steady_register {calls : Calls} {error : IotError} (handles : Distinct s)
    (returned : s.esConnect .registration calls = .returned error t) : Steady s t := by
  obtain ⟨-, -, rfl⟩ | ⟨call, -, -, -, ended, -⟩ := returned_cases returned
  · exact steady_succeeded calls handles
  · exact ended.steady handles

theorem steady_registeringFailed (s : Context) (error : IotError) :
    Steady s (s.registeringFailed error) := by
  have status : Steady s { s with esNetworkStatus := error } := .same rfl rfl rfl rfl rfl rfl
  unfold registeringFailed
  split
  · exact status.trans (.commandSend _ (by simp))
  · exact (status.trans (.commandSend _ (by simp))).trans (.commandSend _ (by simp))

theorem steady_registeringDone (error : IotError) (s : Context) :
    Steady s (registeringDone error s) := by
  unfold registeringDone
  split
  · have status : Steady s { s with esNetworkStatus := .mqttRejectConnect } :=
      .same rfl rfl rfl rfl rfl rfl
    exact (status.trans (Steady.absorbs.easysetupDeinit _)).trans (.commandSend _ (by simp))
  · exact .same rfl rfl rfl rfl rfl rfl
  · exact steady_registeringFailed s _
  · exact steady_registeringFailed s _

theorem standing_registeringConnect {x : Inputs} (standing : Standing s)
    (handled : s.registeringConnect x = some t) : Standing t := by
  have asked : Steady s { s with settings.d2dEventRequest := true } :=
    .same rfl rfl rfl rfl rfl rfl
  have closed := asked.trans (steady_closePrevious (asked.handles standing.handles))
  have ready : Steady s s.registeringReady := closed.trans (.same rfl rfl rfl rfl rfl rfl)
  unfold registeringConnect at handled
  cases outcome : s.registeringReady.esConnect .registration x.calls with
  | returned error u =>
      rw [outcome] at handled
      obtain rfl := Option.some.inj handled
      have connected := steady_register (ready.handles standing.handles) outcome
      exact ((ready.trans connected).trans (steady_registeringDone error u)).standing standing
  | rebooted =>
      rw [outcome] at handled
      obtain rfl := Option.some.inj handled
      exact standing_reboot s
  | undefined =>
      rw [outcome] at handled
      cases handled

theorem standing_cloudRegistering {x : Inputs} (standing : Standing s)
    (handled : s.cloudRegistering x = some t) : Standing t := by
  have closed := Steady.absorbs.closeHttp s
  have failed : Steady s { s.closeHttp with esNetworkStatus := x.station } :=
    closed.trans (.same rfl rfl rfl rfl rfl rfl)
  unfold cloudRegistering at handled
  split at handled
  · obtain rfl := Option.some.inj handled
    exact (Steady.absorbs.easysetupDeinit s).standing standing
  split at handled
  · exact standing_registeringConnect standing handled
  split at handled
  · have station := closed.trans (Steady.absorbs.wifiMode _ true .none)
    exact standing_registeringConnect (station.standing standing) handled
  split at handled
  · obtain rfl := Option.some.inj handled
    exact (failed.trans (.commandSend _ (by simp))).standing standing
  · obtain rfl := Option.some.inj handled
    exact (failed.trans (Steady.absorbs.easysetupDeinit _)).standing standing

theorem standing_cloudRegistered {x : Inputs} (standing : Standing s) :
    Standing (s.cloudRegistered x) := by
  have closed := steady_esDisconnect standing.handles
  have status : Steady s { s.esDisconnect .registration with esNetworkStatus := x.setDeviceId } :=
    closed.trans (.same rfl rfl rfl rfl rfl rfl)
  have sent : Steady s ({ s.esDisconnect .registration with
      esNetworkStatus := x.setDeviceId }.stateUpdate .cloudDisconnected) :=
    status.trans (.commandSend _ (by simp))
  have cleared : Steady s (s.cloudRegistered x) := sent.trans (.same rfl rfl rfl rfl rfl rfl)
  exact cleared.standing standing

end Registration

end StDevice.Main.Context
