import StDevice.Main.Connected

/-!
# What a restart leaves of the past

`st_conn_start_ex` stops a working device and forces it back into its first state. It says
that it removes all commands first, but it removes none, and it stops no timer. What was
sent before is handled after the restart.

In the first state only some of the commands do nothing, and those are behind nothing but
each other, so the state stays the first one until the last of them is gone. A restart
fences the past off when the queue holds no other commands and the retry timer is not
armed. The state timer is harmless: it does nothing in the first state, and it is set
anew when this state is left.
-/

namespace StDevice.Main

/-- The command does nothing in the first state. -/
def Command.inert : Command → Bool
  | .stateUpdate .provEnter | .stateUpdate .provDone | .stateUpdate .cloudDisconnected => false
  | .stateUpdate _ => true
  | .notificationReceived .devDeleted | .notificationReceived .jwtExpired => false
  | .notificationReceived _ => true
  | .cloudRegistering | .cloudRegistered | .cloudConnecting => false

namespace Context

/-- Nothing is left that acts in the first state or later. -/
def Inert (s : Context) : Prop :=
  s.nextConnectionRetryTimer = none ∧ ∀ x ∈ s.queue, x.command.inert = true

/-- Every change of the state and every connection since `s` is due to work created after
the epoch of `s`. -/
def Fenced (s t : Context) : Prop :=
  ∃ done, t.acted = done ++ s.acted ∧ ∀ p ∈ done, s.epoch < p.1

/-- Work of the origin of the context: all that it sends, arms and does has this origin.
The state timer is set anew unless the state stays or is the first one. -/
structure Worked (s t : Context) : Prop where
  epoch : t.epoch = s.epoch
  origin : t.origin = s.origin
  queue : ∃ sent, t.queue = s.queue ++ sent ∧ ∀ x ∈ sent, x.origin = s.origin
  acted : ∃ done, t.acted = done ++ s.acted ∧ ∀ p ∈ done, p.1 = s.origin
  retryTimer : t.nextConnectionRetryTimer = s.nextConnectionRetryTimer ∨
    ∀ o, t.nextConnectionRetryTimer = some o → o = s.origin
  stateTimer : (t.stateTimer = s.stateTimer ∧
      (t.currState = s.currState ∨ t.currState = .initialized)) ∨
    ∀ o, t.stateTimer = some o → o = s.origin

namespace Worked

variable {s t u : Context}

/-- What work of the origin changes is as before. -/
theorem same (epoch : t.epoch = s.epoch) (origin : t.origin = s.origin)
    (queue : t.queue = s.queue) (acted : t.acted = s.acted)
    (retryTimer : t.nextConnectionRetryTimer = s.nextConnectionRetryTimer)
    (stateTimer : t.stateTimer = s.stateTimer) (currState : t.currState = s.currState) :
    Worked s t where
  epoch := epoch
  origin := origin
  queue := ⟨[], by rw [queue, List.append_nil], by simp⟩
  acted := ⟨[], acted, by simp⟩
  retryTimer := .inl retryTimer
  stateTimer := .inl ⟨stateTimer, .inl currState⟩

theorem refl (s : Context) : Worked s s := same rfl rfl rfl rfl rfl rfl rfl

theorem trans (first : Worked s t) (second : Worked t u) : Worked s u where
  epoch := second.epoch.trans first.epoch
  origin := second.origin.trans first.origin
  queue := by
    obtain ⟨sent, queue, origins⟩ := first.queue
    obtain ⟨sent', queue', origins'⟩ := second.queue
    refine ⟨sent ++ sent', by rw [queue', queue, List.append_assoc], ?_⟩
    intro x member
    obtain member | member := List.mem_append.mp member
    · exact origins x member
    · exact (origins' x member).trans first.origin
  acted := by
    obtain ⟨done, acted, origins⟩ := first.acted
    obtain ⟨done', acted', origins'⟩ := second.acted
    refine ⟨done' ++ done, by rw [acted', acted, List.append_assoc], ?_⟩
    intro p member
    obtain member | member := List.mem_append.mp member
    · exact (origins' p member).trans first.origin
    · exact origins p member
  retryTimer := by
    obtain same | fresh := second.retryTimer
    · rw [same]
      exact first.retryTimer
    · exact .inr fun o armed => (fresh o armed).trans first.origin
  stateTimer := by
    obtain ⟨timer, state⟩ | fresh := second.stateTimer
    · obtain ⟨timer', state'⟩ | fresh' := first.stateTimer
      · refine .inl ⟨timer.trans timer', ?_⟩
        obtain state | state := state
        · rw [state]
          exact state'
        · exact .inr state
      · exact .inr fun o armed => fresh' o (timer ▸ armed)
    · exact .inr fun o armed => (fresh o armed).trans first.origin

theorem commandSend (s : Context) (command : Command) : Worked s (s.commandSend command) where
  epoch := rfl
  origin := rfl
  queue := by
    by_cases memory : s.memory s.sends = true
    · exact ⟨[⟨command, s.origin⟩], by simp [Context.commandSend, memory], by simp⟩
    · exact ⟨[], by simp [Context.commandSend, memory], by simp⟩
  acted := ⟨[], rfl, by simp⟩
  retryTimer := .inl rfl
  stateTimer := .inl ⟨rfl, .inl rfl⟩

theorem absorbs : Absorbs Worked where
  refl := refl
  trans := trans
  settings _ _ _ _ := same rfl rfl rfl rfl rfl rfl rfl
  confirm s := commandSend s _

/-- Work between two commands. -/
theorem frame {c : Nat} (frame : Frame c s t)
    (acted : t.acted = s.acted ∨ t.acted = (s.origin, s.epoch) :: s.acted) : Worked s t where
  epoch := frame.epoch
  origin := frame.origin
  queue := by
    obtain ⟨sent, queue, commands⟩ := frame.queue
    exact ⟨sent, queue, fun x member => (commands x member).1⟩
  acted := by
    obtain same | once := acted
    · exact ⟨[], same, by simp⟩
    · exact ⟨[(s.origin, s.epoch)], once, by simp⟩
  retryTimer := .inl frame.retryTimer
  stateTimer := .inl ⟨frame.stateTimer, .inl frame.currState⟩

theorem esDisconnect (s : Context) (type : ConnType) : Worked s (s.esDisconnect type) := by
  cases type with
  | communication =>
      simp only [Context.esDisconnect]
      cases s.evtMqttcli with
      | _ => exact same rfl rfl rfl rfl rfl rfl rfl
  | registration =>
      simp only [Context.esDisconnect]
      cases s.regMqttcli with
      | _ => exact same rfl rfl rfl rfl rfl rfl rfl

theorem closePrevious (s : Context) (type : ConnType) : Worked s (s.closePrevious type) := by
  cases type with
  | _ =>
      simp only [Context.closePrevious]
      split
      · exact refl s
      · exact esDisconnect s _

/-- `iot_es_connect`. -/
theorem esConnect {type : ConnType} {calls : Calls} {error : IotError}
    (returned : s.esConnect type calls = .returned error t) : Worked s t := by
  obtain ⟨-, -, rfl⟩ | ⟨call, -, -, -, ended, -⟩ := returned_cases returned
  · have acted := (Attempt.answered s type calls).acted
    refine frame (frame_succeeded s type calls) ?_
    cases type with
    | _ => exact acted
  · exact frame ended.frame ended.acted

end Worked

section Commands

variable {s t : Context} {x : Inputs}

theorem worked_enterEasysetup (s : Context) (ble : Bool) (x : Inputs) :
    Worked s (s.enterEasysetup ble x).ctx := by
  have softap := Worked.absorbs.softapMode s
  unfold enterEasysetup
  split
  · exact .refl s
  split
  · exact Worked.absorbs.wifiMode s false .none
  split
  · exact softap
  · exact softap.trans (.same rfl rfl rfl rfl rfl rfl rfl)

theorem worked_enter (s : Context) (state : IotState) (x : Inputs) :
    Worked s (s.enter state x).ctx := by
  unfold enter
  split
  · exact worked_enterEasysetup s s.ble x
  · exact .commandSend s _
  · exact .commandSend s _
  · exact .commandSend s _
  · exact .commandSend s _
  · exact .commandSend s _
  · exact (Worked.absorbs.closeHttp s).trans (Worked.absorbs.wifiMode _ false x.wifiOff)
  · exact worked_enterEasysetup s false x
  · exact .refl s
  · exact .refl s
  · exact .refl s
  · exact .refl s
  · exact .refl s

theorem worked_commit (entered : Entered) (state : IotState) (x : Inputs) :
    Worked entered.ctx (entered.commit state x) := by
  unfold Entered.commit
  split
  · refine ⟨rfl, rfl, ⟨[], (List.append_nil _).symm, by simp⟩,
      ⟨[(entered.ctx.origin, entered.ctx.epoch)], rfl, by simp⟩, .inl rfl, .inr ?_⟩
    intro o armed
    by_cases timeout : (entered.timeout && x.stateTimer) = true
    · simp only [timeout, if_true] at armed
      exact (Option.some.inj armed).symm
    · simp only [timeout] at armed
      cases armed
  · exact .refl _

/-- A command works in its origin, and may then reboot the device. -/
def Done (s t : Context) : Prop := Worked s t ∨ ∃ u, Worked s u ∧ t = u.reboot

theorem Done.prepared {u : Context} (first : Worked s u) (done : Done u t) : Done s t := by
  obtain worked | ⟨v, worked, rfl⟩ := done
  · exact .inl (first.trans worked)
  · exact .inr ⟨v, first.trans worked, rfl⟩

/-- A command that connects. -/
theorem done_afterConnect {u : Context} {type : ConnType} {calls : Calls}
    {next : IotError → Context → Context} (ready : Worked s u)
    (after : ∀ error v, Worked v (next error v))
    (handled : afterConnect s next (u.esConnect type calls) = some t) : Done s t := by
  cases outcome : u.esConnect type calls with
  | returned error v =>
      rw [outcome] at handled
      obtain rfl := Option.some.inj handled
      exact .inl ((ready.trans (.esConnect outcome)).trans (after error v))
  | rebooted =>
      rw [outcome] at handled
      obtain rfl := Option.some.inj handled
      exact .inr ⟨s, .refl s, rfl⟩
  | undefined =>
      rw [outcome] at handled
      cases handled

theorem worked_registeringFailed (s : Context) (error : IotError) :
    Worked s (s.registeringFailed error) := by
  have status : Worked s { s with esNetworkStatus := error } := .same rfl rfl rfl rfl rfl rfl rfl
  unfold registeringFailed
  split
  · exact status.trans (.commandSend _ _)
  · exact (status.trans (.commandSend _ _)).trans (.commandSend _ _)

theorem worked_registeringDone (error : IotError) (s : Context) :
    Worked s (registeringDone error s) := by
  unfold registeringDone
  split
  · have status : Worked s { s with esNetworkStatus := .mqttRejectConnect } :=
      .same rfl rfl rfl rfl rfl rfl rfl
    exact (status.trans (Worked.absorbs.easysetupDeinit _)).trans (.commandSend _ _)
  · exact .same rfl rfl rfl rfl rfl rfl rfl
  · exact worked_registeringFailed s _
  · exact worked_registeringFailed s _

theorem done_registeringConnect (handled : s.registeringConnect x = some t) : Done s t := by
  have asked : Worked s { s with settings.d2dEventRequest := true } :=
    .same rfl rfl rfl rfl rfl rfl rfl
  have closed := asked.trans (.closePrevious _ .registration)
  have ready : Worked s s.registeringReady := closed.trans (.same rfl rfl rfl rfl rfl rfl rfl)
  exact done_afterConnect ready worked_registeringDone handled

theorem done_cloudRegistering (handled : s.cloudRegistering x = some t) : Done s t := by
  have closed := Worked.absorbs.closeHttp s
  have failed : Worked s { s.closeHttp with esNetworkStatus := x.station } :=
    closed.trans (.same rfl rfl rfl rfl rfl rfl rfl)
  unfold cloudRegistering at handled
  split at handled
  · obtain rfl := Option.some.inj handled
    exact .inl (Worked.absorbs.easysetupDeinit s)
  split at handled
  · exact done_registeringConnect handled
  split at handled
  · have station := closed.trans (Worked.absorbs.wifiMode _ true .none)
    exact (done_registeringConnect handled).prepared station
  split at handled
  · obtain rfl := Option.some.inj handled
    exact .inl (failed.trans (.commandSend _ _))
  · obtain rfl := Option.some.inj handled
    exact .inl (failed.trans (Worked.absorbs.easysetupDeinit _))

theorem worked_cloudRegistered (s : Context) (x : Inputs) : Worked s (s.cloudRegistered x) := by
  have closed := Worked.esDisconnect s .registration
  have status : Worked s { s.esDisconnect .registration with esNetworkStatus := x.setDeviceId } :=
    closed.trans (.same rfl rfl rfl rfl rfl rfl rfl)
  have sent : Worked s ({ s.esDisconnect .registration with
      esNetworkStatus := x.setDeviceId }.stateUpdate .cloudDisconnected) :=
    status.trans (.commandSend _ _)
  exact sent.trans (.same rfl rfl rfl rfl rfl rfl rfl)

theorem worked_connectingFailed (s : Context) (error : IotError) (x : Inputs) :
    Worked s (s.connectingFailed error x) := by
  unfold connectingFailed
  split
  · refine ⟨rfl, rfl, ⟨[], (List.append_nil _).symm, by simp⟩, ⟨[], rfl, by simp⟩, .inr ?_,
      .inl ⟨rfl, .inl rfl⟩⟩
    intro o armed
    exact (Option.some.inj armed).symm
  · exact ⟨rfl, rfl, ⟨[], (List.append_nil _).symm, by simp⟩, ⟨[], rfl, by simp⟩, .inr nofun,
      .inl ⟨rfl, .inl rfl⟩⟩

theorem worked_connectingDone (x : Inputs) (error : IotError) (s : Context) :
    Worked s (connectingDone x error s) := by
  unfold connectingDone
  split
  · exact .commandSend s _
  · exact .commandSend s _
  · have succeeded : Worked s s.connectingSucceeded :=
      ⟨rfl, rfl, ⟨[], (List.append_nil _).symm, by simp⟩, ⟨[], rfl, by simp⟩, .inr nofun,
        .inl ⟨rfl, .inl rfl⟩⟩
    refine Worked.trans ?_ (.commandSend _ _)
    split
    · exact succeeded.trans (Worked.absorbs.easysetupDeinit _)
    · exact succeeded
  · exact worked_connectingFailed s error x

theorem done_cloudConnecting (handled : s.cloudConnecting x = some t) : Done s t := by
  have closed := Worked.absorbs.closeHttp s
  have connect : ∀ u, Worked s u → u.connectingConnect x = some t → Done s t := by
    intro u ready connected
    have done := done_afterConnect (.closePrevious u .communication) (worked_connectingDone x)
      connected
    exact done.prepared ready
  unfold cloudConnecting at handled
  split at handled
  · obtain rfl := Option.some.inj handled
    exact .inl ((Worked.absorbs.easysetupDeinit s).trans (.commandSend _ _))
  split at handled
  · obtain rfl := Option.some.inj handled
    exact .inl (.refl s)
  split at handled
  · obtain rfl := Option.some.inj handled
    exact .inl (.commandSend s _)
  split at handled
  · exact connect s (.refl s) handled
  split at handled
  · exact connect _ (closed.trans (Worked.absorbs.wifiMode _ true .none)) handled
  · obtain rfl := Option.some.inj handled
    exact .inl (closed.trans (.commandSend _ _))

theorem done_command {command : Command} (handled : s.doIotMainCommand command x = some t) :
    Done s t := by
  cases command with
  | stateUpdate state =>
      obtain rfl := Option.some.inj handled
      exact .inl ((worked_enter s state x).trans (worked_commit _ state x))
  | cloudRegistering => exact done_cloudRegistering handled
  | cloudRegistered =>
      obtain rfl := Option.some.inj handled
      exact .inl (worked_cloudRegistered s x)
  | cloudConnecting => exact done_cloudConnecting handled
  | notificationReceived noti =>
      cases noti with
      | jwtExpired =>
          exact done_afterConnect (.esDisconnect s .communication) (fun _ v => .refl v) handled
      | devDeleted =>
          simp only [doIotMainCommand, notificationReceived] at handled
          split at handled
          · obtain rfl := Option.some.inj handled
            exact .inl (.same rfl rfl rfl rfl rfl rfl rfl)
          · obtain rfl := Option.some.inj handled
            exact .inr ⟨s, .refl s, rfl⟩
      | _ =>
          obtain rfl := Option.some.inj handled
          exact .inl (.refl s)

/-- In the first state an inert command does nothing. -/
theorem inert_command {command : Command} (first : s.currState = .initialized)
    (inert : command.inert = true) (handled : s.doIotMainCommand command x = some t) : t = s := by
  cases command with
  | stateUpdate state =>
      obtain rfl := Option.some.inj handled
      cases state with
      | provEnter | provDone | cloudDisconnected => cases inert
      | _ => simp [doStateUpdating, enter, first, Entered.commit]
  | notificationReceived noti =>
      cases noti with
      | devDeleted | jwtExpired => cases inert
      | _ => exact (Option.some.inj handled).symm
  | _ => cases inert

end Commands

/-- After a restart in the epoch `n`: what is left of the past is inert and in front of the
queue, the state is the first one until it is gone, and all else is of a later origin. -/
structure Fence (past : List (Nat × Nat)) (n : Nat) (s : Context) : Prop where
  epoch : n < s.epoch
  queue : ∃ old fresh, s.queue = old ++ fresh ∧ (∀ x ∈ old, x.command.inert = true) ∧
    (∀ x ∈ fresh, n < x.origin) ∧ (old ≠ [] → s.currState = .initialized)
  acted : ∃ done, s.acted = done ++ past ∧ ∀ p ∈ done, n < p.1
  retryTimer : ∀ o, s.nextConnectionRetryTimer = some o → n < o
  stateTimer : ∀ o, s.stateTimer = some o → n < o ∨ s.currState = .initialized

namespace Fence

variable {past : List (Nat × Nat)} {n : Nat} {s t : Context}

/-- Work of a later origin keeps the fence, if it keeps the first state or nothing of the
past is left. -/
theorem worked (h : Fence past n s) (later : n < s.origin) (worked : Worked s t)
    (still : t.currState = s.currState ∨ t.currState = .initialized ∨
      ∀ x ∈ s.queue, n < x.origin) : Fence past n t where
  epoch := worked.epoch ▸ h.epoch
  queue := by
    obtain ⟨sent, queue, origins⟩ := worked.queue
    have sentLater : ∀ x ∈ sent, n < x.origin := fun x member => origins x member ▸ later
    obtain ⟨old, fresh, split, inert, freshLater, first⟩ := h.queue
    have appended : ∀ x ∈ fresh ++ sent, n < x.origin := by
      intro x member
      obtain member | member := List.mem_append.mp member
      · exact freshLater x member
      · exact sentLater x member
    obtain same | reset | empty := still
    · exact ⟨old, fresh ++ sent, by rw [queue, split, List.append_assoc], inert, appended,
        fun left => same.trans (first left)⟩
    · exact ⟨old, fresh ++ sent, by rw [queue, split, List.append_assoc], inert, appended,
        fun _ => reset⟩
    · refine ⟨[], s.queue ++ sent, queue, by simp, ?_, by simp⟩
      intro x member
      obtain member | member := List.mem_append.mp member
      · exact empty x member
      · exact sentLater x member
  acted := by
    obtain ⟨done, acted, origins⟩ := h.acted
    obtain ⟨done', acted', origins'⟩ := worked.acted
    refine ⟨done' ++ done, by rw [acted', acted, List.append_assoc], ?_⟩
    intro p member
    obtain member | member := List.mem_append.mp member
    · exact origins' p member ▸ later
    · exact origins p member
  retryTimer := by
    intro o armed
    obtain same | fresh := worked.retryTimer
    · exact h.retryTimer o (same ▸ armed)
    · exact fresh o armed ▸ later
  stateTimer := by
    intro o armed
    obtain ⟨timer, state⟩ | fresh := worked.stateTimer
    · obtain state | state := state
      · rw [state]
        exact h.stateTimer o (timer ▸ armed)
      · exact .inr state
    · exact .inl (fresh o armed ▸ later)

theorem reboot (h : Fence past n s) (later : n < s.origin) : Fence past n s.reboot where
  epoch := h.epoch
  queue := ⟨[], [], rfl, by simp, by simp, by simp⟩
  acted := by
    obtain ⟨done, acted, origins⟩ := h.acted
    refine ⟨(s.origin, s.epoch) :: done, by simp [Context.reboot, acted], ?_⟩
    intro p member
    obtain rfl | member := List.mem_cons.mp member
    · exact later
    · exact origins p member
  retryTimer := nofun
  stateTimer := nofun

/-- The main task takes a command out of the queue. -/
theorem handle {entry : Entry} {queue : List Entry} {x : Inputs} (h : Fence past n s)
    (queued : s.queue = entry :: queue)
    (handled : { s with queue := queue, origin := entry.origin }.doIotMainCommand
      entry.command x = some t) : Fence past n t := by
  obtain ⟨old, fresh, split, inert, later, first⟩ := h.queue
  rw [queued] at split
  cases old with
  | nil =>
      have origins : ∀ y ∈ entry :: queue, n < y.origin := by
        rw [split]
        exact later
      have popped : Fence past n { s with queue := queue, origin := entry.origin } :=
        ⟨h.epoch, ⟨[], queue, rfl, by simp,
          fun y member => origins y (List.mem_cons_of_mem _ member), by simp⟩, h.acted,
          h.retryTimer, h.stateTimer⟩
      have origin : n < entry.origin := origins entry List.mem_cons_self
      have rest : ∀ y ∈ queue, n < y.origin :=
        fun y member => origins y (List.mem_cons_of_mem entry member)
      obtain worked | ⟨u, worked, rfl⟩ := done_command handled
      · exact popped.worked origin worked (.inr (.inr rest))
      · refine (popped.worked origin worked (.inr (.inr rest))).reboot ?_
        rw [worked.origin]
        exact origin
  | cons y old =>
      obtain ⟨rfl, rest⟩ := List.cons.inj split
      have initialized := first (List.cons_ne_nil _ _)
      have none := inert_command (s := { s with queue := queue, origin := entry.origin })
        initialized (inert entry List.mem_cons_self) handled
      rw [none]
      exact ⟨h.epoch, ⟨old, fresh, rest, fun z member => inert z (List.mem_cons_of_mem _ member),
        later, fun _ => initialized⟩, h.acted, h.retryTimer, h.stateTimer⟩

/-- The work done next belongs to the present, which is later than the restart. -/
theorem present (h : Fence past n s) : Fence past n s.present :=
  ⟨h.epoch, h.queue, h.acted, h.retryTimer, h.stateTimer⟩

end Fence

theorem worked_cleanup (s : Context) : Worked s s.cleanup := by
  have http := Worked.absorbs.closeHttp s
  have ble : Worked s { s.closeHttp with
      settings.esBleReady := false
      settings.brokerUrl := false } := http.trans (.same rfl rfl rfl rfl rfl rfl rfl)
  have clients := (ble.trans (.closePrevious _ .communication)).trans
    (.closePrevious _ .registration)
  exact ⟨clients.epoch, clients.origin, clients.queue, clients.acted, clients.retryTimer,
    clients.stateTimer.imp (fun same => ⟨same.1, .inr rfl⟩) id⟩

theorem worked_checkProvStatus (s : Context) (stored : StoredData) :
    Worked s (s.checkProvStatus stored) := by
  cases stored with
  | _ => exact .same rfl rfl rfl rfl rfl rfl rfl

/-- `st_conn_start_ex` after it has stopped the device. -/
theorem worked_startEx (s : Context) (start : StartPoint) :
    Worked s.stopWorking (s.startEx start) ∧
      (s.startEx start).currState = s.stopWorking.currState := by
  cases start with
  | connecting stored =>
      have checked := worked_checkProvStatus s.stopWorking stored
      have state : (s.stopWorking.checkProvStatus stored).currState =
          s.stopWorking.currState := by
        cases stored with
        | _ => rfl
      simp only [startEx]
      split
      · exact ⟨checked, state⟩
      · exact ⟨checked.trans (.commandSend _ _), state⟩
  | provisioning resources =>
      simp only [startEx]
      split
      · have fresh : Worked s.stopWorking { s.stopWorking with settings.newReged := true } :=
          .same rfl rfl rfl rfl rfl rfl rfl
        exact ⟨fresh.trans (.commandSend _ _), rfl⟩
      · exact ⟨.refl _, rfl⟩

/-- What the cleanup of a restart leaves as it is; it sends inert commands at most. -/
structure Tidied (s t : Context) : Prop where
  retryTimer : t.nextConnectionRetryTimer = s.nextConnectionRetryTimer
  acted : t.acted = s.acted
  queue : ∃ sent, t.queue = s.queue ++ sent ∧ ∀ x ∈ sent, x.command.inert = true

namespace Tidied

variable {s t u : Context}

theorem same (retryTimer : t.nextConnectionRetryTimer = s.nextConnectionRetryTimer)
    (acted : t.acted = s.acted) (queue : t.queue = s.queue) : Tidied s t :=
  ⟨retryTimer, acted, [], by rw [queue, List.append_nil], by simp⟩

theorem trans (first : Tidied s t) (second : Tidied t u) : Tidied s u := by
  obtain ⟨sent, queue, inert⟩ := first.queue
  obtain ⟨sent', queue', inert'⟩ := second.queue
  refine ⟨second.retryTimer.trans first.retryTimer, second.acted.trans first.acted,
    sent ++ sent', by rw [queue', queue, List.append_assoc], ?_⟩
  intro x member
  obtain member | member := List.mem_append.mp member
  · exact inert x member
  · exact inert' x member

theorem absorbs : Absorbs Tidied where
  refl s := same rfl rfl rfl
  trans := trans
  settings _ _ _ _ := same rfl rfl rfl
  confirm s := by
    refine ⟨rfl, rfl, ?_⟩
    by_cases memory : s.memory s.sends = true
    · exact ⟨[⟨.stateUpdate .provConfirm, s.origin⟩],
        by simp [stateUpdate, commandSend, memory], by simp [Command.inert]⟩
    · exact ⟨[], by simp [stateUpdate, commandSend, memory], by simp⟩

theorem closePrevious (s : Context) (type : ConnType) : Tidied s (s.closePrevious type) := by
  cases type with
  | communication =>
      simp only [Context.closePrevious, esDisconnect]
      cases s.evtMqttcli with
      | none => exact same rfl rfl rfl
      | some c => exact same rfl rfl rfl
  | registration =>
      simp only [Context.closePrevious, esDisconnect]
      cases s.regMqttcli with
      | none => exact same rfl rfl rfl
      | some c => exact same rfl rfl rfl

theorem cleanup (s : Context) : Tidied s s.cleanup := by
  have http := absorbs.closeHttp s
  have ble : Tidied s { s.closeHttp with
      settings.esBleReady := false
      settings.brokerUrl := false } := http.trans (same rfl rfl rfl)
  have clients := (ble.trans (closePrevious _ .communication)).trans
    (closePrevious _ .registration)
  exact ⟨clients.retryTimer, clients.acted, clients.queue⟩

end Tidied

section Restarted

variable {past : List (Nat × Nat)} {n : Nat} {s t : Context}

/-- A restart with nothing but inert commands pending sets up the fence. -/
theorem fence_stopWorking (working : s.currState ≠ .initialized) (inert : s.Inert) :
    Fence s.acted s.epoch s.stopWorking := by
  have tidied := Tidied.cleanup s.present
  obtain ⟨sent, queue, sentInert⟩ := tidied.queue
  unfold stopWorking
  rw [if_pos working]
  refine ⟨Nat.lt_succ_self _, ⟨s.queue ++ sent, [], ?_, ?_, by simp, fun _ => rfl⟩,
    ⟨[], tidied.acted, by simp⟩, ?_, fun _ _ => .inr rfl⟩
  · rw [List.append_nil]
    exact queue
  · intro x member
    obtain member | member := List.mem_append.mp member
    · exact inert.2 x member
    · exact sentInert x member
  · intro o armed
    have timer : s.present.cleanup.nextConnectionRetryTimer = none :=
      tidied.retryTimer.trans inert.1
    cases timer.symm.trans armed

theorem origin_stopWorking (s : Context) : s.stopWorking.origin = s.stopWorking.epoch := by
  unfold stopWorking
  split
  · rfl
  · rfl

/-- Later restarts keep the fence. -/
theorem Fence.stopWorking (h : Fence past n s) : Fence past n s.stopWorking := by
  unfold Context.stopWorking
  split
  · have cleaned := h.present.worked h.epoch (worked_cleanup s.present) (.inr (.inl rfl))
    exact ⟨Nat.lt_succ_of_lt h.epoch, cleaned.queue, cleaned.acted, cleaned.retryTimer,
      cleaned.stateTimer⟩
  · exact h.present

theorem Fence.startEx (h : Fence past n s.stopWorking) (start : StartPoint) :
    Fence past n (s.startEx start) := by
  obtain ⟨worked, state⟩ := worked_startEx s start
  exact h.worked (origin_stopWorking s ▸ h.epoch) worked (.inl state)

theorem Fence.stateTimeout {o : Nat} (h : Fence past n s) (armed : s.stateTimer = some o) :
    Fence past n ({ s with stateTimer := none, origin := o }.stateTimeout) := by
  have expired : Fence past n { s with stateTimer := none, origin := o } :=
    ⟨h.epoch, h.queue, h.acted, h.retryTimer, nofun⟩
  obtain later | initialized := h.stateTimer o armed
  · unfold Context.stateTimeout
    split
    · exact expired.worked later (.commandSend _ _) (.inl rfl)
    · exact expired.worked later (.commandSend _ _) (.inl rfl)
    · exact expired
  · have idle : { s with stateTimer := none, origin := o }.stateTimeout =
        { s with stateTimer := none, origin := o } := by
      simp [Context.stateTimeout, initialized]
    rw [idle]
    exact expired

/-- Every step keeps the fence. -/
theorem Fence.step {e : MainEvent} (h : Fence past n s) (transition : s.Transition e t) :
    Fence past n t := by
  unfold Transition Context.step at transition
  cases e with
  | handle x =>
      cases queued : s.queue with
      | nil => simp [queued] at transition
      | cons entry queue =>
          simp only [queued] at transition
          exact h.handle queued transition
  | client type event =>
      obtain ⟨c, -, rfl⟩ := Option.map_eq_some_iff.mp transition
      have kept := Kept.clientEvent type c s.present event
      exact h.present.worked h.epoch (.frame kept.frame (.inl kept.acted))
        (.inl kept.frame.currState)
  | stateTimeout =>
      obtain ⟨o, armed, rfl⟩ := Option.map_eq_some_iff.mp transition
      exact h.stateTimeout armed
  | retryTimeout =>
      obtain ⟨o, armed, rfl⟩ := Option.map_eq_some_iff.mp transition
      have expired : Fence past n { s with nextConnectionRetryTimer := none, origin := o } :=
        ⟨h.epoch, h.queue, h.acted, nofun, h.stateTimer⟩
      exact expired.worked (h.retryTimer o armed) (.commandSend _ _) (.inl rfl)
  | post command =>
      simp only at transition
      split at transition
      · cases transition
      · obtain rfl := Option.some.inj transition
        exact h.present.worked h.epoch (.commandSend _ _) (.inl rfl)
  | configure settings =>
      obtain rfl := Option.some.inj transition
      exact ⟨h.epoch, h.queue, h.acted, h.retryTimer, h.stateTimer⟩
  | startEx start =>
      obtain rfl := Option.some.inj transition
      exact h.stopWorking.startEx start

end Restarted

/-- A connected device loses its connection and reports it. -/
def connectionLost : List MainEvent :=
  bringUp ++ [.client .communication (.dropped true), .client .communication .disconnected]

end Context

end StDevice.Main
