import StDevice.Foundation.Run
import StDevice.Main.Connection

/-!
# The commands of the main task

The task takes one main command at a time out of the work queue and runs it to its end.
Between two commands the clients deliver events, timers expire, other code sends
commands and sets flags, and the application may restart the device.

A run of the device is any sequence of these steps. The results of the calls a command
makes are part of the step.
-/

namespace StDevice.Main

/-- The results of the calls a command makes. -/
structure Inputs where
  station : IotError := .none
  scan : IotError := .none
  softap : IotError := .none
  bleCtrl : IotError := .none
  wifiOff : IotError := .none
  stateTimer : Bool := true
  retryTimer : Bool := true
  setDeviceId : IotError := .none
  calls : Calls := {}

namespace Context

/-- `iot_wifi_ctrl_request` first closes an easysetup over HTTP, to leave it or to use the
station mode. -/
def closeHttp (s : Context) : Context :=
  if s.settings.esHttpReady then { s with settings.esHttpReady := false }.easysetupDeinit else s

/-- `iot_wifi_ctrl_request` for a mode whose result is known. -/
def wifiMode (s : Context) (station : Bool) (result : IotError) : Context :=
  if result = .none then { s with settings.isWifiStation := station } else s

/-- What the switch of `_do_state_updating` does: the context, whether the function goes
on after the switch, and whether it has a timeout to set. -/
structure Entered where
  ctx : Context
  accepted : Bool
  timeout : Bool

/-- The wifi is ready for an easysetup. -/
def softapMode (s : Context) : Context :=
  { s.wifiMode false .none with
    settings.esHttpReady := s.softap || s.settings.esHttpReady }

/-- The wifi modes for an easysetup. When only the BLE part fails, the state is still
assigned, without a timeout. -/
def enterEasysetup (s : Context) (ble : Bool) (x : Inputs) : Entered :=
  if x.scan ≠ .none then ⟨s, false, false⟩
  else if s.softap ∧ x.softap ≠ .none then ⟨s.wifiMode false .none, false, false⟩
  else if ble ∧ x.bleCtrl ≠ .none then ⟨s.softapMode, true, false⟩
  else
    ⟨{ s.softapMode with settings.esBleReady := ble || s.settings.esBleReady }, true, true⟩

/-- The switch of `_do_state_updating`. -/
def enter (s : Context) (state : IotState) (x : Inputs) : Entered :=
  match s.currState, state with
  | .initialized, .provEnter => s.enterEasysetup s.ble x
  | .initialized, .provDone | .provConfirm, .provDone =>
      ⟨s.commandSend .cloudRegistering, true, true⟩
  | .initialized, .cloudDisconnected | .provDone, .cloudDisconnected
  | .cloudConnected, .cloudDisconnected => ⟨s.commandSend .cloudConnecting, true, false⟩
  | .provEnter, .provSleep => ⟨s.closeHttp.wifiMode false x.wifiOff, true, false⟩
  | .provDone, .provEnter => s.enterEasysetup false x
  | .provEnter, .provConfirm | .provDone, .provConfirm | .cloudDisconnected, .provConfirm
  | .cloudDisconnected, .cloudConnected => ⟨s, true, false⟩
  | _, _ => ⟨s, false, false⟩

/-- `_do_state_updating` after the switch. -/
def Entered.commit (entered : Entered) (state : IotState) (x : Inputs) : Context :=
  if entered.accepted then
    { entered.ctx.act with
      currState := state
      stateTimer := if entered.timeout && x.stateTimer then some entered.ctx.origin else none }
  else entered.ctx

/-- `_do_state_updating`. -/
def doStateUpdating (s : Context) (state : IotState) (x : Inputs) : Context :=
  (s.enter state x).commit state x

/-- A previous connection is closed first. -/
def closePrevious (s : Context) (type : ConnType) : Context :=
  match type with
  | .communication => if s.evtMqttcli = none then s else s.esDisconnect .communication
  | .registration => if s.regMqttcli = none then s else s.esDisconnect .registration

/-- `iot_device_cleanup`. -/
def deviceCleanup (s : Context) : Context :=
  ({ s with settings.brokerUrl := false }.closePrevious .communication).closePrevious .registration

/-- `iot_cleanup`, up to the reboot. -/
def cleanup (s : Context) : Context :=
  { { s.closeHttp with settings.esBleReady := false }.deviceCleanup with
    currState := .initialized }

/-- The device after a reboot, which is a change of `curr_state`. -/
def reboot (s : Context) : Context :=
  { initial s.ble s.softap (fun n => s.memory (s.sends + n)) with
    epoch := s.epoch
    origin := s.epoch
    acted := (s.origin, s.epoch) :: s.acted }

/-- How a command goes on after `iot_es_connect`. There is no next context when the
behaviour is undefined. -/
def afterConnect (s : Context) (next : IotError → Context → Context) : Outcome → Option Context
  | .returned error t => some (next error t)
  | .rebooted => some s.reboot
  | .undefined => none

/-- `IOT_COMMAND_CLOUD_REGISTERING` sends itself again after a failure. -/
def registeringFailed (s : Context) (error : IotError) : Context :=
  if s.settings.requestDisconnect then
    { s with esNetworkStatus := error }.commandSend .cloudRegistering
  else
    ({ s with esNetworkStatus := error }.commandSend .cloudRegistering).commandSend
      .cloudRegistering

/-- `IOT_COMMAND_CLOUD_REGISTERING` after `iot_es_connect`. -/
def registeringDone (error : IotError) (s : Context) : Context :=
  match error with
  | .mqttRejectConnect =>
      { s with esNetworkStatus := error }.easysetupDeinit.stateUpdate .provEnter
  | .none => { s with esNetworkStatus := .none, settings.registeredMsgRequested := true }
  | .netDnsFail => s.registeringFailed .connDnsQueryFail
  | _ => s.registeringFailed .connStaNoInternet

/-- The context in which `IOT_COMMAND_CLOUD_REGISTERING` connects. -/
def registeringReady (s : Context) : Context :=
  { { s with settings.d2dEventRequest := true }.closePrevious .registration with
    settings.registeredMsgRequested := false }

/-- `IOT_COMMAND_CLOUD_REGISTERING`, from the wifi connection on. -/
def registeringConnect (s : Context) (x : Inputs) : Option Context :=
  afterConnect s registeringDone (s.registeringReady.esConnect .registration x.calls)

/-- `IOT_COMMAND_CLOUD_REGISTERING`. -/
def cloudRegistering (s : Context) (x : Inputs) : Option Context :=
  if s.settings.conTimerExpired then some s.easysetupDeinit
  else if s.settings.isWifiStation then s.registeringConnect x
  else if x.station = .none then (s.closeHttp.wifiMode true .none).registeringConnect x
  else if s.closeHttp.settings.selfReged then
    some ({ s.closeHttp with esNetworkStatus := x.station }.commandSend .cloudRegistering)
  else some { s.closeHttp with esNetworkStatus := x.station }.easysetupDeinit

/-- `IOT_COMMAND_CLOUD_REGISTERED`. -/
def cloudRegistered (s : Context) (x : Inputs) : Context :=
  { { s.esDisconnect .registration with esNetworkStatus := x.setDeviceId }.stateUpdate
      .cloudDisconnected with
    settings.selfReged := false }

/-- `IOT_COMMAND_CLOUD_CONNECTING` after a failure: the retry timer is created anew. -/
def connectingFailed (s : Context) (error : IotError) (x : Inputs) : Context :=
  if x.retryTimer then
    { s with
      nextConnectionRetryTimer := some s.origin
      esNetworkStatus := if error = .netDnsFail then .connDnsQueryFail else error }
  else { s with nextConnectionRetryTimer := none }

/-- `IOT_COMMAND_CLOUD_CONNECTING` after a success. -/
def connectingSucceeded (s : Context) : Context :=
  { s with nextConnectionRetryTimer := none, esNetworkStatus := .none }

/-- `IOT_COMMAND_CLOUD_CONNECTING` after `iot_es_connect`. -/
def connectingDone (x : Inputs) (error : IotError) (s : Context) : Context :=
  match error with
  | .mqttRejectConnect | .invalidArgs => s.commandSend (.notificationReceived .devDeleted)
  | .none =>
      (if s.ble && s.settings.d2dEventRequest then s.connectingSucceeded.easysetupDeinit
        else s.connectingSucceeded).stateUpdate .cloudConnected
  | _ => s.connectingFailed error x

/-- `IOT_COMMAND_CLOUD_CONNECTING`, from the wifi connection on. -/
def connectingConnect (s : Context) (x : Inputs) : Option Context :=
  afterConnect s (connectingDone x)
    ((s.closePrevious .communication).esConnect .communication x.calls)

/-- `IOT_COMMAND_CLOUD_CONNECTING`. -/
def cloudConnecting (s : Context) (x : Inputs) : Option Context :=
  if s.settings.conTimerExpired ∧ s.settings.d2dEventRequest then
    some (s.easysetupDeinit.commandSend .cloudConnecting)
  else if s.currState ≠ .cloudDisconnected then some s
  else if s.settings.cloudConnectionPause then some (s.commandSend .cloudConnecting)
  else if s.settings.isWifiStation then s.connectingConnect x
  else if x.station = .none then (s.closeHttp.wifiMode true .none).connectingConnect x
  else some (s.closeHttp.commandSend .cloudConnecting)

/-- `IOT_COMMAND_NOTIFICATION_RECEIVED`. The other notifications only call the
application back. -/
def notificationReceived (s : Context) (noti : NotiType) (x : Inputs) : Option Context :=
  match noti with
  | .devDeleted =>
      if s.settings.usrDeleteReq then some { s with settings.usrDeleteReq := false }
      else some s.reboot
  | .jwtExpired =>
      afterConnect s (fun _ t => t)
        ((s.esDisconnect .communication).esConnect .communication x.calls)
  | _ => some s

/-- `_do_iot_main_command`. -/
def doIotMainCommand (s : Context) (command : Command) (x : Inputs) : Option Context :=
  match command with
  | .stateUpdate state => some (s.doStateUpdating state x)
  | .cloudRegistering => s.cloudRegistering x
  | .cloudRegistered => some (s.cloudRegistered x)
  | .cloudConnecting => s.cloudConnecting x
  | .notificationReceived noti => s.notificationReceived noti x

/-- The work done next belongs to the present. -/
def present (s : Context) : Context := { s with origin := s.epoch }

/-- `_iot_state_timeout_cb`. -/
def stateTimeout (s : Context) : Context :=
  match s.currState with
  | .provEnter => s.stateUpdate .provSleep
  | .provDone => s.stateUpdate .provEnter
  | _ => s

/-- What `_check_prov_status` finds in the non-volatile memory. -/
inductive StoredData where
  | missing | registered | otherDip
  deriving DecidableEq, Repr

/-- `_check_prov_status` for a command only. -/
def checkProvStatus (s : Context) : StoredData → Context
  | .missing => { s with settings.newReged := true, settings.brokerUrl := false }
  | .registered =>
      { s with settings.newReged := false, settings.updated := true, settings.brokerUrl := true }
  | .otherDip =>
      { s with settings.newReged := false, settings.selfReged := true, settings.brokerUrl := true }

/-- The arguments of `st_conn_start_ex` that decide where the device starts. -/
inductive StartPoint where
  | connecting (stored : StoredData)
  /-- `resources` when the easysetup resources exist or can be created -/
  | provisioning (resources : Bool)
  deriving DecidableEq, Repr

/-- `st_conn_start_ex` stops a working device. -/
def stopWorking (s : Context) : Context :=
  if s.currState ≠ .initialized then
    { s.present.cleanup with epoch := s.epoch + 1, origin := s.epoch + 1 }
  else s.present

/-- `st_conn_start_ex`. -/
def startEx (s : Context) : StartPoint → Context
  | .connecting stored =>
      if (s.stopWorking.checkProvStatus stored).settings.newReged then
        s.stopWorking.checkProvStatus stored
      else (s.stopWorking.checkProvStatus stored).stateUpdate .cloudDisconnected
  | .provisioning resources =>
      if resources then
        { s.stopWorking with settings.newReged := true }.stateUpdate .provEnter
      else s.stopWorking

end Context

/-- A step of the device. -/
inductive MainEvent where
  | handle (x : Inputs)
  | client (type : ConnType) (event : Context.ClientEvent)
  | stateTimeout
  | retryTimeout
  /-- code outside the main task sends a command -/
  | post (command : Command)
  | configure (settings : Settings)
  | startEx (start : Context.StartPoint)

namespace Context

/-- The handle of a client of the type. -/
def handle (s : Context) : ConnType → Option Nat
  | .communication => s.evtMqttcli
  | .registration => s.regMqttcli

def step (s : Context) : MainEvent → Option Context
  | .handle x =>
      match s.queue with
      | [] => none
      | entry :: queue =>
          { s with queue := queue, origin := entry.origin }.doIotMainCommand entry.command x
  | .client type event => (s.handle type).map fun c => clientEvent type c s.present event
  | .stateTimeout =>
      s.stateTimer.map fun origin => { s with stateTimer := none, origin := origin }.stateTimeout
  | .retryTimeout =>
      s.nextConnectionRetryTimer.map fun origin =>
        { s with nextConnectionRetryTimer := none, origin := origin }.commandSend .cloudConnecting
  | .post command =>
      if command = .stateUpdate .cloudConnected then none
      else some (s.present.commandSend command)
  | .configure settings => some { s with settings := settings }
  | .startEx start => some (s.startEx start)

/-- One step of the device. -/
def Transition (s : Context) (e : MainEvent) (t : Context) : Prop := s.step e = some t

/-- A relation that the work of an easysetup and of the wifi stays in. -/
structure Absorbs (R : Context → Context → Prop) : Prop where
  refl : ∀ s, R s s
  trans : ∀ {s t u}, R s t → R t u → R s u
  settings : ∀ (s : Context) (request http station : Bool), R s { s with
    settings.d2dEventRequest := request
    settings.esHttpReady := http
    settings.isWifiStation := station }
  confirm : ∀ s : Context, R s (s.stateUpdate .provConfirm)

namespace Absorbs

variable {R : Context → Context → Prop}

theorem easysetupDeinit (h : Absorbs R) (s : Context) : R s s.easysetupDeinit := by
  unfold Context.easysetupDeinit
  split
  · have cleared := h.settings s false s.settings.esHttpReady s.settings.isWifiStation
    split
    · exact h.trans cleared (h.confirm _)
    · exact cleared
  · exact h.refl s

theorem closeHttp (h : Absorbs R) (s : Context) : R s s.closeHttp := by
  unfold Context.closeHttp
  split
  · have closed := h.settings s s.settings.d2dEventRequest false s.settings.isWifiStation
    exact h.trans closed (h.easysetupDeinit _)
  · exact h.refl s

theorem wifiMode (h : Absorbs R) (s : Context) (station : Bool) (result : IotError) :
    R s (s.wifiMode station result) := by
  unfold Context.wifiMode
  split
  · exact h.settings s s.settings.d2dEventRequest s.settings.esHttpReady station
  · exact h.refl s

theorem softapMode (h : Absorbs R) (s : Context) : R s s.softapMode := by
  have station := h.wifiMode s false .none
  exact h.trans station (h.settings _ _ (s.softap || s.settings.esHttpReady) _)

end Absorbs

end Context

end StDevice.Main
