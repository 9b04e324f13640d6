import Mathlib.Data.Nat.Bitwise
import StDevice.Foundation.Run
import StDevice.Easysetup.Ownership

/-!
# Onboarding over BLE

Two things decide whether a command is handled. `ref_step` is the step the next
command must have, but WIFISCANINFO, CONFIRMINFO and SETUPCOMPLETE set it
themselves; and a command that is not sent in the clear gets that far only if it
decrypts, for which the key exchange must have installed keys. The features a
client may still try are kept in a mask that KEYINFO fills and every CONFIRMINFO
consumes.

The state records the progress of the onboarding, since the last GATT join, next
to the variables of the code.
-/

namespace StDevice.Easysetup.Ble.Onboarding

open Run

/-- `enum iot_easysetup_step`; `invalid` stands for every other number. -/
inductive Step where
  | deviceinfo | keyinfo | confirminfo | confirm | wifiscaninfo | wifiprovioninginfo
  | tnc | setupcomplete | logSysteminfo | logGetDump
  | offlineDiagnosticsConnectoionInfo | offlineDiagnosticsRecovery
  | setupcompleteResponse | invalid
  deriving DecidableEq, Repr

def Step.code : Step → Nat
  | deviceinfo => 0
  | keyinfo => 1
  | confirminfo => 2
  | confirm => 3
  | wifiscaninfo => 4
  | wifiprovioninginfo => 5
  | tnc => 6
  | setupcomplete => 7
  | logSysteminfo => 8
  | logGetDump => 9
  | offlineDiagnosticsConnectoionInfo => 10
  | offlineDiagnosticsRecovery => 11
  | setupcompleteResponse => 12
  | invalid => 13

/-- The commands whose payload is not encrypted. -/
def Step.plain : Step → Bool
  | deviceinfo | keyinfo | logSysteminfo | logGetDump => true
  | _ => false

/-- A payload as the handlers read it: the members of its `data` object. -/
inductive Message where
  | unreadable
  | noData
  | data (otmSupportFeature : Option Int) (sn hashedsn pin : Option (List UInt8))
  deriving DecidableEq, Repr

/-- What comes with a command: nothing, or bytes that stand for a message. `opens`
says whether the cipher accepts them under the keys of the session. -/
inductive Received where
  | empty
  | bytes (opens : Bool) (message : Message)
  deriving DecidableEq, Repr

/-- The sequence check of `_iot_easysetup_gen_payload`: the value `ref_step` has
after it, or `none` for an invalid command. -/
def checkSequence (curStep : Step) (refStep : Nat) : Option Nat :=
  if curStep.code ≠ refStep ∧ curStep.code < Step.logSysteminfo.code then
    match curStep with
    | .wifiscaninfo => some Step.wifiscaninfo.code
    | .setupcomplete => some Step.setupcomplete.code
    | .confirminfo => some Step.confirminfo.code
    | _ => none
  else some refStep

/-- The increment that follows the check. -/
def advanceRefStep (curStep : Step) (refStep : Nat) : Nat :=
  if curStep.code < Step.logSysteminfo.code then refStep + 1 else 0

def hexDigit (n : Nat) : UInt8 := UInt8.ofNat (if n < 10 then 48 + n else 87 + n)

/-- The hash printed byte by byte with `%02x`. -/
def hashString (hash : List UInt8) : List UInt8 :=
  hash.flatMap fun b => [hexDigit (b.toNat / 16), hexDigit (b.toNat % 16)]

/-- How the validation of a feature goes on: it waits for the button, or it ends
with a result. -/
inductive Check where
  | wait
  | done (err : Option EasysetupError)
  deriving DecidableEq, Repr

section Handlers

-- `iot_security_sha512`; `none` is a failure
variable (sha512 : List UInt8 → Option (List UInt8))

/-- The `switch` of `_es_confirm_check_manager`. -/
def esConfirmCheckManager (device : Device) (confirmFeature : Feature) (sn : Option (List UInt8)) :
    Check :=
  match confirmFeature with
  | .justworks => .done none
  | .qr =>
      match sn, device.serialNumber with
      | none, _ => .done (some .invalidQr)
      | some _, none => .done (some .serialNotFound)
      | some sn, some devSn => if sn = devSn then .done none else .done (some .confirmDenied)
  | .serialNumber =>
      match sn, device.serialNumber with
      | none, _ => .done (some .invalidSerialNumber)
      | some _, none => .done (some .serialNotFound)
      | some sn, some devSn => if sn = devSn then .done none else .done (some .confirmDenied)
  | .hashedSerialNumber =>
      match sn, device.serialNumber with
      | none, _ => .done (some .invalidHashedSerialNumber)
      | some _, none => .done (some .serialNotFound)
      | some sn, some devSn =>
          match sha512 devSn with
          | none => .done (some .sha512Fail)
          | some hash =>
              if sn = hashString hash then .done none else .done (some .confirmDenied)
  | .button => .wait
  | .pin => .done none

/-- What a feature asks of a CONFIRMINFO: nothing, the serial number of the device
or its printed hash, or that the application confirmed. -/
def validates (device : Device) (f : Feature) (sn hashedsn : Option (List UInt8))
    (confirmed : Bool) : Bool :=
  match f with
  | .justworks | .pin => true
  | .qr | .serialNumber => sn.isSome && sn == device.serialNumber
  | .hashedSerialNumber =>
      hashedsn.isSome && hashedsn == (device.serialNumber.bind sha512).map hashString
  | .button => confirmed

/-- `_es_confirminfo_handler` reads `sn` or `hashedsn`, as the feature wants. -/
def readSn (f : Feature) (sn hashedsn : Option (List UInt8)) : Option (List UInt8) :=
  match f with
  | .qr | .serialNumber => sn
  | .hashedSerialNumber => hashedsn
  | _ => none

/-- A check that ends well saw what the feature asks for. -/
theorem validates_of_done {device : Device} {f : Feature} {sn hashedsn : Option (List UInt8)}
    {confirmed : Bool}
    (done : esConfirmCheckManager sha512 device f (readSn f sn hashedsn) = .done none) :
    validates sha512 device f sn hashedsn confirmed = true := by
  cases f with
  | justworks => rfl
  | pin => rfl
  | button => exact absurd done (by simp [esConfirmCheckManager])
  | qr | serialNumber =>
      simp only [esConfirmCheckManager, readSn] at done
      split at done
      case h_1 => exact absurd done (by simp)
      case h_2 => exact absurd done (by simp)
      case h_3 stored =>
        split at done
        case isTrue same => simp [validates, stored, same]
        case isFalse => exact absurd done (by simp)
  | hashedSerialNumber =>
      simp only [esConfirmCheckManager, readSn] at done
      split at done
      case h_1 => exact absurd done (by simp)
      case h_2 => exact absurd done (by simp)
      case h_3 stored =>
        split at done
        case h_1 => exact absurd done (by simp)
        case h_2 hashed =>
          split at done
          case isTrue same => simp [validates, stored, hashed, same]
          case isFalse => exact absurd done (by simp)

/-- Only the button is waited for. -/
theorem button_of_wait {device : Device} {f : Feature} {sn : Option (List UInt8)}
    (wait : esConfirmCheckManager sha512 device f sn = .wait) : f = .button := by
  cases f with
  | button => rfl
  | justworks | pin => exact absurd wait (by simp [esConfirmCheckManager])
  | qr | serialNumber =>
      simp only [esConfirmCheckManager] at wait
      split at wait
      case h_1 => exact absurd wait (by simp)
      case h_2 => exact absurd wait (by simp)
      case h_3 => split at wait <;> exact absurd wait (by simp)
  | hashedSerialNumber =>
      simp only [esConfirmCheckManager] at wait
      split at wait
      case h_1 => exact absurd wait (by simp)
      case h_2 => exact absurd wait (by simp)
      case h_3 =>
        split at wait
        case h_1 => exact absurd wait (by simp)
        case h_2 => split at wait <;> exact absurd wait (by simp)

end Handlers

/-- Where the worker is with the command. -/
inductive Phase where
  | queued
  | waiting
  | responded (err : Option EasysetupError)
  deriving DecidableEq, Repr

/-- The command the BLE thread waits for, with its decrypted payload. -/
structure Pending where
  step : Step
  payload : Option Message
  phase : Phase
  deriving DecidableEq, Repr

structure Gate where
  refStep : Nat
  pending : Option Pending
  currOtmFeature : Feature
  /-- the static `ownership_validation_type`: features a client may still try -/
  ownershipValidationType : Nat
  confirmCheck : Bool
  /-- `cipher_params` holds a key -/
  keys : Bool
  /-- progress since the last GATT join -/
  ownership : Ownership
  /-- the application's last word since the button is waited for -/
  confirmed : Bool
  /-- credentials were handled without validated ownership -/
  breached : Bool

namespace Gate

def initial : Gate where
  refStep := 0
  pending := none
  currOtmFeature := .justworks
  ownershipValidationType := 0
  confirmCheck := false
  keys := false
  ownership := .none
  confirmed := false
  breached := false

/-- `_iot_easysetup_ble_msg_decrypt` where it is called: the payload the gate gets,
or `none` if the command ends here. -/
def decrypt (s : Gate) (cmd : Step) : Received → Option (Option Message)
  | .empty => some none
  | .bytes opens message =>
      if cmd.plain then some (some message)
      else if s.keys && opens then some (some message)
      else none

/-- `iot_easysetup_ble_msg_handler` and `_iot_easysetup_gen_payload` up to the wait
for the response. A command that cannot be queued leaves `ref_step` advanced. -/
def command (s : Gate) (cmd : Step) (data : Received) (enqueued : Bool) : Gate :=
  if cmd = .invalid ∨ cmd = .setupcompleteResponse then s
  else
    match s.decrypt cmd data with
    | none => s
    | some payload =>
        match checkSequence cmd s.refStep with
        | none => s
        | some refStep =>
            { s with
              refStep := advanceRefStep cmd refStep
              pending := if enqueued then some ⟨cmd, payload, .queued⟩ else none }

/-- The worker responds to the pending command. -/
def respond (s : Gate) (p : Pending) (err : Option EasysetupError) : Gate :=
  { s with pending := some { p with phase := .responded err } }

/-- The worker finished a handler that decides neither about keys nor about
ownership. -/
def handled (s : Gate) (p : Pending) (err : Option EasysetupError) : Gate :=
  { s.respond p err with
    breached := s.breached || (p.step == .wifiprovioninginfo && !s.ownership.validated) }

/-- `_es_deviceinfo_handler`. `cipherInit` is the outcome of
`iot_security_cipher_init`, which puts empty parameters in place of the old. -/
def deviceinfo (s : Gate) (p : Pending) (err : Option EasysetupError) (cipherInit : Bool) : Gate :=
  { s.respond p err with keys := s.keys && !cipherInit }

/-- `_es_keyinfo_handler`. `installed` says whether the shared secret was computed
and stored; the handler may still fail after that. -/
def keyinfo (s : Gate) (device : Device) (p : Pending) (err : Option EasysetupError)
    (installed : Bool) : Gate :=
  { s.respond p err with
    keys := s.keys || installed
    ownershipValidationType :=
      if err = none then device.ownershipValidationType else s.ownershipValidationType
    ownership := if err = none then s.ownership.exchange else s.ownership }

/-- The result of a CONFIRMINFO for the feature: success counts as a confirmation
if the device is configured for the feature and was shown what it asks for. -/
def concludeCheck (s : Gate) (device : Device) (p : Pending) (f : Feature)
    (shown jsonCreate : Bool) : Gate :=
  if jsonCreate then
    { s.respond p none with
      ownership := if device.configures f && shown then s.ownership.confirm f else s.ownership }
  else s.respond p (some .jsonCreateError)

/-- The state in which the check of a feature starts: its bit is used up. -/
def startCheck (s : Gate) (f : Feature) : Gate :=
  { s with
    ownershipValidationType := s.ownershipValidationType.ldiff (2 ^ f.bit)
    currOtmFeature := f }

/-- `_es_confirminfo_handler` up to the end, or up to the wait for the button. A
payload that does not parse leaves `err` at its initial value. -/
def confirminfo (s : Gate) (sha512 : List UInt8 → Option (List UInt8)) (device : Device)
    (p : Pending) (stateUpdate jsonCreate : Bool) : Gate :=
  match p.payload with
  | none => s.respond p (some .internalServerError)
  | some .unreadable => s.respond p none
  | some .noData => s.respond p (some .invalidRequest)
  | some (.data none _ _ _) => s.respond p (some .invalidRequest)
  | some (.data (some otmSupportFeature) sn hashedsn _) =>
      match Feature.ofInt? otmSupportFeature with
      | none => s.respond p (some .confirmNotSupport)
      | some f =>
          if s.ownershipValidationType.testBit f.bit then
            if stateUpdate then
              match esConfirmCheckManager sha512 device f (readSn f sn hashedsn) with
              | .wait =>
                  { s.startCheck f with
                    confirmCheck := false
                    confirmed := false
                    pending := some { p with phase := .waiting } }
              | .done (some err) => (s.startCheck f).respond p (some err)
              | .done none =>
                  (s.startCheck f).concludeCheck device p f
                    (validates sha512 device f sn hashedsn false) jsonCreate
            else (s.startCheck f).respond p (some .internalServerError)
          else s.respond p (some .confirmNotSupport)

/-- `iot_os_eventgroup_wait_bits` returns for the button, on a bit or after the
delay; what counts is `confirm_check`. -/
def wake (s : Gate) (device : Device) (p : Pending) (jsonCreate : Bool) : Gate :=
  if s.confirmCheck then
    { s with confirmCheck := false }.concludeCheck device p .button s.confirmed jsonCreate
  else s.respond p (some .confirmDenied)

/-- The members of a payload the handler of CONFIRM reads. -/
def confirmPayload : Option Message → ConfirmPayload
  | none => .unreadable
  | some .unreadable => .unreadable
  | some .noData => .noPin
  | some (.data _ _ _ none) => .noPin
  | some (.data _ _ _ (some pin)) => .pin pin

/-- `_es_confirm_handler`. -/
def confirm (s : Gate) (device : Device) (p : Pending) (jsonCreate : Bool) : Gate :=
  let err := esConfirmHandler device s.currOtmFeature (confirmPayload p.payload) jsonCreate
  { s.respond p err with
    ownership :=
      if err = none ∧ device.matchesPin (confirmPayload p.payload) = true then s.ownership.enterPin
      else s.ownership }

/-- The end of a command. `received` says whether the response arrives and is for
this step. -/
def finish (s : Gate) (p : Pending) (err : Option EasysetupError) (received : Bool) : Gate :=
  if err = none ∧ received = true then
    { s with
      pending := none
      refStep :=
        if p.step = .offlineDiagnosticsConnectoionInfo ∨ p.step = .offlineDiagnosticsRecovery then 0
        else s.refStep }
  else { s with pending := none, refStep := 0 }

/-- `_iot_easysetup_ble_event_cb` on `IOT_BLE_EVENT_GATT_JOIN`. -/
def gattJoin (s : Gate) : Gate := { s with refStep := 0, ownership := .none }

/-- `st_conn_ownership_confirm`. -/
def ownershipConfirm (s : Gate) (confirm : Bool) : Gate :=
  if s.currOtmFeature = .button then { s with confirmCheck := confirm } else s

/-- `_iot_easysetup_ble_event_cb` on `IOT_BLE_EVENT_GATT_LEAVE`: it confirms in the
application's place. `deinit` is the outcome of `iot_security_cipher_deinit`. -/
def gattLeave (s : Gate) (deinit : Bool) : Gate :=
  { s.ownershipConfirm true with keys := s.keys && !deinit }

/-- The application confirms or denies. -/
def applicationConfirm (s : Gate) (confirm : Bool) : Gate :=
  { s.ownershipConfirm confirm with confirmed := confirm }

/-- The button of a CONFIRMINFO command is waited for. -/
def Waiting (s : Gate) : Prop := ∃ p, s.pending = some p ∧ p.phase = .waiting

/-- Credentials wait for their handler. -/
def Provisioning (s : Gate) : Prop :=
  ∃ p, s.pending = some p ∧ p.phase = .queued ∧ p.step = .wifiprovioninginfo

end Gate

inductive Event where
  | command (cmd : Step) (data : Received) (enqueued : Bool)
  | handled (err : Option EasysetupError)
  | deviceinfo (err : Option EasysetupError) (cipherInit : Bool)
  | keyinfo (err : Option EasysetupError) (installed : Bool)
  | confirminfo (stateUpdate jsonCreate : Bool)
  | wake (jsonCreate : Bool)
  | confirm (jsonCreate : Bool)
  | finish (received : Bool)
  | gattJoin
  | gattLeave (deinit : Bool)
  | applicationConfirm (confirm : Bool)

section Runs

variable (sha512 : List UInt8 → Option (List UInt8)) (device : Device)

/-- The BLE thread takes one command at a time; the worker handles what is queued;
the callbacks come at any moment. A successful KEYINFO has installed keys. -/
inductive Transition (s : Gate) : Event → Gate → Prop where
  | command {cmd : Step} {data : Received} {enqueued : Bool} (free : s.pending = none) :
      Transition s (.command cmd data enqueued) (s.command cmd data enqueued)
  | handled {p : Pending} {err : Option EasysetupError} (taken : s.pending = some p)
      (queued : p.phase = .queued) (other : p.step ≠ .deviceinfo ∧ p.step ≠ .keyinfo ∧
        p.step ≠ .confirminfo ∧ p.step ≠ .confirm) :
      Transition s (.handled err) (s.handled p err)
  | deviceinfo {p : Pending} {err : Option EasysetupError} {cipherInit : Bool}
      (taken : s.pending = some p) (queued : p.phase = .queued) (step : p.step = .deviceinfo) :
      Transition s (.deviceinfo err cipherInit) (s.deviceinfo p err cipherInit)
  | keyinfo {p : Pending} {err : Option EasysetupError} {installed : Bool}
      (taken : s.pending = some p) (queued : p.phase = .queued) (step : p.step = .keyinfo)
      (success : err = none → installed = true) :
      Transition s (.keyinfo err installed) (s.keyinfo device p err installed)
  | confirminfo {p : Pending} {stateUpdate jsonCreate : Bool} (taken : s.pending = some p)
      (queued : p.phase = .queued) (step : p.step = .confirminfo) :
      Transition s (.confirminfo stateUpdate jsonCreate)
        (s.confirminfo sha512 device p stateUpdate jsonCreate)
  | wake {p : Pending} {jsonCreate : Bool} (taken : s.pending = some p)
      (waiting : p.phase = .waiting) :
      Transition s (.wake jsonCreate) (s.wake device p jsonCreate)
  | confirm {p : Pending} {jsonCreate : Bool} (taken : s.pending = some p)
      (queued : p.phase = .queued) (step : p.step = .confirm) :
      Transition s (.confirm jsonCreate) (s.confirm device p jsonCreate)
  | finish {p : Pending} {err : Option EasysetupError} {received : Bool}
      (taken : s.pending = some p) (responded : p.phase = .responded err) :
      Transition s (.finish received) (s.finish p err received)
  | gattJoin : Transition s .gattJoin s.gattJoin
  | gattLeave {deinit : Bool} : Transition s (.gattLeave deinit) (s.gattLeave deinit)
  | applicationConfirm {confirm : Bool} :
      Transition s (.applicationConfirm confirm) (s.applicationConfirm confirm)

variable {sha512 device}

theorem Transition.unique {s t t' : Gate} {e : Event} (transition : Transition sha512 device s e t)
    (other : Transition sha512 device s e t') : t' = t := by
  have same : ∀ {p q : Pending}, s.pending = some p → s.pending = some q → q = p := by
    intro p q first second
    exact Option.some.inj (second.symm.trans first)
  cases transition with
  | command => cases other; rfl
  | handled taken =>
      cases other with
      | handled taken' => rw [same taken taken']
  | deviceinfo taken =>
      cases other with
      | deviceinfo taken' => rw [same taken taken']
  | keyinfo taken =>
      cases other with
      | keyinfo taken' => rw [same taken taken']
  | confirminfo taken =>
      cases other with
      | confirminfo taken' => rw [same taken taken']
  | wake taken =>
      cases other with
      | wake taken' => rw [same taken taken']
  | confirm taken =>
      cases other with
      | confirm taken' => rw [same taken taken']
  | finish taken responded =>
      cases other with
      | finish taken' responded' =>
          obtain rfl := same taken taken'
          rw [Phase.responded.inj (responded.symm.trans responded')]
  | gattJoin => cases other; rfl
  | gattLeave => cases other; rfl
  | applicationConfirm => cases other; rfl

end Runs

end StDevice.Easysetup.Ble.Onboarding
