import StDevice.Foundation.Run
import StDevice.Easysetup.Ownership

/-!
# Onboarding over HTTP

`ref_step` is the step the next request must have. A request advances it before
the handler has run, and an error sets it back; two shortcuts skip optional steps.
The handler runs on another thread, so while a request waits for its response the
station may leave and the application may confirm ownership.

The state records the progress of the onboarding next to the variables of the code,
and whether the handler of WIFIPROVISIONINGINFO ever ran before ownership was
validated, or a button counted as pressed without the application's word.
-/

namespace StDevice.Easysetup.Http

open Run

/-- `enum iot_easysetup_step`. -/
inductive Step where
  | deviceinfo | keyinfo | confirminfo | confirm | wifiscaninfo | wifiprovioninginfo
  | setupcomplete | logSysteminfo | logCreateDump | logGetDump | invalid
  deriving DecidableEq, Repr

def Step.code : Step → Nat
  | deviceinfo => 0
  | keyinfo => 1
  | confirminfo => 2
  | confirm => 3
  | wifiscaninfo => 4
  | wifiprovioninginfo => 5
  | setupcomplete => 6
  | logSysteminfo => 7
  | logCreateDump => 8
  | logGetDump => 9
  | invalid => 10

/-- `enum cgi_type`. -/
inductive Method where
  | get | post
  deriving DecidableEq, Repr

/-- The sequence check of `_iot_easysetup_gen_get_payload` and
`_iot_easysetup_gen_post_payload`: the value `ref_step` has after it, or `none`
for an invalid sequence. -/
def checkSequence (method : Method) (curStep : Step) (refStep : Nat) : Option Nat :=
  if curStep.code ≠ refStep ∧ curStep.code < Step.logSysteminfo.code then
    match method with
    | .get =>
        if curStep = .wifiscaninfo ∧ refStep = Step.confirm.code then
          some Step.wifiscaninfo.code
        else if curStep = .wifiscaninfo ∧ refStep = Step.wifiprovioninginfo.code then
          some Step.wifiscaninfo.code
        else none
    | .post =>
        if curStep = .wifiprovioninginfo then
          if refStep = Step.confirm.code ∨ refStep = Step.confirminfo.code then
            some Step.wifiprovioninginfo.code
          else none
        else none
  else some refStep

/-- The increment that follows the check. -/
def advanceRefStep (curStep : Step) (refStep : Nat) : Nat :=
  if curStep.code < Step.logSysteminfo.code then refStep + 1 else 0

/-- The decrypted payload of a CONFIRMINFO request. -/
inductive ConfirminfoPayload where
  | unreadable
  | noFeature
  | feature (otmSupportFeature : Int) (sn : Option (List UInt8))
  deriving DecidableEq, Repr

/-- How the validation of a feature goes on: it waits for the button, or it ends
with a result. -/
inductive Check where
  | wait
  | done (err : Option EasysetupError)
  deriving DecidableEq, Repr

/-- The `switch` of `_es_confirm_check_manager`. -/
def esConfirmCheckManager (device : Device) (confirmFeature : Feature) (sn : Option (List UInt8)) :
    Check :=
  match confirmFeature with
  | .justworks => .done none
  | .qr | .serialNumber =>
      match sn, device.serialNumber with
      | none, _ => .done (some .invalidQr)
      | some _, none => .done (some .serialNotFound)
      | some sn, some devSn =>
          if sn = devSn then .done none else .done (some .invalidSerialNumber)
  | .button => .wait
  | .pin => .done none
  | .hashedSerialNumber => .done none

/-- Where the worker is with the request. -/
inductive Phase where
  | queued
  | waiting
  | responded (err : Option EasysetupError)
  deriving DecidableEq, Repr

/-- What the request showed to the handler: the feature it named, or whether the
PIN it carried is the device's. -/
inductive Evidence where
  | nothing
  | feature (f : Feature)
  | pin (right : Bool)
  deriving DecidableEq, Repr

/-- The request the HTTP thread waits for. -/
structure Pending where
  step : Step
  phase : Phase
  evidence : Evidence
  deriving DecidableEq, Repr

structure Gate where
  refStep : Nat
  pending : Option Pending
  currOtmFeature : Feature
  /-- `IOT_EVENT_BIT_EASYSETUP_CONFIRM` -/
  confirmBit : Bool
  /-- `IOT_EVENT_BIT_EASYSETUP_CONFIRM_DENY` -/
  denyBit : Bool
  /-- progress since the last successful DEVICEINFO -/
  ownership : Ownership
  /-- the application confirmed since the button is waited for -/
  confirmed : Bool
  /-- credentials were handled without validated ownership, or a button counted as
  pressed without the application's word -/
  breached : Bool

namespace Gate

def initial : Gate where
  refStep := 0
  pending := none
  currOtmFeature := .justworks
  confirmBit := false
  denyBit := false
  ownership := .none
  confirmed := false
  breached := false

/-- A request up to the point where it waits for the response. A POST request
without payload and an unknown command are refused before the sequence check; a
request that cannot be queued leaves `ref_step` advanced. -/
def request (s : Gate) (method : Method) (cmd : Step) (payload enqueued : Bool) : Gate :=
  if method = .post ∧ payload = false ∧ cmd ≠ .setupcomplete ∧ cmd ≠ .logCreateDump then s
  else if cmd = .invalid then s
  else
    match checkSequence method cmd s.refStep with
    | none => { s with refStep := 0 }
    | some refStep =>
        { s with
          refStep := advanceRefStep cmd refStep
          pending := if enqueued then some ⟨cmd, .queued, .nothing⟩ else none }

/-- The worker responds to the pending request. -/
def respond (s : Gate) (p : Pending) (err : Option EasysetupError) (evidence : Evidence) : Gate :=
  { s with pending := some ⟨p.step, .responded err, evidence⟩ }

/-- The worker finished a handler that does not decide about ownership. -/
def handled (s : Gate) (p : Pending) (err : Option EasysetupError) : Gate :=
  { s.respond p err .nothing with
    breached := s.breached || (p.step == .wifiprovioninginfo && !s.ownership.validated) }

/-- `_es_confirminfo_handler` up to the end, or up to the wait for the button.
`stateUpdate` and `jsonCreate` are the outcomes of `iot_state_update` and
`JSON_CREATE_OBJECT`. -/
def confirminfo (s : Gate) (device : Device) (p : Pending) (payload : ConfirminfoPayload)
    (stateUpdate jsonCreate : Bool) : Gate :=
  match payload with
  | .unreadable => s.respond p (some .invalidRequest) .nothing
  | .noFeature => s.respond p (some .invalidRequest) .nothing
  | .feature otmSupportFeature sn =>
      match Feature.ofInt? otmSupportFeature with
      | none => s.respond p (some .confirmNotSupport) .nothing
      | some f =>
          if Feature.serialNumber.bit < f.bit then s.respond p (some .confirmNotSupport) .nothing
          else
            let s₁ := { s with
              confirmBit := false
              denyBit := false
              currOtmFeature := f
              confirmed := false }
            if stateUpdate then
              match esConfirmCheckManager device f sn with
              | .wait => { s₁ with pending := some ⟨p.step, .waiting, .feature f⟩ }
              | .done (some err) => s₁.respond p (some err) (.feature f)
              | .done none =>
                  s₁.respond p (if jsonCreate then none else some .jsonCreateError) (.feature f)
            else s₁.respond p (some .internalServerError) (.feature f)

/-- `iot_os_eventgroup_wait_bits` returns for the button, on a bit or after the
delay. -/
def wake (s : Gate) (p : Pending) (jsonCreate : Bool) : Gate :=
  if s.confirmBit then
    { s.respond p (if jsonCreate then none else some .jsonCreateError) p.evidence with
      breached := s.breached || !s.confirmed }
  else s.respond p (some .confirmDenied) p.evidence

/-- What a successful request adds to the progress. -/
def progress (device : Device) (p : Pending) (o : Ownership) : Ownership :=
  match p.step, p.evidence with
  | .deviceinfo, _ => .none
  | .keyinfo, _ => o.exchange
  | .confirminfo, .feature f => if device.enables f then o.confirm f else o
  | .confirm, .pin true => o.enterPin
  | _, _ => o

/-- The end of a request. `received` says whether the response arrives and is for
this step. -/
def finish (s : Gate) (device : Device) (p : Pending) (err : Option EasysetupError)
    (received : Bool) : Gate :=
  if err = none ∧ received = true then
    { s with pending := none, ownership := progress device p s.ownership }
  else { s with pending := none, refStep := 0 }

/-- `_iot_easysetup_wifi_event_cb` on `IOT_WIFI_EVENT_SOFTAP_STA_LEAVE`. -/
def staLeave (s : Gate) : Gate :=
  if s.refStep ≤ Step.setupcomplete.code then { s with refStep := 0, confirmBit := true } else s

/-- `st_conn_ownership_confirm`. -/
def ownershipConfirm (s : Gate) (confirm : Bool) : Gate :=
  if s.currOtmFeature = .button then
    if confirm then { s with confirmBit := true, confirmed := true } else { s with denyBit := true }
  else s

/-- The button of a CONFIRMINFO request is waited for. -/
def Waiting (s : Gate) : Prop := ∃ p, s.pending = some p ∧ p.phase = .waiting

end Gate

inductive Event where
  | request (method : Method) (cmd : Step) (payload enqueued : Bool)
  | handled (err : Option EasysetupError)
  | confirminfo (payload : ConfirminfoPayload) (stateUpdate jsonCreate : Bool)
  | confirm (payload : ConfirmPayload) (jsonCreate : Bool)
  | wake (jsonCreate : Bool)
  | finish (received : Bool)
  | staJoin
  | staLeave
  | ownershipConfirm (confirm : Bool)

/-- The HTTP thread takes one request at a time; the worker handles what is
queued; the callbacks come at any moment. -/
inductive Transition (device : Device) (s : Gate) : Event → Gate → Prop where
  | request {method : Method} {cmd : Step} {payload enqueued : Bool} (free : s.pending = none) :
      Transition device s (.request method cmd payload enqueued)
        (s.request method cmd payload enqueued)
  | handled {p : Pending} {err : Option EasysetupError} (taken : s.pending = some p)
      (queued : p.phase = .queued) (other : p.step ≠ .confirminfo ∧ p.step ≠ .confirm) :
      Transition device s (.handled err) (s.handled p err)
  | confirminfo {p : Pending} {payload : ConfirminfoPayload} {stateUpdate jsonCreate : Bool}
      (taken : s.pending = some p) (queued : p.phase = .queued) (step : p.step = .confirminfo) :
      Transition device s (.confirminfo payload stateUpdate jsonCreate)
        (s.confirminfo device p payload stateUpdate jsonCreate)
  | confirm {p : Pending} {payload : ConfirmPayload} {jsonCreate : Bool}
      (taken : s.pending = some p) (queued : p.phase = .queued) (step : p.step = .confirm) :
      Transition device s (.confirm payload jsonCreate)
        (s.respond p (esConfirmHandler device s.currOtmFeature payload jsonCreate)
          (.pin (device.matchesPin payload)))
  | wake {p : Pending} {jsonCreate : Bool} (taken : s.pending = some p)
      (waiting : p.phase = .waiting) :
      Transition device s (.wake jsonCreate) (s.wake p jsonCreate)
  | finish {p : Pending} {err : Option EasysetupError} {received : Bool}
      (taken : s.pending = some p) (responded : p.phase = .responded err) :
      Transition device s (.finish received) (s.finish device p err received)
  | staJoin : Transition device s .staJoin s
  | staLeave : Transition device s .staLeave s.staLeave
  | ownershipConfirm {confirm : Bool} :
      Transition device s (.ownershipConfirm confirm) (s.ownershipConfirm confirm)

theorem Transition.unique {device : Device} {s t t' : Gate} {e : Event}
    (transition : Transition device s e t) (other : Transition device s e t') : t' = t := by
  have same : ∀ {p q : Pending}, s.pending = some p → s.pending = some q → q = p := by
    intro p q first second
    exact Option.some.inj (second.symm.trans first)
  cases transition with
  | request => cases other; rfl
  | handled taken =>
      cases other with
      | handled taken' => rw [same taken taken']
  | confirminfo taken =>
      cases other with
      | confirminfo taken' => rw [same taken taken']
  | confirm taken =>
      cases other with
      | confirm taken' => rw [same taken taken']
  | wake taken =>
      cases other with
      | wake taken' => rw [same taken taken']
  | finish taken responded =>
      cases other with
      | finish taken' responded' =>
          obtain rfl := same taken taken'
          rw [Phase.responded.inj (responded.symm.trans responded')]
  | staJoin => cases other; rfl
  | staLeave => cases other; rfl
  | ownershipConfirm => cases other; rfl

end StDevice.Easysetup.Http
