import StDevice.Easysetup.Http.Onboarding
import StDevice.Easysetup.Ble.Onboarding

/-!
# What a failed request leaves in `ref_step`

The three request functions advance `ref_step`, put the request into the work queue,
wait for the response and reset `ref_step` if the response is an error. Only that
last exit resets it. This module models whole calls, with the errors they return, and
says when an error leaves a value other than 0 and the old one behind.

The results of `iot_easysetup_request`, of the response queue and of
`iot_state_update` are arguments. Error codes are those of `iot_error_t`, with 0 for
`IOT_ERROR_NONE`.
-/

namespace StDevice.Easysetup

def iotErrorMemAlloc : Int := -6
def iotErrorEasysetupInvalidCmd : Int := -401
def iotErrorEasysetupInvalidRequest : Int := -402
def iotErrorEasysetupInvalidSequence : Int := -403
def iotErrorEasysetupInternalServerError : Int := -501
def iotErrorEasysetupQueueSendError : Int := -507
def iotErrorEasysetupQueueRecvError : Int := -508

/-- `struct iot_easysetup_payload` as it comes from `easysetup_resp_queue`. -/
structure Response where
  step : Nat
  err : Int
  payload : Option (List UInt8)
  deriving DecidableEq, Repr

/-- What the rest of the device makes of a request. -/
structure Outcome where
  /-- result of `iot_easysetup_request` -/
  request : Int
  /-- what `iot_util_queue_receive` yields, `none` if it fails -/
  response : Option Response
  /-- result of `iot_state_update` -/
  update : Int
  deriving DecidableEq, Repr

/-- What a request function returns and leaves behind. -/
structure Reply where
  err : Int
  refStep : Nat
  outPayload : Option (List UInt8)
  deriving DecidableEq, Repr

/-- The error that stands for a failed `iot_easysetup_request`. -/
def requestError (err : Int) : Int :=
  if err = iotErrorEasysetupQueueSendError then err else iotErrorEasysetupInternalServerError

theorem requestError_ne_zero (err : Int) : requestError err ≠ 0 := by
  unfold requestError
  split
  case isTrue same =>
    rw [same]
    decide
  case isFalse => decide

/-- The error of a received response. -/
def responseError (curStep : Nat) : Option Response → Int
  | none => iotErrorEasysetupQueueRecvError
  | some response =>
      if response.step ≠ curStep then iotErrorEasysetupInternalServerError else response.err

/-- The payload of a received response. -/
def responsePayload (curStep : Nat) : Option Response → Option (List UInt8)
  | none => none
  | some response =>
      if response.step = curStep ∧ response.err = 0 then response.payload else none

/-- From `iot_easysetup_request` to `fail_status_update`: only an error of the
response resets `ref_step`. -/
def exchange (curStep refStep : Nat) (outcome : Outcome) : Reply :=
  if outcome.request ≠ 0 then ⟨requestError outcome.request, refStep, none⟩
  else
    let err := responseError curStep outcome.response
    ⟨err, if err ≠ 0 then 0 else refStep, responsePayload curStep outcome.response⟩

/-- An error leaves 0 or the value from before the call. -/
def Reply.Undone (reply : Reply) (refStep : Nat) : Prop :=
  reply.err ≠ 0 → reply.refStep = 0 ∨ reply.refStep = refStep

instance (reply : Reply) (refStep : Nat) : Decidable (reply.Undone refStep) :=
  inferInstanceAs (Decidable (_ → _))

theorem undone_unchanged (err : Int) (refStep : Nat) (payload : Option (List UInt8)) :
    Reply.Undone ⟨err, refStep, payload⟩ refStep := by
  intro
  exact .inr rfl

theorem undone_reset (err : Int) (refStep : Nat) (payload : Option (List UInt8)) :
    Reply.Undone ⟨err, 0, payload⟩ refStep := by
  intro
  exact .inl rfl

/-- An exchange is undone unless the request itself fails after `ref_step` was moved. -/
theorem exchange_undone_iff (curStep moved refStep : Nat) (outcome : Outcome) :
    (exchange curStep moved outcome).Undone refStep ↔
      (outcome.request ≠ 0 → moved = 0 ∨ moved = refStep) := by
  unfold exchange
  split
  case isTrue failed =>
    constructor
    · intro undone _
      exact undone (requestError_ne_zero _)
    · intro back _
      exact back failed
  case isFalse passed =>
    refine ⟨fun _ failed => absurd failed passed, fun _ failed => .inl ?_⟩
    exact if_pos failed

/-- Where the steps of the setup are counted, only a failing request of one of them is not
undone, unless the step after it was expected. -/
theorem exchange_counted_undone_iff {curStep refStep : Nat} {outcome : Outcome}
    {setup starts : Prop} [Decidable setup] (counted : starts ↔ setup) :
    (exchange curStep (if setup then curStep + 1 else 0) outcome).Undone refStep ↔
      (starts → outcome.request ≠ 0 → refStep = curStep + 1) := by
  rw [exchange_undone_iff, counted]
  split
  case isTrue inside =>
    constructor
    · intro back _ failed
      exact ((back failed).resolve_left (by omega)).symm
    · intro back failed
      exact .inr (back inside failed).symm
  case isFalse log => exact ⟨fun _ inside => absurd inside log, fun _ _ => .inl rfl⟩

theorem exchange_err_eq_zero_iff (curStep moved : Nat) (outcome : Outcome) :
    (exchange curStep moved outcome).err = 0 ↔
      outcome.request = 0 ∧ responseError curStep outcome.response = 0 := by
  unfold exchange
  split
  case isTrue failed =>
    refine ⟨fun none => absurd none (requestError_ne_zero _), fun good => ?_⟩
    exact absurd good.1 failed
  case isFalse passed =>
    exact ⟨fun none => ⟨not_not.mp passed, none⟩, And.right⟩

theorem exchange_refStep {curStep moved : Nat} {outcome : Outcome}
    (success : (exchange curStep moved outcome).err = 0) :
    (exchange curStep moved outcome).refStep = moved := by
  obtain ⟨request, response⟩ := (exchange_err_eq_zero_iff curStep moved outcome).mp success
  simp [exchange, request, response]

namespace Http

/-- `_iot_easysetup_gen_get_payload`. -/
def iotEasysetupGenGetPayload (refStep : Nat) (cmd : Step) (outcome : Outcome) : Reply :=
  if cmd = .invalid then ⟨iotErrorEasysetupInvalidCmd, refStep, none⟩
  else
    match checkSequence .get cmd refStep with
    | none => ⟨iotErrorEasysetupInvalidSequence, 0, none⟩
    | some checked => exchange cmd.code (advanceRefStep cmd checked) outcome

/-- `_iot_easysetup_gen_post_payload`. The update of the state at the end of
SETUPCOMPLETE comes after the only reset of `ref_step`. -/
def iotEasysetupGenPostPayload (refStep : Nat) (cmd : Step) (inPayload : Option (List UInt8))
    (outcome : Outcome) : Reply :=
  if inPayload = none ∧ cmd ≠ .setupcomplete ∧ cmd ≠ .logCreateDump then
    ⟨iotErrorEasysetupInvalidRequest, refStep, none⟩
  else if cmd = .invalid then ⟨iotErrorEasysetupInvalidCmd, refStep, none⟩
  else
    match checkSequence .post cmd refStep with
    | none => ⟨iotErrorEasysetupInvalidSequence, 0, none⟩
    | some checked =>
        let reply := exchange cmd.code (advanceRefStep cmd checked) outcome
        if reply.err = 0 ∧ cmd = .setupcomplete ∧ outcome.update ≠ 0 then
          { reply with err := iotErrorEasysetupInternalServerError }
        else reply

/-- A step of the setup that passes the check is the one `ref_step` names after it. -/
theorem eq_code_of_checkSequence {method : Method} {cmd : Step} {refStep checked : Nat}
    (passed : checkSequence method cmd refStep = some checked)
    (setup : cmd.code < Step.logSysteminfo.code) : checked = cmd.code := by
  unfold checkSequence at passed
  split at passed
  case isFalse same =>
    have : cmd.code = refStep := by
      by_contra other
      exact same ⟨other, setup⟩
    exact (Option.some.inj passed).symm.trans this.symm
  case isTrue =>
    cases method with
    | get =>
        simp only at passed
        split at passed
        case isTrue shortcut => rw [shortcut.1, ← Option.some.inj passed]
        case isFalse =>
          split at passed
          case isTrue shortcut => rw [shortcut.1, ← Option.some.inj passed]
          case isFalse => exact absurd passed (by simp)
    | post =>
        simp only at passed
        split at passed
        case isTrue shortcut =>
          split at passed
          case isTrue => rw [shortcut, ← Option.some.inj passed]
          case isFalse => exact absurd passed (by simp)
        case isFalse => exact absurd passed (by simp)

/-- The value a command moves `ref_step` to, once it has passed the check. -/
theorem advanceRefStep_of_checkSequence {method : Method} {cmd : Step} {refStep checked : Nat}
    (passed : checkSequence method cmd refStep = some checked) :
    advanceRefStep cmd checked =
      if cmd.code < Step.logSysteminfo.code then cmd.code + 1 else 0 := by
  unfold advanceRefStep
  split
  case isTrue setup => rw [eq_code_of_checkSequence passed setup]
  case isFalse => rfl

/-- The request is a step of the setup and gets as far as `iot_easysetup_request`. -/
def Starts (method : Method) (refStep : Nat) (cmd : Step) (inPayload : Option (List UInt8)) :
    Prop :=
  cmd.code < Step.logSysteminfo.code ∧
  (method = .post → inPayload = none → cmd = .setupcomplete) ∧
  (checkSequence method cmd refStep).isSome

/-- A POST request never passes the check with the step after it expected. -/
theorem ne_of_starts_post {refStep : Nat} {cmd : Step} {inPayload : Option (List UInt8)}
    (starts : Starts .post refStep cmd inPayload) : refStep ≠ cmd.code + 1 := by
  obtain ⟨setup, -, passed⟩ := starts
  rintro rfl
  have other : cmd.code ≠ cmd.code + 1 := by omega
  rw [checkSequence, if_pos ⟨other, setup⟩] at passed
  cases cmd <;> simp [Step.code] at passed

theorem genGetPayload_undone_iff (refStep : Nat) (cmd : Step) (outcome : Outcome) :
    (iotEasysetupGenGetPayload refStep cmd outcome).Undone refStep ↔
      (Starts .get refStep cmd none → outcome.request ≠ 0 → refStep = cmd.code + 1) := by
  unfold iotEasysetupGenGetPayload
  split
  case isTrue unknown =>
    refine ⟨fun _ starts => absurd starts.1 (by rw [unknown]; decide), fun _ => ?_⟩
    exact undone_unchanged _ _ _
  case isFalse =>
    split
    case h_1 refused =>
      refine ⟨fun _ starts => absurd starts.2.2 (by simp [refused]), fun _ => ?_⟩
      exact undone_reset _ _ _
    case h_2 checked passed =>
      rw [advanceRefStep_of_checkSequence passed]
      refine exchange_counted_undone_iff ⟨And.left, fun setup => ⟨setup, ?_, by simp [passed]⟩⟩
      exact fun post => absurd post (by decide)

theorem genPostPayload_undone_iff (refStep : Nat) (cmd : Step) (inPayload : Option (List UInt8))
    (outcome : Outcome) :
    (iotEasysetupGenPostPayload refStep cmd inPayload outcome).Undone refStep ↔
      (Starts .post refStep cmd inPayload → outcome.request = 0 ∧
        (cmd = .setupcomplete → responseError cmd.code outcome.response = 0 →
          outcome.update = 0)) := by
  unfold iotEasysetupGenPostPayload
  split
  case isTrue missing =>
    refine ⟨fun _ starts => absurd (starts.2.1 rfl missing.1) missing.2.1, fun _ => ?_⟩
    exact undone_unchanged _ _ _
  case isFalse carried =>
    split
    case isTrue unknown =>
      refine ⟨fun _ starts => absurd starts.1 (by rw [unknown]; decide), fun _ => ?_⟩
      exact undone_unchanged _ _ _
    case isFalse =>
      split
      case h_1 refused =>
        refine ⟨fun _ starts => absurd starts.2.2 (by simp [refused]), fun _ => ?_⟩
        exact undone_reset _ _ _
      case h_2 checked passed =>
        have moved := advanceRefStep_of_checkSequence passed
        dsimp only
        split
        case isTrue late =>
          -- everything went well except the update of the state
          obtain ⟨success, complete, update⟩ := late
          have setup : cmd.code < Step.logSysteminfo.code := by
            rw [complete]
            decide
          have starts : Starts .post refStep cmd inPayload :=
            ⟨setup, fun _ _ => complete, by simp [passed]⟩
          have request := (exchange_err_eq_zero_iff _ _ _).mp success
          constructor
          · intro undone
            have failed : iotErrorEasysetupInternalServerError ≠ 0 := by decide
            have back := undone failed
            rw [exchange_refStep success, moved, if_pos setup] at back
            exact absurd (back.resolve_left (by omega)).symm (ne_of_starts_post starts)
          · intro condition
            exact absurd ((condition starts).2 complete request.2) update
        case isFalse early =>
          rw [exchange_undone_iff, moved]
          split
          case isTrue setup =>
            have sent (none : inPayload = none) : cmd = .setupcomplete := by
              by_contra other
              refine carried ⟨none, other, ?_⟩
              rintro rfl
              exact absurd setup (by decide)
            have starts : Starts .post refStep cmd inPayload :=
              ⟨setup, fun _ => sent, by simp [passed]⟩
            constructor
            · intro back _
              have request : outcome.request = 0 := by
                by_contra failed
                exact ne_of_starts_post starts ((back failed).resolve_left (by omega)).symm
              refine ⟨request, fun complete response => ?_⟩
              by_contra update
              refine early ⟨?_, complete, update⟩
              exact (exchange_err_eq_zero_iff _ _ _).mpr ⟨request, response⟩
            · intro condition failed
              exact absurd (condition starts).1 failed
          case isFalse log =>
            exact ⟨fun _ starts => absurd starts.1 log, fun _ _ => .inl rfl⟩

end Http

namespace Ble.Onboarding

/-- `_iot_easysetup_gen_payload`. -/
def iotEasysetupGenPayload (refStep : Nat) (cmd : Step) (outcome : Outcome) : Reply :=
  match checkSequence cmd refStep with
  | none => ⟨iotErrorEasysetupInvalidCmd, refStep, none⟩
  | some checked =>
      let reply := exchange cmd.code (advanceRefStep cmd checked) outcome
      if reply.err = 0 ∧
          (cmd = .offlineDiagnosticsConnectoionInfo ∨ cmd = .offlineDiagnosticsRecovery) then
        { reply with refStep := 0 }
      else reply

/-- A step of the setup that passes the check is the one `ref_step` names after it. -/
theorem eq_code_of_checkSequence {cmd : Step} {refStep checked : Nat}
    (passed : checkSequence cmd refStep = some checked)
    (setup : cmd.code < Step.logSysteminfo.code) : checked = cmd.code := by
  unfold checkSequence at passed
  split at passed
  case isFalse same =>
    have : cmd.code = refStep := by
      by_contra other
      exact same ⟨other, setup⟩
    exact (Option.some.inj passed).symm.trans this.symm
  case isTrue =>
    split at passed
    case h_1 | h_2 | h_3 => exact (Option.some.inj passed).symm
    case h_4 => exact absurd passed (by simp)

/-- The value a command moves `ref_step` to, once it has passed the check. -/
theorem advanceRefStep_of_checkSequence {cmd : Step} {refStep checked : Nat}
    (passed : checkSequence cmd refStep = some checked) :
    advanceRefStep cmd checked =
      if cmd.code < Step.logSysteminfo.code then cmd.code + 1 else 0 := by
  unfold advanceRefStep
  split
  case isTrue setup => rw [eq_code_of_checkSequence passed setup]
  case isFalse => rfl

/-- The command is a step of the setup and gets as far as `iot_easysetup_request`. -/
def Starts (refStep : Nat) (cmd : Step) : Prop :=
  cmd.code < Step.logSysteminfo.code ∧ (checkSequence cmd refStep).isSome

theorem genPayload_undone_iff (refStep : Nat) (cmd : Step) (outcome : Outcome) :
    (iotEasysetupGenPayload refStep cmd outcome).Undone refStep ↔
      (Starts refStep cmd → outcome.request ≠ 0 → refStep = cmd.code + 1) := by
  unfold iotEasysetupGenPayload
  split
  case h_1 refused =>
    refine ⟨fun _ starts => absurd starts.2 (by simp [refused]), fun _ => ?_⟩
    exact undone_unchanged _ _ _
  case h_2 checked passed =>
    dsimp only
    split
    case isTrue diagnosed =>
      have request := ((exchange_err_eq_zero_iff _ _ _).mp diagnosed.1).1
      exact ⟨fun _ _ failed => absurd request failed, fun _ failed => absurd diagnosed.1 failed⟩
    case isFalse =>
      rw [advanceRefStep_of_checkSequence passed]
      exact exchange_counted_undone_iff ⟨And.left, fun setup => ⟨setup, by simp [passed]⟩⟩

end Ble.Onboarding

/-- A failed request leaves 0 or the old value in `ref_step`, except where
`iot_easysetup_request` fails after the step was counted, or the update of the state
fails at the end of SETUPCOMPLETE. -/
theorem requests_undone_iff (refStep : Nat) (outcome : Outcome) :
    (∀ cmd : Http.Step, (Http.iotEasysetupGenGetPayload refStep cmd outcome).Undone refStep ↔
      (Http.Starts .get refStep cmd none → outcome.request ≠ 0 → refStep = cmd.code + 1)) ∧
    (∀ (cmd : Http.Step) inPayload,
      (Http.iotEasysetupGenPostPayload refStep cmd inPayload outcome).Undone refStep ↔
        (Http.Starts .post refStep cmd inPayload → outcome.request = 0 ∧
          (cmd = .setupcomplete → responseError cmd.code outcome.response = 0 →
            outcome.update = 0))) ∧
    (∀ cmd : Ble.Onboarding.Step,
      (Ble.Onboarding.iotEasysetupGenPayload refStep cmd outcome).Undone refStep ↔
        (Ble.Onboarding.Starts refStep cmd → outcome.request ≠ 0 → refStep = cmd.code + 1)) :=
  ⟨fun cmd => Http.genGetPayload_undone_iff refStep cmd outcome,
    fun cmd inPayload => Http.genPostPayload_undone_iff refStep cmd inPayload outcome,
    fun cmd => Ble.Onboarding.genPayload_undone_iff refStep cmd outcome⟩

/-- DEVICEINFO that cannot be queued counts as done: KEYINFO is expected next. -/
theorem not_undone_deviceinfo :
    (Http.iotEasysetupGenGetPayload 0 .deviceinfo ⟨iotErrorMemAlloc, none, 0⟩).err =
        iotErrorEasysetupInternalServerError ∧
      ¬ (Http.iotEasysetupGenGetPayload 0 .deviceinfo ⟨iotErrorMemAlloc, none, 0⟩).Undone 0 ∧
      Http.checkSequence .post .keyinfo
        (Http.iotEasysetupGenGetPayload 0 .deviceinfo ⟨iotErrorMemAlloc, none, 0⟩).refStep =
        some 1 := by
  decide

end StDevice.Easysetup
