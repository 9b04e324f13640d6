import Mathlib.Data.Nat.Bitwise

/-!
# Ownership validation

The part of the onboarding handlers both transports share: the validation
features, what the device is configured with, and the handler of the PIN.

`Ownership` is the abstract record of an onboarding: whether keys were exchanged,
whether a PIN was asked for, and whether ownership was validated after the key
exchange. The transports decide when its operations happen; no code reads it.
-/

namespace StDevice.Easysetup

/-- `enum ownership_validation_feature`. -/
inductive Feature where
  | justworks | qr | button | pin | serialNumber | hashedSerialNumber
  deriving DecidableEq, Repr

namespace Feature

/-- The bit of a feature. -/
def bit : Feature → Nat
  | justworks => 0
  | qr => 1
  | button => 2
  | pin => 3
  | serialNumber => 4
  | hashedSerialNumber => 5

/-- The feature a received number stands for. -/
def ofInt? : Int → Option Feature
  | 0 => some justworks
  | 1 => some qr
  | 2 => some button
  | 3 => some pin
  | 4 => some serialNumber
  | 5 => some hashedSerialNumber
  | _ => none

end Feature

/-- The error codes the onboarding handlers return. -/
inductive EasysetupError where
  | invalidRequest | invalidCmd | invalidSequence | internalServerError
  | queueSendError | queueRecvError | jsonCreateError
  | confirmNotSupport | confirmDenied
  | invalidQr | invalidSerialNumber | invalidHashedSerialNumber | serialNotFound | sha512Fail
  | pinNotFound | invalidPin | pinNotMatched
  deriving DecidableEq, Repr

/-- `PIN_SIZE`. -/
def pinSize : Nat := 8

/-- `iot_pin_t`: an array of `PIN_SIZE` characters. -/
structure IotPin where
  pin : List UInt8
  size : pin.length = pinSize

/-- What a device is configured with: `devconf.ownership_validation_type`,
`add_justworks`, the PIN of the application and the stored serial number. -/
structure Device where
  ownershipValidationType : Nat
  addJustworks : Bool
  pin : Option IotPin
  serialNumber : Option (List UInt8)

/-- The feature is one the configuration names. -/
def Device.configures (device : Device) (f : Feature) : Bool :=
  device.ownershipValidationType.testBit f.bit

/-- The features listed in the response to KEYINFO. -/
def Device.enables (device : Device) (f : Feature) : Bool :=
  (f == .justworks && device.addJustworks) || device.configures f

/-- The decrypted payload of a CONFIRM command. -/
inductive ConfirmPayload where
  | unreadable
  | noPin
  | pin (text : List UInt8)
  deriving DecidableEq, Repr

def isDigit (c : UInt8) : Bool := 48 ≤ c && c ≤ 57

/-- `_es_confirm_handler`. `jsonCreate` says whether the output object can be
created; `none` is `IOT_ERROR_NONE`. -/
def esConfirmHandler (device : Device) (currOtmFeature : Feature) (payload : ConfirmPayload)
    (jsonCreate : Bool) : Option EasysetupError :=
  match device.pin with
  | none => some .pinNotFound
  | some pin =>
      if currOtmFeature ≠ .pin then some .invalidCmd
      else
        match payload with
        | .unreadable => some .invalidRequest
        | .noPin => some .invalidRequest
        | .pin text =>
            if text.length ≠ pinSize then some .invalidPin
            else if !text.all isDigit then some .invalidPin
            else if pin.pin ≠ text then some .pinNotMatched
            else if jsonCreate then none
            else some .jsonCreateError

/-- The payload carries the PIN of the device. -/
def Device.matchesPin (device : Device) (payload : ConfirmPayload) : Bool :=
  match device.pin, payload with
  | some pin, .pin text => pin.pin == text
  | _, _ => false

/-- CONFIRM succeeds only for the feature PIN and with the device's own PIN. -/
theorem esConfirmHandler_eq_none {device : Device} {currOtmFeature : Feature}
    {payload : ConfirmPayload} {jsonCreate : Bool}
    (succeeds : esConfirmHandler device currOtmFeature payload jsonCreate = none) :
    currOtmFeature = .pin ∧ device.matchesPin payload = true := by
  unfold esConfirmHandler at succeeds
  unfold Device.matchesPin
  cases configured : device.pin with
  | none => simp [configured] at succeeds
  | some pin =>
      simp only [configured] at succeeds
      split at succeeds
      case isTrue => exact absurd succeeds (by simp)
      case isFalse feature =>
        refine ⟨not_not.mp feature, ?_⟩
        cases payload with
        | unreadable => exact absurd succeeds (by simp)
        | noPin => exact absurd succeeds (by simp)
        | pin text =>
            by_contra differs
            simp only [beq_iff_eq] at differs
            simp only [ne_eq, differs, not_false_eq_true, if_true] at succeeds
            split at succeeds
            · exact absurd succeeds (by simp)
            · split at succeeds <;> exact absurd succeeds (by simp)

/-- Progress of an onboarding. Ownership counts as validated only after a key
exchange. -/
structure Ownership where
  keyed : Bool
  pinAsked : Bool
  validated : Bool
  exchanged : validated = true → keyed = true

namespace Ownership

/-- Nothing happened yet. -/
def none : Ownership := ⟨false, false, false, by simp⟩

/-- Keys were exchanged. -/
def exchange (o : Ownership) : Ownership := { o with keyed := true, exchanged := fun _ => rfl }

/-- A feature was confirmed; the PIN must still be entered. -/
def confirm (o : Ownership) (f : Feature) : Ownership :=
  if exchanged : o.keyed = true then
    if f = .pin then { o with pinAsked := true }
    else { o with validated := true, exchanged := fun _ => exchanged }
  else o

/-- The right PIN was entered. -/
def enterPin (o : Ownership) : Ownership :=
  if asked : o.keyed = true ∧ o.pinAsked = true then
    { o with validated := true, exchanged := fun _ => asked.1 }
  else o

@[simp] theorem exchange_keyed (o : Ownership) : o.exchange.keyed = true := rfl

@[simp] theorem exchange_validated (o : Ownership) : o.exchange.validated = o.validated := rfl

@[simp] theorem exchange_pinAsked (o : Ownership) : o.exchange.pinAsked = o.pinAsked := rfl

@[simp] theorem confirm_keyed (o : Ownership) (f : Feature) : (o.confirm f).keyed = o.keyed := by
  unfold confirm
  split
  · split <;> rfl
  · rfl

theorem confirm_validated {o : Ownership} {f : Feature} (keyed : o.keyed = true)
    (direct : f ≠ .pin) : (o.confirm f).validated = true := by
  rw [confirm, dif_pos keyed, if_neg direct]

theorem confirm_pinAsked {o : Ownership} (keyed : o.keyed = true) :
    (o.confirm .pin).pinAsked = true := by
  rw [confirm, dif_pos keyed, if_pos rfl]

@[simp] theorem enterPin_keyed (o : Ownership) : o.enterPin.keyed = o.keyed := by
  unfold enterPin
  split <;> rfl

theorem enterPin_validated {o : Ownership}
    (ready : o.validated = true ∨ o.keyed = true ∧ o.pinAsked = true) :
    o.enterPin.validated = true := by
  unfold enterPin
  split
  case isTrue => rfl
  case isFalse unasked => exact ready.resolve_right unasked

end Ownership

end StDevice.Easysetup
