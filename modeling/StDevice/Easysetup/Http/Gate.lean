import StDevice.Easysetup.Http.Onboarding

/-!
# Credentials are handled after validation only, over HTTP

`Regular` says which events keep the gate shut, and `Invariant` what `ref_step`
stands for in every state such events lead to, also while a request is pending.
-/

namespace StDevice.Easysetup.Http

open Run

/-- The conditions under which the gate holds. No POST of WIFIPROVISIONINGINFO
comes when CONFIRMINFO is expected; the PIN is not skipped by a shortcut; a
request the gate counts on is queued; CONFIRMINFO names a feature the device
enables; and the station does not leave while the button is waited for. -/
def Regular (device : Device) (s : Gate) : Event → Prop
  | .request method cmd _ enqueued =>
      ¬ (method = .post ∧ cmd = .wifiprovioninginfo ∧ s.refStep = Step.confirminfo.code) ∧
      (method = .get ∧ cmd = .wifiscaninfo ∨ method = .post ∧ cmd = .wifiprovioninginfo →
        s.refStep = Step.confirm.code → s.currOtmFeature ≠ .pin) ∧
      (enqueued = false → cmd ≠ .keyinfo ∧ cmd ≠ .confirminfo ∧
        (cmd = .confirm → s.currOtmFeature ≠ .pin))
  | .confirminfo (.feature otmSupportFeature _) _ _ =>
      ∀ f, Feature.ofInt? otmSupportFeature = some f → f.bit ≤ Feature.serialNumber.bit →
        device.enables f = true
  | .staLeave => ¬ s.Waiting
  | _ => True

/-- What `ref_step` stands for when no request is pending. -/
structure Cleared (refStep : Nat) (o : Ownership) (f : Feature) : Prop where
  keyed : 2 ≤ refStep → o.keyed = true
  asked : refStep = 3 → o.validated = true ∨ o.pinAsked = true ∧ f = .pin
  validated : 4 ≤ refStep → o.validated = true

theorem Cleared.of_validated {refStep : Nat} {o : Ownership} {f : Feature}
    (validated : o.validated = true) : Cleared refStep o f :=
  ⟨fun _ => o.exchanged validated, fun _ => .inl validated, fun _ => validated⟩

theorem Cleared.of_low {refStep : Nat} {o : Ownership} {f : Feature} (low : refStep ≤ 1) :
    Cleared refStep o f :=
  ⟨fun high => by omega, fun high => by omega, fun high => by omega⟩

/-- What is known while a request is pending, so that its success clears the step
after it. -/
def Granted (refStep : Nat) (o : Ownership) (f : Feature) : Step → Prop
  | .deviceinfo => refStep ≤ 1
  | .keyinfo => refStep ≤ 2
  | .confirminfo => refStep ≤ 1 ∨ refStep = 3 ∧ o.keyed = true
  | .confirm => refStep ≤ 1 ∨ refStep = 4 ∧ o.keyed = true ∧
      (o.validated = true ∨ o.pinAsked = true ∧ f = .pin)
  | .wifiprovioninginfo => o.validated = true
  | _ => refStep ≤ 1 ∨ o.validated = true

structure Invariant (device : Device) (s : Gate) : Prop where
  free : s.pending = none → Cleared s.refStep s.ownership s.currOtmFeature
  granted : ∀ p, s.pending = some p → Granted s.refStep s.ownership s.currOtmFeature p.step
  waiting : ∀ p, s.pending = some p → p.phase = .waiting →
    p.step = .confirminfo ∧ p.evidence = .feature s.currOtmFeature ∧
      device.enables s.currOtmFeature = true ∧ (s.confirmBit = true → s.confirmed = true)
  confirminfo : ∀ p, s.pending = some p → p.phase = .responded none → p.step = .confirminfo →
    p.evidence = .feature s.currOtmFeature ∧ device.enables s.currOtmFeature = true
  confirm : ∀ p, s.pending = some p → p.phase = .responded none → p.step = .confirm →
    p.evidence = .pin true ∧ s.currOtmFeature = .pin
  safe : s.breached = false

/-- A step passes the check in sequence or through one of the shortcuts. -/
theorem checkSequence_eq_some {method : Method} {cmd : Step} {refStep r : Nat}
    (passes : checkSequence method cmd refStep = some r) :
    r = refStep ∧ (cmd.code = refStep ∨ 7 ≤ cmd.code) ∨
    method = .get ∧ cmd = .wifiscaninfo ∧ r = 4 ∧ (refStep = 3 ∨ refStep = 5) ∨
    method = .post ∧ cmd = .wifiprovioninginfo ∧ r = 5 ∧ (refStep = 3 ∨ refStep = 2) := by
  unfold checkSequence at passes
  split at passes
  case isFalse inSequence =>
    have same := Option.some.inj passes
    refine .inl ⟨same.symm, ?_⟩
    by_contra other
    rw [not_or] at other
    exact inSequence ⟨other.1, by simpa [Step.code] using other.2⟩
  case isTrue =>
    cases method with
    | get =>
        simp only at passes
        split at passes
        case isTrue shortcut =>
          exact .inr (.inl ⟨rfl, shortcut.1, (Option.some.inj passes).symm, .inl shortcut.2⟩)
        case isFalse =>
          split at passes
          case isTrue shortcut =>
            exact .inr (.inl ⟨rfl, shortcut.1, (Option.some.inj passes).symm, .inr shortcut.2⟩)
          case isFalse => exact absurd passes (by simp)
    | post =>
        simp only at passes
        split at passes
        case isFalse => exact absurd passes (by simp)
        case isTrue step =>
          split at passes
          case isTrue shortcut =>
            exact .inr (.inr ⟨rfl, step, (Option.some.inj passes).symm, shortcut⟩)
          case isFalse => exact absurd passes (by simp)

/-- A request that passes the check is granted its step. -/
theorem Cleared.granted {device : Device} {s : Gate} {method : Method} {cmd : Step}
    {payload enqueued : Bool} {r : Nat}
    (cleared : Cleared s.refStep s.ownership s.currOtmFeature)
    (regular : Regular device s (.request method cmd payload enqueued))
    (passes : checkSequence method cmd s.refStep = some r) :
    Granted (advanceRefStep cmd r) s.ownership s.currOtmFeature cmd := by
  obtain ⟨early, skipped, -⟩ := regular
  rcases checkSequence_eq_some passes with
    ⟨rfl, inSequence⟩ | ⟨rfl, rfl, rfl, before⟩ | ⟨rfl, rfl, rfl, before⟩
  · have keyed := cleared.keyed
    have asked := cleared.asked
    have validated := cleared.validated
    cases cmd <;> simp only [Step.code, Granted, advanceRefStep] at inSequence ⊢ <;>
      simp only [Nat.reduceLT, Nat.reduceLeDiff, or_false, if_true, if_false, Nat.zero_le,
        true_or] at inSequence ⊢
    case deviceinfo => omega
    case keyinfo => omega
    case confirminfo => exact .inr ⟨by omega, keyed (by omega)⟩
    case confirm => exact .inr ⟨by omega, keyed (by omega), asked (by omega)⟩
    case wifiscaninfo => exact .inr (validated (by omega))
    case wifiprovioninginfo => exact validated (by omega)
    case setupcomplete => exact .inr (validated (by omega))
  · have validated : s.ownership.validated = true := by
      rcases before with early | late
      · have notPin := skipped (.inl ⟨rfl, rfl⟩) early
        exact (cleared.asked early).resolve_right fun pin => notPin pin.2
      · exact cleared.validated (by omega)
    exact .inr validated
  · rcases before with confirm | confirminfo
    · have notPin := skipped (.inr ⟨rfl, rfl⟩) confirm
      exact (cleared.asked confirm).resolve_right fun pin => notPin pin.2
    · exact absurd ⟨rfl, rfl, confirminfo⟩ early

/-- A granted step whose request is not queued is cleared for the next one only if
the gate does not count on it. -/
theorem Granted.cleared {r : Nat} {o : Ownership} {f : Feature} {cmd : Step}
    (granted : Granted r o f cmd) (keyinfo : cmd ≠ .keyinfo) (confirminfo : cmd ≠ .confirminfo)
    (confirm : cmd = .confirm → f ≠ .pin) : Cleared r o f := by
  cases cmd with
  | keyinfo => exact absurd rfl keyinfo
  | confirminfo => exact absurd rfl confirminfo
  | deviceinfo => exact .of_low granted
  | confirm =>
      rcases granted with low | ⟨-, -, validated | ⟨-, pin⟩⟩
      · exact .of_low low
      · exact .of_validated validated
      · exact absurd pin (confirm rfl)
  | wifiprovioninginfo => exact .of_validated granted
  | _ => exact granted.elim .of_low .of_validated

namespace Invariant

variable {device : Device} {s : Gate}

theorem initial : Invariant device .initial where
  free := fun _ => .of_low (Nat.zero_le 1)
  granted := by simp [Gate.initial]
  waiting := by simp [Gate.initial]
  confirminfo := by simp [Gate.initial]
  confirm := by simp [Gate.initial]
  safe := rfl

/-- A state without a pending request. -/
private theorem of_free {t : Gate} (free : t.pending = none)
    (cleared : Cleared t.refStep t.ownership t.currOtmFeature) (safe : t.breached = false) :
    Invariant device t where
  free := fun _ => cleared
  granted := by simp [free]
  waiting := by simp [free]
  confirminfo := by simp [free]
  confirm := by simp [free]
  safe := safe

theorem request {method : Method} {cmd : Step} {payload enqueued : Bool}
    (inv : Invariant device s) (free : s.pending = none)
    (regular : Regular device s (.request method cmd payload enqueued)) :
    Invariant device (s.request method cmd payload enqueued) := by
  unfold Gate.request
  split
  case isTrue => exact inv
  case isFalse =>
    split
    case isTrue => exact inv
    case isFalse =>
      cases passes : checkSequence method cmd s.refStep with
      | none => exact of_free free (.of_low (Nat.zero_le 1)) inv.safe
      | some r =>
          have granted := (inv.free free).granted regular passes
          cases enqueued with
          | false =>
              obtain ⟨keyinfo, confirminfo, confirm⟩ := regular.2.2 rfl
              exact of_free rfl (granted.cleared keyinfo confirminfo confirm) inv.safe
          | true =>
              refine ⟨by simp, ?_, ?_, ?_, ?_, inv.safe⟩
              · rintro p taken
                obtain rfl := Option.some.inj taken
                exact granted
              · rintro p taken waiting
                obtain rfl := Option.some.inj taken
                exact absurd waiting (by simp)
              · rintro p taken responded
                obtain rfl := Option.some.inj taken
                exact absurd responded (by simp)
              · rintro p taken responded
                obtain rfl := Option.some.inj taken
                exact absurd responded (by simp)

/-- The worker responds to the pending request. -/
private theorem respond {p : Pending} {err : Option EasysetupError} {evidence : Evidence}
    (granted : Granted s.refStep s.ownership s.currOtmFeature p.step)
    (confirminfo : err = none → p.step = .confirminfo →
      evidence = .feature s.currOtmFeature ∧ device.enables s.currOtmFeature = true)
    (confirm : err = none → p.step = .confirm → evidence = .pin true ∧ s.currOtmFeature = .pin)
    (safe : s.breached = false) : Invariant device (s.respond p err evidence) := by
  refine ⟨by simp [Gate.respond], ?_, ?_, ?_, ?_, safe⟩
  · rintro q taken
    obtain rfl := Option.some.inj taken
    exact granted
  · rintro q taken waiting
    obtain rfl := Option.some.inj taken
    exact absurd waiting (by simp)
  · rintro q taken responded
    obtain rfl := Option.some.inj taken
    exact confirminfo (by simpa using responded)
  · rintro q taken responded
    obtain rfl := Option.some.inj taken
    exact confirm (by simpa using responded)

theorem handled {p : Pending} {err : Option EasysetupError} (inv : Invariant device s)
    (taken : s.pending = some p) (other : p.step ≠ .confirminfo ∧ p.step ≠ .confirm) :
    Invariant device (s.handled p err) := by
  have granted := inv.granted p taken
  have safe : (s.handled p err).breached = false := by
    simp only [Gate.handled, inv.safe, Bool.false_or]
    cases step : p.step == .wifiprovioninginfo with
    | false => rfl
    | true =>
        rw [eq_of_beq step] at granted
        have validated : s.ownership.validated = true := granted
        simp [validated]
  exact respond (s := { s with breached := (s.handled p err).breached }) granted
    (fun _ step => absurd step other.1) (fun _ step => absurd step other.2) safe

theorem confirminfo_step {p : Pending} {payload : ConfirminfoPayload}
    {stateUpdate jsonCreate : Bool} (inv : Invariant device s) (taken : s.pending = some p)
    (step : p.step = .confirminfo)
    (regular : Regular device s (.confirminfo payload stateUpdate jsonCreate)) :
    Invariant device (s.confirminfo device p payload stateUpdate jsonCreate) := by
  have granted := inv.granted p taken
  have other : ∀ {P : Prop}, p.step = .confirm → P := by
    intro P confirm
    exact absurd (step.symm.trans confirm) (by decide)
  have failed : ∀ err, Invariant device (s.respond p (some err) .nothing) := by
    intro err
    exact respond granted (fun success => absurd success (by simp))
      (fun success => absurd success (by simp)) inv.safe
  unfold Gate.confirminfo
  cases payload with
  | unreadable => exact failed _
  | noFeature => exact failed _
  | feature otmSupportFeature sn =>
      simp only
      split
      case h_1 => exact failed _
      case h_2 f named =>
        split
        case isTrue => exact failed _
        case isFalse small =>
          have enabled : device.enables f = true := regular f named (Nat.le_of_not_lt small)
          -- the grant of CONFIRMINFO does not depend on the feature
          have granted' : Granted s.refStep s.ownership f p.step := by
            rw [step] at granted ⊢
            exact granted
          split
          case isFalse =>
            exact respond (s := { s with
                confirmBit := false, denyBit := false, currOtmFeature := f, confirmed := false })
              granted' (fun success => absurd success (by simp))
              (fun success => absurd success (by simp)) inv.safe
          case isTrue =>
            split
            case h_1 =>
              refine ⟨by simp, ?_, ?_, ?_, ?_, inv.safe⟩
              · rintro q now
                obtain rfl := Option.some.inj now
                exact granted'
              · rintro q now -
                obtain rfl := Option.some.inj now
                exact ⟨step, rfl, enabled, fun pressed => absurd pressed (by simp)⟩
              · rintro q now responded
                obtain rfl := Option.some.inj now
                exact absurd responded (by simp)
              · rintro q now responded
                obtain rfl := Option.some.inj now
                exact absurd responded (by simp)
            case h_2 =>
              exact respond (s := { s with
                  confirmBit := false, denyBit := false, currOtmFeature := f, confirmed := false })
                granted' (fun success => absurd success (by simp))
                (fun success => absurd success (by simp)) inv.safe
            case h_3 =>
              exact respond (s := { s with
                  confirmBit := false, denyBit := false, currOtmFeature := f, confirmed := false })
                granted' (fun _ _ => ⟨rfl, enabled⟩) (fun _ confirm => other confirm) inv.safe

theorem confirm_step {p : Pending} {payload : ConfirmPayload} {jsonCreate : Bool}
    (inv : Invariant device s) (taken : s.pending = some p) (step : p.step = .confirm) :
    Invariant device (s.respond p (esConfirmHandler device s.currOtmFeature payload jsonCreate)
      (.pin (device.matchesPin payload))) := by
  refine respond (inv.granted p taken) ?_ ?_ inv.safe
  · intro _ confirminfo
    exact absurd (step.symm.trans confirminfo) (by decide)
  · intro succeeds _
    obtain ⟨feature, right⟩ := esConfirmHandler_eq_none succeeds
    exact ⟨by rw [right], feature⟩

theorem wake {p : Pending} {jsonCreate : Bool} (inv : Invariant device s)
    (taken : s.pending = some p) (waiting : p.phase = .waiting) :
    Invariant device (s.wake p jsonCreate) := by
  obtain ⟨step, evidence, enabled, pressed⟩ := inv.waiting p taken waiting
  have granted := inv.granted p taken
  have other : ∀ {P : Prop}, p.step = .confirm → P := by
    intro P confirm
    exact absurd (step.symm.trans confirm) (by decide)
  unfold Gate.wake
  split
  case isTrue bit =>
    exact respond (s := { s with breached := s.breached || !s.confirmed }) granted
      (fun _ _ => ⟨evidence, enabled⟩) (fun _ confirm => other confirm)
      (by simp [inv.safe, pressed bit])
  case isFalse =>
    exact respond granted (fun success => absurd success (by simp))
      (fun success => absurd success (by simp)) inv.safe

/-- The success of a granted request clears the next step. -/
theorem progress_cleared {p : Pending} (inv : Invariant device s) (taken : s.pending = some p)
    (responded : p.phase = .responded none) :
    Cleared s.refStep (Gate.progress device p s.ownership) s.currOtmFeature := by
  have granted := inv.granted p taken
  have shown := inv.confirminfo p taken responded
  have entered := inv.confirm p taken responded
  unfold Gate.progress
  cases step : p.step with
  | deviceinfo =>
      rw [step] at granted
      exact .of_low granted
  | keyinfo =>
      rw [step] at granted
      have low : s.refStep ≤ 2 := granted
      exact ⟨fun _ => rfl, fun high => by omega, fun high => by omega⟩
  | confirminfo =>
      rw [step] at granted
      obtain ⟨evidence, enabled⟩ := shown step
      simp only [evidence, enabled, if_true]
      rcases granted with low | ⟨three, keyed⟩
      · exact .of_low low
      · refine ⟨fun _ => by rwa [Ownership.confirm_keyed], fun _ => ?_, fun high => by omega⟩
        by_cases pin : s.currOtmFeature = .pin
        · rw [pin]
          exact .inr ⟨Ownership.confirm_pinAsked keyed, rfl⟩
        · exact .inl (Ownership.confirm_validated keyed pin)
  | confirm =>
      rw [step] at granted
      obtain ⟨evidence, -⟩ := entered step
      simp only [evidence]
      rcases granted with low | ⟨-, keyed, ready⟩
      · exact .of_low low
      · refine .of_validated (Ownership.enterPin_validated ?_)
        exact ready.imp id fun asked => ⟨keyed, asked.1⟩
  | wifiprovioninginfo =>
      rw [step] at granted
      exact .of_validated granted
  | _ =>
      rw [step] at granted
      exact granted.elim .of_low .of_validated

theorem finish {p : Pending} {err : Option EasysetupError} {received : Bool}
    (inv : Invariant device s) (taken : s.pending = some p)
    (responded : p.phase = .responded err) :
    Invariant device (s.finish device p err received) := by
  unfold Gate.finish
  split
  case isTrue success =>
    obtain ⟨rfl, -⟩ := success
    exact of_free rfl (inv.progress_cleared taken responded) inv.safe
  case isFalse => exact of_free rfl (.of_low (Nat.zero_le 1)) inv.safe

theorem Granted.reset {r : Nat} {o : Ownership} {f : Feature} {step : Step}
    (granted : Granted r o f step) : Granted 0 o f step := by
  cases step with
  | deviceinfo => exact Nat.zero_le 1
  | keyinfo => exact Nat.zero_le 2
  | wifiprovioninginfo => exact granted
  | _ => exact .inl (Nat.zero_le 1)

theorem staLeave (inv : Invariant device s) (alone : ¬ s.Waiting) :
    Invariant device s.staLeave := by
  unfold Gate.staLeave
  split
  case isFalse => exact inv
  case isTrue =>
    refine ⟨fun _ => .of_low (Nat.zero_le 1), ?_, ?_, inv.confirminfo, inv.confirm, inv.safe⟩
    · intro p taken
      exact Granted.reset (inv.granted p taken)
    · intro p taken waiting
      exact absurd ⟨p, taken, waiting⟩ alone

theorem ownershipConfirm {confirm : Bool} (inv : Invariant device s) :
    Invariant device (s.ownershipConfirm confirm) := by
  unfold Gate.ownershipConfirm
  split
  case isFalse => exact inv
  case isTrue =>
    split
    case isTrue =>
      refine ⟨inv.free, inv.granted, ?_, inv.confirminfo, inv.confirm, inv.safe⟩
      intro p taken waiting
      obtain ⟨step, evidence, enabled, -⟩ := inv.waiting p taken waiting
      exact ⟨step, evidence, enabled, fun _ => rfl⟩
    case isFalse =>
      exact ⟨inv.free, inv.granted, inv.waiting, inv.confirminfo, inv.confirm, inv.safe⟩

theorem step {t : Gate} {e : Event} (inv : Invariant device s) (regular : Regular device s e)
    (transition : Transition device s e t) : Invariant device t := by
  cases transition with
  | request free => exact inv.request free regular
  | handled taken queued other => exact inv.handled taken other
  | confirminfo taken queued step => exact inv.confirminfo_step taken step regular
  | confirm taken queued step => exact inv.confirm_step taken step
  | wake taken waiting => exact inv.wake taken waiting
  | finish taken responded => exact inv.finish taken responded
  | staJoin => exact inv
  | staLeave => exact inv.staLeave regular
  | ownershipConfirm => exact inv.ownershipConfirm

end Invariant

/-- In every run of regular requests and events the credentials are handled only
after ownership was validated, and the button counts as pressed only on the
application's word. -/
theorem not_breached_of_regular (device : Device) (events : List Event) (t : Gate)
    (run : Steps (Transition device) .initial events t)
    (regular : Along (Transition device) (Regular device) .initial events) :
    t.breached = false := by
  have inv : Invariant device t := run.invariant_along
    (fun _ _ _ inv regular transition => inv.step regular transition) regular Invariant.initial
  exact inv.safe

/-- A regular event in front of a regular run. -/
theorem Transition.cons {device : Device} {s t u : Gate} {e : Event} {events : List Event}
    (transition : Transition device s e t) (regular : Regular device s e)
    (rest : Steps (Transition device) t events u ∧
      Along (Transition device) (Regular device) t events) :
    Steps (Transition device) s (e :: events) u ∧
      Along (Transition device) (Regular device) s (e :: events) :=
  cons_along transition (fun _ => transition.unique) regular rest

/-- A device that asks for nothing but the key exchange. -/
def justworksDevice : Device := ⟨1, false, none, none⟩

/-- An onboarding in order, up to the handled credentials. -/
def onboarding : List Event :=
  [.request .get .deviceinfo false true, .handled none, .finish true,
    .request .post .keyinfo true true, .handled none, .finish true,
    .request .post .confirminfo true true, .confirminfo (.feature 0 none) true true, .finish true,
    .request .post .wifiprovioninginfo true true, .handled none]

/-- It is regular, so it is not a breach. -/
theorem onboarding_not_breached :
    ∃ t, Steps (Transition justworksDevice) .initial onboarding t ∧
      t.pending = some ⟨.wifiprovioninginfo, .responded none, .nothing⟩ ∧ t.breached = false := by
  obtain ⟨t, ⟨steps, regular⟩, handled⟩ : ∃ t,
      (Steps (Transition justworksDevice) .initial onboarding t ∧
        Along (Transition justworksDevice) (Regular justworksDevice) .initial onboarding) ∧
      t.pending = some ⟨.wifiprovioninginfo, .responded none, .nothing⟩ :=
    ⟨_, (Transition.request rfl).cons ⟨by decide, by decide, by decide⟩ <|
      (Transition.handled rfl rfl (by decide)).cons trivial <|
      (Transition.finish rfl rfl).cons trivial <|
      (Transition.request rfl).cons ⟨by decide, by decide, by decide⟩ <|
      (Transition.handled rfl rfl (by decide)).cons trivial <|
      (Transition.finish rfl rfl).cons trivial <|
      (Transition.request rfl).cons ⟨by decide, by decide, by decide⟩ <|
      (Transition.confirminfo rfl rfl rfl).cons
        (by rintro f ⟨⟩ -; decide) <|
      (Transition.finish rfl rfl).cons trivial <|
      (Transition.request rfl).cons ⟨by decide, by decide, by decide⟩ <|
      (Transition.handled rfl rfl (by decide)).cons trivial <| nil_along _, rfl⟩
  exact ⟨t, steps, handled, not_breached_of_regular justworksDevice onboarding t steps regular⟩

/-- Credentials right after the key exchange. -/
def unconfirmedOnboarding : List Event :=
  [.request .get .deviceinfo false true, .handled none, .finish true,
    .request .post .keyinfo true true, .handled none, .finish true,
    .request .post .wifiprovioninginfo true true, .handled none]

/-- The shortcut of WIFIPROVISIONINGINFO lets them through although CONFIRMINFO is
expected. -/
theorem unconfirmedOnboarding_breached :
    ∃ t, Steps (Transition justworksDevice) .initial unconfirmedOnboarding t ∧
      t.breached = true := by
  refine ⟨_, .cons (.request rfl) (.cons (.handled rfl rfl (by decide)) (.cons (.finish rfl rfl)
    (.cons (.request rfl) (.cons (.handled rfl rfl (by decide)) (.cons (.finish rfl rfl)
    (.cons (.request rfl) (.cons (.handled rfl rfl (by decide)) (.nil _)))))))), rfl⟩

end StDevice.Easysetup.Http
