import StDevice.Easysetup.Ble.Onboarding

/-!
# Credentials are handled after validation only, over BLE

`Regular` says which events keep the gate shut, and `Invariant` what `ref_step`,
the mask of features and the keys of the session stand for in every state such
events lead to.
-/

namespace StDevice.Easysetup.Ble.Onboarding

open Run

/-- The conditions under which the gate holds. WIFISCANINFO and SETUPCOMPLETE do
not jump over the validation; a CONFIRMINFO parses; a command the gate counts on is
queued; a failing KEYINFO installs no keys; and GATT events do not come while they
do harm: a join while old keys or credentials are around, a leave while the button
is waited for. -/
def Regular (s : Gate) : Event → Prop
  | .command cmd data enqueued =>
      ∀ payload, s.decrypt cmd data = some payload →
        (cmd = .wifiscaninfo ∨ cmd = .setupcomplete → cmd.code ≠ s.refStep →
          4 ≤ s.refStep ∨ s.refStep = 3 ∧ s.currOtmFeature ≠ .pin) ∧
        (cmd = .confirminfo → payload ≠ some .unreadable) ∧
        (enqueued = false → cmd ≠ .confirminfo ∧ (cmd = .confirm → s.currOtmFeature ≠ .pin))
  | .keyinfo err installed => installed = true → err = none ∨ s.keys = true
  | .gattJoin => s.keys = false ∧ ¬ s.Provisioning
  | .gattLeave _ => ¬ s.Waiting
  | _ => True

/-- What `ref_step` stands for when no command is pending. -/
structure Cleared (refStep : Nat) (o : Ownership) (f : Feature) : Prop where
  asked : refStep = 3 → o.validated = true ∨ (o.keyed = true ∧ o.pinAsked = true) ∧ f = .pin
  validated : 4 ≤ refStep → o.validated = true

theorem Cleared.of_validated {refStep : Nat} {o : Ownership} {f : Feature}
    (validated : o.validated = true) : Cleared refStep o f :=
  ⟨fun _ => .inl validated, fun _ => validated⟩

theorem Cleared.of_low {refStep : Nat} {o : Ownership} {f : Feature} (low : refStep ≤ 2) :
    Cleared refStep o f :=
  ⟨fun high => by omega, fun high => by omega⟩

/-- What is known of a queued command, so that its success clears the step after
it. -/
def Granted (refStep : Nat) (o : Ownership) (f : Feature) (payload : Option Message) :
    Step → Prop
  | .deviceinfo | .keyinfo => refStep ≤ 2
  | .confirminfo => refStep ≤ 2 ∨ refStep = 3 ∧
      ∀ message, payload = some message → message ≠ .unreadable ∧ o.keyed = true
  | .confirm => refStep ≤ 2 ∨ refStep = 4 ∧
      (o.validated = true ∨ (o.keyed = true ∧ o.pinAsked = true) ∧ f = .pin)
  | .wifiprovioninginfo => o.validated = true
  | _ => refStep ≤ 2 ∨ o.validated = true

structure Invariant (device : Device) (s : Gate) : Prop where
  keys : s.keys = true → s.ownership.keyed = true
  configured : ∀ f : Feature, s.ownershipValidationType.testBit f.bit = true →
    device.configures f = true
  free : s.pending = none → Cleared s.refStep s.ownership s.currOtmFeature
  queued : ∀ p, s.pending = some p → p.phase = .queued →
    Granted s.refStep s.ownership s.currOtmFeature p.payload p.step
  waiting : ∀ p, s.pending = some p → p.phase = .waiting →
    s.currOtmFeature = .button ∧ device.configures .button = true ∧
      (s.refStep ≤ 2 ∨ s.refStep = 3 ∧ s.ownership.keyed = true) ∧
      (s.confirmCheck = true → s.confirmed = true)
  responded : ∀ p, s.pending = some p → p.phase = .responded none →
    Cleared s.refStep s.ownership s.currOtmFeature
  safe : s.breached = false

/-- A step passes the check in sequence or by setting `ref_step` itself. -/
theorem checkSequence_eq_some {cmd : Step} {refStep r : Nat}
    (passes : checkSequence cmd refStep = some r) :
    r = refStep ∧ (cmd.code = refStep ∨ 8 ≤ cmd.code) ∨
    r = cmd.code ∧ cmd.code ≠ refStep ∧
      (cmd = .wifiscaninfo ∨ cmd = .setupcomplete ∨ cmd = .confirminfo) := by
  unfold checkSequence at passes
  split at passes
  case isFalse inSequence =>
    have same := Option.some.inj passes
    refine .inl ⟨same.symm, ?_⟩
    by_contra other
    rw [not_or] at other
    exact inSequence ⟨other.1, by simpa [Step.code] using other.2⟩
  case isTrue jump =>
    split at passes
    case h_1 => exact .inr ⟨(Option.some.inj passes).symm, jump.1, .inl rfl⟩
    case h_2 => exact .inr ⟨(Option.some.inj passes).symm, jump.1, .inr (.inl rfl)⟩
    case h_3 => exact .inr ⟨(Option.some.inj passes).symm, jump.1, .inr (.inr rfl)⟩
    case h_4 => exact absurd passes (by simp)

/-- Only a session with keys decrypts the payload of a CONFIRMINFO. -/
theorem keys_of_decrypt {s : Gate} {data : Received} {message : Message}
    (opened : s.decrypt .confirminfo data = some (some message)) : s.keys = true := by
  cases data with
  | empty => exact absurd opened (by simp [Gate.decrypt])
  | bytes opens content =>
      by_contra missing
      exact absurd opened (by simp [Gate.decrypt, Step.plain, missing])

/-- A command that passes the check is granted its step. -/
theorem Invariant.granted {device : Device} {s : Gate} {cmd : Step} {data : Received}
    {enqueued : Bool} {payload : Option Message} {r : Nat} (inv : Invariant device s)
    (free : s.pending = none) (regular : Regular s (.command cmd data enqueued))
    (opened : s.decrypt cmd data = some payload) (passes : checkSequence cmd s.refStep = some r) :
    Granted (advanceRefStep cmd r) s.ownership s.currOtmFeature payload cmd := by
  obtain ⟨jump, parses, -⟩ := regular payload opened
  have cleared := inv.free free
  -- a CONFIRMINFO is granted by its decryption, wherever `ref_step` was
  have confirminfo : cmd = .confirminfo → ∀ message, payload = some message →
      message ≠ .unreadable ∧ s.ownership.keyed = true := by
    rintro rfl message rfl
    exact ⟨fun unreadable => parses rfl (by rw [unreadable]), inv.keys (keys_of_decrypt opened)⟩
  rcases checkSequence_eq_some passes with ⟨rfl, inSequence⟩ | ⟨rfl, out, step⟩
  · have asked := cleared.asked
    have validated := cleared.validated
    cases cmd <;> simp only [Step.code, Granted, advanceRefStep] at inSequence ⊢ <;>
      simp only [Nat.reduceLT, Nat.reduceLeDiff, or_false, if_true, if_false, Nat.zero_le,
        true_or] at inSequence ⊢
    case deviceinfo => omega
    case keyinfo => omega
    case confirminfo => exact .inr ⟨by omega, confirminfo rfl⟩
    case confirm => exact .inr ⟨by omega, asked (by omega)⟩
    case wifiscaninfo => exact .inr (validated (by omega))
    case wifiprovioninginfo => exact validated (by omega)
    case tnc => exact .inr (validated (by omega))
    case setupcomplete => exact .inr (validated (by omega))
  · have skipped : cmd = .wifiscaninfo ∨ cmd = .setupcomplete → s.ownership.validated = true := by
      intro skips
      rcases jump skips out with late | ⟨early, direct⟩
      · exact cleared.validated late
      · exact (cleared.asked early).resolve_right fun pin => direct pin.2
    rcases step with rfl | rfl | rfl
    · exact .inr (skipped (.inl rfl))
    · exact .inr (skipped (.inr rfl))
    · exact .inr ⟨rfl, confirminfo rfl⟩

/-- A granted step whose command is not queued is cleared for the next one only if
the gate does not count on it. -/
theorem Granted.cleared {r : Nat} {o : Ownership} {f : Feature} {payload : Option Message}
    {cmd : Step} (granted : Granted r o f payload cmd) (confirminfo : cmd ≠ .confirminfo)
    (confirm : cmd = .confirm → f ≠ .pin) : Cleared r o f := by
  cases cmd with
  | confirminfo => exact absurd rfl confirminfo
  | deviceinfo | keyinfo => exact .of_low granted
  | confirm =>
      rcases granted with low | ⟨-, validated | ⟨-, pin⟩⟩
      · exact .of_low low
      · exact .of_validated validated
      · exact absurd pin (confirm rfl)
  | wifiprovioninginfo => exact .of_validated granted
  | _ => exact granted.elim .of_low .of_validated

namespace Invariant

variable {device : Device} {s : Gate}

theorem initial : Invariant device .initial where
  keys := by simp [Gate.initial]
  configured := by simp [Gate.initial]
  free := fun _ => .of_low (Nat.zero_le 2)
  queued := by simp [Gate.initial]
  waiting := by simp [Gate.initial]
  responded := by simp [Gate.initial]
  safe := rfl

/-- A state without a pending command. -/
private theorem of_free {t : Gate} (keys : t.keys = true → t.ownership.keyed = true)
    (configured : ∀ f : Feature, t.ownershipValidationType.testBit f.bit = true →
      device.configures f = true)
    (free : t.pending = none) (cleared : Cleared t.refStep t.ownership t.currOtmFeature)
    (safe : t.breached = false) : Invariant device t where
  keys := keys
  configured := configured
  free := fun _ => cleared
  queued := by simp [free]
  waiting := by simp [free]
  responded := by simp [free]
  safe := safe

/-- A state in which the worker has responded. -/
private theorem of_responded {t : Gate} {p : Pending} {err : Option EasysetupError}
    (keys : t.keys = true → t.ownership.keyed = true)
    (configured : ∀ f : Feature, t.ownershipValidationType.testBit f.bit = true →
      device.configures f = true)
    (taken : t.pending = some p) (responded : p.phase = .responded err)
    (cleared : err = none → Cleared t.refStep t.ownership t.currOtmFeature)
    (safe : t.breached = false) : Invariant device t where
  keys := keys
  configured := configured
  free := by simp [taken]
  queued := by
    intro q now queued
    obtain rfl := Option.some.inj (taken.symm.trans now)
    exact absurd (queued.symm.trans responded) (by simp)
  waiting := by
    intro q now waiting
    obtain rfl := Option.some.inj (taken.symm.trans now)
    exact absurd (waiting.symm.trans responded) (by simp)
  responded := by
    intro q now success
    obtain rfl := Option.some.inj (taken.symm.trans now)
    exact cleared (Phase.responded.inj (responded.symm.trans success))
  safe := safe

theorem command {cmd : Step} {data : Received} {enqueued : Bool} (inv : Invariant device s)
    (free : s.pending = none) (regular : Regular s (.command cmd data enqueued)) :
    Invariant device (s.command cmd data enqueued) := by
  unfold Gate.command
  split
  case isTrue => exact inv
  case isFalse =>
    cases opened : s.decrypt cmd data with
    | none => exact inv
    | some payload =>
        cases passes : checkSequence cmd s.refStep with
        | none => exact inv
        | some r =>
            have granted := inv.granted free regular opened passes
            cases enqueued with
            | false =>
                obtain ⟨confirminfo, confirm⟩ := (regular payload opened).2.2 rfl
                exact of_free inv.keys inv.configured rfl (granted.cleared confirminfo confirm)
                  inv.safe
            | true =>
                refine ⟨inv.keys, inv.configured, by simp, ?_, ?_, ?_, inv.safe⟩
                · rintro p taken -
                  obtain rfl := Option.some.inj taken
                  exact granted
                · rintro p taken waiting
                  obtain rfl := Option.some.inj taken
                  exact absurd waiting (by simp)
                · rintro p taken responded
                  obtain rfl := Option.some.inj taken
                  exact absurd responded (by simp)

theorem handled {p : Pending} {err : Option EasysetupError} (inv : Invariant device s)
    (taken : s.pending = some p) (queued : p.phase = .queued)
    (other : p.step ≠ .deviceinfo ∧ p.step ≠ .keyinfo ∧ p.step ≠ .confirminfo ∧
      p.step ≠ .confirm) : Invariant device (s.handled p err) := by
  have granted := inv.queued p taken queued
  refine of_responded inv.keys inv.configured rfl rfl (fun _ => ?_) ?_
  · exact granted.cleared other.2.2.1 fun confirm => absurd confirm other.2.2.2
  · simp only [Gate.handled, inv.safe, Bool.false_or]
    cases step : p.step == .wifiprovioninginfo with
    | false => rfl
    | true =>
        rw [eq_of_beq step] at granted
        have validated : s.ownership.validated = true := granted
        simp [validated]

theorem deviceinfo {p : Pending} {err : Option EasysetupError} {cipherInit : Bool}
    (inv : Invariant device s) (taken : s.pending = some p) (queued : p.phase = .queued)
    (step : p.step = .deviceinfo) : Invariant device (s.deviceinfo p err cipherInit) := by
  have granted := inv.queued p taken queued
  rw [step] at granted
  refine of_responded (fun keys => inv.keys ?_) inv.configured rfl rfl
    (fun _ => .of_low granted) inv.safe
  exact (Bool.and_eq_true_iff.mp keys).1

theorem keyinfo {p : Pending} {err : Option EasysetupError} {installed : Bool}
    (inv : Invariant device s) (taken : s.pending = some p) (queued : p.phase = .queued)
    (step : p.step = .keyinfo) (regular : Regular s (.keyinfo err installed)) :
    Invariant device (s.keyinfo device p err installed) := by
  have granted := inv.queued p taken queued
  rw [step] at granted
  have low : s.refStep ≤ 2 := granted
  by_cases success : err = none
  · refine of_responded ?_ ?_ rfl rfl (fun _ => .of_low low) inv.safe
    · intro _
      simp [Gate.keyinfo, success]
    · intro f bit
      simpa [Gate.keyinfo, success, Device.configures] using bit
  · refine of_responded ?_ ?_ rfl rfl (fun _ => .of_low low) inv.safe
    · intro keys
      have before : s.keys = true := by
        rcases Bool.or_eq_true_iff.mp keys with before | installs
        · exact before
        · exact (regular installs).resolve_left success
      simpa [Gate.keyinfo, success] using inv.keys before
    · intro f bit
      exact inv.configured f (by simpa [Gate.keyinfo, success] using bit)

/-- A check that succeeds clears the step after CONFIRMINFO. -/
private theorem concludeCheck {t : Gate} {p : Pending} {f : Feature} {shown jsonCreate : Bool}
    (keys : t.keys = true → t.ownership.keyed = true)
    (configured : ∀ f : Feature, t.ownershipValidationType.testBit f.bit = true →
      device.configures f = true)
    (current : t.currOtmFeature = f) (enabled : device.configures f = true)
    (seen : shown = true) (granted : t.refStep ≤ 2 ∨ t.refStep = 3 ∧ t.ownership.keyed = true)
    (safe : t.breached = false) :
    Invariant device (t.concludeCheck device p f shown jsonCreate) := by
  unfold Gate.concludeCheck
  split
  case isFalse =>
    exact of_responded keys configured rfl rfl (fun success => absurd success (by simp)) safe
  case isTrue =>
    simp only [enabled, seen, Bool.and_self, if_true]
    refine of_responded (fun installed => ?_) configured rfl rfl (fun _ => ?_) safe
    · exact (Ownership.confirm_keyed _ _).trans (keys installed)
    · rcases granted with low | ⟨three, keyed⟩
      · exact .of_low low
      · refine ⟨fun _ => ?_, fun high => absurd (three ▸ high) (by decide)⟩
        by_cases pin : f = .pin
        · subst pin
          exact .inr ⟨⟨(Ownership.confirm_keyed _ _).trans keyed,
            Ownership.confirm_pinAsked keyed⟩, current⟩
        · exact .inl (Ownership.confirm_validated keyed pin)

theorem startCheck_configured (inv : Invariant device s) (f g : Feature)
    (bit : (s.startCheck f).ownershipValidationType.testBit g.bit = true) :
    device.configures g = true := by
  rw [Gate.startCheck, Nat.testBit_ldiff] at bit
  exact inv.configured g (Bool.and_eq_true_iff.mp bit).1

theorem confirminfo {sha512 : List UInt8 → Option (List UInt8)} {p : Pending}
    {stateUpdate jsonCreate : Bool} (inv : Invariant device s) (taken : s.pending = some p)
    (queued : p.phase = .queued) (step : p.step = .confirminfo) :
    Invariant device (s.confirminfo sha512 device p stateUpdate jsonCreate) := by
  have granted := inv.queued p taken queued
  rw [step] at granted
  have failed : ∀ err, Invariant device (s.respond p (some err)) := by
    intro err
    exact of_responded inv.keys inv.configured rfl rfl (fun success => absurd success (by simp))
      inv.safe
  have checked : ∀ f err, Invariant device ((s.startCheck f).respond p (some err)) := by
    intro f err
    exact of_responded inv.keys (inv.startCheck_configured f) rfl rfl
      (fun success => absurd success (by simp)) inv.safe
  unfold Gate.confirminfo
  split
  case h_1 => exact failed _
  case h_2 unreadable =>
    refine of_responded inv.keys inv.configured rfl rfl (fun _ => ?_) inv.safe
    rcases granted with low | ⟨-, parses⟩
    · exact .of_low low
    · exact absurd rfl (parses _ unreadable).1
  case h_3 => exact failed _
  case h_4 => exact failed _
  case h_5 sn hashedsn pin message =>
    have keyed : s.refStep ≤ 2 ∨ s.refStep = 3 ∧ s.ownership.keyed = true :=
      granted.imp id fun ⟨three, parses⟩ => ⟨three, (parses _ message).2⟩
    split
    case h_1 => exact failed _
    case h_2 f named =>
      split
      case isFalse => exact failed _
      case isTrue supported =>
        have enabled := inv.configured f supported
        split
        case isFalse => exact checked _ _
        case isTrue =>
          split
          case h_1 wait =>
            obtain rfl := button_of_wait sha512 wait
            refine ⟨inv.keys, inv.startCheck_configured .button, by simp, ?_, ?_, ?_, inv.safe⟩
            · rintro q now phase
              obtain rfl := Option.some.inj now
              exact absurd phase (by simp)
            · rintro q now -
              exact ⟨rfl, enabled, keyed, fun pressed => absurd pressed (by simp)⟩
            · rintro q now phase
              obtain rfl := Option.some.inj now
              exact absurd phase (by simp)
          case h_2 => exact checked _ _
          case h_3 done =>
            exact concludeCheck inv.keys (inv.startCheck_configured f) rfl enabled
              (validates_of_done sha512 done) keyed inv.safe

theorem wake {p : Pending} {jsonCreate : Bool} (inv : Invariant device s)
    (taken : s.pending = some p) (waiting : p.phase = .waiting) :
    Invariant device (s.wake device p jsonCreate) := by
  obtain ⟨button, enabled, granted, pressed⟩ := inv.waiting p taken waiting
  unfold Gate.wake
  split
  case isTrue check =>
    exact concludeCheck inv.keys inv.configured button enabled (pressed check) granted inv.safe
  case isFalse =>
    exact of_responded inv.keys inv.configured rfl rfl (fun success => absurd success (by simp))
      inv.safe

theorem confirm {p : Pending} {jsonCreate : Bool} (inv : Invariant device s)
    (taken : s.pending = some p) (queued : p.phase = .queued) (step : p.step = .confirm) :
    Invariant device (s.confirm device p jsonCreate) := by
  have granted := inv.queued p taken queued
  rw [step] at granted
  refine of_responded ?_ inv.configured rfl rfl ?_ inv.safe
  · intro keys
    have keyed := inv.keys keys
    simp only [Gate.confirm]
    split
    · rwa [Ownership.enterPin_keyed]
    · exact keyed
  · intro succeeds
    obtain ⟨-, right⟩ := esConfirmHandler_eq_none succeeds
    simp only [Gate.confirm, succeeds, right, and_self, if_true]
    rcases granted with low | ⟨-, ready⟩
    · exact .of_low low
    · exact .of_validated (Ownership.enterPin_validated (ready.imp id And.left))

theorem finish {p : Pending} {err : Option EasysetupError} {received : Bool}
    (inv : Invariant device s) (taken : s.pending = some p)
    (responded : p.phase = .responded err) : Invariant device (s.finish p err received) := by
  unfold Gate.finish
  split
  case isTrue success =>
    obtain ⟨rfl, -⟩ := success
    refine of_free inv.keys inv.configured rfl ?_ inv.safe
    simp only
    split
    · exact .of_low (Nat.zero_le 2)
    · exact inv.responded p taken responded
  case isFalse => exact of_free inv.keys inv.configured rfl (.of_low (Nat.zero_le 2)) inv.safe

/-- A join while nothing is left of the last connection. -/
theorem gattJoin (inv : Invariant device s) (regular : Regular s .gattJoin) :
    Invariant device s.gattJoin := by
  obtain ⟨noKeys, noCredentials⟩ := regular
  refine ⟨fun keys => absurd (noKeys.symm.trans keys) (by simp), inv.configured,
    fun _ => .of_low (Nat.zero_le 2), ?_, ?_, fun _ _ _ => .of_low (Nat.zero_le 2), inv.safe⟩
  · intro p taken queued
    have unprovisioned : p.step ≠ .wifiprovioninginfo :=
      fun step => noCredentials ⟨p, taken, queued, step⟩
    cases step : p.step with
    | wifiprovioninginfo => exact absurd step unprovisioned
    | deviceinfo | keyinfo => exact Nat.zero_le 2
    | _ => exact .inl (Nat.zero_le 2)
  · intro p taken waiting
    obtain ⟨button, enabled, -, pressed⟩ := inv.waiting p taken waiting
    exact ⟨button, enabled, .inl (Nat.zero_le 2), pressed⟩

theorem gattLeave {deinit : Bool} (inv : Invariant device s) (alone : ¬ s.Waiting) :
    Invariant device (s.gattLeave deinit) := by
  have waiting : ∀ {P : Prop} (p : Pending), s.pending = some p → p.phase = .waiting → P := by
    intro P p taken waiting
    exact absurd ⟨p, taken, waiting⟩ alone
  have keys : (s.keys && !deinit) = true → s.ownership.keyed = true := by
    intro kept
    exact inv.keys (Bool.and_eq_true_iff.mp kept).1
  unfold Gate.gattLeave Gate.ownershipConfirm
  split
  all_goals
    exact ⟨keys, inv.configured, inv.free, inv.queued, fun p => waiting p, inv.responded, inv.safe⟩

theorem applicationConfirm {confirm : Bool} (inv : Invariant device s) :
    Invariant device (s.applicationConfirm confirm) := by
  unfold Gate.applicationConfirm Gate.ownershipConfirm
  split
  case isTrue =>
    refine ⟨inv.keys, inv.configured, inv.free, inv.queued, ?_, inv.responded, inv.safe⟩
    intro p taken waiting
    obtain ⟨button, enabled, granted, -⟩ := inv.waiting p taken waiting
    exact ⟨button, enabled, granted, id⟩
  case isFalse other =>
    refine ⟨inv.keys, inv.configured, inv.free, inv.queued, ?_, inv.responded, inv.safe⟩
    intro p taken waiting
    exact absurd (inv.waiting p taken waiting).1 other

theorem step {sha512 : List UInt8 → Option (List UInt8)} {t : Gate} {e : Event}
    (inv : Invariant device s) (regular : Regular s e)
    (transition : Transition sha512 device s e t) : Invariant device t := by
  cases transition with
  | command free => exact inv.command free regular
  | handled taken queued other => exact inv.handled taken queued other
  | deviceinfo taken queued step => exact inv.deviceinfo taken queued step
  | keyinfo taken queued step => exact inv.keyinfo taken queued step regular
  | confirminfo taken queued step => exact inv.confirminfo taken queued step
  | wake taken waiting => exact inv.wake taken waiting
  | confirm taken queued step => exact inv.confirm taken queued step
  | finish taken responded => exact inv.finish taken responded
  | gattJoin => exact inv.gattJoin regular
  | gattLeave => exact inv.gattLeave regular
  | applicationConfirm => exact inv.applicationConfirm

end Invariant

/-- In every run of regular commands and events the credentials are handled only
after ownership was validated in the same connection. -/
theorem unbreached_of_regular (sha512 : List UInt8 → Option (List UInt8)) (device : Device)
    (events : List Event) (t : Gate) (run : Steps (Transition sha512 device) .initial events t)
    (regular : Along (Transition sha512 device) Regular .initial events) :
    t.breached = false := by
  have inv : Invariant device t := run.invariant_along
    (fun _ _ _ inv regular transition => inv.step regular transition) regular Invariant.initial
  exact inv.safe

/-- A regular event in front of a regular run. -/
theorem Transition.cons {sha512 : List UInt8 → Option (List UInt8)} {device : Device}
    {s t u : Gate} {e : Event} {events : List Event}
    (transition : Transition sha512 device s e t) (regular : Regular s e)
    (rest : Steps (Transition sha512 device) t events u ∧
      Along (Transition sha512 device) Regular t events) :
    Steps (Transition sha512 device) s (e :: events) u ∧
      Along (Transition sha512 device) Regular s (e :: events) :=
  cons_along transition (fun _ => transition.unique) regular rest

/-- A command in the clear is regular if it is queued. -/
theorem Regular.of_plain {s : Gate} {cmd : Step} {data : Received} (plain : cmd.plain = true) :
    Regular s (.command cmd data true) := by
  intro payload _
  refine ⟨?_, ?_, fun full => absurd full (by simp)⟩
  · rintro (rfl | rfl) _ <;> exact absurd plain (by decide)
  · rintro rfl
    exact absurd plain (by decide)

/-- So is a command in sequence that parses. -/
theorem Regular.of_inSequence {s : Gate} {cmd : Step} {data : Received} {payload : Option Message}
    (opened : s.decrypt cmd data = some payload) (inSequence : cmd.code = s.refStep)
    (parses : payload ≠ some .unreadable) : Regular s (.command cmd data true) := by
  intro payload' opened'
  obtain rfl := Option.some.inj (opened.symm.trans opened')
  exact ⟨fun _ out => absurd inSequence out, fun _ => parses, fun full => absurd full (by simp)⟩

/-- A device that asks for a PIN. -/
def pinDevice : Device := ⟨8, false, some ⟨[49, 50, 51, 52, 53, 54, 55, 56], rfl⟩, none⟩

/-- An onboarding in order, up to the handled credentials. -/
def pinOnboarding : List Event :=
  [.gattJoin,
    .command .deviceinfo (.bytes false .unreadable) true, .deviceinfo none true, .finish true,
    .command .keyinfo (.bytes false .unreadable) true, .keyinfo none true, .finish true,
    .command .confirminfo (.bytes true (.data (some 3) none none none)) true,
    .confirminfo true true, .finish true,
    .command .confirm
      (.bytes true (.data none none none (some [49, 50, 51, 52, 53, 54, 55, 56]))) true,
    .confirm true, .finish true,
    .command .wifiscaninfo .empty true, .handled none, .finish true,
    .command .wifiprovioninginfo (.bytes true .noData) true, .handled none]

/-- It is regular, so it is not a breach. -/
theorem pinOnboarding_unbreached :
    ∃ t, Steps (Transition (fun _ => none) pinDevice) .initial pinOnboarding t ∧
      t.pending = some ⟨.wifiprovioninginfo, some .noData, .responded none⟩ ∧
      t.breached = false := by
  obtain ⟨t, ⟨steps, along⟩, handled⟩ : ∃ t,
      (Steps (Transition (fun _ => none) pinDevice) .initial pinOnboarding t ∧
        Along (Transition (fun _ => none) pinDevice) Regular .initial pinOnboarding) ∧
      t.pending = some ⟨.wifiprovioninginfo, some .noData, .responded none⟩ :=
    ⟨_, Transition.gattJoin.cons
        ⟨rfl, fun ⟨_, taken, _⟩ => absurd taken (by simp [Gate.initial])⟩ <|
      (Transition.command rfl).cons (.of_plain rfl) <|
      (Transition.deviceinfo rfl rfl rfl).cons trivial <|
      (Transition.finish rfl rfl).cons trivial <|
      (Transition.command rfl).cons (.of_plain rfl) <|
      (Transition.keyinfo rfl rfl rfl fun _ => rfl).cons (fun _ => .inl rfl) <|
      (Transition.finish rfl rfl).cons trivial <|
      (Transition.command rfl).cons (.of_inSequence rfl rfl (by decide)) <|
      (Transition.confirminfo rfl rfl rfl).cons trivial <|
      (Transition.finish rfl rfl).cons trivial <|
      (Transition.command rfl).cons (.of_inSequence rfl rfl (by decide)) <|
      (Transition.confirm rfl rfl rfl).cons trivial <|
      (Transition.finish rfl rfl).cons trivial <|
      (Transition.command rfl).cons (.of_inSequence rfl rfl (by decide)) <|
      (Transition.handled rfl rfl (by decide)).cons trivial <|
      (Transition.finish rfl rfl).cons trivial <|
      (Transition.command rfl).cons (.of_inSequence rfl rfl (by decide)) <|
      (Transition.handled rfl rfl (by decide)).cons trivial <| nil_along _, rfl⟩
  exact ⟨t, steps, handled,
    unbreached_of_regular (fun _ => none) pinDevice pinOnboarding t steps along⟩

/-- A CONFIRMINFO that is no JSON, and credentials. -/
def malformedOnboarding : List Event :=
  [.gattJoin,
    .command .deviceinfo (.bytes false .unreadable) true, .deviceinfo none true, .finish true,
    .command .keyinfo (.bytes false .unreadable) true, .keyinfo none true, .finish true,
    .command .confirminfo (.bytes true .unreadable) true, .confirminfo true true, .finish true,
    .command .wifiscaninfo .empty true, .handled none, .finish true,
    .command .wifiprovioninginfo (.bytes true .noData) true, .handled none]

/-- The handler reports success for it, so the credentials are handled. -/
theorem malformedOnboarding_breached :
    ∃ t, Steps (Transition (fun _ => none) pinDevice) .initial malformedOnboarding t ∧
      t.breached = true := by
  refine ⟨_, .cons .gattJoin (.cons (.command rfl) (.cons (.deviceinfo rfl rfl rfl)
    (.cons (.finish rfl rfl) (.cons (.command rfl) (.cons (.keyinfo rfl rfl rfl fun _ => rfl)
    (.cons (.finish rfl rfl) (.cons (.command rfl) (.cons (.confirminfo rfl rfl rfl)
    (.cons (.finish rfl rfl) (.cons (.command rfl) (.cons (.handled rfl rfl (by decide))
    (.cons (.finish rfl rfl) (.cons (.command rfl) (.cons (.handled rfl rfl (by decide))
    (.nil _))))))))))))))), rfl⟩

end StDevice.Easysetup.Ble.Onboarding
