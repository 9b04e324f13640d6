import StDevice.Easysetup.Http.Gate

/-!
# The order of the onboarding over HTTP

The order of the steps is kept in `ref_step` only. It is advanced before the outcome of a
request is known, moved by the shortcuts, and set back to zero by a failed step, a log
request and a station that leaves.

Here the events since `ref_step` was last zero are recorded next to the state. The value
of `ref_step` says which steps are among them, and a request of SETUPCOMPLETE passes the
check only when DEVICEINFO, KEYINFO and WIFIPROVISIONINGINFO have succeeded in this order
and nothing went wrong in between.
-/

namespace StDevice.Easysetup.Http

open Run

/-- An event of the onboarding. -/
inductive Mark where
  /-- a request that never becomes a step: a POST without payload, an unknown command -/
  | refused (cmd : Step)
  /-- a request that passes the sequence check -/
  | requested (step : Step)
  | succeeded (step : Step)
  | failed (step : Step)
  | logRequest
  | left
  deriving DecidableEq, Repr

/-- No failed step, no log request and no station that leaves. -/
def Mark.smooth : Mark → Bool
  | refused _ | requested _ | succeeded _ => true
  | failed _ | logRequest | left => false

/-- The step that has succeeded. -/
def Mark.success? : Mark → Option Step
  | succeeded step => some step
  | _ => none

namespace Gate

/-- What a request is recorded as when it arrives. -/
def requestMark (s : Gate) (method : Method) (cmd : Step) (payload : Bool) : Mark :=
  if method = .post ∧ payload = false ∧ cmd ≠ .setupcomplete ∧ cmd ≠ .logCreateDump then
    .refused cmd
  else if cmd = .invalid then .refused cmd
  else if Step.logSysteminfo.code ≤ cmd.code then .logRequest
  else if checkSequence method cmd s.refStep = none then .failed cmd
  else .requested cmd

/-- What a request is recorded as when it ends. -/
def finishMarks (s : Gate) (received : Bool) : List Mark :=
  match s.pending with
  | some ⟨step, .responded err, _⟩ =>
      if err = none ∧ received = true then [.succeeded step] else [.failed step]
  | _ => []

/-- What an event is recorded as. -/
def marks (s : Gate) : Event → List Mark
  | .request method cmd payload _ => [s.requestMark method cmd payload]
  | .finish received => s.finishMarks received
  | .staLeave => [.left]
  | _ => []

end Gate

/-- What has happened since `ref_step` was last zero, after an event that leads to `t`. -/
def record (history marks : List Mark) (t : Gate) : List Mark :=
  if t.refStep = 0 then [] else history ++ marks

/-- A step with its record. -/
def Recorded (device : Device) (x : Gate × List Mark) (e : Event) (y : Gate × List Mark) : Prop :=
  Transition device x.1 e y.1 ∧ y.2 = record x.2 (x.1.marks e) y.1

/-- The event finds room in the queue of the worker if it needs it. -/
def Event.enqueues : Event → Bool
  | .request _ _ _ enqueued => enqueued
  | _ => true

/-- The end of a SETUPCOMPLETE request that requests IOT_STATE_PROV_DONE. -/
def RequestsProvDone (s : Gate) (e : Event) : Prop :=
  e = .finish true ∧
    ∃ evidence, s.pending = some ⟨.setupcomplete, .responded none, evidence⟩

/-- What must have happened for a request of the step to pass the check. -/
def Leads : Step → List Mark → Prop
  | .deviceinfo, _ => True
  | .keyinfo, history => [.succeeded .deviceinfo].Sublist history
  | .setupcomplete, history =>
      [.succeeded .deviceinfo, .succeeded .keyinfo, .succeeded .wifiprovioninginfo].Sublist
        history ∧
      (history.filterMap Mark.success?).getLast? = some .wifiprovioninginfo
  | _, history => [.succeeded .deviceinfo, .succeeded .keyinfo].Sublist history

/-- The history of a pending request: before the request nothing went wrong and the steps
in front of it succeeded, and after it at most the station left. -/
def Asked (step : Step) (history : List Mark) : Prop :=
  ∃ before during, history = before ++ .requested step :: during ∧
    (∀ m ∈ before, m.smooth = true) ∧ Leads step before ∧ ∀ m ∈ during, m = .left

/-- What `ref_step` says about the history. -/
structure Chronicle (s : Gate) (history : List Mark) : Prop where
  zero : s.refStep = 0 → history = []
  free : s.pending = none → s.refStep = 7 ∨
    ∃ step, Step.code step = s.refStep ∧ s.refStep ≤ 6 ∧ (∀ m ∈ history, m.smooth = true) ∧
      Leads step history
  /-- while a request before SETUPCOMPLETE is pending, a station that leaves is noticed -/
  early : ∀ p, s.pending = some p → p.step ≠ .setupcomplete → s.refStep ≠ 0 →
    s.refStep = p.step.code + 1 ∧ s.refStep ≤ 6 ∧
      ∃ before, history = before ++ [.requested p.step] ∧ (∀ m ∈ before, m.smooth = true) ∧
        Leads p.step before
  last : ∀ p, s.pending = some p → p.step = .setupcomplete →
    s.refStep = 7 ∧ Asked .setupcomplete history

section History

variable {step cmd : Step} {history : List Mark}

theorem Step.eq_of_code {a b : Step} (same : a.code = b.code) : a = b := by
  cases a with
  | _ =>
      cases b with
      | _ => first | rfl | cases same

/-- The steps between KEYINFO and SETUPCOMPLETE need the same history. -/
theorem leads_between (low : 2 ≤ step.code) (high : step.code ≤ 5) :
    Leads step history ↔
      [Mark.succeeded .deviceinfo, .succeeded .keyinfo].Sublist history := by
  cases step with
  | deviceinfo | keyinfo => simp [Step.code] at low
  | setupcomplete => simp [Step.code] at high
  | _ => rfl

/-- An event that is no success changes nothing for the steps to come. -/
theorem Leads.append {mark : Mark} (leads : Leads step history) (silent : mark.success? = none) :
    Leads step (history ++ [mark]) := by
  have longer : history.Sublist (history ++ [mark]) := List.sublist_append_left _ _
  cases step with
  | deviceinfo => trivial
  | setupcomplete =>
      refine ⟨leads.1.trans longer, ?_⟩
      rw [List.filterMap_append]
      simp only [List.filterMap_cons, silent, List.filterMap_nil, List.append_nil]
      exact leads.2
  | _ => exact List.Sublist.trans leads longer

/-- After the success of a step the next one is led to. -/
theorem Leads.succeeded {next : Step} (leads : Leads step history)
    (follows : next.code = step.code + 1) (high : next.code ≤ 6) :
    Leads next (history ++ [.requested step] ++ [.succeeded step]) := by
  have longer : history.Sublist (history ++ [.requested step]) := List.sublist_append_left _ _
  have keyed : 2 ≤ step.code → step.code ≤ 5 →
      [Mark.succeeded .deviceinfo, .succeeded .keyinfo].Sublist (history ++ [.requested step]) := by
    intro low high
    exact ((leads_between low high).mp leads).trans longer
  cases step with
  | deviceinfo =>
      obtain rfl : next = .keyinfo := Step.eq_of_code follows
      exact List.sublist_append_right _ _
  | keyinfo =>
      obtain rfl : next = .confirminfo := Step.eq_of_code follows
      exact List.Sublist.append (List.Sublist.trans leads longer) (List.Sublist.refl _)
  | wifiprovioninginfo =>
      obtain rfl : next = .setupcomplete := Step.eq_of_code follows
      refine ⟨List.Sublist.append (keyed (by decide) (by decide)) (List.Sublist.refl _), ?_⟩
      rw [List.filterMap_append]
      exact List.getLast?_concat
  | confirminfo | confirm | wifiscaninfo =>
      refine (leads_between ?_ ?_).mpr ((keyed (by decide) (by decide)).trans
        (List.sublist_append_left _ _))
      · rw [follows]
        decide
      · rw [follows]
        decide
  | setupcomplete | logSysteminfo | logCreateDump | logGetDump | invalid =>
      rw [follows] at high
      exact absurd high (by decide)

/-- A request that passes the check has the history that leads to its step. -/
theorem Leads.passes {method : Method} {refStep r : Nat} (leads : Leads step history)
    (expected : step.code = refStep) (below : cmd.code < 7)
    (passes : checkSequence method cmd refStep = some r) :
    r = cmd.code ∧ Leads cmd history := by
  obtain ⟨rfl, inSequence | log⟩ | ⟨-, rfl, rfl, before⟩ | ⟨-, rfl, rfl, before⟩ :=
    checkSequence_eq_some passes
  · obtain rfl := Step.eq_of_code (expected.trans inSequence.symm)
    exact ⟨expected.symm, leads⟩
  · omega
  · refine ⟨rfl, (leads_between (by decide) (by decide)).mpr ?_⟩
    exact (leads_between (by omega) (by omega)).mp leads
  · refine ⟨rfl, (leads_between (by decide) (by decide)).mpr ?_⟩
    exact (leads_between (by omega) (by omega)).mp leads

end History

theorem Step.exists_code : ∀ n, n ≤ 6 → ∃ step : Step, step.code = n
  | 0, _ => ⟨.deviceinfo, rfl⟩
  | 1, _ => ⟨.keyinfo, rfl⟩
  | 2, _ => ⟨.confirminfo, rfl⟩
  | 3, _ => ⟨.confirm, rfl⟩
  | 4, _ => ⟨.wifiscaninfo, rfl⟩
  | 5, _ => ⟨.wifiprovioninginfo, rfl⟩
  | 6, _ => ⟨.setupcomplete, rfl⟩
  | _ + 7, low => absurd low (by omega)

/-- A request is refused, or sets `ref_step` to zero, or passes the check of its step. -/
theorem Gate.request_cases (s : Gate) (method : Method) (cmd : Step) (payload : Bool)
    (free : s.pending = none) :
    (s.request method cmd payload true = s ∧
      s.requestMark method cmd payload = .refused cmd) ∨
    ((s.request method cmd payload true).refStep = 0 ∧
      ∀ q, (s.request method cmd payload true).pending = some q → q.step ≠ .setupcomplete) ∨
    (cmd.code < 7 ∧ ∃ r, checkSequence method cmd s.refStep = some r ∧
      (s.request method cmd payload true).refStep = advanceRefStep cmd r ∧
      (s.request method cmd payload true).pending = some ⟨cmd, .queued, .nothing⟩ ∧
      s.requestMark method cmd payload = .requested cmd) := by
  by_cases empty : method = .post ∧ payload = false ∧ cmd ≠ .setupcomplete ∧ cmd ≠ .logCreateDump
  · simp only [Gate.request, Gate.requestMark, if_pos empty]
    exact .inl ⟨trivial, trivial⟩
  by_cases invalid : cmd = .invalid
  · simp only [Gate.request, Gate.requestMark, if_neg empty, if_pos invalid]
    exact .inl ⟨trivial, trivial⟩
  simp only [Gate.request, Gate.requestMark, if_neg empty, if_neg invalid]
  by_cases log : Step.logSysteminfo.code ≤ cmd.code
  · have passes : checkSequence method cmd s.refStep = some s.refStep := by
      unfold checkSequence
      rw [if_neg (fun both => absurd both.2 (Nat.not_lt.mpr log))]
    refine .inr (.inl ?_)
    simp only [passes, if_true]
    constructor
    · unfold advanceRefStep
      rw [if_neg (Nat.not_lt.mpr log)]
    · intro q taken last
      obtain rfl := Option.some.inj taken
      obtain rfl : cmd = .setupcomplete := last
      exact absurd log (by decide)
  · cases passes : checkSequence method cmd s.refStep with
    | none =>
        refine .inr (.inl ⟨rfl, ?_⟩)
        simp [free]
    | some r =>
        refine .inr (.inr ⟨Nat.lt_of_not_le log, r, rfl, rfl, rfl, ?_⟩)
        simp [log]

/-- The handler of CONFIRMINFO keeps `ref_step` and the step of the request. -/
theorem Gate.confirminfo_pending (s : Gate) (device : Device) (p : Pending)
    (payload : ConfirminfoPayload) (stateUpdate jsonCreate : Bool) :
    (s.confirminfo device p payload stateUpdate jsonCreate).refStep = s.refStep ∧
      ∃ q, (s.confirminfo device p payload stateUpdate jsonCreate).pending = some q ∧
        q.step = p.step := by
  unfold Gate.confirminfo
  cases payload with
  | unreadable | noFeature => exact ⟨rfl, _, rfl, rfl⟩
  | feature otmSupportFeature sn =>
      simp only
      split
      · exact ⟨rfl, _, rfl, rfl⟩
      split
      · exact ⟨rfl, _, rfl, rfl⟩
      split
      · split
        · exact ⟨rfl, _, rfl, rfl⟩
        · exact ⟨rfl, _, rfl, rfl⟩
        · exact ⟨rfl, _, rfl, rfl⟩
      · exact ⟨rfl, _, rfl, rfl⟩

namespace Chronicle

variable {device : Device} {s t : Gate} {history : List Mark}

theorem initial : Chronicle .initial [] where
  zero _ := rfl
  free _ := .inr ⟨.deviceinfo, rfl, Nat.zero_le 6, by simp, trivial⟩
  early := by simp [Gate.initial]
  last := by simp [Gate.initial]

/-- A state in which the onboarding starts anew. -/
theorem reset {p : Option Pending} (zero : t.refStep = 0) (pending : t.pending = p)
    (other : ∀ q, p = some q → q.step ≠ .setupcomplete) (marks : List Mark) :
    Chronicle t (record history marks t) where
  zero _ := if_pos zero
  free _ := by
    refine .inr ⟨.deviceinfo, zero.symm, by omega, ?_, trivial⟩
    rw [record, if_pos zero]
    simp
  early _ _ _ advanced := absurd zero advanced
  last q taken step := absurd step (other q (pending.symm.trans taken))

/-- Neither `ref_step` nor the pending request changes. -/
theorem unchanged (h : Chronicle s history) (refStep : t.refStep = s.refStep)
    (pending : t.pending = s.pending) : Chronicle t (record history [] t) := by
  have same : record history [] t = history := by
    unfold record
    split
    · rename_i zero
      exact (h.zero (refStep ▸ zero)).symm
    · exact List.append_nil _
  rw [same]
  refine ⟨?_, ?_, ?_, ?_⟩
  · rw [refStep]
    exact h.zero
  · rw [refStep, pending]
    exact h.free
  · rw [refStep, pending]
    exact h.early
  · rw [refStep, pending]
    exact h.last

/-- Work of the worker on the pending request. -/
theorem worked {p q : Pending} (h : Chronicle s history) (taken : s.pending = some p)
    (refStep : t.refStep = s.refStep) (pending : t.pending = some q) (step : q.step = p.step) :
    Chronicle t (record history [] t) := by
  have same : s.refStep ≠ 0 → record history [] t = history := by
    intro advanced
    rw [record, refStep, if_neg advanced, List.append_nil]
  refine ⟨fun zero => if_pos zero, ?_, ?_, ?_⟩
  · intro free
    rw [pending] at free
    cases free
  · intro r taken' other advanced
    obtain rfl := Option.some.inj (pending.symm.trans taken')
    rw [refStep] at advanced ⊢
    rw [step] at other ⊢
    rw [same advanced]
    exact h.early p taken other advanced
  · intro r taken' last
    obtain rfl := Option.some.inj (pending.symm.trans taken')
    rw [step] at last
    obtain ⟨seven, asked⟩ := h.last p taken last
    rw [same (by omega), refStep]
    exact ⟨seven, asked⟩

/-- A request that passes the check. -/
theorem requested {method : Method} {cmd : Step} {r : Nat} (h : Chronicle s history)
    (free : s.pending = none) (below : cmd.code < 7)
    (passes : checkSequence method cmd s.refStep = some r) (t : Gate)
    (refStep : t.refStep = advanceRefStep cmd r)
    (pending : t.pending = some ⟨cmd, .queued, .nothing⟩) :
    Chronicle t (record history [.requested cmd] t) := by
  obtain seven | ⟨step, expected, -, smooth, leads⟩ := h.free free
  · -- after SETUPCOMPLETE no step passes the check
    have impossible := checkSequence_eq_some passes
    omega
  obtain ⟨rfl, leads'⟩ := leads.passes expected below passes
  have advanced : t.refStep = cmd.code + 1 := by
    rw [refStep, advanceRefStep, if_pos (show cmd.code < Step.logSysteminfo.code from below)]
  have history' : record history [.requested cmd] t = history ++ [.requested cmd] := by
    rw [record, if_neg (by omega)]
  refine ⟨fun zero => by omega, ?_, ?_, ?_⟩
  · intro free'
    rw [pending] at free'
    cases free'
  · intro p taken other _
    obtain rfl := Option.some.inj (pending.symm.trans taken)
    have high : cmd.code ≠ 6 := fun six =>
      other (Step.eq_of_code (six.trans (show 6 = Step.setupcomplete.code from rfl)))
    exact ⟨advanced, by omega, history, history', smooth, leads'⟩
  · intro p taken last
    obtain rfl := Option.some.inj (pending.symm.trans taken)
    obtain rfl : cmd = .setupcomplete := last
    exact ⟨advanced, history, [], history', smooth, leads', by simp⟩

/-- A request that is refused. -/
theorem refused (h : Chronicle s history) (free : s.pending = none) (cmd : Step) :
    Chronicle s (record history [.refused cmd] s) := by
  refine ⟨fun zero => if_pos zero, ?_, by simp [free], by simp [free]⟩
  intro _
  obtain seven | ⟨step, expected, low, smooth, leads⟩ := h.free free
  · exact .inl seven
  · refine .inr ⟨step, expected, low, ?_⟩
    unfold record
    split
    · rename_i zero
      obtain rfl : step = .deviceinfo := Step.eq_of_code (expected.trans zero)
      exact ⟨by simp, trivial⟩
    · refine ⟨?_, leads.append rfl⟩
      intro m member
      obtain member | member := List.mem_append.mp member
      · exact smooth m member
      · rw [List.mem_singleton.mp member]
        rfl

theorem request {method : Method} {cmd : Step} {payload : Bool} (h : Chronicle s history)
    (free : s.pending = none) :
    Chronicle (s.request method cmd payload true)
      (record history [s.requestMark method cmd payload]
        (s.request method cmd payload true)) := by
  obtain ⟨same, mark⟩ | ⟨zero, other⟩ | ⟨below, r, passes, refStep, pending, mark⟩ :=
    s.request_cases method cmd payload free
  · rw [same, mark]
    exact h.refused free cmd
  · exact reset zero rfl other _
  · rw [mark]
    exact h.requested free below passes _ refStep pending

/-- The end of a request. -/
theorem finish {p : Pending} {err : Option EasysetupError} {received : Bool}
    (h : Chronicle s history) (taken : s.pending = some p) (responded : p.phase = .responded err) :
    Chronicle (s.finish device p err received)
      (record history (s.finishMarks received) (s.finish device p err received)) := by
  obtain ⟨step, phase, evidence⟩ := p
  obtain rfl : phase = .responded err := responded
  by_cases success : err = none ∧ received = true
  · have marks : s.finishMarks received = [.succeeded step] := by
      simp only [Gate.finishMarks, taken, if_pos success]
    rw [marks, Gate.finish, if_pos success]
    by_cases zero : s.refStep = 0
    · refine reset (p := none) ?_ rfl (by simp) _
      exact zero
    by_cases last : step = .setupcomplete
    · obtain ⟨seven, -⟩ := h.last _ taken last
      exact ⟨fun zero' => absurd zero' zero, fun _ => .inl seven, by simp, by simp⟩
    · obtain ⟨advanced, low, before, rfl, smooth, leads⟩ := h.early _ taken last zero
      obtain ⟨next, code⟩ := Step.exists_code _ low
      refine ⟨fun zero' => absurd zero' zero, fun _ => .inr ⟨next, code, low, ?_⟩, by simp,
        by simp⟩
      rw [record, if_neg zero]
      refine ⟨?_, leads.succeeded (code.trans advanced) (code ▸ low)⟩
      intro m member
      simp only [List.append_assoc, List.mem_append, List.mem_cons, List.not_mem_nil,
        or_false] at member
      obtain member | rfl | rfl := member
      · exact smooth m member
      · rfl
      · rfl
  · rw [Gate.finish, if_neg success]
    exact reset rfl rfl (by simp) _

/-- The station leaves. Once SETUPCOMPLETE is requested nothing happens any more. -/
theorem staLeave (h : Chronicle s history) :
    Chronicle s.staLeave (record history [.left] s.staLeave) := by
  unfold Gate.staLeave
  split
  · rename_i low
    refine reset rfl rfl ?_ _
    intro p taken last
    obtain ⟨seven, -⟩ := h.last p taken last
    rw [seven] at low
    exact absurd low (by decide)
  · rename_i late
    have high : 6 < s.refStep := Nat.lt_of_not_le late
    have history' : record history [.left] s = history ++ [.left] := by
      rw [record, if_neg (by omega)]
    rw [history']
    refine ⟨fun zero => by omega, ?_, ?_, ?_⟩
    · intro free
      obtain seven | ⟨step, expected, low, -⟩ := h.free free
      · exact .inl seven
      · omega
    · intro p taken other advanced
      obtain ⟨-, low, -⟩ := h.early p taken other advanced
      omega
    · intro p taken last
      obtain ⟨seven, before, during, rfl, smooth, leads, left⟩ := h.last p taken last
      refine ⟨seven, before, during ++ [.left], by simp, smooth, leads, ?_⟩
      intro m member
      obtain member | member := List.mem_append.mp member
      · exact left m member
      · exact List.mem_singleton.mp member

/-- Every event that is enqueued keeps the record in step with `ref_step`. -/
theorem transition {e : Event} (h : Chronicle s history) (enqueues : e.enqueues = true)
    (transition : Transition device s e t) : Chronicle t (record history (s.marks e) t) := by
  cases transition with
  | request free =>
      obtain rfl := enqueues
      exact h.request free
  | handled taken => exact h.worked taken rfl rfl rfl
  | confirminfo taken =>
      obtain ⟨refStep, q, pending, same⟩ := s.confirminfo_pending device _ _ _ _
      exact h.worked taken refStep pending same
  | confirm taken => exact h.worked taken rfl rfl rfl
  | wake taken =>
      unfold Gate.wake
      split
      · exact h.worked taken rfl rfl rfl
      · exact h.worked taken rfl rfl rfl
  | finish taken responded => exact h.finish taken responded
  | staJoin => exact h.unchanged rfl rfl
  | staLeave => exact h.staLeave
  | ownershipConfirm =>
      unfold Gate.ownershipConfirm
      split
      · split
        · exact h.unchanged rfl rfl
        · exact h.unchanged rfl rfl
      · exact h.unchanged rfl rfl

end Chronicle

/-- Whenever every request is enqueued, IOT_STATE_PROV_DONE is requested only if, since
`ref_step` was last zero and before the request of SETUPCOMPLETE, the steps DEVICEINFO,
KEYINFO and WIFIPROVISIONINGINFO succeeded in this order, the last of them last, and
nothing went wrong. -/
theorem provDone_ordered (device : Device) (events : List Event) (s : Gate)
    (history : List Mark) (run : Steps (Recorded device) (.initial, []) events (s, history))
    (enqueued : ∀ e ∈ events, e.enqueues = true) (e : Event) (requests : RequestsProvDone s e) :
    ∃ before during, history = before ++ .requested .setupcomplete :: during ∧
      (∀ m ∈ before, m.smooth = true) ∧
      [.succeeded .deviceinfo, .succeeded .keyinfo, .succeeded .wifiprovioninginfo].Sublist
        before ∧
      (before.filterMap Mark.success?).getLast? = some .wifiprovioninginfo ∧
      ∀ m ∈ during, m = .left := by
  have chronicle : Chronicle s history :=
    run.invariant_along (I := fun x => Chronicle x.1 x.2)
      (P := fun _ e => e.enqueues = true)
      (fun x e y h enqueues recorded => recorded.2 ▸ h.transition enqueues recorded.1)
      (along_of_forall enqueued) .initial
  obtain ⟨-, evidence, pending⟩ := requests
  obtain ⟨-, before, during, split, smooth, leads, left⟩ := chronicle.last _ pending rfl
  exact ⟨before, during, split, smooth, leads.1, leads.2, left⟩

/-- A transition in front of a recorded run. -/
theorem Transition.recorded {device : Device} {s t : Gate} {history : List Mark} {e : Event}
    {events : List Event} {u : Gate × List Mark} (transition : Transition device s e t)
    (rest : Steps (Recorded device) (t, record history (s.marks e) t) events u) :
    Steps (Recorded device) (s, history) (e :: events) u :=
  .cons ⟨transition, rfl⟩ rest

/-- An onboarding up to the handled SETUPCOMPLETE; the station leaves at its end. -/
def completedOnboarding : List Event :=
  onboarding ++ [.finish true, .request .post .setupcomplete false true, .handled none, .staLeave]

/-- It requests IOT_STATE_PROV_DONE, after the steps in their order. -/
theorem completedOnboarding_ordered :
    ∃ s history, Steps (Recorded justworksDevice) (.initial, []) completedOnboarding (s, history) ∧
      RequestsProvDone s (.finish true) ∧
      ∃ before during, history = before ++ .requested .setupcomplete :: during ∧
        (before.filterMap Mark.success?).getLast? = some .wifiprovioninginfo := by
  have run : ∃ s history,
      Steps (Recorded justworksDevice) (.initial, []) completedOnboarding (s, history) ∧
      s.pending = some ⟨.setupcomplete, .responded none, .nothing⟩ :=
    ⟨_, _, (Transition.request rfl).recorded <| (Transition.handled rfl rfl (by decide)).recorded <|
      (Transition.finish rfl rfl).recorded <|
      (Transition.request rfl).recorded <| (Transition.handled rfl rfl (by decide)).recorded <|
      (Transition.finish rfl rfl).recorded <|
      (Transition.request rfl).recorded <| (Transition.confirminfo rfl rfl rfl).recorded <|
      (Transition.finish rfl rfl).recorded <|
      (Transition.request rfl).recorded <| (Transition.handled rfl rfl (by decide)).recorded <|
      (Transition.finish rfl rfl).recorded <|
      (Transition.request rfl).recorded <| (Transition.handled rfl rfl (by decide)).recorded <|
      Transition.staLeave.recorded <| .nil _, rfl⟩
  obtain ⟨s, history, steps, pending⟩ := run
  have requests : RequestsProvDone s (.finish true) := ⟨rfl, .nothing, pending⟩
  obtain ⟨before, during, split, -, -, last, -⟩ :=
    provDone_ordered justworksDevice completedOnboarding s history steps (by decide) _ requests
  exact ⟨s, history, steps, requests, before, during, split, last⟩

end StDevice.Easysetup.Http
