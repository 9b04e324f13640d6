import Mathlib.Data.List.Basic

/-!
# Runs of a labelled step relation

A system is a relation `step` between a state, an event and a next state. A
partial step function is such a relation too: where it gives no next state, no
run continues.

The rules below are the only inductions over runs this library offers: an
invariant kept by every step holds at the end of a run, and a system whose
steps are enabled exactly under a condition runs to the end exactly when the
condition holds along the way. Where steps have an output, a potential that pays for
it bounds the outputs of a run.
-/

namespace Run

variable {σ ε : Type*} {step : σ → ε → σ → Prop}

/-- `Steps step s events t`: the events take the system from `s` to `t`. -/
inductive Steps (step : σ → ε → σ → Prop) : σ → List ε → σ → Prop where
  | nil (s : σ) : Steps step s [] s
  | cons {s t u : σ} {e : ε} {events : List ε} :
      step s e t → Steps step t events u → Steps step s (e :: events) u

/-- `P` holds before each event of the run, as far as the run goes. -/
def Along (step : σ → ε → σ → Prop) (P : σ → ε → Prop) : σ → List ε → Prop
  | _, [] => True
  | s, e :: events => P s e ∧ ∀ t, step s e t → Along step P t events

/-- A condition on the events alone holds along every run. -/
theorem along_of_forall {P : ε → Prop} {s : σ} {events : List ε} (all : ∀ e ∈ events, P e) :
    Along step (fun _ e => P e) s events := by
  induction events generalizing s with
  | nil => trivial
  | cons e events ih =>
      exact ⟨all e List.mem_cons_self, fun t _ =>
        ih fun other member => all other (List.mem_cons_of_mem e member)⟩

/-- Two conditions that agree wherever an invariant holds agree along a run, if steps that
meet them keep the invariant. -/
theorem along_congr {P Q : σ → ε → Prop} {I : σ → Prop}
    (same : ∀ s e, I s → (P s e ↔ Q s e)) (keep : ∀ s e t, I s → P s e → step s e t → I t)
    {s : σ} (start : I s) (events : List ε) : Along step P s events ↔ Along step Q s events := by
  induction events generalizing s with
  | nil => exact Iff.rfl
  | cons e events ih =>
      constructor
      · intro along
        exact ⟨(same s e start).mp along.1, fun t transition =>
          (ih (keep s e t start along.1 transition)).mp (along.2 t transition)⟩
      · intro along
        have here := (same s e start).mpr along.1
        exact ⟨here, fun t transition =>
          (ih (keep s e t start here transition)).mpr (along.2 t transition)⟩

namespace Steps

/-- An invariant kept by every step that meets `P` holds at the end of a run
whose steps all meet `P`. -/
theorem invariant_along {P : σ → ε → Prop} {I : σ → Prop}
    (keep : ∀ s e t, I s → P s e → step s e t → I t) {s t : σ} {events : List ε}
    (run : Steps step s events t) (along : Along step P s events) (start : I s) : I t := by
  induction run with
  | nil s => exact start
  | cons transition rest ih =>
      obtain ⟨here, later⟩ := along
      exact ih (later _ transition) (keep _ _ _ start here transition)

/-- An invariant kept by every step holds at the end of every run. -/
theorem invariant {I : σ → Prop} (keep : ∀ s e t, I s → step s e t → I t) {s t : σ}
    {events : List ε} (run : Steps step s events t) (start : I s) : I t := by
  induction run with
  | nil s => exact start
  | cons transition rest ih => exact ih (keep _ _ _ start transition)

theorem append {s t u : σ} {events more : List ε} (first : Steps step s events t)
    (second : Steps step t more u) : Steps step s (events ++ more) u := by
  induction first with
  | nil s => exact second
  | cons transition rest ih => exact .cons transition (ih second)

end Steps

/-- One more event in front of a run whose steps all meet `P`. When the event has
one outcome only, it is enough to know the condition along that outcome. -/
theorem cons_along {P : σ → ε → Prop} {s t u : σ} {e : ε} {events : List ε}
    (transition : step s e t) (only : ∀ t', step s e t' → t' = t) (here : P s e)
    (rest : Steps step t events u ∧ Along step P t events) :
    Steps step s (e :: events) u ∧ Along step P s (e :: events) := by
  refine ⟨.cons transition rest.1, here, ?_⟩
  intro t' other
  rw [only t' other]
  exact rest.2

theorem nil_along {P : σ → ε → Prop} (s : σ) : Steps step s [] s ∧ Along step P s [] :=
  ⟨.nil s, trivial⟩

/-- When the condition `P` says exactly which events an invariant state can
take, a run of all events exists exactly when `P` holds along them. -/
theorem exists_steps_iff_along {P : σ → ε → Prop} {I : σ → Prop}
    (enabled : ∀ s e, I s → ((∃ t, step s e t) ↔ P s e))
    (deterministic : ∀ s e t t', step s e t → step s e t' → t = t')
    (keep : ∀ s e t, I s → step s e t → I t) {s : σ} (start : I s) (events : List ε) :
    (∃ t, Steps step s events t) ↔ Along step P s events := by
  induction events generalizing s with
  | nil => exact ⟨fun _ => trivial, fun _ => ⟨s, .nil s⟩⟩
  | cons e events ih =>
      constructor
      · rintro ⟨u, run⟩
        cases run with
        | cons transition rest =>
            refine ⟨(enabled s e start).mp ⟨_, transition⟩, ?_⟩
            intro t other
            obtain rfl := deterministic _ _ _ _ transition other
            exact (ih (keep _ _ _ start transition)).mp ⟨u, rest⟩
      · rintro ⟨here, later⟩
        obtain ⟨t, transition⟩ := (enabled s e start).mpr here
        obtain ⟨u, rest⟩ := (ih (keep _ _ _ start transition)).mpr (later t transition)
        exact ⟨u, .cons transition rest⟩

section Outputs

variable {ω : Type*} {out : σ → ε → List ω}

/-- A run with the outputs of its steps, in their order. -/
inductive Emits (step : σ → ε → σ → Prop) (out : σ → ε → List ω) :
    σ → List ε → List ω → σ → Prop where
  | nil (s : σ) : Emits step out s [] [] s
  | cons {s t u : σ} {e : ε} {events : List ε} {outputs : List ω} :
      step s e t → Emits step out t events outputs u →
        Emits step out s (e :: events) (out s e ++ outputs) u

/-- Every run has outputs. -/
theorem Steps.emits {s t : σ} {events : List ε} (run : Steps step s events t) :
    ∃ outputs, Emits step out s events outputs t := by
  induction run with
  | nil s => exact ⟨[], .nil s⟩
  | cons transition rest ih =>
      obtain ⟨outputs, emits⟩ := ih
      exact ⟨_, .cons transition emits⟩

theorem Emits.steps {s t : σ} {events : List ε} {outputs : List ω}
    (emits : Emits step out s events outputs t) : Steps step s events t := by
  induction emits with
  | nil s => exact .nil s
  | cons transition rest ih => exact .cons transition ih

/-- A potential that every step lowers by the outputs counted bounds them for a run. -/
theorem Emits.countP_le {I : σ → Prop} {potential : σ → Nat} {counts : ω → Bool}
    (keep : ∀ s e t, I s → step s e t →
      I t ∧ (out s e).countP counts + potential t ≤ potential s)
    {s t : σ} {events : List ε} {outputs : List ω} (emits : Emits step out s events outputs t)
    (start : I s) : outputs.countP counts + potential t ≤ potential s := by
  induction emits with
  | nil s => exact Nat.le_of_eq (Nat.zero_add _)
  | cons transition rest ih =>
      obtain ⟨kept, paid⟩ := keep _ _ _ start transition
      have later := ih kept
      rw [List.countP_append]
      omega

end Outputs

end Run
