import Mathlib.Logic.Basic

/-!
# Loops that use up a counter

A loop has a condition and a body that may fail, which leaves the loop. `rounds` runs it for
a number of rounds. A loop of which every round fails or makes a measure smaller ends; the
rounds are the states reached, not those of all states (`Progresses`). Both ways to use it
are inductions over the rounds: `progresses_of_invariant`, and `running_of_invariant` for a
loop that does not end.
-/

namespace Loop

variable {σ : Type*}

/-- How far a number of rounds gets. -/
inductive End (σ : Type*) where
  | finished (s : σ)
  | failed
  | running (s : σ)

variable (goesOn : σ → Prop) [DecidablePred goesOn] (body : σ → Option σ)

/-- At most `n` rounds of the loop. -/
def rounds : (n : Nat) → σ → End σ
  | 0, s => if goesOn s then .running s else .finished s
  | n + 1, s =>
      if goesOn s then
        match body s with
        | none => .failed
        | some s => rounds n s
      else .finished s

/-- The loop is left after some number of rounds. -/
def Ends (s : σ) : Prop := ∃ n, ∀ t, rounds goesOn body n s ≠ .running t

/-- Every round that is reached fails or makes the measure smaller. -/
def Progresses (measure : σ → Nat) (s : σ) : Prop :=
  ∀ n t, rounds goesOn body n s = .running t →
    body t = none ∨ ∃ t', body t = some t' ∧ measure t' < measure t

variable {goesOn body} {s t : σ}

theorem rounds_of_not {n : Nat} (stops : ¬ goesOn s) : rounds goesOn body n s = .finished s := by
  cases n with
  | zero => exact if_neg stops
  | succ n => exact if_neg stops

theorem rounds_succ {n : Nat} {s' : σ} (more : goesOn s) (next : body s = some s') :
    rounds goesOn body (n + 1) s = rounds goesOn body n s' := by
  simp only [rounds, if_pos more, next]

theorem rounds_failed {n : Nat} (more : goesOn s) (fails : body s = none) :
    rounds goesOn body (n + 1) s = .failed := by
  simp only [rounds, if_pos more, fails]

/-- An invariant of the rounds holds where the loop still runs. -/
theorem invariant_of_running {I : σ → Prop}
    (keep : ∀ s s', I s → goesOn s → body s = some s' → I s') {n : Nat} (start : I s)
    (runs : rounds goesOn body n s = .running t) : I t ∧ goesOn t := by
  induction n generalizing s with
  | zero =>
      rw [rounds] at runs
      split at runs
      case isTrue more =>
        cases runs
        exact ⟨start, more⟩
      case isFalse => cases runs
  | succ n ih =>
      by_cases more : goesOn s
      · cases next : body s with
        | none =>
            rw [rounds_failed more next] at runs
            cases runs
        | some s' =>
            rw [rounds_succ more next] at runs
            exact ih (keep s s' start more next) runs
      · rw [rounds_of_not more] at runs
        cases runs

/-- Progress under an invariant. -/
theorem progresses_of_invariant {I : σ → Prop} {measure : σ → Nat}
    (step : ∀ s, I s → goesOn s →
      body s = none ∨ ∃ s', body s = some s' ∧ measure s' < measure s ∧ I s')
    (start : I s) : Progresses goesOn body measure s := by
  intro n t runs
  have keep : ∀ s s', I s → goesOn s → body s = some s' → I s' := by
    intro s s' here more next
    obtain fails | ⟨s'', next', -, later⟩ := step s here more
    · rw [fails] at next
      cases next
    · obtain rfl := Option.some.inj (next'.symm.trans next)
      exact later
  obtain ⟨here, more⟩ := invariant_of_running keep start runs
  obtain fails | ⟨t', next, smaller, -⟩ := step t here more
  · exact .inl fails
  · exact .inr ⟨t', next, smaller⟩

/-- The first round makes progress. -/
theorem Progresses.first {measure : σ → Nat} (progress : Progresses goesOn body measure s)
    (more : goesOn s) : body s = none ∨ ∃ s', body s = some s' ∧ measure s' < measure s :=
  progress 0 s (if_pos more)

/-- A loop that makes progress ends. -/
theorem Progresses.ends {measure : σ → Nat} (progress : Progresses goesOn body measure s) :
    Ends goesOn body s := by
  obtain ⟨m, size⟩ : ∃ m, measure s = m := ⟨_, rfl⟩
  induction m using Nat.strongRecOn generalizing s with
  | _ m ih =>
      by_cases more : goesOn s
      · obtain fails | ⟨s', next, smaller⟩ := progress.first more
        · exact ⟨1, fun t runs => by rw [rounds_failed more fails] at runs; cases runs⟩
        · have later : Progresses goesOn body measure s' :=
            fun n t runs => progress (n + 1) t (by rw [rounds_succ more next]; exact runs)
          obtain ⟨n, stopped⟩ := ih _ (size ▸ smaller) later rfl
          exact ⟨n + 1, fun t runs => stopped t (by rw [← rounds_succ more next]; exact runs)⟩
      · exact ⟨0, fun t runs => by rw [rounds_of_not more] at runs; cases runs⟩

/-- A loop whose rounds keep an invariant under which it goes on does not end. -/
theorem running_of_invariant {I : σ → Prop}
    (step : ∀ s, I s → goesOn s ∧ ∃ s', body s = some s' ∧ I s') (start : I s) (n : Nat) :
    ∃ t, rounds goesOn body n s = .running t := by
  induction n generalizing s with
  | zero => exact ⟨s, if_pos (step s start).1⟩
  | succ n ih =>
      obtain ⟨more, s', next, later⟩ := step s start
      rw [rounds_succ more next]
      exact ih later

end Loop
