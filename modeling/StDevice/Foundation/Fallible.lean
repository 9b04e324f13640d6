import Mathlib.Logic.Basic

/-!
# Computations that may fail

A computation stops at an access the language gives no meaning to, fails with an error,
or returns a value. The first part that does not return decides how the whole one ends.
-/

/-- The end of a computation. -/
inductive Fallible (ε α : Type) where
  | stopped
  | failed (err : ε)
  | done (value : α)
  deriving DecidableEq

namespace Fallible

variable {ε α β : Type}

instance : Monad (Fallible ε) where
  pure := done
  bind x f :=
    match x with
    | stopped => stopped
    | failed err => failed err
    | done value => f value

/-- A value that is read through a pointer. -/
def deref : Option α → Fallible ε α
  | some value => done value
  | none => stopped

/-- A value that must be there. -/
def orFail : Option α → ε → Fallible ε α
  | some value, _ => done value
  | none, err => failed err

/-- A check that must pass. -/
def require (passes : Bool) (err : ε) : Fallible ε Unit := if passes then done () else failed err

/-- The caller's error in the place of the callee's. -/
def withError {ε' : Type} (err : ε') : Fallible ε α → Fallible ε' α
  | stopped => stopped
  | failed _ => failed err
  | done value => done value

/-- The results of a loop over `count` numbers from `start` on. -/
def collect (count start : Nat) (f : Nat → Fallible ε α) : Fallible ε (List α) :=
  match count with
  | 0 => done []
  | count + 1 => f start >>= fun value => collect count (start + 1) f >>= fun rest =>
      done (value :: rest)

@[simp] theorem pure_eq (value : α) : (pure value : Fallible ε α) = done value := rfl

@[simp] theorem stopped_bind (f : α → Fallible ε β) : (stopped >>= f) = stopped := rfl

@[simp] theorem failed_bind (err : ε) (f : α → Fallible ε β) : (failed err >>= f) = failed err :=
  rfl

@[simp] theorem done_bind (value : α) (f : α → Fallible ε β) : (done value >>= f) = f value := rfl

/-- The whole fails where a part fails. -/
theorem bind_eq_failed_iff {x : Fallible ε α} {f : α → Fallible ε β} {err : ε} :
    (x >>= f) = failed err ↔ x = failed err ∨ ∃ value, x = done value ∧ f value = failed err := by
  cases x <;> simp

/-- The whole returns where all parts do. -/
theorem bind_eq_done_iff {x : Fallible ε α} {f : α → Fallible ε β} {result : β} :
    (x >>= f) = done result ↔ ∃ value, x = done value ∧ f value = done result := by
  cases x <;> simp

/-- The whole stops where a part stops. -/
theorem bind_eq_stopped_iff {x : Fallible ε α} {f : α → Fallible ε β} :
    (x >>= f) = stopped ↔ x = stopped ∨ ∃ value, x = done value ∧ f value = stopped := by
  cases x <;> simp

/-- The computation does not stop, and what it returns meets a condition. -/
def Returns (x : Fallible ε α) (post : α → Prop) : Prop :=
  x ≠ stopped ∧ ∀ value, x = done value → post value

theorem Returns.done {value : α} {post : α → Prop} (meets : post value) :
    Returns (done value : Fallible ε α) post :=
  ⟨nofun, fun _ same => Fallible.done.inj same ▸ meets⟩

theorem Returns.bind {x : Fallible ε α} {f : α → Fallible ε β} {middle : α → Prop}
    {post : β → Prop} (first : x.Returns middle)
    (next : ∀ value, middle value → (f value).Returns post) :
    (x >>= f).Returns post := by
  constructor
  · intro stops
    obtain stops | ⟨value, returned, stops⟩ := bind_eq_stopped_iff.mp stops
    · exact first.1 stops
    · exact (next value (first.2 value returned)).1 stops
  · intro result ends
    obtain ⟨value, returned, ends⟩ := bind_eq_done_iff.mp ends
    exact (next value (first.2 value returned)).2 result ends

theorem bind_congr {x : Fallible ε α} {f g : α → Fallible ε β}
    (same : ∀ value, x = done value → f value = g value) : (x >>= f) = (x >>= g) := by
  cases x with
  | stopped => rfl
  | failed err => rfl
  | done value => exact same value rfl

/-- A loop of which every step goes on or ends the whole ends at the first that does not go
on. -/
theorem foldlM_eq {σ β : Type} {step : σ → β → Fallible ε σ} {good : β → Bool}
    {next : σ → β → σ} {ends : β → σ → Fallible ε σ}
    (goes : ∀ s b, step s b = if good b then done (next s b) else ends b s)
    (final : ∀ b s f, good b = false → (ends b s >>= f) = ends b s) (l : List β) (s : σ) :
    l.foldlM step s =
      let reached := (l.takeWhile good).foldl next s
      match l.find? fun b => !good b with
      | none => done reached
      | some b => ends b reached := by
  induction l generalizing s with
  | nil => rfl
  | cons b l ih =>
      rw [List.foldlM_cons, goes, List.find?_cons, List.takeWhile_cons]
      cases passes : good b with
      | false =>
          rw [if_neg Bool.false_ne_true, final b s _ passes]
          rfl
      | true =>
          rw [if_pos rfl, done_bind, ih]
          rfl

@[simp] theorem orFail_ne_stopped (value : Option α) (err : ε) : orFail value err ≠ stopped := by
  cases value <;> simp [orFail]

@[simp] theorem require_ne_stopped (passes : Bool) (err : ε) : require passes err ≠ stopped := by
  cases passes <;> simp [require]

@[simp] theorem deref_eq_stopped_iff {pointer : Option α} :
    (deref pointer : Fallible ε α) = stopped ↔ pointer = none := by
  cases pointer <;> simp [deref]

/-- Somewhere the whole fails. -/
def Fails (x : Fallible ε α) : Prop := ∃ err, x = failed err

@[simp] theorem fails_failed (err : ε) : Fails (failed err : Fallible ε α) := ⟨err, rfl⟩

@[simp] theorem not_fails_done (value : α) : ¬ Fails (done value : Fallible ε α) := by
  simp [Fails]

@[simp] theorem not_fails_stopped : ¬ Fails (stopped : Fallible ε α) := by
  simp [Fails]

theorem fails_bind_iff {x : Fallible ε α} {f : α → Fallible ε β} :
    Fails (x >>= f) ↔ Fails x ∨ ∃ value, x = done value ∧ Fails (f value) := by
  cases x <;> simp

@[simp] theorem not_fails_deref (pointer : Option α) : ¬ Fails (deref pointer : Fallible ε α) := by
  cases pointer <;> simp [deref]

@[simp] theorem fails_orFail_iff {value : Option α} {err : ε} :
    Fails (orFail value err) ↔ value = none := by
  cases value <;> simp [orFail]

@[simp] theorem fails_require_iff {passes : Bool} {err : ε} :
    Fails (require passes err) ↔ passes = false := by
  cases passes <;> simp [require]

/-- Behind a value that must be there it is there. -/
theorem not_fails_orFail_bind {value : Option α} {err : ε} {f : α → Fallible ε β}
    (passes : ¬ Fails (orFail value err >>= f)) : ∃ v, value = some v ∧ ¬ Fails (f v) := by
  cases value with
  | none => exact absurd (fails_failed err) passes
  | some v => exact ⟨v, rfl, passes⟩

/-- Behind a check it has passed. -/
theorem not_fails_require_bind {good : Bool} {err : ε} {f : Unit → Fallible ε β}
    (passes : ¬ Fails (require good err >>= f)) : good = true ∧ ¬ Fails (f ()) := by
  cases good with
  | false => exact absurd (fails_failed err) passes
  | true => exact ⟨rfl, passes⟩

@[simp] theorem deref_eq_done_iff {pointer : Option α} {value : α} :
    (deref pointer : Fallible ε α) = done value ↔ pointer = some value := by
  cases pointer <;> simp [deref]

@[simp] theorem orFail_eq_done_iff {value : Option α} {err : ε} {result : α} :
    orFail value err = done result ↔ value = some result := by
  cases value <;> simp [orFail]

@[simp] theorem require_eq_done_iff {passes : Bool} {err : ε} {u : Unit} :
    require passes err = done u ↔ passes = true := by
  cases passes <;> simp [require]

@[simp] theorem withError_eq_done_iff {ε' : Type} {err : ε'} {x : Fallible ε α} {value : α} :
    x.withError err = done value ↔ x = done value := by
  cases x <;> simp [withError]

@[simp] theorem withError_eq_stopped_iff {ε' : Type} {err : ε'} {x : Fallible ε α} :
    x.withError err = stopped ↔ x = stopped := by
  cases x <;> simp [withError]

/-- A loop whose steps all return. -/
theorem collect_eq_done {f : Nat → Fallible ε α} {g : Nat → α} (count start : Nat)
    (each : ∀ i, start ≤ i → i < start + count → f i = done (g i)) :
    collect count start f = done ((List.range' start count).map g) := by
  induction count generalizing start with
  | zero => rfl
  | succ count ih =>
      rw [collect, each start (Nat.le_refl _) (Nat.lt_add_of_pos_right (Nat.succ_pos _)), done_bind,
        ih (start + 1) fun i low high => each i (by omega) (by omega), done_bind, List.range'_succ,
        List.map_cons]

/-- A loop that fails in its last step. -/
theorem collect_eq_failed {f : Nat → Fallible ε α} {g : Nat → α} {err : ε} (count start : Nat)
    (each : ∀ i, start ≤ i → i < start + count → f i = done (g i))
    (last : f (start + count) = failed err) : collect (count + 1) start f = failed err := by
  induction count generalizing start with
  | zero =>
      rw [collect, ← Nat.add_zero start, last, failed_bind]
  | succ count ih =>
      rw [collect, each start (Nat.le_refl _) (Nat.lt_add_of_pos_right (Nat.succ_pos _)), done_bind,
        ih (start + 1) (fun i low high => each i (by omega) (by omega)), failed_bind]
      rw [Nat.add_assoc, Nat.add_comm 1 count]
      exact last

end Fallible
