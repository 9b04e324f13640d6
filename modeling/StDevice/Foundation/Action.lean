import Mathlib.Data.List.Basic

/-!
# Programs that write outputs

An action changes a state, writes outputs one after another, and either returns a value
or stops at an access the language gives no meaning to. What was written before the stop
stays written.

Two runs are told apart by their first outputs: an action that begins with an output has
that output first, whatever it does afterwards.
-/

namespace Effect

variable {σ ω α β : Type}

/-- The end of a run: what was written, the value unless the run stopped, and the state. -/
structure Outcome (σ ω α : Type) where
  outputs : List ω
  result : Option α
  state : σ

namespace Outcome

/-- The outcome with earlier outputs. -/
def after (r : Outcome σ ω α) (earlier : List ω) : Outcome σ ω α :=
  { r with outputs := earlier ++ r.outputs }

@[simp] theorem after_outputs (r : Outcome σ ω α) (earlier : List ω) :
    (r.after earlier).outputs = earlier ++ r.outputs := rfl

@[simp] theorem after_nil (r : Outcome σ ω α) : r.after [] = r := rfl

theorem after_inj {r r' : Outcome σ ω α} {earlier : List ω}
    (same : r.after earlier = r'.after earlier) : r = r' := by
  cases r with
  | mk outputs result state =>
      cases r' with
      | mk outputs' result' state' =>
          simp only [after, Outcome.mk.injEq, List.append_cancel_left_eq] at same
          obtain ⟨rfl, rfl, rfl⟩ := same
          rfl

end Outcome

/-- A program over states `σ` that writes outputs `ω`. -/
def Action (σ ω α : Type) : Type := σ → Outcome σ ω α

namespace Action

instance : Monad (Action σ ω) where
  pure a := fun s => ⟨[], some a, s⟩
  bind m f := fun s =>
    match (m s).result with
    | none => ⟨(m s).outputs, none, (m s).state⟩
    | some a => (f a (m s).state).after (m s).outputs

/-- An access without meaning. -/
def stop : Action σ ω α := fun s => ⟨[], none, s⟩

/-- Write one output. -/
def emit (output : ω) : Action σ ω Unit := fun s => ⟨[output], some (), s⟩

/-- The state. -/
def get : Action σ ω σ := fun s => ⟨[], some s, s⟩

def modify (change : σ → σ) : Action σ ω Unit := fun s => ⟨[], some (), change s⟩

/-- A value that is read, and a stop where there is none. -/
def deref : Option α → Action σ ω α
  | some a => pure a
  | none => stop

theorem bind_apply (m : Action σ ω α) (f : α → Action σ ω β) (s : σ) :
    (m >>= f) s =
      match (m s).result with
      | none => ⟨(m s).outputs, none, (m s).state⟩
      | some a => (f a (m s).state).after (m s).outputs := rfl

@[simp] theorem pure_apply (a : α) (s : σ) : (pure a : Action σ ω α) s = ⟨[], some a, s⟩ := rfl

@[simp] theorem pure_bind_apply (a : α) (f : α → Action σ ω β) (s : σ) :
    ((pure a : Action σ ω α) >>= f) s = f a s := rfl

theorem pure_bind_eq (a : α) (f : α → Action σ ω β) :
    ((pure a : Action σ ω α) >>= f) = f a := rfl

@[simp] theorem emit_bind_apply (output : ω) (f : Unit → Action σ ω β) (s : σ) :
    ((emit output : Action σ ω Unit) >>= f) s = (f () s).after [output] := rfl

@[simp] theorem get_bind_apply (f : σ → Action σ ω β) (s : σ) :
    ((get : Action σ ω σ) >>= f) s = f s s := rfl

@[simp] theorem modify_bind_apply (change : σ → σ) (f : Unit → Action σ ω β) (s : σ) :
    ((modify change : Action σ ω Unit) >>= f) s = f () (change s) := rfl

/-- What the first part writes stands before everything else. -/
theorem outputs_bind (m : Action σ ω α) (f : α → Action σ ω β) (s : σ) :
    ∃ more, ((m >>= f) s).outputs = (m s).outputs ++ more := by
  rw [bind_apply]
  split
  · exact ⟨[], (List.append_nil _).symm⟩
  · exact ⟨_, rfl⟩

/-- The run from `s` begins with `output`. -/
def Opens (m : Action σ ω α) (s : σ) (output : ω) : Prop :=
  ∃ more, (m s).outputs = output :: more

theorem opens_emit (output : ω) (s : σ) : Opens (emit output) s output := ⟨[], rfl⟩

theorem Opens.bind {m : Action σ ω α} {s : σ} {output : ω} (opens : Opens m s output)
    (f : α → Action σ ω β) : Opens (m >>= f) s output := by
  obtain ⟨rest, written⟩ := opens
  obtain ⟨more, all⟩ := outputs_bind m f s
  exact ⟨rest ++ more, by rw [all, written, List.cons_append]⟩

/-- Runs that end alike have begun alike. -/
theorem Opens.inj {m m' : Action σ ω α} {s s' : σ} {output output' : ω}
    (opens : Opens m s output) (opens' : Opens m' s' output') (same : m s = m' s') :
    output = output' := by
  obtain ⟨rest, written⟩ := opens
  obtain ⟨rest', written'⟩ := opens'
  rw [same, written'] at written
  exact (List.cons.inj written).1.symm

/-- The action never stops. -/
def Returns (m : Action σ ω α) : Prop := ∀ s, (m s).result.isSome = true

theorem returns_pure (a : α) : Returns (pure a : Action σ ω α) := fun _ => rfl

theorem returns_emit (output : ω) : Returns (emit output : Action σ ω Unit) := fun _ => rfl

theorem returns_get : Returns (get : Action σ ω σ) := fun _ => rfl

theorem returns_modify (change : σ → σ) : Returns (modify change : Action σ ω Unit) := fun _ => rfl

theorem Returns.bind {m : Action σ ω α} {f : α → Action σ ω β} (first : Returns m)
    (second : ∀ a, Returns (f a)) : Returns (m >>= f) := by
  intro s
  obtain ⟨a, value⟩ := Option.isSome_iff_exists.mp (first s)
  rw [bind_apply, value]
  exact second a (m s).state

/-- What follows an action that returned. -/
theorem outputs_bind_of_result {m : Action σ ω α} {a : α} {s : σ} (value : (m s).result = some a)
    (f : α → Action σ ω β) :
    ((m >>= f) s).outputs = (m s).outputs ++ (f a (m s).state).outputs := by
  rw [bind_apply, value]
  rfl

end Action

end Effect
