import StDevice.Foundation.Run

/-!
# Handing an object back to its owner

A thread works on an object by a sequence of accesses. Some of them make the object
ready; its owner, on another thread, looks at it now and then and frees it when it is
ready. An access after that is a misuse. In every interleaving there is none exactly
when the thread makes no access after one that made the object ready.
-/

namespace Handoff

open Run

variable {α : Type*}

/-- The object, and what its thread has still to do. -/
structure State (α : Type*) where
  rest : List α
  ready : Bool := false
  freed : Bool := false
  misused : Bool := false

/-- The thread makes its next access, or the owner looks. -/
inductive Event where
  | access
  | poll
  deriving DecidableEq, Repr

/-- `readies a` says whether the object is ready after `a`; `none` leaves it as it is. -/
def step (readies : α → Option Bool) (s : State α) : Event → Option (State α)
  | .access =>
      match s.rest with
      | [] => none
      | a :: rest => some
          { s with
            rest := rest
            ready := (readies a).getD s.ready
            misused := s.misused || s.freed }
  | .poll => some { s with freed := s.freed || s.ready }

/-- No interleaving misuses the object. -/
def Safe (readies : α → Option Bool) (accesses : List α) : Prop :=
  ∀ events t, Steps (fun s e t => step readies s e = some t) ⟨accesses, false, false, false⟩
    events t → t.misused = false

/-- Every access that makes the object ready is the last one. -/
def ReadyLast (readies : α → Option Bool) : List α → Prop
  | [] => True
  | a :: rest => (readies a = some true → rest = []) ∧ ReadyLast readies rest

instance (readies : α → Option Bool) [DecidableEq α] :
    (accesses : List α) → Decidable (ReadyLast readies accesses)
  | [] => .isTrue trivial
  | _ :: rest =>
      have := instDecidableReadyLastOfDecidableEq readies rest
      inferInstanceAs (Decidable ((_ → _) ∧ _))

variable {readies : α → Option Bool}

/-- What holds along a run of accesses that make the object ready at the end only. -/
private structure Careful (readies : α → Option Bool) (s : State α) : Prop where
  unused : s.misused = false
  last : ReadyLast readies s.rest
  finished : s.ready = true ∨ s.freed = true → s.rest = []

private theorem careful_step {s t : State α} {e : Event} (careful : Careful readies s)
    (transition : step readies s e = some t) : Careful readies t := by
  cases e with
  | poll =>
      obtain rfl := Option.some.inj transition
      refine ⟨careful.unused, careful.last, ?_⟩
      rintro (ready | freed)
      · exact careful.finished (.inl ready)
      · rcases Bool.or_eq_true_iff.mp freed with freed | ready
        · exact careful.finished (.inr freed)
        · exact careful.finished (.inl ready)
  | access =>
      simp only [step] at transition
      split at transition
      case h_1 => exact absurd transition (by simp)
      case h_2 a rest more =>
        obtain rfl := Option.some.inj transition
        have last := careful.last
        rw [more] at last
        have open_yet (now : s.ready = true ∨ s.freed = true) : False := by
          have := careful.finished now
          simp [more] at this
        have kept : s.freed = false := by
          cases freed : s.freed with
          | false => rfl
          | true => exact (open_yet (.inr freed)).elim
        have unready : s.ready = false := by
          cases ready : s.ready with
          | false => rfl
          | true => exact (open_yet (.inl ready)).elim
        refine ⟨by simp [careful.unused, kept], last.2, ?_⟩
        rintro (ready | freed)
        · refine last.1 ?_
          rw [unready] at ready
          cases effect : readies a with
          | none => simp [effect] at ready
          | some b =>
              simp only [effect, Option.getD_some] at ready
              rw [ready]
        · exact absurd (freed.symm.trans kept) (by simp)

theorem safe_of_readyLast {accesses : List α} (last : ReadyLast readies accesses) :
    Safe readies accesses := by
  intro events t run
  have careful : Careful readies t :=
    run.invariant (fun _ _ _ careful transition => careful_step careful transition)
      ⟨rfl, last, by simp⟩
  exact careful.unused

/-- Whatever the owner has seen before, an access behind one that made the object
ready can be a misuse: the owner looks in between. -/
private theorem readyLast_of_unused (accesses : List α) (ready : Bool)
    (unused : ∀ events t, Steps (fun s e t => step readies s e = some t)
      ⟨accesses, ready, false, false⟩ events t → t.misused = false) :
    ReadyLast readies accesses := by
  induction accesses generalizing ready with
  | nil => trivial
  | cons a rest ih =>
      have first : step readies ⟨a :: rest, ready, false, false⟩ .access =
          some ⟨rest, (readies a).getD ready, false, false⟩ := rfl
      constructor
      · intro effect
        cases rest with
        | nil => rfl
        | cons b rest =>
            have misused := unused [.access, .poll, .access] _
              (.cons first (.cons rfl (.cons rfl (.nil _))))
            simp [effect] at misused
      · exact ih _ fun events t run => unused (.access :: events) t (.cons first run)

/-- In every interleaving the object is used before its owner frees it, exactly when
nothing follows the access that makes it ready. -/
theorem safe_iff_readyLast {accesses : List α} :
    Safe readies accesses ↔ ReadyLast readies accesses :=
  ⟨readyLast_of_unused accesses false, safe_of_readyLast⟩

end Handoff
