import Mathlib.Data.List.Basic

/-!
# Cutting a stream into self-delimiting frames

`read` takes one frame from the front of a stream. `split` repeats it until the
stream is empty. A frame is self-delimiting for `read` when it is recognised
whatever follows it; a concatenation of such frames is cut back into them.
-/

namespace Framing

variable {α : Type*} (read : List α → Option (List α × List α))

/-- Read frames until the stream is empty, at most `fuel` of them. -/
def splitFuel : Nat → List α → Option (List (List α))
  | _, [] => some []
  | 0, _ :: _ => none
  | fuel + 1, a :: stream =>
      match read (a :: stream) with
      | none => none
      | some (frame, rest) => (splitFuel fuel rest).map (frame :: ·)

/-- A frame has at least one element, so the length bounds their number. -/
def split (stream : List α) : Option (List (List α)) := splitFuel read stream.length stream

/-- `read` finds the end of a frame without looking at what comes after it. -/
def Delimited (frame : List α) : Prop :=
  frame ≠ [] ∧ ∀ rest, read (frame ++ rest) = some (frame, rest)

variable {read}

private theorem splitFuel_flatten {frames : List (List α)}
    (h : ∀ frame ∈ frames, Delimited read frame) {fuel : Nat}
    (enough : frames.flatten.length ≤ fuel) :
    splitFuel read fuel frames.flatten = some frames := by
  induction frames generalizing fuel with
  | nil => cases fuel <;> rfl
  | cons frame frames ih =>
      obtain ⟨nonempty, recognised⟩ := h frame List.mem_cons_self
      obtain ⟨a, tail, rfl⟩ := List.exists_cons_of_ne_nil nonempty
      have next := recognised frames.flatten
      cases fuel with
      | zero => simp at enough
      | succ fuel =>
          have rest : splitFuel read fuel frames.flatten = some frames := by
            apply ih (fun f hf => h f (List.mem_cons_of_mem _ hf))
            simp only [List.flatten_cons, List.cons_append, List.length_cons,
              List.length_append] at enough
            omega
          rw [List.cons_append] at next
          simp only [List.flatten_cons, List.cons_append, splitFuel, next, rest, Option.map_some]

/-- Concatenated self-delimiting frames are recovered one by one. -/
theorem split_flatten {frames : List (List α)} (h : ∀ frame ∈ frames, Delimited read frame) :
    split read frames.flatten = some frames :=
  splitFuel_flatten h (Nat.le_refl _)

end Framing
