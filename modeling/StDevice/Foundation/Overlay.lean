import Mathlib.Data.List.TakeDrop

/-!
# Writing without truncation

A file that is opened without being emptied keeps what lies behind the end of a shorter
text. Whether the last text written is what the file holds is a matter of the lengths that
have been written since the file was last removed.
-/

namespace Overlay

variable {α : Type*}

/-- The file after `text` was written from its start. -/
def overwrite (text file : List α) : List α := text ++ file.drop text.length

theorem length_overwrite (text file : List α) :
    (overwrite text file).length = max text.length file.length := by
  rw [overwrite, List.length_append, List.length_drop]
  omega

/-- Nothing of the old file is left exactly when the new text covers it. -/
theorem overwrite_eq_text_iff {text file : List α} :
    overwrite text file = text ↔ file.length ≤ text.length := by
  rw [overwrite, List.append_right_eq_self, List.drop_eq_nil_iff]

@[simp] theorem overwrite_nil (file : List α) : overwrite [] file = file := rfl

@[simp] theorem overwrite_empty (text : List α) : overwrite text [] = text := by
  rw [overwrite, List.drop_nil, List.append_nil]

/-- What is done to a file; writing creates it. -/
inductive Effect (α : Type*) where
  | put (text : List α)
  | remove

namespace Effect

/-- The file after an effect, if there is one. -/
def apply : Effect α → Option (List α) → Option (List α)
  | put text, file => some (overwrite text (file.getD []))
  | remove, _ => none

/-- The effect that is to leave `wanted`. -/
def ofContents : Option (List α) → Effect α
  | none => remove
  | some text => put text

/-- The texts a file is made of. -/
def pieces : Effect α → List (List α) → List (List α)
  | put text, texts => texts ++ [text]
  | remove, _ => []

end Effect

/-- The file after some effects. -/
def fileAfter (file : Option (List α)) (effects : List (Effect α)) : Option (List α) :=
  effects.foldl (fun file e => e.apply file) file

/-- The texts that have gone into the file since it was last removed. -/
def sinceRemoved (file : Option (List α)) (effects : List (Effect α)) : List (List α) :=
  effects.foldl (fun texts e => e.pieces texts) file.toList

theorem fileAfter_append (file : Option (List α)) (effects more : List (Effect α)) :
    fileAfter file (effects ++ more) = fileAfter (fileAfter file effects) more :=
  List.foldl_append

/-- A file is as long as the longest of the texts. -/
def Longest (file : Option (List α)) (texts : List (List α)) : Prop :=
  (file = none ↔ texts = []) ∧ ∀ n, (file.getD []).length ≤ n ↔ ∀ t ∈ texts, t.length ≤ n

theorem longest_toList (file : Option (List α)) : Longest file file.toList := by
  cases file with
  | none => exact ⟨Iff.of_eq (by simp), fun n => by simp⟩
  | some text => exact ⟨by simp, fun n => by simp⟩

/-- One effect keeps the longest text. -/
theorem Longest.apply {file : Option (List α)} {texts : List (List α)}
    (longest : Longest file texts) (e : Effect α) : Longest (e.apply file) (e.pieces texts) := by
  cases e with
  | remove => exact longest_toList none
  | put text =>
      refine ⟨by simp [Effect.apply, Effect.pieces], ?_⟩
      intro n
      change (overwrite text (file.getD [])).length ≤ n ↔ ∀ t ∈ texts ++ [text], t.length ≤ n
      rw [length_overwrite, Nat.max_le, longest.2 n, List.forall_mem_append,
        List.forall_mem_singleton]
      exact And.comm

theorem longest_after (file : Option (List α)) (effects : List (Effect α)) :
    Longest (fileAfter file effects) (sinceRemoved file effects) := by
  have run : ∀ file texts, Longest file texts →
      Longest (fileAfter file effects)
        (effects.foldl (fun texts (e : Effect α) => e.pieces texts) texts) := by
    induction effects with
    | nil =>
        intro file texts longest
        exact longest
    | cons e effects ih =>
        intro file texts longest
        exact ih _ _ (longest.apply e)
  exact run file file.toList (longest_toList file)

/-- The last text is all there is exactly when no longer one has gone into the file since it
was last removed. -/
theorem fileAfter_put_iff (file : Option (List α)) (effects : List (Effect α)) (text : List α) :
    fileAfter file (effects ++ [.put text]) = some text ↔
      ∀ t ∈ sinceRemoved file effects, t.length ≤ text.length := by
  have last : fileAfter file (effects ++ [.put text]) =
      some (overwrite text ((fileAfter file effects).getD [])) := by
    rw [fileAfter_append]
    rfl
  rw [last, Option.some.injEq, overwrite_eq_text_iff, (longest_after file effects).2]

/-- What holds of every byte that is written holds of every byte of the file. -/
theorem forall_mem_fileAfter {P : α → Prop} {file : Option (List α)} {effects : List (Effect α)}
    (start : ∀ b ∈ file.getD [], P b)
    (written : ∀ text, .put text ∈ effects → ∀ b ∈ text, P b) :
    ∀ b ∈ (fileAfter file effects).getD [], P b := by
  induction effects generalizing file with
  | nil => exact start
  | cons e effects ih =>
      apply ih
      · cases e with
        | remove =>
            intro b mem
            exact absurd mem List.not_mem_nil
        | put text =>
            intro b mem
            rcases List.mem_append.mp mem with new | old
            · exact written text List.mem_cons_self b new
            · exact start b (List.mem_of_mem_drop old)
      · intro text mem
        exact written text (List.mem_cons_of_mem _ mem)

theorem length_fileAfter_le {n : Nat} {file : Option (List α)} {effects : List (Effect α)}
    (start : (file.getD []).length ≤ n)
    (written : ∀ text, .put text ∈ effects → text.length ≤ n) :
    ((fileAfter file effects).getD []).length ≤ n := by
  induction effects generalizing file with
  | nil => exact start
  | cons e effects ih =>
      apply ih
      · cases e with
        | remove => exact Nat.zero_le n
        | put text =>
            change (overwrite text (file.getD [])).length ≤ n
            rw [length_overwrite]
            exact Nat.max_le.mpr ⟨written text List.mem_cons_self, start⟩
      · intro text mem
        exact written text (List.mem_cons_of_mem _ mem)

end Overlay
