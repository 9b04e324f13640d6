import Mathlib.Data.List.Basic

/-!
# Bounds-checked copies between byte buffers

A buffer is the list of its cells. A copy that would read or write a cell
outside gives `none`, so a program model that uses these operations can only
continue when every access is inside its buffer.
-/

namespace Buffer

variable {α : Type*}

/-- The `len` cells from `offset` on. -/
def read (src : List α) (offset len : Nat) : Option (List α) :=
  if offset + len ≤ src.length then some ((src.drop offset).take len) else none

/-- `dst` with `src` stored from `offset` on. -/
def write (dst : List α) (offset : Nat) (src : List α) : Option (List α) :=
  if offset + src.length ≤ dst.length then
    some (dst.take offset ++ src ++ dst.drop (offset + src.length))
  else none

theorem read_eq_some_iff {src out : List α} {offset len : Nat} :
    read src offset len = some out ↔
      offset + len ≤ src.length ∧ out = (src.drop offset).take len := by
  unfold read
  split
  case isTrue fits => simp [fits, eq_comm]
  case isFalse fits => simp [fits]

theorem length_of_read {src out : List α} {offset len : Nat}
    (reads : read src offset len = some out) : out.length = len := by
  obtain ⟨fits, rfl⟩ := read_eq_some_iff.mp reads
  rw [List.length_take, List.length_drop]
  omega

theorem exists_read_iff {src : List α} {offset len : Nat} :
    (∃ out, read src offset len = some out) ↔ offset + len ≤ src.length := by
  simp [read_eq_some_iff]

theorem read_append (header src : List α) :
    read (header ++ src) header.length src.length = some src := by
  rw [read_eq_some_iff, List.length_append, List.drop_left, List.take_length]
  exact ⟨Nat.le_refl _, rfl⟩

theorem write_eq_some_iff {dst src out : List α} {offset : Nat} :
    write dst offset src = some out ↔ offset + src.length ≤ dst.length ∧
      out = dst.take offset ++ src ++ dst.drop (offset + src.length) := by
  unfold write
  split
  case isTrue fits => simp only [fits, Option.some.injEq, true_and, eq_comm]
  case isFalse fits => simp [fits]

theorem exists_write_iff {dst src : List α} {offset : Nat} :
    (∃ out, write dst offset src = some out) ↔ offset + src.length ≤ dst.length := by
  simp [write_eq_some_iff]

theorem length_of_write {dst src out : List α} {offset : Nat}
    (writes : write dst offset src = some out) : out.length = dst.length := by
  obtain ⟨fits, rfl⟩ := write_eq_some_iff.mp writes
  simp only [List.length_append, List.length_take, List.length_drop]
  omega

/-- The cells up to the end of the copy: what stood before `offset`, then `src`. -/
theorem take_of_write {dst src out : List α} {offset : Nat}
    (writes : write dst offset src = some out) :
    out.take (offset + src.length) = dst.take offset ++ src := by
  obtain ⟨fits, rfl⟩ := write_eq_some_iff.mp writes
  apply List.take_left'
  rw [List.length_append, List.length_take]
  omega

/-- The cells behind the copy stay as they are. -/
theorem drop_of_write {dst src out : List α} {offset n : Nat}
    (writes : write dst offset src = some out) (behind : offset + src.length ≤ n) :
    out.drop n = dst.drop n := by
  obtain ⟨fits, rfl⟩ := write_eq_some_iff.mp writes
  have length : (dst.take offset ++ src).length = offset + src.length := by
    rw [List.length_append, List.length_take]
    omega
  rw [List.drop_append, List.drop_eq_nil_of_le (by omega), List.nil_append, List.drop_drop]
  congr 1
  omega

end Buffer
