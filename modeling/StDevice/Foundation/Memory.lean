import StDevice.Foundation.Buffer

/-!
# Memories addressed by numbers

A memory is a function from addresses. `slice` is what a read returns and `patch` is the
memory after a write. A buffer that was read from a memory, changed and written back changes
the memory only where the buffer was changed.
-/

namespace Memory

variable {α : Type*} {mem : Nat → α} {addr n : Nat} {data : List α}

/-- The `n` cells from `addr` on. -/
def slice (mem : Nat → α) (addr n : Nat) : List α := (List.range n).map fun i => mem (addr + i)

/-- The memory with `data` stored from `addr` on. -/
def patch (mem : Nat → α) (addr : Nat) (data : List α) (a : Nat) : α :=
  if addr ≤ a then data[a - addr]?.getD (mem a) else mem a

@[simp] theorem slice_length (mem : Nat → α) (addr n : Nat) : (slice mem addr n).length = n := by
  simp [slice]

theorem getElem?_slice {k : Nat} (below : k < n) :
    (slice mem addr n)[k]? = some (mem (addr + k)) := by
  simp [slice, below]

theorem getElem?_eq_patch (mem : Nat → α) (addr : Nat) {i : Nat} (below : i < data.length) :
    data[i]? = some (patch mem addr data (addr + i)) := by
  rw [patch, if_pos (by omega), Nat.add_sub_cancel_left, List.getElem?_eq_getElem below]
  rfl

theorem patch_outside {a : Nat} (outside : a < addr ∨ addr + data.length ≤ a) :
    patch mem addr data a = mem a := by
  unfold patch
  split
  · rw [List.getElem?_eq_none (by omega)]
    rfl
  · rfl

/-- What was stored is read back. -/
theorem slice_patch (mem : Nat → α) (addr : Nat) (data : List α) :
    slice (patch mem addr data) addr data.length = data := by
  apply List.ext_getElem?
  intro k
  by_cases below : k < data.length
  · rw [getElem?_slice below, ← getElem?_eq_patch _ _ below]
  · rw [List.getElem?_eq_none (by simpa using below), List.getElem?_eq_none (by omega)]

end Memory

namespace Buffer

variable {α : Type*} {dst src out : List α} {offset : Nat}

/-- The cells of a buffer after a copy into it. -/
theorem getElem?_of_write (writes : write dst offset src = some out) (k : Nat) :
    out[k]? = if offset ≤ k ∧ k < offset + src.length then src[k - offset]? else dst[k]? := by
  obtain ⟨fits, rfl⟩ := write_eq_some_iff.mp writes
  have front : (dst.take offset).length = offset := by
    rw [List.length_take]
    omega
  rw [List.append_assoc]
  by_cases before : k < offset
  · rw [if_neg (by omega), List.getElem?_append_left (by omega), List.getElem?_take_of_lt before]
  · rw [List.getElem?_append_right (by omega), front]
    by_cases inside : k < offset + src.length
    · rw [if_pos (by omega), List.getElem?_append_left (by omega)]
    · rw [if_neg (by omega), List.getElem?_append_right (by omega), List.getElem?_drop]
      congr 1
      omega

/-- A copy into the front of a buffer, seen from the front alone. -/
theorem write_take {n : Nat} (writes : write dst offset src = some out)
    (front : offset + src.length ≤ n) :
    write (dst.take n) offset src = some (out.take n) := by
  have length := length_of_write writes
  obtain ⟨fits, -⟩ := write_eq_some_iff.mp writes
  obtain ⟨out', writes'⟩ := exists_write_iff.mpr
    (show offset + src.length ≤ (dst.take n).length by rw [List.length_take]; omega)
  rw [writes']
  congr 1
  apply List.ext_getElem?
  intro k
  rw [getElem?_of_write writes']
  by_cases below : k < n
  · rw [List.getElem?_take_of_lt below, List.getElem?_take_of_lt below, getElem?_of_write writes]
  · rw [if_neg (by omega), List.getElem?_eq_none, List.getElem?_eq_none]
    · rw [List.length_take]
      omega
    · rw [List.length_take]
      omega

/-- A buffer read from a memory and written back after a copy into it. -/
theorem patch_of_write {mem : Nat → α} {addr n : Nat}
    (writes : write (Memory.slice mem addr n) offset src = some out) :
    Memory.patch mem addr out = Memory.patch mem (addr + offset) src := by
  have length := length_of_write writes
  obtain ⟨fits, -⟩ := write_eq_some_iff.mp writes
  rw [Memory.slice_length] at length fits
  funext a
  by_cases inside : addr ≤ a ∧ a < addr + n
  · obtain ⟨k, rfl⟩ : ∃ k, a = addr + k := ⟨a - addr, by omega⟩
    have cell := Memory.getElem?_eq_patch mem addr (show k < out.length by omega)
    rw [getElem?_of_write writes] at cell
    split at cell
    case isTrue changed =>
      have stored := Memory.getElem?_eq_patch mem (addr + offset)
        (show k - offset < src.length by omega)
      rw [show addr + offset + (k - offset) = addr + k by omega] at stored
      exact Option.some.inj (cell.symm.trans stored)
    case isFalse unchanged =>
      rw [Memory.getElem?_slice (by omega)] at cell
      rw [Memory.patch_outside
        (show addr + k < addr + offset ∨ addr + offset + src.length ≤ addr + k by omega)]
      exact (Option.some.inj cell).symm
  · rw [Memory.patch_outside (by omega), Memory.patch_outside (by omega)]

end Buffer
