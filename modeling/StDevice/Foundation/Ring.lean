import Mathlib.Data.List.Basic

/-!
# Rings of cells that keep the newest elements

A ring has `size` cells and a place `pos` for the next element. The place may be one behind
the last cell: whether an index is brought back to zero when it reaches the end, or only
when it is used, makes no difference here. Every index crosses the end at most once, so no
result speaks of remainders.

`Holds` relates the cells to the list of all elements ever appended. The rule for a step is
`Holds.append`, and `Holds.window_eq` says what a reader gets who starts at the oldest
element.
-/

namespace Ring

variable {α : Type*} {cell cell' : Nat → α} {size pos pos' : Nat} {history added : List α}

/-- The cell `i` places after `pos`. -/
def forward (size pos i : Nat) : Nat := if pos + i < size then pos + i else pos + i - size

/-- The cell of the element before which `i` newer ones stand. -/
def back (size pos i : Nat) : Nat := if i < pos then pos - 1 - i else pos + size - 1 - i

/-- The place after `n` elements, left behind the last cell when they end there. -/
def advance (size pos n : Nat) : Nat := if pos + n ≤ size then pos + n else pos + n - size

/-- The contents of `n` cells in order. -/
def window (cell : Nat → α) (size pos n : Nat) : List α :=
  (List.range n).map fun i => cell (forward size pos i)

/-- The cells hold the newest elements of the history, and the next one goes to `pos`. -/
structure Holds (cell : Nat → α) (size pos : Nat) (history : List α) : Prop where
  inside : pos ≤ size
  start : history.length < size → pos = history.length
  newest : ∀ i, i < size → i < history.length →
    history[history.length - 1 - i]? = some (cell (back size pos i))

theorem holds_nil (cell : Nat → α) (size : Nat) : Holds cell size 0 [] :=
  ⟨Nat.zero_le size, fun _ => rfl, fun _ _ before => absurd before (Nat.not_lt_zero _)⟩

private theorem back_new {i n : Nat} (below : i < n) (fits : n ≤ size)
    (next : pos' = pos + n ∧ pos + n ≤ size ∨ pos' + size = pos + n) :
    back size pos' i = forward size pos (n - 1 - i) := by
  unfold back forward
  split_ifs <;> omega

private theorem back_old {i n : Nat} (older : n ≤ i) (inside : i < size) (place : pos ≤ size)
    (next : pos' = pos + n ∧ pos + n ≤ size ∨ pos' + size = pos + n) :
    back size pos' i = back size pos (i - n) := by
  unfold back
  split_ifs <;> omega

private theorem back_ne_forward {i j n : Nat} (older : n ≤ i) (inside : i < size)
    (place : pos ≤ size) (below : j < n)
    (next : pos' = pos + n ∧ pos + n ≤ size ∨ pos' + size = pos + n) :
    forward size pos j ≠ back size pos' i := by
  unfold back forward
  split_ifs <;> omega

private theorem back_lt {i : Nat} (inside : i < size) (place : pos ≤ size) :
    back size pos i < size := by
  unfold back
  split_ifs <;> omega

/-- Elements written one after another from `pos` on are appended to the history. -/
theorem Holds.append (holds : Holds cell size pos history) (fits : added.length ≤ size)
    (written : ∀ i < added.length, added[i]? = some (cell' (forward size pos i)))
    (kept : ∀ p < size, (∀ i < added.length, forward size pos i ≠ p) → cell' p = cell p)
    (next : pos' = pos + added.length ∧ pos + added.length ≤ size ∨
      pos' + size = pos + added.length) :
    Holds cell' size pos' (history ++ added) := by
  have place := holds.inside
  refine ⟨by omega, ?_, ?_⟩
  · intro short
    rw [List.length_append] at short ⊢
    have here := holds.start (by omega)
    omega
  · intro i inside known
    rw [List.length_append] at known ⊢
    by_cases new : i < added.length
    · have index : history.length + added.length - 1 - i =
          history.length + (added.length - 1 - i) := by omega
      rw [index, List.getElem?_append_right (by omega), Nat.add_sub_cancel_left,
        written _ (by omega), back_new new fits next]
    · have older : added.length ≤ i := Nat.not_lt.mp new
      have index : history.length + added.length - 1 - i =
          history.length - 1 - (i - added.length) := by omega
      rw [index, List.getElem?_append_left (by omega),
        holds.newest _ (by omega) (by omega), ← back_old older inside place next]
      have same := kept (back size pos' i) (back_lt inside (by omega)) fun j below =>
        back_ne_forward older inside place below next
      rw [same]

/-- A window is read in two parts. -/
theorem window_add {m n : Nat} (place : pos ≤ size) (total : m + n ≤ size) :
    window cell size pos (m + n) =
      window cell size pos m ++ window cell size (advance size pos m) n := by
  unfold window
  rw [List.range_add, List.map_append, List.map_map]
  congr 1
  apply List.map_congr_left
  intro i member
  have below := List.mem_range.mp member
  have same : forward size pos (m + i) = forward size (advance size pos m) i := by
    unfold forward advance
    split_ifs <;> omega
  exact congrArg cell same

@[simp] theorem window_length (cell : Nat → α) (size pos n : Nat) :
    (window cell size pos n).length = n := by
  simp [window]

/-- The place behind the last cell is the first cell. -/
theorem window_end {n : Nat} (fits : n ≤ size) :
    window cell size size n = window cell size 0 n := by
  apply List.map_congr_left
  intro i member
  have below := List.mem_range.mp member
  rw [forward, forward, if_neg (by omega), if_pos (by omega)]
  congr 1
  omega

/-- A reader who starts at the oldest element that is still there gets the newest elements
of the history in order. -/
theorem Holds.window_eq (holds : Holds cell size pos history) {n : Nat}
    (enough : n ≤ min history.length size) :
    window cell (min history.length size) (if history.length < size then 0 else pos) n =
      (history.drop (history.length - min history.length size)).take n := by
  have place := holds.inside
  apply List.ext_getElem?
  intro k
  by_cases below : k < n
  · have rank : history.length - min history.length size + k =
        history.length - 1 - (min history.length size - 1 - k) := by omega
    rw [List.getElem?_take_of_lt below, List.getElem?_drop, rank,
      holds.newest _ (by omega) (by omega)]
    have same : forward (min history.length size) (if history.length < size then 0 else pos) k =
        back size pos (min history.length size - 1 - k) := by
      by_cases short : history.length < size
      · have here := holds.start short
        rw [if_pos short]
        unfold forward back
        split_ifs <;> omega
      · rw [if_neg short]
        unfold forward back
        split_ifs <;> omega
    simp [window, below, same]
  · rw [List.getElem?_eq_none (by simpa using below), List.getElem?_eq_none]
    rw [List.length_take]
    omega

theorem Holds.pos_le (holds : Holds cell size pos history) : pos ≤ min history.length size := by
  have place := holds.inside
  by_cases short : history.length < size
  · have here := holds.start short
    omega
  · omega

/-- A reader who starts at the place for the next element gets everything that is still there:
before the ring has wrapped this place is behind the last element. -/
theorem Holds.window_all (holds : Holds cell size pos history) :
    window cell (min history.length size) pos (min history.length size) =
      history.drop (history.length - min history.length size) := by
  have whole := holds.window_eq (Nat.le_refl (min history.length size))
  rw [List.take_of_length_le (by rw [List.length_drop]; omega)] at whole
  rw [← whole]
  by_cases short : history.length < size
  · have here : pos = min history.length size := by
      have start := holds.start short
      omega
    rw [if_pos short, here, window_end (Nat.le_refl _)]
  · rw [if_neg short]

end Ring
