import Mathlib.Data.List.Nodup
import Mathlib.Logic.Function.Basic

/-!
# Singly linked lists in a heap

A heap maps addresses to nodes; an address without a node is free. `Linked heap start cells
stop` says that one gets from `start` to `stop` over the cells, each given by its address and
its data. Cells outside a list may change without changing it.
-/

namespace LinkedList

variable {α : Type*}

/-- A node holds its data and the address of the next node. -/
structure Node (α : Type*) where
  data : α
  next : Option Nat
  deriving DecidableEq, Repr

abbrev Heap (α : Type*) := Nat → Option (Node α)

/-- The cells lie in the heap and are linked in their order, from `start` to `stop`. -/
def Linked (heap : Heap α) : Option Nat → List (Nat × α) → Option Nat → Prop
  | start, [], stop => start = stop
  | start, (p, x) :: cells, stop =>
      start = some p ∧ ∃ next, heap p = some ⟨x, next⟩ ∧ Linked heap next cells stop

variable {heap heap' : Heap α} {start stop : Option Nat} {cells front back : List (Nat × α)}
  {p : Nat} {x : α}

/-- The addresses of the cells. -/
def addresses (cells : List (Nat × α)) : List Nat := cells.map Prod.fst

/-- The data in the cells. -/
def contents (cells : List (Nat × α)) : List α := cells.map Prod.snd

@[simp] theorem addresses_nil : addresses ([] : List (Nat × α)) = [] := rfl

@[simp] theorem addresses_cons (c : Nat × α) (cells : List (Nat × α)) :
    addresses (c :: cells) = c.1 :: addresses cells := rfl

@[simp] theorem addresses_append (front back : List (Nat × α)) :
    addresses (front ++ back) = addresses front ++ addresses back := List.map_append

@[simp] theorem contents_append (front back : List (Nat × α)) :
    contents (front ++ back) = contents front ++ contents back := List.map_append

theorem addresses_eq_nil_iff : addresses cells = [] ↔ cells = [] := List.map_eq_nil_iff

theorem getLast?_addresses_append (front : List (Nat × α)) (more : back ≠ []) :
    (addresses (front ++ back)).getLast? = (addresses back).getLast? := by
  rw [addresses_append]
  exact List.getLast?_append_of_ne_nil _ (mt addresses_eq_nil_iff.mp more)

/-- Lists are put together at a common end. -/
theorem linked_append :
    Linked heap start (front ++ back) stop ↔
      ∃ middle, Linked heap start front middle ∧ Linked heap middle back stop := by
  induction front generalizing start with
  | nil => exact ⟨fun linked => ⟨start, rfl, linked⟩, fun ⟨_, same, linked⟩ => same ▸ linked⟩
  | cons c front ih =>
      constructor
      · rintro ⟨here, next, node, linked⟩
        obtain ⟨middle, first, second⟩ := ih.mp linked
        exact ⟨middle, ⟨here, next, node, first⟩, second⟩
      · rintro ⟨middle, ⟨here, next, node, first⟩, second⟩
        exact ⟨here, next, node, ih.mpr ⟨middle, first, second⟩⟩

/-- A list depends only on the heap at its addresses. -/
theorem Linked.frame (linked : Linked heap start cells stop)
    (same : ∀ p ∈ addresses cells, heap' p = heap p) : Linked heap' start cells stop := by
  induction cells generalizing start with
  | nil => exact linked
  | cons c cells ih =>
      obtain ⟨here, next, node, linked⟩ := linked
      refine ⟨here, next, ?_, ih linked fun p mem => same p (List.mem_cons_of_mem _ mem)⟩
      rw [same _ List.mem_cons_self, node]

/-- A list does not change with a cell outside of it. -/
theorem Linked.update (linked : Linked heap start cells stop) (outside : p ∉ addresses cells)
    (node : Option (Node α)) : Linked (Function.update heap p node) start cells stop := by
  refine linked.frame fun q mem => ?_
  have other : q ≠ p := by
    rintro rfl
    exact outside mem
  exact Function.update_of_ne other _ _

/-- The last cell of a list can be linked to another end. -/
theorem Linked.relink (linked : Linked heap start (cells ++ [(p, x)]) stop)
    (apart : p ∉ addresses cells) (next : Option Nat) :
    Linked (Function.update heap p (some ⟨x, next⟩)) start (cells ++ [(p, x)]) next := by
  obtain ⟨middle, first, here, old, node, ends⟩ := linked_append.mp linked
  refine linked_append.mpr ⟨middle, first.update apart _, here, next, ?_, rfl⟩
  exact Function.update_self _ _ _

/-- From one start to the end there is one list. -/
theorem Linked.unique {cells' : List (Nat × α)} (linked : Linked heap start cells none)
    (other : Linked heap start cells' none) : cells' = cells := by
  induction cells generalizing start cells' with
  | nil =>
      obtain rfl : start = none := linked
      cases cells' with
      | nil => rfl
      | cons c cells' => exact absurd other.1 (by simp)
  | cons c cells ih =>
      obtain ⟨rfl, next, node, linked⟩ := linked
      cases cells' with
      | nil => exact absurd other (by simp [Linked])
      | cons c' cells' =>
          obtain ⟨here, next', node', other⟩ := other
          obtain ⟨p, x⟩ := c
          obtain ⟨p', x'⟩ := c'
          obtain rfl : p = p' := Option.some.inj here
          obtain ⟨rfl, rfl⟩ : x = x' ∧ next = next' := by
            simpa using Option.some.inj (node.symm.trans node')
          rw [ih linked other]

/-- Every address of a list has a node. -/
theorem Linked.allocated (linked : Linked heap start cells stop) (mem : p ∈ addresses cells) :
    heap p ≠ none := by
  induction cells generalizing start with
  | nil => exact absurd mem List.not_mem_nil
  | cons c cells ih =>
      obtain ⟨here, next, node, linked⟩ := linked
      rcases List.mem_cons.mp mem with rfl | mem
      · rw [node]
        exact Option.some_ne_none _
      · exact ih linked mem

/-- The start of a list that ends is the address of its first cell. -/
theorem Linked.start_eq (linked : Linked heap start cells none) :
    start = (addresses cells).head? := by
  cases cells with
  | nil => exact linked
  | cons c cells => exact linked.1

end LinkedList
