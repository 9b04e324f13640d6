import Mathlib.Data.List.Basic

/-!
# A heap of blocks

An allocation takes an address that was never in use, so that a pointer to a block that has
been freed is known from the missing block. `Extends` says that the blocks of an earlier heap
are as they were; it survives allocations and the release of later blocks.
-/

/-- The blocks in use, and the addresses that were never in use. -/
structure BlockHeap (α : Type*) where
  next : Nat
  block : Nat → Option α
  fresh : ∀ addr, next ≤ addr → block addr = none

namespace BlockHeap

variable {α : Type*}

/-- The new block is at `heap.next`. -/
def alloc (heap : BlockHeap α) (content : α) : BlockHeap α where
  next := heap.next + 1
  block addr := if addr = heap.next then some content else heap.block addr
  fresh addr beyond := by
    rw [if_neg (by omega)]
    exact heap.fresh addr (by omega)

/-- `free`, which does nothing for NULL. -/
def free (heap : BlockHeap α) (pointer : Option Nat) : BlockHeap α where
  next := heap.next
  block addr := if pointer = some addr then none else heap.block addr
  fresh addr beyond := by
    split
    · rfl
    · exact heap.fresh addr beyond

/-- Some calls of `free`. -/
def freeAll (heap : BlockHeap α) (pointers : List (Option Nat)) : BlockHeap α :=
  pointers.foldl free heap

/-- A block gets another content. -/
def store (heap : BlockHeap α) (addr : Nat) (content : α) : BlockHeap α where
  next := heap.next
  block a := if a = addr then (heap.block a).map fun _ => content else heap.block a
  fresh a beyond := by
    split
    · rw [heap.fresh a beyond]
      rfl
    · exact heap.fresh a beyond

/-- What was allocated before is as it was. -/
structure Extends (heap later : BlockHeap α) : Prop where
  next_le : heap.next ≤ later.next
  kept : ∀ addr < heap.next, later.block addr = heap.block addr

variable {heap later : BlockHeap α} {addr : Nat} {content : α}

theorem lt_next (there : heap.block addr = some content) : addr < heap.next := by
  by_contra beyond
  rw [heap.fresh addr (Nat.le_of_not_lt beyond)] at there
  cases there

theorem block_alloc_next (heap : BlockHeap α) (content : α) :
    (heap.alloc content).block heap.next = some content := if_pos rfl

theorem block_free_self (heap : BlockHeap α) (addr : Nat) :
    (heap.free (some addr)).block addr = none := if_pos rfl

theorem block_free_of_none {pointer : Option Nat} (gone : heap.block addr = none) :
    (heap.free pointer).block addr = none := by
  change (if pointer = some addr then none else heap.block addr) = none
  split
  · rfl
  · exact gone

theorem block_freeAll_of_none (heap : BlockHeap α) {pointers : List (Option Nat)}
    (gone : heap.block addr = none) : (heap.freeAll pointers).block addr = none := by
  induction pointers generalizing heap with
  | nil => exact gone
  | cons pointer pointers ih => exact ih _ (block_free_of_none gone)

/-- A block is gone after a pointer to it has been freed. -/
theorem block_freeAll_of_mem {pointers : List (Option Nat)} (freed : some addr ∈ pointers) :
    (heap.freeAll pointers).block addr = none := by
  induction pointers generalizing heap with
  | nil => cases freed
  | cons pointer pointers ih =>
      obtain rfl | later := List.mem_cons.mp freed
      · exact block_freeAll_of_none (heap.free (some addr)) (block_free_self heap addr)
      · exact ih later

namespace Extends

theorem refl (heap : BlockHeap α) : heap.Extends heap := ⟨Nat.le_refl _, fun _ _ => rfl⟩

theorem alloc (extension : heap.Extends later) (content : α) :
    heap.Extends (later.alloc content) := by
  refine ⟨Nat.le_succ_of_le extension.next_le, fun addr before => ?_⟩
  rw [← extension.kept addr before]
  exact if_neg (by have := extension.next_le; omega)

theorem free (extension : heap.Extends later) {pointer : Option Nat}
    (fresh : ∀ addr, pointer = some addr → heap.next ≤ addr) :
    heap.Extends (later.free pointer) := by
  refine ⟨extension.next_le, fun addr before => ?_⟩
  rw [← extension.kept addr before]
  exact if_neg fun same => absurd (fresh addr same) (Nat.not_le_of_lt before)

theorem freeAll (extension : heap.Extends later) {pointers : List (Option Nat)}
    (fresh : ∀ addr, some addr ∈ pointers → heap.next ≤ addr) :
    heap.Extends (later.freeAll pointers) := by
  induction pointers generalizing later with
  | nil => exact extension
  | cons pointer pointers ih =>
      have first : ∀ addr, pointer = some addr → heap.next ≤ addr := fun addr same =>
        fresh addr (same ▸ List.mem_cons_self)
      exact ih (extension.free first) fun addr inside =>
        fresh addr (List.mem_cons_of_mem _ inside)

theorem store (extension : heap.Extends later) {addr : Nat} (fresh : heap.next ≤ addr)
    (content : α) : heap.Extends (later.store addr content) := by
  refine ⟨extension.next_le, fun a before => ?_⟩
  rw [← extension.kept a before]
  exact if_neg (by omega)

/-- A block is found again. -/
theorem block_eq_some (extension : heap.Extends later) (there : heap.block addr = some content) :
    later.block addr = some content := by
  rw [extension.kept addr (lt_next there), there]

theorem trans {latest : BlockHeap α} (first : heap.Extends later) (second : later.Extends latest) :
    heap.Extends latest := by
  refine ⟨Nat.le_trans first.next_le second.next_le, fun addr before => ?_⟩
  rw [second.kept addr (Nat.lt_of_lt_of_le before first.next_le), first.kept addr before]

end Extends

end BlockHeap
