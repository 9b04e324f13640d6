import StDevice.Foundation.LinkedList
import StDevice.Main.WorkQueue

/-!
# Queues in memory

`iot_util_queue_t` keeps its items in a linked list with a pointer to the first and one to
the last node. The data of an item are allocated and freed with its node, so here they are
part of it. A function that follows a pointer to memory that is not allocated has no result.

The functions are compared with a list: what is sent goes to its end, and what is received
comes from its front.
-/

namespace StDevice.Main

open LinkedList

variable {α : Type}

/-- `iot_util_queue_t` and the memory it lives in. -/
structure LinkedQueue (α : Type) where
  heap : Heap α
  head : Option Nat
  tail : Option Nat

/-- The errors of the queue functions. -/
inductive QueueError where
  | badReq | memAlloc | timeout
  deriving DecidableEq, Repr

/-- What a call on a queue returns. -/
inductive QueueResult (α : Type) where
  | error (err : QueueError)
  | sent
  | received (data : α)
  deriving DecidableEq, Repr

namespace LinkedQueue

/-- `iot_util_queue_send`. `place` is the memory `iot_os_malloc` finds for the item, and
`locks` the outcome of `iot_os_mutex_lock`. -/
def iotUtilQueueSend (q : LinkedQueue α) (data : α) (place : Option Nat) (locks : Bool) :
    Option (QueueResult α × LinkedQueue α) :=
  match place with
  | none => some (.error .memAlloc, q)
  | some p =>
      if locks then
        let heap := Function.update q.heap p (some ⟨data, none⟩)
        match q.head, q.tail with
        | some _, some t =>
            match heap t with
            | none => none
            | some last =>
                some (.sent, { q with
                  heap := Function.update heap t (some { last with next := some p })
                  tail := some p })
        | _, _ => some (.sent, ⟨heap, some p, some p⟩)
      else some (.error .timeout, q)

/-- `iot_util_queue_receive`. -/
def iotUtilQueueReceive (q : LinkedQueue α) (locks : Bool) :
    Option (QueueResult α × LinkedQueue α) :=
  if locks then
    match q.head, q.tail with
    | some h, some t =>
        match q.heap h with
        | none => none
        | some first =>
            let heap := Function.update q.heap h none
            if h = t then some (.received first.data, ⟨heap, none, none⟩)
            else some (.received first.data, ⟨heap, first.next, some t⟩)
    | _, _ => some (.error .badReq, q)
  else some (.error .timeout, q)

/-- A call, with what the allocator and the lock do. -/
inductive Call (α : Type) where
  | send (data : α) (place : Option Nat) (locks : Bool)
  | receive (locks : Bool)

def call (q : LinkedQueue α) : Call α → Option (QueueResult α × LinkedQueue α)
  | .send data place locks => q.iotUtilQueueSend data place locks
  | .receive locks => q.iotUtilQueueReceive locks

/-- The allocator hands out memory that is free. -/
def Fresh (q : LinkedQueue α) : Call α → Prop
  | .send _ place _ => ∀ p ∈ place, q.heap p = none
  | .receive _ => True

/-- Successive calls, with their results. -/
def calls (q : LinkedQueue α) : List (Call α) → Option (List (QueueResult α) × LinkedQueue α)
  | [] => some ([], q)
  | c :: cs => do
      let (result, q) ← q.call c
      let (results, q) ← q.calls cs
      pure (result :: results, q)

/-- Every call finds free memory. -/
def Legal (q : LinkedQueue α) : List (Call α) → Prop
  | [] => True
  | c :: cs => q.Fresh c ∧ ∀ result q', q.call c = some (result, q') → q'.Legal cs

/-- The same call on a list. -/
def listCall (xs : List α) : Call α → QueueResult α × List α
  | .send _ none _ => (.error .memAlloc, xs)
  | .send data (some _) locks =>
      if locks then (.sent, queueSend xs data) else (.error .timeout, xs)
  | .receive locks =>
      if locks then
        match queueReceive xs with
        | none => (.error .badReq, xs)
        | some (data, xs) => (.received data, xs)
      else (.error .timeout, xs)

def listCalls (xs : List α) : List (Call α) → List (QueueResult α) × List α
  | [] => ([], xs)
  | c :: cs =>
      let (result, xs) := listCall xs c
      let (results, xs) := listCalls xs cs
      (result :: results, xs)

/-- The cells are linked from the head on, and the tail is the last of them. -/
structure Holds (q : LinkedQueue α) (cells : List (Nat × α)) : Prop where
  linked : Linked q.heap q.head cells none
  distinct : (addresses cells).Nodup
  tail : q.tail = (addresses cells).getLast?

/-- The queue stands for the list. An empty queue has no head and no tail. -/
def Represents (q : LinkedQueue α) (xs : List α) : Prop :=
  ∃ cells, q.Holds cells ∧ contents cells = xs

/-- From here on the queue behaves like the list. -/
def BehavesAs (q : LinkedQueue α) (xs : List α) : Prop :=
  ∀ cs, q.Legal cs → ∃ q', q.calls cs = some ((listCalls xs cs).1, q')

variable {q : LinkedQueue α} {cells front rest : List (Nat × α)} {xs : List α} {p : Nat} {x : α}

theorem Holds.head_eq (holds : q.Holds cells) : q.head = (addresses cells).head? :=
  holds.linked.start_eq

/-- A cell of the queue, and where it leads. -/
theorem Holds.node (holds : q.Holds (front ++ (p, x) :: rest)) :
    q.heap p = some ⟨x, (addresses rest).head?⟩ := by
  obtain ⟨middle, -, -, next, node, linked⟩ := linked_append.mp holds.linked
  rw [node, linked.start_eq]

/-- The addresses around a cell are distinct, and its own is none of them. -/
theorem Holds.apart (holds : q.Holds (front ++ (p, x) :: rest)) :
    (addresses (front ++ rest)).Nodup ∧ p ∉ addresses front ∧ p ∉ addresses rest := by
  have distinct := holds.distinct
  rw [addresses_append, addresses_cons, List.nodup_middle, List.nodup_cons,
    List.mem_append, not_or] at distinct
  rw [addresses_append]
  exact ⟨distinct.2, distinct.1⟩

theorem Holds.tail_of_last (holds : q.Holds (front ++ [(p, x)])) :
    q.tail = some p := by
  rw [holds.tail, addresses_append]
  exact List.getLast?_concat

/-- With cells before and after, the head is one of the first and the tail one of the
last, and they are not the same. -/
theorem Holds.ends (holds : q.Holds (front ++ rest)) (some : front ≠ []) (more : rest ≠ []) :
    ∃ h ∈ addresses front, ∃ t ∈ addresses rest,
      q.head = h ∧ q.tail = t ∧ h ∉ addresses rest := by
  have distinct := holds.distinct
  rw [addresses_append, List.nodup_append] at distinct
  obtain ⟨h, first⟩ : ∃ h, (addresses front).head? = .some h := by
    cases front with
    | nil => exact absurd rfl some
    | cons c front => exact ⟨c.1, rfl⟩
  obtain ⟨t, last⟩ : ∃ t, (addresses rest).getLast? = .some t :=
    Option.ne_none_iff_exists'.mp fun none =>
      more (addresses_eq_nil_iff.mp (List.getLast?_eq_none_iff.mp none))
  refine ⟨h, List.mem_of_head? first, t, List.mem_of_getLast? last, ?_, ?_, ?_⟩
  · rw [holds.head_eq, addresses_append, List.head?_append, first]
    rfl
  · rw [holds.tail, getLast?_addresses_append _ more, last]
  · exact fun mem => distinct.2.2 h (List.mem_of_head? first) h mem rfl

/-- The cell after `b` is unlinked, and freed or left alone. -/
theorem Holds.unlink {b : Nat} {y : α}
    (holds : q.Holds (front ++ [(b, y)] ++ (p, x) :: rest)) (left : Option (Node α)) :
    Linked
      (Function.update (Function.update q.heap b (some ⟨y, (addresses rest).head?⟩)) p left)
      q.head (front ++ [(b, y)] ++ rest) none := by
  obtain ⟨distinct, before, after⟩ := holds.apart
  obtain ⟨middle, first, -, next, node, second⟩ := linked_append.mp holds.linked
  have apart : b ∉ addresses front ∧ b ∉ addresses rest := by
    rw [List.append_assoc, addresses_append, List.singleton_append, addresses_cons,
      List.nodup_middle, List.nodup_cons, List.mem_append, not_or] at distinct
    exact distinct.1
  have relinked := (first.relink apart.1 (addresses rest).head?).update before left
  refine linked_append.mpr ⟨_, relinked, ?_⟩
  rw [← second.start_eq]
  exact (second.update apart.2 _).update after _

/-- A cell that leads nowhere is linked behind the last. -/
theorem Holds.concat {t : Nat} {y : α} (holds : q.Holds (front ++ [(t, y)]))
    (outside : p ∉ addresses (front ++ [(t, y)])) (node : q.heap p = some ⟨x, none⟩) :
    Holds { q with heap := Function.update q.heap t (some ⟨y, some p⟩), tail := some p }
      (front ++ [(t, y)] ++ [(p, x)]) := by
  have other : p ≠ t := by
    rintro rfl
    exact outside (by simp)
  refine ⟨linked_append.mpr ⟨some p, holds.linked.relink holds.apart.2.1 _, rfl, none, ?_, rfl⟩,
    ?_, ?_⟩
  · exact (Function.update_of_ne other _ _).trans node
  · rw [addresses_append]
    refine List.nodup_append.mpr ⟨holds.distinct, by simp, fun a mem b single same => ?_⟩
    obtain rfl : b = p := List.mem_singleton.mp single
    exact outside (same ▸ mem)
  · rw [addresses_append]
    exact List.getLast?_concat.symm

/-- A queue stands for one list only. -/
theorem Represents.unique {ys : List α} (represents : q.Represents xs)
    (other : q.Represents ys) : xs = ys := by
  obtain ⟨cells, holds, rfl⟩ := represents
  obtain ⟨cells', holds', rfl⟩ := other
  rw [holds.linked.unique holds'.linked]

/-- An item that is sent becomes the last cell. -/
theorem Holds.send (holds : q.Holds cells) (free : q.heap p = none) (data : α) :
    ∃ q', q.iotUtilQueueSend data (some p) true = some (.sent, q') ∧
      q'.Holds (cells ++ [(p, data)]) := by
  have outside : p ∉ addresses cells := fun mem => holds.linked.allocated mem free
  rcases List.eq_nil_or_concat cells with rfl | ⟨front, ⟨t, y⟩, rfl⟩
  · have head : q.head = none := holds.linked
    refine ⟨_, by rw [iotUtilQueueSend, head]; rfl, ?_, List.nodup_singleton p, rfl⟩
    exact ⟨rfl, none, Function.update_self _ _ _, rfl⟩
  · rw [List.concat_eq_append] at *
    have other : t ≠ p := by
      rintro rfl
      exact outside (by simp)
    obtain ⟨h, head⟩ : ∃ h, q.head = some h := by
      rw [holds.head_eq]
      cases front with
      | nil => exact ⟨t, rfl⟩
      | cons c front => exact ⟨c.1, rfl⟩
    have last : Function.update q.heap p (some ⟨data, none⟩) t = some ⟨y, none⟩ :=
      (Function.update_of_ne other _ _).trans holds.node
    have placed : Holds { q with heap := Function.update q.heap p (some ⟨data, none⟩) }
        (front ++ [(t, y)]) := ⟨holds.linked.update outside _, holds.distinct, holds.tail⟩
    refine ⟨_, by simp only [iotUtilQueueSend, head, holds.tail_of_last, last, if_true]; rfl, ?_⟩
    have whole := placed.concat outside (Function.update_self _ _ _)
    rwa [head] at whole

/-- The first cell is the one received. -/
theorem Holds.receive (holds : q.Holds ((p, x) :: cells)) :
    ∃ q', q.iotUtilQueueReceive true = some (.received x, q') ∧ q'.Holds cells := by
  obtain ⟨head, next, node, linked⟩ := holds.linked
  obtain ⟨outside, distinct⟩ := List.nodup_cons.mp holds.distinct
  have rest : Linked (Function.update q.heap p none) next cells none := linked.update outside _
  rcases List.eq_nil_or_concat cells with rfl | ⟨front, ⟨t, y⟩, rfl⟩
  · have tail : q.tail = some p := holds.tail
    refine ⟨_, by simp only [iotUtilQueueReceive, head, tail, node, if_true]; rfl, ?_, distinct,
      rfl⟩
    rfl
  · rw [List.concat_eq_append] at *
    have all : q.Holds (((p, x) :: front) ++ [(t, y)]) := holds
    have tail : q.tail = some t := all.tail_of_last
    have other : p ≠ t := by
      rintro rfl
      exact outside (by simp)
    refine ⟨_, by simp only [iotUtilQueueReceive, head, tail, node, if_true, if_neg other]; rfl,
      rest, distinct, ?_⟩
    rw [addresses_append]
    exact List.getLast?_concat.symm

theorem Holds.receive_nil (holds : q.Holds []) :
    q.iotUtilQueueReceive true = some (.error .badReq, q) := by
  have head : q.head = none := holds.linked
  simp [iotUtilQueueReceive, head]

/-- One call does to the queue what it does to the list. -/
theorem Represents.call (represents : q.Represents xs) {c : Call α} (fresh : q.Fresh c) :
    ∃ q', q.call c = some ((listCall xs c).1, q') ∧ q'.Represents (listCall xs c).2 := by
  obtain ⟨cells, holds, rfl⟩ := represents
  cases c with
  | send data place locks =>
      cases place with
      | none => exact ⟨q, rfl, cells, holds, rfl⟩
      | some p =>
          cases locks with
          | false => exact ⟨q, rfl, cells, holds, rfl⟩
          | true =>
              obtain ⟨q', sent, after⟩ := holds.send (fresh p rfl) data
              exact ⟨q', sent, _, after, contents_append _ _⟩
  | receive locks =>
      cases locks with
      | false => exact ⟨q, rfl, cells, holds, rfl⟩
      | true =>
          cases cells with
          | nil => exact ⟨q, holds.receive_nil, [], holds, rfl⟩
          | cons c cells =>
              obtain ⟨q', received, after⟩ := holds.receive
              exact ⟨q', received, cells, after, rfl⟩

/-- A queue that stands for a list behaves like it for good. -/
theorem Represents.behavesAs (represents : q.Represents xs) : q.BehavesAs xs := by
  intro cs
  induction cs generalizing q xs with
  | nil => exact fun _ => ⟨q, rfl⟩
  | cons c cs ih =>
      rintro ⟨fresh, later⟩
      obtain ⟨q₁, first, represents⟩ := represents.call fresh
      obtain ⟨q₂, rest⟩ := ih represents (later _ _ first)
      refine ⟨q₂, ?_⟩
      rw [calls, first, Option.bind_eq_bind, Option.bind_some]
      dsimp only
      rw [rest]
      rfl

end LinkedQueue

end StDevice.Main
