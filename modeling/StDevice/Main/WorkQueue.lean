import Mathlib.Data.List.Basic
import StDevice.Foundation.Run

/-!
# The device work queue

Any number of threads put work into one queue, and one task runs it. A producer
enqueues its work and then sets `DEVICE_PENDING_WORK_SIGNAL`; the task waits for the
bit, clears it, takes a single item, runs its handler and sets the bit again, because
more items may be stacked up. The handler may itself produce.

One bit stands for any number of items, so an item is safe only as long as somebody
still has to set the bit or to look at the queue. Allocations and locks succeed, and
the kill signal is never set.
-/

namespace StDevice.Main

/-- `device_work_data_t`. A `void *` is a value of `P`. -/
structure Work (H P : Type) where
  handler : H
  param : P
  ownerId : Option P
  deriving DecidableEq, Repr

/-- The functions that produce work. -/
inductive Producer (H P : Type) where
  | putDeviceWork (handler : H) (param : P)
  | signalPendingWork (client : P)
  deriving DecidableEq, Repr

/-- The item a producer enqueues. The MQTT client is the owner of its own work. -/
def Producer.work {H P : Type} (pendingWork : H) : Producer H P → Work H P
  | putDeviceWork handler param => ⟨handler, param, none⟩
  | signalPendingWork client => ⟨pendingWork, client, some client⟩

/-- `iot_util_queue_send`. -/
def queueSend {α : Type} (queue : List α) (data : α) : List α := queue ++ [data]

/-- `iot_util_queue_receive`. There is no item when it returns `IOT_ERROR_BAD_REQ`. -/
def queueReceive {α : Type} : List α → Option (α × List α)
  | [] => none
  | data :: queue => some (data, queue)

theorem queueReceive_eq_none {α : Type} {queue : List α} :
    queueReceive queue = none ↔ queue = [] := by
  cases queue <;> simp [queueReceive]

theorem queueReceive_eq_some {α : Type} {queue rest : List α} {data : α} :
    queueReceive queue = some (data, rest) ↔ queue = data :: rest := by
  cases queue <;> simp [queueReceive]

/-- Where `_device_work_queue_task` is. -/
inductive Task (H P : Type) where
  /-- in `iot_os_eventgroup_wait_bits` -/
  | waiting
  /-- the bit was set, and is now clear -/
  | signalled
  | received (work : Work H P)
  /-- in the handler; `sending` when the handler has enqueued work and not set the bit -/
  | running (sending : Bool)
  deriving DecidableEq, Repr

/-- The queue, its event bit, the task and the producers. -/
structure WorkQueue (T H P : Type) where
  queue : List (Work H P)
  /-- `DEVICE_PENDING_WORK_SIGNAL` -/
  signal : Bool
  task : Task H P
  /-- the threads that have enqueued work and not set the bit -/
  sending : List T
  /-- every item enqueued so far -/
  enqueued : List (Work H P)
  /-- every item whose handler was called, in the order of the calls -/
  ran : List (Work H P)

inductive WorkEvent (T H P : Type) where
  | send (thread : T) (producer : Producer H P)
  | set (thread : T)
  | wait
  | receive
  | run
  | handlerSend (producer : Producer H P)
  | handlerSet
  | setAgain

namespace WorkQueue

variable {T H P : Type}

def initial : WorkQueue T H P where
  queue := []
  signal := false
  task := .waiting
  sending := []
  enqueued := []
  ran := []

def send (s : WorkQueue T H P) (work : Work H P) : WorkQueue T H P :=
  { s with queue := queueSend s.queue work, enqueued := s.enqueued ++ [work] }

variable [DecidableEq T]

def step (pendingWork : H) (s : WorkQueue T H P) :
    WorkEvent T H P → Option (WorkQueue T H P)
  | .send thread producer =>
      if thread ∈ s.sending then none
      else some { s.send (producer.work pendingWork) with sending := thread :: s.sending }
  | .set thread =>
      if thread ∈ s.sending then
        some { s with signal := true, sending := s.sending.erase thread }
      else none
  | .wait =>
      match s.task, s.signal with
      | .waiting, true => some { s with signal := false, task := .signalled }
      | _, _ => none
  | .receive =>
      match s.task, queueReceive s.queue with
      | .signalled, none => some { s with task := .waiting }
      | .signalled, some (work, queue) => some { s with queue := queue, task := .received work }
      | _, _ => none
  | .run =>
      match s.task with
      | .received work => some { s with task := .running false, ran := s.ran ++ [work] }
      | _ => none
  | .handlerSend producer =>
      match s.task with
      | .running false => some { s.send (producer.work pendingWork) with task := .running true }
      | _ => none
  | .handlerSet =>
      match s.task with
      | .running true => some { s with signal := true, task := .running false }
      | _ => none
  | .setAgain =>
      match s.task with
      | .running false => some { s with signal := true, task := .waiting }
      | _ => none

/-- One step of the queue. -/
def Transition (pendingWork : H) (s : WorkQueue T H P) (e : WorkEvent T H P)
    (t : WorkQueue T H P) : Prop :=
  s.step pendingWork e = some t

end WorkQueue

/-- The item the task has received and whose handler it has not called. -/
def Task.hand {H P : Type} : Task H P → List (Work H P)
  | received work => [work]
  | _ => []

namespace WorkQueue

variable {T H P : Type}

/-- Somebody still has to set the bit or to look at the queue. -/
def Watched (s : WorkQueue T H P) : Prop :=
  s.signal = true ∨ s.sending ≠ [] ∨ s.task ≠ .waiting

structure Invariant (s : WorkQueue T H P) : Prop where
  order : s.ran ++ s.task.hand ++ s.queue = s.enqueued
  watched : s.queue ≠ [] → s.Watched

theorem Invariant.initial : (initial : WorkQueue T H P).Invariant :=
  ⟨rfl, fun nonempty => absurd rfl nonempty⟩

/-- The order is kept by a producer at any time. -/
theorem Invariant.order_send {s : WorkQueue T H P} (h : s.Invariant) (work : Work H P) :
    s.ran ++ s.task.hand ++ (s.send work).queue = (s.send work).enqueued := by
  simp only [send, queueSend, ← h.order, List.append_assoc]

variable [DecidableEq T] {pendingWork : H} {s t : WorkQueue T H P} {e : WorkEvent T H P}

theorem Invariant.step (h : s.Invariant) (transition : Transition pendingWork s e t) :
    t.Invariant := by
  unfold Transition at transition
  cases e with
  | send thread producer =>
      simp only [WorkQueue.step] at transition
      split at transition
      · cases transition
      · obtain rfl := Option.some.inj transition
        exact ⟨h.order_send _, fun _ => .inr (.inl (List.cons_ne_nil _ _))⟩
  | set thread =>
      simp only [WorkQueue.step] at transition
      split at transition
      · obtain rfl := Option.some.inj transition
        exact ⟨h.order, fun _ => .inl rfl⟩
      · cases transition
  | wait =>
      simp only [WorkQueue.step] at transition
      split at transition
      · rename_i waits _
        obtain rfl := Option.some.inj transition
        refine ⟨?_, fun _ => .inr (.inr (by simp))⟩
        simpa [waits, Task.hand] using h.order
      · cases transition
  | receive =>
      simp only [WorkQueue.step] at transition
      split at transition
      · rename_i signalled nothing
        obtain rfl := Option.some.inj transition
        refine ⟨by simpa [signalled, Task.hand] using h.order, fun nonempty => ?_⟩
        -- the bit is not set again, and need not be: the queue was found empty
        exact absurd (queueReceive_eq_none.mp nothing) nonempty
      · rename_i work rest signalled received
        obtain rfl := Option.some.inj transition
        refine ⟨?_, fun _ => .inr (.inr (by simp))⟩
        simpa [signalled, queueReceive_eq_some.mp received, Task.hand] using h.order
      · cases transition
  | run =>
      simp only [WorkQueue.step] at transition
      split at transition
      · rename_i work received
        obtain rfl := Option.some.inj transition
        refine ⟨?_, fun _ => .inr (.inr (by simp))⟩
        simpa [received, Task.hand] using h.order
      · cases transition
  | handlerSend producer =>
      simp only [WorkQueue.step] at transition
      split at transition
      · rename_i running
        obtain rfl := Option.some.inj transition
        refine ⟨?_, fun _ => .inr (.inr (by simp))⟩
        have order := h.order_send (producer.work pendingWork)
        rw [running] at order
        exact order
      · cases transition
  | handlerSet =>
      simp only [WorkQueue.step] at transition
      split at transition
      · rename_i running
        obtain rfl := Option.some.inj transition
        refine ⟨?_, fun _ => .inl rfl⟩
        simpa [running, Task.hand] using h.order
      · cases transition
  | setAgain =>
      simp only [WorkQueue.step] at transition
      split at transition
      · rename_i running
        obtain rfl := Option.some.inj transition
        refine ⟨?_, fun _ => .inl rfl⟩
        simpa [running, Task.hand] using h.order
      · cases transition

/-- Along every run the items are run in the order in which they were enqueued, each
once, and when the task is blocked with no producer between its two calls, nothing is
left to run. -/
theorem no_work_lost {events : List (WorkEvent T H P)}
    (run : Run.Steps (Transition pendingWork) initial events t) :
    t.ran <+: t.enqueued ∧
      (t.task = .waiting → t.signal = false → t.sending = [] →
        t.queue = [] ∧ t.ran = t.enqueued) := by
  have h : t.Invariant := run.invariant (fun _ _ _ h transition => h.step transition) .initial
  refine ⟨⟨t.task.hand ++ t.queue, by rw [← List.append_assoc, h.order]⟩, ?_⟩
  intro waiting clear quiet
  have empty : t.queue = [] := by
    by_contra nonempty
    obtain signal | sending | task := h.watched nonempty
    · rw [clear] at signal
      cases signal
    · exact sending quiet
    · exact task waiting
  refine ⟨empty, ?_⟩
  simpa [waiting, empty, Task.hand] using h.order

/-- A thread puts work, and the client signals while its handler runs and produces
more. -/
def overlappingEvents : List (WorkEvent Nat Nat Nat) :=
  [.send 1 (.putDeviceWork 10 11), .set 1, .wait, .receive, .run,
    .handlerSend (.putDeviceWork 20 21), .send 2 (.signalPendingWork 5), .handlerSet, .set 2,
    .setAgain, .wait, .receive, .run, .setAgain, .wait, .receive, .run, .setAgain, .wait,
    .receive]

private theorem overlapping_runs :
    ∃ t : WorkQueue Nat Nat Nat, Run.Steps (Transition 0) initial overlappingEvents t ∧
      t.task = .waiting ∧ t.signal = false ∧ t.sending = [] ∧
      t.enqueued = [⟨10, 11, none⟩, ⟨20, 21, none⟩, ⟨0, 5, some 5⟩] := by
  refine ⟨_, .cons rfl <| .cons rfl <| .cons rfl <| .cons rfl <| .cons rfl <| .cons rfl <|
    .cons rfl <| .cons rfl <| .cons rfl <| .cons rfl <| .cons rfl <| .cons rfl <| .cons rfl <|
    .cons rfl <| .cons rfl <| .cons rfl <| .cons rfl <| .cons rfl <| .cons rfl <| .cons rfl <|
    .nil _, ?_⟩
  exact ⟨rfl, rfl, rfl, rfl⟩

theorem overlapping_no_work_lost :
    ∃ t : WorkQueue Nat Nat Nat, Run.Steps (Transition 0) initial overlappingEvents t ∧
      t.ran = [⟨10, 11, none⟩, ⟨20, 21, none⟩, ⟨0, 5, some 5⟩] ∧ t.queue = [] := by
  obtain ⟨t, run, waiting, clear, quiet, enqueued⟩ := overlapping_runs
  obtain ⟨empty, ran⟩ := (no_work_lost run).2 waiting clear quiet
  exact ⟨t, run, ran.trans enqueued, empty⟩

end WorkQueue

end StDevice.Main
