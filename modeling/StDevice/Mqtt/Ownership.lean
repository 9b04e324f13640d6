import StDevice.Mqtt.Preservation

/-!
# Who owns a chunk

A chunk is in at most one queue, no chunk of a queue was freed, and a chunk with an
owner is freed by the call that waits for it. This holds in every run in which no
two packets that wait to be written or acknowledged share their type and id: the
call that gives up searches for its packet by these two.
-/

namespace StDevice.Mqtt

open Custody Run

namespace Client

/-- No two packets that wait to be written or acknowledged share type and id. -/
def Distinct (s : Client) : Prop :=
  ∀ c d, s.Live c → s.Live d → (s.chunk c).Pending → (s.chunk d).Pending →
    (s.chunk c).packetType = (s.chunk d).packetType →
    (s.chunk c).packetId = (s.chunk d).packetId → c = d

/-- The chunks of the three queues. -/
def queued (s : Client) : List Nat :=
  s.writePendingQueue ++ s.ackPendingQueue ++ s.userEventCallbackQueue

structure Ownership (s : Client) : Prop where
  /-- a chunk is in at most one queue, and there once -/
  placed : s.queued.Nodup
  /-- no chunk of a queue was freed -/
  live : ∀ c ∈ s.queued, s.Live c
  /-- no chunk is freed twice -/
  once : (s.frees.map Free.chunk).Nodup
  /-- a chunk with an owner is freed by the call that waits for it -/
  owner : ∀ free ∈ s.frees, free.haveOwner = true → free.agent = .waitFor free.chunk
  /-- and the ping is never freed -/
  ping : ∀ free ∈ s.frees, free.chunk ≠ pingPacket

theorem items_seats (s : Client) :
    items s.seats = s.queued ++ items (s.jobs.flatMap Job.seats) := by
  simp [items, seats, queued, Function.comp_def]

end Client

namespace Holds

variable {w : Watch} {s : Client}

/-- The queues hold every chunk at most once. -/
theorem queued_nodup (holds : Holds w s []) : s.queued.Nodup := by
  have distinct : (s.queued ++ items (s.jobs.flatMap Job.seats)).Nodup :=
    s.items_seats ▸ holds.custody.distinct
  exact distinct.of_append_left

/-- A chunk of a queue was not freed, if one is careful. -/
theorem live_of_placed {c : Nat} (holds : Holds w s []) (careful : w.careful)
    (placed : c ∈ items s.seats) : s.Live c := by
  obtain ⟨seat, seated, rfl⟩ := List.mem_map.mp placed
  obtain ⟨before, freed⟩ := holds.custody.alive seat seated
  exact ⟨before, fun free mem same => (freed free mem same).2 careful⟩

theorem ownership (holds : Holds w s []) (careful : w.careful) : s.Ownership := by
  refine ⟨holds.queued_nodup, ?_, holds.ledger.once, ?_, ?_⟩
  · intro c mem
    have placed : c ∈ items s.seats := by
      rw [s.items_seats]
      exact List.mem_append_left _ mem
    exact holds.live_of_placed careful placed
  · intro free freed
    exact (holds.ledger.permitted free freed).byOwner
  · intro free freed
    exact (holds.ledger.permitted free freed).notPing

/-- What a call that gives up takes out of a queue is alive and pending. -/
theorem pending_of_abandons {c d : Nat} {seen : ChunkState} {queue : List Nat}
    (holds : Holds w s []) (careful : w.careful) (pops : s.abandons c seen = some (d, queue)) :
    s.Live d ∧ (s.chunk d).Pending ∧ s.like c d = true := by
  cases seen with
  | writePending =>
      obtain ⟨perm, found⟩ := popBy_perm pops
      have placed : d ∈ items s.seats := by
        rw [s.items_seats]
        simp [Client.queued, perm.mem_iff]
      exact ⟨holds.live_of_placed careful placed, .inl (holds.popWrite perm).fit.1, found⟩
  | ackPending =>
      obtain ⟨perm, found⟩ := popBy_perm pops
      have placed : d ∈ items s.seats := by
        rw [s.items_seats]
        simp [Client.queued, perm.mem_iff]
      exact ⟨holds.live_of_placed careful placed, .inr (holds.popAck perm).fit.1, found⟩
  | _ => exact absurd pops (by simp [Client.abandons])

/-- Where packets are distinct, a call that gives up finds its own. -/
theorem givesUp_of_distinct {c : Nat} (holds : Holds w s []) (careful : w.careful)
    (distinct : s.Distinct) (waits : c ∈ s.waiting) (pending : (s.chunk c).Pending) {d : Nat}
    {queue : List Nat} {seen : ChunkState} (pops : s.abandons c seen = some (d, queue)) :
    d = c := by
  obtain ⟨live, waiting, found⟩ := holds.pending_of_abandons careful pops
  obtain ⟨type, id⟩ := Bool.and_eq_true_iff.mp found
  exact distinct d c live (holds.ledger.waited c waits).1 waiting pending (eq_of_beq type)
    (eq_of_beq id)

end Holds

/-- No packet is freed in a queue, not by its owner either. -/
def Watch.owners : Watch := ⟨fun _ _ => True, True, False⟩

namespace Client

/-- One step where packets are distinct. -/
private theorem keeps_ownership (s : Client) (e : Event) (t : Client)
    (holds : Holds .owners s []) (distinct : s.Distinct)
    (transition : s.Transition e t) : Holds .owners t [] := by
  refine holds.step ?_ transition
  cases e with
  | poll c seen failed =>
      have waits : c ∈ s.waiting := by
        cases transition.stepped with
        | poll _ waits _ => exact waits
      intro _ d queue pops
      refine ⟨fun _ => ?_, fun never => never.elim⟩
      by_cases pending : (s.chunk c).Pending
      · exact .inl (holds.givesUp_of_distinct trivial distinct waits pending pops)
      · exact .inr pending
  | _ => exact permits_of_plain (by simp) (fun _ _ => trivial) fun never => never

/-- Chunks are owned in every run in which packets are distinct. -/
theorem ownership_of_distinct {events : List Event} {t : Client}
    (run : Steps Transition initial events t)
    (distinct : Along Transition (fun s _ => s.Distinct) initial events) : t.Ownership := by
  have kept : Holds .owners t [] := run.invariant_along keeps_ownership distinct Holds.initial
  exact kept.ownership trivial

/-- Beside the unused ping there is one chunk only. -/
private theorem distinct_of_two {s : Client} (two : s.created = 2)
    (unused : (s.chunk pingPacket).chunkState = .init) : s.Distinct := by
  have other {c : Nat} (live : s.Live c) (pending : (s.chunk c).Pending) : c = 1 := by
    have notPing : c ≠ pingPacket := by
      rintro rfl
      simp [Chunk.Pending, unused] at pending
    have := live.1
    unfold pingPacket at notPing
    omega
  intro c d liveC liveD pendingC pendingD _ _
  rw [other liveC pendingC, other liveD pendingD]

/-- A synchronous publish of a QoS 1 message is written, and its call gives up. -/
def abandonedPublish : List Event :=
  [.publish true 1, .writePop, .writeEnd 1 true, .poll 1 .ackPending true]

/-- The call frees its chunk, and nothing else does. -/
theorem abandonedPublish_ownership : ∃ t, Steps Transition initial abandonedPublish t ∧
    t.frees = [⟨1, true, .waitFor 1⟩] ∧ t.Ownership := by
  obtain ⟨t, ⟨run, distinct⟩, frees⟩ : ∃ t,
      (Steps Transition initial abandonedPublish t ∧
        Along Transition (fun s _ => s.Distinct) initial abandonedPublish) ∧
      t.frees = [⟨1, true, .waitFor 1⟩] := by
    refine ⟨_, Transition.cons rfl ?_ <| Transition.cons rfl (distinct_of_two rfl rfl) <|
      Transition.cons rfl (distinct_of_two rfl rfl) <|
      Transition.cons rfl (distinct_of_two rfl rfl) <| nil_along _, rfl⟩
    intro c d liveC liveD _ _ _ _
    have := liveC.1
    have := liveD.1
    simp only [initial] at *
    omega
  exact ⟨t, run, frees, ownership_of_distinct run distinct⟩

end Client

end StDevice.Mqtt
