import StDevice.Mqtt.Ownership

/-!
# Giving up a packet

A call of `_iot_mqtt_wait_for` whose cycle failed takes its packet back out of the
queue. It searches by type and id, and frees its own packet whatever it has found.
It removes nothing but its own exactly when no packet that looks the same stands in
front of its own in the queue.
-/

namespace StDevice.Mqtt

open Custody Run

/-- A search by type and id finds `c` or nothing when nothing in front of it is
wanted. -/
theorem popBy_eq_self_iff {wanted : Nat → Bool} {queue : List Nat} {c : Nat}
    (self : wanted c = true) :
    (∀ d rest, popBy wanted queue = some (d, rest) → d = c) ↔
      ∀ d ∈ queue.takeWhile (· ≠ c), wanted d = false := by
  induction queue with
  | nil => simp [popBy]
  | cons head queue ih =>
      by_cases own : head = c
      · subst own
        simp [popBy, self]
      · by_cases found : wanted head = true
        · simp [popBy, found, own]
        · simp only [popBy, found, List.takeWhile_cons]
          simp only [ne_eq, own, not_false_eq_true, decide_true, if_true, List.mem_cons,
            forall_eq_or_imp]
          constructor
          · intro only
            refine ⟨by simpa using found, ih.mp ?_⟩
            intro d rest pops
            exact only d (head :: rest) (by simp [pops])
          · rintro ⟨-, front⟩ d rest pops
            obtain ⟨rest', later, -⟩ : ∃ rest', popBy wanted queue = some (d, rest') ∧
                head :: rest' = rest := by simpa using pops
            exact ih.mpr front d rest' later

namespace Client

/-- No packet that looks like `c` stands in front of it in the queue searched. -/
def Unshadowed (s : Client) (c : Nat) : ChunkState → Prop
  | .writePending => ∀ d ∈ s.writePendingQueue.takeWhile (· ≠ c), s.like c d = false
  | .ackPending => ∀ d ∈ s.ackPendingQueue.takeWhile (· ≠ c), s.like c d = false
  | _ => True

/-- What a round of `_iot_mqtt_wait_for` leaves behind: only its own packet is
removed, and when the call has freed it, it is in no queue. -/
structure RemovesOwn (s : Client) (c : Nat) (seen : ChunkState) (failed : Bool) : Prop where
  removed : ∀ d ∈ s.queued, d ∉ (s.poll c seen failed).queued → d = c
  freed : c ∉ (s.poll c seen failed).waiting → c ∉ (s.poll c seen failed).queued

theorem like_self (s : Client) (c : Nat) : s.like c c = true := by
  simp [like, hasTypeAndId]

/-- A call that gives up finds its own packet or none exactly when that is not
shadowed. -/
theorem abandons_own_iff {s : Client} {c : Nat} {seen : ChunkState} :
    (∀ d queue, s.abandons c seen = some (d, queue) → d = c) ↔ s.Unshadowed c seen := by
  cases seen with
  | writePending => exact popBy_eq_self_iff (s.like_self c)
  | ackPending => exact popBy_eq_self_iff (s.like_self c)
  | _ => simp [abandons, Unshadowed]

/-- What a round of `_iot_mqtt_wait_for` does: it gives up with what it has found, or
it leaves the queues as they are and ends at most when its packet is settled. -/
theorem poll_cases (s : Client) (c : Nat) (seen : ChunkState) (failed : Bool) :
    (∃ d queue, failed = true ∧ s.abandons c seen = some (d, queue) ∧
      s.queued.Perm (d :: (s.poll c seen failed).queued)) ∨
    ((failed = true → s.abandons c seen = none) ∧ (s.poll c seen failed).queued = s.queued ∧
      ((s.poll c seen failed).waiting = s.waiting ∨
        seen ≠ .writePending ∧ seen ≠ .ackPending)) := by
  unfold poll
  split
  case h_1 =>
    split
    case isFalse patient => exact .inr ⟨fun fails => absurd fails patient, rfl, .inl rfl⟩
    case isTrue fails =>
      split
      case h_1 d queue pops =>
        refine .inl ⟨d, queue, fails, pops, ?_⟩
        exact ((popBy_perm pops).1.append_right _).append_right _
      case h_2 nothing => exact .inr ⟨fun _ => nothing, rfl, .inl rfl⟩
  case h_2 =>
    split
    case isFalse patient => exact .inr ⟨fun fails => absurd fails patient, rfl, .inl rfl⟩
    case isTrue fails =>
      split
      case h_1 d queue pops =>
        refine .inl ⟨d, queue, fails, pops, ?_⟩
        have middle : (s.writePendingQueue ++ s.ackPendingQueue).Perm
            (d :: (s.writePendingQueue ++ queue)) :=
          ((popBy_perm pops).1.append_left _).trans List.perm_middle
        exact middle.append_right _
      case h_2 nothing => exact .inr ⟨fun _ => nothing, rfl, .inl rfl⟩
  case h_8 => exact .inr ⟨fun _ => by simp_all [abandons], rfl, .inl rfl⟩
  all_goals exact .inr ⟨fun _ => rfl, rfl, .inr ⟨by simp, by simp⟩⟩

end Client

namespace Holds

variable {w : Watch} {s : Client} {c : Nat} {seen : ChunkState} {failed : Bool}

theorem removesOwn_iff (holds : Holds w s []) (waits : c ∈ s.waiting)
    (sees : s.CanSee c seen) :
    s.RemovesOwn c seen failed ↔ (failed = true → s.Unshadowed c seen) := by
  rw [← Client.abandons_own_iff]
  have distinct := holds.queued_nodup
  obtain ⟨d, queue, fails, pops, perm⟩ | ⟨nothing, same, ends⟩ := s.poll_cases c seen failed
  · have once : d ∉ (s.poll c seen failed).queued :=
      (List.nodup_cons.mp (perm.nodup_iff.mp distinct)).1
    constructor
    · intro own _ d' queue' pops'
      obtain ⟨rfl, rfl⟩ := Prod.mk.inj (Option.some.inj (pops.symm.trans pops'))
      exact own.removed d (perm.mem_iff.mpr List.mem_cons_self) once
    · intro own
      obtain rfl := own fails d queue pops
      refine ⟨?_, fun _ => once⟩
      intro e queued gone
      rcases List.mem_cons.mp (perm.mem_iff.mp queued) with rfl | kept
      · rfl
      · exact absurd kept gone
  · refine ⟨fun _ fails d queue pops => ?_, fun _ => ⟨?_, ?_⟩⟩
    · rw [nothing fails] at pops
      exact absurd pops (by simp)
    · intro d queued gone
      rw [same] at gone
      exact absurd queued gone
    · intro left
      rw [same]
      rcases ends with waiting | ⟨written, acknowledged⟩
      · rw [waiting] at left
        exact absurd waits left
      · have owned := (holds.ledger.waited c waits).2.1
        have final : ¬ (s.chunk c).Pending := by
          obtain pending | pending | rfl := sees
          · exact absurd pending written
          · exact absurd pending acknowledged
          · rintro (pending | pending)
            · exact written pending
            · exact acknowledged pending
        intro queued
        refine holds.outside_of_final owned final ?_
        rw [List.nil_append, s.items_seats]
        exact List.mem_append_left _ queued

end Holds

namespace Client

/-- In every run a call removes nothing but its own packet exactly when that is not
shadowed. -/
theorem removesOwn_iff_unshadowed {events : List Event} {s : Client}
    (run : Steps Transition initial events s) {c : Nat} {seen : ChunkState} {failed : Bool}
    (waits : c ∈ s.waiting) (sees : s.CanSee c seen) :
    s.RemovesOwn c seen failed ↔ (failed = true → s.Unshadowed c seen) := by
  exact (Holds.initial.places run).removesOwn_iff waits sees

/-- The call of a synchronous publish may give up before anything was written. -/
theorem lonePublish_removesOwn : ∃ s, Steps Transition initial [.publish true 0] s ∧
    s.RemovesOwn 1 .writePending true := by
  obtain ⟨s, run, waits, unshadowed⟩ : ∃ s, Steps Transition initial [.publish true 0] s ∧
      1 ∈ s.waiting ∧ s.Unshadowed 1 .writePending :=
    ⟨_, .cons rfl (.nil _), by decide,
      by simp [Unshadowed, publish, pushWrite, create, initial]⟩
  exact ⟨s, run, (removesOwn_iff_unshadowed run waits (.inl rfl)).mpr fun _ => unshadowed⟩

/-- Two asynchronous and one synchronous QoS 0 messages; the first cannot be written
and the cycle of the synchronous call fails. -/
def failedCycle : List Event :=
  [.publish false 0, .publish false 0, .publish true 0, .writePop, .writeEnd 1 false,
    .disconnected]

/-- The call drops the second message and frees its own, which stays in the queue. -/
theorem failedCycle_not_removesOwn : ∃ s, Steps Transition initial failedCycle s ∧
    3 ∈ s.waiting ∧ s.CanSee 3 .writePending ∧ ¬ s.RemovesOwn 3 .writePending true := by
  refine ⟨_, .cons rfl (.cons rfl (.cons rfl (.cons rfl (.cons rfl (.cons rfl (.nil _)))))),
    by decide, .inl rfl, ?_⟩
  intro own
  exact absurd (own.removed 2 (by decide) (by decide)) (by decide)

end Client

end StDevice.Mqtt
