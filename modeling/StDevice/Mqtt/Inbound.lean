import StDevice.Mqtt.Preservation

/-!
# What becomes of a received message

The client answers every PUBLISH of QoS 1 or 2, but hands its message to the user
only when the DUP bit is clear. A message without the bit is kept until it is handed
over. So every answered message reaches the user exactly when every answered packet
with the bit follows a copy without it that the same client has received.
-/

namespace StDevice.Mqtt

open Custody Run

namespace Client

variable {s t : Client} {e : Event} {r : Nat}

/-- Whatever the client does, the message is kept until it is handed to the user,
and some steps of its threads hand it over. -/
structure WillBeHanded (s : Client) (r : Nat) : Prop where
  kept : ∀ events t, Steps Transition s events t → r ∈ t.delivered ∨ r ∈ t.held
  reached : ∃ events t, Steps Transition s events t ∧ r ∈ t.delivered

/-- For every answered packet, its message or that of an earlier copy was or will be
handed to the user. -/
def AtLeastOnce (s : Client) : Prop :=
  ∀ r ∈ s.answered, ∃ r' ≤ r, (s.chunk r').message = (s.chunk r).message ∧
    (r' ∈ s.delivered ∨ s.WillBeHanded r')

/-- Every answered packet with the DUP bit follows a copy without it. -/
def Preceded (s : Client) : Prop :=
  ∀ r ∈ s.answered, (s.chunk r).dup = true →
    ∃ r' < r, r' ∈ s.inbound ∧ (s.chunk r').message = (s.chunk r).message

/-- Packets are only added, and their messages stay as they are. -/
structure Extends (s t : Client) : Prop where
  inbound : t.inbound = s.inbound
  created : s.created ≤ t.created

theorem extends_poll (s : Client) (c : Nat) (seen : ChunkState) (failed : Bool) :
    s.Extends (s.poll c seen failed) := by
  unfold poll
  repeat' split
  all_goals exact ⟨rfl, Nat.le_refl _⟩

theorem extends_postWrite (s : Client) (c : Nat) : s.Extends (s.postWrite c) := by
  unfold postWrite
  repeat' split
  all_goals exact ⟨rfl, Nat.le_refl _⟩

theorem extends_giveUp (s : Client) (c : Nat) (x : Chunk) : s.Extends (s.giveUp c x) := by
  unfold giveUp
  split <;> exact ⟨rfl, Nat.le_refl _⟩

theorem extends_deliver (s : Client) (r : Nat) : s.Extends (s.deliver r) := by
  unfold deliver
  split <;> exact ⟨rfl, Nat.le_refl _⟩

theorem extends_receivedPublish (s : Client) (r : Nat) : s.Extends (s.receivedPublish r) := by
  unfold receivedPublish
  split
  case isTrue => exact s.extends_deliver r
  case isFalse => exact ⟨rfl, Nat.le_succ _⟩

theorem extends_postRead (s : Client) (r : Nat) : s.Extends (s.postRead r) := by
  unfold postRead
  split
  case h_1 => exact s.extends_receivedPublish r
  case h_4 =>
    unfold receivedAck
    repeat' split
    all_goals exact ⟨rfl, Nat.le_refl _⟩
  case h_5 => exact ⟨rfl, Nat.le_refl _⟩
  all_goals
    unfold receivedPubrecPubrel
    split <;> exact ⟨rfl, Nat.le_refl _⟩

theorem extends_acknowledge (s : Client) (ack : MsgType) (r c : Nat) :
    s.Extends (s.acknowledge ack r c) := by
  unfold acknowledge
  split <;> exact ⟨rfl, Nat.le_refl _⟩

theorem extends_retry (s : Client) (c : Nat) : s.Extends (s.retry c) := by
  unfold retry
  repeat' split
  all_goals first | exact s.extends_giveUp c _ | exact ⟨rfl, Nat.le_refl _⟩

theorem extends_checkAlive (s : Client) : s.Extends s.checkAlive := by
  unfold checkAlive
  split <;> exact ⟨rfl, Nat.le_refl _⟩

private theorem extends_resume {j : Job}
    (keeps : Extends { s with jobs := s.jobs.erase j } t) : s.Extends t :=
  ⟨keeps.inbound, keeps.created⟩

/-- Only a packet that is read adds a message. -/
theorem extends_step (transition : s.Transition e t) (other : ∀ packet, e ≠ .read packet) :
    s.Extends t := by
  cases transition.stepped with
  | read packet => exact absurd rfl (other packet)
  | poll failed waits sees => exact s.extends_poll _ _ failed
  | written job => exact extends_resume (extends_postWrite _ _)
  | notWritten job => exact extends_resume (extends_giveUp _ _ _)
  | postRead job => exact extends_resume (extends_postRead _ _)
  | acknowledge job => exact extends_resume (extends_acknowledge _ _ _ _)
  | deliver job => exact extends_resume (extends_deliver _ _)
  | recycle job => exact ⟨rfl, Nat.le_refl _⟩
  | retry job => exact extends_resume (extends_retry _ _)
  | report job => exact ⟨rfl, Nat.le_refl _⟩
  | writePop pending => exact ⟨rfl, Nat.le_refl _⟩
  | userPop pending => exact ⟨rfl, Nat.le_refl _⟩
  | expire pops => exact ⟨rfl, Nat.le_refl _⟩
  | checkAlive => exact s.extends_checkAlive
  | publish isSync qos => exact ⟨rfl, Nat.le_succ _⟩
  | request q => exact ⟨rfl, Nat.le_succ _⟩
  | disconnected => exact ⟨rfl, Nat.le_succ _⟩

/-- A received message stays received. -/
theorem inbound_subset (transition : s.Transition e t) : s.inbound ⊆ t.inbound := by
  cases e with
  | read packet =>
      obtain rfl := Option.some.inj transition
      intro m mem
      simp only [read]
      split
      case isTrue => exact List.mem_cons_of_mem _ mem
      case isFalse => exact mem
  | _ =>
      intro m mem
      rw [(extends_step transition (by simp)).inbound]
      exact mem

/-- A message received later is in a new packet. -/
theorem inbound_new {n m : Nat} (transition : s.Transition e t) (before : n ≤ s.created) :
    n ≤ t.created ∧ (m ∈ t.inbound → m ∈ s.inbound ∨ n ≤ m) := by
  cases e with
  | read packet =>
      obtain rfl := Option.some.inj transition
      refine ⟨Nat.le_succ_of_le before, ?_⟩
      intro mem
      simp only [read] at mem
      split at mem
      case isTrue =>
        rcases List.mem_cons.mp mem with rfl | mem
        · exact .inr before
        · exact .inl mem
      case isFalse => exact .inl mem
  | _ =>
      obtain ⟨inbound, created⟩ := extends_step transition (by simp)
      exact ⟨Nat.le_trans before created, fun mem => .inl (inbound ▸ mem)⟩

/-- Of the packets there are, no later step makes a received message. -/
theorem inbound_of_later {events : List Event} (run : Steps Transition s events t)
    (before : r < s.created) (mem : r ∈ t.inbound) : r ∈ s.inbound := by
  have later : s.created ≤ t.created ∧ (r ∈ t.inbound → r ∈ s.inbound) := by
    refine run.invariant
      (I := fun u => s.created ≤ u.created ∧ (r ∈ u.inbound → r ∈ s.inbound)) ?_
      ⟨Nat.le_refl _, fun mem => mem⟩
    rintro u e v ⟨old, known⟩ transition
    obtain ⟨older, new⟩ := inbound_new (m := r) transition old
    refine ⟨older, fun mem => ?_⟩
    obtain mem | after := new mem
    · exact known mem
    · exact absurd before (Nat.not_lt_of_le after)
  exact later.2 mem

/-- A message received without the DUP bit is held until it is handed over. -/
theorem kept_of_inbound (holds : Holds .places s []) (mem : r ∈ s.inbound) {events : List Event}
    (run : Steps Transition s events t) : r ∈ t.delivered ∨ r ∈ t.held := by
  have stays : r ∈ t.inbound :=
    run.invariant (I := fun s => r ∈ s.inbound)
      (fun _ _ _ mem transition => inbound_subset transition mem) mem
  have once := (holds.places run).tally.received r stays
  rw [List.nil_append] at once
  by_cases held : r ∈ t.held
  · exact .inr held
  · have gone : (items t.seats).count r = 0 := List.count_eq_zero_of_not_mem held
    refine .inl (List.count_pos_iff.mp ?_)
    omega

/-- A message whose callback is being made is handed over. -/
private theorem reached_of_reporting (reporting : .reporting r ∈ s.jobs)
    (arrived : (s.chunk r).Inbound) :
    ∃ events t, Steps Transition s events t ∧ r ∈ t.delivered := by
  have handed : handsOver (s.chunk r) = true := by
    simp [handsOver, arrived.state, arrived.type]
  refine ⟨[.report r], _, .cons (t := { s with jobs := s.jobs.erase (.reporting r) }.report r)
    ?_ (.nil _), ?_⟩
  · simp [Transition, step, resume, reporting]
  · simp [report, handed]

/-- A message of the callback queue is handed over after those in front of it. -/
private theorem reached_of_queued {front rest : List Nat} (arrived : (s.chunk r).Inbound)
    (queued : s.userEventCallbackQueue = front ++ r :: rest) :
    ∃ events t, Steps Transition s events t ∧ r ∈ t.delivered := by
  induction front generalizing s with
  | nil =>
      have popped : s.Transition .userPop
          { s with userEventCallbackQueue := rest, jobs := .reporting r :: s.jobs } := by
        simp [Transition, step, queued]
      obtain ⟨events, t, run, delivered⟩ := reached_of_reporting
        (s := { s with userEventCallbackQueue := rest, jobs := .reporting r :: s.jobs })
        List.mem_cons_self arrived
      exact ⟨.userPop :: events, t, .cons popped run, delivered⟩
  | cons c front ih =>
      have popped : s.Transition .userPop
          { s with userEventCallbackQueue := front ++ r :: rest,
                   jobs := .reporting c :: s.jobs } := by
        simp [Transition, step, queued]
      obtain ⟨events, t, run, delivered⟩ := ih
        (s := { s with userEventCallbackQueue := front ++ r :: rest,
                       jobs := .reporting c :: s.jobs }) arrived rfl
      exact ⟨.userPop :: events, t, .cons popped run, delivered⟩

private theorem reached_of_pushed (arrived : (s.chunk r).Inbound) :
    ∃ events t, Steps Transition (s.deliver r) events t ∧ r ∈ t.delivered := by
  have same : s.deliver r = s.pushUser r := by simp [deliver, arrived.first]
  rw [same]
  exact reached_of_queued (s := s.pushUser r) arrived rfl

private theorem reached_of_delivering (delivering : .delivering r ∈ s.jobs)
    (arrived : (s.chunk r).Inbound) :
    ∃ events t, Steps Transition s events t ∧ r ∈ t.delivered := by
  obtain ⟨events, t, run, delivered⟩ := reached_of_pushed
    (s := { s with jobs := s.jobs.erase (.delivering r) }) arrived
  refine ⟨.deliver r :: events, t, .cons ?_ run, delivered⟩
  simp [Transition, step, resume, delivering]

private theorem reached_of_received (received : .received r ∈ s.jobs) (before : r < s.created)
    (arrived : (s.chunk r).Inbound) :
    ∃ events t, Steps Transition s events t ∧ r ∈ t.delivered := by
  have taken : s.Transition (.postRead r)
      ({ s with jobs := s.jobs.erase (.received r) }.receivedPublish r) := by
    simp [Transition, step, resume, received, postRead, arrived.type]
  obtain ⟨events, t, run, delivered⟩ : ∃ events t,
      Steps Transition ({ s with jobs := s.jobs.erase (.received r) }.receivedPublish r) events t ∧
        r ∈ t.delivered := by
    unfold receivedPublish
    split
    case isTrue => exact reached_of_pushed arrived
    case isFalse =>
      refine reached_of_delivering List.mem_cons_self ?_
      have same {x : Chunk} : Function.update s.chunk s.created x r = s.chunk r :=
        Function.update_of_ne (Nat.ne_of_lt before) _ _
      exact same ▸ arrived
  exact ⟨.postRead r :: events, t, .cons taken run, delivered⟩

/-- Where a message received without the DUP bit can be. -/
private theorem place_of_inbound (holds : Holds .places s []) (arrived : (s.chunk r).Inbound)
    (held : r ∈ s.held) :
    r ∈ s.userEventCallbackQueue ∨ .received r ∈ s.jobs ∨ .delivering r ∈ s.jobs ∨
      .reporting r ∈ s.jobs := by
  obtain ⟨seat, placed, rfl⟩ := List.mem_map.mp held
  have fit := (holds.custody.fit seat placed).1
  have state := arrived.state
  simp only [seats, List.mem_append, List.mem_map, List.mem_flatMap] at placed
  obtain ((⟨c, -, rfl⟩ | ⟨c, -, rfl⟩) | ⟨c, queued, rfl⟩) | ⟨job, running, seated⟩ := placed
  · exact absurd (state.symm.trans fit) (by simp)
  · exact absurd (state.symm.trans fit) (by simp)
  · exact .inl queued
  · cases job with
    | received c =>
        obtain rfl := List.mem_singleton.mp seated
        exact .inr (.inl running)
    | delivering c =>
        obtain rfl := List.mem_singleton.mp seated
        exact .inr (.inr (.inl running))
    | reporting c =>
        obtain rfl := List.mem_singleton.mp seated
        exact .inr (.inr (.inr running))
    | acknowledging ack c d =>
        simp only [Job.seats, List.mem_cons, List.not_mem_nil, or_false] at seated
        rcases seated with rfl | rfl
        · exact absurd (state.symm.trans fit.1) (by simp)
        · exact absurd arrived.type fit.2.2
    | writing c =>
        obtain rfl := List.mem_singleton.mp seated
        exact absurd (state.symm.trans fit) (by simp)
    | expired c =>
        obtain rfl := List.mem_singleton.mp seated
        exact absurd (state.symm.trans fit) (by simp)
    | recycling c =>
        obtain rfl := List.mem_singleton.mp seated
        exact absurd (state.symm.trans fit.1) (by simp)

/-- A message received without the DUP bit was or will be handed over. -/
theorem willBeHanded_of_inbound (holds : Holds .places s []) (mem : r ∈ s.inbound) :
    r ∈ s.delivered ∨ s.WillBeHanded r := by
  obtain ⟨before, arrived⟩ := (holds.tally.first r).mp mem
  obtain delivered | held := kept_of_inbound holds mem (.nil s)
  · exact .inl delivered
  refine .inr ⟨fun events t run => kept_of_inbound holds mem run, ?_⟩
  obtain queued | received | delivering | reporting := place_of_inbound holds arrived held
  · obtain ⟨front, rest, split⟩ := List.append_of_mem queued
    exact reached_of_queued arrived split
  · exact reached_of_received received before arrived
  · exact reached_of_delivering delivering arrived
  · exact reached_of_reporting reporting arrived

/-- What reaches the user was received without the DUP bit. -/
theorem preceded_of_atLeastOnce (holds : Holds .places s []) (delivers : s.AtLeastOnce) :
    s.Preceded := by
  intro r answered dup
  obtain ⟨before, received⟩ := holds.tally.answers r answered
  obtain ⟨r', earlier, same, handed⟩ := delivers r answered
  have inbound : r' ∈ s.inbound := by
    rcases handed with delivered | will
    · exact holds.tally.handed r' delivered
    · obtain ⟨later, t, rest, delivered⟩ := will.reached
      exact inbound_of_later rest (Nat.lt_of_le_of_lt earlier before)
        ((holds.places rest).tally.handed r' delivered)
  have first := ((holds.tally.first r').mp inbound).2.first
  have other : r' ≠ r := by
    rintro rfl
    exact absurd (dup.symm.trans first) (by simp)
  exact ⟨r', Nat.lt_of_le_of_ne earlier other, inbound, same⟩

/-- In every run an answered message reaches the user exactly when the packets with
the DUP bit follow a copy without it. -/
theorem atLeastOnce_iff_preceded {events : List Event} {s : Client}
    (run : Steps Transition initial events s) : s.AtLeastOnce ↔ s.Preceded := by
  have holds : Holds .places s [] := Holds.initial.places run
  refine ⟨preceded_of_atLeastOnce holds, ?_⟩
  intro preceded r answered
  obtain ⟨before, received⟩ := holds.tally.answers r answered
  by_cases dup : (s.chunk r).dup = true
  · obtain ⟨r', earlier, inbound, same⟩ := preceded r answered dup
    exact ⟨r', Nat.le_of_lt earlier, same, willBeHanded_of_inbound holds inbound⟩
  · have inbound : r ∈ s.inbound :=
      (holds.tally.first r).mpr ⟨before, received, by simpa using dup⟩
    exact ⟨r, Nat.le_refl r, rfl, willBeHanded_of_inbound holds inbound⟩

/-- A QoS 1 message is received and answered, and received again with the DUP bit. -/
def repeatedDelivery : List Event :=
  [.read { packetType := some .publish, packetId := 7, qos := 1, message := 5 }, .postRead 1,
    .read { packetType := some .publish, packetId := 7, qos := 1, dup := true, message := 5 },
    .postRead 3]

theorem repeatedDelivery_atLeastOnce : ∃ s, Steps Transition initial repeatedDelivery s ∧
    s.answered = [3, 1] ∧ s.AtLeastOnce := by
  obtain ⟨s, run, answered, preceded⟩ : ∃ s, Steps Transition initial repeatedDelivery s ∧
      s.answered = [3, 1] ∧ s.Preceded := by
    refine ⟨_, .cons rfl (.cons rfl (.cons rfl (.cons rfl (.nil _)))), rfl, ?_⟩
    intro r answered dup
    have cases : r = 3 ∨ r = 1 := by
      rcases List.mem_cons.mp answered with rfl | answered
      · exact .inl rfl
      · exact .inr (List.mem_singleton.mp answered)
    rcases cases with rfl | rfl
    · exact ⟨1, by decide, by decide, rfl⟩
    · exact absurd dup (by decide)
  exact ⟨s, run, answered, (atLeastOnce_iff_preceded run).mpr preceded⟩

/-- The first copy was lost on the way; the second one has the DUP bit. -/
def lostFirstCopy : List Event :=
  [.read { packetType := some .publish, packetId := 7, qos := 1, dup := true, message := 5 },
    .postRead 1, .deliver 1]

/-- It is answered and dropped. -/
theorem lostFirstCopy_not_atLeastOnce : ∃ s, Steps Transition initial lostFirstCopy s ∧
    ¬ s.AtLeastOnce := by
  have run : ∃ s, Steps Transition initial lostFirstCopy s ∧ s.answered = [1] ∧
      (s.chunk 1).dup = true ∧ s.inbound = [] :=
    ⟨_, .cons rfl (.cons rfl (.cons rfl (.nil _))), rfl, rfl, rfl⟩
  obtain ⟨s, run, answered, dup, inbound⟩ := run
  refine ⟨s, run, fun delivers => ?_⟩
  obtain ⟨r', -, mem, -⟩ := preceded_of_atLeastOnce (Holds.initial.places run) delivers 1
    (by simp [answered]) dup
  exact absurd mem (by simp [inbound])

end Client

end StDevice.Mqtt
