import StDevice.Mqtt.Frame
import StDevice.Mqtt.Inbound
import StDevice.Mqtt.Sync

/-!
# Waiting for a packet

Every function of a cycle is a run of the client's events, one after the other in one
thread. What holds in every run of the client holds for the synchronous calls too: chunks
are where they belong, and a packet keeps its type, its identifier and its owner.

A packet that is settled is in no queue and in no hands, so nothing happens to it any more
until its call looks at it.
-/

namespace StDevice.Mqtt

open Client Custody Run

namespace Client

variable {s t u : Client} {c : Nat}

/-- Some events lead from one state to the other. -/
def Reaches (s t : Client) : Prop := ∃ events, Steps Transition s events t

theorem Reaches.refl (s : Client) : s.Reaches s := ⟨[], .nil s⟩

theorem Reaches.trans (first : s.Reaches t) (second : t.Reaches u) : s.Reaches u := by
  obtain ⟨events, run⟩ := first
  obtain ⟨more, later⟩ := second
  exact ⟨events ++ more, run.append later⟩

theorem Transition.reaches {e : Event} (transition : s.Transition e t) : s.Reaches t :=
  ⟨[e], .cons transition (.nil t)⟩

/-- A thread goes on at once with the job it has just got. -/
theorem resume_head (s : Client) (j : Job) (k : Client → Client) :
    resume { s with jobs := j :: s.jobs } j k = some (k s) := by
  simp [resume]

theorem reaches_resume {e : Event} {j : Job} {k : Client → Client}
    (steps : step { s with jobs := j :: s.jobs } e =
      resume { s with jobs := j :: s.jobs } j k) :
    Reaches { s with jobs := j :: s.jobs } (k s) :=
  Transition.reaches (steps.trans (resume_head s j k))

/-- One pop and what is done with the chunk. -/
theorem reaches_pair {e f : Event} {k : Client → Client} {j : Job}
    (first : s.Transition e { t with jobs := j :: t.jobs })
    (second : step { t with jobs := j :: t.jobs } f =
      resume { t with jobs := j :: t.jobs } j k) : s.Reaches (k t) :=
  first.reaches.trans (reaches_resume second)

theorem reaches_written {queue : List Nat} (pending : s.writePendingQueue = c :: queue) :
    s.Reaches ({ s with writePendingQueue := queue }.postWrite c) := by
  refine reaches_pair (t := { s with writePendingQueue := queue }) (j := .writing c)
    (e := .writePop) (f := .writeEnd c true) (k := fun s => s.postWrite c) ?_ rfl
  simp [Transition, step, pending]

theorem reaches_notWritten {queue : List Nat} (pending : s.writePendingQueue = c :: queue) :
    s.Reaches ({ s with writePendingQueue := queue }.writeFailed c) := by
  refine reaches_pair (t := { s with writePendingQueue := queue }) (j := .writing c)
    (e := .writePop) (f := .writeEnd c false) (k := fun s => s.writeFailed c) ?_ rfl
  simp [Transition, step, pending]

theorem reaches_retry {expired : Nat → Bool} {queue : List Nat}
    (pops : popBy expired s.ackPendingQueue = some (c, queue)) :
    s.Reaches ({ s with ackPendingQueue := queue }.retry c) := by
  refine reaches_pair (t := { s with ackPendingQueue := queue }) (j := .expired c)
    (e := .expire expired) (f := .retry c) (k := fun s => s.retry c) ?_ rfl
  simp [Transition, step, pops]

theorem reaches_disconnected (s : Client) : s.Reaches s.disconnected :=
  Transition.reaches (e := .disconnected) rfl

theorem reaches_checkAlive (s : Client) : s.Reaches s.checkAlive :=
  Transition.reaches (e := .checkAlive) rfl

theorem reaches_pendingPackets (s : Client) (expired : List (Nat → Bool)) :
    s.Reaches (Link.iotMqttProcessPendingPackets s expired) := by
  induction expired generalizing s with
  | nil => exact .refl s
  | cons expired later ih =>
      unfold Link.iotMqttProcessPendingPackets
      split
      case h_1 c queue pops => exact (reaches_retry pops).trans (ih _)
      case h_2 => exact .refl s

theorem reaches_receivedPublish (s : Client) (r : Nat) :
    (s.receivedPublish r).Reaches (Link.iotMqttProcessReceivedPublish s r) := by
  unfold receivedPublish Link.iotMqttProcessReceivedPublish
  split
  case isTrue => exact .refl _
  case isFalse =>
    exact reaches_resume (e := .deliver r) (j := .delivering r) (k := fun s => s.deliver r)
      (s := { (s.create (s.answerPacket r)).pushWrite s.created with
        answered := if numbered (s.chunk r).qos then r :: s.answered else s.answered }) rfl

theorem reaches_receivedPubrecPubrel (s : Client) (r : Nat) (awaited : MsgType) :
    (s.receivedPubrecPubrel r awaited).Reaches
      (Link.iotMqttProcessReceivedPubrecPubrel s r awaited) := by
  unfold receivedPubrecPubrel Link.iotMqttProcessReceivedPubrecPubrel
  cases popBy (s.hasTypeAndId (some awaited) (s.chunk r).packetId) s.ackPendingQueue with
  | none => exact .refl _
  | some popped =>
      exact reaches_resume (e := .recycle popped.1) (j := .recycling popped.1)
        (k := fun s => s.recycle popped.1)
        (s := { s.destroy r .cycle with ackPendingQueue := popped.2 }) rfl

end Client

namespace Link

variable {s : Link} {c r : Nat}

theorem reaches_hangUp (s : Link) : s.client.Reaches s.hangUp.client :=
  reaches_disconnected s.client

theorem reaches_runWriteStream (s : Link) (written : Bool) :
    s.client.Reaches (s.iotMqttRunWriteStream written).1.client := by
  unfold iotMqttRunWriteStream
  split
  case h_1 => exact .refl _
  case h_2 c queue pending =>
    have sends := reaches_written pending
    have fails := reaches_notWritten pending
    dsimp only
    split
    case isTrue => exact fails
    case isFalse =>
      split
      case isTrue => exact sends
      case isFalse => exact fails.trans (reaches_disconnected _)

theorem reaches_receivedAck (s : Link) (p : Platform) (ackQos : Int) (chunk : List UInt8)
    (r : Nat) (ack awaited : MsgType) :
    (s.client.receivedAck r ack awaited).Reaches
      (s.iotMqttProcessReceivedAck p ackQos chunk r ack awaited).client := by
  unfold receivedAck iotMqttProcessReceivedAck
  cases popBy (s.client.hasTypeAndId (some awaited)
      (awaitedId ack (s.client.chunk r).packetId)) s.client.ackPendingQueue with
  | none => exact .refl _
  | some popped =>
      exact reaches_resume (e := .acknowledge ack r popped.1) (j := .acknowledging ack r popped.1)
        (k := fun s => s.acknowledge ack r popped.1)
        (s := { s.client with ackPendingQueue := popped.2 }) rfl

theorem reaches_postRead (s : Link) (p : Platform) (ackQos : Int) (chunk : List UInt8)
    (r : Nat) : (s.client.postRead r).Reaches
      (s.iotMqttProcessPostRead p ackQos chunk r).client := by
  unfold postRead iotMqttProcessPostRead
  cases (s.client.chunk r).packetType with
  | none => exact .refl _
  | some type =>
      cases type with
      | publish => exact reaches_receivedPublish _ _
      | pubrec | pubrel => exact reaches_receivedPubrecPubrel _ _ _
      | connack | puback | suback | unsuback | pubcomp | pingresp =>
          exact reaches_receivedAck s p ackQos chunk r _ _
      | _ => exact .refl _

/-- A packet that was read is the newest chunk, and a job of the thread that read it. -/
theorem reaches_arrive (s : Link) (p : Platform) (strayId : Nat) (net : Net)
    (packet : Received) :
    s.client.Reaches
      ((s.arrive p strayId net packet).client.postRead s.client.created) := by
  refine reaches_pair (t := (s.arrive p strayId net packet).client)
    (j := .received s.client.created) (e := .read (readFields p strayId packet))
    (f := .postRead s.client.created) (k := fun t => t.postRead s.client.created) ?_ rfl
  rfl

theorem reaches_runReadStream (s : Link) (p : Platform) (reading : Reading) :
    s.client.Reaches (s.iotMqttRunReadStream p reading).1.client := by
  unfold iotMqttRunReadStream
  split
  case isTrue => exact .refl _
  case isFalse =>
    split
    case h_1 => exact reaches_hangUp s
    case h_2 => exact .refl _
    case h_3 =>
      split
      case h_1 => exact (reaches_arrive s p _ _ _).trans (reaches_postRead _ _ _ _ _)
      case h_2 => exact reaches_hangUp s

theorem reaches_checkAlive (s : Link) (silent : Bool) :
    s.client.Reaches (s.iotMqttCheckAlive silent).1.client := by
  have checks := Client.reaches_checkAlive s.client
  unfold iotMqttCheckAlive
  split
  case isTrue =>
    split
    case isTrue => exact checks.trans (reaches_disconnected _)
    case isFalse => exact checks
  case isFalse => exact .refl _

end Link

/-! ## The packet of a call -/

theorem Request.packetType_ne (q : Request) :
    q.packetType ≠ .publish ∧ q.packetType ≠ .pubrec := by
  cases q <;> decide

namespace Client

variable {s t : Client} {c id : Nat} {q : Request}

/-- The chunk is the packet of a call that waits for it. -/
structure Ours (s : Client) (c : Nat) (q : Request) (id : Nat) : Prop where
  holds : Holds .places s []
  old : c < s.created
  packetType : (s.chunk c).packetType = some q.packetType
  packetId : (s.chunk c).packetId = id
  owned : (s.chunk c).haveOwner = true
  notPing : c ≠ pingPacket

namespace Ours

theorem step {e : Event} (ours : s.Ours c q id) (transition : s.Transition e t) :
    t.Ours c q id := by
  have moves := transition.moves ours.holds ours.old
  have type : (s.chunk c).packetType = some q.packetType := ours.packetType
  refine ⟨ours.holds.places (.cons transition (.nil t)), ?_, ?_, ?_, ?_, ours.notPing⟩
  · have later : s.created ≤ t.created := (inbound_new (m := 0) transition (Nat.le_refl _)).1
    exact Nat.lt_of_lt_of_le ours.old later
  · rw [moves.packetType_of_ne (by simpa [type] using q.packetType_ne.1)
      (by simpa [type] using q.packetType_ne.2), type]
  · rw [moves.packetId, ours.packetId]
  · rw [moves.haveOwner, ours.owned]

theorem reaches (ours : s.Ours c q id) (reaches : s.Reaches t) : t.Ours c q id := by
  obtain ⟨events, run⟩ := reaches
  exact run.invariant (I := fun u => u.Ours c q id) (fun _ _ _ ours => ours.step) ours

/-- A settled packet is nowhere. -/
theorem not_held (ours : s.Ours c q id) (final : ¬ (s.chunk c).Pending) : c ∉ s.held :=
  ours.holds.outside_of_final ours.owned final

/-- Nothing happens to a settled packet. -/
theorem settled (ours : s.Ours c q id) (final : ¬ (s.chunk c).Pending) (reaches : s.Reaches t) :
    t.chunk c = s.chunk c := by
  obtain ⟨events, run⟩ := reaches
  have kept := run.invariant (I := fun u => u.Ours c q id ∧ u.chunk c = s.chunk c) ?_ ⟨ours, rfl⟩
  · exact kept.2
  rintro u e v ⟨ours, same⟩ transition
  have unhandled : ¬ u.Handles e c := by
    intro handles
    rcases transition.held_of_handles handles with held | rfl
    · exact ours.not_held (same ▸ final) held
    · exact ours.notPing handles
  exact ⟨ours.step transition, (transition.unmoved ours.old unhandled).chunk.trans same⟩

theorem notMem_queues (ours : s.Ours c q id) (final : ¬ (s.chunk c).Pending) :
    c ∉ s.writePendingQueue ∧ c ∉ s.ackPendingQueue := by
  have nowhere := ours.not_held final
  rw [mem_held, not_or, not_or] at nowhere
  exact ⟨nowhere.1, nowhere.2.1⟩

/-- The packet of a new call. -/
theorem request (holds : Holds .places s []) :
    (s.request q).Ours s.created q (s.requestPacket q).packetId := by
  have transition : s.Transition (.request q) (s.request q) := rfl
  have chunk : (s.request q).chunk s.created = s.requestPacket q := Function.update_self _ _ _
  refine ⟨holds.places (.cons transition (.nil _)), Nat.lt_succ_self _, ?_, ?_, ?_, ?_⟩
  · rw [chunk, requestPacket]
  · rw [chunk]
  · rw [chunk, requestPacket]
  · exact Nat.ne_of_gt holds.ledger.ping.1

end Ours

end Client

namespace Link

variable {s : Link} {c id : Nat} {q : Request} {p : Platform}

/-- The chunk and its return code are the same. -/
structure Same (c : Nat) (s t : Link) : Prop where
  chunk : t.client.chunk c = s.client.chunk c
  returnCode : t.returnCode c = s.returnCode c

theorem Same.trans {t u : Link} (first : Same c s t) (second : Same c t u) : Same c s u :=
  ⟨second.chunk.trans first.chunk, second.returnCode.trans first.returnCode⟩

/-- Writing another chunk leaves the return code alone. -/
theorem returnCode_runWriteStream (written : Bool) (absent : c ∉ s.client.writePendingQueue) :
    (s.iotMqttRunWriteStream written).1.returnCode c = s.returnCode c := by
  unfold iotMqttRunWriteStream
  split
  case h_1 => rfl
  case h_2 d queue pending =>
    have other : c ≠ d := by
      rintro rfl
      exact absent (pending ▸ List.mem_cons_self)
    dsimp only
    split
    case isTrue => exact Function.update_of_ne other _ _
    case isFalse =>
      split
      case isTrue => rfl
      case isFalse => exact Function.update_of_ne other _ _

theorem returnCode_receivedAck (ackQos : Int) (chunk : List UInt8) (r : Nat)
    (ack awaited : MsgType) (absent : c ∉ s.client.ackPendingQueue) :
    (s.iotMqttProcessReceivedAck p ackQos chunk r ack awaited).returnCode c = s.returnCode c := by
  unfold iotMqttProcessReceivedAck
  split
  case h_1 d queue pops =>
    have other : c ≠ d := by
      rintro rfl
      exact absent ((popBy_perm pops).1.mem_iff.mpr List.mem_cons_self)
    dsimp only
    cases ackReturnCode p ackQos ack chunk with
    | none => rfl
    | some code => exact Function.update_of_ne other _ _
  case h_2 => rfl

theorem returnCode_postRead (ackQos : Int) (chunk : List UInt8) (r : Nat)
    (absent : c ∉ s.client.ackPendingQueue) :
    (s.iotMqttProcessPostRead p ackQos chunk r).returnCode c = s.returnCode c := by
  unfold iotMqttProcessPostRead
  split
  case h_4 =>
    split
    case h_1 => exact returnCode_receivedAck _ _ _ _ _ absent
    case h_2 => rfl
  all_goals rfl

/-- A packet that acknowledges another chunk leaves the return code alone. -/
theorem returnCode_runReadStream (reading : Reading) (absent : c ∉ s.client.ackPendingQueue) :
    (s.iotMqttRunReadStream p reading).1.returnCode c = s.returnCode c := by
  unfold iotMqttRunReadStream
  split
  case isTrue => rfl
  case isFalse =>
    split
    case h_1 => rfl
    case h_2 => rfl
    case h_3 =>
      split
      case h_1 => exact returnCode_postRead (s := s.arrive p _ _ _) _ _ _ absent
      case h_2 => rfl

/-- What a cycle does after reading. -/
def rest (s : Link) (cycle : Cycle) : Link × Int :=
  { s with client := iotMqttProcessPendingPackets s.client cycle.expired }.iotMqttCheckAlive
    cycle.silent

theorem reaches_rest (s : Link) (cycle : Cycle) : s.client.Reaches (s.rest cycle).1.client :=
  (reaches_pendingPackets s.client cycle.expired).trans
    (reaches_checkAlive
      { s with client := iotMqttProcessPendingPackets s.client cycle.expired } cycle.silent)

/-- Nothing is read, and no return code is set. -/
theorem rest_quiet (s : Link) (cycle : Cycle) :
    (s.rest cycle).1.returnCode = s.returnCode ∧ (s.rest cycle).1.heard = s.heard := by
  unfold rest iotMqttCheckAlive
  split
  case isTrue => split <;> exact ⟨rfl, rfl⟩
  case isFalse => exact ⟨rfl, rfl⟩

theorem runCycle_eq (s : Link) (p : Platform) (cycle : Cycle) :
    s.iotMqttRunCycle p cycle =
      if (s.iotMqttRunWriteStream cycle.written).2 < 0 then s.iotMqttRunWriteStream cycle.written
      else if ((s.iotMqttRunWriteStream cycle.written).1.iotMqttRunReadStream p
          cycle.reading).2 < 0 then
        (s.iotMqttRunWriteStream cycle.written).1.iotMqttRunReadStream p cycle.reading
      else ((s.iotMqttRunWriteStream cycle.written).1.iotMqttRunReadStream p cycle.reading).1.rest
        cycle :=
  rfl

theorem reaches_runCycle (s : Link) (p : Platform) (cycle : Cycle) :
    s.client.Reaches (s.iotMqttRunCycle p cycle).1.client := by
  have writes := s.reaches_runWriteStream cycle.written
  have reads := writes.trans (reaches_runReadStream _ p cycle.reading)
  rw [runCycle_eq]
  split
  case isTrue => exact writes
  case isFalse =>
    split
    case isTrue => exact reads
    case isFalse => exact reads.trans (reaches_rest _ cycle)

/-! ## A settled packet -/

section Settled

variable (ours : s.client.Ours c q id) (final : ¬ (s.client.chunk c).Pending)

include ours final

theorem same_runWriteStream (written : Bool) : Same c s (s.iotMqttRunWriteStream written).1 :=
  ⟨ours.settled final (s.reaches_runWriteStream written),
    returnCode_runWriteStream written (ours.notMem_queues final).1⟩

theorem same_runReadStream (reading : Reading) : Same c s (s.iotMqttRunReadStream p reading).1 :=
  ⟨ours.settled final (s.reaches_runReadStream p reading),
    returnCode_runReadStream reading (ours.notMem_queues final).2⟩

theorem same_rest (cycle : Cycle) : Same c s (s.rest cycle).1 :=
  ⟨ours.settled final (s.reaches_rest cycle), by rw [(s.rest_quiet cycle).1]⟩

theorem same_runCycle (cycle : Cycle) : Same c s (s.iotMqttRunCycle p cycle).1 := by
  have writes := same_runWriteStream ours final cycle.written
  have written := ours.reaches (s.reaches_runWriteStream cycle.written)
  have reads := same_runReadStream (p := p) written (writes.chunk ▸ final) cycle.reading
  have read := written.reaches (reaches_runReadStream _ p cycle.reading)
  rw [runCycle_eq]
  split
  case isTrue => exact writes
  case isFalse =>
    split
    case isTrue => exact writes.trans reads
    case isFalse =>
      have still : ¬ (((s.iotMqttRunWriteStream cycle.written).1.iotMqttRunReadStream p
          cycle.reading).1.client.chunk c).Pending := by
        rw [reads.chunk, writes.chunk]
        exact final
      exact (writes.trans reads).trans (same_rest read still cycle)

end Settled

/-- The call for an acknowledged packet returns its return code at the next cycle, whatever
is read before. -/
theorem waitFor_acknowledged {turns : List Turn} (ours : s.client.Ours c q id)
    (acknowledged : (s.client.chunk c).chunkState = .acknowledged)
    (cycles : ∃ cycle, .cycle cycle ∈ turns) :
    ∃ t, s.iotMqttWaitFor p c turns = some (t, s.returnCode c) := by
  have final : ¬ (s.client.chunk c).Pending := by simp [Chunk.Pending, acknowledged]
  induction turns generalizing s with
  | nil =>
      obtain ⟨cycle, mem⟩ := cycles
      exact absurd mem (by simp)
  | cons turn turns ih =>
      cases turn with
      | cycle cycle =>
          have same := same_runCycle (p := p) ours final cycle
          have result : (s.iotMqttRunCycle p cycle).1.waitResult c
              (s.iotMqttRunCycle p cycle).2 = some (s.returnCode c) := by
            unfold waitResult
            rw [same.chunk, acknowledged]
            exact congrArg some same.returnCode
          refine ⟨(s.turn p c (.cycle cycle)).1, ?_⟩
          unfold iotMqttWaitFor Link.turn
          simp only [result]
      | listen reading =>
          have same := same_runReadStream (p := p) ours final reading
          have later : ∃ cycle, .cycle cycle ∈ turns := by
            obtain ⟨cycle, mem⟩ := cycles
            exact ⟨cycle, by simpa using mem⟩
          obtain ⟨t, returns⟩ := ih (ours.reaches (s.reaches_runReadStream p reading))
            (by rw [same.chunk, acknowledged]) later (by rw [same.chunk]; exact final)
          exact ⟨t, by rw [← same.returnCode, ← returns]; rfl⟩

/-! ## The turns of a call that waits -/

/-- A round that goes on changes nothing after its cycle. -/
theorem poll_of_waits {rc : Int} (waits : s.waitResult c rc = none) :
    s.client.poll c (s.client.chunk c).chunkState (rc < 0) = s.client := by
  unfold waitResult at waits
  unfold poll
  cases state : (s.client.chunk c).chunkState with
  | writePending | ackPending =>
      simp only [state] at waits ⊢
      by_cases failed : rc < 0
      · simp only [failed, true_and, ite_eq_right_iff, reduceCtorEq, imp_false,
          Option.not_isSome_iff_eq_none] at waits
        simp [failed, waits]
      · simp [failed]
  | writeCompleted | acknowledged | queueDestroyed | writeFail | timeout =>
      simp [state] at waits
  | init | readCompleted | eventConnected | eventDisconnected => rfl

theorem turn_waits {turn : Turn} {t : Link} (waits : s.turn p c turn = (t, none)) :
    s.client.Reaches t.client := by
  cases turn with
  | listen reading =>
      obtain rfl := (Prod.mk.inj waits).1
      exact s.reaches_runReadStream p reading
  | cycle cycle =>
      obtain ⟨rfl, goesOn⟩ := Prod.mk.inj waits
      dsimp only
      rw [poll_of_waits goesOn]
      exact s.reaches_runCycle p cycle

theorem reaches_stillWaits {turns : List Turn} {t : Link}
    (waits : s.stillWaits p c turns = some t) : s.client.Reaches t.client := by
  induction turns generalizing s with
  | nil =>
      obtain rfl := Option.some.inj waits
      exact .refl _
  | cons turn turns ih =>
      unfold stillWaits at waits
      split at waits
      case h_1 => cases waits
      case h_2 u goesOn => exact (turn_waits goesOn).trans (ih waits)

theorem waitFor_append {turns more : List Turn} {t : Link}
    (waits : s.stillWaits p c turns = some t) :
    s.iotMqttWaitFor p c (turns ++ more) = t.iotMqttWaitFor p c more := by
  induction turns generalizing s with
  | nil =>
      obtain rfl := Option.some.inj waits
      rfl
  | cons turn turns ih =>
      unfold stillWaits at waits
      split at waits
      case h_1 => cases waits
      case h_2 u goesOn =>
        rw [List.cons_append, iotMqttWaitFor, goesOn]
        exact ih waits

end Link

end StDevice.Mqtt
