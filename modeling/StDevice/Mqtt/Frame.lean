import StDevice.Mqtt.Preservation

/-!
# What a step leaves alone

A step of the client handles one chunk, or two. Every other chunk keeps its content,
and is queued or in the hands of a thread after the step if it was before; it may
have gone from the one to the other.

What a step does to the chunks it handles is little too: `Chunk.Moves` collects it.
The owner, the packet id and the QoS of a packet never change.
-/

namespace StDevice.Mqtt

open Custody

namespace Client

variable {s t u : Client} {c d r : Nat}

theorem mem_held : d ∈ s.held ↔ d ∈ s.writePendingQueue ∨ d ∈ s.ackPendingQueue ∨
    d ∈ s.userEventCallbackQueue ∨ ∃ job ∈ s.jobs, d ∈ items job.seats := by
  have jobs : d ∈ items (s.jobs.flatMap Job.seats) ↔ ∃ job ∈ s.jobs, d ∈ items job.seats := by
    simp only [items, List.map_flatMap, List.mem_flatMap]
  rw [← jobs]
  simp [held, items, seats]

/-- The chunk keeps its content, and is held after a step if it was before. -/
structure Unmoved (d : Nat) (s t : Client) : Prop where
  chunk : t.chunk d = s.chunk d
  held : d ∈ t.held ↔ d ∈ s.held

namespace Unmoved

theorem refl (s : Client) : Unmoved d s s := ⟨rfl, Iff.rfl⟩

theorem trans (first : Unmoved d s t) (second : Unmoved d t u) : Unmoved d s u :=
  ⟨second.chunk.trans first.chunk, second.held.trans first.held⟩

/-- Only the contents, the queues and the jobs matter. -/
theorem of_same (chunk : t.chunk = s.chunk) (seats : t.seats = s.seats) : Unmoved d s t := by
  refine ⟨by rw [chunk], ?_⟩
  unfold Client.held
  rw [seats]

theorem create (s : Client) (x : Chunk) (old : d < s.created) : Unmoved d s (s.create x) :=
  ⟨Function.update_of_ne (Nat.ne_of_lt old) _ _, Iff.rfl⟩

theorem store (s : Client) (x : Chunk) (other : d ≠ c) : Unmoved d s (s.store c x) :=
  ⟨Function.update_of_ne other _ _, Iff.rfl⟩

theorem destroy (s : Client) (c : Nat) (agent : Agent) : Unmoved d s (s.destroy c agent) :=
  ⟨rfl, Iff.rfl⟩

theorem pushWrite (s : Client) (other : d ≠ c) : Unmoved d s (s.pushWrite c) := by
  refine ⟨rfl, ?_⟩
  simp [mem_held, Client.pushWrite, other]

theorem pushAck (s : Client) (other : d ≠ c) : Unmoved d s (s.pushAck c) := by
  refine ⟨rfl, ?_⟩
  simp [mem_held, Client.pushAck, other]

theorem pushUser (s : Client) (other : d ≠ c) : Unmoved d s (s.pushUser c) := by
  refine ⟨rfl, ?_⟩
  simp [mem_held, Client.pushUser, other]

theorem putJob (s : Client) (job : Job) (other : d ∉ items job.seats) :
    Unmoved d s { s with jobs := job :: s.jobs } := by
  refine ⟨rfl, ?_⟩
  simp [mem_held, other]

theorem takeJob (s : Client) (job : Job) (other : d ∉ items job.seats) :
    Unmoved d s { s with jobs := s.jobs.erase job } := by
  refine ⟨rfl, ?_⟩
  have same : (∃ j ∈ s.jobs.erase job, d ∈ items j.seats) ↔ ∃ j ∈ s.jobs, d ∈ items j.seats := by
    constructor
    · rintro ⟨j, mem, seated⟩
      exact ⟨j, List.mem_of_mem_erase mem, seated⟩
    · rintro ⟨j, mem, seated⟩
      refine ⟨j, (List.mem_erase_of_ne ?_).mpr mem, seated⟩
      rintro rfl
      exact other seated
  simp only [mem_held, same]

/-- A chunk goes from a queue into a job. -/
theorem popJob {queue rest : List Nat} {job : Job} (perm : queue.Perm (c :: rest))
    (seated : d ∈ items job.seats ↔ d = c) :
    (d ∈ rest ∨ d ∈ items job.seats) ↔ d ∈ queue := by
  rw [perm.mem_iff, List.mem_cons, seated, or_comm]

theorem popWrite {rest : List Nat} {job : Job} (perm : s.writePendingQueue.Perm (c :: rest))
    (seated : d ∈ items job.seats ↔ d = c) :
    Unmoved d s { s with writePendingQueue := rest, jobs := job :: s.jobs } := by
  refine ⟨rfl, ?_⟩
  have moved := popJob perm seated
  simp only [mem_held, List.exists_mem_cons_iff]
  tauto

theorem popAck {rest : List Nat} {job : Job} (perm : s.ackPendingQueue.Perm (c :: rest))
    (seated : d ∈ items job.seats ↔ d = c) :
    Unmoved d s { s with ackPendingQueue := rest, jobs := job :: s.jobs } := by
  refine ⟨rfl, ?_⟩
  have moved := popJob perm seated
  simp only [mem_held, List.exists_mem_cons_iff]
  tauto

theorem popUser {rest : List Nat} {job : Job} (perm : s.userEventCallbackQueue.Perm (c :: rest))
    (seated : d ∈ items job.seats ↔ d = c) :
    Unmoved d s { s with userEventCallbackQueue := rest, jobs := job :: s.jobs } := by
  refine ⟨rfl, ?_⟩
  have moved := popJob perm seated
  simp only [mem_held, List.exists_mem_cons_iff]
  tauto

theorem awaitAck (s : Client) (other : d ≠ c) : Unmoved d s (s.awaitAck c) :=
  (store s _ other).trans (pushAck _ other)

theorem giveUp (s : Client) (x : Chunk) (other : d ≠ c) : Unmoved d s (s.giveUp c x) := by
  unfold Client.giveUp
  split
  · exact store s x other
  · exact (store s x other).trans (pushUser _ other)

theorem postWrite (s : Client) (other : d ≠ c) : Unmoved d s (s.postWrite c) := by
  unfold Client.postWrite
  split
  case h_7 =>
    split
    · split
      · exact store s _ other
      · exact (store s _ other).trans (destroy _ _ _)
    · exact awaitAck s other
  case h_8 =>
    split
    · exact store s _ other
    · exact destroy s _ _
  case h_9 => exact destroy s _ _
  all_goals exact awaitAck s other

theorem deliver (s : Client) (other : d ≠ r) : Unmoved d s (s.deliver r) := by
  unfold Client.deliver
  split
  · exact destroy s _ _
  · exact pushUser s other

theorem receivedPublish (s : Client) (old : d < s.created) (other : d ≠ r) :
    Unmoved d s (s.receivedPublish r) := by
  unfold Client.receivedPublish
  split
  · exact deliver s other
  · have pushed : Unmoved d s ((s.create (s.answerPacket r)).pushWrite s.created) :=
      (create s _ old).trans (pushWrite _ (Nat.ne_of_lt old))
    have queued := pushed.trans (putJob _ (.delivering r) (by simpa [items, Job.seats] using other))
    exact queued.trans (of_same rfl rfl)

theorem receivedAck (s : Client) (ack awaited : MsgType) (other : d ≠ r) :
    Unmoved d s (s.receivedAck r ack awaited) := by
  unfold Client.receivedAck
  split
  case h_1 c queue pops =>
    exact popAck (popBy_perm pops).1 (by simp [items, Job.seats, other])
  case h_2 => exact destroy s _ _

theorem receivedPubrecPubrel (s : Client) (awaited : MsgType) :
    Unmoved d s (s.receivedPubrecPubrel r awaited) := by
  unfold Client.receivedPubrecPubrel
  split
  case h_1 c queue pops =>
    have popped : Unmoved d s { s with ackPendingQueue := queue, jobs := .recycling c :: s.jobs } :=
      popAck (popBy_perm pops).1 (by simp [items, Job.seats])
    exact popped.trans (of_same rfl rfl)
  case h_2 => exact destroy s _ _

theorem postRead (s : Client) (old : d < s.created) (other : d ≠ r) :
    Unmoved d s (s.postRead r) := by
  unfold Client.postRead
  split
  · exact receivedPublish s old other
  · exact receivedPubrecPubrel s _
  · exact receivedPubrecPubrel s _
  · split
    · exact receivedAck s _ _ other
    · exact destroy s _ _
  · exact destroy s _ _

theorem acknowledge (s : Client) (ack : MsgType) (r : Nat) (other : d ≠ c) :
    Unmoved d s (s.acknowledge ack r c) := by
  unfold Client.acknowledge
  split
  · exact (store s _ other).trans (destroy _ _ _)
  · exact of_same rfl rfl

theorem retry (s : Client) (other : d ≠ c) : Unmoved d s (s.retry c) := by
  unfold Client.retry
  split
  · exact giveUp s _ other
  · split
    · exact (store s _ other).trans (pushWrite _ other)
    · exact giveUp s _ other

end Unmoved

/-- The chunks a step handles: those its thread goes on with, those a call that gives
up takes out of a queue, and the ping. -/
def Handles (s : Client) : Event → Nat → Prop
  | .poll c seen failed, d => failed = true ∧ ∃ queue, s.abandons c seen = some (d, queue)
  | .writeEnd c _, d | .postRead c, d | .deliver c, d | .recycle c, d | .retry c, d
  | .report c, d => d = c
  | .acknowledge _ r c, d => d = r ∨ d = c
  | .checkAlive, d => d = pingPacket
  | _, _ => False

private theorem notMem_single {job : Job} {role : Role} (single : job.seats = [⟨c, role⟩])
    (other : d ≠ c) : d ∉ items job.seats := by
  rw [single]
  simpa [items] using other

theorem Unmoved.poll {seen : ChunkState} {failed : Bool}
    (other : ¬ s.Handles (.poll c seen failed) d) : Unmoved d s (s.poll c seen failed) := by
  unfold Client.poll
  split
  case h_1 =>
    split
    case isFalse => exact .refl s
    case isTrue fails =>
      split
      case h_1 c' queue pops =>
        have different : d ≠ c' := by
          rintro rfl
          exact other ⟨fails, queue, pops⟩
        have perm := (popBy_perm pops).1
        refine ⟨rfl, ?_⟩
        simp only [mem_held, Client.leave, Client.destroy, perm.mem_iff, List.mem_cons, different,
          false_or]
      case h_2 => exact .refl s
  case h_2 =>
    split
    case isFalse => exact .refl s
    case isTrue fails =>
      split
      case h_1 c' queue pops =>
        have different : d ≠ c' := by
          rintro rfl
          exact other ⟨fails, queue, pops⟩
        have perm := (popBy_perm pops).1
        refine ⟨rfl, ?_⟩
        simp only [mem_held, Client.leave, Client.destroy, perm.mem_iff, List.mem_cons, different,
          false_or]
      case h_2 => exact .refl s
  case h_8 => exact .refl s
  all_goals exact .of_same rfl rfl

/-- A step leaves the chunks alone that it does not handle. -/
theorem Transition.unmoved {e : Event} (transition : s.Transition e t) (old : d < s.created)
    (other : ¬ s.Handles e d) : Unmoved d s t := by
  cases transition.stepped with
  | publish isSync qos =>
      have pushed : Unmoved d s ((s.create (s.publishPacket isSync qos)).pushWrite s.created) :=
        (Unmoved.create s _ old).trans (.pushWrite _ (Nat.ne_of_lt old))
      exact pushed.trans (.of_same rfl rfl)
  | request q =>
      have pushed : Unmoved d s ((s.create (s.requestPacket q)).pushWrite s.created) :=
        (Unmoved.create s _ old).trans (.pushWrite _ (Nat.ne_of_lt old))
      exact pushed.trans (.of_same rfl rfl)
  | poll failed waits sees => exact .poll other
  | writePop pending => exact .popWrite (List.Perm.of_eq pending) (by simp [items, Job.seats])
  | written job =>
      exact (Unmoved.takeJob s _ (notMem_single rfl other)).trans (.postWrite _ other)
  | notWritten job =>
      exact (Unmoved.takeJob s _ (notMem_single rfl other)).trans (.giveUp _ _ other)
  | disconnected => exact (Unmoved.create s _ old).trans (.pushUser _ (Nat.ne_of_lt old))
  | read packet =>
      have queued := (Unmoved.create s (received packet) old).trans
        (.putJob _ (.received s.created) (by simpa [items, Job.seats] using Nat.ne_of_lt old))
      exact queued.trans (.of_same rfl rfl)
  | postRead job =>
      exact (Unmoved.takeJob s _ (notMem_single rfl other)).trans (.postRead _ old other)
  | @acknowledge ack r c job =>
      obtain ⟨notAnswer, different⟩ := not_or.mp other
      have elsewhere : d ∉ items (Job.seats (.acknowledging ack r c)) := by
        simp [items, Job.seats, notAnswer, different]
      exact (Unmoved.takeJob s _ elsewhere).trans (.acknowledge _ ack r different)
  | deliver job =>
      exact (Unmoved.takeJob s _ (notMem_single rfl other)).trans (.deliver _ other)
  | @recycle c job =>
      have taken := Unmoved.takeJob s (.recycling c) (notMem_single rfl other)
      exact (taken.trans (.store _ _ other)).trans (.pushWrite _ other)
  | expire pops => exact .popAck (popBy_perm pops).1 (by simp [items, Job.seats])
  | retry job =>
      exact (Unmoved.takeJob s _ (notMem_single rfl other)).trans (.retry _ other)
  | userPop pending => exact .popUser (List.Perm.of_eq pending) (by simp [items, Job.seats])
  | report job =>
      exact (Unmoved.takeJob s _ (notMem_single rfl other)).trans (.of_same rfl rfl)
  | checkAlive =>
      have notPing : d ≠ pingPacket := other
      unfold checkAlive
      split
      · exact (Unmoved.store s _ notPing).trans (.pushWrite _ notPing)
      · exact (Unmoved.store s _ notPing).trans (.pushWrite _ notPing)
      · exact .store s _ notPing
      · exact .refl s

end Client

/-- What a step may do to a chunk: count a retry and set the state, or turn a packet
that waits for its acknowledgement into the next one of its exchange. Received packets
stay as they are, and a QoS 0 message does not wait for an acknowledgement. -/
inductive Chunk.Moves (x : Chunk) : Chunk → Prop
  | same : x.Moves x
  | state (n : Nat) (state : ChunkState) (sent : x.chunkState ≠ .readCompleted)
      (unread : state ≠ .readCompleted)
      (awaits : state = .ackPending → x.packetType = some .publish → x.qos ≠ 0) :
      x.Moves { x with retryCount := n, chunkState := state }
  | recycled (pending : x.chunkState = .ackPending)
      (type : x.packetType = some .publish ∨ x.packetType = some .pubrec) :
      x.Moves (Client.recycled x)

namespace Chunk.Moves

variable {x y : Chunk}

theorem haveOwner (moves : x.Moves y) : y.haveOwner = x.haveOwner := by
  cases moves <;> rfl

theorem packetId (moves : x.Moves y) : y.packetId = x.packetId := by
  cases moves <;> rfl

theorem qos (moves : x.Moves y) : y.qos = x.qos := by
  cases moves <;> rfl

theorem packetType_of_ne (moves : x.Moves y) (publish : x.packetType ≠ some .publish)
    (pubrec : x.packetType ≠ some .pubrec) : y.packetType = x.packetType := by
  cases moves with
  | same => rfl
  | state => rfl
  | recycled _ type => exact absurd type (not_or.mpr ⟨publish, pubrec⟩)

/-- Only the state is set. -/
theorem setState (state : ChunkState) (sent : x.chunkState ≠ .readCompleted)
    (unread : state ≠ .readCompleted)
    (awaits : state = .ackPending → x.packetType = some .publish → x.qos ≠ 0) :
    x.Moves { x with chunkState := state } :=
  .state x.retryCount state sent unread awaits

end Chunk.Moves

namespace Client

variable {s t : Client} {c d r : Nat}

/-- One chunk is set; the others stay as they are. -/
theorem moves_store {x : Chunk} (moves : (s.chunk c).Moves x) :
    (s.chunk d).Moves ((s.store c x).chunk d) := by
  by_cases same : d = c
  · subst same
    simpa only [store, Function.update_self] using moves
  · rw [(Unmoved.store s x same).chunk]
    exact .same

theorem moves_giveUp {x : Chunk} (moves : (s.chunk c).Moves x) :
    (s.chunk d).Moves ((s.giveUp c x).chunk d) := by
  unfold giveUp
  split
  · exact moves_store moves
  · exact moves_store moves

theorem moves_postWrite (pending : (s.chunk c).chunkState = .writePending) :
    (s.chunk d).Moves ((s.postWrite c).chunk d) := by
  have sent : (s.chunk c).chunkState ≠ .readCompleted := by simp [pending]
  have completes : (s.chunk d).Moves ((s.setState c .writeCompleted).chunk d) :=
    moves_store (.setState _ sent (by simp) (by simp))
  have awaits (acked : (s.chunk c).packetType = some .publish → (s.chunk c).qos ≠ 0) :
      (s.chunk d).Moves ((s.awaitAck c).chunk d) :=
    moves_store (.setState _ sent (by simp) fun _ => acked)
  unfold postWrite
  split
  case h_7 =>
    split
    · split
      · exact completes
      · exact completes
    · exact awaits fun _ => by assumption
  case h_8 =>
    split
    · exact completes
    · exact .same
  case h_9 => exact .same
  all_goals exact awaits (by simp_all)

theorem moves_writeFailed (pending : (s.chunk c).chunkState = .writePending) :
    (s.chunk d).Moves ((s.writeFailed c).chunk d) := by
  have sent : (s.chunk c).chunkState ≠ .readCompleted := by simp [pending]
  exact moves_giveUp (.setState _ sent (by simp) (by simp))

theorem chunk_receivedPublish (old : d < s.created) :
    (s.receivedPublish r).chunk d = s.chunk d := by
  unfold receivedPublish deliver
  split
  · split <;> rfl
  · exact Function.update_of_ne (Nat.ne_of_lt old) _ _

/-- Reading changes no chunk there is. -/
theorem chunk_postRead (s : Client) (old : d < s.created) :
    (s.postRead r).chunk d = s.chunk d := by
  unfold postRead
  split
  · exact chunk_receivedPublish old
  · unfold receivedPubrecPubrel
    split <;> rfl
  · unfold receivedPubrecPubrel
    split <;> rfl
  · split
    · unfold receivedAck
      split <;> rfl
    · rfl
  · rfl

theorem moves_retry (pending : (s.chunk c).chunkState = .ackPending) :
    (s.chunk d).Moves ((s.retry c).chunk d) := by
  have sent : (s.chunk c).chunkState ≠ .readCompleted := by simp [pending]
  unfold retry
  split
  · exact moves_giveUp (.setState _ sent (by simp) (by simp))
  · split
    · exact moves_store (.state _ _ sent (by simp) (by simp))
    · exact moves_giveUp (.state _ _ sent (by simp) (by simp))

theorem moves_checkAlive : (s.chunk d).Moves (s.checkAlive.chunk d) := by
  unfold checkAlive
  split
  case h_1 idle => exact moves_store (.state _ _ (by simp [idle]) (by simp) (by simp))
  case h_2 idle => exact moves_store (.state _ _ (by simp [idle]) (by simp) (by simp))
  case h_3 idle => exact moves_store (.setState _ (by simp [idle]) (by simp) (by simp))
  case h_4 => exact .same

/-- What a step does to the chunks there are. -/
theorem Transition.moves {e : Event} (transition : s.Transition e t) (holds : Holds .places s [])
    (old : d < s.created) : (s.chunk d).Moves (t.chunk d) := by
  by_cases handled : s.Handles e d
  case neg =>
    rw [(transition.unmoved old handled).chunk]
    exact .same
  cases transition.stepped with
  | @poll c seen failed waits sees =>
      have unchanged : (s.poll c seen failed).chunk = s.chunk := by
        unfold poll
        split <;> first | rfl | (split <;> first | rfl | (split <;> rfl))
      rw [unchanged]
      exact .same
  | written job => exact moves_postWrite (holds.takeJob job).fit.1
  | notWritten job => exact moves_writeFailed (holds.takeJob job).fit.1
  | @postRead r job =>
      rw [chunk_postRead { s with jobs := s.jobs.erase (.received r) } old]
      exact .same
  | @acknowledge ack r c job =>
      have pending : (s.chunk c).chunkState = .ackPending := (holds.takeJob job).fit.1.1
      unfold acknowledge
      split
      · exact moves_store (.setState _ (by simp [pending]) (by simp) (by simp))
      · exact .same
  | deliver job =>
      unfold deliver
      split <;> exact .same
  | recycle job =>
      obtain ⟨pending, type⟩ := (holds.takeJob job).fit.1
      exact moves_store (.recycled pending type)
  | retry job => exact moves_retry (holds.takeJob job).fit.1
  | report job => exact .same
  | checkAlive => exact moves_checkAlive
  | _ => exact handled.elim

/-- The chunk a step creates. -/
def Creates (s : Client) : Event → Chunk → Prop
  | .publish isSync qos, x => x = s.publishPacket isSync qos
  | .request q, x => x = s.requestPacket q
  | .disconnected, x => x = { chunkState := .eventDisconnected }
  | .read packet, x => x = received packet
  | .postRead r, x => x = s.answerPacket r
  | _, _ => False

/-- No chunk is created and no packet id drawn. -/
structure Quiet (s t : Client) : Prop where
  created : t.created = s.created
  nextPacketid : t.nextPacketid = s.nextPacketid

theorem quiet_postWrite (s : Client) (c : Nat) : Quiet s (s.postWrite c) := by
  unfold postWrite
  split
  case h_7 =>
    split
    · split <;> exact ⟨rfl, rfl⟩
    · exact ⟨rfl, rfl⟩
  case h_8 => split <;> exact ⟨rfl, rfl⟩
  all_goals exact ⟨rfl, rfl⟩

theorem quiet_giveUp (s : Client) (c : Nat) (x : Chunk) : Quiet s (s.giveUp c x) := by
  unfold giveUp
  split <;> exact ⟨rfl, rfl⟩

theorem created_postRead (s : Client) (below : d < (s.postRead r).created) :
    d < s.created ∨ d = s.created ∧ (s.postRead r).chunk d = s.answerPacket r := by
  unfold postRead at below ⊢
  split at below
  case h_1 =>
    unfold receivedPublish deliver at below ⊢
    split at below
    · split at below <;> exact .inl below
    case isFalse answered =>
      rw [if_neg answered]
      rcases Nat.lt_succ_iff_lt_or_eq.mp below with old | rfl
      · exact .inl old
      · exact .inr ⟨rfl, Function.update_self _ _ _⟩
  case h_2 =>
    unfold receivedPubrecPubrel at below
    split at below <;> exact .inl below
  case h_3 =>
    unfold receivedPubrecPubrel at below
    split at below <;> exact .inl below
  case h_4 =>
    unfold receivedAck at below
    split at below
    · split at below <;> exact .inl below
    · exact .inl below
  case h_5 => exact .inl below

theorem quiet_poll (s : Client) (c : Nat) (seen : ChunkState) (failed : Bool) :
    Quiet s (s.poll c seen failed) := by
  unfold poll
  split
  case h_1 | h_2 =>
    split
    · split <;> exact ⟨rfl, rfl⟩
    · exact ⟨rfl, rfl⟩
  all_goals exact ⟨rfl, rfl⟩

theorem quiet_retry (s : Client) (c : Nat) : Quiet s (s.retry c) := by
  unfold retry
  split
  · exact quiet_giveUp s c _
  · split
    · exact ⟨rfl, rfl⟩
    · exact quiet_giveUp s c _

theorem quiet_acknowledge (s : Client) (ack : MsgType) (r c : Nat) :
    Quiet s (s.acknowledge ack r c) := by
  unfold acknowledge
  split <;> exact ⟨rfl, rfl⟩

theorem quiet_deliver (s : Client) (r : Nat) : Quiet s (s.deliver r) := by
  unfold deliver
  split <;> exact ⟨rfl, rfl⟩

theorem quiet_checkAlive (s : Client) : Quiet s s.checkAlive := by
  unfold checkAlive
  split <;> exact ⟨rfl, rfl⟩

theorem nextPacketid_postRead (s : Client) (r : Nat) :
    (s.postRead r).nextPacketid = s.nextPacketid := by
  unfold postRead
  split
  · unfold receivedPublish
    split
    · exact (quiet_deliver s r).nextPacketid
    · rfl
  · unfold receivedPubrecPubrel
    split <;> rfl
  · unfold receivedPubrecPubrel
    split <;> rfl
  · unfold receivedAck
    split
    · split <;> rfl
    · rfl
  · rfl

theorem Quiet.resume {job : Job} (quiet : Quiet { s with jobs := s.jobs.erase job } t) :
    Quiet s t :=
  ⟨quiet.created, quiet.nextPacketid⟩

/-- The events that may create a chunk. -/
def mayCreate : Event → Bool
  | .publish _ _ | .request _ | .disconnected | .read _ | .postRead _ => true
  | _ => false

/-- Every other event creates none, and draws no packet id. -/
theorem Transition.quiet {e : Event} (transition : s.Transition e t)
    (other : mayCreate e = false) : Quiet s t := by
  cases transition.stepped with
  | poll failed waits sees => exact quiet_poll s _ _ failed
  | writePop pending => exact ⟨rfl, rfl⟩
  | written job => exact .resume (quiet_postWrite _ _)
  | notWritten job => exact .resume (quiet_giveUp _ _ _)
  | acknowledge job => exact .resume (quiet_acknowledge _ _ _ _)
  | deliver job => exact .resume (quiet_deliver _ _)
  | recycle job => exact ⟨rfl, rfl⟩
  | expire pops => exact ⟨rfl, rfl⟩
  | retry job => exact .resume (quiet_retry _ _)
  | userPop pending => exact ⟨rfl, rfl⟩
  | report job => exact ⟨rfl, rfl⟩
  | checkAlive => exact quiet_checkAlive s
  | _ => exact absurd other (by simp [mayCreate])

/-- A chunk that is there after a step was there before, or the step created it. -/
theorem Transition.creates {e : Event} (transition : s.Transition e t) (below : d < t.created) :
    d < s.created ∨ d = s.created ∧ s.Creates e (t.chunk d) := by
  have newest {x : Chunk} (last : d < s.created + 1) :
      d < s.created ∨ d = s.created ∧ (s.create x).chunk d = x := by
    rcases Nat.lt_succ_iff_lt_or_eq.mp last with old | rfl
    · exact .inl old
    · exact .inr ⟨rfl, Function.update_self _ _ _⟩
  by_cases quiet : mayCreate e = false
  case pos => exact .inl ((transition.quiet quiet).created ▸ below)
  cases transition.stepped with
  | publish isSync qos => exact newest below
  | request q => exact newest below
  | disconnected => exact newest below
  | read packet => exact newest below
  | @postRead r job => exact created_postRead { s with jobs := s.jobs.erase (.received r) } below
  | _ => exact absurd rfl quiet

/-- What a step handles is held, unless it is the ping. -/
theorem Transition.held_of_handles {e : Event} (transition : s.Transition e t)
    (handles : s.Handles e d) : d ∈ s.held ∨ e = .checkAlive := by
  have resumed {job : Job} (mem : job ∈ s.jobs) (seated : d ∈ items job.seats) : d ∈ s.held :=
    mem_held.mpr (.inr (.inr (.inr ⟨job, mem, seated⟩)))
  have single {c : Nat} {role : Role} {job : Job} (mem : job ∈ s.jobs)
      (seats : job.seats = [⟨c, role⟩]) (same : d = c) : d ∈ s.held :=
    resumed mem (by simp [seats, items, same])
  cases transition.stepped with
  | @poll c seen failed waits sees =>
      obtain ⟨-, queue, pops⟩ := handles
      cases seen with
      | writePending => exact .inl (mem_held.mpr (.inl ((popBy_perm pops).1.mem_iff.mpr (by simp))))
      | ackPending =>
          exact .inl (mem_held.mpr (.inr (.inl ((popBy_perm pops).1.mem_iff.mpr (by simp)))))
      | _ => exact absurd pops (by simp [abandons])
  | acknowledge job =>
      refine .inl (resumed job ?_)
      rcases handles with rfl | rfl <;> simp [items, Job.seats]
  | checkAlive => exact .inr rfl
  | written job => exact .inl (single job rfl handles)
  | notWritten job => exact .inl (single job rfl handles)
  | postRead job => exact .inl (single job rfl handles)
  | deliver job => exact .inl (single job rfl handles)
  | recycle job => exact .inl (single job rfl handles)
  | retry job => exact .inl (single job rfl handles)
  | report job => exact .inl (single job rfl handles)
  | _ => exact handles.elim

end Client

end StDevice.Mqtt
