import StDevice.Mqtt.Ownership
import StDevice.Mqtt.Frame
import StDevice.Mqtt.Inbound

/-!
# How often a packet is written

A packet that is not acknowledged in time goes back to the write queue, and a packet that
is answered goes back as the next one of its exchange, with the retries counted so far. What
is left to be written of a chunk is therefore bounded by its place, its type and its retries,
and a step that puts the chunk back spends part of that. A chunk that was given up does
not come back.
-/

namespace StDevice.Mqtt

open Custody Run

/-- A packet that was handed to the network, with the type it had. -/
structure Sent where
  chunk : Nat
  packetType : Option MsgType
  deriving DecidableEq, Repr

namespace Client

variable {s t : Client} {e : Event} {c d : Nat}

/-- The packets a step hands to the network. A chunk taken out of the write queue counts,
also where the network then fails. -/
def sends (s : Client) : Event → List Sent
  | .writePop =>
      match s.writePendingQueue with
      | [] => []
      | c :: _ => [⟨c, (s.chunk c).packetType⟩]
  | _ => []

/-- What one packet of a type counts. -/
def weight (counts : Option MsgType → Bool) (type : Option MsgType) : Nat := (counts type).toNat

/-- What may still be written of a packet once it is out of the write queue. -/
def later (counts : Option MsgType → Bool) (x : Chunk) : Nat :=
  let next := recycledType x.packetType
  if x.packetType = some .connect then 0
  else
    (mqttPublishRetry - 1 - x.retryCount) *
      max (weight counts x.packetType) (weight counts next) +
      if next = x.packetType then 0 else weight counts next

/-- What may still be written of a chunk. -/
def budget (counts : Option MsgType → Bool) (c : Nat) (s : Client) : Nat :=
  s.writePendingQueue.count c * weight counts (s.chunk c).packetType + later counts (s.chunk c)

/-- A chunk keeps its type, loses no retries, and is not put into the write queue. -/
structure Rests (c : Nat) (s t : Client) : Prop where
  packetType : (t.chunk c).packetType = (s.chunk c).packetType
  retryCount : (s.chunk c).retryCount ≤ (t.chunk c).retryCount
  queued : t.writePendingQueue.count c ≤ s.writePendingQueue.count c

/-- What a step means for the writing of a chunk. -/
inductive Advances (c : Nat) (s : Client) (e : Event) (t : Client) : Prop
  | rests (silent : ∀ sent ∈ s.sends e, sent.chunk ≠ c) (rests : Rests c s t)
  | written (sends : s.sends e = [⟨c, (s.chunk c).packetType⟩]) (chunk : t.chunk c = s.chunk c)
      (queued : s.writePendingQueue.count c = t.writePendingQueue.count c + 1)
  | retried (silent : s.sends e = []) (type : (s.chunk c).packetType ≠ some .connect)
      (again : (s.chunk c).retryCount + 1 < mqttPublishRetry)
      (chunk : t.chunk c = retried (s.chunk c) .writePending)
      (queued : t.writePendingQueue.count c = s.writePendingQueue.count c + 1)
  | recycled (silent : s.sends e = [])
      (type : (s.chunk c).packetType = some .publish ∨ (s.chunk c).packetType = some .pubrec)
      (chunk : t.chunk c = recycled (s.chunk c)) (absent : s.writePendingQueue.count c = 0)
      (queued : t.writePendingQueue.count c = 1)

namespace Rests

theorem refl (c : Nat) (s : Client) : Rests c s s := ⟨rfl, Nat.le_refl _, Nat.le_refl _⟩

theorem of_chunk (chunk : t.chunk c = s.chunk c)
    (queued : t.writePendingQueue.count c ≤ s.writePendingQueue.count c) : Rests c s t :=
  ⟨by rw [chunk], Nat.le_of_eq (by rw [chunk]), queued⟩

/-- Another chunk is put into the write queue. -/
theorem of_push (chunk : t.chunk c = s.chunk c)
    (queue : t.writePendingQueue = s.writePendingQueue ++ [d]) (other : c ≠ d) : Rests c s t := by
  refine of_chunk chunk (Nat.le_of_eq ?_)
  rw [queue, List.count_append, List.count_singleton, if_neg (by simpa using Ne.symm other),
    Nat.add_zero]

/-- A chunk is set. -/
theorem store {x : Chunk} (type : x.packetType = (s.chunk d).packetType)
    (retries : (s.chunk d).retryCount ≤ x.retryCount) : Rests c s (s.store d x) := by
  by_cases same : c = d
  · subst same
    have chunk : (s.store c x).chunk c = x := Function.update_self _ _ _
    exact ⟨by rw [chunk, type], by rw [chunk]; exact retries, Nat.le_refl _⟩
  · exact of_chunk (Unmoved.store s x same).chunk (Nat.le_refl _)

theorem setState (s : Client) (d : Nat) (state : ChunkState) : Rests c s (s.setState d state) :=
  store rfl (Nat.le_refl _)

/-- The write queue and the chunks are all that matters. -/
theorem same {u : Client} (rests : Rests c s t) (chunk : u.chunk = t.chunk)
    (queue : u.writePendingQueue = t.writePendingQueue) : Rests c s u :=
  ⟨by rw [chunk, rests.packetType], by rw [chunk]; exact rests.retryCount,
    by rw [queue]; exact rests.queued⟩

theorem giveUp {x : Chunk} (type : x.packetType = (s.chunk d).packetType)
    (retries : (s.chunk d).retryCount ≤ x.retryCount) : Rests c s (s.giveUp d x) := by
  have stored : Rests c s (s.store d x) := store type retries
  rw [Client.giveUp]
  split
  · exact stored
  · exact stored.same rfl rfl

theorem postWrite (s : Client) (d : Nat) : Rests c s (s.postWrite d) := by
  have awaits : Rests c s (s.awaitAck d) := (setState s d .ackPending).same rfl rfl
  have completes := setState (c := c) s d .writeCompleted
  rw [Client.postWrite]
  split
  case h_7 =>
    split
    · split
      · exact completes
      · exact completes.same rfl rfl
    · exact awaits
  case h_8 =>
    split
    · exact completes
    · exact (refl c s).same rfl rfl
  case h_9 => exact (refl c s).same rfl rfl
  all_goals exact awaits

theorem deliver (s : Client) (r : Nat) : Rests c s (s.deliver r) := by
  rw [Client.deliver]
  split
  · exact (refl c s).same rfl rfl
  · exact (refl c s).same rfl rfl

theorem receivedPublish (old : c < s.created) (r : Nat) : Rests c s (s.receivedPublish r) := by
  have chunk := chunk_receivedPublish (r := r) old
  rw [Client.receivedPublish] at chunk ⊢
  split
  · exact deliver s r
  · rename_i answered
    rw [if_neg answered] at chunk
    exact of_push chunk rfl (Nat.ne_of_lt old)

theorem receivedPubrecPubrel (s : Client) (r : Nat) (awaited : MsgType) :
    Rests c s (s.receivedPubrecPubrel r awaited) := by
  rw [Client.receivedPubrecPubrel]
  split
  · exact (refl c s).same rfl rfl
  · exact (refl c s).same rfl rfl

theorem postRead (old : c < s.created) (r : Nat) : Rests c s (s.postRead r) := by
  rw [Client.postRead]
  split
  · exact receivedPublish old r
  · exact receivedPubrecPubrel s r _
  · exact receivedPubrecPubrel s r _
  · split
    · rw [Client.receivedAck]
      split
      · exact (refl c s).same rfl rfl
      · exact (refl c s).same rfl rfl
    · exact (refl c s).same rfl rfl
  · exact (refl c s).same rfl rfl

theorem acknowledge (s : Client) (ack : MsgType) (r d : Nat) :
    Rests c s (s.acknowledge ack r d) := by
  rw [Client.acknowledge]
  split
  · exact (setState s d .acknowledged).same rfl rfl
  · exact (refl c s).same rfl rfl

/-- A call that gives up takes a chunk out of a queue at most. -/
theorem poll (s : Client) (d : Nat) (seen : ChunkState) (failed : Bool) :
    Rests c s (s.poll d seen failed) := by
  unfold Client.poll
  split
  case h_1 =>
    split
    case isTrue =>
      split
      case h_1 c' queue pops =>
        have popped := (popBy_perm pops).1.count_eq c
        refine of_chunk rfl (popped ▸ ?_)
        exact List.count_le_count_cons
      case h_2 => exact refl c s
    case isFalse => exact refl c s
  case h_2 =>
    split
    case isTrue =>
      split
      · exact (refl c s).same rfl rfl
      · exact refl c s
    case isFalse => exact refl c s
  case h_8 => exact refl c s
  all_goals exact (refl c s).same rfl rfl

/-- The ping is another chunk. -/
theorem checkAlive (other : c ≠ pingPacket) (s : Client) : Rests c s s.checkAlive := by
  have chunk (x : Chunk) : (s.store pingPacket x).chunk c = s.chunk c :=
    (Unmoved.store s x other).chunk
  rw [Client.checkAlive]
  split
  · exact of_push (chunk _) rfl other
  · exact of_push (chunk _) rfl other
  · exact setState s pingPacket .init
  · exact refl c s

end Rests

/-- Taking a job leaves everything else as it is. -/
theorem Rests.of_job {job : Job} (rests : Rests c { s with jobs := s.jobs.erase job } t) :
    Rests c s t :=
  ⟨rests.packetType, rests.retryCount, rests.queued⟩

theorem count_pushWrite (s : Client) (c : Nat) :
    (s.pushWrite c).writePendingQueue.count c = s.writePendingQueue.count c + 1 := by
  rw [pushWrite, List.count_append, List.count_singleton_self]

/-- A packet that goes on waiting, or is given up, in a step that writes none. -/
private theorem Advances.of_silent (silent : s.sends e = []) (rests : Rests c s t) :
    Advances c s e t := by
  refine .rests ?_ rests
  intro sent mem
  rw [silent] at mem
  cases mem

/-- An expired packet is put back or given up. -/
theorem advances_retry (s : Client) (c d : Nat) : Advances c s (.retry d) (s.retry d) := by
  have quits (x : Chunk) (type : x.packetType = (s.chunk d).packetType)
      (retries : (s.chunk d).retryCount ≤ x.retryCount) :
      Advances c s (.retry d) (s.giveUp d x) := .of_silent rfl (.giveUp type retries)
  unfold retry
  split
  case h_1 => exact quits _ rfl (Nat.le_refl _)
  case h_2 other =>
    split
    case isTrue again =>
      by_cases own : c = d
      · subst own
        refine .retried rfl (fun connect => other connect) again (Function.update_self _ _ _) ?_
        exact count_pushWrite (s.store c _) c
      · exact .of_silent rfl (.of_push (Function.update_of_ne own _ _) rfl own)
    case isFalse => exact quits _ rfl (Nat.le_succ _)

/-- So is one that a thread has taken before. -/
theorem Advances.of_job {job : Job}
    (advances : Advances c { s with jobs := s.jobs.erase job } (.retry d) t) :
    Advances c s (.retry d) t := by
  cases advances with
  | rests silent rests => exact .rests silent rests.of_job
  | written sends => exact absurd sends (by simp [Client.sends])
  | retried silent type again chunk queued => exact .retried silent type again chunk queued
  | recycled silent type chunk absent queued => exact .recycled silent type chunk absent queued

/-- What a step means for a chunk that is there before it. -/
theorem Transition.advances (transition : s.Transition e t) (holds : Holds .places s [])
    (old : c < s.created) (notPing : c ≠ pingPacket) : Advances c s e t := by
  have new : c ≠ s.created := Nat.ne_of_lt old
  cases transition.stepped with
  | publish isSync qos =>
      exact .of_silent rfl (.of_push (Function.update_of_ne new _ _) rfl new)
  | request q => exact .of_silent rfl (.of_push (Function.update_of_ne new _ _) rfl new)
  | poll failed waits sees => exact .of_silent rfl (.poll s _ _ failed)
  | @writePop d queue pending =>
      have sends : s.sends .writePop = [⟨d, (s.chunk d).packetType⟩] := by
        rw [Client.sends, pending]
      by_cases own : d = c
      · subst own
        refine .written sends rfl ?_
        rw [pending, List.count_cons_self]
      · refine .rests ?_ (.of_chunk rfl ?_)
        · intro sent mem
          rw [sends] at mem
          rw [List.mem_singleton.mp mem]
          exact own
        · rw [pending]
          exact List.count_le_count_cons
  | written job => exact .of_silent rfl (Rests.postWrite _ _).of_job
  | @notWritten d job =>
      have kept : Rests c { s with jobs := s.jobs.erase (.writing d) }
          ({ s with jobs := s.jobs.erase (.writing d) }.writeFailed d) :=
        Rests.giveUp rfl (Nat.le_refl _)
      exact .of_silent rfl kept.of_job
  | disconnected =>
      exact .of_silent rfl (.of_chunk (Function.update_of_ne new _ _) (Nat.le_refl _))
  | read packet =>
      exact .of_silent rfl (.of_chunk (Function.update_of_ne new _ _) (Nat.le_refl _))
  | @postRead r job =>
      have kept : Rests c { s with jobs := s.jobs.erase (.received r) }
          ({ s with jobs := s.jobs.erase (.received r) }.postRead r) :=
        Rests.postRead (s := { s with jobs := s.jobs.erase (.received r) }) old r
      exact .of_silent rfl kept.of_job
  | acknowledge job => exact .of_silent rfl (Rests.acknowledge _ _ _ _).of_job
  | deliver job => exact .of_silent rfl (Rests.deliver _ _).of_job
  | @recycle d job =>
      by_cases own : c = d
      · subst own
        have taken := holds.takeJob job
        have absent : s.writePendingQueue.count c = 0 := by
          refine List.count_eq_zero.mpr fun mem => taken.custody.notMem ?_
          exact mem_held.mpr (.inl mem)
        have pushed := count_pushWrite ({ s with jobs := s.jobs.erase (.recycling c) }.store c
          (Client.recycled (s.chunk c))) c
        refine .recycled rfl taken.fit.1.2 (Function.update_self _ _ _) absent (pushed.trans ?_)
        exact congrArg (· + 1) absent
      · exact .of_silent rfl (.of_push (Function.update_of_ne own _ _) rfl own)
  | expire pops => exact .of_silent rfl ((Rests.refl c s).same rfl rfl)
  | retry job => exact (advances_retry _ c _).of_job
  | userPop pending => exact .of_silent rfl ((Rests.refl c s).same rfl rfl)
  | report job => exact .of_silent rfl ((Rests.refl c s).same rfl rfl)
  | checkAlive => exact .of_silent rfl (.checkAlive notPing s)

/-! ## What is left to be written -/

section

variable {counts : Option MsgType → Bool}

/-- A lost retry leaves less. -/
theorem later_le {x y : Chunk} (type : y.packetType = x.packetType)
    (retries : x.retryCount ≤ y.retryCount) : later counts y ≤ later counts x := by
  rw [later, later, type]
  split
  · exact Nat.le_refl _
  · refine Nat.add_le_add_right (Nat.mul_le_mul_right _ ?_) _
    omega

/-- A retry that is not the last pays for the packet that is put back. -/
theorem later_retried {x : Chunk} (type : x.packetType ≠ some .connect)
    (again : x.retryCount + 1 < mqttPublishRetry) :
    weight counts x.packetType + later counts (retried x .writePending) ≤ later counts x := by
  have most := Nat.le_max_left (weight counts x.packetType)
    (weight counts (recycledType x.packetType))
  have left : mqttPublishRetry - 1 - x.retryCount =
      (mqttPublishRetry - 1 - (x.retryCount + 1)) + 1 := by omega
  rw [later, later, retried]
  dsimp only
  rw [if_neg type, if_neg type, left, Nat.add_mul, Nat.one_mul]
  omega

/-- The next packet of an exchange is paid for as well. -/
theorem later_recycled {x : Chunk}
    (type : x.packetType = some .publish ∨ x.packetType = some .pubrec) :
    weight counts (recycled x).packetType + later counts (recycled x) ≤ later counts x := by
  have general (type next : Option MsgType) (other : type ≠ some .connect)
      (more : next ≠ some .connect) (differs : next ≠ type) (here : recycledType type = next)
      (ends : recycledType next = next) (is : x.packetType = type) :
      weight counts (recycled x).packetType + later counts (recycled x) ≤ later counts x := by
    have most : max (weight counts next) (weight counts next) ≤
        max (weight counts type) (weight counts next) := by
      rw [Nat.max_self]
      exact Nat.le_max_right _ _
    have paid := Nat.mul_le_mul_left (mqttPublishRetry - 1 - x.retryCount) most
    have becomes : (recycled x).packetType = next := by rw [recycled, is, here]
    have retries : (recycled x).retryCount = x.retryCount := rfl
    rw [later, later, becomes, retries, is, here, ends]
    rw [if_neg other, if_neg more, if_pos rfl, if_neg differs]
    omega
  obtain publish | pubrec := type
  · exact general _ _ (by decide) (by decide) (by decide) rfl rfl publish
  · exact general _ _ (by decide) (by decide) (by decide) rfl rfl pubrec

/-- The packets of a chunk among those that count. -/
def ofChunk (counts : Option MsgType → Bool) (c : Nat) (sent : Sent) : Bool :=
  sent.chunk == c && counts sent.packetType

theorem countP_ofChunk_eq_zero {sends : List Sent} (silent : ∀ sent ∈ sends, sent.chunk ≠ c) :
    sends.countP (ofChunk counts c) = 0 := by
  refine List.countP_eq_zero.mpr fun sent mem own => ?_
  exact silent sent mem (eq_of_beq (Bool.and_eq_true_iff.mp own).1)

/-- A step pays for what it writes. -/
theorem Advances.budget_le (advances : Advances c s e t) :
    (s.sends e).countP (ofChunk counts c) + budget counts c t ≤ budget counts c s := by
  cases advances with
  | rests silent rests =>
      have left : later counts (t.chunk c) ≤ later counts (s.chunk c) :=
        later_le rests.packetType rests.retryCount
      have queued := Nat.mul_le_mul_right (weight counts (s.chunk c).packetType) rests.queued
      rw [countP_ofChunk_eq_zero silent, budget, budget, rests.packetType]
      omega
  | written sends chunk queued =>
      have own : ofChunk counts c ⟨c, (s.chunk c).packetType⟩ = counts (s.chunk c).packetType := by
        rw [ofChunk, beq_self_eq_true, Bool.true_and]
      have once : [(⟨c, (s.chunk c).packetType⟩ : Sent)].countP (ofChunk counts c) =
          weight counts (s.chunk c).packetType := by
        rw [List.countP_singleton, own, weight]
        cases counts (s.chunk c).packetType <;> rfl
      rw [sends, once, budget, budget, chunk, queued, Nat.add_mul, Nat.one_mul]
      omega
  | retried silent type again chunk queued =>
      have paid : weight counts (s.chunk c).packetType +
          later counts (Client.retried (s.chunk c) .writePending) ≤ later counts (s.chunk c) :=
        later_retried type again
      have same : (Client.retried (s.chunk c) .writePending).packetType =
          (s.chunk c).packetType := rfl
      rw [silent, List.countP_nil, budget, budget, chunk, same, queued, Nat.add_mul, Nat.one_mul]
      omega
  | recycled silent type chunk absent queued =>
      have paid : weight counts (Client.recycled (s.chunk c)).packetType +
          later counts (Client.recycled (s.chunk c)) ≤ later counts (s.chunk c) :=
        later_recycled type
      rw [silent, List.countP_nil, budget, budget, chunk, absent, queued, Nat.zero_mul, Nat.one_mul]
      omega

end

/-! ## Runs -/

theorem lt_created_of_held (holds : Holds .places s []) (mem : c ∈ s.held) : c < s.created := by
  obtain ⟨seat, seated, rfl⟩ := List.mem_map.mp mem
  exact (holds.custody.alive seat seated).1

/-- A packet that is written is one of the write queue. -/
theorem queued_of_sends {sent : Sent} (mem : sent ∈ s.sends e) :
    sent.chunk ∈ s.writePendingQueue := by
  cases e with
  | writePop =>
      rw [sends] at mem
      split at mem
      case h_1 => cases mem
      case h_2 pending =>
        rw [List.mem_singleton.mp mem, pending]
        exact List.mem_cons_self
  | _ => cases mem

/-- What may still be written of a chunk, also before there is one. -/
def allowance (counts : Option MsgType → Bool) (bound c : Nat) (s : Client) : Nat :=
  if c < s.created then budget counts c s else bound

/-- The rule for runs: if `bound` covers every new chunk, it covers what a run writes of one. -/
theorem sent_le {counts : Option MsgType → Bool} {bound : Nat}
    (covers : ∀ type, weight counts type + later counts { packetType := type } ≤ bound)
    {events : List Event} {sent : List Sent} (emits : Emits Transition sends initial events sent t)
    (notPing : c ≠ pingPacket) : sent.countP (ofChunk counts c) ≤ bound := by
  have keep (s : Client) (e : Event) (t : Client) (holds : Holds .places s [])
      (transition : s.Transition e t) : Holds .places t [] ∧
        (s.sends e).countP (ofChunk counts c) + allowance counts bound c t ≤
          allowance counts bound c s := by
    have held := holds.places (.cons transition (.nil t))
    refine ⟨held, ?_⟩
    by_cases old : c < s.created
    · have still : c < t.created :=
        Nat.lt_of_lt_of_le old (inbound_new (m := 0) transition (Nat.le_refl _)).1
      rw [allowance, allowance, if_pos old, if_pos still]
      exact (transition.advances holds old notPing).budget_le
    · have silent : ∀ sent ∈ s.sends e, sent.chunk ≠ c := by
        rintro sent mem rfl
        exact old (lt_created_of_held holds (mem_held.mpr (.inl (queued_of_sends mem))))
      rw [countP_ofChunk_eq_zero silent, Nat.zero_add, allowance, allowance, if_neg old]
      split
      case isFalse => exact Nat.le_refl _
      case isTrue =>
        have queues := held.queued_nodup
        have once : t.writePendingQueue.count c ≤ 1 := by
          rw [queued, List.append_assoc] at queues
          exact List.nodup_iff_count_le_one.mp queues.of_append_left c
        have queued := Nat.mul_le_mul_right (weight counts (t.chunk c).packetType) once
        have covered := covers (t.chunk c).packetType
        have most : later counts (t.chunk c) ≤
            later counts { packetType := (t.chunk c).packetType } :=
          later_le rfl (Nat.zero_le _)
        rw [budget]
        omega
  have start : allowance counts bound c initial = bound := by
    refine if_neg fun old => notPing ?_
    exact Nat.lt_one_iff.mp old
  have total := emits.countP_le keep Holds.initial
  omega

/-- What a run writes of a chunk. -/
structure Bounded (sent : List Sent) (c : Nat) : Prop where
  connect : sent.count ⟨c, some .connect⟩ ≤ 1
  publish : sent.count ⟨c, some .publish⟩ ≤ mqttPublishRetry
  subscribe : sent.count ⟨c, some .subscribe⟩ ≤ mqttPublishRetry
  unsubscribe : sent.count ⟨c, some .unsubscribe⟩ ≤ mqttPublishRetry
  /-- also when it becomes a PUBREL or a PUBCOMP on the way -/
  whole : sent.countP (fun packet => packet.chunk = c) ≤ mqttPublishRetry + 1

theorem count_eq_countP_ofChunk (sent : List Sent) (c : Nat) (type : Option MsgType) :
    sent.count ⟨c, type⟩ = sent.countP (ofChunk (· == type) c) := by
  refine List.countP_congr fun packet _ => ?_
  rw [ofChunk, Bool.and_eq_true, beq_iff_eq, beq_iff_eq, beq_iff_eq, Sent.mk.injEq]

theorem bounded_of_emits {events : List Event} {sent : List Sent}
    (emits : Emits Transition sends initial events sent t) (notPing : c ≠ pingPacket) :
    Bounded sent c := by
  have ofType (type : MsgType) (bound : Nat)
      (covers : ∀ other, weight (· == some type) other +
        later (· == some type) { packetType := other } ≤ bound) :
      sent.count ⟨c, some type⟩ ≤ bound := by
    rw [count_eq_countP_ofChunk]
    exact sent_le covers emits notPing
  have all : sent.countP (fun packet => packet.chunk = c) =
      sent.countP (ofChunk (fun _ => true) c) := by
    refine List.countP_congr fun packet _ => ?_
    rw [ofChunk, Bool.and_true, decide_eq_true_eq, beq_iff_eq]
  refine ⟨ofType _ _ ?_, ofType _ _ ?_, ofType _ _ ?_, ofType _ _ ?_, ?_⟩
  case refine_5 =>
    rw [all]
    refine sent_le ?_ emits notPing
    rintro (_ | type)
    · decide
    · cases type <;> decide
  all_goals
    rintro (_ | type)
    · decide
    · cases type <;> decide

/-- A chunk that neither waits to be written nor to be acknowledged stays as it is, and is not
written. -/
theorem Transition.settled (transition : s.Transition e t) (holds : Holds .places s [])
    (old : c < s.created) (notPing : c ≠ pingPacket) (final : ¬ (s.chunk c).Pending) :
    t.chunk c = s.chunk c ∧ ∀ sent ∈ s.sends e, sent.chunk ≠ c := by
  constructor
  · by_cases handled : s.Handles e c
    case neg => exact (transition.unmoved old handled).chunk
    cases transition.stepped with
    | @poll d seen failed waits sees =>
        unfold poll
        split <;> first | rfl | (split <;> first | rfl | (split <;> rfl))
    | written job =>
        obtain rfl := handled
        exact absurd (.inl (holds.takeJob job).fit.1) final
    | notWritten job =>
        obtain rfl := handled
        exact absurd (.inl (holds.takeJob job).fit.1) final
    | @postRead r job => exact chunk_postRead { s with jobs := s.jobs.erase (.received r) } old
    | @acknowledge ack r d job =>
        by_cases own : c = d
        · subst own
          exact absurd (.inr (holds.takeJob job).fit.1.1) final
        · exact (Unmoved.acknowledge _ ack r own).chunk
    | deliver job =>
        unfold deliver
        split <;> rfl
    | recycle job =>
        obtain rfl := handled
        exact absurd (.inr (holds.takeJob job).fit.1.1) final
    | retry job =>
        obtain rfl := handled
        exact absurd (.inr (holds.takeJob job).fit.1) final
    | report job => rfl
    | checkAlive => exact absurd handled notPing
    | _ => exact handled.elim
  · rintro sent mem rfl
    have seated : (⟨sent.chunk, .writeQueue⟩ : Seat Nat Role) ∈ [] ++ s.seats := by
      simp [seats, queued_of_sends mem]
    exact final (.inl (holds.custody.fit _ seated).1)

/-- The chunk has no retry left when it expires. -/
def LastExpiry (x : Chunk) : Prop :=
  x.packetType = some .connect ∨ mqttPublishRetry ≤ x.retryCount + 1

/-- A packet that expires for the last time is given up. -/
theorem final_of_lastExpiry (transition : s.Transition (.retry c) t)
    (last : LastExpiry (s.chunk c)) : ¬ (t.chunk c).Pending := by
  have quits (s : Client) {x : Chunk} (state : x.chunkState = .timeout) :
      ¬ ((s.giveUp c x).chunk c).Pending := by
    have chunk : (s.giveUp c x).chunk c = x := by
      unfold giveUp
      split <;> exact Function.update_self _ _ _
    rw [chunk]
    rintro (writing | acknowledging)
    · exact absurd (state.symm.trans writing) (by decide)
    · exact absurd (state.symm.trans acknowledging) (by decide)
  cases transition.stepped with
  | retry job =>
      unfold retry
      split
      case h_1 => exact quits _ rfl
      case h_2 other =>
        have spent : ¬ (s.chunk c).retryCount + 1 < mqttPublishRetry := by
          obtain connect | spent := last
          · exact absurd connect other
          · exact Nat.not_lt.mpr spent
        rw [if_neg spent]
        exact quits _ rfl

/-- What was given up is not written again. -/
theorem silent_of_final {events : List Event} {sent : List Sent} (holds : Holds .places s [])
    (old : c < s.created) (notPing : c ≠ pingPacket) (final : ¬ (s.chunk c).Pending)
    (emits : Emits Transition sends s events sent t) : ∀ packet ∈ sent, packet.chunk ≠ c := by
  have keep (u : Client) (e : Event) (v : Client)
      (kept : Holds .places u [] ∧ c < u.created ∧ ¬ (u.chunk c).Pending)
      (transition : u.Transition e v) :
      (Holds .places v [] ∧ c < v.created ∧ ¬ (v.chunk c).Pending) ∧
        (u.sends e).countP (fun packet => packet.chunk = c) + 0 ≤ 0 := by
    obtain ⟨holds, old, final⟩ := kept
    obtain ⟨same, silent⟩ := transition.settled holds old notPing final
    have later := (inbound_new (m := 0) transition (Nat.le_refl _)).1
    refine ⟨⟨holds.places (.cons transition (.nil v)), Nat.lt_of_lt_of_le old later, ?_⟩, ?_⟩
    · rw [same]
      exact final
    · refine Nat.le_of_eq (List.countP_eq_zero.mpr fun packet mem own => ?_)
      exact silent packet mem (of_decide_eq_true own)
  have none : sent.countP (fun packet => packet.chunk = c) + 0 ≤ 0 :=
    @Emits.countP_le _ _ _ _ _ _ (fun _ => 0) _ keep _ _ _ _ emits ⟨holds, old, final⟩
  intro packet mem own
  exact List.countP_eq_zero.mp (Nat.le_zero.mp none) packet mem (decide_eq_true own)

/-- In every run, a chunk is written as often as its retries allow, and not after its last
expiry. -/
theorem retransmission_bounded {events : List Event} {sent : List Sent}
    (emits : Emits Transition sends initial events sent s) (notPing : c ≠ pingPacket) :
    Bounded sent c ∧ ∀ later after u,
      s.Transition (.retry c) t → LastExpiry (s.chunk c) → Emits Transition sends t later after u →
        ∀ packet ∈ after, packet.chunk ≠ c := by
  refine ⟨bounded_of_emits emits notPing, fun later after u expires last rest => ?_⟩
  have holds : Holds .places s [] := Holds.initial.places emits.steps
  have old : c < s.created := by
    cases expires.stepped with
    | retry job =>
        refine lt_created_of_held holds (mem_held.mpr (.inr (.inr (.inr ⟨_, job, ?_⟩))))
        exact List.mem_singleton_self c
  have still : c < t.created :=
    Nat.lt_of_lt_of_le old (inbound_new (m := 0) expires (Nat.le_refl _)).1
  exact silent_of_final (holds.places (.cons expires (.nil t))) still notPing
    (final_of_lastExpiry expires last) rest

/-- An asynchronous QoS 1 message that is never acknowledged, up to its last expiry. -/
def unanswered : List Event :=
  [.publish false 1, .writePop, .writeEnd 1 true, .expire (· == 1), .retry 1,
    .writePop, .writeEnd 1 true, .expire (· == 1), .retry 1,
    .writePop, .writeEnd 1 true, .expire (· == 1)]

/-- It is written three times, and not when its failure is reported. -/
theorem unanswered_bounded : ∃ sent s t after u,
    Emits Transition sends initial unanswered sent s ∧
      sent = [⟨1, some .publish⟩, ⟨1, some .publish⟩, ⟨1, some .publish⟩] ∧
      s.Transition (.retry 1) t ∧ Emits Transition sends t [.userPop, .report 1] after u ∧
      Bounded sent 1 ∧ ∀ packet ∈ after, packet.chunk ≠ 1 := by
  obtain ⟨sent, s, t, after, u, emits, three, expires, last, rest⟩ : ∃ sent s t after u,
      Emits Transition sends initial unanswered sent s ∧
        sent = [⟨1, some .publish⟩, ⟨1, some .publish⟩, ⟨1, some .publish⟩] ∧
        s.Transition (.retry 1) t ∧ LastExpiry (s.chunk 1) ∧
        Emits Transition sends t [.userPop, .report 1] after u := by
    refine ⟨_, _, _, _, _, .cons rfl (.cons rfl (.cons rfl (.cons rfl (.cons rfl (.cons rfl
      (.cons rfl (.cons rfl (.cons rfl (.cons rfl (.cons rfl (.cons rfl (.nil _)))))))))))), ?_,
      rfl, .inr ?_, .cons rfl (.cons rfl (.nil _))⟩
    · decide
    · decide
  obtain ⟨bounded, never⟩ := retransmission_bounded emits (show 1 ≠ pingPacket by decide)
  exact ⟨sent, s, t, after, u, emits, three, expires, rest, bounded, never _ _ _ expires last rest⟩

end Client

end StDevice.Mqtt
