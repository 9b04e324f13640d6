import StDevice.Foundation.Custody
import StDevice.Mqtt.Client

/-!
# The books of the MQTT client

A chunk is in a queue or in the job of a thread; `Client.seats` lists these places.
The ledger says who frees chunks and that none is freed twice. The tally follows the
messages `st_mqtt_publish_async` has accepted, which are held somewhere, were
acknowledged, or were reported, and the messages received without the DUP bit, which
are held or were handed to the user.

Both are stated over the parts of the client they depend on, so that a change of
another part leaves them as they are.
-/

namespace StDevice.Mqtt

open Custody

/-- The places of a chunk. -/
inductive Role where
  | writeQueue | ackQueue | userQueue
  | writing | received | matched | acknowledging (ack : MsgType) | delivering | recycling
  | expired | reporting
  deriving DecidableEq, Repr

/-- What a chunk at a place looks like. -/
def Role.Fits : Role → Chunk → Prop
  | writeQueue, x | writing, x => x.chunkState = .writePending
  | ackQueue, x | expired, x => x.chunkState = .ackPending
  | acknowledging ack, x => x.chunkState = .ackPending ∧ x.packetType = awaitedType ack
  | recycling, x =>
      x.chunkState = .ackPending ∧ (x.packetType = some .publish ∨ x.packetType = some .pubrec)
  | userQueue, x | reporting, x =>
      x.haveOwner = false ∧ x.chunkState ≠ .writePending ∧ x.chunkState ≠ .ackPending ∧
        (x.chunkState = .readCompleted → x.dup = false)
  | received, x | delivering, x => x.haveOwner = false ∧ x.chunkState = .readCompleted
  | matched, x => x.haveOwner = false ∧ x.chunkState = .readCompleted ∧
      x.packetType ≠ some .publish

/-- Only these packets have an owner. -/
def Chunk.Ownable (x : Chunk) : Prop :=
  x.haveOwner = true → x.packetType ∈
    [some .connect, some .publish, some .pubrel, some .subscribe, some .unsubscribe,
      some .disconnect, some .pingreq]

/-- What the chunk of an accepted message looks like, to its end. -/
structure Chunk.Message (x : Chunk) : Prop where
  unowned : x.haveOwner = false
  qos : x.qos = 1 ∨ x.qos = 2
  type : x.packetType = some .publish ∨ x.packetType = some .pubrel
  state : x.chunkState ∈ [.writePending, .ackPending, .writeFail, .timeout]

/-- What a received PUBLISH looks like. -/
structure Chunk.Received (x : Chunk) : Prop where
  unowned : x.haveOwner = false
  state : x.chunkState = .readCompleted
  type : x.packetType = some .publish

/-- What a PUBLISH received without the DUP bit looks like. -/
structure Chunk.Inbound (x : Chunk) : Prop extends x.Received where
  first : x.dup = false

/-- What the client changes in a chunk keeps its owner and what the packet is for. -/
structure Chunk.Becomes (x y : Chunk) : Prop where
  owner : y.haveOwner = x.haveOwner
  ownable : x.Ownable → y.Ownable
  message : x.Message → y.Message
  /-- received packets are not changed -/
  sent : x.chunkState ≠ .readCompleted
  /-- nor made out of others -/
  unread : y.chunkState ≠ .readCompleted

namespace Chunk

variable {x : Chunk} {state : ChunkState}

/-- Another number of retries, and a state that a message may have or of a chunk
that is none. -/
theorem becomes_retry (n : Nat) (sent : x.chunkState ≠ .readCompleted)
    (unread : state ≠ .readCompleted) (allowed : x.Message →
      state ∈ [ChunkState.writePending, .ackPending, .writeFail, .timeout]) :
    x.Becomes { x with retryCount := n, chunkState := state } where
  owner := rfl
  ownable := fun ownable => ownable
  message := fun message => ⟨message.unowned, message.qos, message.type, allowed message⟩
  sent := sent
  unread := unread

theorem becomes_setState (sent : x.chunkState ≠ .readCompleted) (unread : state ≠ .readCompleted)
    (allowed : x.Message →
      state ∈ [ChunkState.writePending, .ackPending, .writeFail, .timeout]) :
    x.Becomes { x with chunkState := state } :=
  becomes_retry x.retryCount sent unread allowed

theorem not_message_of_owned (owned : x.haveOwner = true) : ¬ x.Message := by
  intro message
  exact absurd (owned.symm.trans message.unowned) (by simp)

theorem not_message_of_read (read : x.chunkState = .readCompleted) : ¬ x.Message := by
  intro message
  exact absurd (read ▸ message.state) (by simp)

theorem not_inbound_of_owned (owned : x.haveOwner = true) : ¬ x.Inbound := by
  intro inbound
  exact absurd (owned.symm.trans inbound.unowned) (by simp)

theorem not_inbound_of_type (other : x.packetType ≠ some .publish) : ¬ x.Inbound := by
  intro inbound
  exact other inbound.type

theorem not_inbound_of_dup (dup : x.dup = true) : ¬ x.Inbound := by
  intro inbound
  exact absurd (dup.symm.trans inbound.first) (by simp)

end Chunk

def Job.seats : Job → List (Seat Nat Role)
  | writing c => [⟨c, .writing⟩]
  | received c => [⟨c, .received⟩]
  | acknowledging ack r c => [⟨c, .acknowledging ack⟩, ⟨r, .matched⟩]
  | delivering c => [⟨c, .delivering⟩]
  | recycling c => [⟨c, .recycling⟩]
  | expired c => [⟨c, .expired⟩]
  | reporting c => [⟨c, .reporting⟩]

def Client.seats (s : Client) : List (Seat Nat Role) :=
  s.writePendingQueue.map (⟨·, .writeQueue⟩) ++ s.ackPendingQueue.map (⟨·, .ackQueue⟩) ++
    s.userEventCallbackQueue.map (⟨·, .userQueue⟩) ++ s.jobs.flatMap Job.seats

/-- The chunks that are queued or in process. -/
def Client.held (s : Client) : List Nat := items s.seats

/-- What a free was for. -/
structure Free.Permitted (chunk : Nat → Chunk) (created : Nat) (free : Free) : Prop where
  byOwner : free.haveOwner = true → free.agent = .waitFor free.chunk
  notPing : free.chunk ≠ Client.pingPacket
  before : free.chunk < created
  recorded : (chunk free.chunk).haveOwner = free.haveOwner

/-- The frees and the waiting calls. -/
structure Ledger (chunk : Nat → Chunk) (created : Nat) (waiting : List Nat) (frees : List Free) :
    Prop where
  ownable : ∀ c, (chunk c).Ownable
  waited : ∀ c ∈ waiting, (c < created ∧ ∀ free ∈ frees, free.chunk ≠ c) ∧
    (chunk c).haveOwner = true ∧ c ≠ Client.pingPacket
  distinct : waiting.Nodup
  ping : 0 < created ∧ (chunk Client.pingPacket).haveOwner = true
  permitted : ∀ free ∈ frees, free.Permitted chunk created
  once : (frees.map Free.chunk).Nodup

/-- The messages. When the account is `strict`, it covers those that were accepted. -/
structure Tally (strict : Prop) (chunk : Nat → Chunk) (created : Nat)
    (held accepted settled inbound answered delivered : List Nat) : Prop where
  message : ∀ m ∈ accepted, m < created ∧ (chunk m).Message
  past : ∀ m ∈ settled, m < created
  sent : strict → Accounted accepted held settled
  first : ∀ m, m ∈ inbound ↔ m < created ∧ (chunk m).Inbound
  answers : ∀ m ∈ answered, m < created ∧ (chunk m).Received
  handed : ∀ m ∈ delivered, m ∈ inbound
  received : Accounted inbound held delivered

theorem popBy_perm {wanted : Nat → Bool} {queue rest : List Nat} {c : Nat}
    (pops : popBy wanted queue = some (c, rest)) : queue.Perm (c :: rest) ∧ wanted c = true := by
  induction queue generalizing rest with
  | nil => exact absurd pops (by simp [popBy])
  | cons d queue ih =>
      unfold popBy at pops
      split at pops
      case isTrue found =>
        obtain ⟨rfl, rfl⟩ := Prod.mk.inj (Option.some.inj pops)
        exact ⟨.refl _, found⟩
      case isFalse =>
        obtain ⟨⟨found, others⟩, later, same⟩ := Option.map_eq_some_iff.mp pops
        obtain ⟨rfl, rfl⟩ := Prod.mk.inj same
        obtain ⟨perm, found⟩ := ih later
        exact ⟨(perm.cons d).trans (List.Perm.swap _ _ _), found⟩

namespace Ledger

variable {chunk : Nat → Chunk} {created : Nat} {waiting : List Nat} {frees : List Free} {c : Nat}
  {x : Chunk}

/-- The content of a chunk changes. -/
theorem store (ledger : Ledger chunk created waiting frees)
    (becomes : (chunk c).Becomes x) :
    Ledger (Function.update chunk c x) created waiting frees := by
  have owners : ∀ d, (Function.update chunk c x d).haveOwner = (chunk d).haveOwner := by
    intro d
    by_cases same : d = c
    · rw [same, Function.update_self, becomes.owner]
    · rw [Function.update_of_ne same]
  refine ⟨?_, ?_, ledger.distinct, ⟨ledger.ping.1, ?_⟩, ?_, ledger.once⟩
  · intro d
    by_cases same : d = c
    · rw [same, Function.update_self]
      exact becomes.ownable (ledger.ownable c)
    · rw [Function.update_of_ne same]
      exact ledger.ownable d
  · intro d mem
    rw [owners]
    exact ledger.waited d mem
  · rw [owners]
    exact ledger.ping.2
  · intro free freed
    obtain ⟨byOwner, notPing, before, recorded⟩ := ledger.permitted free freed
    exact ⟨byOwner, notPing, before, (owners _).trans recorded⟩

/-- A chunk is created. -/
theorem create (ledger : Ledger chunk created waiting frees) (ownable : x.Ownable) :
    Ledger (Function.update chunk created x) (created + 1) waiting frees := by
  have others : ∀ d, d < created → Function.update chunk created x d = chunk d := by
    intro d before
    exact Function.update_of_ne (Nat.ne_of_lt before) _ _
  refine ⟨?_, ?_, ledger.distinct, ⟨Nat.succ_pos _, ?_⟩, ?_, ledger.once⟩
  · intro d
    by_cases same : d = created
    · rwa [same, Function.update_self]
    · rw [Function.update_of_ne same]
      exact ledger.ownable d
  · intro d mem
    obtain ⟨⟨before, unfreed⟩, owned, notPing⟩ := ledger.waited d mem
    rw [others d before]
    exact ⟨⟨Nat.lt_succ_of_lt before, unfreed⟩, owned, notPing⟩
  · rw [others Client.pingPacket ledger.ping.1]
    exact ledger.ping.2
  · intro free mem
    obtain ⟨byOwner, notPing, before, recorded⟩ := ledger.permitted free mem
    refine ⟨byOwner, notPing, Nat.lt_succ_of_lt before, ?_⟩
    rw [others _ before]
    exact recorded

/-- A live chunk without owner is freed by a cycle. -/
theorem free (ledger : Ledger chunk created waiting frees) (exists_chunk : c < created)
    (unfreed : ∀ free ∈ frees, free.chunk ≠ c) (unowned : (chunk c).haveOwner = false) :
    Ledger chunk created waiting (⟨c, (chunk c).haveOwner, .cycle⟩ :: frees) := by
  refine ⟨ledger.ownable, ?_, ledger.distinct, ledger.ping, ?_, ?_⟩
  · intro d mem
    obtain ⟨⟨before, others⟩, owned, notPing⟩ := ledger.waited d mem
    refine ⟨⟨before, ?_⟩, owned, notPing⟩
    intro free freed
    rcases List.mem_cons.mp freed with rfl | freed
    · rintro rfl
      exact absurd (unowned.symm.trans owned) (by simp)
    · exact others free freed
  · intro free freed
    rcases List.mem_cons.mp freed with rfl | freed
    · refine ⟨fun owned => absurd (unowned.symm.trans owned) (by simp), ?_, exists_chunk, rfl⟩
      rintro rfl
      exact absurd (unowned.symm.trans ledger.ping.2) (by simp)
    · exact ledger.permitted free freed
  · refine List.nodup_cons.mpr ⟨?_, ledger.once⟩
    intro mem
    obtain ⟨free, freed, same⟩ := List.mem_map.mp mem
    exact unfreed free freed same

/-- A waiting call frees its chunk. -/
theorem leave (ledger : Ledger chunk created waiting frees) (mem : c ∈ waiting) :
    Ledger chunk created (waiting.erase c)
      (⟨c, (chunk c).haveOwner, .waitFor c⟩ :: frees) := by
  obtain ⟨⟨before, unfreed⟩, -, notPing⟩ := ledger.waited c mem
  refine ⟨ledger.ownable, ?_, ledger.distinct.erase c, ledger.ping, ?_, ?_⟩
  · intro d left
    obtain ⟨⟨before, others⟩, owned, notPing⟩ := ledger.waited d (List.mem_of_mem_erase left)
    refine ⟨⟨before, ?_⟩, owned, notPing⟩
    intro free freed
    rcases List.mem_cons.mp freed with rfl | freed
    · rintro rfl
      exact ledger.distinct.not_mem_erase left
    · exact others free freed
  · intro free freed
    rcases List.mem_cons.mp freed with rfl | freed
    · exact ⟨fun _ => rfl, notPing, before, rfl⟩
    · exact ledger.permitted free freed
  · refine List.nodup_cons.mpr ⟨?_, ledger.once⟩
    intro mem
    obtain ⟨free, freed, same⟩ := List.mem_map.mp mem
    exact unfreed free freed same

/-- A call starts to wait for the chunk it created. -/
theorem wait (ledger : Ledger chunk created waiting frees) (exists_chunk : c < created)
    (unfreed : ∀ free ∈ frees, free.chunk ≠ c) (owned : (chunk c).haveOwner = true)
    (notPing : c ≠ Client.pingPacket) (alone : c ∉ waiting) :
    Ledger chunk created (c :: waiting) frees := by
  refine ⟨ledger.ownable, ?_, List.nodup_cons.mpr ⟨alone, ledger.distinct⟩, ledger.ping,
    ledger.permitted, ledger.once⟩
  intro d mem
  rcases List.mem_cons.mp mem with rfl | mem
  · exact ⟨⟨exists_chunk, unfreed⟩, owned, notPing⟩
  · exact ledger.waited d mem

end Ledger

namespace Tally

variable {strict : Prop} {chunk : Nat → Chunk} {created : Nat}
  {held held' accepted settled inbound answered delivered : List Nat} {c : Nat} {x : Chunk}

theorem not_inbound (tally : Tally strict chunk created held accepted settled inbound answered
    delivered) (other : ¬ (chunk c).Inbound) : c ∉ inbound :=
  fun mem => other ((tally.first c).mp mem).2

theorem perm (tally : Tally strict chunk created held accepted settled inbound answered delivered)
    (perm : held.Perm held') :
    Tally strict chunk created held' accepted settled inbound answered delivered :=
  ⟨tally.message, tally.past, fun counted => (tally.sent counted).perm perm, tally.first,
    tally.answers, tally.handed, tally.received.perm perm⟩

theorem store (tally : Tally strict chunk created held accepted settled inbound answered delivered)
    (becomes : (chunk c).Becomes x) :
    Tally strict (Function.update chunk c x) created held accepted settled inbound answered
      delivered := by
  have kept (m : Nat) (known : m < created ∧ (chunk m).Received) :
      m < created ∧ (Function.update chunk c x m).Received := by
    have other : m ≠ c := by
      rintro rfl
      exact becomes.sent known.2.state
    rwa [Function.update_of_ne other]
  refine ⟨?_, tally.past, tally.sent, ?_, fun m mem => kept m (tally.answers m mem),
    tally.handed, tally.received⟩
  · intro m mem
    obtain ⟨before, message⟩ := tally.message m mem
    refine ⟨before, ?_⟩
    by_cases same : m = c
    · subst same
      rw [Function.update_self]
      exact becomes.message message
    · rwa [Function.update_of_ne same]
  · intro m
    by_cases same : m = c
    · subst same
      rw [Function.update_self]
      exact ⟨fun mem => absurd ((tally.first m).mp mem).2.state becomes.sent,
        fun known => absurd known.2.state becomes.unread⟩
    · rw [Function.update_of_ne same]
      exact tally.first m

/-- What was there when a chunk is created. -/
private theorem known_of_create {P : Chunk → Prop} {m : Nat}
    (known : m < created ∧ P (chunk m)) :
    m < created + 1 ∧ P (Function.update chunk created x m) := by
  rw [Function.update_of_ne (Nat.ne_of_lt known.1)]
  exact ⟨Nat.lt_succ_of_lt known.1, known.2⟩

private theorem new_of_before {opened : List Nat} (before : ∀ m ∈ opened, m < created) :
    created ∉ opened :=
  fun mem => Nat.lt_irrefl _ (before _ mem)

/-- A chunk is created; it is held, and no message yet. -/
theorem create (tally : Tally strict chunk created held accepted settled inbound answered
    delivered) (other : ¬ x.Inbound) :
    Tally strict (Function.update chunk created x) (created + 1) (created :: held) accepted
      settled inbound answered delivered := by
  have new : created ∉ inbound := new_of_before fun m mem => ((tally.first m).mp mem).1
  refine ⟨fun m mem => known_of_create (tally.message m mem),
    fun m mem => Nat.lt_succ_of_lt (tally.past m mem), ?_, ?_,
    fun m mem => known_of_create (tally.answers m mem), tally.handed, tally.received.hold new⟩
  · intro counted
    exact (tally.sent counted).hold (new_of_before fun m mem => (tally.message m mem).1)
  · intro m
    refine ⟨fun mem => known_of_create ((tally.first m).mp mem), ?_⟩
    rintro ⟨before, arrived⟩
    by_cases same : m = created
    · subst same
      rw [Function.update_self] at arrived
      exact absurd arrived other
    · rw [Function.update_of_ne same] at arrived
      exact (tally.first m).mpr ⟨by omega, arrived⟩

/-- A PUBLISH is received without the DUP bit. -/
theorem arrive (tally : Tally strict chunk created held accepted settled inbound answered
    delivered) (arrived : x.Inbound) (once : created ∉ held) :
    Tally strict (Function.update chunk created x) (created + 1) (created :: held) accepted
      settled (created :: inbound) answered delivered := by
  have new : created ∉ inbound := new_of_before fun m mem => ((tally.first m).mp mem).1
  refine ⟨fun m mem => known_of_create (tally.message m mem),
    fun m mem => Nat.lt_succ_of_lt (tally.past m mem), ?_, ?_,
    fun m mem => known_of_create (tally.answers m mem),
    fun m mem => List.mem_cons_of_mem _ (tally.handed m mem),
    (tally.received.hold new).opens ?_ ?_⟩
  · intro counted
    exact (tally.sent counted).hold (new_of_before fun m mem => (tally.message m mem).1)
  · intro m
    by_cases same : m = created
    · subst same
      rw [Function.update_self]
      exact ⟨fun _ => ⟨Nat.lt_succ_self _, arrived⟩, fun _ => List.mem_cons_self⟩
    · rw [Function.update_of_ne same, List.mem_cons, tally.first m]
      constructor
      · rintro (now | ⟨before, known⟩)
        · exact absurd now same
        · exact ⟨Nat.lt_succ_of_lt before, known⟩
      · rintro ⟨before, known⟩
        exact .inr ⟨by omega, known⟩
  · rw [List.count_cons_self, List.count_eq_zero_of_not_mem once]
  · exact fun mem => new (tally.handed _ mem)

/-- A held chunk is accepted as a message. -/
theorem accept (tally : Tally strict chunk created held accepted settled inbound answered
    delivered) (before : c < created) (message : (chunk c).Message) (once : held.count c = 1)
    (unsettled : c ∉ settled) :
    Tally strict chunk created held (c :: accepted) settled inbound answered delivered := by
  refine ⟨?_, tally.past, fun counted => (tally.sent counted).opens once unsettled, tally.first,
    tally.answers, tally.handed, tally.received⟩
  intro m mem
  rcases List.mem_cons.mp mem with rfl | mem
  · exact ⟨before, message⟩
  · exact tally.message m mem

/-- A received PUBLISH is answered. -/
theorem answer (tally : Tally strict chunk created held accepted settled inbound answered
    delivered) (before : c < created) (received : (chunk c).Received) :
    Tally strict chunk created held accepted settled inbound (c :: answered) delivered := by
  refine ⟨tally.message, tally.past, tally.sent, tally.first, ?_, tally.handed, tally.received⟩
  intro m mem
  rcases List.mem_cons.mp mem with rfl | mem
  · exact ⟨before, received⟩
  · exact tally.answers m mem

/-- A chunk that is no message is let go. -/
theorem drop (tally : Tally strict chunk created (c :: held) accepted settled inbound answered
    delivered) (other : strict → c ∉ accepted) (noMessage : ¬ (chunk c).Inbound) :
    Tally strict chunk created held accepted settled inbound answered delivered :=
  ⟨tally.message, tally.past, fun counted => (tally.sent counted).drop (other counted),
    tally.first, tally.answers, tally.handed, tally.received.drop (tally.not_inbound noMessage)⟩

/-- A chunk that is no message is held. -/
theorem hold (tally : Tally strict chunk created held accepted settled inbound answered
    delivered) (other : c ∉ accepted) (noMessage : ¬ (chunk c).Inbound) :
    Tally strict chunk created (c :: held) accepted settled inbound answered delivered :=
  ⟨tally.message, tally.past, fun counted => (tally.sent counted).hold other, tally.first,
    tally.answers, tally.handed, tally.received.hold (tally.not_inbound noMessage)⟩

/-- A held message is acknowledged or reported. -/
theorem settle (tally : Tally strict chunk created (c :: held) accepted settled inbound answered
    delivered) (before : c < created) (noMessage : ¬ (chunk c).Inbound) {settled' : List Nat}
    (settles : settled'.Perm (c :: settled)) :
    Tally strict chunk created held accepted settled' inbound answered delivered := by
  refine ⟨tally.message, ?_, fun counted => (tally.sent counted).close.perm_closed settles.symm,
    tally.first, tally.answers, tally.handed,
    tally.received.drop (tally.not_inbound noMessage)⟩
  intro m mem
  rcases List.mem_cons.mp (settles.mem_iff.mp mem) with rfl | mem
  · exact before
  · exact tally.past m mem

/-- A held message is handed to the user. -/
theorem hand (tally : Tally strict chunk created (c :: held) accepted settled inbound answered
    delivered) (before : c < created) (arrived : (chunk c).Inbound)
    (other : strict → c ∉ accepted) :
    Tally strict chunk created held accepted settled inbound answered (c :: delivered) := by
  refine ⟨tally.message, tally.past, fun counted => (tally.sent counted).drop (other counted),
    tally.first, tally.answers, ?_, tally.received.close⟩
  intro m mem
  rcases List.mem_cons.mp mem with rfl | mem
  · exact (tally.first m).mpr ⟨before, arrived⟩
  · exact tally.handed m mem

end Tally

end StDevice.Mqtt
