import StDevice.Mqtt.Custody

/-!
# What the client's functions keep

One lemma for each function of the client says that `Holds` survives it. The
hypotheses of a lemma are what only the caller can know: that a packet meets
`extra` at its next place, and that no message is let go. `Client.Permits`
collects them for a step.
-/

namespace StDevice.Mqtt

open Custody

/-- The chunk waits to be written or acknowledged. -/
def Chunk.Pending (x : Chunk) : Prop := x.chunkState = .writePending ∨ x.chunkState = .ackPending

/-- What a call of `_iot_mqtt_wait_for` that gives up takes out of a queue: if one is
careful, its own chunk unless that is not pending any more; if the account is strict,
no accepted message. -/
def Client.GivesUp (w : Watch) (s : Client) (c : Nat) (seen : ChunkState) : Prop :=
  ∀ d queue, s.abandons c seen = some (d, queue) →
    (w.careful → d = c ∨ ¬ (s.chunk c).Pending) ∧ (w.strict → d ∉ s.accepted)

namespace Holds

variable {w : Watch} {s : Client} {c : Nat} {r : Role}

/-- A chunk with an owner is nowhere once it is not pending. -/
theorem outside_of_final (holds : Holds w s []) (owned : (s.chunk c).haveOwner = true)
    (final : ¬ (s.chunk c).Pending) : c ∉ items ([] ++ s.seats) := by
  intro placed
  obtain ⟨role, fit, -⟩ := holds.custody.fit_of_mem placed
  cases role with
  | writeQueue | writing => exact final (.inl fit)
  | ackQueue | expired => exact final (.inr fit)
  | acknowledging ack => exact final (.inr fit.1)
  | recycling => exact final (.inr fit.1)
  | userQueue | reporting => exact absurd (fit.1.symm.trans owned) (by simp)
  | received | matched | delivering => exact absurd (fit.1.symm.trans owned) (by simp)

/-- Create a chunk that waits to be written. -/
private theorem pushNew {x : Chunk} (holds : Holds w s []) (ownable : x.Ownable)
    (pending : x.chunkState = .writePending) (more : w.extra .writeQueue x) :
    Holds w ((s.create x).pushWrite s.created) [] :=
  (holds.create (r := .writeQueue) ownable pending more
    fun inbound => absurd (pending.symm.trans inbound.state) (by simp)).pushWrite

/-- Create a chunk and wait for it. -/
theorem pushAndWait {x : Chunk} (holds : Holds w s [])
    (owned : x.haveOwner = true) (ownable : x.Ownable) (pending : x.chunkState = .writePending)
    (more : w.extra .writeQueue x) :
    Holds w
      { (s.create x).pushWrite s.created with waiting := s.created :: s.waiting } [] := by
  refine (holds.pushNew ownable pending more).wait rfl ?_ ?_ ?_ ?_
  · intro free freed
    exact Nat.ne_of_lt (holds.ledger.permitted free freed).before
  · simpa [Client.pushWrite, Client.create] using owned
  · exact Nat.ne_of_gt holds.ledger.ping.1
  · intro mem
    exact Nat.lt_irrefl _ (holds.ledger.waited _ mem).1.1

/-- Create a chunk and accept it as a message. -/
private theorem pushAndAccept {x : Chunk} (holds : Holds w s []) (message : x.Message)
    (ownable : x.Ownable) (pending : x.chunkState = .writePending) (more : w.extra .writeQueue x) :
    Holds w
      { (s.create x).pushWrite s.created with accepted := s.created :: s.accepted } [] := by
  refine (holds.pushNew ownable pending more).accept rfl ?_ ?_ ?_
  · simp [items, Client.seats, Client.pushWrite]
  · simpa [Client.pushWrite, Client.create] using message
  · intro mem
    exact Nat.lt_irrefl _ (holds.tally.past _ mem)

theorem publish {isSync : Bool} {qos : Nat} (holds : Holds w s [])
    (more : w.extra .writeQueue (s.publishPacket isSync qos)) :
    Holds w (s.publish isSync qos) [] := by
  have ownable : (s.publishPacket isSync qos).Ownable := by
    simp [Chunk.Ownable, Client.publishPacket]
  have notAccepted (other : (Client.numbered qos && !isSync) = false) :
      (s.publish isSync qos).accepted = s.accepted := by
    simp [Client.publish, other]
  cases isSync with
  | false =>
      by_cases asked : Client.numbered qos = true
      · have message : (s.publishPacket false qos).Message := by
          refine ⟨rfl, ?_, .inl rfl, List.mem_cons_self⟩
          simpa [Client.numbered, Client.publishPacket] using asked
        have accepted : (s.publish false qos).accepted = s.created :: s.accepted := by
          simp [Client.publish, asked]
        have pushed := holds.pushAndAccept message ownable rfl more
        refine ⟨pushed.custody, pushed.ledger, ?_⟩
        rw [accepted]
        exact pushed.tally
      · have pushed := holds.pushNew ownable rfl more
        refine ⟨pushed.custody, pushed.ledger, ?_⟩
        rw [notAccepted (by simp [asked])]
        exact pushed.tally
  | true =>
      have pushed := holds.pushAndWait rfl ownable rfl more
      refine ⟨pushed.custody, pushed.ledger, ?_⟩
      rw [notAccepted (by simp)]
      exact pushed.tally

theorem request {q : Request} (holds : Holds w s [])
    (more : w.extra .writeQueue (s.requestPacket q)) : Holds w (s.request q) [] := by
  have ownable : (s.requestPacket q).Ownable := by
    cases q <;> simp [Chunk.Ownable, Client.requestPacket, Request.packetType]
  have pushed := holds.pushAndWait rfl ownable rfl more
  exact ⟨pushed.custody, pushed.ledger, pushed.tally⟩

/-- A waiting call goes away with what it popped. -/
private theorem leaveWith {d : Nat} (popped : Holds w s [⟨d, r⟩]) (mem : c ∈ s.waiting)
    (pending : (s.chunk d).chunkState ≠ .readCompleted)
    (own : (w.careful → d = c ∨ ¬ (s.chunk c).Pending) ∧ (w.strict → d ∉ s.accepted)) :
    Holds w (s.leave c) [] := by
  have owned := (popped.ledger.waited c mem).2.1
  have left := popped.forget own.2 fun inbound => pending inbound.state
  refine left.leave mem fun careful => ?_
  obtain rfl | final := own.1 careful
  · exact popped.custody.notMem
  · exact left.outside_of_final owned final

theorem poll {seen : ChunkState} {failed : Bool} (holds : Holds w s [])
    (mem : c ∈ s.waiting) (sees : s.CanSee c seen)
    (own : failed = true → s.GivesUp w c seen) : Holds w (s.poll c seen failed) [] := by
  obtain ⟨-, owned, -⟩ := holds.ledger.waited c mem
  have ends (written : seen ≠ .writePending) (acknowledged : seen ≠ .ackPending) :
      Holds w (s.leave c) [] := by
    obtain pending | pending | same := sees
    · exact absurd pending written
    · exact absurd pending acknowledged
    · subst same
      refine holds.leave mem fun _ => holds.outside_of_final owned ?_
      rintro (pending | pending)
      · exact written pending
      · exact acknowledged pending
  unfold Client.poll
  split
  case h_1 =>
    split
    case isFalse => exact holds
    case isTrue fails =>
      split
      case h_1 d queue pops =>
        have popped := holds.popWrite (popBy_perm pops).1
        have pending : (s.chunk d).chunkState = .writePending := popped.fit.1
        exact popped.leaveWith mem (by simp [pending]) (own fails d queue pops)
      case h_2 => exact holds
  case h_2 =>
    split
    case isFalse => exact holds
    case isTrue fails =>
      split
      case h_1 d queue pops =>
        have popped := holds.popAck (popBy_perm pops).1
        have pending : (s.chunk d).chunkState = .ackPending := popped.fit.1
        exact popped.leaveWith mem (by simp [pending]) (own fails d queue pops)
      case h_2 => exact holds
  case h_8 => exact holds
  all_goals exact ends (by simp) (by simp)

theorem giveUp {x : Chunk} (holds : Holds w s [⟨c, r⟩])
    (becomes : (s.chunk c).Becomes x) (final : ¬ x.Pending)
    (more : (s.chunk c).haveOwner = false → w.extra .userQueue x) :
    Holds w (s.giveUp c x) [] := by
  unfold Client.giveUp
  split
  case isTrue owned => exact holds.settle owned becomes
  case isFalse shared =>
    have unowned : (s.chunk c).haveOwner = false := by simpa using shared
    have failed : Role.userQueue.Fits x :=
      ⟨becomes.owner.trans unowned, fun pending => final (.inl pending),
        fun pending => final (.inr pending), fun read => absurd read becomes.unread⟩
    exact (holds.store becomes failed (more unowned)).pushUser

theorem writeFailed (holds : Holds w s [⟨c, .writing⟩])
    (more : (s.chunk c).haveOwner = false →
      w.extra .userQueue { s.chunk c with chunkState := .writeFail }) :
    Holds w (s.writeFailed c) [] := by
  have pending : (s.chunk c).chunkState = .writePending := holds.fit.1
  refine holds.giveUp
    (Chunk.becomes_setState (by simp [pending]) (by simp) fun _ => by simp) ?_ more
  simp [Chunk.Pending]

theorem awaitAck (holds : Holds w s [⟨c, .writing⟩])
    (more : w.extra .ackQueue { s.chunk c with chunkState := .ackPending }) :
    Holds w (s.awaitAck c) [] := by
  have pending : (s.chunk c).chunkState = .writePending := holds.fit.1
  have stored : Holds w (s.setState c .ackPending) [⟨c, .ackQueue⟩] :=
    holds.store (Chunk.becomes_setState (by simp [pending]) (by simp) fun _ => by simp) rfl more
  exact stored.pushAck

/-- A packet of another type has no owner. -/
private theorem unowned_of_type (holds : Holds w s [⟨c, r⟩])
    (other : (s.chunk c).packetType ∉
      [some .connect, some .publish, some .pubrel, some .subscribe, some .unsubscribe,
        some .disconnect, some .pingreq]) : (s.chunk c).haveOwner = false := by
  by_contra owned
  exact other (holds.ledger.ownable c (by simpa using owned))

theorem postWrite (holds : Holds w s [⟨c, .writing⟩])
    (more : w.extra .ackQueue { s.chunk c with chunkState := .ackPending }) :
    Holds w (s.postWrite c) [] := by
  have pending : (s.chunk c).chunkState = .writePending := holds.fit.1
  have notRead : (s.chunk c).chunkState ≠ .readCompleted := by simp [pending]
  have handedOver (owned : (s.chunk c).haveOwner = true) :
      Holds w (s.setState c .writeCompleted) [] :=
    holds.settle owned (Chunk.becomes_setState notRead (by simp) fun message =>
      absurd message (Chunk.not_message_of_owned owned))
  have freed (unowned : (s.chunk c).haveOwner = false) (other : ¬ (s.chunk c).Message) :
      Holds w (s.destroy c .cycle) [] :=
    holds.destroy unowned (fun _ => holds.unaccepted other) fun inbound => notRead inbound.state
  unfold Client.postWrite
  split
  case h_7 =>
    split
    case isTrue fireAndForget =>
      have other : ¬ (s.chunk c).Message := fun message => by
        have := message.qos
        omega
      split
      case isTrue owned => exact handedOver owned
      case isFalse shared =>
        refine holds.destroyStored
          (Chunk.becomes_setState notRead (by simp) fun message => absurd message other)
          (by simpa using shared) (fun _ => holds.unaccepted other) fun inbound => ?_
        exact absurd inbound.state (by simp)
    case isFalse => exact holds.awaitAck more
  case h_8 type =>
    split
    case isTrue owned => exact handedOver owned
    case isFalse shared =>
      refine freed (by simpa using shared) fun message => ?_
      have := message.type
      simp_all
  case h_9 =>
    refine freed (holds.unowned_of_type (by simp_all)) fun message => ?_
    have := message.type
    simp_all
  all_goals exact holds.awaitAck more

theorem disconnected (holds : Holds w s [])
    (more : w.extra .userQueue { chunkState := .eventDisconnected }) :
    Holds w s.disconnected [] := by
  have event : Holds w (s.create { chunkState := .eventDisconnected })
      [⟨s.created, .userQueue⟩] :=
    holds.create (fun owned => absurd owned (by simp)) ⟨rfl, by simp, by simp, by simp⟩ more
      fun inbound => absurd inbound.state (by simp)
  exact event.pushUser

theorem read {packet : Chunk} (holds : Holds w s [])
    (more : w.extra .received (Client.received packet)) : Holds w (s.read packet) [] := by
  have ownable : (Client.received packet).Ownable := fun owned =>
    absurd owned (by simp [Client.received])
  by_cases first : Client.isFirst packet = true
  · have arrived : (Client.received packet).Inbound := by
      simp only [Client.isFirst, Bool.and_eq_true, Bool.not_eq_true', beq_iff_eq] at first
      exact ⟨⟨rfl, rfl, first.1⟩, first.2⟩
    have created : Holds w
        { s.create (Client.received packet) with inbound := s.created :: s.inbound }
        (Job.seats (.received s.created) ++ []) := holds.arrive ownable ⟨rfl, rfl⟩ more arrived
    have queued := created.putJob
    have inbound : (s.read packet).inbound = s.created :: s.inbound := by
      simp [Client.read, first]
    refine ⟨queued.custody, queued.ledger, ?_⟩
    rw [inbound]
    exact queued.tally
  · have other : ¬ (Client.received packet).Inbound := by
      intro arrived
      have type : packet.packetType = some .publish := arrived.type
      have unmarked : packet.dup = false := arrived.first
      simp [Client.isFirst, type, unmarked] at first
    have created : Holds w (s.create (Client.received packet))
        (Job.seats (.received s.created) ++ []) :=
      holds.create ownable ⟨rfl, rfl⟩ more other
    have queued := created.putJob
    have inbound : (s.read packet).inbound = s.inbound := by simp [Client.read, first]
    refine ⟨queued.custody, queued.ledger, ?_⟩
    rw [inbound]
    exact queued.tally

/-- Free a received packet that carries no message. -/
private theorem destroyReceived (holds : Holds w s [⟨c, r⟩])
    (unowned : (s.chunk c).haveOwner = false) (read : (s.chunk c).chunkState = .readCompleted)
    (noMessage : ¬ (s.chunk c).Inbound) : Holds w (s.destroy c .cycle) [] :=
  holds.destroy unowned (fun _ => holds.unaccepted (Chunk.not_message_of_read read)) noMessage

theorem deliver (holds : Holds w s [⟨c, r⟩]) (unowned : (s.chunk c).haveOwner = false)
    (read : (s.chunk c).chunkState = .readCompleted) (more : w.extra .userQueue (s.chunk c)) :
    Holds w (s.deliver c) [] := by
  unfold Client.deliver
  split
  case isTrue dup => exact holds.destroyReceived unowned read (Chunk.not_inbound_of_dup dup)
  case isFalse first =>
    have placed : Holds w s [⟨c, .userQueue⟩] :=
      holds.recast ⟨unowned, by simp [read], by simp [read], fun _ => by simpa using first⟩ more
    exact placed.pushUser

/-- A new chunk is another than one in hand. -/
private theorem chunk_create {x : Chunk} {hand : List (Seat Nat Role)}
    (holds : Holds w s (⟨c, r⟩ :: hand)) : (s.create x).chunk c = s.chunk c :=
  Function.update_of_ne (Nat.ne_of_lt holds.present.1) _ _

theorem receivedPublish (holds : Holds w s [⟨c, .received⟩])
    (type : (s.chunk c).packetType = some .publish)
    (answer : w.extra .writeQueue (s.answerPacket c)) (user : w.extra .userQueue (s.chunk c))
    (later : w.extra .delivering (s.chunk c)) : Holds w (s.receivedPublish c) [] := by
  obtain ⟨⟨unowned, read⟩, -⟩ := holds.fit
  unfold Client.receivedPublish
  split
  case isTrue => exact holds.deliver unowned read user
  case isFalse =>
    have created : Holds w (s.create (s.answerPacket c))
        [⟨s.created, .writeQueue⟩, ⟨c, .received⟩] :=
      holds.create (fun owned => absurd owned (by simp [Client.answerPacket])) rfl answer
        fun inbound => absurd inbound.state (by simp [Client.answerPacket])
    have same : ((s.create (s.answerPacket c)).pushWrite s.created).chunk c = s.chunk c :=
      holds.chunk_create
    have placed : Holds w ((s.create (s.answerPacket c)).pushWrite s.created)
        (Job.seats (.delivering c) ++ []) := by
      refine created.pushWrite.recast ?_ ?_
      · rw [same]
        exact ⟨unowned, read⟩
      · rwa [same]
    have queued := placed.putJob
    refine ⟨queued.custody, queued.ledger, ?_⟩
    by_cases numbered : Client.numbered (s.chunk c).qos = true
    · have answered := queued.tally.answer (c := c) (Nat.lt_succ_of_lt holds.present.1)
        (by rw [same]; exact ⟨unowned, read, type⟩)
      rw [if_pos numbered]
      exact answered
    · rw [if_neg numbered]
      exact queued.tally

/-- What a search by type and id finds has the type. -/
theorem type_of_found {type : MsgType} {id : Nat}
    (found : s.hasTypeAndId (some type) id c = true) : (s.chunk c).packetType = some type := by
  unfold Client.hasTypeAndId at found
  exact eq_of_beq (Bool.and_eq_true_iff.mp found).1

theorem receivedAck {ack awaited : MsgType} (holds : Holds w s [⟨c, .received⟩])
    (other : (s.chunk c).packetType ≠ some .publish) (type : awaitedType ack = some awaited)
    (known : w.extra .matched (s.chunk c))
    (more : ∀ d queue,
      popBy (s.hasTypeAndId (some awaited) (Client.awaitedId ack (s.chunk c).packetId))
        s.ackPendingQueue = some (d, queue) →
      w.extra .ackQueue (s.chunk d) → w.extra (.acknowledging ack) (s.chunk d)) :
    Holds w (s.receivedAck c ack awaited) [] := by
  obtain ⟨⟨unowned, read⟩, -⟩ := holds.fit
  unfold Client.receivedAck
  split
  case h_1 d queue pops =>
    obtain ⟨perm, found⟩ := popBy_perm pops
    have answer : Holds w s [⟨c, .matched⟩] := holds.recast ⟨unowned, read, other⟩ known
    have popped := answer.popAck perm
    obtain ⟨pending, known⟩ := popped.fit
    have matched : Holds w { s with ackPendingQueue := queue }
        (Job.seats (.acknowledging ack c d) ++ []) :=
      popped.recast ⟨pending, (type_of_found found).trans type.symm⟩ (more d queue pops known)
    exact matched.putJob
  case h_2 => exact holds.destroyReceived unowned read (Chunk.not_inbound_of_type other)

theorem receivedPubrecPubrel {awaited : MsgType} (holds : Holds w s [⟨c, .received⟩])
    (other : (s.chunk c).packetType ≠ some .publish)
    (type : awaited = .publish ∨ awaited = .pubrec)
    (more : ∀ d queue, popBy (s.hasTypeAndId (some awaited) (s.chunk c).packetId)
      s.ackPendingQueue = some (d, queue) → w.extra .ackQueue (s.chunk d) →
        w.extra .recycling (s.chunk d)) :
    Holds w (s.receivedPubrecPubrel c awaited) [] := by
  obtain ⟨⟨unowned, read⟩, -⟩ := holds.fit
  unfold Client.receivedPubrecPubrel
  split
  case h_1 d queue pops =>
    obtain ⟨perm, found⟩ := popBy_perm pops
    have freed := holds.destroyReceived unowned read (Chunk.not_inbound_of_type other)
    have popped := freed.popAck perm
    obtain ⟨pending, known⟩ := popped.fit
    have same := type_of_found found
    have matched : Holds w { s.destroy c .cycle with ackPendingQueue := queue }
        (Job.seats (.recycling d) ++ []) := by
      refine popped.recast ⟨pending, ?_⟩ (more d queue pops known)
      rcases type with rfl | rfl
      · exact .inl same
      · exact .inr same
    exact matched.putJob
  case h_2 => exact holds.destroyReceived unowned read (Chunk.not_inbound_of_type other)

theorem recycle (holds : Holds w s [⟨c, .recycling⟩])
    (more : w.extra .writeQueue (Client.recycled (s.chunk c))) :
    Holds w (s.recycle c) [] := by
  obtain ⟨⟨pending, type⟩, -⟩ := holds.fit
  have becomes : (s.chunk c).Becomes (Client.recycled (s.chunk c)) := by
    refine ⟨rfl, ?_, ?_, by simp [pending], by simp [Client.recycled]⟩
    · intro ownable owned
      rcases type with publish | pubrec
      · simp [publish, Client.recycled, Client.recycledType]
      · exact absurd (ownable owned) (by simp [pubrec])
    · intro message
      refine ⟨message.unowned, message.qos, ?_, List.mem_cons_self⟩
      rcases message.type with publish | pubrel
      · simp [publish, Client.recycled, Client.recycledType]
      · simp [pubrel, Client.recycled, Client.recycledType]
  have stored : Holds w (s.store c (Client.recycled (s.chunk c)))
      [⟨c, .writeQueue⟩] := holds.store becomes rfl more
  exact stored.pushWrite

/-- A change of one chunk leaves the others. -/
private theorem chunk_setState {d : Nat} {hand : List (Seat Nat Role)} {state : ChunkState}
    (holds : Holds w s (⟨d, r⟩ :: hand)) (placed : c ∈ items hand) :
    (s.setState d state).chunk c = s.chunk c := by
  refine Function.update_of_ne ?_ _ _
  rintro rfl
  obtain ⟨seat, mem, rfl⟩ := List.mem_map.mp placed
  exact holds.custody.notMem (List.mem_map_of_mem (List.mem_append_left _ mem))

theorem acknowledge {ack : MsgType} {d : Nat}
    (holds : Holds w s [⟨d, .acknowledging ack⟩, ⟨c, .matched⟩])
    (completes : w.strict → (s.chunk d).Message → Client.completes ack (s.chunk d).qos = true) :
    Holds w (s.acknowledge ack c d) [] := by
  obtain ⟨free, read, type⟩ : Role.matched.Fits (s.chunk c) :=
    (holds.custody.fit ⟨c, .matched⟩ (List.mem_cons_of_mem _ List.mem_cons_self)).1
  have other := Chunk.not_inbound_of_type type
  have pending : (s.chunk d).chunkState = .ackPending := holds.fit.1.1
  have notRead : ¬ (s.chunk d).Inbound := fun inbound => by
    have := inbound.state
    simp [pending] at this
  unfold Client.acknowledge
  split
  case isTrue owned =>
    have becomes : (s.chunk d).Becomes { s.chunk d with chunkState := .acknowledged } :=
      Chunk.becomes_setState (by simp [pending]) (by simp) fun message =>
        absurd message (Chunk.not_message_of_owned owned)
    have settled : Holds w (s.setState d .acknowledged) [⟨c, .matched⟩] :=
      holds.settle owned becomes
    have same : (s.setState d .acknowledged).chunk c = s.chunk c :=
      holds.chunk_setState List.mem_cons_self
    refine settled.destroyReceived ?_ ?_ ?_
    · rwa [same]
    · rwa [same]
    · rwa [same]
  case isFalse shared =>
    have unowned : (s.chunk d).haveOwner = false := by simpa using shared
    by_cases complete : Client.completes ack (s.chunk d).qos = true
    · rw [if_pos complete]
      have concluded : Holds w
          { s.destroy d .cycle with acknowledged := d :: s.acknowledged } [⟨c, .matched⟩] :=
        ⟨holds.custody.drop fun _ other present => present.destroy other,
          holds.ledger.free holds.present.1 (holds.unfreed unowned) unowned,
          holds.tally.settle holds.present.1 notRead (.refl _)⟩
      have freed := concluded.destroyReceived free read other
      exact ⟨freed.custody, freed.ledger, freed.tally⟩
    · rw [if_neg complete]
      have lost (counted : w.strict) : d ∉ s.accepted :=
        holds.unaccepted fun message => complete (completes counted message)
      exact (holds.destroy unowned lost notRead).destroyReceived free read other

theorem report (holds : Holds w s [⟨c, .reporting⟩])
    (type : w.strict → (s.chunk c).Message → (s.chunk c).packetType = some .publish) :
    Holds w (s.report c) [] := by
  obtain ⟨⟨unowned, written, acknowledged, first⟩, -⟩ := holds.fit
  have dropped : Sound (fun r x => r.Fits x ∧ w.extra r x) s.chunk
      ((s.destroy c .cycle).Present w.careful) ([] ++ s.seats) :=
    holds.custody.drop fun _ other present => present.destroy other
  have ledger := holds.ledger.free holds.present.1 (holds.unfreed unowned) unowned
  have lost (unnotified : Client.notifies (s.chunk c) ≠ true) (counted : w.strict) :
      c ∉ s.accepted := by
    refine holds.unaccepted fun message => unnotified ?_
    have failed : (s.chunk c).chunkState = .writeFail ∨ (s.chunk c).chunkState = .timeout := by
      have := message.state
      simp_all
    rcases failed with state | state
    · simp [Client.notifies, state, type counted message]
    · simp [Client.notifies, state, type counted message]
  refine ⟨dropped, ledger, ?_⟩
  unfold Client.report
  by_cases handed : Client.handsOver (s.chunk c) = true
  · obtain ⟨read, publish⟩ : (s.chunk c).chunkState = .readCompleted ∧
        (s.chunk c).packetType = some .publish := by
      simpa [Client.handsOver] using handed
    have unnotified : Client.notifies (s.chunk c) ≠ true := by simp [Client.notifies, read]
    rw [if_pos handed, if_neg unnotified]
    exact holds.tally.hand holds.present.1 ⟨⟨unowned, read, publish⟩, first read⟩
      (lost unnotified)
  · have notRead : ¬ (s.chunk c).Inbound := by
      intro inbound
      simp [Client.handsOver, inbound.state, inbound.type] at handed
    rw [if_neg handed]
    by_cases notified : Client.notifies (s.chunk c) = true
    · rw [if_pos notified]
      exact holds.tally.settle holds.present.1 notRead List.perm_middle
    · rw [if_neg notified]
      exact holds.tally.drop (lost notified) notRead

theorem retry (holds : Holds w s [⟨c, .expired⟩])
    (again : (s.chunk c).retryCount + 1 < mqttPublishRetry →
      w.extra .writeQueue (Client.retried (s.chunk c) .writePending))
    (connect : (s.chunk c).haveOwner = false → (s.chunk c).packetType = some .connect →
      w.extra .userQueue { s.chunk c with chunkState := .timeout })
    (last : (s.chunk c).haveOwner = false → mqttPublishRetry ≤ (s.chunk c).retryCount + 1 →
      w.extra .userQueue (Client.retried (s.chunk c) .timeout)) :
    Holds w (s.retry c) [] := by
  have pending : (s.chunk c).chunkState = .ackPending := holds.fit.1
  have notRead : (s.chunk c).chunkState ≠ .readCompleted := by simp [pending]
  have counted (state : ChunkState) (unread : state ≠ .readCompleted) (allowed :
      state ∈ [ChunkState.writePending, .ackPending, .writeFail, .timeout]) :
      (s.chunk c).Becomes (Client.retried (s.chunk c) state) :=
    Chunk.becomes_retry _ notRead unread fun _ => allowed
  unfold Client.retry
  split
  case h_1 type =>
    refine holds.giveUp (Chunk.becomes_setState notRead (by simp) fun _ => by simp) ?_
      fun unowned => connect unowned type
    simp [Chunk.Pending]
  case h_2 =>
    split
    case isTrue left =>
      have stored : Holds w (s.store c (Client.retried (s.chunk c) .writePending))
          [⟨c, .writeQueue⟩] := holds.store (counted _ (by simp) (by simp)) rfl (again left)
      exact stored.pushWrite
    case isFalse exhausted =>
      refine holds.giveUp (counted _ (by simp) (by simp)) ?_ fun unowned =>
        last unowned (Nat.le_of_not_lt exhausted)
      simp [Chunk.Pending, Client.retried]

theorem checkAlive (holds : Holds w s [])
    (more : w.extra .writeQueue (Client.pinged (s.chunk Client.pingPacket))) :
    Holds w s.checkAlive [] := by
  obtain ⟨exists_ping, owned⟩ := holds.ledger.ping
  have present : s.Present w.careful Client.pingPacket :=
    ⟨exists_ping, fun free freed same =>
      absurd same (holds.ledger.permitted free freed).notPing⟩
  have noMessage := Chunk.not_message_of_owned owned
  have outside := holds.outside_of_final owned
  have pings (final : ¬ (s.chunk Client.pingPacket).Pending)
      (notRead : (s.chunk Client.pingPacket).chunkState ≠ .readCompleted) : Holds w
      ((s.store Client.pingPacket (Client.pinged (s.chunk Client.pingPacket))).pushWrite
        Client.pingPacket) [] := by
    have becomes : (s.chunk Client.pingPacket).Becomes
        (Client.pinged (s.chunk Client.pingPacket)) :=
      Chunk.becomes_retry 0 notRead (by simp) fun message => absurd message noMessage
    have taken : Holds w (s.store Client.pingPacket (Client.pinged (s.chunk Client.pingPacket)))
        [⟨Client.pingPacket, .writeQueue⟩] :=
      holds.storeTaken (outside final) present owned becomes rfl more
    exact taken.pushWrite
  unfold Client.checkAlive
  split
  case h_1 acknowledged =>
    exact pings (by simp [Chunk.Pending, acknowledged]) (by simp [acknowledged])
  case h_2 unused => exact pings (by simp [Chunk.Pending, unused]) (by simp [unused])
  case h_3 timeout =>
    refine holds.storeOutside (outside (by simp [Chunk.Pending, timeout])) ?_
    exact Chunk.becomes_setState (by simp [timeout]) (by simp)
      fun message => absurd message noMessage
  case h_4 => exact holds

end Holds

/-- What `_iot_mqtt_process_post_read` must show. -/
structure Client.PermitsRead (w : Watch) (s : Client) (r : Nat) : Prop where
  matched : w.extra .received (s.chunk r) → w.extra .matched (s.chunk r)
  publish : (s.chunk r).packetType = some .publish → w.extra .writeQueue (s.answerPacket r) ∧
    w.extra .userQueue (s.chunk r) ∧ w.extra .delivering (s.chunk r)
  recycling : ∀ awaited d queue, ((s.chunk r).packetType = some .pubrec ∧ awaited = .publish ∨
      (s.chunk r).packetType = some .pubrel ∧ awaited = .pubrec) →
    popBy (s.hasTypeAndId (some awaited) (s.chunk r).packetId) s.ackPendingQueue =
      some (d, queue) → w.extra .ackQueue (s.chunk d) → w.extra .recycling (s.chunk d)
  acknowledging : ∀ ack awaited d queue, (s.chunk r).packetType = some ack →
    awaitedType ack = some awaited →
    popBy (s.hasTypeAndId (some awaited) (awaitedId ack (s.chunk r).packetId)) s.ackPendingQueue =
      some (d, queue) → w.extra .ackQueue (s.chunk d) → w.extra (.acknowledging ack) (s.chunk d)

/-- What a step must show for `extra` and for the accepted messages. -/
def Client.Permits (w : Watch) (s : Client) : Event → Prop
  | .publish isSync qos => w.extra .writeQueue (s.publishPacket isSync qos)
  | .request q => w.extra .writeQueue (s.requestPacket q)
  | .poll c seen failed => failed = true → s.GivesUp w c seen
  | .writePop => ∀ x, w.extra .writeQueue x → w.extra .writing x
  | .writeEnd c written => w.extra .writing (s.chunk c) →
      (written = true → w.extra .ackQueue { s.chunk c with chunkState := .ackPending }) ∧
      (written = false → (s.chunk c).haveOwner = false →
        w.extra .userQueue { s.chunk c with chunkState := .writeFail })
  | .disconnected => w.extra .userQueue { chunkState := .eventDisconnected }
  | .read packet => w.extra .received (received packet)
  | .postRead r => s.PermitsRead w r
  | .acknowledge ack _ c => w.strict → w.extra (.acknowledging ack) (s.chunk c) →
      (s.chunk c).packetType = awaitedType ack → (s.chunk c).Message →
        completes ack (s.chunk c).qos = true
  | .deliver r => w.extra .delivering (s.chunk r) → w.extra .userQueue (s.chunk r)
  | .recycle c => w.extra .recycling (s.chunk c) → w.extra .writeQueue (recycled (s.chunk c))
  | .expire _ => ∀ x, w.extra .ackQueue x → w.extra .expired x
  | .retry c => w.extra .expired (s.chunk c) →
      ((s.chunk c).retryCount + 1 < mqttPublishRetry →
        w.extra .writeQueue (retried (s.chunk c) .writePending)) ∧
      ((s.chunk c).haveOwner = false → (s.chunk c).packetType = some .connect →
        w.extra .userQueue { s.chunk c with chunkState := .timeout }) ∧
      ((s.chunk c).haveOwner = false → mqttPublishRetry ≤ (s.chunk c).retryCount + 1 →
        w.extra .userQueue (retried (s.chunk c) .timeout))
  | .userPop => ∀ x, w.extra .userQueue x → w.extra .reporting x
  | .report c => w.strict → w.extra .reporting (s.chunk c) → (s.chunk c).Message →
      (s.chunk c).packetType = some .publish
  | .checkAlive => w.extra .writeQueue (pinged (s.chunk pingPacket))

/-- A development that looks at no more than the places must show something only for
a call that gives up. -/
theorem Client.permits_of_plain {w : Watch} {s : Client} {e : Event}
    (patient : ∀ c seen failed, e ≠ .poll c seen failed) (plain : ∀ r x, w.extra r x)
    (lax : ¬ w.strict) : s.Permits w e := by
  cases e with
  | poll c seen failed => exact absurd rfl (patient c seen failed)
  | postRead r =>
      exact ⟨fun _ => plain _ _, fun _ => ⟨plain _ _, plain _ _, plain _ _⟩,
        fun _ _ _ _ _ _ => plain _ _, fun _ _ _ _ _ _ _ _ => plain _ _⟩
  | writeEnd c written => exact fun _ => ⟨fun _ => plain _ _, fun _ _ => plain _ _⟩
  | acknowledge ack r c => exact fun counted => absurd counted lax
  | retry c => exact fun _ => ⟨fun _ => plain _ _, fun _ _ => plain _ _, fun _ _ => plain _ _⟩
  | report c => exact fun counted => absurd counted lax
  | deliver r => exact fun _ => plain _ _
  | recycle c => exact fun _ => plain _ _
  | writePop => exact fun _ _ => plain _ _
  | expire expired => exact fun _ _ => plain _ _
  | userPop => exact fun _ _ => plain _ _
  | _ => exact plain _ _

namespace Holds

variable {w : Watch} {s t : Client} {c : Nat}

theorem initial : Holds w .initial [] := by
  refine ⟨⟨by simp [items, Client.seats, Client.initial], ?_, ?_⟩, ?_, ?_⟩
  · simp [Client.seats, Client.initial]
  · simp [Client.seats, Client.initial]
  · have ownable (c : Nat) : (Client.initial.chunk c).Ownable := by
      by_cases ping : c = Client.pingPacket
      · simp [Chunk.Ownable, Client.initial, ping]
      · simp [Chunk.Ownable, Client.initial, ping]
    exact ⟨ownable, by simp [Client.initial], by simp [Client.initial],
      by simp [Client.initial], by simp [Client.initial], by simp [Client.initial]⟩
  · refine ⟨by simp [Client.initial], by simp [Client.initial],
      by simp [Accounted, Client.initial], ?_, by simp [Client.initial], by simp [Client.initial],
      by simp [Accounted, Client.initial]⟩
    intro c
    refine ⟨fun mem => absurd mem (by simp [Client.initial]), ?_⟩
    rintro ⟨-, inbound⟩
    by_cases ping : c = Client.pingPacket
    · exact absurd inbound.state (by simp [Client.initial, ping])
    · exact absurd inbound.state (by simp [Client.initial, ping])

theorem postRead (holds : Holds w s [⟨c, .received⟩])
    (permits : s.PermitsRead w c) : Holds w (s.postRead c) [] := by
  obtain ⟨⟨unowned, read⟩, known⟩ := holds.fit
  unfold Client.postRead
  split
  case h_1 type =>
    obtain ⟨answer, user, later⟩ := permits.publish type
    exact holds.receivedPublish type answer user later
  case h_2 type =>
    exact holds.receivedPubrecPubrel (by simp [type]) (.inl rfl) fun d queue =>
      permits.recycling _ d queue (.inl ⟨type, rfl⟩)
  case h_3 type =>
    exact holds.receivedPubrecPubrel (by simp [type]) (.inr rfl) fun d queue =>
      permits.recycling _ d queue (.inr ⟨type, rfl⟩)
  case h_4 ack notPublish _ _ type =>
    have other : (s.chunk c).packetType ≠ some .publish := by
      rw [type]
      exact fun same => notPublish (Option.some.inj same)
    split
    case h_1 awaited awaits =>
      exact holds.receivedAck other awaits (permits.matched known) fun d queue =>
        permits.acknowledging ack awaited d queue type awaits
    case h_2 => exact holds.destroyReceived unowned read (Chunk.not_inbound_of_type other)
  case h_5 type =>
    exact holds.destroyReceived unowned read (Chunk.not_inbound_of_type (by simp [type]))

/-- A thread goes on with a job. -/
private theorem resume {j : Job} (holds : Holds w s []) (job : j ∈ s.jobs) :
    Holds w { s with jobs := s.jobs.erase j } j.seats := by
  have taken := holds.takeJob job
  rwa [List.append_nil] at taken

/-- What is kept by one step. -/
theorem step {e : Event} (holds : Holds w s []) (permits : s.Permits w e)
    (transition : s.Transition e t) : Holds w t [] := by
  cases transition.stepped with
  | publish isSync qos => exact holds.publish permits
  | request q => exact holds.request permits
  | poll failed waits sees => exact holds.poll waits sees permits
  | @writePop c queue pending =>
      have popped : Holds w { s with writePendingQueue := queue }
          [⟨c, .writeQueue⟩] := holds.popWrite (pending ▸ .refl _)
      have taken : Holds w { s with writePendingQueue := queue }
          (Job.seats (.writing c) ++ []) := popped.recast popped.fit.1 (permits _ popped.fit.2)
      exact taken.putJob
  | written job =>
      have taken := holds.resume job
      exact taken.postWrite ((permits taken.fit.2).1 rfl)
  | notWritten job =>
      have taken := holds.resume job
      exact taken.writeFailed ((permits taken.fit.2).2 rfl)
  | disconnected => exact holds.disconnected permits
  | read packet => exact holds.read permits
  | postRead job =>
      refine (holds.resume job).postRead ?_
      exact ⟨permits.matched, permits.publish, permits.recycling, permits.acknowledging⟩
  | acknowledge job =>
      have taken := holds.resume job
      exact taken.acknowledge fun counted => permits counted taken.fit.2 taken.fit.1.2
  | deliver job =>
      have taken := holds.resume job
      obtain ⟨⟨unowned, read⟩, known⟩ := taken.fit
      exact taken.deliver unowned read (permits known)
  | recycle job =>
      have taken := holds.resume job
      exact taken.recycle (permits taken.fit.2)
  | @expire expired c queue pops =>
      have popped := holds.popAck (popBy_perm pops).1
      have taken : Holds w { s with ackPendingQueue := queue }
          (Job.seats (.expired c) ++ []) := popped.recast popped.fit.1 (permits _ popped.fit.2)
      exact taken.putJob
  | retry job =>
      have taken := holds.resume job
      obtain ⟨again, connect, last⟩ := permits taken.fit.2
      exact taken.retry again connect last
  | @userPop c queue pending =>
      have popped : Holds w { s with userEventCallbackQueue := queue }
          [⟨c, .userQueue⟩] := holds.popUser (pending ▸ .refl _)
      have taken : Holds w { s with userEventCallbackQueue := queue }
          (Job.seats (.reporting c) ++ []) := popped.recast popped.fit.1 (permits _ popped.fit.2)
      exact taken.putJob
  | report job =>
      have taken := holds.resume job
      exact taken.report fun counted => permits counted taken.fit.2
  | checkAlive => exact holds.checkAlive permits

end Holds

/-- Only the places of the chunks matter. -/
def Watch.places : Watch := ⟨fun _ _ => True, False, False⟩

/-- In every run chunks are where they belong, whatever the calls that give up take. -/
theorem Holds.places {s t : Client} {events : List Event} (holds : Holds .places s [])
    (run : Run.Steps Client.Transition s events t) : Holds .places t [] := by
  refine run.invariant (I := fun s => Holds .places s []) ?_ holds
  intro s e t holds transition
  refine holds.step ?_ transition
  cases e with
  | poll c seen failed =>
      exact fun _ _ _ _ => ⟨fun never => never.elim, fun never => never.elim⟩
  | _ => exact Client.permits_of_plain (by simp) (fun _ _ => trivial) fun never => never

end StDevice.Mqtt
