import StDevice.Mqtt.Answers

/-!
# Connecting

`st_mqtt_connect` waits until a CONNACK finds its CONNECT. The return code of the CONNACK is
read into a variable that is 0 before, and a CONNACK without return code leaves it so. Such
a packet is taken for the broker's consent.

The chunk of the call is followed through the parts of a cycle: each of them leaves it
alone, or puts it into a state with which the call does not succeed. Only a CONNACK does
more.
-/

namespace StDevice.Mqtt

open Client Custody

/-- A CONNACK whose return code accepts the connection. -/
def WirePacket.Accepts (packet : WirePacket) : Prop :=
  packetType packet.header = MsgType.connack.code ∧ packet.body[1]? = some 0

/-- A CONNACK without return code. -/
def WirePacket.IsShort (packet : WirePacket) : Prop :=
  packetType packet.header = MsgType.connack.code ∧ packet.body.length < 2

theorem WirePacket.accepts_iff (packet : WirePacket) :
    packet.Accepts ↔ packetType packet.header = MsgType.connack.code ∧
      2 ≤ packet.body.length ∧ packet.body[1]? = some 0 := by
  constructor
  · rintro ⟨type, code⟩
    have inside := (List.getElem?_eq_some_iff.mp code).1
    exact ⟨type, by omega, code⟩
  · rintro ⟨type, -, code⟩
    exact ⟨type, code⟩

theorem iotMqttConvertReturnCode_eq_zero_iff (code : Nat) :
    iotMqttConvertReturnCode code = 0 ↔ code = 0 := by
  unfold iotMqttConvertReturnCode
  split <;> simp_all [eStMqttFailure]

/-- The return code of a CONNACK is 0 if the packet accepts, or has none. -/
theorem WirePacket.connackRc_eq_zero_iff (packet : WirePacket)
    (connack : packetType packet.header = MsgType.connack.code) :
    Link.connackRc packet.bytes = 0 ↔ packet.Accepts ∨ packet.IsShort := by
  rw [packet.connackRc_bytes connack]
  unfold Accepts IsShort
  cases code : packet.body[1]? with
  | none =>
      have short := List.getElem?_eq_none_iff.mp code
      refine iff_of_true rfl (.inr ⟨connack, by omega⟩)
  | some byte =>
      have inside := (List.getElem?_eq_some_iff.mp code).1
      have zero : byte.toNat = 0 ↔ byte = 0 := UInt8.toNat_inj (b := 0)
      have long : ¬ packet.body.length < 2 := by omega
      simp only [Option.elim_some, zero, connack, true_and, Option.some.injEq, long, or_false]

namespace Link

variable {s t : Link} {c id : Nat} {p : Platform}

/-- A packet read on this connection accepts it. -/
def Accepted (s : Link) : Prop := ∃ packet : WirePacket, packet.bytes ∈ s.heard ∧ packet.Accepts

/-- The states with which a call that waits can succeed. -/
def Done (x : Chunk) : Prop := x.chunkState = .acknowledged ∨ x.chunkState = .writeCompleted

/-- The packet of a call of `st_mqtt_connect`: if the call is about to succeed, the
connection was accepted. -/
structure Connecting (s : Link) (c : Nat) : Prop where
  ours : s.client.Ours c .connect 0
  accepted : Done (s.client.chunk c) → s.returnCode c = 0 → s.Accepted

/-! ## What a cycle does to the CONNECT -/

theorem same_hangUp (old : c < s.client.created) : Same c s s.hangUp :=
  ⟨((Unmoved.create s.client _ old).trans (.pushUser _ (Nat.ne_of_lt old))).chunk, rfl⟩

/-- A chunk that was not written is not done. -/
theorem same_writeFails_of_done {d : Nat} {written : Int}
    (owned : (s.client.chunk c).haveOwner = true)
    (done : Done ((s.writeFails d written).client.chunk c)) :
    Same c s (s.writeFails d written) := by
  by_cases own : d = c
  · subst own
    refine absurd done ?_
    simp [writeFails, writeFailed, giveUp, owned, store, Done]
  · exact ⟨(Unmoved.giveUp s.client _ (Ne.symm own)).chunk,
      Function.update_of_ne (Ne.symm own) _ _⟩

/-- A CONNECT that was written is not done. -/
theorem chunk_postWrite_of_done {d : Nat} {s : Client}
    (type : (s.chunk c).packetType = some .connect) (done : Done ((s.postWrite d).chunk c)) :
    (s.postWrite d).chunk c = s.chunk c := by
  by_cases own : d = c
  · subst own
    refine absurd done ?_
    simp [postWrite, type, awaitAck, setState, store, pushAck, Done]
  · exact (Unmoved.postWrite s (Ne.symm own)).chunk

theorem same_runWriteStream_of_done (ours : s.client.Ours c .connect id) (written : Bool)
    (done : Done ((s.iotMqttRunWriteStream written).1.client.chunk c)) :
    Same c s (s.iotMqttRunWriteStream written).1 := by
  unfold iotMqttRunWriteStream at done ⊢
  split
  case h_1 => exact ⟨rfl, rfl⟩
  case h_2 d queue pending =>
    simp only [pending] at done
    dsimp only at done ⊢
    have popped : Same c s { s with client := { s.client with writePendingQueue := queue } } :=
      ⟨rfl, rfl⟩
    split
    case isTrue closed =>
      rw [if_pos closed] at done
      exact popped.trans (same_writeFails_of_done ours.owned done)
    case isFalse opened =>
      rw [if_neg opened] at done
      split
      case isTrue sent =>
        rw [if_pos sent] at done
        exact ⟨chunk_postWrite_of_done (s := { s.client with writePendingQueue := queue })
          ours.packetType done, rfl⟩
      case isFalse failed =>
        rw [if_neg failed] at done
        have kept : Quiet { s.client with writePendingQueue := queue }
            ({ s.client with writePendingQueue := queue }.writeFailed d) := quiet_giveUp _ _ _
        have old : c < ({ s.client with writePendingQueue := queue }.writeFailed d).created :=
          kept.created ▸ ours.old
        have hungUp := same_hangUp (s := writeFails
          { s with client := { s.client with writePendingQueue := queue } } d
          eStMqttNetworkError) old
        rw [hungUp.chunk] at done
        exact (popped.trans (same_writeFails_of_done ours.owned done)).trans hungUp

/-- A CONNECT whose timer has run out is not done. -/
theorem chunk_retry_of_done {d : Nat} {s : Client}
    (type : (s.chunk c).packetType = some .connect) (owned : (s.chunk c).haveOwner = true)
    (done : Done ((s.retry d).chunk c)) : (s.retry d).chunk c = s.chunk c := by
  by_cases own : d = c
  · subst own
    refine absurd done ?_
    simp [retry, type, giveUp, owned, store, Done]
  · exact (Unmoved.retry s (Ne.symm own)).chunk

theorem chunk_pendingPackets_of_done {s : Client} (ours : s.Ours c .connect id)
    (expired : List (Nat → Bool))
    (done : Done ((iotMqttProcessPendingPackets s expired).chunk c)) :
    (iotMqttProcessPendingPackets s expired).chunk c = s.chunk c := by
  induction expired generalizing s with
  | nil => rfl
  | cons expired later ih =>
      unfold iotMqttProcessPendingPackets at done ⊢
      split
      case h_1 d queue pops =>
        simp only [pops] at done
        have same := ih (ours.reaches (reaches_retry pops)) done
        rw [same] at done ⊢
        exact chunk_retry_of_done (s := { s with ackPendingQueue := queue }) ours.packetType
          ours.owned done
      case h_2 => rfl

theorem same_checkAlive (ours : s.client.Ours c .connect id) (silent : Bool) :
    Same c s (s.iotMqttCheckAlive silent).1 := by
  have checked : Unmoved c s.client s.client.checkAlive :=
    Transition.unmoved (e := .checkAlive) rfl ours.old ours.notPing
  have later := ours.reaches (Client.reaches_checkAlive s.client)
  have alive : Same c s { s with client := s.client.checkAlive } := ⟨checked.chunk, rfl⟩
  unfold iotMqttCheckAlive
  split
  case isTrue =>
    split
    case isTrue => exact alive.trans (same_hangUp later.old)
    case isFalse => exact alive
  case isFalse => exact ⟨rfl, rfl⟩

theorem same_rest_of_done (ours : s.client.Ours c .connect id) (cycle : Cycle)
    (done : Done ((s.rest cycle).1.client.chunk c)) : Same c s (s.rest cycle).1 := by
  have alive := same_checkAlive
    (s := { s with client := iotMqttProcessPendingPackets s.client cycle.expired })
    (ours.reaches (reaches_pendingPackets s.client cycle.expired)) cycle.silent
  have chunk := alive.chunk
  unfold rest at done ⊢
  rw [chunk] at done
  have pending : Same c s
      { s with client := iotMqttProcessPendingPackets s.client cycle.expired } :=
    ⟨chunk_pendingPackets_of_done ours cycle.expired done, rfl⟩
  exact pending.trans alive

/-! ## Reading -/

theorem chunk_receivedPublish {s : Client} {r : Nat} (old : c < s.created) :
    (iotMqttProcessReceivedPublish s r).chunk c = s.chunk c := by
  have delivered (s : Client) : (s.deliver r).chunk = s.chunk := by
    unfold deliver
    split <;> rfl
  unfold iotMqttProcessReceivedPublish
  split
  case isTrue => rw [delivered]
  case isFalse =>
    rw [delivered]
    exact Function.update_of_ne (Nat.ne_of_lt old) _ _

/-- A packet of another type is recycled. -/
theorem chunk_receivedPubrecPubrel {s : Client} {r : Nat} {awaited type : MsgType}
    (known : (s.chunk c).packetType = some type) (other : type ≠ awaited) :
    (iotMqttProcessReceivedPubrecPubrel s r awaited).chunk c = s.chunk c := by
  unfold iotMqttProcessReceivedPubrecPubrel
  split
  case h_1 d queue pops =>
    have different : c ≠ d := by
      rintro rfl
      have wanted := (popBy_perm pops).2
      simp [hasTypeAndId, known, other] at wanted
    exact (Unmoved.store _ _ different).chunk
  case h_2 => rfl

/-- Another packet is acknowledged. -/
theorem same_receivedAck {ackQos : Int} {chunk : List UInt8} {r : Nat} {ack awaited : MsgType}
    (missed : ∀ queue, popBy (s.client.hasTypeAndId (some awaited)
      (awaitedId ack (s.client.chunk r).packetId)) s.client.ackPendingQueue ≠ some (c, queue)) :
    Same c s (s.iotMqttProcessReceivedAck p ackQos chunk r ack awaited) := by
  unfold iotMqttProcessReceivedAck
  split
  case h_1 d queue pops =>
    have different : c ≠ d := by
      rintro rfl
      exact missed queue pops
    refine ⟨(Unmoved.acknowledge { s.client with ackPendingQueue := queue } ack r
      different).chunk, ?_⟩
    dsimp only
    cases ackReturnCode p ackQos ack chunk with
    | none => rfl
    | some code => exact Function.update_of_ne different _ _
  case h_2 => exact ⟨rfl, rfl⟩

/-- Only a CONNACK acknowledges a CONNECT. -/
theorem same_postRead {ackQos : Int} {chunk : List UInt8} {r : Nat} (old : c < s.client.created)
    (type : (s.client.chunk c).packetType = some .connect)
    (other : (s.client.chunk r).packetType = some .connack → ∀ queue,
      popBy (s.client.hasTypeAndId (some .connect) 0) s.client.ackPendingQueue ≠
        some (c, queue)) :
    Same c s (s.iotMqttProcessPostRead p ackQos chunk r) := by
  have missed {awaited : MsgType} (different : awaited ≠ .connect) (id : Nat) (queue : List Nat) :
      popBy (s.client.hasTypeAndId (some awaited) id) s.client.ackPendingQueue ≠
        some (c, queue) := by
    intro pops
    have wanted := (popBy_perm pops).2
    simp [hasTypeAndId, type, Ne.symm different] at wanted
  cases known : (s.client.chunk r).packetType with
  | none =>
      unfold iotMqttProcessPostRead
      rw [known]
      exact ⟨rfl, rfl⟩
  | some read =>
      cases read with
      | connack =>
          rw [postRead_ack known rfl]
          exact same_receivedAck (other known)
      | puback | suback | unsuback | pubcomp | pingresp =>
          rw [postRead_ack known rfl]
          exact same_receivedAck (missed (by simp) _)
      | publish =>
          unfold iotMqttProcessPostRead
          rw [known]
          exact ⟨chunk_receivedPublish old, rfl⟩
      | pubrec | pubrel =>
          unfold iotMqttProcessPostRead
          rw [known]
          exact ⟨chunk_receivedPubrecPubrel type (by simp), rfl⟩
      | connect | subscribe | unsubscribe | pingreq | disconnect =>
          unfold iotMqttProcessPostRead
          rw [known]
          exact ⟨rfl, rfl⟩

/-- A read leaves the CONNECT alone, or it reads a CONNACK that finds it. -/
theorem runReadStream_cases (ours : s.client.Ours c .connect id) (reading : Reading) :
    Same c s (s.iotMqttRunReadStream p reading).1 ∨
      ∃ packet : WirePacket, s.Hears reading packet ∧
        packetType packet.header = MsgType.connack.code ∧ s.finds .connect 0 = some c := by
  by_cases hearing : ∃ packet, s.Hears reading packet
  case neg =>
    rcases runReadStream_deaf p (not_exists.mp hearing) with same | closed
    · rw [same]
      exact .inl ⟨rfl, rfl⟩
    · rw [closed]
      exact .inl (same_hangUp ours.old)
  obtain ⟨packet, hears⟩ := hearing
  obtain ⟨net, read⟩ := runReadStream_hears p hears
  by_cases answer : packetType packet.header = MsgType.connack.code ∧ s.finds .connect 0 = some c
  · exact .inr ⟨packet, hears, answer⟩
  have arrived : Same c s (s.arrive p reading.strayId net packet.received) :=
    ⟨Function.update_of_ne (Nat.ne_of_lt ours.old) _ _, rfl⟩
  have type : ((s.arrive p reading.strayId net packet.received).client.chunk c).packetType =
      some .connect := by
    rw [arrived.chunk]
    exact ours.packetType
  rw [read]
  refine .inl (arrived.trans (same_postRead (Nat.lt_succ_of_lt ours.old) type ?_))
  intro connack queue pops
  rw [popBy_arrive ours.holds] at pops
  refine answer ⟨?_, by rw [finds, pops]; rfl⟩
  rw [chunk_arrive] at connack
  exact MsgType.code_of_ofCode connack

theorem heard_postRead (s : Link) (p : Platform) (ackQos : Int) (chunk : List UInt8) (r : Nat) :
    (s.iotMqttProcessPostRead p ackQos chunk r).heard = s.heard := by
  unfold iotMqttProcessPostRead
  split
  case h_4 =>
    split
    case h_1 =>
      unfold iotMqttProcessReceivedAck
      split <;> rfl
    case h_2 => rfl
  all_goals rfl

/-- What was heard stays heard. -/
theorem heard_runReadStream (s : Link) (p : Platform) (reading : Reading) :
    s.heard ⊆ (s.iotMqttRunReadStream p reading).1.heard := by
  unfold iotMqttRunReadStream
  split
  case isTrue => exact List.Subset.refl _
  case isFalse =>
    split
    case h_1 => exact List.Subset.refl _
    case h_2 => exact List.Subset.refl _
    case h_3 =>
      split
      case h_1 =>
        rw [heard_postRead]
        exact List.subset_append_left _ _
      case h_2 => exact List.Subset.refl _

theorem Accepted.mono (accepted : s.Accepted) (more : s.heard ⊆ t.heard) : t.Accepted := by
  obtain ⟨packet, mem, accepts⟩ := accepted
  exact ⟨packet, more mem, accepts⟩

theorem Accepted.of_heard (accepted : s.Accepted) (same : t.heard = s.heard) : t.Accepted :=
  accepted.mono (same ▸ List.Subset.refl _)

/-! ## The calls -/

/-- In this cycle a CONNACK without return code finds the CONNECT of the call, and no CONNACK
has accepted the connection before. -/
structure ShortAnswer (s : Link) (c : Nat) (cycle : Cycle) (packet : WirePacket) : Prop where
  hears : (s.atRead (.cycle cycle)).Hears cycle.reading packet
  short : packet.IsShort
  found : (s.atRead (.cycle cycle)).finds .connect 0 = some c
  unaccepted : ¬ s.Accepted

/-- A read after which the call is about to succeed, and what was heard by then. -/
theorem accepted_of_read (connecting : s.Connecting c) {reading : Reading}
    (answers : ∀ packet, s.Hears reading packet → packet.IsShort → s.finds .connect 0 = some c →
      s.Accepted)
    (done : Done ((s.iotMqttRunReadStream p reading).1.client.chunk c))
    (zero : (s.iotMqttRunReadStream p reading).1.returnCode c = 0) :
    (s.iotMqttRunReadStream p reading).1.Accepted := by
  have more := heard_runReadStream s p reading
  rcases runReadStream_cases (p := p) connecting.ours reading with same |
    ⟨packet, hears, connack, found⟩
  · rw [same.chunk] at done
    rw [same.returnCode] at zero
    exact (connecting.accepted done zero).mono more
  · obtain ⟨-, answered⟩ := read_answer (p := p) connecting.ours hears connack rfl found
    rw [answered.returnCode] at zero
    have code := (iotMqttConvertReturnCode_eq_zero_iff _).mp zero
    rcases (packet.connackRc_eq_zero_iff connack).mp code with accepts | short
    · refine ⟨packet, ?_, accepts⟩
      rw [answered.heard]
      simp
    · exact (answers packet hears short found).mono more

/-- What a cycle keeps, if it has no such answer. -/
theorem Connecting.runCycle (connecting : s.Connecting c) {cycle : Cycle}
    (regular : ∀ packet, ¬ s.ShortAnswer c cycle packet) :
    (s.iotMqttRunCycle p cycle).1.Connecting c := by
  refine ⟨connecting.ours.reaches (s.reaches_runCycle p cycle), ?_⟩
  have heard : (s.atRead (.cycle cycle)).heard = s.heard := s.heard_runWriteStream cycle.written
  have written : (s.atRead (.cycle cycle)).Connecting c := by
    refine ⟨connecting.ours.reaches (s.reaches_runWriteStream cycle.written), fun done zero => ?_⟩
    have same := same_runWriteStream_of_done connecting.ours cycle.written done
    rw [show (s.atRead (.cycle cycle)).client.chunk c = s.client.chunk c from same.chunk] at done
    rw [show (s.atRead (.cycle cycle)).returnCode c = s.returnCode c from same.returnCode] at zero
    exact (connecting.accepted done zero).of_heard heard
  have answers (packet : WirePacket) (hears : (s.atRead (.cycle cycle)).Hears cycle.reading packet)
      (short : packet.IsShort) (found : (s.atRead (.cycle cycle)).finds .connect 0 = some c) :
      (s.atRead (.cycle cycle)).Accepted := by
    by_contra unaccepted
    exact regular packet ⟨hears, short, found, fun accepted => unaccepted (accepted.of_heard heard)⟩
  rw [runCycle_eq]
  split
  case isTrue => exact written.accepted
  case isFalse =>
    split
    case isTrue => exact accepted_of_read written answers
    case isFalse =>
      intro done zero
      have read := written.ours.reaches (reaches_runReadStream _ p cycle.reading)
      have same := same_rest_of_done read cycle done
      have quiet := rest_quiet ((s.atRead (.cycle cycle)).iotMqttRunReadStream p cycle.reading).1
        cycle
      refine Accepted.of_heard (accepted_of_read (p := p) written answers ?_ ?_) quiet.2
      · exact (show Done (((s.atRead (.cycle cycle)).iotMqttRunReadStream p
          cycle.reading).1.client.chunk c) from same.chunk ▸ done)
      · exact same.returnCode.symm.trans zero

/-- A call that still waits after these cycles has a cycle with such an answer next. -/
def MeetsShortAnswer (s : Link) (p : Platform) (c : Nat) (cycles : List Cycle) : Prop :=
  ∃ before cycle after t packet, cycles = before ++ cycle :: after ∧
    s.stillWaits p c (before.map .cycle) = some t ∧ t.ShortAnswer c cycle packet

theorem waitResult_eq_zero {rc : Int} (returns : s.waitResult c rc = some 0) :
    Done (s.client.chunk c) ∧ s.returnCode c = 0 := by
  unfold waitResult at returns
  unfold Done
  split at returns
  case h_1 | h_2 =>
    split at returns
    case isTrue failed =>
      obtain rfl := Option.some.inj returns
      exact absurd failed.1 (by simp)
    case isFalse => cases returns
  case h_3 completed => exact ⟨.inr completed, Option.some.inj returns⟩
  case h_4 acknowledged => exact ⟨.inl acknowledged, Option.some.inj returns⟩
  case h_8 => cases returns
  all_goals exact absurd (Option.some.inj returns) (by decide)

/-- A call that succeeds was accepted, if it meets no such answer. -/
theorem accepted_of_waitFor {cycles : List Cycle} (connecting : s.Connecting c)
    (regular : ¬ s.MeetsShortAnswer p c cycles)
    (returns : s.iotMqttWaitFor p c (cycles.map .cycle) = some (t, 0)) : t.Accepted := by
  induction cycles generalizing s with
  | nil => cases returns
  | cons cycle cycles ih =>
      have here : (s.iotMqttRunCycle p cycle).1.Connecting c :=
        connecting.runCycle fun packet answer =>
          regular ⟨[], cycle, cycles, s, packet, rfl, rfl, answer⟩
      rw [List.map_cons, iotMqttWaitFor] at returns
      split at returns
      case h_1 u result finishes =>
        obtain ⟨rfl, rfl⟩ := Prod.mk.inj (Option.some.inj returns)
        obtain ⟨rfl, zero⟩ := Prod.mk.inj finishes
        obtain ⟨done, code⟩ := waitResult_eq_zero zero
        exact (here.accepted done code).of_heard rfl
      case h_2 u goesOn =>
        obtain ⟨rfl, waits⟩ := Prod.mk.inj goesOn
        rw [poll_of_waits waits] at returns
        refine ih here ?_ returns
        rintro ⟨before, next, after, v, packet, rfl, waiting, answer⟩
        refine regular ⟨cycle :: before, next, after, v, packet, rfl, ?_, answer⟩
        rw [List.map_cons, stillWaits, goesOn]
        dsimp only
        rw [poll_of_waits waits]
        exact waiting

/-- A call that meets such an answer succeeds without having been accepted. -/
theorem not_accepted_of_shortAnswer {cycle : Cycle} {packet : WirePacket}
    (ours : s.client.Ours c .connect id) (answer : s.ShortAnswer c cycle packet)
    (after : List Cycle) :
    ∃ t, s.iotMqttWaitFor p c ((cycle :: after).map .cycle) = some (t, 0) ∧ ¬ t.Accepted := by
  have answered := runCycle_answer (p := p) ours answer.hears answer.short.1 rfl answer.found
  have code : (s.iotMqttRunCycle p cycle).1.returnCode c = 0 := by
    rw [answered.returnCode]
    exact (iotMqttConvertReturnCode_eq_zero_iff _).mpr
      ((packet.connackRc_eq_zero_iff answer.short.1).mpr (.inr answer.short))
  have result : (s.iotMqttRunCycle p cycle).1.waitResult c (s.iotMqttRunCycle p cycle).2 =
      some 0 := by
    unfold waitResult
    rw [answered.acknowledged]
    exact congrArg some code
  refine ⟨(s.turn p c (.cycle cycle)).1, ?_, ?_⟩
  · rw [List.map_cons, iotMqttWaitFor, Link.turn]
    simp only [result]
  · rintro ⟨other, mem, accepts⟩
    have heard : (s.turn p c (.cycle cycle)).1.heard = s.heard ++ [packet.bytes] := by
      rw [← s.heard_runWriteStream cycle.written]
      exact answered.heard
    rw [heard, List.mem_append, List.mem_singleton] at mem
    rcases mem with before | same
    · exact answer.unaccepted ⟨other, before, accepts⟩
    · have fields : some (other.lengthBytes.length, other.body.length) =
          some (packet.lengthBytes.length, packet.body.length) := by
        rw [← other.decodeBuf_bytes, ← packet.decodeBuf_bytes, same]
      have length := congrArg Prod.snd (Option.some.inj fields)
      have long := (other.accepts_iff.mp accepts).2.1
      have short := answer.short.2
      omega

/-- The packet of a new call. -/
theorem Connecting.start (reached : Client.initial.Reaches s.client) (net : Net) :
    ((s.iotMqttConnectNet net).request .connect).Connecting s.client.created := by
  obtain ⟨events, run⟩ := reached
  have holds : Holds .places s.client [] := Holds.initial.places run
  refine ⟨Ours.request holds, fun done => ?_⟩
  have chunk : (s.client.request .connect).chunk s.client.created =
      s.client.requestPacket .connect := Function.update_self _ _ _
  have pending : Done ((s.client.request .connect).chunk s.client.created) := done
  rw [chunk] at pending
  simp [Done, requestPacket] at pending

/-- `st_mqtt_connect` returns 0 only if a CONNACK accepted the connection, exactly when no
CONNACK without return code is the one that finds its CONNECT. -/
theorem connect_accepted_iff (reached : Client.initial.Reaches s.client) (opens : Option Net)
    (cycles : List Cycle) :
    (∀ t, s.stMqttConnect p opens cycles = some (t, 0) → t.Accepted) ↔
      ∀ net, opens = some net →
        ¬ ((s.iotMqttConnectNet net).request .connect).MeetsShortAnswer p s.client.created
          cycles := by
  cases opens with
  | none =>
      refine iff_of_true (fun t returns => ?_) (by simp)
      exact absurd (Prod.mk.inj (Option.some.inj returns)).2 (by decide)
  | some net =>
      have connecting := Connecting.start reached net
      constructor
      · rintro accepted net' same ⟨before, cycle, after, t, packet, rfl, waits, answer⟩
        obtain rfl := Option.some.inj same
        have ours := connecting.ours.reaches (reaches_stillWaits waits)
        obtain ⟨u, returns, refused⟩ := not_accepted_of_shortAnswer (p := p) ours answer
          after
        refine refused (accepted u ?_)
        rw [stMqttConnect, List.map_append, waitFor_append waits, returns]
        rfl
      · intro regular t returns
        obtain ⟨⟨u, rc⟩, waited, same⟩ := Option.map_eq_some_iff.mp returns
        obtain ⟨state, rfl⟩ := Prod.mk.inj same
        rw [if_neg (by simp)] at state
        obtain rfl := state
        exact accepted_of_waitFor connecting (regular net rfl) waited

/-- A client that was not connected before. -/
def unconnected : Link where
  client := .initial
  net := ⟨[], fun _ => 0⟩
  isconnected := false
  returnCode := fun _ => 0
  heard := []

/-- A cycle that writes the CONNECT and reads what there is. -/
def oneCycle : Cycle := { written := true, reading := { poll := .ready } }

/-- The broker accepts. -/
theorem connect_accepted_iff_connack :
    (∀ t, unconnected.stMqttConnect ⟨true, false⟩ (some ⟨[0x20, 2, 0, 0], fun _ => 0⟩)
        [oneCycle] = some (t, 0) → t.Accepted) ↔
      ∀ net, some ⟨[0x20, 2, 0, 0], fun _ => 0⟩ = some net →
        ¬ ((unconnected.iotMqttConnectNet net).request .connect).MeetsShortAnswer ⟨true, false⟩ 1
          [oneCycle] :=
  connect_accepted_iff (.refl _) _ _

/-- A CONNACK without body. -/
def emptyConnack : WirePacket where
  header := 0x20
  lengthBytes := [0]
  body := []
  terminated := ⟨[], 0, rfl, by simp, by decide⟩
  short := by decide
  size := by simp [Varint.value]

/-- It is taken for the broker's consent. -/
theorem emptyConnack_connects : ∃ t,
    unconnected.stMqttConnect ⟨true, false⟩ (some ⟨emptyConnack.bytes, fun _ => 0⟩) [oneCycle] =
      some (t, 0) ∧ ¬ t.Accepted := by
  have connecting := Connecting.start (s := unconnected) (.refl _)
    ⟨emptyConnack.bytes, fun _ => 0⟩
  have type : packetType 0x20 = MsgType.connack.code := by decide
  have answer : ((unconnected.iotMqttConnectNet ⟨emptyConnack.bytes, fun _ => 0⟩).request
      .connect).ShortAnswer 1 oneCycle emptyConnack := by
    refine ⟨⟨rfl, rfl, List.prefix_refl _⟩, ⟨type, by decide⟩, rfl, ?_⟩
    rintro ⟨packet, mem, -⟩
    exact absurd mem (by simp [Link.request, iotMqttConnectNet])
  obtain ⟨t, returns, refused⟩ := not_accepted_of_shortAnswer (p := ⟨true, false⟩)
    connecting.ours answer []
  refine ⟨t, ?_, refused⟩
  have waited : ((unconnected.iotMqttConnectNet ⟨emptyConnack.bytes, fun _ => 0⟩).request
      .connect).iotMqttWaitFor ⟨true, false⟩ unconnected.client.created ([oneCycle].map .cycle) =
        some (t, 0) := returns
  rw [stMqttConnect, waited]
  rfl

end Link

end StDevice.Mqtt
