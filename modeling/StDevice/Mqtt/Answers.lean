import StDevice.Mqtt.Waiting

/-!
# The packet that answers

A packet of the wire format is taken apart where its length bytes say. This gives the
return code of a CONNACK and the first granted QoS of a SUBACK as bytes of the body, and
from it what one call of `_iot_mqtt_run_read_stream` does to the packet of a call: it
acknowledges it, or it leaves it alone.
-/

namespace StDevice.Mqtt

open Client

theorem MsgType.ofCode_code (type : MsgType) : MsgType.ofCode type.code = some type := by
  cases type <;> rfl

theorem MsgType.code_of_ofCode {code : Nat} {type : MsgType}
    (known : MsgType.ofCode code = some type) : code = type.code := by
  have found := List.find?_some known
  exact (beq_iff_eq.mp found).symm

namespace WirePacket

variable (packet : WirePacket)

theorem decodeBuf_bytes :
    mqttPacketDecodeBuf packet.bytes 1 = some (packet.lengthBytes.length, packet.body.length) := by
  have decoded : Varint.decode maxNumOfRemainingLengthBytes (packet.lengthBytes ++ packet.body) =
      some (Varint.value packet.lengthBytes, packet.body) :=
    Varint.decode_of_terminated packet.terminated packet.short packet.body
  have found : readRemainingLength (packet.lengthBytes ++ packet.body) (0 + 1) 0 1 =
      some (1 + packet.lengthBytes.length, packet.body.length, packet.body) := by
    rw [readRemainingLength_eq, Nat.sub_zero, decoded, packet.size]
    simp
  have agrees : ∀ i, 0 + 1 + i < 1 + packet.lengthBytes.length →
      byteAt packet.bytes (0 + 1 + i) = (packet.lengthBytes ++ packet.body)[i]? := by
    intro i _
    rw [byteAt, bytes, show 0 + 1 + i = i + 1 by omega, List.getElem?_cons_succ]
  obtain ⟨-, length⟩ := mqttPacketDecode_eq found agrees
  rw [Nat.add_sub_cancel_left] at length
  exact length

theorem byteAt_body (i : Nat) :
    byteAt packet.bytes (1 + packet.lengthBytes.length + i) = packet.body[i]? := by
  rw [byteAt, bytes, show 1 + packet.lengthBytes.length + i = packet.lengthBytes.length + i + 1 by
    omega, List.getElem?_cons_succ, List.getElem?_append_right (Nat.le_add_right _ _),
    Nat.add_sub_cancel_left]

theorem readChar_header : readChar packet.bytes 0 = some (packet.header, 1) := rfl

/-- `ack_rc` is the second byte of the body of a CONNACK, or 0 if there is none. -/
theorem connackRc_bytes (connack : packetType packet.header = MsgType.connack.code) :
    Link.connackRc packet.bytes = packet.body[1]?.elim 0 UInt8.toNat := by
  unfold Link.connackRc mqttDeserializeConnack
  rw [packet.readChar_header]
  simp only [Option.bind_eq_bind, Option.bind_some, Option.pure_def]
  rw [if_neg (not_not.mpr connack), packet.decodeBuf_bytes]
  simp only [Option.bind_some]
  by_cases short : packet.body.length < 2
  · rw [if_pos short, List.getElem?_eq_none (by omega)]
    rfl
  · have flags := packet.byteAt_body 0
    have code := packet.byteAt_body 1
    rw [List.getElem?_eq_getElem (by omega)] at flags code
    rw [if_neg short, List.getElem?_eq_getElem (by omega)]
    simp only [readChar, Nat.add_zero] at flags ⊢
    rw [flags]
    simp only [Option.map_some, Option.bind_some]
    rw [code]
    rfl

/-- A SUBACK for a packet identifier, with a return code for each topic. -/
def IsSuback (packet : WirePacket) (id : Nat) (codes : List UInt8) : Prop :=
  packetType packet.header = MsgType.suback.code ∧
    ∃ high low, packet.body = high :: low :: codes ∧ 256 * high.toNat + low.toNat = id

variable {packet}

theorem IsSuback.readInt {id : Nat} {codes : List UInt8} (suback : packet.IsSuback id codes) :
    Mqtt.readInt packet.bytes (1 + packet.lengthBytes.length) =
      some (id, 1 + packet.lengthBytes.length + 2) := by
  obtain ⟨-, high, low, body, rfl⟩ := suback
  have first := packet.byteAt_body 0
  have second := packet.byteAt_body 1
  rw [body] at first second
  rw [Nat.add_zero] at first
  unfold Mqtt.readInt
  rw [first, second]
  rfl

/-- The identifier of a SUBACK is in bounds. -/
theorem IsSuback.packetId {id : Nat} {codes : List UInt8} (suback : packet.IsSuback id codes)
    (leftFirst : Bool) : mqttPacketGetPacketId leftFirst packet.bytes = some id := by
  have type := suback.1
  unfold mqttPacketGetPacketId
  have header : byteAt packet.bytes 0 = some packet.header := rfl
  rw [header]
  simp only [Option.bind_eq_bind, Option.bind_some, Option.pure_def]
  rw [type, if_neg (by decide), if_pos (by decide), packet.decodeBuf_bytes]
  simp only [Option.bind_some]
  rw [suback.readInt]
  rfl

/-- Only the first return code of a SUBACK is looked at. -/
theorem IsSuback.subackQos {id : Nat} {code : UInt8} {codes : List UInt8}
    (suback : packet.IsSuback id (code :: codes)) (p : Platform) (ackQos : Int) :
    Link.subackQos p ackQos packet.bytes = charToInt p.signedChar code := by
  have read := suback.readInt
  obtain ⟨type, high, low, body, -⟩ := suback
  have first := packet.byteAt_body 2
  rw [body] at first
  have length : packet.body.length - 2 = codes.length + 1 := by simp [body]
  unfold Link.subackQos mqttDeserializeSuback
  rw [packet.readChar_header]
  simp only [Option.bind_eq_bind, Option.bind_some, Option.pure_def]
  rw [if_neg (not_not.mpr type), packet.decodeBuf_bytes]
  simp only [Option.bind_some]
  rw [if_neg (by simp [body]), read]
  simp only [Option.bind_some, length, readGrantedQoSs, List.length_nil, readChar]
  rw [if_neg (by omega), first]
  simp only [List.getElem?_cons_succ, List.getElem?_cons_zero, Option.map_some,
    List.nil_append]
  cases codes with
  | nil => rfl
  | cons next codes => rfl

end WirePacket

/-- A search asks only about the chunks of the queue. -/
theorem popBy_congr {wanted other : Nat → Bool} {queue : List Nat}
    (same : ∀ d ∈ queue, wanted d = other d) : popBy wanted queue = popBy other queue := by
  induction queue with
  | nil => rfl
  | cons d queue ih =>
      obtain ⟨here, later⟩ := List.forall_mem_cons.mp same
      rw [popBy, popBy, here, ih later]

/-- The chunks of the queue are older than the next one. -/
theorem Holds.ackQueue_old {w : Watch} {s : Client} {d : Nat} (holds : Holds w s [])
    (mem : d ∈ s.ackPendingQueue) : d < s.created := by
  obtain ⟨front, back, split⟩ := List.append_of_mem mem
  have perm : s.ackPendingQueue.Perm (d :: (front ++ back)) := split ▸ List.perm_middle
  exact (holds.popAck perm).present.1

namespace Link

variable {s : Link} {c id : Nat} {q : Request} {p : Platform} {reading : Reading}
  {packet : WirePacket}

/-- The packet is the next one that is read. -/
structure Hears (s : Link) (reading : Reading) (packet : WirePacket) : Prop where
  connected : s.isconnected = true
  ready : reading.poll = .ready
  next : packet.bytes <+: s.net.stream

/-- The identifier a packet is read with. -/
def heardId (p : Platform) (reading : Reading) (packet : WirePacket) : Nat :=
  (mqttPacketGetPacketId p.leftFirst packet.bytes).getD reading.strayId

/-- The chunk that an acknowledgement finds. -/
def finds (s : Link) (awaited : MsgType) (id : Nat) : Option Nat :=
  (popBy (s.client.hasTypeAndId (some awaited) id) s.client.ackPendingQueue).map Prod.fst

/-- The next packet, behind the arrival of its chunk. -/
theorem runReadStream_hears (p : Platform) (hears : s.Hears reading packet) :
    ∃ net, s.iotMqttRunReadStream p reading =
      ((s.arrive p reading.strayId net packet.received).iotMqttProcessPostRead p reading.ackQos
        packet.bytes s.client.created, 0) := by
  obtain ⟨tail, stream⟩ := hears.next
  obtain ⟨cuts, read⟩ := readChunk_of_packet packet stream.symm
  refine ⟨⟨tail, cuts⟩, ?_⟩
  unfold iotMqttRunReadStream
  rw [hears.connected, if_neg (by simp), hears.ready]
  dsimp only
  rw [read]
  rfl

/-- A call that reads no packet only closes the connection, if it does anything. -/
theorem runReadStream_deaf (p : Platform) (deaf : ∀ packet, ¬ s.Hears reading packet) :
    (s.iotMqttRunReadStream p reading).1 = s ∨ (s.iotMqttRunReadStream p reading).1 = s.hangUp := by
  unfold iotMqttRunReadStream
  split
  case isTrue => exact .inl rfl
  case isFalse connected =>
    split
    case h_1 => exact .inr rfl
    case h_2 => exact .inl rfl
    case h_3 ready =>
      have none : ∀ packet : WirePacket, ¬ packet.bytes <+: s.net.stream := by
        intro packet next
        exact deaf packet ⟨by simpa using connected, ready, next⟩
      rw [readChunk_of_not_packet none]
      exact .inr rfl

/-- A search finds the same after a packet has arrived. -/
theorem popBy_arrive (holds : Holds .places s.client []) (strayId : Nat) (net : Net)
    (received : Received) (awaited : MsgType) (id : Nat) :
    popBy ((s.arrive p strayId net received).client.hasTypeAndId (some awaited) id)
        (s.arrive p strayId net received).client.ackPendingQueue =
      popBy (s.client.hasTypeAndId (some awaited) id) s.client.ackPendingQueue := by
  refine popBy_congr fun d mem => ?_
  have old := holds.ackQueue_old mem
  have same : (s.arrive p strayId net received).client.chunk d = s.client.chunk d :=
    Function.update_of_ne (Nat.ne_of_lt old) _ _
  rw [hasTypeAndId, hasTypeAndId, same]

theorem chunk_arrive (strayId : Nat) (net : Net) :
    (s.arrive p strayId net packet.received).client.chunk s.client.created =
      received (readFields p strayId packet.received) :=
  Function.update_self _ _ _

theorem Hears.packetType_arrive (net : Net) {type : MsgType}
    (known : packetType packet.header = type.code) :
    ((s.arrive p reading.strayId net packet.received).client.chunk
      s.client.created).packetType = some type := by
  rw [chunk_arrive]
  have code : packet.received.packetType = type.code := known
  simp only [received, readFields, code, MsgType.ofCode_code]

/-- The packets that acknowledge something are handled alike. -/
theorem postRead_ack {ackQos : Int} {chunk : List UInt8} {r : Nat} {ack awaited : MsgType}
    (type : (s.client.chunk r).packetType = some ack) (awaits : awaitedType ack = some awaited) :
    s.iotMqttProcessPostRead p ackQos chunk r =
      s.iotMqttProcessReceivedAck p ackQos chunk r ack awaited := by
  unfold iotMqttProcessPostRead
  rw [type]
  cases ack with
  | connack | puback | suback | unsuback | pubcomp | pingresp =>
      obtain rfl := Option.some.inj awaits
      rfl
  | _ => cases awaits

/-- What an acknowledgement does that finds the packet of the call. -/
structure Answered (p : Platform) (c : Nat) (s : Link) (reading : Reading) (packet : WirePacket)
    (ack : MsgType) (t : Link) : Prop where
  acknowledged : (t.client.chunk c).chunkState = .acknowledged
  returnCode : t.returnCode c =
    (ackReturnCode p reading.ackQos ack packet.bytes).getD (s.returnCode c)
  heard : t.heard = s.heard ++ [packet.bytes]

/-- An acknowledgement that finds the packet of the call acknowledges it. -/
theorem read_answer (ours : s.client.Ours c q id) (hears : s.Hears reading packet)
    {ack awaited : MsgType} (type : packetType packet.header = ack.code)
    (awaits : awaitedType ack = some awaited)
    (found : s.finds awaited (awaitedId ack (heardId p reading packet)) = some c) :
    (s.iotMqttRunReadStream p reading).2 = 0 ∧
      Answered p c s reading packet ack (s.iotMqttRunReadStream p reading).1 := by
  obtain ⟨net, read⟩ := runReadStream_hears p hears
  obtain ⟨⟨d, queue⟩, pops, rfl⟩ := Option.map_eq_some_iff.mp found
  have chunk : (s.arrive p reading.strayId net packet.received).client.chunk d =
      s.client.chunk d := Function.update_of_ne (Nat.ne_of_lt ours.old) _ _
  have processed : (s.arrive p reading.strayId net packet.received).iotMqttProcessPostRead p
      reading.ackQos packet.bytes s.client.created =
        (s.arrive p reading.strayId net packet.received).iotMqttProcessReceivedAck p
          reading.ackQos packet.bytes s.client.created ack awaited := by
    exact postRead_ack (Hears.packetType_arrive net type) awaits
  rw [read, processed]
  refine ⟨rfl, ?_⟩
  unfold iotMqttProcessReceivedAck
  rw [popBy_arrive ours.holds, chunk_arrive]
  have identifier : (received (readFields p reading.strayId packet.received)).packetId =
      heardId p reading packet := rfl
  rw [identifier, pops]
  dsimp only
  refine ⟨?_, ?_, rfl⟩
  · unfold acknowledge
    rw [if_pos (by rw [chunk]; exact ours.owned)]
    simp [setState, store, destroy]
  · cases ackReturnCode p reading.ackQos ack packet.bytes with
    | none => rfl
    | some code => exact Function.update_self _ _ _

/-! ## In a turn -/

/-- The state in which a turn reads. -/
def atRead (s : Link) : Turn → Link
  | .cycle cycle => (s.iotMqttRunWriteStream cycle.written).1
  | .listen _ => s

/-- A connection that is still open after writing was open before, and nothing failed. -/
theorem runWriteStream_of_connected {written : Bool}
    (connected : (s.iotMqttRunWriteStream written).1.isconnected = true) :
    ¬ (s.iotMqttRunWriteStream written).2 < 0 := by
  unfold iotMqttRunWriteStream at connected ⊢
  split
  case h_1 => simp
  case h_2 c queue pending =>
    simp only [pending] at connected
    dsimp only
    split
    case isTrue closed =>
      rw [if_pos closed] at connected
      exact absurd (closed.symm.trans connected) (by simp)
    case isFalse opened =>
      rw [if_neg opened] at connected
      split
      case isTrue => simp
      case isFalse failed =>
        rw [if_neg failed] at connected
        exact absurd connected (by simp [hangUp, iotMqttCloseNet])

theorem heard_runWriteStream (s : Link) (written : Bool) :
    (s.iotMqttRunWriteStream written).1.heard = s.heard := by
  unfold iotMqttRunWriteStream
  split
  case h_1 => rfl
  case h_2 =>
    dsimp only
    split
    case isTrue => rfl
    case isFalse => split <;> rfl

/-- The packet of the call is answered within a cycle. -/
theorem runCycle_answer {cycle : Cycle} (ours : s.client.Ours c q id)
    (hears : (s.atRead (.cycle cycle)).Hears cycle.reading packet) {ack awaited : MsgType}
    (type : packetType packet.header = ack.code) (awaits : awaitedType ack = some awaited)
    (found : (s.atRead (.cycle cycle)).finds awaited
      (awaitedId ack (heardId p cycle.reading packet)) = some c) :
    Answered p c (s.atRead (.cycle cycle)) cycle.reading packet ack
      (s.iotMqttRunCycle p cycle).1 := by
  have written : (s.atRead (.cycle cycle)).client.Ours c q id :=
    ours.reaches (s.reaches_runWriteStream cycle.written)
  obtain ⟨rc, answered⟩ := read_answer written hears type awaits found
  have read := written.reaches (reaches_runReadStream _ p cycle.reading)
  have final : ¬ (((s.atRead (.cycle cycle)).iotMqttRunReadStream p
      cycle.reading).1.client.chunk c).Pending := by
    simp [Chunk.Pending, answered.acknowledged]
  have same := same_rest read final cycle
  have goesOn : ¬ ((s.iotMqttRunWriteStream cycle.written).1.iotMqttRunReadStream p
      cycle.reading).2 < 0 := Int.not_lt.mpr (Int.le_of_eq rc.symm)
  rw [runCycle_eq, if_neg (runWriteStream_of_connected hears.connected), if_neg goesOn]
  refine ⟨?_, ?_, ?_⟩
  · exact (congrArg Chunk.chunkState same.chunk).trans answered.acknowledged
  · exact same.returnCode.trans answered.returnCode
  · exact (rest_quiet _ cycle).2.trans answered.heard

/-- A call whose packet is answered returns the return code of the answer. -/
theorem waitFor_answer {turn : Turn} {after : List Turn} (ours : s.client.Ours c q id)
    (hears : (s.atRead turn).Hears turn.reading packet) {ack awaited : MsgType}
    (type : packetType packet.header = ack.code) (awaits : awaitedType ack = some awaited)
    (found : (s.atRead turn).finds awaited (awaitedId ack (heardId p turn.reading packet)) = some c)
    (returns : ∃ cycle, .cycle cycle ∈ turn :: after) :
    ∃ t, s.iotMqttWaitFor p c (turn :: after) =
      some (t, (ackReturnCode p turn.reading.ackQos ack packet.bytes).getD
        ((s.atRead turn).returnCode c)) := by
  cases turn with
  | cycle cycle =>
      have answered := runCycle_answer ours hears type awaits found
      have result : (s.iotMqttRunCycle p cycle).1.waitResult c (s.iotMqttRunCycle p cycle).2 =
          some ((s.iotMqttRunCycle p cycle).1.returnCode c) := by
        unfold waitResult
        rw [answered.acknowledged]
      refine ⟨(s.turn p c (.cycle cycle)).1, ?_⟩
      unfold iotMqttWaitFor Link.turn
      simp only [result, answered.returnCode]
      rfl
  | listen reading =>
      obtain ⟨-, answered⟩ := read_answer ours hears type awaits found
      have later : ∃ cycle, .cycle cycle ∈ after := by
        obtain ⟨cycle, mem⟩ := returns
        exact ⟨cycle, by simpa using mem⟩
      obtain ⟨t, waits⟩ := waitFor_acknowledged (p := p)
        (ours.reaches (s.reaches_runReadStream p reading)) answered.acknowledged later
      exact ⟨t, waits.trans (congrArg (fun rc => some (t, rc)) answered.returnCode)⟩

end Link

end StDevice.Mqtt
