import StDevice.Foundation.Framing
import StDevice.Mqtt.Packet
import Mathlib.Tactic.Ring

/-!
# The client's outgoing byte stream and the reader's framing rule

A chunk is allocated with the size one function predicts and filled by another;
the writer then sends all bytes of the chunk. When fewer bytes were stored than
predicted, the tail of the chunk is whatever the allocation contained, so the
uninitialised contents are a parameter here.

The framing rule is the one of `_iot_mqtt_run_read_stream`: one header byte, at
most four length bytes, then as many bytes as they announce.
-/

namespace StDevice.Mqtt

/-- `st_mqtt_connect_data`. -/
structure StMqttConnectData where
  mqttVer : UInt8
  username : Option CString
  password : Option CString
  clientid : Option CString
  aliveInterval : UInt16
  cleansession : UInt8
  willFlag : UInt8
  willTopic : Option CString
  willMessage : Option CString
  willRetained : UInt8
  willQos : UInt8

/-- The options `st_mqtt_connect` fills in. Without a will the initializer's
empty will remains. -/
def connectOptions (connectData : StMqttConnectData) : MqttConnectData where
  mqttVersion := connectData.mqttVer
  clientID := .ofCString connectData.clientid
  keepAliveInterval := connectData.aliveInterval
  cleansession := connectData.cleansession
  willFlag := if connectData.willFlag ≠ 0 then 1 else 0
  will :=
    if connectData.willFlag ≠ 0 then
      { topicName := .ofCString connectData.willTopic
        message := .ofCString connectData.willMessage
        retained := connectData.willRetained
        qos := connectData.willQos }
    else { topicName := ⟨none, none⟩, message := ⟨none, none⟩, retained := 0, qos := 0 }
  username := .ofCString connectData.username
  password := .ofCString connectData.password

/-- `st_mqtt_msg` as a caller fills it in for publishing. -/
structure StMqttMsg where
  topic : Option CString
  payload : List UInt8
  qos : Int
  retained : UInt8

/-- Acknowledgements the client itself creates or recycles a chunk into. -/
inductive AckType where
  | puback | pubrec | pubrel | pubcomp
  deriving DecidableEq, Repr

def AckType.msgType : AckType → MsgType
  | .puback => .puback
  | .pubrec => .pubrec
  | .pubrel => .pubrel
  | .pubcomp => .pubcomp

/-- The packets the client puts into its write queue, with the values it passes
to the serializers. Packet identifiers are passed as `unsigned short`. -/
inductive ClientPacket where
  | connect (connectData : StMqttConnectData)
  | publish (msg : StMqttMsg) (packetId : UInt16)
  | subscribe (packetId : UInt16) (topics : List (Option CString × Int))
  | unsubscribe (packetId : UInt16) (topics : List (Option CString))
  | ack (type : AckType) (packetId : UInt16)
  | pingreq
  | disconnect

namespace ClientPacket

/-- What the packet's length function returns. The packets of fixed size have no
length function; their remaining length is the one their serializer encodes. -/
def remainingLength : ClientPacket → Nat
  | connect connectData => mqttSerializeConnectLength (connectOptions connectData)
  | publish msg _ => mqttSerializePublishLength msg.qos (.ofCString msg.topic) msg.payload.length
  | subscribe _ topics =>
      mqttSerializeSubscribeLength (topics.map fun t => .ofCString t.1)
  | unsubscribe _ topics => mqttSerializeUnsubscribeLength (topics.map .ofCString)
  | ack _ _ => 2
  | pingreq => 0
  | disconnect => 0

/-- The `chunk_size` the client allocates: `MQTT_ACK_PACKET_SIZE`,
`MQTT_PINGREQ_PACKET_SIZE` and `MQTT_DISCONNECT_PACKET_SIZE` are constants. -/
def chunkSize : ClientPacket → Nat
  | connect connectData => mqttSerializeConnectSize (connectOptions connectData)
  | publish msg _ => mqttSerializePublishSize msg.qos (.ofCString msg.topic) msg.payload.length
  | subscribe _ topics => mqttSerializeSubscribeSize (topics.map fun t => .ofCString t.1)
  | unsubscribe _ topics => mqttSerializeUnsubscribeSize (topics.map .ofCString)
  | ack _ _ => 4
  | pingreq => 2
  | disconnect => 2

/-- The serializer call made on the new chunk, with the chunk size as `buflen`. -/
def serializeInto (buflen : Nat) : ClientPacket → Except PacketError (List UInt8)
  | connect connectData => mqttSerializeConnect buflen (connectOptions connectData)
  | publish msg packetId =>
      mqttSerializePublish buflen 0 msg.qos msg.retained.toNat packetId.toNat
        (.ofCString msg.topic) msg.payload
  | subscribe packetId topics =>
      mqttSerializeSubscribe buflen 0 packetId.toNat (topics.map fun t => (.ofCString t.1, t.2))
  | unsubscribe packetId topics =>
      mqttSerializeUnsubscribe buflen 0 packetId.toNat (topics.map .ofCString)
  | ack type packetId => mqttSerializeAck buflen type.msgType 0 packetId.toNat
  | pingreq => mqttSerializePingreq buflen
  | disconnect => mqttSerializeDisconnect buflen

/-- The bytes stored into the chunk. The client ignores the serializer's return
value; a refused call stores nothing. -/
def written (p : ClientPacket) : List UInt8 :=
  match p.serializeInto p.chunkSize with
  | .ok bytes => bytes
  | .error _ => []

/-- Contents of the chunk when it is sent: stored bytes over the bytes `fresh`
that the allocation happened to contain. -/
def chunkData (fresh : Nat → UInt8) (p : ClientPacket) : List UInt8 :=
  (List.range p.chunkSize).map fun i => p.written.getD i (fresh i)

end ClientPacket

/-- Everything `_iot_mqtt_run_write_stream` sends for a sequence of packets, one
chunk after the other and `chunk_size` bytes of each. -/
def iotMqttRunWriteStream (fresh : Nat → UInt8) (packets : List ClientPacket) : List UInt8 :=
  (packets.map (ClientPacket.chunkData fresh)).flatten

/-- `MAX_NUM_OF_REMAINING_LENGTH_BYTES`. -/
def maxNumOfRemainingLengthBytes : Nat := 4

/-- The `do … while` loop over the length bytes. `read` counts the bytes of the
packet read so far; the result adds the remaining size and the unread stream. -/
def readRemainingLength :
    List UInt8 → (read remSize multiplier : Nat) → Option (Nat × Nat × List UInt8)
  | [], _, _, _ => none
  | b :: stream, read, remSize, multiplier =>
      if read - 1 ≥ maxNumOfRemainingLengthBytes then none
      else
        let remSize := remSize + (b &&& 127).toNat * multiplier
        if (b &&& 128) ≠ 0 then readRemainingLength stream (read + 1) remSize (multiplier * 128)
        else some (read + 1, remSize, stream)

/-- One packet from the front of the stream, and the stream after it. `none` is
a network error: the stream ends inside the packet or the length is too long. -/
def readFrame : List UInt8 → Option (List UInt8 × List UInt8)
  | [] => none
  | header :: stream =>
      match readRemainingLength stream 1 0 1 with
      | none => none
      | some (read, remSize, _) =>
          if (header :: stream).length < read + remSize then none
          else some ((header :: stream).take (read + remSize),
            (header :: stream).drop (read + remSize))

/-- The packets a reader recovers from a byte stream. -/
def splitPackets (stream : List UInt8) : Option (List (List UInt8)) :=
  Framing.split readFrame stream

/-! ## The framing rule reads the seven-bit length field -/

theorem and_127 (b : UInt8) : (b &&& 127).toNat = b.toNat % 128 := by
  rw [UInt8.toNat_and]
  exact Nat.and_two_pow_sub_one_eq_mod b.toNat 7

theorem and_128_eq_zero_iff (b : UInt8) : b &&& 128 = 0 ↔ b.toNat < 128 := by
  have all : ∀ n : Fin 256, UInt8.ofNat n.val &&& 128 = 0 ↔ n.val < 128 := by decide +kernel
  simpa using all ⟨b.toNat, b.toNat_lt⟩

/-- The accumulating loop computes the library's decoder: `remSize` collects the
groups weighted by `multiplier`, and `read` counts the bytes consumed. -/
theorem readRemainingLength_eq (stream : List UInt8) (k remSize multiplier : Nat) :
    readRemainingLength stream (k + 1) remSize multiplier =
      (Varint.decode (maxNumOfRemainingLengthBytes - k) stream).map fun r =>
        (k + 1 + (stream.length - r.2.length), remSize + r.1 * multiplier, r.2) := by
  induction stream generalizing k remSize multiplier with
  | nil => cases h : maxNumOfRemainingLengthBytes - k <;> rfl
  | cons b stream ih =>
      rw [readRemainingLength, Nat.add_sub_cancel]
      by_cases full : k ≥ maxNumOfRemainingLengthBytes
      · rw [if_pos full, Nat.sub_eq_zero_of_le full, Varint.decode, Option.map_none]
      · obtain ⟨limit, hlimit⟩ : ∃ limit, maxNumOfRemainingLengthBytes - k = limit + 1 :=
          ⟨maxNumOfRemainingLengthBytes - (k + 1), by omega⟩
        have next : maxNumOfRemainingLengthBytes - (k + 1) = limit := by omega
        rw [if_neg full, hlimit, Varint.decode]
        by_cases last : b.toNat < 128
        · have group : (b &&& 127).toNat = b.toNat := by rw [and_127, Nat.mod_eq_of_lt last]
          have final : b &&& 128 = 0 := (and_128_eq_zero_iff b).mpr last
          simp only [final, group, ne_eq, not_true, if_false, if_pos last, Option.map_some,
            List.length_cons]
          simp only [Option.some.injEq, Prod.mk.injEq, and_true]
          omega
        · have continued : b &&& 128 ≠ 0 := fun h => last ((and_128_eq_zero_iff b).mp h)
          simp only [continued, ne_eq, not_false_eq_true, if_true, if_neg last, ih, next, and_127,
            Option.map_map]
          cases decoded : Varint.decode limit stream with
          | none => rfl
          | some r =>
              have shorter := Varint.decode_length_lt decoded
              simp only [Option.map_some, Function.comp_apply, List.length_cons,
                Option.some.injEq, Prod.mk.injEq, and_true]
              constructor
              · omega
              · ring

/-- The length field of a body is read back. -/
theorem readRemainingLength_encode {body : List UInt8} (h : body.length ≤ 268435455)
    (rest : List UInt8) :
    readRemainingLength (mqttPacketEncode body.length ++ (body ++ rest)) 1 0 1 =
      some (1 + (mqttPacketEncode body.length).length, body.length, body ++ rest) := by
  have decoded : Varint.decode 4 (mqttPacketEncode body.length ++ (body ++ rest)) =
      some (body.length, body ++ rest) := by
    rw [mqttPacketEncode_eq]
    exact Varint.decode_encode_append (by omega) _
  rw [readRemainingLength_eq _ 0, show maxNumOfRemainingLengthBytes - 0 = 4 from rfl, decoded,
    Option.map_some]
  simp

/-- A packet that announces its body exactly is recognised whatever follows. -/
theorem delimited_of_body {header : UInt8} {body : List UInt8} (h : body.length ≤ 268435455) :
    Framing.Delimited readFrame (header :: (mqttPacketEncode body.length ++ body)) := by
  refine ⟨List.cons_ne_nil _ _, ?_⟩
  intro rest
  have stream : (header :: (mqttPacketEncode body.length ++ body)) ++ rest =
      header :: (mqttPacketEncode body.length ++ (body ++ rest)) := by simp
  have size : 1 + (mqttPacketEncode body.length).length + body.length =
      (header :: (mqttPacketEncode body.length ++ body)).length := by
    simp only [List.length_append, List.length_cons]
    omega
  rw [stream, readFrame, readRemainingLength_encode h]
  dsimp only
  rw [← stream, size, if_neg (by simp), List.take_left, List.drop_left]

/-! ## What the serializers store -/

namespace ClientPacket

/-- The protocol versions `MQTTSerialize_connectLength` knows. -/
def KnownVersion : ClientPacket → Prop
  | connect connectData => connectData.mqttVer = 3 ∨ connectData.mqttVer = 4
  | _ => True

/-- Bytes stored beyond the announced body. -/
def surplus : ClientPacket → Nat
  | connect connectData => versionSurplus connectData.mqttVer
  | _ => 0

theorem surplus_eq_zero_iff (p : ClientPacket) : p.surplus = 0 ↔ p.KnownVersion := by
  cases p with
  | connect d =>
      rw [surplus, versionSurplus, KnownVersion]
      split
      · simp_all
      · simp_all
  | _ => simp [surplus, KnownVersion]

theorem chunkSize_eq (p : ClientPacket) : p.chunkSize = mqttPacketLen p.remainingLength := by
  cases p <;> rfl

private theorem subscribe_body_length (topics : List (Option CString × Int)) (acc : Nat) :
    (topics.map fun t => MqttString.ofCString t.1).foldl
        (fun len topic => len + (2 + mqttStrlen topic + 1)) acc =
      acc + ((topics.map fun t => (MqttString.ofCString t.1, t.2)).flatMap fun t =>
        writeMqttString t.1 ++ [UInt8.ofNat (t.2 % 256).toNat]).length := by
  induction topics generalizing acc with
  | nil => rfl
  | cons t topics ih =>
      simp only [List.map_cons, List.foldl_cons, List.flatMap_cons, List.length_append, ih,
        writeMqttString_length (MqttString.plain_ofCString _), List.length_singleton]
      omega

private theorem unsubscribe_body_length (topics : List (Option CString)) (acc : Nat) :
    (topics.map MqttString.ofCString).foldl (fun len topic => len + (2 + mqttStrlen topic)) acc =
      acc + ((topics.map MqttString.ofCString).flatMap writeMqttString).length := by
  induction topics generalizing acc with
  | nil => rfl
  | cons t topics ih =>
      simp only [List.map_cons, List.foldl_cons, List.flatMap_cons, List.length_append, ih,
        writeMqttString_length (MqttString.plain_ofCString _)]
      omega

private theorem connectOptions_will_plain (d : StMqttConnectData) :
    (connectOptions d).will.topicName.Plain ∧ (connectOptions d).will.message.Plain := by
  simp only [connectOptions]
  split <;> exact ⟨rfl, rfl⟩

/-- Every serializer stores a header byte, the length field and a body; only a
connect packet of an unknown version has a body longer than announced. -/
theorem written_eq (p : ClientPacket) : ∃ header body,
    p.written = header :: (mqttPacketEncode p.remainingLength ++ body) ∧
      body.length = p.remainingLength + p.surplus := by
  cases p with
  | connect d =>
      refine ⟨mqttHeader .connect 0 0 0, connectBody (connectOptions d), ?_, ?_⟩
      · simp only [written, serializeInto, mqttSerializeConnect, chunkSize,
          mqttSerializeConnectSize, gt_iff_lt, Nat.lt_irrefl, if_false, remainingLength,
          List.cons_append]
      · exact connectBody_length (MqttString.plain_ofCString _) (connectOptions_will_plain d).1
          (connectOptions_will_plain d).2 (MqttString.plain_ofCString _)
          (MqttString.plain_ofCString _)
  | publish msg packetId =>
      refine ⟨mqttHeader .publish 0 (msg.qos % 4).toNat msg.retained.toNat,
        writeMqttString (.ofCString msg.topic) ++
          (if msg.qos > 0 then writeInt packetId.toNat else []) ++ msg.payload, ?_, ?_⟩
      · simp only [written, serializeInto, mqttSerializePublish, chunkSize,
          mqttSerializePublishSize, gt_iff_lt, Nat.lt_irrefl, if_false, remainingLength,
          List.cons_append]
      · simp only [remainingLength, mqttSerializePublishLength, surplus,
          List.length_append, writeMqttString_length (MqttString.plain_ofCString _)]
        split <;> simp only [writeInt_length, List.length_nil] <;> omega
  | subscribe packetId topics =>
      refine ⟨mqttHeader .subscribe 0 1 0, writeInt packetId.toNat ++
        (topics.map fun t => (MqttString.ofCString t.1, t.2)).flatMap fun t =>
          writeMqttString t.1 ++ [UInt8.ofNat (t.2 % 256).toNat], ?_, ?_⟩
      · simp only [written, serializeInto, mqttSerializeSubscribe, chunkSize,
          mqttSerializeSubscribeSize, List.map_map, Function.comp_def, gt_iff_lt, Nat.lt_irrefl,
          if_false, remainingLength, List.cons_append]
      · rw [remainingLength, mqttSerializeSubscribeLength, subscribe_body_length,
          List.length_append, writeInt_length]
        rfl
  | unsubscribe packetId topics =>
      refine ⟨mqttHeader .unsubscribe 0 1 0, writeInt packetId.toNat ++
        (topics.map MqttString.ofCString).flatMap writeMqttString, ?_, ?_⟩
      · simp only [written, serializeInto, mqttSerializeUnsubscribe, chunkSize,
          mqttSerializeUnsubscribeSize, gt_iff_lt, Nat.lt_irrefl, if_false, remainingLength,
          List.cons_append]
      · rw [remainingLength, mqttSerializeUnsubscribeLength, unsubscribe_body_length,
          List.length_append, writeInt_length]
        rfl
  | ack type packetId => exact ⟨_, writeInt packetId.toNat, rfl, rfl⟩
  | pingreq => exact ⟨mqttHeader .pingreq 0 0 0, [], (List.append_nil _).symm ▸ rfl, rfl⟩
  | disconnect => exact ⟨mqttHeader .disconnect 0 0 0, [], (List.append_nil _).symm ▸ rfl, rfl⟩

/-- The predicted size is the written size away from the four lengths where the
prediction counts a byte too many, and from unknown protocol versions. -/
theorem chunkSize_eq_written_length_iff {p : ClientPacket}
    (h : p.remainingLength ≤ 268435455) :
    p.chunkSize = p.written.length ↔
      ¬ lenOvershoots p.remainingLength ∧ p.KnownVersion := by
  obtain ⟨header, body, stored, bodyLength⟩ := p.written_eq
  rw [← surplus_eq_zero_iff, chunkSize_eq, mqttPacketLen_eq h, stored, List.length_cons,
    List.length_append, bodyLength]
  have surplus : p.surplus = 0 ∨ p.surplus = 12 := by
    cases p with
    | connect d =>
        rw [ClientPacket.surplus, versionSurplus]
        split <;> simp
    | _ => exact .inl rfl
  by_cases exceeds : lenOvershoots p.remainingLength
  · simp only [exceeds, if_true, not_true, false_and, iff_false]
    omega
  · simp only [exceeds, if_false, not_false_eq_true, true_and]
    omega

/-- A chunk filled to its last byte sends exactly the stored bytes. -/
theorem chunkData_eq_written {p : ClientPacket} (fresh : Nat → UInt8)
    (h : p.chunkSize = p.written.length) : p.chunkData fresh = p.written := by
  apply List.ext_getElem
  · simp [chunkData, h]
  · intro i _ hi
    simp [chunkData, List.getElem?_eq_getElem hi]

theorem delimited_written {p : ClientPacket} (h : p.remainingLength ≤ 268435455)
    (known : p.KnownVersion) : Framing.Delimited readFrame p.written := by
  obtain ⟨header, body, stored, bodyLength⟩ := p.written_eq
  rw [p.surplus_eq_zero_iff.mpr known, Nat.add_zero] at bodyLength
  rw [stored, ← bodyLength]
  exact delimited_of_body (bodyLength ▸ h)

end ClientPacket

/-- Sizes and contents agree for every packet, and a reader that only knows the
framing rule recovers the packets from the concatenated chunks. -/
def FramesBack (fresh : Nat → UInt8) (packets : List ClientPacket) : Prop :=
  (∀ p ∈ packets, p.chunkSize = p.written.length) ∧
    splitPackets (iotMqttRunWriteStream fresh packets) = some (packets.map ClientPacket.written)

/-- The stream can be cut back into packets exactly when no packet has one of
the four lengths the size prediction gets wrong and no connect packet asks for a
version the length function does not count. -/
theorem framesBack_iff (fresh : Nat → UInt8) {packets : List ClientPacket}
    (h : ∀ p ∈ packets, p.remainingLength ≤ 268435455) :
    FramesBack fresh packets ↔
      ∀ p ∈ packets, ¬ lenOvershoots p.remainingLength ∧ p.KnownVersion := by
  constructor
  · rintro ⟨sizes, -⟩ p hp
    exact (ClientPacket.chunkSize_eq_written_length_iff (h p hp)).mp (sizes p hp)
  · intro good
    have sizes : ∀ p ∈ packets, p.chunkSize = p.written.length := by
      intro p hp
      exact (ClientPacket.chunkSize_eq_written_length_iff (h p hp)).mpr (good p hp)
    refine ⟨sizes, ?_⟩
    have chunks : packets.map (ClientPacket.chunkData fresh) =
        packets.map ClientPacket.written :=
      List.map_congr_left fun p hp => ClientPacket.chunkData_eq_written fresh (sizes p hp)
    rw [iotMqttRunWriteStream, chunks, splitPackets]
    apply Framing.split_flatten
    intro frame member
    obtain ⟨p, hp, rfl⟩ := List.mem_map.mp member
    exact ClientPacket.delimited_written (h p hp) (good p hp).2

/-- A keep-alive followed by a small QoS 1 publish. -/
theorem framesBack_pingreq_publish :
    FramesBack (fun _ => 0)
      [.pingreq, .publish ⟨some ⟨[116], by decide⟩, [1, 2, 3], 1, 0⟩ 7] := by
  refine (framesBack_iff (fun _ => 0) ?_).mpr ?_
  · intro p hp
    rcases List.mem_pair.mp hp with rfl | rfl <;> decide
  · intro p hp
    rcases List.mem_pair.mp hp with rfl | rfl <;> exact ⟨by decide, trivial⟩

/-- A QoS 0 publish with a remaining length of 127: the one-letter topic and 124
payload bytes take 129 bytes, but the chunk has 130. -/
def publish127 : ClientPacket :=
  .publish ⟨some ⟨[116], by decide⟩, List.replicate 124 97, 0, 0⟩ 0

theorem publish127_not_framesBack :
    publish127.remainingLength ≤ 268435455 ∧ ¬ FramesBack (fun _ => 0) [publish127] := by
  have remaining : publish127.remainingLength = 127 := by
    simp [publish127, ClientPacket.remainingLength, mqttSerializePublishLength, mqttStrlen,
      MqttString.ofCString, CString.strlen]
  refine ⟨by omega, ?_⟩
  rintro ⟨sizes, -⟩
  have size := sizes publish127 (List.mem_singleton.mpr rfl)
  rw [ClientPacket.chunkSize_eq_written_length_iff (by omega), remaining] at size
  exact size.1 (by decide)

end StDevice.Mqtt
