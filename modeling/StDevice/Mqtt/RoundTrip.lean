import StDevice.Mqtt.Bounds

/-!
# A publish packet is read back as it was written

The serializer of a publish and the two functions that take one apart compute the place of
the identifier and of the payload each for itself. The client relies on their agreement when
it reports a packet that it gave up: it decodes its own chunk again.

The chunk may be longer than what the serializer stored, since the predicted size exceeds
the written size at some lengths. All results hold whatever those last bytes are.
-/

namespace StDevice.Mqtt

/-- `MQTTString_initializer` followed by an assignment to `lenstring`. -/
def MqttString.ofLenString (data : List UInt8) : MqttString := ⟨none, some data⟩

/-- The string has these bytes, as a C string or counted. -/
def MqttString.Spells (s : MqttString) (topic : CString) : Prop :=
  s = ofCString (some topic) ∨ s = ofLenString topic.bytes

/-- The outputs of `MQTTDeserialize_publish` lead to this message in the chunk. -/
structure Publish.Carries (publish : Publish) (chunk : List UInt8) (qos retained packetid : Nat)
    (topic payload : List UInt8) : Prop where
  success : publish.rc = 1
  sameQos : publish.qos = some qos
  sameFlag : publish.retained = some retained
  sameId : 0 < qos → publish.packetid = some packetid
  sameTopic : ∃ pos, publish.topic = some pos ∧ publish.topiclen = some topic.length ∧
    (chunk.drop pos).take topic.length = topic
  samePayload : ∃ pos, publish.payload = some pos ∧
      publish.payloadlen = some (payload.length : Int) ∧
    (chunk.drop pos).take payload.length = payload

/-- What `MQTTSerialize_publish` stores behind the length field. -/
def publishBody (qos packetid : Nat) (topic payload : List UInt8) : List UInt8 :=
  writeInt topic.length ++ (topic ++ ((if 0 < qos then writeInt packetid else []) ++ payload))

section Written

variable {qos retained packetid : Nat} {topic payload : List UInt8}

theorem publishBody_length :
    (publishBody qos packetid topic payload).length =
      2 + topic.length + payload.length + if 0 < qos then 2 else 0 := by
  unfold publishBody
  by_cases withId : 0 < qos
  · simp only [if_pos withId, List.length_append, writeInt_length]
    omega
  · simp only [if_neg withId, List.length_append, writeInt_length, List.length_nil]
    omega

theorem MqttString.Spells.strlen {s : MqttString} {topic : CString} (spells : s.Spells topic) :
    mqttStrlen s = topic.bytes.length := by
  rcases spells with rfl | rfl
  · rfl
  · rfl

/-- An empty counted string is written like a missing one: two zero bytes. -/
theorem MqttString.Spells.written {s : MqttString} {topic : CString} (spells : s.Spells topic) :
    writeMqttString s = writeInt topic.bytes.length ++ topic.bytes := by
  rcases spells with rfl | rfl
  · rfl
  · unfold writeMqttString MqttString.ofLenString MqttString.lenstringLen
    by_cases empty : topic.bytes = []
    · rw [empty]
      rfl
    · have some : 0 < topic.bytes.length := List.length_pos_iff.mpr empty
      simp only [Option.getD_some, gt_iff_lt, if_pos some]

/-- The first byte keeps the type, the QoS and the retained flag apart. -/
theorem publishHeader_fields (dup : Nat) (small : qos ≤ 2) (flag : retained ≤ 1) :
    packetType (mqttHeader .publish dup qos retained) = MsgType.publish.code ∧
      packetQos (mqttHeader .publish dup qos retained) = qos ∧
      packetRetain (mqttHeader .publish dup qos retained) = retained := by
  have bit : dup % 2 = 0 ∨ dup % 2 = 1 := Nat.mod_two_eq_zero_or_one dup
  unfold mqttHeader
  obtain rfl | rfl | rfl : qos = 0 ∨ qos = 1 ∨ qos = 2 := by omega
  all_goals
    obtain rfl | rfl : retained = 0 ∨ retained = 1 := by omega
    all_goals
      rcases bit with clear | set
      · rw [clear]
        decide
      · rw [set]
        decide

/-- A stored number is read back. -/
theorem readInt_writeInt {value : Nat} (fits : value ≤ 65535) (front rest : List UInt8) :
    readInt (front ++ (writeInt value ++ rest)) front.length = some (value, front.length + 2) := by
  have high : (UInt8.ofNat (value / 256)).toNat = value / 256 := by
    rw [UInt8.toNat_ofNat']
    omega
  have low : (UInt8.ofNat (value % 256)).toNat = value % 256 := by
    rw [UInt8.toNat_ofNat']
    omega
  have shifted := readInt_drop (front ++ (writeInt value ++ rest)) front.length 0
  rw [Nat.add_zero, List.drop_left] at shifted
  rw [shifted]
  unfold readInt byteAt writeInt
  simp only [List.cons_append, List.nil_append, List.getElem?_cons_zero, List.getElem?_cons_succ,
    Option.bind_eq_bind, Option.bind_some, Option.pure_def, Option.map_some, high, low,
    Nat.zero_add, Nat.div_add_mod]

end Written

/-- A chunk that starts with a publish packet. -/
structure Starts (chunk : List UInt8) (header : UInt8) (n qos packetid : Nat)
    (topic payload rest : List UInt8) : Prop where
  first : byteAt chunk 0 = some header
  decoded : mqttPacketDecodeBuf chunk 1 =
    some (n, (publishBody qos packetid topic payload).length)
  body : chunk.drop (1 + n) = publishBody qos packetid topic payload ++ rest

section Reading

variable {chunk topic payload rest : List UInt8} {header : UInt8} {n qos packetid : Nat}

theorem starts_of_body
    (h : (publishBody qos packetid topic payload).length ≤ 268435455) :
    Starts (header :: (mqttPacketEncode (publishBody qos packetid topic payload).length ++
        (publishBody qos packetid topic payload ++ rest))) header
      (mqttPacketEncode (publishBody qos packetid topic payload).length).length
      qos packetid topic payload rest := by
  refine ⟨rfl, decodeBuf_of_body _ h rest, ?_⟩
  rw [Nat.add_comm, List.drop_succ_cons, List.drop_left]

namespace Starts

theorem readTopicLength (starts : Starts chunk header n qos packetid topic payload rest)
    (fits : topic.length ≤ 65535) :
    readInt chunk (1 + n) = some (topic.length, 1 + n + 2) := by
  have shifted := readInt_drop chunk (1 + n) 0
  rw [Nat.add_zero, starts.body, publishBody, List.append_assoc] at shifted
  rw [shifted]
  exact congrArg (Option.map _) (readInt_writeInt fits [] _)

theorem readId (starts : Starts chunk header n qos packetid topic payload rest)
    (withId : 0 < qos) (fits : packetid ≤ 65535) :
    readInt chunk (1 + n + 2 + topic.length) =
      some (packetid, 1 + n + 2 + topic.length + 2) := by
  have shifted := readInt_drop chunk (1 + n) (2 + topic.length)
  have split : publishBody qos packetid topic payload ++ rest =
      (writeInt topic.length ++ topic) ++ (writeInt packetid ++ (payload ++ rest)) := by
    unfold publishBody
    rw [if_pos withId]
    simp only [List.append_assoc]
  have position : (writeInt topic.length ++ topic).length = 2 + topic.length := by
    rw [List.length_append, writeInt_length]
  have read := readInt_writeInt fits (writeInt topic.length ++ topic) (payload ++ rest)
  rw [← split, position] at read
  rw [starts.body, read] at shifted
  rw [Nat.add_assoc, shifted]
  simp only [Option.map_some, Nat.add_assoc]

theorem topicBytes (starts : Starts chunk header n qos packetid topic payload rest) :
    (chunk.drop (1 + n + 2)).take topic.length = topic := by
  rw [← List.drop_drop, starts.body, publishBody, List.append_assoc]
  have header : (writeInt topic.length).length = 2 := writeInt_length _
  rw [← header, List.drop_left, List.append_assoc, List.take_left]

theorem payloadBytes (starts : Starts chunk header n qos packetid topic payload rest) :
    (chunk.drop (1 + n + 2 + topic.length + if 0 < qos then 2 else 0)).take payload.length =
      payload := by
  have front : (if 0 < qos then writeInt packetid else []).length = if 0 < qos then 2 else 0 := by
    split
    · rfl
    · rfl
  have header : (writeInt topic.length).length = 2 := writeInt_length _
  rw [← front, ← List.drop_drop, ← List.drop_drop, ← List.drop_drop, starts.body, publishBody]
  simp only [List.append_assoc]
  rw [← header, List.drop_left, List.drop_left, List.drop_left, List.take_left]

end Starts

/-- `MQTTPacket_getPacketId` of such a chunk, with the pointer that `readInt` has advanced. -/
theorem getPacketId_of_starts (starts : Starts chunk header n qos packetid topic payload rest)
    (type : packetType header = MsgType.publish.code) (level : packetQos header = qos)
    (topicFits : topic.length ≤ 65535) (idFits : packetid ≤ 65535) :
    mqttPacketGetPacketId false chunk = some (if qos = 0 then 0 else packetid) := by
  unfold mqttPacketGetPacketId
  rw [starts.first]
  simp only [Option.bind_eq_bind, Option.bind_some, Option.pure_def]
  rw [if_pos type, level]
  by_cases none : qos = 0
  · rw [if_pos none, if_pos none]
  · rw [if_neg none, if_neg none, starts.decoded]
    simp only [Option.bind_some]
    rw [starts.readTopicLength topicFits]
    simp only [Option.bind_some, Bool.false_eq_true, if_false]
    rw [starts.readId (Nat.pos_of_ne_zero none) idFits]
    rfl

/-- `MQTTDeserialize_publish` of such a chunk. -/
theorem deserializePublish_of_starts
    (starts : Starts chunk header n qos packetid topic payload rest)
    (type : packetType header = MsgType.publish.code) (level : packetQos header = qos)
    (topicFits : topic.length ≤ 65535) (idFits : packetid ≤ 65535) :
    ∃ publish, mqttDeserializePublish chunk = some publish ∧
      publish.Carries chunk qos (packetRetain header) packetid topic payload := by
  have size : (publishBody qos packetid topic payload).length = _ := publishBody_length
  have start : readChar chunk 0 = some (header, 1) := by
    rw [readChar, starts.first]
    rfl
  have payloadAt := starts.payloadBytes
  -- The topic ends before the packet does, so both checks of the source pass.
  have name : readMqttLenString chunk (1 + n)
      (1 + n + (publishBody qos packetid topic payload).length) =
        some ⟨true, some topic.length, some (1 + n + 2), 1 + n + 2 + topic.length⟩ := by
    unfold readMqttLenString
    rw [if_pos (by omega), starts.readTopicLength topicFits]
    simp only [Option.bind_eq_bind, Option.bind_some, Option.pure_def]
    rw [if_pos (by omega)]
  unfold mqttDeserializePublish
  rw [start]
  simp only [Option.bind_eq_bind, Option.bind_some, Option.pure_def, ne_eq, type,
    not_true_eq_false, if_false, starts.decoded, name, Bool.true_eq_false, false_or, level]
  rw [if_neg (by omega)]
  by_cases withId : 0 < qos
  · rw [if_pos withId] at size payloadAt
    rw [if_pos withId, starts.readId withId idFits]
    refine ⟨_, rfl, rfl, rfl, rfl, fun _ => rfl, ⟨_, rfl, rfl, starts.topicBytes⟩,
      ⟨_, rfl, ?_, payloadAt⟩⟩
    simp only [Option.some.injEq]
    omega
  · rw [if_neg withId] at size payloadAt
    rw [if_neg withId]
    refine ⟨_, rfl, rfl, rfl, rfl, fun other => absurd other withId,
      ⟨_, rfl, rfl, starts.topicBytes⟩, ⟨_, rfl, ?_, payloadAt⟩⟩
    simp only [Option.some.injEq]
    omega

end Reading

/-- What the serializer stores, and that it does so in every buffer of the predicted size. -/
theorem serializePublish_eq {topicName : MqttString} {topic : CString}
    (spells : topicName.Spells topic) {buflen dup qos retained packetid : Nat}
    {payload : List UInt8} (small : qos ≤ 2)
    (room : mqttSerializePublishSize qos topicName payload.length ≤ buflen) :
    mqttSerializePublish buflen dup qos retained packetid topicName payload =
      .ok (mqttHeader .publish dup qos retained ::
        (mqttPacketEncode (publishBody qos packetid topic.bytes payload).length ++
          publishBody qos packetid topic.bytes payload)) := by
  have positive : ((qos : Int) > 0) ↔ 0 < qos := by omega
  have level : ((qos : Int) % 4).toNat = qos := by omega
  have size : mqttSerializePublishLength qos topicName payload.length =
      (publishBody qos packetid topic.bytes payload).length := by
    rw [publishBody_length, mqttSerializePublishLength, spells.strlen]
    simp only [positive]
  have stored : writeMqttString topicName ++ (if (qos : Int) > 0 then writeInt packetid else []) ++
      payload = publishBody qos packetid topic.bytes payload := by
    rw [spells.written, publishBody]
    simp only [positive, List.append_assoc]
  rw [mqttSerializePublishSize, size] at room
  unfold mqttSerializePublish
  rw [size, level, stored, if_neg (Nat.not_lt.mpr room), List.cons_append]

/-- A publish packet is read back as it was written, whatever follows it in the buffer. -/
theorem deserializePublish_serializePublish {topicName : MqttString} {topic : CString}
    (spells : topicName.Spells topic) (topicFits : topic.bytes.length ≤ 65535)
    (payload : List UInt8) {qos : Nat} (small : qos ≤ 2) (retained : Bool) (packetid : UInt16)
    (dup : Nat) (limit : mqttSerializePublishLength qos topicName payload.length ≤ 268435455)
    {buflen : Nat} (room : mqttSerializePublishSize qos topicName payload.length ≤ buflen) :
    ∃ written,
      mqttSerializePublish buflen dup qos retained.toNat packetid.toNat topicName payload =
        .ok written ∧
      ∀ rest, (∃ publish, mqttDeserializePublish (written ++ rest) = some publish ∧
          publish.Carries (written ++ rest) qos retained.toNat packetid.toNat topic.bytes payload) ∧
        mqttPacketGetPacketId false (written ++ rest) =
          some (if qos = 0 then 0 else packetid.toNat) := by
  have idFits : packetid.toNat ≤ 65535 := by
    have below := packetid.toNat_lt
    omega
  have flag : retained.toNat ≤ 1 := Bool.toNat_le retained
  obtain ⟨type, level, kept⟩ := publishHeader_fields dup small flag
  have positive : ((qos : Int) > 0) ↔ 0 < qos := by omega
  have fits : (publishBody qos packetid.toNat topic.bytes payload).length ≤ 268435455 := by
    rw [mqttSerializePublishLength, spells.strlen] at limit
    simp only [positive] at limit
    rw [publishBody_length]
    exact limit
  refine ⟨_, serializePublish_eq spells small room, ?_⟩
  intro rest
  rw [List.cons_append, List.append_assoc]
  have starts : Starts _ (mqttHeader .publish dup qos retained.toNat) _ qos packetid.toNat
    topic.bytes payload rest := starts_of_body fits
  obtain ⟨publish, read, carried⟩ :=
    deserializePublish_of_starts starts type level topicFits idFits
  rw [kept] at carried
  exact ⟨⟨publish, read, carried⟩, getPacketId_of_starts starts type level topicFits idFits⟩

/-- The packet on topic `a` at QoS 1 with identifier 7 and one byte of payload. -/
theorem deserializePublish_serializePublish_single :
    ∃ written,
      mqttSerializePublish 8 0 1 0 7 (.ofCString (some ⟨[97], by decide⟩)) [5] = .ok written ∧
      ∀ rest, (∃ publish, mqttDeserializePublish (written ++ rest) = some publish ∧
          publish.Carries (written ++ rest) 1 0 7 [97] [5]) ∧
        mqttPacketGetPacketId false (written ++ rest) = some 7 :=
  @deserializePublish_serializePublish _ ⟨[97], by decide⟩ (.inl rfl) (by decide) [5] 1 (by decide)
    false 7 0 (by decide) 8 (by decide)

end StDevice.Mqtt
