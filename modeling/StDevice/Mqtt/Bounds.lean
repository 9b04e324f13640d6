import StDevice.Mqtt.Deserialize

/-!
# Which packets are read in bounds

The reader accepts every first byte and every remaining length. The functions that take
the packet apart trust that it holds what its type promises: an identifier, a topic and an
identifier behind it. Each of them is in bounds exactly when the body is long enough for
what it reads.
-/

namespace StDevice.Mqtt

/-- The message lies inside the chunk. -/
def DeliveredMsg.Inside (msg : DeliveredMsg) (chunk : List UInt8) : Prop :=
  ∃ topic topiclen payload payloadlen, msg.topic = some topic ∧ msg.topiclen = some topiclen ∧
    msg.payload = some payload ∧ msg.payloadlen = some payloadlen ∧ 0 ≤ payloadlen ∧
    topic + topiclen ≤ chunk.length ∧ payload + payloadlen.toNat ≤ chunk.length

/-- Only bytes of the chunk are read, and a message for the user callback lies inside. -/
def ReadsInside (leftFirst : Bool) (around : Surroundings) (chunk : List UInt8) : Prop :=
  ∃ result, readPacket leftFirst around chunk = some result ∧
    ∀ msg, result = some msg → msg.Inside chunk

/-- The body holds its topic and `more` bytes behind it. -/
def HoldsTopic (body : List UInt8) (more : Nat) : Prop :=
  ∃ length, topicLength body = some length ∧ 2 + length + more ≤ body.length

/-- The body holds the two bytes that `MQTTPacket_getPacketId` takes for the identifier. -/
def HoldsPublishId (leftFirst : Bool) (body : List UInt8) : Prop :=
  ∃ length, topicLength body = some length ∧
    (if leftFirst then 0 else 2) + length + 2 ≤ body.length

/-- The body holds what the client reads of a packet with this header. -/
structure BodyHolds (leftFirst : Bool) (around : Surroundings) (header : UInt8)
    (body : List UInt8) : Prop where
  id : carriesId (packetType header) = true → 2 ≤ body.length
  publishId : packetType header = MsgType.publish.code → packetQos header ≠ 0 →
    HoldsPublishId leftFirst body
  message : delivers around header = true →
    HoldsTopic body (if packetQos header = 0 then 0 else 2)

section Functions

variable {chunk : List UInt8} {n : Nat} {header : UInt8}

theorem Whole.readInt (whole : Whole chunk n) (pos : Nat) :
    readInt chunk (1 + n + pos) =
      (Mqtt.readInt (packetBody chunk) pos).map fun read => (read.1, 1 + n + read.2) := by
  rw [readInt_drop, whole.body]

theorem isSome_readInt_iff (bytes : List UInt8) (pos : Nat) :
    (∃ read, readInt bytes pos = some read) ↔ pos + 2 ≤ bytes.length := by
  constructor
  · rintro ⟨read, known⟩
    by_contra outside
    rw [readInt_of_ge (by omega)] at known
    cases known
  · intro inside
    obtain ⟨value, read⟩ := readInt_of_lt (show pos + 1 < bytes.length by omega)
    exact ⟨_, read⟩

theorem carriesId_publish : carriesId MsgType.publish.code = false := by decide

/-- `MQTTPacket_getPacketId`. -/
theorem getPacketId_iff (whole : Whole chunk n) (first : byteAt chunk 0 = some header)
    (leftFirst : Bool) :
    (∃ id, mqttPacketGetPacketId leftFirst chunk = some id) ↔
      (carriesId (packetType header) = true → 2 ≤ (packetBody chunk).length) ∧
      (packetType header = MsgType.publish.code → packetQos header ≠ 0 →
        HoldsPublishId leftFirst (packetBody chunk)) := by
  have start := whole.readInt 0
  rw [Nat.add_zero] at start
  unfold mqttPacketGetPacketId
  rw [first]
  simp only [Option.bind_eq_bind, Option.bind_some, Option.pure_def]
  by_cases publish : packetType header = MsgType.publish.code
  · rw [if_pos publish, publish, carriesId_publish]
    by_cases qos : packetQos header = 0
    · rw [if_pos qos]
      exact iff_of_true ⟨0, rfl⟩ ⟨nofun, fun _ other => absurd qos other⟩
    rw [if_neg qos, whole.decoded]
    simp only [Option.bind_some, start]
    by_cases topic : 2 ≤ (packetBody chunk).length
    · obtain ⟨length, known, read⟩ := topicLength_of_lt topic
      rw [read]
      simp only [Option.map_some, Option.bind_some]
      have position : (if leftFirst = true then 1 + n else 1 + n + 2) + length =
          1 + n + ((if leftFirst = true then 0 else 2) + length) := by
        split
        · omega
        · omega
      rw [position, whole.readInt]
      have inside := isSome_readInt_iff (packetBody chunk)
        ((if leftFirst = true then 0 else 2) + length)
      constructor
      · rintro ⟨id, found⟩
        refine ⟨nofun, fun _ _ => ⟨length, known, ?_⟩⟩
        apply inside.mp
        obtain ⟨pair, mapped, -⟩ := Option.bind_eq_some_iff.mp found
        obtain ⟨read, original, -⟩ := Option.map_eq_some_iff.mp mapped
        exact ⟨read, original⟩
      · rintro ⟨-, holds⟩
        obtain ⟨length', known', fits⟩ := holds trivial qos
        obtain rfl := Option.some.inj (known.symm.trans known')
        obtain ⟨read, original⟩ := inside.mpr fits
        exact ⟨read.1, by rw [original]; rfl⟩
    · rw [readInt_of_ge (by omega)]
      refine iff_of_false nofun ?_
      rintro ⟨-, holds⟩
      obtain ⟨length, known, -⟩ := holds trivial qos
      exact topic (length_of_topicLength known).1
  · rw [if_neg publish]
    by_cases carries : carriesId (packetType header) = true
    · rw [if_pos carries, whole.decoded]
      simp only [Option.bind_some, start]
      have inside := isSome_readInt_iff (packetBody chunk) 0
      constructor
      · rintro ⟨id, found⟩
        refine ⟨fun _ => ?_, fun other => absurd other publish⟩
        obtain ⟨pair, mapped, -⟩ := Option.bind_eq_some_iff.mp found
        obtain ⟨read, original, -⟩ := Option.map_eq_some_iff.mp mapped
        simpa using inside.mp ⟨read, original⟩
      · rintro ⟨holds, -⟩
        obtain ⟨read, original⟩ := inside.mpr (by simpa using holds carries)
        exact ⟨read.1, by rw [original]; rfl⟩
    · rw [if_neg carries]
      exact iff_of_true ⟨0, rfl⟩ ⟨fun other => absurd other carries,
        fun other => absurd other publish⟩

/-- `MQTTDeserialize_connack` checks the length before it reads. -/
theorem exists_connack (whole : Whole chunk n) (first : byteAt chunk 0 = some header) :
    ∃ connack, mqttDeserializeConnack chunk = some connack := by
  have start : readChar chunk 0 = some (header, 1) := by rw [readChar, first]; rfl
  unfold mqttDeserializeConnack
  rw [start]
  simp only [Option.bind_eq_bind, Option.bind_some, Option.pure_def]
  split
  · exact ⟨_, rfl⟩
  rw [whole.decoded]
  simp only [Option.bind_some]
  split
  · exact ⟨_, rfl⟩
  · rename_i long
    have length := whole.length
    obtain ⟨flags, read⟩ := readChar_of_lt (show 1 + n < chunk.length by omega)
    obtain ⟨code, read'⟩ := readChar_of_lt (show 1 + n + 1 < chunk.length by omega)
    rw [read]
    simp only [Option.bind_some]
    rw [read']
    exact ⟨_, rfl⟩

/-- The loop over the granted QoS values stops at the end of the chunk. -/
theorem exists_grantedQoSs {maxcount todo curdata : Nat} (granted : List UInt8)
    (inside : curdata + todo ≤ chunk.length) :
    ∃ result, readGrantedQoSs chunk maxcount todo curdata granted = some result := by
  induction todo generalizing curdata granted with
  | zero => exact ⟨_, rfl⟩
  | succ todo ih =>
      unfold readGrantedQoSs
      split
      · exact ⟨_, rfl⟩
      · obtain ⟨qos, read⟩ := readChar_of_lt (show curdata < chunk.length by omega)
        rw [read]
        exact ih _ (by omega)

/-- `MQTTDeserialize_suback` checks the length before it reads. -/
theorem exists_suback (whole : Whole chunk n) (first : byteAt chunk 0 = some header)
    (maxcount : Nat) : ∃ suback, mqttDeserializeSuback maxcount chunk = some suback := by
  have start : readChar chunk 0 = some (header, 1) := by rw [readChar, first]; rfl
  unfold mqttDeserializeSuback
  rw [start]
  simp only [Option.bind_eq_bind, Option.bind_some, Option.pure_def]
  split
  · exact ⟨_, rfl⟩
  rw [whole.decoded]
  simp only [Option.bind_some]
  split
  · exact ⟨_, rfl⟩
  · rename_i long
    have length := whole.length
    obtain ⟨id, read⟩ := readInt_of_lt (show 1 + n + 1 < chunk.length by omega)
    rw [read]
    simp only [Option.bind_some]
    have inside : 1 + n + 2 + ((packetBody chunk).length - 2) ≤ chunk.length := by omega
    obtain ⟨result, loop⟩ : ∃ result, readGrantedQoSs chunk maxcount
        ((packetBody chunk).length - 2) (1 + n + 2) [] = some result :=
      exists_grantedQoSs [] inside
    rw [loop]
    exact ⟨_, rfl⟩

/-- `readMQTTLenString` on the body of a packet. -/
theorem readMqttLenString_eq (whole : Whole chunk n) :
    readMqttLenString chunk (1 + n) (1 + n + (packetBody chunk).length) =
      match topicLength (packetBody chunk) with
      | none => some ⟨false, none, none, 1 + n⟩
      | some length =>
          if 2 + length ≤ (packetBody chunk).length then
            some ⟨true, some length, some (1 + n + 2), 1 + n + 2 + length⟩
          else some ⟨false, some length, none, 1 + n + 2⟩ := by
  unfold readMqttLenString
  by_cases inside : 2 ≤ (packetBody chunk).length
  · obtain ⟨length, known, read⟩ := topicLength_of_lt inside
    have start := whole.readInt 0
    rw [Nat.add_zero, read] at start
    rw [if_pos (by omega), start, known]
    simp only [Option.map_some, Option.bind_eq_bind, Option.bind_some, Option.pure_def]
    by_cases fits : 2 + length ≤ (packetBody chunk).length
    · rw [if_pos (by omega), if_pos fits]
    · rw [if_neg (by omega), if_neg fits]
  · have unknown : topicLength (packetBody chunk) = none := by
      rw [topicLength, readInt_of_ge (by omega)]
      rfl
    rw [if_neg (by omega), unknown]
    rfl

/-- A message whose topic was not set. -/
theorem not_inside_of_topic {msg : DeliveredMsg} (unset : msg.topic = none) :
    ¬ msg.Inside chunk := by
  rintro ⟨topic, -, -, -, known, -⟩
  rw [unset] at known
  cases known

/-- The bytes that a packet of this QoS has between the topic and the payload. -/
def idLength (header : UInt8) : Nat := if packetQos header = 0 then 0 else 2

/-- The message of a packet that holds its topic and its identifier: the topic behind its
length, and the payload behind the identifier. -/
theorem deliverPublish_eq (whole : Whole chunk n) (first : byteAt chunk 0 = some header)
    (publish : packetType header = MsgType.publish.code) {topiclen : Nat}
    (known : topicLength (packetBody chunk) = some topiclen)
    (fits : 2 + topiclen + idLength header ≤ (packetBody chunk).length) :
    iotMqttDeliverPublish chunk = some
      { topic := some (1 + n + 2)
        topiclen := some topiclen
        payload := some (1 + n + 2 + topiclen + idLength header)
        payloadlen := some (((packetBody chunk).length - (2 + topiclen + idLength header) : Nat))
        qos := some (packetQos header)
        retained := some (packetRetain header) } := by
  have start : readChar chunk 0 = some (header, 1) := by rw [readChar, first]; rfl
  unfold iotMqttDeliverPublish mqttDeserializePublish
  rw [start]
  simp only [Option.bind_eq_bind, Option.bind_some, Option.pure_def]
  rw [if_neg (not_not.mpr publish), whole.decoded]
  simp only [Option.bind_some, readMqttLenString_eq whole, known]
  rw [if_pos (by omega)]
  simp only [Option.bind_some]
  rw [if_neg (by simp; omega)]
  unfold idLength at fits ⊢
  by_cases qos : packetQos header = 0
  · rw [if_pos qos] at fits ⊢
    rw [if_neg (by omega)]
    simp only [Option.bind_some, Nat.add_zero, Option.some.injEq, DeliveredMsg.mk.injEq, true_and,
      and_true]
    omega
  · rw [if_neg qos] at fits ⊢
    rw [if_pos (Nat.pos_of_ne_zero qos)]
    have position : 1 + n + 2 + topiclen = 1 + n + (2 + topiclen) := by omega
    obtain ⟨value, read⟩ := readInt_of_lt
      (show 2 + topiclen + 1 < (packetBody chunk).length by omega)
    rw [position, whole.readInt, read]
    simp only [Option.map_some, Option.bind_some, Option.some.injEq, DeliveredMsg.mk.injEq,
      true_and, and_true]
    constructor
    · omega
    · omega

/-- A packet that does not hold them has no message, or one whose topic was not set. -/
theorem deliverPublish_short (whole : Whole chunk n) (first : byteAt chunk 0 = some header)
    (publish : packetType header = MsgType.publish.code)
    (short : ¬ HoldsTopic (packetBody chunk) (idLength header)) {msg : DeliveredMsg}
    (delivered : iotMqttDeliverPublish chunk = some msg) : msg.topic = none := by
  have start : readChar chunk 0 = some (header, 1) := by rw [readChar, first]; rfl
  unfold iotMqttDeliverPublish mqttDeserializePublish at delivered
  rw [start] at delivered
  simp only [Option.bind_eq_bind, Option.bind_some, Option.pure_def] at delivered
  rw [if_neg (not_not.mpr publish), whole.decoded] at delivered
  simp only [Option.bind_some, readMqttLenString_eq whole] at delivered
  cases known : topicLength (packetBody chunk) with
  | none =>
      simp only [known, Option.bind_some, true_or, if_true] at delivered
      obtain rfl := Option.some.inj delivered
      rfl
  | some topiclen =>
      have outside : ¬ 2 + topiclen + idLength header ≤ (packetBody chunk).length :=
        fun fits => short ⟨topiclen, known, fits⟩
      simp only [known] at delivered
      by_cases fits : 2 + topiclen ≤ (packetBody chunk).length
      · -- the identifier is missing, so reading it leaves the chunk
        have qos : packetQos header ≠ 0 := by
          intro none
          rw [idLength, if_pos none] at outside
          omega
        rw [idLength, if_neg qos] at outside
        simp only [if_pos fits, Option.bind_some] at delivered
        rw [if_neg (by simp; omega), if_pos (Nat.pos_of_ne_zero qos),
          show 1 + n + 2 + topiclen = 1 + n + (2 + topiclen) by omega, whole.readInt,
          readInt_of_ge (by omega)] at delivered
        cases delivered
      · simp only [if_neg fits, Option.bind_some, true_or, if_true] at delivered
        obtain rfl := Option.some.inj delivered
        rfl

/-- `_iot_mqtt_deliver_publish`. -/
theorem deliverPublish_iff (whole : Whole chunk n) (first : byteAt chunk 0 = some header)
    (publish : packetType header = MsgType.publish.code) :
    (∃ msg, iotMqttDeliverPublish chunk = some msg ∧ msg.Inside chunk) ↔
      HoldsTopic (packetBody chunk) (idLength header) := by
  constructor
  · rintro ⟨msg, delivered, inside⟩
    by_contra short
    exact not_inside_of_topic (deliverPublish_short whole first publish short delivered) inside
  · rintro ⟨topiclen, known, fits⟩
    have length := whole.length
    refine ⟨_, deliverPublish_eq whole first publish known fits, 1 + n + 2, topiclen,
      1 + n + 2 + topiclen + idLength header, _, rfl, rfl, rfl, rfl, ?_, ?_, ?_⟩
    · exact Int.natCast_nonneg _
    · omega
    · rw [Int.toNat_natCast]
      omega

theorem publish_of_delivers {around : Surroundings} (delivered : delivers around header = true) :
    packetType header = MsgType.publish.code := by
  simp only [delivers, Bool.and_eq_true, beq_iff_eq] at delivered
  exact delivered.1.1

/-- The functions for the acknowledgements are always in bounds, so what matters is the
identifier and the message. -/
theorem readsInside_iff (whole : Whole chunk n) (first : byteAt chunk 0 = some header)
    (leftFirst : Bool) (around : Surroundings) :
    ReadsInside leftFirst around chunk ↔
      (∃ id, mqttPacketGetPacketId leftFirst chunk = some id) ∧
      (delivers around header = true →
        ∃ msg, iotMqttDeliverPublish chunk = some msg ∧ msg.Inside chunk) := by
  unfold ReadsInside readPacket
  rw [first]
  simp only [Option.bind_eq_bind, Option.bind_some, Option.pure_def]
  cases mqttPacketGetPacketId leftFirst chunk with
  | none =>
      refine iff_of_false nofun ?_
      rintro ⟨⟨id, none⟩, -⟩
      cases none
  | some id =>
      simp only [Option.bind_some]
      by_cases connack : packetType header = MsgType.connack.code ∧ around.matched = true
      · obtain ⟨ack, read⟩ := exists_connack whole first
        rw [if_pos connack, read]
        refine iff_of_true ⟨none, rfl, nofun⟩ ⟨⟨id, rfl⟩, fun delivered => ?_⟩
        exact absurd (connack.1.symm.trans (publish_of_delivers delivered)) (by decide)
      rw [if_neg connack]
      by_cases suback : packetType header = MsgType.suback.code ∧ around.matched = true
      · obtain ⟨ack, read⟩ := exists_suback whole first 1
        rw [if_pos suback, read]
        refine iff_of_true ⟨none, rfl, nofun⟩ ⟨⟨id, rfl⟩, fun delivered => ?_⟩
        exact absurd (suback.1.symm.trans (publish_of_delivers delivered)) (by decide)
      rw [if_neg suback]
      by_cases delivered : delivers around header = true
      · rw [if_pos delivered]
        constructor
        · rintro ⟨result, read, inside⟩
          obtain ⟨msg, deliver, same⟩ := Option.bind_eq_some_iff.mp read
          exact ⟨⟨id, rfl⟩, fun _ => ⟨msg, deliver, inside msg (Option.some.inj same).symm⟩⟩
        · rintro ⟨-, message⟩
          obtain ⟨msg, deliver, inside⟩ := message delivered
          refine ⟨some msg, by rw [deliver]; rfl, ?_⟩
          intro other same
          rw [← Option.some.inj same]
          exact inside
      · rw [if_neg delivered]
        exact iff_of_true ⟨none, rfl, nofun⟩ ⟨⟨id, rfl⟩, fun other => absurd other delivered⟩

end Functions

/-- The body of the chunk holds what its first byte promises. -/
def PacketHolds (leftFirst : Bool) (around : Surroundings) (chunk : List UInt8) : Prop :=
  ∀ header, byteAt chunk 0 = some header →
    BodyHolds leftFirst around header (packetBody chunk)

/-- A framed packet is read in bounds, and its message lies inside the chunk, exactly when
its body holds what its first byte promises. -/
theorem readsInside_iff_packetHolds (leftFirst : Bool) (around : Surroundings)
    (stream chunk rest : List UInt8) (framed : readFrame stream = some (chunk, rest)) :
    ReadsInside leftFirst around chunk ↔ PacketHolds leftFirst around chunk := by
  obtain ⟨header, n, first, whole⟩ := whole_of_readFrame framed
  rw [readsInside_iff whole first, getPacketId_iff whole first]
  constructor
  · rintro ⟨⟨carries, publishId⟩, message⟩ other same
    obtain rfl := Option.some.inj (first.symm.trans same)
    refine ⟨carries, publishId, fun delivered => ?_⟩
    have publish := publish_of_delivers delivered
    exact (deliverPublish_iff whole first publish).mp (message delivered)
  · intro holds
    have body := holds header first
    refine ⟨⟨body.id, body.publishId⟩, fun delivered => ?_⟩
    have publish := publish_of_delivers delivered
    exact (deliverPublish_iff whole first publish).mpr (body.message delivered)

/-- A PUBLISH of QoS 1 with the topic "a", the identifier 1 and the payload "b". -/
def wholePublish : List UInt8 := [0x32, 6, 0, 1, 97, 0, 1, 98]

/-- It is read in bounds. -/
theorem wholePublish_readsInside :
    readFrame wholePublish = some (wholePublish, []) ∧
      ReadsInside false ⟨false, true⟩ wholePublish := by
  have framed : readFrame wholePublish = some (wholePublish, []) := by decide
  refine ⟨framed, (readsInside_iff_packetHolds _ _ _ _ _ framed).mpr ?_⟩
  intro header first
  obtain rfl := Option.some.inj first
  exact ⟨by decide, fun _ _ => ⟨1, by decide, by decide⟩, fun _ => ⟨1, by decide, by decide⟩⟩

/-- An acknowledgement without a body is read past its end. -/
theorem emptyPuback_not_readsInside :
    readFrame [0x40, 0] = some ([0x40, 0], []) ∧
      ¬ ReadsInside false ⟨false, true⟩ [0x40, 0] := by
  refine ⟨by decide, ?_⟩
  rintro ⟨result, read, -⟩
  have none : readPacket false ⟨false, true⟩ [0x40, 0] = none := by decide
  rw [none] at read
  cases read

end StDevice.Mqtt
