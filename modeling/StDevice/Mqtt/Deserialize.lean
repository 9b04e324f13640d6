import StDevice.Mqtt.Framing

/-!
# Reading a received packet

The reader frames one packet and stores it in a chunk of exactly its size. The functions
that take the packet apart compute positions from the lengths they find in it. Every
access goes through `byteAt`, which gives nothing outside the chunk, so a function that
reads past the end has no result here.

The client ignores what the functions return. An output that a function does not set is
`none`: the variable of the caller then holds whatever was on the stack.
-/

namespace StDevice.Mqtt

/-- One byte of the chunk. -/
def byteAt (chunk : List UInt8) (pos : Nat) : Option UInt8 := chunk[pos]?

/-- `readChar`, with the position after it. -/
def readChar (chunk : List UInt8) (pos : Nat) : Option (UInt8 × Nat) :=
  (byteAt chunk pos).map fun c => (c, pos + 1)

/-- `readInt`, with the position after it. -/
def readInt (chunk : List UInt8) (pos : Nat) : Option (Nat × Nat) := do
  let high ← byteAt chunk pos
  let low ← byteAt chunk (pos + 1)
  pure (256 * high.toNat + low.toNat, pos + 2)

/-- The loop of `MQTTPacket_decode`, with the number of length bytes that may still be
read. -/
def mqttPacketDecode (chunk : List UInt8) (buf : Nat) :
    (left len value multiplier : Nat) → Option (Nat × Nat)
  | 0, len, value, _ => some (len + 1, value)
  | left + 1, len, value, multiplier => do
      let c ← byteAt chunk (buf + len)
      let value := value + (c &&& 127).toNat * multiplier
      if (c &&& 128) ≠ 0 then mqttPacketDecode chunk buf left (len + 1) value (multiplier * 128)
      else pure (len + 1, value)

/-- `MQTTPacket_decodeBuf`: the number of length bytes and the remaining length. -/
def mqttPacketDecodeBuf (chunk : List UInt8) (buf : Nat) : Option (Nat × Nat) :=
  mqttPacketDecode chunk buf maxNumOfRemainingLengthBytes 0 0 1

/-- `MQTT_FIXED_HEADER_PACKET_TYPE_MASK`, and the bit field `type` of `MQTTHeader`. -/
def packetType (header : UInt8) : Nat := ((header &&& 0xf0) >>> 4).toNat

/-- `MQTT_FIXED_HEADER_QOS_MASK`, and the bit field `qos`. -/
def packetQos (header : UInt8) : Nat := ((header &&& 0x06) >>> 1).toNat

/-- `MQTT_FIXED_HEADER_DUP_MASK`, and the bit field `dup`. -/
def packetDup (header : UInt8) : Nat := ((header &&& 0x08) >>> 3).toNat

/-- The bit field `retain`. -/
def packetRetain (header : UInt8) : Nat := (header &&& 0x01).toNat

/-- The packets whose identifier follows the fixed header. -/
def carriesId (type : Nat) : Bool :=
  [MsgType.puback, .pubrec, .pubrel, .pubcomp, .subscribe, .suback, .unsubscribe, .unsuback].any
    fun t => t.code == type

/-- `MQTTPacket_getPacketId`. C leaves open whether `buf += readInt(&buf)` reads `buf`
before the call, which moves it past the length, or after it. -/
def mqttPacketGetPacketId (leftFirst : Bool) (chunk : List UInt8) : Option Nat := do
  let header ← byteAt chunk 0
  if packetType header = MsgType.publish.code then
    if packetQos header = 0 then pure 0
    else
      let (n, _) ← mqttPacketDecodeBuf chunk 1
      let (length, next) ← readInt chunk (1 + n)
      let (packetId, _) ← readInt chunk ((if leftFirst then 1 + n else next) + length)
      pure packetId
  else if carriesId (packetType header) then
    let (n, _) ← mqttPacketDecodeBuf chunk 1
    let (packetId, _) ← readInt chunk (1 + n)
    pure packetId
  else pure 0

/-- What `MQTTDeserialize_connack` returns and sets. -/
structure Connack where
  rc : Nat
  sessionPresent : Option UInt8 := none
  connackRc : Option UInt8 := none
  deriving DecidableEq, Repr

/-- `MQTTDeserialize_connack`. A packet that is too short returns the number of its length
bytes. -/
def mqttDeserializeConnack (chunk : List UInt8) : Option Connack := do
  let (header, curdata) ← readChar chunk 0
  if packetType header ≠ MsgType.connack.code then pure { rc := 0 }
  else
    let (n, mylen) ← mqttPacketDecodeBuf chunk curdata
    if mylen < 2 then pure { rc := n }
    else
      let (flags, curdata) ← readChar chunk (curdata + n)
      let (connackRc, _) ← readChar chunk curdata
      pure { rc := 1, sessionPresent := some (flags &&& 1), connackRc := some connackRc }

/-- The loop over the granted QoS values, `todo` bytes before the end. -/
def readGrantedQoSs (chunk : List UInt8) (maxcount : Nat) :
    (todo curdata : Nat) → (granted : List UInt8) → Option (Int × List UInt8)
  | 0, _, granted => some (1, granted)
  | todo + 1, curdata, granted =>
      if granted.length ≥ maxcount then some (-1, granted)
      else do
        let (qos, curdata) ← readChar chunk curdata
        readGrantedQoSs chunk maxcount todo curdata (granted ++ [qos])

/-- What `MQTTDeserialize_suback` returns and sets. -/
structure Suback where
  rc : Int
  packetid : Option Nat := none
  grantedQoSs : List UInt8 := []
  deriving DecidableEq, Repr

/-- `MQTTDeserialize_suback`. -/
def mqttDeserializeSuback (maxcount : Nat) (chunk : List UInt8) : Option Suback := do
  let (header, curdata) ← readChar chunk 0
  if packetType header ≠ MsgType.suback.code then pure { rc := 0 }
  else
    let (n, mylen) ← mqttPacketDecodeBuf chunk curdata
    if mylen < 2 then pure { rc := n }
    else
      let (packetid, curdata) ← readInt chunk (curdata + n)
      let (rc, granted) ← readGrantedQoSs chunk maxcount (mylen - 2) curdata []
      pure { rc := rc, packetid := some packetid, grantedQoSs := granted }

/-- `readMQTTLenString`: whether it succeeds, the counted string as far as it is set, and
the position after it. -/
structure LenString where
  success : Bool
  len : Option Nat
  data : Option Nat
  next : Nat
  deriving DecidableEq, Repr

/-- `readMQTTLenString`. -/
def readMqttLenString (chunk : List UInt8) (pos enddata : Nat) : Option LenString :=
  if pos + 1 < enddata then do
    let (len, next) ← readInt chunk pos
    if next + len ≤ enddata then pure ⟨true, some len, some next, next + len⟩
    else pure ⟨false, some len, none, next⟩
  else pure ⟨false, none, none, pos⟩

/-- What `MQTTDeserialize_publish` returns and sets. -/
structure Publish where
  rc : Nat
  dup : Option Nat := none
  qos : Option Nat := none
  retained : Option Nat := none
  packetid : Option Nat := none
  topiclen : Option Nat := none
  topic : Option Nat := none
  payload : Option Nat := none
  payloadlen : Option Int := none
  deriving DecidableEq, Repr

/-- `MQTTDeserialize_publish`. -/
def mqttDeserializePublish (chunk : List UInt8) : Option Publish := do
  let (header, curdata) ← readChar chunk 0
  if packetType header ≠ MsgType.publish.code then pure { rc := 0 }
  else
    let flags : Publish :=
      { rc := 1
        dup := some (packetDup header)
        qos := some (packetQos header)
        retained := some (packetRetain header) }
    let (n, mylen) ← mqttPacketDecodeBuf chunk curdata
    let enddata := curdata + n + mylen
    let name ← readMqttLenString chunk (curdata + n) enddata
    if name.success = false ∨ enddata < name.next then
      pure { flags with rc := n, topiclen := name.len, topic := name.data }
    else if packetQos header > 0 then
      let (packetid, curdata) ← readInt chunk name.next
      pure { flags with
        topiclen := name.len
        topic := name.data
        packetid := some packetid
        payload := some curdata
        payloadlen := some (enddata - curdata) }
    else
      pure { flags with
        topiclen := name.len
        topic := name.data
        payload := some name.next
        payloadlen := some (enddata - name.next) }

/-- The `st_mqtt_msg` that `_iot_mqtt_deliver_publish` hands to the user callback. -/
structure DeliveredMsg where
  topic : Option Nat
  topiclen : Option Nat
  payload : Option Nat
  payloadlen : Option Int
  qos : Option Nat
  retained : Option Nat
  deriving DecidableEq, Repr

/-- `_iot_mqtt_deliver_publish`. -/
def iotMqttDeliverPublish (chunk : List UInt8) : Option DeliveredMsg := do
  let publish ← mqttDeserializePublish chunk
  pure
    { topic := publish.topic
      topiclen := publish.topiclen
      payload := publish.payload
      payloadlen := publish.payloadlen
      qos := publish.qos
      retained := publish.retained }

/-- What decides how the client goes on with a packet besides its bytes: whether a packet
that waits for it is found, and whether the acknowledgement can be allocated. -/
structure Surroundings where
  matched : Bool
  puback : Bool
  deriving DecidableEq, Repr

/-- The packet is put into the queue for the user callback. -/
def delivers (around : Surroundings) (header : UInt8) : Bool :=
  packetType header == MsgType.publish.code && packetDup header == 0 &&
    (packetQos header == 0 || around.puback)

/-- What the client reads of a framed packet: the identifier in `_iot_mqtt_run_read_stream`,
and then the function for its type. The result is the message for the user callback. -/
def readPacket (leftFirst : Bool) (around : Surroundings) (chunk : List UInt8) :
    Option (Option DeliveredMsg) := do
  let header ← byteAt chunk 0
  let _ ← mqttPacketGetPacketId leftFirst chunk
  if packetType header = MsgType.connack.code ∧ around.matched then
    let _ ← mqttDeserializeConnack chunk
    pure none
  else if packetType header = MsgType.suback.code ∧ around.matched then
    let _ ← mqttDeserializeSuback 1 chunk
    pure none
  else if delivers around header then
    let msg ← iotMqttDeliverPublish chunk
    pure (some msg)
  else pure none

/-- The bytes after the length field. -/
def packetBody (chunk : List UInt8) : List UInt8 :=
  (mqttPacketDecodeBuf chunk 1).elim [] fun field => chunk.drop (1 + field.1)

/-- The length of the topic that a body starts with. -/
def topicLength (body : List UInt8) : Option Nat := (readInt body 0).map Prod.fst

section Reads

variable {chunk : List UInt8} {pos : Nat}

theorem readChar_of_lt (inside : pos < chunk.length) :
    ∃ c, readChar chunk pos = some (c, pos + 1) :=
  ⟨chunk[pos], by simp [readChar, byteAt, List.getElem?_eq_getElem inside]⟩

theorem readInt_of_lt (inside : pos + 1 < chunk.length) :
    ∃ value, readInt chunk pos = some (value, pos + 2) := by
  have first : pos < chunk.length := by omega
  exact ⟨_, by simp [readInt, byteAt, List.getElem?_eq_getElem first,
    List.getElem?_eq_getElem inside]; rfl⟩

theorem readInt_of_ge (outside : chunk.length ≤ pos + 1) : readInt chunk pos = none := by
  have second : byteAt chunk (pos + 1) = none := List.getElem?_eq_none outside
  unfold readInt
  rw [second]
  cases byteAt chunk pos with
  | none => rfl
  | some high => rfl

/-- Reading from the body is reading from the chunk behind the length field. -/
theorem readInt_drop (chunk : List UInt8) (start pos : Nat) :
    readInt chunk (start + pos) =
      (readInt (chunk.drop start) pos).map fun read => (read.1, start + read.2) := by
  have high : byteAt (chunk.drop start) pos = byteAt chunk (start + pos) := List.getElem?_drop
  have low : byteAt (chunk.drop start) (pos + 1) = byteAt chunk (start + pos + 1) :=
    List.getElem?_drop
  unfold readInt
  rw [high, low]
  cases byteAt chunk (start + pos) with
  | none => rfl
  | some a =>
      cases byteAt chunk (start + pos + 1) with
      | none => rfl
      | some b => rfl

theorem topicLength_of_lt (inside : 2 ≤ chunk.length) :
    ∃ length, topicLength chunk = some length ∧ readInt chunk 0 = some (length, 2) := by
  obtain ⟨length, read⟩ := readInt_of_lt (show 0 + 1 < chunk.length by omega)
  exact ⟨length, by rw [topicLength, read]; rfl, read⟩

theorem length_of_topicLength {length : Nat} (known : topicLength chunk = some length) :
    2 ≤ chunk.length ∧ readInt chunk 0 = some (length, 2) := by
  by_cases inside : 2 ≤ chunk.length
  · obtain ⟨other, same, read⟩ := topicLength_of_lt inside
    obtain rfl := Option.some.inj (same.symm.trans known)
    exact ⟨inside, read⟩
  · rw [topicLength, readInt_of_ge (by omega)] at known
    cases known

end Reads

/-- A chunk whose length field announces exactly the bytes behind it. -/
structure Whole (chunk : List UInt8) (n : Nat) : Prop where
  decoded : mqttPacketDecodeBuf chunk 1 = some (n, (packetBody chunk).length)
  body : packetBody chunk = chunk.drop (1 + n)
  length : chunk.length = 1 + n + (packetBody chunk).length

/-- `MQTTPacket_decode` finds the length field that the reader has found. -/
theorem mqttPacketDecode_eq {chunk stream rest : List UInt8} {k remSize multiplier read rem : Nat}
    (found : readRemainingLength stream (k + 1) remSize multiplier = some (read, rem, rest))
    (agrees : ∀ i, k + 1 + i < read → byteAt chunk (k + 1 + i) = stream[i]?) :
    k + 1 < read ∧
      mqttPacketDecode chunk 1 (maxNumOfRemainingLengthBytes - k) k remSize multiplier =
        some (read - 1, rem) := by
  induction stream generalizing k remSize multiplier with
  | nil => cases found
  | cons b stream ih =>
      rw [readRemainingLength, Nat.add_sub_cancel] at found
      split at found
      · cases found
      rename_i room
      obtain ⟨left, count⟩ : ∃ left, maxNumOfRemainingLengthBytes - k = left + 1 :=
        ⟨maxNumOfRemainingLengthBytes - (k + 1), by omega⟩
      have next : maxNumOfRemainingLengthBytes - (k + 1) = left := by omega
      have start : 1 + k = k + 1 + 0 := by omega
      by_cases last : (b &&& 128) ≠ 0
      · simp only [if_pos last] at found
        obtain ⟨later, decoded⟩ := ih found fun i below => by
          have same := agrees (i + 1) (by omega)
          rw [show k + 1 + 1 + i = k + 1 + (i + 1) by omega, same, List.getElem?_cons_succ]
        have here := agrees 0 (by omega)
        rw [List.getElem?_cons_zero] at here
        refine ⟨by omega, ?_⟩
        rw [count, mqttPacketDecode, start, here]
        simp only [Option.bind_eq_bind, Option.bind_some, if_pos last]
        rw [← next]
        exact decoded
      · simp only [if_neg last] at found
        obtain ⟨rfl, rfl, rfl⟩ : read = k + 1 + 1 ∧ rem = remSize + (b &&& 127).toNat * multiplier ∧
            rest = stream := by
          simpa [eq_comm] using found
        have here := agrees 0 (by omega)
        rw [List.getElem?_cons_zero] at here
        refine ⟨by omega, ?_⟩
        rw [count, mqttPacketDecode, start, here]
        simp only [Option.bind_eq_bind, Option.bind_some, if_neg last]
        rfl

/-- What the reader frames is whole. -/
theorem whole_of_readFrame {stream chunk rest : List UInt8}
    (framed : readFrame stream = some (chunk, rest)) :
    ∃ header n, byteAt chunk 0 = some header ∧ Whole chunk n := by
  cases stream with
  | nil => cases framed
  | cons header stream =>
      rw [readFrame] at framed
      cases field : readRemainingLength stream 1 0 1 with
      | none => simp [field] at framed
      | some found =>
          obtain ⟨read, rem, unread⟩ := found
          simp only [field] at framed
          split at framed
          · cases framed
          rename_i enough
          obtain ⟨rfl, -⟩ := Prod.mk.inj (Option.some.inj framed)
          have agrees : ∀ i, 0 + 1 + i < read →
              byteAt ((header :: stream).take (read + rem)) (0 + 1 + i) = stream[i]? := by
            intro i below
            unfold byteAt
            rw [List.getElem?_take, if_pos (by omega), show 0 + 1 + i = i + 1 by omega,
              List.getElem?_cons_succ]
          obtain ⟨later, decoded⟩ := mqttPacketDecode_eq field agrees
          have field' : mqttPacketDecodeBuf ((header :: stream).take (read + rem)) 1 =
            some (read - 1, rem) := decoded
          have body : packetBody ((header :: stream).take (read + rem)) =
              ((header :: stream).take (read + rem)).drop (1 + (read - 1)) := by
            unfold packetBody
            rw [field']
            rfl
          have total : ((header :: stream).take (read + rem)).length = read + rem := by
            rw [List.length_take]
            omega
          have bodyLength : (packetBody ((header :: stream).take (read + rem))).length = rem := by
            rw [body, List.length_drop, total]
            omega
          refine ⟨header, read - 1, ?_, by rw [field', bodyLength], body, ?_⟩
          · unfold byteAt
            rw [List.getElem?_take, if_pos (by omega), List.getElem?_cons_zero]
          · rw [total, bodyLength]
            omega

/-- The length field of a body is decoded whatever follows the body. -/
theorem decodeBuf_of_body (header : UInt8) {body : List UInt8} (h : body.length ≤ 268435455)
    (rest : List UInt8) :
    mqttPacketDecodeBuf (header :: (mqttPacketEncode body.length ++ (body ++ rest))) 1 =
      some ((mqttPacketEncode body.length).length, body.length) := by
  have agrees : ∀ i, 0 + 1 + i < 1 + (mqttPacketEncode body.length).length →
      byteAt (header :: (mqttPacketEncode body.length ++ (body ++ rest))) (0 + 1 + i) =
        (mqttPacketEncode body.length ++ (body ++ rest))[i]? := by
    intro i _
    rw [byteAt, show 0 + 1 + i = i + 1 by omega, List.getElem?_cons_succ]
  obtain ⟨-, decoded⟩ := mqttPacketDecode_eq (readRemainingLength_encode h rest) agrees
  rw [Nat.add_sub_cancel_left] at decoded
  exact decoded

/-- A packet that announces its body exactly is whole. -/
theorem whole_of_body {header : UInt8} {body : List UInt8} (h : body.length ≤ 268435455) :
    Whole (header :: (mqttPacketEncode body.length ++ body))
        (mqttPacketEncode body.length).length ∧
      packetBody (header :: (mqttPacketEncode body.length ++ body)) = body := by
  have read := decodeBuf_of_body header h []
  rw [List.append_nil] at read
  have bodyEq : packetBody (header :: (mqttPacketEncode body.length ++ body)) = body := by
    unfold packetBody
    rw [read]
    simp only [Option.elim_some]
    rw [Nat.add_comm, List.drop_succ_cons, List.drop_left]
  refine ⟨⟨?_, ?_, ?_⟩, bodyEq⟩
  · rw [read, bodyEq]
  · rw [bodyEq, Nat.add_comm, List.drop_succ_cons, List.drop_left]
  · rw [bodyEq]
    simp only [List.length_cons, List.length_append]
    omega

end StDevice.Mqtt
