import StDevice.Delivered.Memory
import StDevice.Mqtt.Bounds

/-!
# Placements are packets

The pointers of a message lead into the chunk of its packet. Every packet that holds its
topic and its identifier gives one of the placements, and every placement of a message that
is not too long is given by a packet that the reader frames and the client delivers.
-/

namespace StDevice.Delivered

open Mqtt

/-- The message with the memory behind its pointers: the rest of the chunk and what lies
behind the chunk. -/
def inMemory (msg : DeliveredMsg) (chunk after : List UInt8) : Option Msg := do
  let topic ← msg.topic
  let payload ← msg.payload
  let payloadlen ← msg.payloadlen
  pure ⟨(chunk ++ after).drop topic, (chunk ++ after).drop payload, payloadlen.toNat⟩

section Packets

variable {chunk : List UInt8} {n : Nat} {header : UInt8}

theorem idLength_cases (header : UInt8) : idLength header = 0 ∨ idLength header = 2 := by
  unfold idLength
  split
  · exact .inl rfl
  · exact .inr rfl

private theorem drop_eq (l : List UInt8) (start count : Nat) :
    l.drop start = (l.drop start).take count ++ l.drop (start + count) := by
  rw [← List.drop_drop, List.take_append_drop]

/-- A packet with its message inside is a placement of that message. -/
theorem exists_placement_of_packet (whole : Whole chunk n) (first : byteAt chunk 0 = some header)
    (publish : packetType header = MsgType.publish.code) {msg : DeliveredMsg}
    (delivered : iotMqttDeliverPublish chunk = some msg) (inside : msg.Inside chunk)
    {after : List UInt8} (terminated : 0 ∈ after) :
    ∃ topic topiclen payload, msg.topic = some topic ∧ msg.topiclen = some topiclen ∧
      msg.payload = some payload ∧ ∃ a : Placement, a.after = after ∧
        inMemory msg chunk after =
          some (a.msg ((chunk.drop topic).take topiclen) (chunk.drop payload)) := by
  obtain ⟨topiclen, known, fits⟩ :=
    (deliverPublish_iff whole first publish).mp ⟨msg, delivered, inside⟩
  obtain rfl := Option.some.inj (delivered.symm.trans
    (deliverPublish_eq whole first publish known fits))
  have length := whole.length
  have sized : (chunk.drop (1 + n + 2 + topiclen)).take (idLength header) = [] ∨
      ((chunk.drop (1 + n + 2 + topiclen)).take (idLength header)).length = 2 := by
    rw [List.length_take, List.length_drop]
    obtain none | two := idLength_cases header
    · exact .inl (by rw [none, List.take_zero])
    · right
      omega
  refine ⟨1 + n + 2, topiclen, 1 + n + 2 + topiclen + idLength header, rfl, rfl, rfl,
    ⟨_, after, sized, terminated⟩, rfl, ?_⟩
  have front := drop_eq chunk (1 + n + 2) topiclen
  have behind := drop_eq chunk (1 + n + 2 + topiclen) (idLength header)
  have start : (chunk ++ after).drop (1 + n + 2) = chunk.drop (1 + n + 2) ++ after :=
    List.drop_append_of_le_length (by omega)
  have finish : (chunk ++ after).drop (1 + n + 2 + topiclen + idLength header) =
      chunk.drop (1 + n + 2 + topiclen + idLength header) ++ after :=
    List.drop_append_of_le_length (by omega)
  have count : (chunk.drop (1 + n + 2 + topiclen + idLength header)).length =
      (packetBody chunk).length - (2 + topiclen + idLength header) := by
    rw [List.length_drop]
    omega
  simp only [inMemory, Placement.msg, Option.bind_eq_bind, Option.bind_some, Option.pure_def,
    Int.toNat_natCast, start, finish, count]
  generalize (chunk.drop (1 + n + 2)).take topiclen = topic at *
  generalize (chunk.drop (1 + n + 2 + topiclen)).take (idLength header) = packetId at *
  rw [front, behind]
  simp only [List.append_assoc]

/-- The first byte of a packet with or without an identifier. -/
def publishHeader (packetId : List UInt8) : UInt8 :=
  mqttHeader .publish 0 (if packetId = [] then 0 else 1) 0

theorem publishHeader_delivers (a : Placement) :
    delivers ⟨false, true⟩ (publishHeader a.packetId) = true ∧
      idLength (publishHeader a.packetId) = a.packetId.length := by
  unfold publishHeader
  obtain none | two := a.sized
  · rw [none]
    decide
  · have some : a.packetId ≠ [] := by
      intro none
      rw [none] at two
      cases two
    rw [if_neg some, two]
    decide

theorem topicLength_writeInt {length : Nat} (fits : length ≤ 65535) (rest : List UInt8) :
    topicLength (writeInt length ++ rest) = some length := by
  have high : (UInt8.ofNat (length / 256)).toNat = length / 256 := by
    rw [UInt8.toNat_ofNat']
    omega
  have low : (UInt8.ofNat (length % 256)).toNat = length % 256 := by
    rw [UInt8.toNat_ofNat']
    omega
  unfold topicLength readInt byteAt writeInt
  simp only [List.cons_append, List.nil_append, List.getElem?_cons_zero, List.getElem?_cons_succ,
    Option.bind_eq_bind, Option.bind_some, Option.pure_def, Option.map_some, high, low]
  rw [Nat.div_add_mod]

/-- A placement is a packet that the reader frames and the client delivers. -/
theorem exists_packet_of_placement (a : Placement) {topic payload : List UInt8}
    (topicFits : topic.length ≤ 65535)
    (fits : 2 + topic.length + a.packetId.length + payload.length ≤ 268435455) :
    ∃ header chunk msg, Framing.Delimited readFrame chunk ∧ byteAt chunk 0 = some header ∧
      delivers ⟨false, true⟩ header = true ∧ iotMqttDeliverPublish chunk = some msg ∧
      inMemory msg chunk a.after = some (a.msg topic payload) := by
  obtain ⟨body, content⟩ : ∃ body,
      body = writeInt topic.length ++ (topic ++ (a.packetId ++ payload)) := ⟨_, rfl⟩
  have size : body.length = 2 + topic.length + a.packetId.length + payload.length := by
    rw [content]
    simp only [List.length_append, writeInt_length]
    omega
  obtain ⟨sends, idLen⟩ := publishHeader_delivers a
  have limit : body.length ≤ 268435455 := by omega
  obtain ⟨whole, bodyEq⟩ := @whole_of_body (publishHeader a.packetId) body limit
  have known : topicLength body = some topic.length := by
    rw [content]
    exact topicLength_writeInt topicFits _
  rw [← bodyEq] at known
  have delivered := deliverPublish_eq whole rfl (publish_of_delivers sends) known
    (by rw [bodyEq, idLen]; omega)
  refine ⟨_, _, _, delimited_of_body limit, rfl, sends, delivered, ?_⟩
  have rest : (publishHeader a.packetId :: (mqttPacketEncode body.length ++ body)).drop
      (1 + (mqttPacketEncode body.length).length + 2) = topic ++ (a.packetId ++ payload) := by
    rw [← List.drop_drop, ← whole.body, bodyEq, content]
    rfl
  have length := whole.length
  rw [bodyEq] at length
  rw [inMemory, bodyEq, idLen]
  simp only [Placement.msg, Option.bind_eq_bind, Option.bind_some, Option.pure_def,
    Int.toNat_natCast, Option.some.injEq, Msg.mk.injEq]
  refine ⟨?_, ?_, by omega⟩
  · rw [List.drop_append_of_le_length (by omega), rest]
    simp only [List.append_assoc]
  · rw [List.drop_append_of_le_length (by omega), ← List.drop_drop, ← List.drop_drop, rest,
      List.drop_left, List.drop_left]

end Packets

end StDevice.Delivered
