import StDevice.Foundation.Varint

/-!
# MQTT packets written by the client

The serializers of `mqtt/packet` are modelled by the bytes they store from the
start of their buffer, in order. Every length function and every serializer is
kept separate, as in the source: the client sizes a chunk with the one and fills
it with the other, and nothing here assumes that the two agree.

All lengths are natural numbers. The source computes them in `int`; the packets
considered below have a remaining length of at most 268435455, so no sum leaves
that range. A `char` is a byte, and only its eight bits are ever observed.
-/

namespace StDevice

/-- The characters of a C string before its terminator. -/
structure CString where
  bytes : List UInt8
  noNul : 0 ∉ bytes
  deriving DecidableEq

namespace CString

/-- Number of characters before the terminator. -/
def strlen (s : CString) : Nat := s.bytes.length

end CString

namespace Mqtt

/-- `enum msgTypes`. -/
inductive MsgType where
  | connect | connack | publish | puback | pubrec | pubrel | pubcomp
  | subscribe | suback | unsubscribe | unsuback | pingreq | pingresp | disconnect
  deriving DecidableEq, Repr

/-- The enumeration starts at 1. -/
def MsgType.code : MsgType → Nat
  | .connect => 1
  | .connack => 2
  | .publish => 3
  | .puback => 4
  | .pubrec => 5
  | .pubrel => 6
  | .pubcomp => 7
  | .subscribe => 8
  | .suback => 9
  | .unsubscribe => 10
  | .unsuback => 11
  | .pingreq => 12
  | .pingresp => 13
  | .disconnect => 14

/-- `enum errors` of the packet layer, as far as the serializers return it. -/
inductive PacketError where
  | bufferTooShort
  deriving DecidableEq, Repr

/-- `MQTTString`: a C string, a counted string, both or neither. A null
`lenstring.data` comes with a zero length. -/
structure MqttString where
  cstring : Option CString
  lenstring : Option (List UInt8)

namespace MqttString

def lenstringLen (s : MqttString) : Nat := (s.lenstring.getD []).length

/-- `options->x.cstring || options->x.lenstring.data`. -/
def present (s : MqttString) : Bool := s.cstring.isSome || s.lenstring.isSome

/-- `MQTTString_initializer` followed by an assignment to `cstring`. -/
def ofCString (s : Option CString) : MqttString := ⟨s, none⟩

end MqttString

/-- The union `MQTTHeader`: each bit field keeps only its own width. -/
def mqttHeader (type : MsgType) (dup qos retain : Nat) : UInt8 :=
  UInt8.ofNat (type.code % 16 * 16 + dup % 2 * 8 + qos % 4 * 2 + retain % 2)

/-- `MQTTPacket_encode`: the bytes of the remaining-length field. -/
def mqttPacketEncode (length : Nat) : List UInt8 :=
  let d := UInt8.ofNat (length % 128)
  if length / 128 > 0 then (d ||| 0x80) :: mqttPacketEncode (length / 128) else [d]
termination_by length
decreasing_by omega

/-- `MQTTPacket_len`: the size of a whole packet. The thresholds are compared
after the header byte has been added to the remaining length. -/
def mqttPacketLen (remLen : Nat) : Nat :=
  let remLen := remLen + 1
  if remLen < 128 then remLen + 1
  else if remLen < 16384 then remLen + 2
  else if remLen < 2097151 then remLen + 3
  else remLen + 4

/-- `writeInt`: two bytes, each reduced to its low eight bits. -/
def writeInt (anInt : Nat) : List UInt8 :=
  [UInt8.ofNat (anInt / 256), UInt8.ofNat (anInt % 256)]

/-- `writeCString`. -/
def writeCString (s : CString) : List UInt8 := writeInt s.strlen ++ s.bytes

/-- `writeMQTTString`: a non-empty counted string wins over the C string. -/
def writeMqttString (s : MqttString) : List UInt8 :=
  if s.lenstringLen > 0 then writeInt s.lenstringLen ++ s.lenstring.getD []
  else match s.cstring with
    | some c => writeCString c
    | none => writeInt 0

/-- `MQTTstrlen`: here the C string wins. -/
def mqttStrlen (s : MqttString) : Nat :=
  match s.cstring with
  | some c => c.strlen
  | none => s.lenstringLen

/-! ## Publish and acknowledgements -/

/-- `MQTTSerialize_publishLength`. -/
def mqttSerializePublishLength (qos : Int) (topicName : MqttString) (payloadlen : Nat) : Nat :=
  2 + mqttStrlen topicName + payloadlen + if qos > 0 then 2 else 0

/-- `MQTTSerialize_publish`. -/
def mqttSerializePublish (buflen dup : Nat) (qos : Int) (retained packetid : Nat)
    (topicName : MqttString) (payload : List UInt8) : Except PacketError (List UInt8) :=
  let remLen := mqttSerializePublishLength qos topicName payload.length
  if mqttPacketLen remLen > buflen then .error .bufferTooShort
  else .ok <| mqttHeader .publish dup (qos % 4).toNat retained :: mqttPacketEncode remLen ++
    (writeMqttString topicName ++ (if qos > 0 then writeInt packetid else []) ++ payload)

/-- `MQTTSerialize_publish_size`. -/
def mqttSerializePublishSize (qos : Int) (topicName : MqttString) (payloadlen : Nat) : Nat :=
  mqttPacketLen (mqttSerializePublishLength qos topicName payloadlen)

/-- `MQTTSerialize_ack`: only a release carries a nonzero QoS field. -/
def mqttSerializeAck (buflen : Nat) (packettype : MsgType) (dup packetid : Nat) :
    Except PacketError (List UInt8) :=
  if buflen < 4 then .error .bufferTooShort
  else .ok <| mqttHeader packettype dup (if packettype = .pubrel then 1 else 0) 0 ::
    mqttPacketEncode 2 ++ writeInt packetid

/-! ## Connect and the packets without a body -/

/-- `MQTTPacket_willOptions`, less its eyecatcher and structure version. -/
structure MqttWillOptions where
  topicName : MqttString
  message : MqttString
  retained : UInt8
  qos : UInt8

/-- `MQTTPacket_connectData`, less its eyecatcher and structure version. -/
structure MqttConnectData where
  mqttVersion : UInt8
  clientID : MqttString
  keepAliveInterval : UInt16
  cleansession : UInt8
  willFlag : UInt8
  will : MqttWillOptions
  username : MqttString
  password : MqttString

/-- `MQTTSerialize_connectLength`: an unknown version contributes nothing. -/
def mqttSerializeConnectLength (options : MqttConnectData) : Nat :=
  (if options.mqttVersion = 3 then 12 else if options.mqttVersion = 4 then 10 else 0) +
  (mqttStrlen options.clientID + 2) +
  (if options.willFlag ≠ 0 then
    mqttStrlen options.will.topicName + 2 + mqttStrlen options.will.message + 2 else 0) +
  (if options.username.present then mqttStrlen options.username + 2 else 0) +
  (if options.password.present then mqttStrlen options.password + 2 else 0)

/-- The protocol name and level: every version but 4 is announced as 3. -/
def protocolName (options : MqttConnectData) : List UInt8 :=
  if options.mqttVersion = 4 then
    writeCString ⟨[77, 81, 84, 84], by decide⟩ ++ [4]
  else
    writeCString ⟨[77, 81, 73, 115, 100, 112], by decide⟩ ++ [3]

/-- The union `MQTTConnectFlags`; the will bits stay clear without a will. -/
def connectFlags (options : MqttConnectData) : UInt8 :=
  UInt8.ofNat <| options.cleansession.toNat % 2 * 2 +
    (if options.willFlag ≠ 0 then
      4 + options.will.qos.toNat % 4 * 8 + options.will.retained.toNat % 2 * 32 else 0) +
    (if options.password.present then 64 else 0) + if options.username.present then 128 else 0

/-- What `MQTTSerialize_connect` writes after the length field. -/
def connectBody (options : MqttConnectData) : List UInt8 :=
  protocolName options ++ [connectFlags options] ++ writeInt options.keepAliveInterval.toNat ++
    writeMqttString options.clientID ++
    (if options.willFlag ≠ 0 then
      writeMqttString options.will.topicName ++ writeMqttString options.will.message else []) ++
    (if options.username.present then writeMqttString options.username else []) ++
    (if options.password.present then writeMqttString options.password else [])

/-- `MQTTSerialize_connect`. -/
def mqttSerializeConnect (buflen : Nat) (options : MqttConnectData) :
    Except PacketError (List UInt8) :=
  let len := mqttSerializeConnectLength options
  if mqttPacketLen len > buflen then .error .bufferTooShort
  else .ok <| mqttHeader .connect 0 0 0 :: mqttPacketEncode len ++ connectBody options

/-- `MQTTSerialize_connect_size`. -/
def mqttSerializeConnectSize (options : MqttConnectData) : Nat :=
  mqttPacketLen (mqttSerializeConnectLength options)

/-- `MQTTSerialize_zero`. -/
def mqttSerializeZero (buflen : Nat) (packettype : MsgType) : Except PacketError (List UInt8) :=
  if buflen < 2 then .error .bufferTooShort
  else .ok (mqttHeader packettype 0 0 0 :: mqttPacketEncode 0)

/-- `MQTTSerialize_disconnect`. -/
def mqttSerializeDisconnect (buflen : Nat) : Except PacketError (List UInt8) :=
  mqttSerializeZero buflen .disconnect

/-- `MQTTSerialize_pingreq`. -/
def mqttSerializePingreq (buflen : Nat) : Except PacketError (List UInt8) :=
  mqttSerializeZero buflen .pingreq

/-! ## Subscribe and unsubscribe -/

/-- `MQTTSerialize_subscribeLength`. -/
def mqttSerializeSubscribeLength (topicFilters : List MqttString) : Nat :=
  topicFilters.foldl (fun len topic => len + (2 + mqttStrlen topic + 1)) 2

/-- `MQTTSerialize_subscribe`. The two parallel arrays of the source are one
list of pairs; `count` is its length. -/
def mqttSerializeSubscribe (buflen dup packetid : Nat) (topicFilters : List (MqttString × Int)) :
    Except PacketError (List UInt8) :=
  let remLen := mqttSerializeSubscribeLength (topicFilters.map Prod.fst)
  if mqttPacketLen remLen > buflen then .error .bufferTooShort
  else .ok <| mqttHeader .subscribe dup 1 0 :: mqttPacketEncode remLen ++
    (writeInt packetid ++
      topicFilters.flatMap fun t => writeMqttString t.1 ++ [UInt8.ofNat (t.2 % 256).toNat])

/-- `MQTTSerialize_subscribe_size`. -/
def mqttSerializeSubscribeSize (topicFilters : List MqttString) : Nat :=
  mqttPacketLen (mqttSerializeSubscribeLength topicFilters)

/-- `MQTTSerialize_unsubscribeLength`. -/
def mqttSerializeUnsubscribeLength (topicFilters : List MqttString) : Nat :=
  topicFilters.foldl (fun len topic => len + (2 + mqttStrlen topic)) 2

/-- `MQTTSerialize_unsubscribe`. -/
def mqttSerializeUnsubscribe (buflen dup packetid : Nat) (topicFilters : List MqttString) :
    Except PacketError (List UInt8) :=
  let remLen := mqttSerializeUnsubscribeLength topicFilters
  if mqttPacketLen remLen > buflen then .error .bufferTooShort
  else .ok <| mqttHeader .unsubscribe dup 1 0 :: mqttPacketEncode remLen ++
    (writeInt packetid ++ topicFilters.flatMap writeMqttString)

/-- `MQTTSerialize_unsubscribe_size`. -/
def mqttSerializeUnsubscribeSize (topicFilters : List MqttString) : Nat :=
  mqttPacketLen (mqttSerializeUnsubscribeLength topicFilters)

/-! ## Sizes of what is written -/

private theorem setTopBit {d : Nat} (h : d < 128) :
    UInt8.ofNat d ||| 0x80 = UInt8.ofNat (d + 128) := by
  have sum := Nat.two_pow_add_eq_or_of_lt (i := 7) h 1
  have digit : (UInt8.ofNat d).toNat = d := by
    rw [UInt8.toNat_ofNat']
    omega
  apply UInt8.toNat_inj.mp
  rw [UInt8.toNat_or, digit, UInt8.toNat_ofNat']
  change d ||| 2 ^ 7 * 1 = (d + 128) % 256
  rw [Nat.or_comm, ← sum]
  omega

/-- The encoder of the source computes the seven-bit groups of the number. -/
theorem mqttPacketEncode_eq (length : Nat) : mqttPacketEncode length = Varint.encode length := by
  induction length using Nat.strongRecOn with
  | ind n ih =>
      rw [mqttPacketEncode]
      by_cases small : n < 128
      · rw [if_neg (by omega), Varint.encode_of_lt small, Nat.mod_eq_of_lt small]
      · rw [if_pos (by omega), ih _ (by omega), Varint.encode_of_ge (Nat.not_lt.mp small)]
        rw [setTopBit (Nat.mod_lt n (by decide))]

/-- Remaining lengths at which `MQTTPacket_len` reserves one byte more than the
length field takes: the comparisons count the header byte as well. -/
def lenOvershoots (remLen : Nat) : Prop :=
  remLen = 127 ∨ remLen = 16383 ∨ remLen = 2097150 ∨ remLen = 2097151

instance (remLen : Nat) : Decidable (lenOvershoots remLen) :=
  inferInstanceAs (Decidable (_ ∨ _))

theorem mqttPacketEncode_length {remLen : Nat} (h : remLen ≤ 268435455) :
    (mqttPacketEncode remLen).length =
      if remLen < 128 then 1 else if remLen < 16384 then 2
      else if remLen < 2097152 then 3 else 4 := by
  have one := Varint.encode_length_le_iff remLen 0
  have two := Varint.encode_length_le_iff remLen 1
  have three := Varint.encode_length_le_iff remLen 2
  have four := Varint.encode_length_le_iff remLen 3
  have pos := List.length_pos_iff.mpr (Varint.encode_ne_nil remLen)
  rw [mqttPacketEncode_eq]
  simp only [Nat.reduceAdd, Nat.reducePow] at one two three four
  split_ifs <;> omega

/-- The predicted packet size is short of nothing and exceeds the written size
by one byte exactly at the four lengths above. -/
theorem mqttPacketLen_eq {remLen : Nat} (h : remLen ≤ 268435455) :
    mqttPacketLen remLen = 1 + (mqttPacketEncode remLen).length + remLen +
      if lenOvershoots remLen then 1 else 0 := by
  rw [mqttPacketEncode_length h, mqttPacketLen]
  by_cases exceeds : lenOvershoots remLen
  · rw [if_pos exceeds]
    rcases exceeds with rfl | rfl | rfl | rfl <;> rfl
  · rw [if_neg exceeds]
    simp only [lenOvershoots, not_or] at exceeds
    split_ifs <;> omega

@[simp] theorem writeInt_length (n : Nat) : (writeInt n).length = 2 := rfl

namespace MqttString

/-- A string that only uses the C string, the only kind the client builds. -/
def Plain (s : MqttString) : Prop := s.lenstring = none

theorem plain_ofCString (s : Option CString) : (ofCString s).Plain := rfl

end MqttString

/-- The two precedence rules for a string agree when it has only one form. -/
theorem writeMqttString_length {s : MqttString} (plain : s.Plain) :
    (writeMqttString s).length = 2 + mqttStrlen s := by
  obtain ⟨cstring, lenstring⟩ := s
  cases plain
  cases cstring <;>
    simp [writeMqttString, mqttStrlen, MqttString.lenstringLen, writeCString, CString.strlen]

/-- Bytes of the protocol name and level that the length function leaves out:
an unknown version is not counted but announced as version 3. -/
def versionSurplus (mqttVersion : UInt8) : Nat :=
  if mqttVersion = 3 ∨ mqttVersion = 4 then 0 else 12

private theorem protocolName_length (options : MqttConnectData) :
    (protocolName options).length + 3 =
      (if options.mqttVersion = 3 then 12 else if options.mqttVersion = 4 then 10 else 0) +
        versionSurplus options.mqttVersion := by
  by_cases three : options.mqttVersion = 3
  · simp [protocolName, versionSurplus, three, writeCString]
  · by_cases four : options.mqttVersion = 4
    · simp [protocolName, versionSurplus, four, writeCString]
    · simp [protocolName, versionSurplus, three, four, writeCString]

private theorem optional_length {s : MqttString} (plain : s.Plain) :
    (if s.present then writeMqttString s else []).length =
      if s.present then mqttStrlen s + 2 else 0 := by
  split
  · rw [writeMqttString_length plain, Nat.add_comm]
  · rfl

theorem connectBody_length {options : MqttConnectData} (client : options.clientID.Plain)
    (topic : options.will.topicName.Plain) (message : options.will.message.Plain)
    (username : options.username.Plain) (password : options.password.Plain) :
    (connectBody options).length =
      mqttSerializeConnectLength options + versionSurplus options.mqttVersion := by
  have will : (if options.willFlag ≠ 0 then
        writeMqttString options.will.topicName ++ writeMqttString options.will.message
        else []).length =
      if options.willFlag ≠ 0 then
        mqttStrlen options.will.topicName + 2 + mqttStrlen options.will.message + 2 else 0 := by
    split
    · rw [List.length_append, writeMqttString_length topic, writeMqttString_length message]
      omega
    · rfl
  have name := protocolName_length options
  simp only [connectBody, List.length_append, will, optional_length username,
    optional_length password, writeMqttString_length client, writeInt_length,
    List.length_singleton, mqttSerializeConnectLength]
  omega

end Mqtt

end StDevice
