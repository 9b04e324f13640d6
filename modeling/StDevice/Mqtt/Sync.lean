import StDevice.Mqtt.Bounds
import StDevice.Mqtt.GivingUp
import StDevice.Mqtt.Reader

/-!
# The synchronous calls

A synchronous call queues its packet and runs cycles until something has become of it.
Here the cycles are followed in full: the bytes are read from the network, the received
packet is matched, and the packet it acknowledges gets its return code.

The thread of the call and the thread that listens at the socket take turns. One turn is
one cycle of the call, or one packet read by the other thread, which holds the read lock
meanwhile. What a turn meets is its input: whether a packet is sent, what
`port_net_read_poll` says, and which timers have run out. As in the rest of the client,
allocations, timers and locks succeed.
-/

namespace StDevice.Mqtt

open Client

/-- The message type of a code, if it is one. -/
def MsgType.ofCode (code : Nat) : Option MsgType :=
  [MsgType.connect, .connack, .publish, .puback, .pubrec, .pubrel, .pubcomp, .subscribe, .suback,
    .unsubscribe, .unsuback, .pingreq, .pingresp, .disconnect].find? fun type => type.code == code

/-- What C leaves open: whether `char` is signed, and which operand of `+=` in
`MQTTPacket_getPacketId` is read first. -/
structure Platform where
  signedChar : Bool
  leftFirst : Bool

/-- A `char` as an `int`. -/
def charToInt (signedChar : Bool) (c : UInt8) : Int :=
  if signedChar ∧ 128 ≤ c.toNat then c.toNat - 256 else c.toNat

/-! ## The codes -/

/-- E_ST_MQTT_FAILURE. -/
def eStMqttFailure : Int := -1

/-- E_ST_MQTT_PACKET_TIMEOUT. -/
def eStMqttPacketTimeout : Int := -10

/-- E_ST_MQTT_PING_TIMEOUT. -/
def eStMqttPingTimeout : Int := -12

/-- `_iot_mqtt_convert_return_code`: E_ST_MQTT_UNNACCEPTABLE_PROTOCOL,
E_ST_MQTT_CLIENTID_REJECTED, E_ST_MQTT_SERVER_UNAVAILABLE,
E_ST_MQTT_BAD_USERNAME_OR_PASSWORD and E_ST_MQTT_NOT_AUTHORIZED. -/
def iotMqttConvertReturnCode : Nat → Int
  | 0 => 0
  | 1 => -4
  | 2 => -6
  | 3 => -5
  | 4 => -7
  | 5 => -8
  | _ => eStMqttFailure

/-! ## What a turn meets -/

/-- The result of `port_net_read_poll`. -/
inductive Poll where
  | failed | nothing | ready
  deriving DecidableEq, Repr

/-- One call of `_iot_mqtt_run_read_stream`. Besides the poll, it meets what the memory
held before: behind a packet that is too short for its identifier, and in `ack_qos`. -/
structure Reading where
  poll : Poll
  strayId : Nat := 0
  ackQos : Int := 0

/-- One call of `_iot_mqtt_run_cycle`: whether the packet is sent, what is read, the chunks
whose timers have run out at each search for one, and whether a keep-alive timer has. -/
structure Cycle where
  written : Bool
  reading : Reading
  expired : List (Nat → Bool) := []
  silent : Bool := false

inductive Turn where
  | cycle (cycle : Cycle)
  | listen (reading : Reading)

def Turn.reading : Turn → Reading
  | .cycle round => round.reading
  | .listen r => r

/-- The client, its end of the connection, `return_code` of the packets with an owner, and
the packets read on this connection. -/
structure Link where
  client : Client
  net : Net
  isconnected : Bool
  returnCode : Nat → Int
  heard : List (List UInt8)

namespace Link

/-- `_iot_mqtt_close_net`. -/
def iotMqttCloseNet (s : Link) : Link := { s with isconnected := false }

/-- The end of a function that returns a network error or a ping timeout. -/
def hangUp (s : Link) : Link :=
  { s.iotMqttCloseNet with client := s.client.disconnected }

/-! ## Writing -/

/-- The chunk was not written. -/
def writeFails (s : Link) (c : Nat) (written : Int) : Link :=
  { s with
    client := s.client.writeFailed c
    returnCode := Function.update s.returnCode c written }

/-- `_iot_mqtt_run_write_stream`. A result that is not negative is 0 here. -/
def iotMqttRunWriteStream (s : Link) (written : Bool) : Link × Int :=
  match s.client.writePendingQueue with
  | [] => (s, 0)
  | c :: queue =>
      let popped := { s with client := { s.client with writePendingQueue := queue } }
      if s.isconnected = false then
        (popped.writeFails c eStMqttDisconnected, eStMqttDisconnected)
      else if written then ({ popped with client := popped.client.postWrite c }, 0)
      else ((popped.writeFails c eStMqttNetworkError).hangUp, eStMqttNetworkError)

/-! ## Reading -/

/-- The fields of the chunk of a packet that was read. -/
def readFields (p : Platform) (strayId : Nat) (packet : Received) : Chunk where
  packetType := MsgType.ofCode packet.packetType
  packetId := (mqttPacketGetPacketId p.leftFirst packet.chunkData).getD strayId
  qos := packet.qos
  dup := packet.chunkData.head?.any fun header => packetDup header ≠ 0

/-- `ack_rc` after `MQTTDeserialize_connack`. -/
def connackRc (chunk : List UInt8) : Nat :=
  ((mqttDeserializeConnack chunk).bind Connack.connackRc).elim 0 UInt8.toNat

/-- `ack_qos` after `MQTTDeserialize_suback`. -/
def subackQos (p : Platform) (ackQos : Int) (chunk : List UInt8) : Int :=
  ((mqttDeserializeSuback 1 chunk).bind fun suback => suback.grantedQoSs.head?).elim ackQos
    (charToInt p.signedChar)

/-- The return code that an acknowledgement gives, if it gives one. -/
def ackReturnCode (p : Platform) (ackQos : Int) (ack : MsgType) (chunk : List UInt8) :
    Option Int :=
  match ack with
  | .connack => some (iotMqttConvertReturnCode (connackRc chunk))
  | .suback => some (if subackQos p ackQos chunk = 0x80 then eStMqttFailure else 0)
  | _ => none

/-- `_iot_mqtt_process_received_ack`. -/
def iotMqttProcessReceivedAck (s : Link) (p : Platform) (ackQos : Int) (chunk : List UInt8)
    (r : Nat) (ack awaited : MsgType) : Link :=
  match popBy (s.client.hasTypeAndId (some awaited) (awaitedId ack (s.client.chunk r).packetId))
    s.client.ackPendingQueue with
  | some (c, queue) =>
      { s with
        client := { s.client with ackPendingQueue := queue }.acknowledge ack r c
        returnCode := (ackReturnCode p ackQos ack chunk).elim s.returnCode
          (Function.update s.returnCode c) }
  | none => { s with client := s.client.destroy r .cycle }

/-- `_iot_mqtt_process_received_publish`. -/
def iotMqttProcessReceivedPublish (s : Client) (r : Nat) : Client :=
  if (s.chunk r).qos = 0 then s.deliver r
  else
    deliver { (s.create (s.answerPacket r)).pushWrite s.created with
      answered := if numbered (s.chunk r).qos then r :: s.answered else s.answered } r

/-- `_iot_mqtt_process_received_pubrec_pubrel`. -/
def iotMqttProcessReceivedPubrecPubrel (s : Client) (r : Nat) (awaited : MsgType) : Client :=
  match popBy (s.hasTypeAndId (some awaited) (s.chunk r).packetId) s.ackPendingQueue with
  | some (c, queue) => { s.destroy r .cycle with ackPendingQueue := queue }.recycle c
  | none => s.destroy r .cycle

/-- `_iot_mqtt_process_post_read`. -/
def iotMqttProcessPostRead (s : Link) (p : Platform) (ackQos : Int) (chunk : List UInt8)
    (r : Nat) : Link :=
  match (s.client.chunk r).packetType with
  | some .publish => { s with client := iotMqttProcessReceivedPublish s.client r }
  | some .pubrec => { s with client := iotMqttProcessReceivedPubrecPubrel s.client r .publish }
  | some .pubrel => { s with client := iotMqttProcessReceivedPubrecPubrel s.client r .pubrec }
  | some type =>
      match awaitedType type with
      | some awaited => s.iotMqttProcessReceivedAck p ackQos chunk r type awaited
      | none => { s with client := s.client.destroy r .cycle }
  | none => { s with client := s.client.destroy r .cycle }

/-- A packet was read; its chunk is the newest one. -/
def arrive (s : Link) (p : Platform) (strayId : Nat) (net : Net) (packet : Received) : Link :=
  { s with
    client := { s.client.create (received (readFields p strayId packet)) with
      inbound :=
        if isFirst (readFields p strayId packet) then s.client.created :: s.client.inbound
        else s.client.inbound }
    net := net
    heard := s.heard ++ [packet.chunkData] }

/-- `_iot_mqtt_run_read_stream`. A result that is not negative is 0 here. No `int` of the
call overflows: `readChunk` fails only with a network error. -/
def iotMqttRunReadStream (s : Link) (p : Platform) (reading : Reading) : Link × Int :=
  if s.isconnected = false then (s, eStMqttDisconnected)
  else
    match reading.poll with
    | .failed => (s.hangUp, eStMqttNetworkError)
    | .nothing => (s, 0)
    | .ready =>
        match readChunk s.net with
        | .ok (net, packet) =>
            ((s.arrive p reading.strayId net packet).iotMqttProcessPostRead p reading.ackQos
              packet.chunkData s.client.created, 0)
        | .error _ => (s.hangUp, eStMqttNetworkError)

/-! ## The cycle -/

/-- `_iot_mqtt_process_pending_packets`, with the chunks whose timers have run out at each
search. -/
def iotMqttProcessPendingPackets (s : Client) : List (Nat → Bool) → Client
  | [] => s
  | expired :: later =>
      match popBy expired s.ackPendingQueue with
      | some (c, queue) =>
          iotMqttProcessPendingPackets ({ s with ackPendingQueue := queue }.retry c) later
      | none => s

/-- `_iot_mqtt_check_alive`. -/
def iotMqttCheckAlive (s : Link) (silent : Bool) : Link × Int :=
  if silent then
    if (s.client.chunk pingPacket).chunkState = .timeout then
      ({ s with client := s.client.checkAlive }.hangUp, eStMqttPingTimeout)
    else ({ s with client := s.client.checkAlive }, 0)
  else (s, 0)

/-- `_iot_mqtt_run_cycle`. -/
def iotMqttRunCycle (s : Link) (p : Platform) (cycle : Cycle) : Link × Int :=
  let (s, rc) := s.iotMqttRunWriteStream cycle.written
  if rc < 0 then (s, rc)
  else
    let (s, rc) := s.iotMqttRunReadStream p cycle.reading
    if rc < 0 then (s, rc)
    else
      { s with client := iotMqttProcessPendingPackets s.client cycle.expired }.iotMqttCheckAlive
        cycle.silent

/-! ## Waiting -/

/-- What the loop of `_iot_mqtt_wait_for` returns after a cycle that returned `rc`, if it
ends. -/
def waitResult (s : Link) (c : Nat) (rc : Int) : Option Int :=
  match (s.client.chunk c).chunkState with
  | .writePending =>
      if rc < 0 ∧ (s.client.abandons c .writePending).isSome then some rc else none
  | .ackPending => if rc < 0 ∧ (s.client.abandons c .ackPending).isSome then some rc else none
  | .writeCompleted | .acknowledged => some (s.returnCode c)
  | .queueDestroyed | .writeFail => some eStMqttFailure
  | .timeout => some eStMqttPacketTimeout
  | _ => none

/-- One turn, and what the call for the chunk returns if it returns now. -/
def turn (s : Link) (p : Platform) (c : Nat) : Turn → Link × Option Int
  | .listen reading => ((s.iotMqttRunReadStream p reading).1, none)
  | .cycle cycle =>
      let (s, rc) := s.iotMqttRunCycle p cycle
      ({ s with client := s.client.poll c (s.client.chunk c).chunkState (rc < 0) },
        s.waitResult c rc)

/-- `_iot_mqtt_wait_for`: where it ends and what it returns, if it returns within these
turns. -/
def iotMqttWaitFor (s : Link) (p : Platform) (c : Nat) : List Turn → Option (Link × Int)
  | [] => none
  | turn :: turns =>
      match s.turn p c turn with
      | (s, some result) => some (s, result)
      | (s, none) => s.iotMqttWaitFor p c turns

/-- The state of a call that still waits after these turns. -/
def stillWaits (s : Link) (p : Platform) (c : Nat) : List Turn → Option Link
  | [] => some s
  | turn :: turns =>
      match s.turn p c turn with
      | (_, some _) => none
      | (s, none) => s.stillWaits p c turns

/-! ## The calls -/

/-- The packet of a call is queued. -/
def request (s : Link) (q : Request) : Link :=
  { s with
    client := s.client.request q
    returnCode := Function.update s.returnCode s.client.created 0 }

/-- `_iot_mqtt_connect_net` when `port_net_connect` succeeds. -/
def iotMqttConnectNet (s : Link) (net : Net) : Link :=
  { s with net := net, isconnected := true, heard := [] }

/-- `st_mqtt_connect`. If `port_net_connect` fails, the context of the last connection was
freed before. The thread that listens at the socket is started when the call has succeeded. -/
def stMqttConnect (s : Link) (p : Platform) (opens : Option Net) (cycles : List Cycle) :
    Option (Link × Int) :=
  match opens with
  | none => some ({ s with net := { s.net with stream := [] } }, eStMqttFailure)
  | some net =>
      (((s.iotMqttConnectNet net).request .connect).iotMqttWaitFor p s.client.created
        (cycles.map .cycle)).map fun (s, rc) => (if rc < 0 then s.iotMqttCloseNet else s, rc)

/-- `st_mqtt_subscribe`. -/
def stMqttSubscribe (s : Link) (p : Platform) (topics : List CString) (turns : List Turn) :
    Option (Link × Int) :=
  if topics = [] then some (s, eStMqttFailure)
  else (s.request .subscribe).iotMqttWaitFor p s.client.created turns

end Link

end StDevice.Mqtt
