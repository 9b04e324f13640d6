import Mathlib.Logic.Function.Basic
import StDevice.Foundation.Run
import StDevice.Mqtt.Packet

/-!
# The MQTT client

The client keeps its packets as chunks in three queues. Any number of threads run
its cycles: they take chunks out of a queue, write them, match them with received
packets, retry them when they expire, and report them to the user. The thread of a
synchronous call also waits for its own chunk and frees it.

One event is one operation on a queue, with what its thread does before the next
one. A chunk a thread has taken out of a queue is part of a job. Nothing is
assumed about the order of events, the results of the network, or the timers;
allocations and locks succeed. The write and read locks, which only forbid some of
these orders, are left out.
-/

namespace StDevice.Mqtt

/-- `enum packet_chunk_state`. -/
inductive ChunkState where
  | init | writePending | writeCompleted | writeFail | ackPending | readCompleted
  | acknowledged | timeout | queueDestroyed | eventConnected | eventDisconnected
  deriving DecidableEq, Repr

/-- `iot_mqtt_packet_chunk_t`. A `packetType` of `none` is a number that is no
message type; `dup` is the DUP bit of the first byte of its data, and `message` the
application message a PUBLISH carries. Packets with the same are copies. -/
structure Chunk where
  packetType : Option MsgType := none
  packetId : Nat := 0
  qos : Nat := 0
  haveOwner : Bool := false
  chunkState : ChunkState := .init
  retryCount : Nat := 0
  dup : Bool := false
  message : Nat := 0
  deriving DecidableEq, Repr

/-- What a thread is doing with the chunks it took out of a queue or read from the
network. -/
inductive Job where
  | writing (c : Nat)
  | received (c : Nat)
  | acknowledging (ack : MsgType) (received c : Nat)
  | delivering (c : Nat)
  | recycling (c : Nat)
  | expired (c : Nat)
  | reporting (c : Nat)
  deriving DecidableEq, Repr

/-- Who frees a chunk: a cycle, or the call of `_iot_mqtt_wait_for` for it. -/
inductive Agent where
  | cycle
  | waitFor (c : Nat)
  deriving DecidableEq, Repr

/-- A call of `_iot_mqtt_chunk_destroy`, with `have_owner` as it was then. -/
structure Free where
  chunk : Nat
  haveOwner : Bool
  agent : Agent
  deriving DecidableEq, Repr

/-- The client. Chunks are numbered in the order of their creation. -/
structure Client where
  chunk : Nat → Chunk
  created : Nat
  nextPacketid : Nat
  writePendingQueue : List Nat
  ackPendingQueue : List Nat
  userEventCallbackQueue : List Nat
  jobs : List Job
  /-- the chunks `_iot_mqtt_wait_for` waits for -/
  waiting : List Nat
  /-- every chunk freed so far -/
  frees : List Free
  /-- the QoS 1 and QoS 2 messages `st_mqtt_publish_async` returned 0 for -/
  accepted : List Nat
  /-- the messages the broker has acknowledged -/
  acknowledged : List Nat
  /-- the messages reported by PUBLISH_FAILED or PUBLISH_TIMEOUT -/
  reported : List Nat
  /-- the PUBLISH packets received without the DUP bit -/
  inbound : List Nat
  /-- the received packets PUBACK or PUBREC was queued for -/
  answered : List Nat
  /-- the packets whose message was handed to the user by MSG_DELIVERED -/
  delivered : List Nat

/-- `MAX_PACKET_ID`. -/
def maxPacketId : Nat := 65535

/-- `MQTT_PUBLISH_RETRY`. -/
def mqttPublishRetry : Nat := 3

/-- The first wanted chunk of a queue, and the others. -/
def popBy (wanted : Nat → Bool) : List Nat → Option (Nat × List Nat)
  | [] => none
  | c :: queue =>
      if wanted c then some (c, queue)
      else (popBy wanted queue).map fun popped => (popped.1, c :: popped.2)

/-- The calls that send a packet of their own and wait for it. -/
inductive Request where
  | connect | subscribe | unsubscribe | disconnect
  deriving DecidableEq, Repr

def Request.packetType : Request → MsgType
  | connect => .connect
  | subscribe => .subscribe
  | unsubscribe => .unsubscribe
  | disconnect => .disconnect

def Request.numbered : Request → Bool
  | subscribe | unsubscribe => true
  | connect | disconnect => false

/-- What the packets handled by `_iot_mqtt_process_received_ack` acknowledge. -/
def awaitedType : MsgType → Option MsgType
  | .connack => some .connect
  | .puback => some .publish
  | .suback => some .subscribe
  | .unsuback => some .unsubscribe
  | .pubcomp => some .pubrel
  | .pingresp => some .pingreq
  | _ => none

namespace Client

/-- The chunk of PINGREQ, created with the client. -/
def pingPacket : Nat := 0

def initial : Client where
  chunk := Function.update (fun _ => {}) pingPacket
    { packetType := some .pingreq, haveOwner := true }
  created := 1
  nextPacketid := 1
  writePendingQueue := []
  ackPendingQueue := []
  userEventCallbackQueue := []
  jobs := []
  waiting := []
  frees := []
  accepted := []
  acknowledged := []
  reported := []
  inbound := []
  answered := []
  delivered := []

/-- The chunk exists and was not freed. -/
def Live (s : Client) (c : Nat) : Prop := c < s.created ∧ ∀ free ∈ s.frees, free.chunk ≠ c

/-- `_iot_mqtt_chunk_create`, with the fields the caller sets before the chunk is
seen by others. -/
def create (s : Client) (x : Chunk) : Client :=
  { s with chunk := Function.update s.chunk s.created x, created := s.created + 1 }

def store (s : Client) (c : Nat) (x : Chunk) : Client :=
  { s with chunk := Function.update s.chunk c x }

def setState (s : Client) (c : Nat) (state : ChunkState) : Client :=
  s.store c { s.chunk c with chunkState := state }

/-- `_iot_mqtt_chunk_destroy`. -/
def destroy (s : Client) (c : Nat) (agent : Agent) : Client :=
  { s with frees := ⟨c, (s.chunk c).haveOwner, agent⟩ :: s.frees }

def pushWrite (s : Client) (c : Nat) : Client :=
  { s with writePendingQueue := s.writePendingQueue ++ [c] }

def pushAck (s : Client) (c : Nat) : Client :=
  { s with ackPendingQueue := s.ackPendingQueue ++ [c] }

def pushUser (s : Client) (c : Nat) : Client :=
  { s with userEventCallbackQueue := s.userEventCallbackQueue ++ [c] }

/-- The wanted chunk of `_iot_mqtt_queue_pop_by_type_and_id`. -/
def hasTypeAndId (s : Client) (type : Option MsgType) (id c : Nat) : Bool :=
  (s.chunk c).packetType == type && (s.chunk c).packetId == id

/-- The chunks `_iot_mqtt_wait_for` takes for the one it waits for. -/
def like (s : Client) (c : Nat) : Nat → Bool :=
  s.hasTypeAndId (s.chunk c).packetType (s.chunk c).packetId

def nextId (nextPacketid : Nat) : Nat :=
  if maxPacketId ≤ nextPacketid then 1 else nextPacketid + 1

/-- The messages that get a packet id. -/
def numbered (qos : Nat) : Bool := qos = 1 ∨ qos = 2

def publishPacket (s : Client) (isSync : Bool) (qos : Nat) : Chunk where
  packetType := some .publish
  packetId := if numbered qos then nextId s.nextPacketid else 0
  qos := qos
  haveOwner := isSync
  chunkState := .writePending

/-- `_iot_mqtt_push_publish_packet` for `st_mqtt_publish` (`isSync`), which then
waits, and for `st_mqtt_publish_async`. -/
def publish (s : Client) (isSync : Bool) (qos : Nat) : Client :=
  { (s.create (s.publishPacket isSync qos)).pushWrite s.created with
    nextPacketid := if numbered qos then nextId s.nextPacketid else s.nextPacketid
    waiting := if isSync then s.created :: s.waiting else s.waiting
    accepted := if numbered qos && !isSync then s.created :: s.accepted else s.accepted }

def requestPacket (s : Client) (q : Request) : Chunk where
  packetType := some q.packetType
  packetId := if q.numbered then nextId s.nextPacketid else 0
  haveOwner := true
  chunkState := .writePending

/-- `st_mqtt_connect`, `st_mqtt_subscribe`, `st_mqtt_unsubscribe` and
`st_mqtt_disconnect`, up to `_iot_mqtt_wait_for`. -/
def request (s : Client) (q : Request) : Client :=
  { (s.create (s.requestPacket q)).pushWrite s.created with
    nextPacketid := if q.numbered then nextId s.nextPacketid else s.nextPacketid
    waiting := s.created :: s.waiting }

/-- The end of `_iot_mqtt_wait_for`. -/
def leave (s : Client) (c : Nat) : Client :=
  { s.destroy c (.waitFor c) with waiting := s.waiting.erase c }

/-- The states the loop of `_iot_mqtt_wait_for` can have read by the time it
searches a queue. A chunk that is still pending may have gone on since. -/
def CanSee (s : Client) (c : Nat) (seen : ChunkState) : Prop :=
  seen = .writePending ∨ seen = .ackPending ∨ seen = (s.chunk c).chunkState

instance (s : Client) (c : Nat) (seen : ChunkState) : Decidable (s.CanSee c seen) :=
  inferInstanceAs (Decidable (_ ∨ _ ∨ _))

/-- What the error path of `_iot_mqtt_wait_for` takes out of a queue, by the state
it has read. -/
def abandons (s : Client) (c : Nat) : ChunkState → Option (Nat × List Nat)
  | .writePending => popBy (s.like c) s.writePendingQueue
  | .ackPending => popBy (s.like c) s.ackPendingQueue
  | _ => none

/-- One round of the loop in `_iot_mqtt_wait_for`, after a cycle that failed or
not, with the state it has read. What is popped is taken for the chunk waited for. -/
def poll (s : Client) (c : Nat) (seen : ChunkState) (failed : Bool) : Client :=
  match seen with
  | .writePending =>
      if failed then
        match s.abandons c .writePending with
        | some (_, queue) => { s with writePendingQueue := queue }.leave c
        | none => s
      else s
  | .ackPending =>
      if failed then
        match s.abandons c .ackPending with
        | some (_, queue) => { s with ackPendingQueue := queue }.leave c
        | none => s
      else s
  | .writeCompleted | .acknowledged | .queueDestroyed | .writeFail | .timeout => s.leave c
  | _ => s

/-- A written chunk that waits for its acknowledgement; the timer is started. -/
def awaitAck (s : Client) (c : Nat) : Client := (s.setState c .ackPending).pushAck c

/-- `_iot_mqtt_process_post_write`. -/
def postWrite (s : Client) (c : Nat) : Client :=
  match (s.chunk c).packetType with
  | some .connect | some .subscribe | some .unsubscribe | some .pubrel | some .pubrec
  | some .pingreq => s.awaitAck c
  | some .publish =>
      if (s.chunk c).qos = 0 then
        if (s.chunk c).haveOwner then s.setState c .writeCompleted
        else (s.setState c .writeCompleted).destroy c .cycle
      else s.awaitAck c
  | some .disconnect =>
      if (s.chunk c).haveOwner then s.setState c .writeCompleted else s.destroy c .cycle
  | _ => s.destroy c .cycle

/-- A chunk that failed, with the state `x` it ends in: its owner sees the state, the
user is told otherwise. -/
def giveUp (s : Client) (c : Nat) (x : Chunk) : Client :=
  if (s.chunk c).haveOwner then s.store c x else (s.store c x).pushUser c

/-- The end of `_iot_mqtt_run_write_stream` when the chunk was not written. -/
def writeFailed (s : Client) (c : Nat) : Client :=
  s.giveUp c { s.chunk c with chunkState := .writeFail }

/-- `EVENT_CHUNK_DISCONNECTED` after a network error or a ping timeout. -/
def disconnected (s : Client) : Client :=
  (s.create { chunkState := .eventDisconnected }).pushUser s.created

/-- The chunk of a packet from the network. -/
def received (packet : Chunk) : Chunk :=
  { packet with haveOwner := false, chunkState := .readCompleted, retryCount := 0 }

/-- A PUBLISH packet without the DUP bit. -/
def isFirst (x : Chunk) : Bool := x.packetType == some .publish && !x.dup

/-- `_iot_mqtt_run_read_stream` has read a packet. -/
def read (s : Client) (packet : Chunk) : Client :=
  { s.create (received packet) with
    jobs := .received s.created :: s.jobs
    inbound := if isFirst packet then s.created :: s.inbound else s.inbound }

/-- The packet id that `_iot_mqtt_process_received_ack` searches for. -/
def awaitedId (ack : MsgType) (id : Nat) : Nat := if ack = .connack ∨ ack = .pingresp then 0 else id

/-- `_iot_mqtt_process_received_ack` up to the end of the pop. -/
def receivedAck (s : Client) (r : Nat) (ack awaited : MsgType) : Client :=
  match popBy (s.hasTypeAndId (some awaited) (awaitedId ack (s.chunk r).packetId))
    s.ackPendingQueue with
  | some (c, queue) =>
      { s with ackPendingQueue := queue, jobs := .acknowledging ack r c :: s.jobs }
  | none => s.destroy r .cycle

/-- The broker's answer completes the message. -/
def completes (ack : MsgType) (qos : Nat) : Bool :=
  (ack == .puback && qos == 1) || (ack == .pubcomp && qos == 2)

/-- `_iot_mqtt_process_received_ack` after the pop. -/
def acknowledge (s : Client) (ack : MsgType) (r c : Nat) : Client :=
  if (s.chunk c).haveOwner then (s.setState c .acknowledged).destroy r .cycle
  else
    { (s.destroy c .cycle).destroy r .cycle with
      acknowledged :=
        if completes ack (s.chunk c).qos then c :: s.acknowledged else s.acknowledged }

/-- The end of `_iot_mqtt_process_received_publish`. -/
def deliver (s : Client) (r : Nat) : Client :=
  if (s.chunk r).dup then s.destroy r .cycle else s.pushUser r

/-- The packet that answers a received PUBLISH. -/
def answerType (qos : Nat) : Option MsgType :=
  if qos = 1 then some .puback else if qos = 2 then some .pubrec else none

def answerPacket (s : Client) (r : Nat) : Chunk where
  packetType := answerType (s.chunk r).qos
  packetId := (s.chunk r).packetId
  chunkState := .writePending

/-- `_iot_mqtt_process_received_publish`, up to its second push if the message is
answered. -/
def receivedPublish (s : Client) (r : Nat) : Client :=
  if (s.chunk r).qos = 0 then s.deliver r
  else
    { (s.create (s.answerPacket r)).pushWrite s.created with
      jobs := .delivering r :: s.jobs
      answered := if numbered (s.chunk r).qos then r :: s.answered else s.answered }

/-- `_iot_mqtt_process_received_pubrec_pubrel` up to the free of the received
packet. -/
def receivedPubrecPubrel (s : Client) (r : Nat) (awaited : MsgType) : Client :=
  match popBy (s.hasTypeAndId (some awaited) (s.chunk r).packetId) s.ackPendingQueue with
  | some (c, queue) =>
      { s.destroy r .cycle with ackPendingQueue := queue, jobs := .recycling c :: s.jobs }
  | none => s.destroy r .cycle

/-- The type a recycled packet gets. -/
def recycledType : Option MsgType → Option MsgType
  | some .publish => some .pubrel
  | some .pubrec => some .pubcomp
  | type => type

def recycled (x : Chunk) : Chunk :=
  { x with packetType := recycledType x.packetType, chunkState := .writePending }

/-- The end of `_iot_mqtt_process_received_pubrec_pubrel`. -/
def recycle (s : Client) (c : Nat) : Client := (s.store c (recycled (s.chunk c))).pushWrite c

/-- `_iot_mqtt_process_post_read`. -/
def postRead (s : Client) (r : Nat) : Client :=
  match (s.chunk r).packetType with
  | some .publish => s.receivedPublish r
  | some .pubrec => s.receivedPubrecPubrel r .publish
  | some .pubrel => s.receivedPubrecPubrel r .pubrec
  | some type =>
      match awaitedType type with
      | some awaited => s.receivedAck r type awaited
      | none => s.destroy r .cycle
  | none => s.destroy r .cycle

/-- An expired chunk, with its retry counted. -/
def retried (x : Chunk) (state : ChunkState) : Chunk :=
  { x with retryCount := x.retryCount + 1, chunkState := state }

/-- `_iot_mqtt_process_pending_packets` for an expired chunk. -/
def retry (s : Client) (c : Nat) : Client :=
  match (s.chunk c).packetType with
  | some .connect => s.giveUp c { s.chunk c with chunkState := .timeout }
  | _ =>
      if (s.chunk c).retryCount + 1 < mqttPublishRetry then
        (s.store c (retried (s.chunk c) .writePending)).pushWrite c
      else s.giveUp c (retried (s.chunk c) .timeout)

/-- The chunks `_iot_mqtt_process_user_callback` calls `_iot_mqtt_notify_publish_failed`
for. -/
def notifies (x : Chunk) : Bool :=
  (x.chunkState == .timeout || x.chunkState == .writeFail) && x.packetType == some .publish

/-- The chunks `_iot_mqtt_process_user_callback` calls `_iot_mqtt_deliver_publish` for. -/
def handsOver (x : Chunk) : Bool :=
  x.chunkState == .readCompleted && x.packetType == some .publish

/-- `_iot_mqtt_process_user_callback` for a chunk of the queue. -/
def report (s : Client) (c : Nat) : Client :=
  { s.destroy c .cycle with
    reported := if notifies (s.chunk c) then c :: s.reported else s.reported
    delivered := if handsOver (s.chunk c) then c :: s.delivered else s.delivered }

def pinged (x : Chunk) : Chunk := { x with chunkState := .writePending, retryCount := 0 }

/-- `_iot_mqtt_check_alive` when a keep-alive timer has run out. -/
def checkAlive (s : Client) : Client :=
  match (s.chunk pingPacket).chunkState with
  | .acknowledged | .init =>
      (s.store pingPacket (pinged (s.chunk pingPacket))).pushWrite pingPacket
  | .timeout => s.setState pingPacket .init
  | _ => s

/-- A thread goes on with a job. -/
def resume (s : Client) (job : Job) (next : Client → Client) : Option Client :=
  if job ∈ s.jobs then some (next { s with jobs := s.jobs.erase job }) else none

end Client

inductive Event where
  | publish (isSync : Bool) (qos : Nat)
  | request (q : Request)
  | poll (c : Nat) (seen : ChunkState) (failed : Bool)
  | writePop
  | writeEnd (c : Nat) (written : Bool)
  | disconnected
  | read (packet : Chunk)
  | postRead (r : Nat)
  | acknowledge (ack : MsgType) (r c : Nat)
  | deliver (r : Nat)
  | recycle (c : Nat)
  | expire (expired : Nat → Bool)
  | retry (c : Nat)
  | userPop
  | report (c : Nat)
  | checkAlive

namespace Client

def step (s : Client) : Event → Option Client
  | .publish isSync qos => some (s.publish isSync qos)
  | .request q => some (s.request q)
  | .poll c seen failed =>
      if c ∈ s.waiting ∧ s.CanSee c seen then some (s.poll c seen failed) else none
  | .writePop =>
      match s.writePendingQueue with
      | [] => none
      | c :: queue => some { s with writePendingQueue := queue, jobs := .writing c :: s.jobs }
  | .writeEnd c written =>
      s.resume (.writing c) fun s => if written then s.postWrite c else s.writeFailed c
  | .disconnected => some s.disconnected
  | .read packet => some (s.read packet)
  | .postRead r => s.resume (.received r) fun s => s.postRead r
  | .acknowledge ack r c => s.resume (.acknowledging ack r c) fun s => s.acknowledge ack r c
  | .deliver r => s.resume (.delivering r) fun s => s.deliver r
  | .recycle c => s.resume (.recycling c) fun s => s.recycle c
  | .expire expired =>
      (popBy expired s.ackPendingQueue).map fun popped =>
        { s with ackPendingQueue := popped.2, jobs := .expired popped.1 :: s.jobs }
  | .retry c => s.resume (.expired c) fun s => s.retry c
  | .userPop =>
      match s.userEventCallbackQueue with
      | [] => none
      | c :: queue =>
          some { s with userEventCallbackQueue := queue, jobs := .reporting c :: s.jobs }
  | .report c => s.resume (.reporting c) fun s => s.report c
  | .checkAlive => some s.checkAlive

/-- One step of the client. -/
def Transition (s : Client) (e : Event) (t : Client) : Prop := s.step e = some t

/-- What a step is, event by event: the guard under which it is taken and the state it
ends in. -/
inductive Stepped (s : Client) : Event → Client → Prop where
  | publish (isSync : Bool) (qos : Nat) : Stepped s (.publish isSync qos) (s.publish isSync qos)
  | request (q : Request) : Stepped s (.request q) (s.request q)
  | poll {c : Nat} {seen : ChunkState} (failed : Bool) (waits : c ∈ s.waiting)
      (sees : s.CanSee c seen) : Stepped s (.poll c seen failed) (s.poll c seen failed)
  | writePop {c : Nat} {queue : List Nat} (pending : s.writePendingQueue = c :: queue) :
      Stepped s .writePop { s with writePendingQueue := queue, jobs := .writing c :: s.jobs }
  | written {c : Nat} (job : .writing c ∈ s.jobs) :
      Stepped s (.writeEnd c true) ({ s with jobs := s.jobs.erase (.writing c) }.postWrite c)
  | notWritten {c : Nat} (job : .writing c ∈ s.jobs) :
      Stepped s (.writeEnd c false) ({ s with jobs := s.jobs.erase (.writing c) }.writeFailed c)
  | disconnected : Stepped s .disconnected s.disconnected
  | read (packet : Chunk) : Stepped s (.read packet) (s.read packet)
  | postRead {r : Nat} (job : .received r ∈ s.jobs) :
      Stepped s (.postRead r) ({ s with jobs := s.jobs.erase (.received r) }.postRead r)
  | acknowledge {ack : MsgType} {r c : Nat} (job : .acknowledging ack r c ∈ s.jobs) :
      Stepped s (.acknowledge ack r c)
        ({ s with jobs := s.jobs.erase (.acknowledging ack r c) }.acknowledge ack r c)
  | deliver {r : Nat} (job : .delivering r ∈ s.jobs) :
      Stepped s (.deliver r) ({ s with jobs := s.jobs.erase (.delivering r) }.deliver r)
  | recycle {c : Nat} (job : .recycling c ∈ s.jobs) :
      Stepped s (.recycle c) ({ s with jobs := s.jobs.erase (.recycling c) }.recycle c)
  | expire {expired : Nat → Bool} {c : Nat} {queue : List Nat}
      (pops : popBy expired s.ackPendingQueue = some (c, queue)) :
      Stepped s (.expire expired)
        { s with ackPendingQueue := queue, jobs := .expired c :: s.jobs }
  | retry {c : Nat} (job : .expired c ∈ s.jobs) :
      Stepped s (.retry c) ({ s with jobs := s.jobs.erase (.expired c) }.retry c)
  | userPop {c : Nat} {queue : List Nat} (pending : s.userEventCallbackQueue = c :: queue) :
      Stepped s .userPop
        { s with userEventCallbackQueue := queue, jobs := .reporting c :: s.jobs }
  | report {c : Nat} (job : .reporting c ∈ s.jobs) :
      Stepped s (.report c) ({ s with jobs := s.jobs.erase (.reporting c) }.report c)
  | checkAlive : Stepped s .checkAlive s.checkAlive

theorem resume_cases {s t : Client} {job : Job} {next : Client → Client}
    (resumes : s.resume job next = some t) :
    job ∈ s.jobs ∧ t = next { s with jobs := s.jobs.erase job } := by
  unfold resume at resumes
  split at resumes
  case isTrue mem => exact ⟨mem, (Option.some.inj resumes).symm⟩
  case isFalse => exact absurd resumes (by simp)

/-- There are no other steps. The rest of the development looks at a step through its
case here, and not through `step`. -/
theorem Transition.stepped {s t : Client} {e : Event} (transition : s.Transition e t) :
    s.Stepped e t := by
  unfold Transition step at transition
  cases e with
  | publish isSync qos => exact Option.some.inj transition ▸ .publish isSync qos
  | request q => exact Option.some.inj transition ▸ .request q
  | poll c seen failed =>
      dsimp only at transition
      split at transition
      case isTrue guard => exact Option.some.inj transition ▸ .poll failed guard.1 guard.2
      case isFalse => exact absurd transition (by simp)
  | writePop =>
      dsimp only at transition
      split at transition
      case h_1 => exact absurd transition (by simp)
      case h_2 pending => exact Option.some.inj transition ▸ .writePop pending
  | writeEnd c written =>
      obtain ⟨job, rfl⟩ := resume_cases transition
      cases written with
      | true => exact .written job
      | false => exact .notWritten job
  | disconnected => exact Option.some.inj transition ▸ .disconnected
  | read packet => exact Option.some.inj transition ▸ .read packet
  | postRead r =>
      obtain ⟨job, rfl⟩ := resume_cases transition
      exact .postRead job
  | acknowledge ack r c =>
      obtain ⟨job, rfl⟩ := resume_cases transition
      exact .acknowledge job
  | deliver r =>
      obtain ⟨job, rfl⟩ := resume_cases transition
      exact .deliver job
  | recycle c =>
      obtain ⟨job, rfl⟩ := resume_cases transition
      exact .recycle job
  | expire expired =>
      obtain ⟨popped, pops, rfl⟩ := Option.map_eq_some_iff.mp transition
      exact .expire pops
  | retry c =>
      obtain ⟨job, rfl⟩ := resume_cases transition
      exact .retry job
  | userPop =>
      dsimp only at transition
      split at transition
      case h_1 => exact absurd transition (by simp)
      case h_2 pending => exact Option.some.inj transition ▸ .userPop pending
  | report c =>
      obtain ⟨job, rfl⟩ := resume_cases transition
      exact .report job
  | checkAlive => exact Option.some.inj transition ▸ .checkAlive

/-- One more event in front of a run whose steps all meet `P`. -/
theorem Transition.cons {P : Client → Event → Prop} {s t u : Client} {e : Event}
    {events : List Event} (transition : s.Transition e t) (here : P s e)
    (rest : Run.Steps Transition t events u ∧ Run.Along Transition P t events) :
    Run.Steps Transition s (e :: events) u ∧ Run.Along Transition P s (e :: events) :=
  Run.cons_along transition (fun _ other => Option.some.inj (other.symm.trans transition)) here rest

end Client

end StDevice.Mqtt
