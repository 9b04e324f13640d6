import StDevice.Foundation.Handoff
import StDevice.Mqtt.Client

/-!
# Completing a packet that is waited for

The call that waits for a packet frees it as soon as it reads a final state, so the
function that completes the packet must not touch it after it has stored that state.
Here the completing functions are sequences of accesses to the chunk and its expiry
timer. An expired packet and a written DISCONNECT are handed back that way. A written
QoS 0 PUBLISH, a failed write and an acknowledgement are not: they store the state
first and go on to read or write the chunk.
-/

namespace StDevice.Mqtt

/-- The fields of a chunk that the completing functions touch. -/
inductive Field where
  | packetType | qos | haveOwner | expiryTime | returnCode | retryCount
  deriving DecidableEq, Repr

/-- One access to a chunk or to its expiry timer. -/
inductive Access where
  | load (field : Field)
  | store (field : Field)
  | setState (state : ChunkState)
  | timer
  | destroy
  deriving DecidableEq, Repr

/-- The states after which `_iot_mqtt_wait_for` frees its chunk. -/
def ChunkState.isFinal : ChunkState → Bool
  | .writeCompleted | .acknowledged | .writeFail | .timeout | .queueDestroyed => true
  | _ => false

def Access.readies : Access → Option Bool
  | setState state => some state.isFinal
  | _ => none

/-- The functions that complete a packet. `created` says whether a new expiry timer
could be created. -/
inductive Completion where
  | postWrite (created : Bool)
  | writeFailure
  | receivedAck (ack : MsgType)
  | expiry
  deriving DecidableEq, Repr

namespace Completion

/-- A new expiry timer in place of the old one. -/
def restartTimer (timer created : Bool) : List Access :=
  .load .expiryTime :: (if timer then [.load .expiryTime, .timer] else []) ++
    [.store .expiryTime, .load .expiryTime] ++
    (if created then [.load .expiryTime, .timer] else [])

/-- `_iot_mqtt_process_post_write`. Nothing is accessed after the push. -/
def postWriteAccesses (x : Chunk) (timer created : Bool) : List Access :=
  .load .packetType :: match x.packetType with
    | some .connect | some .subscribe | some .unsubscribe | some .pubrel | some .pubrec
    | some .pingreq => .setState .ackPending :: restartTimer timer created
    | some .publish =>
        .load .qos ::
          if x.qos = 0 then
            [.setState .writeCompleted, .load .haveOwner] ++
              if x.haveOwner then [] else [.destroy]
          else .setState .ackPending :: restartTimer timer created
    | some .disconnect =>
        .load .haveOwner :: if x.haveOwner then [.setState .writeCompleted] else [.destroy]
    | _ => [.destroy]

/-- The end of `_iot_mqtt_run_write_stream` when the chunk was not written. -/
def writeFailureAccesses : List Access :=
  [.setState .writeFail, .store .returnCode, .load .haveOwner]

/-- `_iot_mqtt_process_received_ack` after the pop. -/
def receivedAckAccesses (x : Chunk) (timer : Bool) (ack : MsgType) : List Access :=
  (if ack = .connack ∨ ack = .suback then [.store .returnCode] else []) ++
    .load .haveOwner ::
      if x.haveOwner then
        [.setState .acknowledged, .load .expiryTime] ++
          if timer then [.load .expiryTime, .timer, .store .expiryTime] else []
      else [.destroy]

/-- `_iot_mqtt_process_pending_packets` for an expired chunk. -/
def expiryAccesses (x : Chunk) : List Access :=
  .load .packetType :: match x.packetType with
    | some .connect => [.load .haveOwner, .setState .timeout]
    | _ =>
        [.load .retryCount, .store .retryCount, .load .retryCount] ++
          if x.retryCount + 1 < mqttPublishRetry then [.setState .writePending]
          else [.load .haveOwner, .setState .timeout]

/-- What a function does with the chunk `x`; `timer` says whether it has an expiry
timer. -/
def accesses (x : Chunk) (timer : Bool) : Completion → List Access
  | postWrite created => postWriteAccesses x timer created
  | writeFailure => writeFailureAccesses
  | receivedAck ack => receivedAckAccesses x timer ack
  | expiry => expiryAccesses x

/-- The state a sequence of accesses leaves. -/
def endState (state : ChunkState) : List Access → ChunkState
  | [] => state
  | .setState next :: rest => endState next rest
  | _ :: rest => endState state rest

/-- The functions that store a final state last or not at all. -/
def StoresLast (x : Chunk) : Completion → Prop
  | postWrite _ => ¬ (x.packetType = some .publish ∧ x.qos = 0)
  | writeFailure => False
  | receivedAck _ => False
  | expiry => True

open Handoff

variable {x : Chunk} {timer created : Bool}

private theorem readyLast_restartTimer :
    ReadyLast Access.readies (restartTimer timer created) := by
  cases timer <;> cases created <;>
    simp [restartTimer, ReadyLast, Access.readies]

private theorem readyLast_awaitAck :
    ReadyLast Access.readies (.setState .ackPending :: restartTimer timer created) :=
  ⟨by simp [Access.readies, ChunkState.isFinal], readyLast_restartTimer⟩

private theorem readyLast_postWrite_iff (owned : x.haveOwner = true) :
    ReadyLast Access.readies (postWriteAccesses x timer created) ↔
      ¬ (x.packetType = some .publish ∧ x.qos = 0) := by
  have load (field : Field) (rest : List Access) :
      ReadyLast Access.readies (.load field :: rest) ↔ ReadyLast Access.readies rest := by
    simp [ReadyLast, Access.readies]
  unfold postWriteAccesses
  rw [load]
  split
  case h_7 type =>
    rw [load]
    split
    case isTrue fireAndForget =>
      simp [ReadyLast, Access.readies, ChunkState.isFinal, type, fireAndForget]
    case isFalse numbered => simp [readyLast_awaitAck, numbered]
  case h_8 type =>
    rw [load, if_pos owned]
    simp [ReadyLast, type]
  case h_9 => simp_all [ReadyLast, Access.readies]
  all_goals
    rename_i type
    simp [readyLast_awaitAck, type]

private theorem readyLast_expiry : ReadyLast Access.readies (expiryAccesses x) := by
  unfold expiryAccesses
  split
  case h_1 => simp [ReadyLast, Access.readies]
  case h_2 => split <;> simp [ReadyLast, Access.readies]

private theorem not_readyLast_receivedAck (owned : x.haveOwner = true) (ack : MsgType) :
    ¬ ReadyLast Access.readies (receivedAckAccesses x timer ack) := by
  unfold receivedAckAccesses
  rw [if_pos owned]
  split <;> simp [ReadyLast, Access.readies, ChunkState.isFinal]

/-- A function hands a packet back for good exactly when it stores the final state
last. -/
theorem safe_iff_storesLast (how : Completion) (owned : x.haveOwner = true) :
    Safe Access.readies (how.accesses x timer) ↔ how.StoresLast x := by
  rw [safe_iff_readyLast]
  cases how with
  | postWrite created => exact readyLast_postWrite_iff owned
  | writeFailure =>
      simp [accesses, writeFailureAccesses, StoresLast, ReadyLast, Access.readies,
        ChunkState.isFinal]
  | receivedAck ack => exact iff_of_false (not_readyLast_receivedAck owned ack) (fun never => never)
  | expiry => exact iff_of_true readyLast_expiry trivial

/-- A written DISCONNECT is handed back for good. -/
theorem disconnect_safe :
    Safe Access.readies ((postWrite true).accesses
      { packetType := some .disconnect, haveOwner := true, chunkState := .writePending } false) :=
  (safe_iff_storesLast _ rfl).mpr (by simp [StoresLast])

/-- A synchronous QoS 0 PUBLISH is not: `have_owner` is read after the owner may have
freed the chunk. -/
theorem publish_not_safe :
    ¬ Safe Access.readies ((postWrite true).accesses
      { packetType := some .publish, haveOwner := true, chunkState := .writePending } false) := by
  intro safe
  have misused := safe [.access, .access, .access, .poll, .access] _
    (.cons rfl (.cons rfl (.cons rfl (.cons rfl (.cons rfl (.nil _))))))
  exact absurd misused (by decide)

section EndState

variable {s : Client} {c : Nat}

@[simp]
theorem endState_restartTimer (state : ChunkState) :
    endState state (restartTimer timer created) = state := by
  cases timer <;> cases created <;> rfl

/-- The accesses leave the state that the client's functions leave. -/
theorem endState_postWrite (owned : (s.chunk c).haveOwner = true) :
    endState (s.chunk c).chunkState ((postWrite created).accesses (s.chunk c) timer) =
      ((s.postWrite c).chunk c).chunkState := by
  simp only [accesses, postWriteAccesses, endState]
  split
  case h_7 type =>
    split
    case isTrue fireAndForget =>
      simp [endState, Client.postWrite, type, fireAndForget, owned, Client.setState, Client.store]
    case isFalse numbered =>
      simp [endState, Client.postWrite, type, numbered, Client.awaitAck, Client.setState,
        Client.store, Client.pushAck]
  case h_8 type =>
    simp [endState, Client.postWrite, type, owned, Client.setState, Client.store]
  case h_9 =>
    unfold Client.postWrite
    split <;> simp_all [endState, Client.destroy]
  all_goals
    rename_i type
    simp [endState, Client.postWrite, type, Client.awaitAck, Client.setState, Client.store,
      Client.pushAck]

theorem endState_writeFailure (owned : (s.chunk c).haveOwner = true) :
    endState (s.chunk c).chunkState (writeFailure.accesses (s.chunk c) timer) =
      ((s.writeFailed c).chunk c).chunkState := by
  simp [accesses, writeFailureAccesses, endState, Client.writeFailed, Client.giveUp, owned,
    Client.store]

theorem endState_receivedAck {r : Nat} {ack : MsgType} (owned : (s.chunk c).haveOwner = true) :
    endState (s.chunk c).chunkState ((receivedAck ack).accesses (s.chunk c) timer) =
      ((s.acknowledge ack r c).chunk c).chunkState := by
  have acknowledged : ((s.acknowledge ack r c).chunk c).chunkState = .acknowledged := by
    simp [Client.acknowledge, owned, Client.setState, Client.store, Client.destroy]
  rw [acknowledged]
  simp only [accesses, receivedAckAccesses, owned]
  cases timer <;> split <;> rfl

theorem endState_expiry (owned : (s.chunk c).haveOwner = true) :
    endState (s.chunk c).chunkState (expiry.accesses (s.chunk c) timer) =
      ((s.retry c).chunk c).chunkState := by
  simp only [accesses, expiryAccesses, endState, Client.retry]
  split
  case h_1 type =>
    simp [endState, type, Client.giveUp, owned, Client.store]
  case h_2 =>
    by_cases again : (s.chunk c).retryCount + 1 < mqttPublishRetry
    · rw [if_pos again, if_pos again]
      simp [endState, Client.store, Client.retried, Client.pushWrite]
    · rw [if_neg again, if_neg again]
      simp [endState, Client.giveUp, owned, Client.store, Client.retried]

end EndState

end Completion

end StDevice.Mqtt
