import StDevice.Mqtt.Preservation

/-!
# What becomes of an accepted message

A QoS 1 or QoS 2 message that `st_mqtt_publish_async` accepted is held by one
chunk, or was acknowledged by the broker, or was reported to the user, and only
once. The client loses it in three ways: PUBREL, the second half of QoS 2, is not
reported when it fails; PUBACK and PUBREC are matched with any PUBLISH of their id;
and a call that gives up may take it for its own packet. Every run without these
accounts for every message.
-/

namespace StDevice.Mqtt

open Custody Run

/-- A packet of an asynchronous message with an acknowledgement. -/
structure Chunk.Asynchronous (x : Chunk) : Prop where
  unowned : x.haveOwner = false
  qos : x.qos = 1 ∨ x.qos = 2
  type : x.packetType = some .publish ∨ x.packetType = some .pubrel

theorem Chunk.Message.asynchronous {x : Chunk} (message : x.Message) : x.Asynchronous :=
  ⟨message.unowned, message.qos, message.type⟩

/-- Where the packets of asynchronous messages are. Only a QoS 2 message reaches its
second half, an acknowledgement completes its message, and the second half is never
given up. -/
def Role.Accounts : Role → Chunk → Prop
  | writeQueue, x | writing, x | ackQueue, x | expired, x =>
      x.Asynchronous → x.packetType = some .pubrel → x.qos = 2
  | acknowledging ack, x =>
      x.Asynchronous → x.packetType = awaitedType ack → Client.completes ack x.qos = true
  | recycling, x => x.Asynchronous → x.qos = 2
  | userQueue, x | reporting, x => x.Asynchronous → x.packetType = some .publish
  | delivering, x => x.packetType = some .publish
  | received, _ | matched, _ => True

/-- The account of the accepted messages. -/
def Watch.accounts : Watch := ⟨Role.Accounts, False, True⟩

namespace Client

/-- Every accepted message is held by one chunk, was acknowledged, or was reported. -/
def Accounted (s : Client) : Prop :=
  ∀ m ∈ s.accepted, s.held.count m + s.acknowledged.count m + s.reported.count m = 1

/-- The steps that lose no message: the PUBREL of an asynchronous message is written,
and is acknowledged before its last retry; PUBACK finds QoS 1 and PUBREC finds QoS 2
messages; and a call that gives up takes no accepted message for its own packet. -/
def Regular (s : Client) : Event → Prop
  | .poll c seen failed =>
      failed = true → ∀ d queue, s.abandons c seen = some (d, queue) → d ∉ s.accepted
  | .writeEnd c written =>
      (s.chunk c).Asynchronous → (s.chunk c).packetType = some .pubrel → written = true
  | .retry c => (s.chunk c).Asynchronous → (s.chunk c).packetType = some .pubrel →
      (s.chunk c).retryCount + 1 < mqttPublishRetry
  | .postRead r => ∀ d queue,
      popBy (s.hasTypeAndId (some .publish) (s.chunk r).packetId) s.ackPendingQueue =
        some (d, queue) → (s.chunk d).Asynchronous →
      ((s.chunk r).packetType = some .puback → (s.chunk d).qos = 1) ∧
      ((s.chunk r).packetType = some .pubrec → (s.chunk d).qos = 2)
  | _ => True

variable {s t : Client} {e : Event}

private theorem recycledType_eq {type : Option MsgType}
    (recycled : recycledType type = some .publish ∨ recycledType type = some .pubrel) :
    type = some .publish ∨ type = some .pubrel := by
  unfold recycledType at recycled
  split at recycled
  case h_1 => exact .inl rfl
  case h_2 => exact absurd recycled (by decide)
  case h_3 => exact recycled

private theorem permits_postRead {r : Nat} (regular : s.Regular (.postRead r)) :
    s.PermitsRead .accounts r := by
  refine ⟨fun _ => trivial, ?_, ?_, ?_⟩
  · intro type
    refine ⟨?_, fun _ => type, type⟩
    intro message
    have := message.type
    simp only [answerPacket, answerType] at this
    grind
  · rintro awaited d queue (⟨type, rfl⟩ | ⟨type, rfl⟩) pops known message
    · exact (regular d queue pops message).2 type
    · have found := Holds.type_of_found (popBy_perm pops).2
      have := message.type
      grind
  · intro ack awaited d queue type awaits pops known message same
    have found := Holds.type_of_found (popBy_perm pops).2
    cases ack with
    | puback =>
        obtain rfl : MsgType.publish = awaited := Option.some.inj awaits
        have first := (regular d queue pops message).1 type
        simp [completes, first]
    | pubcomp =>
        obtain rfl : MsgType.pubrel = awaited := Option.some.inj awaits
        have second := known message found
        simp [completes, second]
    | _ =>
        have type := message.type
        rw [same] at type
        exact absurd type (by decide)

/-- A regular step loses no message. -/
private theorem permits_of_regular (holds : Holds .accounts s []) (regular : s.Regular e) :
    s.Permits .accounts e := by
  cases e with
  | publish isSync qos => exact fun _ type => absurd type (by simp [publishPacket])
  | request q => exact fun message => absurd message.unowned (by simp [requestPacket])
  | poll c seen failed =>
      intro fails d queue pops
      exact ⟨fun never => never.elim, fun _ => regular fails d queue pops⟩
  | writePop => exact fun x known => known
  | writeEnd c written =>
      refine fun known => ⟨fun _ message => known ⟨message.unowned, message.qos, message.type⟩, ?_⟩
      intro failed _ message
      have asynchronous : (s.chunk c).Asynchronous :=
        ⟨message.unowned, message.qos, message.type⟩
      rcases message.type with publish | pubrel
      · exact publish
      · exact absurd (regular asynchronous pubrel) (by simp [failed])
  | disconnected => exact fun message => absurd message.type (by simp)
  | read packet => trivial
  | postRead r => exact permits_postRead regular
  | acknowledge ack r c => exact fun _ known type message => known message.asynchronous type
  | deliver r => exact fun type _ => type
  | recycle c =>
      intro known message _
      exact known ⟨message.unowned, message.qos, recycledType_eq message.type⟩
  | expire expired => exact fun x known => known
  | retry c =>
      intro known
      refine ⟨?_, ?_, ?_⟩
      · intro _ message
        exact known ⟨message.unowned, message.qos, message.type⟩
      · intro _ type message
        exact absurd message.type (by simp [type])
      · intro _ exhausted message
        have asynchronous : (s.chunk c).Asynchronous :=
          ⟨message.unowned, message.qos, message.type⟩
        rcases message.type with publish | pubrel
        · exact publish
        · exact absurd (regular asynchronous pubrel) (Nat.not_lt_of_le exhausted)
  | userPop => exact fun x known => known
  | report c => exact fun _ known message => known message.asynchronous
  | checkAlive =>
      intro message
      exact absurd (message.unowned.symm.trans holds.ledger.ping.2) (by simp)

/-- Every regular run accounts for every accepted message. -/
theorem accounted_of_regular {events : List Event} {t : Client}
    (run : Steps Transition initial events t)
    (regular : Along Transition Regular initial events) : t.Accounted := by
  have keeps (s : Client) (e : Event) (t : Client) (holds : Holds .accounts s [])
      (here : s.Regular e) (transition : s.Transition e t) : Holds .accounts t [] :=
    holds.step (permits_of_regular holds here) transition
  have kept : Holds .accounts t [] := run.invariant_along keeps regular Holds.initial
  intro m mem
  have balance := kept.tally.sent trivial m mem
  rw [List.count_append] at balance
  exact (Nat.add_assoc _ _ _).trans balance

/-- A QoS 2 message is published, PUBREC arrives, PUBREL is written, PUBCOMP arrives. -/
def exactlyOnce : List Event :=
  [.publish false 2, .writePop, .writeEnd 1 true,
    .read { packetType := some .pubrec, packetId := 2 }, .postRead 2, .recycle 1, .writePop,
    .writeEnd 1 true, .read { packetType := some .pubcomp, packetId := 2 }, .postRead 3,
    .acknowledge .pubcomp 3 1]

/-- The message is acknowledged, and accounted for. -/
theorem exactlyOnce_accounted : ∃ t, Steps Transition initial exactlyOnce t ∧
    t.acknowledged = [1] ∧ t.Accounted := by
  obtain ⟨t, ⟨run, regular⟩, acknowledged⟩ : ∃ t,
      (Steps Transition initial exactlyOnce t ∧ Along Transition Regular initial exactlyOnce) ∧
      t.acknowledged = [1] := by
    refine ⟨_, Transition.cons rfl trivial <| Transition.cons rfl trivial <|
      Transition.cons rfl (fun _ _ => rfl) <| Transition.cons rfl trivial <|
      Transition.cons rfl ?_ <| Transition.cons rfl trivial <| Transition.cons rfl trivial <|
      Transition.cons rfl (fun _ _ => rfl) <| Transition.cons rfl trivial <|
      Transition.cons rfl ?_ <| Transition.cons rfl trivial <| nil_along _, rfl⟩
    · intro d queue pops _
      obtain ⟨rfl, rfl⟩ := Prod.mk.inj (Option.some.inj (pops : some (1, []) = some (d, queue)))
      exact ⟨fun type => absurd type (by decide), fun _ => rfl⟩
    · intro d queue pops
      exact absurd pops.symm (Option.some_ne_none (d, queue))
  exact ⟨t, run, acknowledged, accounted_of_regular run regular⟩

/-- PUBREL cannot be written. -/
def lostRelease : List Event :=
  [.publish false 2, .writePop, .writeEnd 1 true,
    .read { packetType := some .pubrec, packetId := 2 }, .postRead 2, .recycle 1, .writePop,
    .writeEnd 1 false, .userPop, .report 1]

/-- The message is neither held nor acknowledged nor reported. -/
theorem lostRelease_not_accounted : ∃ t, Steps Transition initial lostRelease t ∧
    ¬ t.Accounted := by
  refine ⟨_, .cons rfl (.cons rfl (.cons rfl (.cons rfl (.cons rfl (.cons rfl (.cons rfl
    (.cons rfl (.cons rfl (.cons rfl (.nil _)))))))))), ?_⟩
  intro accounted
  exact absurd (accounted 1 (by decide)) (by decide)

end Client

end StDevice.Mqtt
