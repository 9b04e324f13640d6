import Mathlib.Data.List.Chain
import StDevice.Capability.Events
import StDevice.Foundation.Run
import StDevice.Mqtt.RoundTrip

/-!
# Notifications about messages that were not sent

The application gets the number of an event from the call that sends it, and gets it again in
a notification when the MQTT client gives the message up. The callback of the client reads it
out of the payload, and takes 0 for the number of a payload without one. The client gives up
other messages too: `_get_device_preference` publishes one with no payload at all.

The chunk of a message ends with its payload. What the callback reads behind it is whatever the
memory holds. A call sends at one point and returns at a later one, and the other tasks run in
between; the application does not call from two threads at once.
-/

namespace StDevice.Capability

open Mqtt (MqttString mqttSerializePublish mqttSerializePublishSize mqttSerializePublishLength
  mqttDeserializePublish)

/-- A buffer of `IOT_TOPIC_SIZE` characters. -/
structure Topic where
  text : CString
  short : text.bytes.length < 100

/-- The part of `struct iot_context` that the calls read. -/
structure Context where
  /-- IOT_STATE_CLOUD_CONNECTED -/
  connected : Bool
  /-- `evt_mqttcli` is not NULL -/
  evtMqttcli : Bool
  rateLimit : Bool
  mqttEventTopic : Topic
  /-- `noti_cb` is not NULL -/
  notiCb : Bool

/-- A message of the client that nobody waits for. -/
structure Message where
  topic : Topic
  packetId : UInt16
  payload : List UInt8
  /-- what the payload was printed from, for an event -/
  document : Option Json

structure State where
  ctx : Context
  eventSequenceNum : Nat
  /-- the messages that the client has not delivered -/
  pending : List Message
  /-- the call that has sent its message and is about to return -/
  calling : Bool
  /-- the SEND_FAILED notifications in the queue of the main task -/
  commands : List Int
  /-- what the calls of the application returned, the last first -/
  returned : List Int
  /-- the numbers of the notifications that reached the application -/
  notified : List Int

/-- A new context. -/
def State.initial (ctx : Context) : State := ⟨ctx, 0, [], false, [], [], []⟩

/-- IOT_PUB_TOPIC_GET_PREFERENCES. -/
def getPreferencesTopic : Topic :=
  ⟨⟨CString.ascii "/v1/devices/preferences/get", by decide⟩, by decide⟩

inductive Event where
  /-- `st_cap_send_attr` up to `st_mqtt_publish_async`; `none` where that fails -/
  | sendAttr (events : List (Option EvtData × Option CString)) (packetId : Option UInt16)
  /-- `st_cap_send_attr_v2`, in the same way -/
  | sendAttrV2 (attrs : List (Option AttrData × Option CString)) (packetId : Option UInt16)
  /-- the return of the call that has sent its message -/
  | returns
  /-- `_get_device_preference` -/
  | getDevicePreference (packetId : Option UInt16)
  /-- a message leaves the client without a failure -/
  | delivered (i : Nat)
  /-- the client gives a message up; a full queue loses the notification -/
  | publishFailed (i : Nat) (after : List UInt8) (queued : Bool)
  /-- the main task takes a notification from its queue -/
  | notify
  /-- the context changes, by other parts of the SDK -/
  | update (ctx : Context)

/-- The part of both calls behind the check of their arguments, up to the document. Where it
fails, the call returns IOT_ERROR_BAD_REQ. -/
def sendItems (ctx : Context) (eventSequenceNum : Nat) (items : Nat → Option (List Json)) :
    Nat × Option Json :=
  if ctx.connected = false ∨ ctx.evtMqttcli = false ∨ ctx.rateLimit = true then
    (eventSequenceNum, none)
  else (nextSequenceNum eventSequenceNum, (items (nextSequenceNum eventSequenceNum)).map evtRoot)

/-- The end of both calls: the document is printed and given to the client. -/
def publishEvent (lib : JsonLibrary) (s : State) (packetId : Option UInt16) :
    Nat × Option Json → State
  | (eventSequenceNum, none) =>
      { s with eventSequenceNum := eventSequenceNum, returned := -1 :: s.returned }
  | (eventSequenceNum, some document) =>
      match lib.print document with
      | none => { s with eventSequenceNum := eventSequenceNum, returned := -1 :: s.returned }
      | some payload =>
          match packetId with
          | none => { s with eventSequenceNum := eventSequenceNum, returned := -203 :: s.returned }
          | some packetId =>
              { s with
                eventSequenceNum := eventSequenceNum
                pending := s.pending ++
                  [⟨s.ctx.mqttEventTopic, packetId, payload, some document⟩]
                calling := true }

/-- `st_cap_send_attr`. -/
def stCapSendAttr (lib : JsonLibrary) (s : State)
    (events : List (Option EvtData × Option CString)) (packetId : Option UInt16) : State :=
  match events with
  | [] => { s with returned := -2 :: s.returned }
  | (none, _) :: _ => { s with returned := -2 :: s.returned }
  | (some first, timeInMs) :: rest =>
      publishEvent lib s packetId (sendItems s.ctx s.eventSequenceNum fun seqNum =>
        makeAll (iotMakeEvtData lib seqNum) ((some first, timeInMs) :: rest))

/-- `st_cap_send_attr_v2`. -/
def stCapSendAttrV2 (lib : JsonLibrary) (s : State)
    (attrs : List (Option AttrData × Option CString)) (packetId : Option UInt16) : State :=
  match attrs with
  | [] => { s with returned := -2 :: s.returned }
  | first :: rest =>
      publishEvent lib s packetId (sendItems s.ctx s.eventSequenceNum fun seqNum =>
        makeAll (iotMakeEvtDataV2 lib seqNum) (first :: rest))

/-- The payload that `_iot_mqtt_notify_publish_failed` finds in the chunk, with the memory
behind it. -/
def failedPayload (message : Message) (after : List UInt8) : Option (List UInt8) :=
  let topic := MqttString.ofCString (some message.topic.text)
  let size := mqttSerializePublishSize 1 topic message.payload.length
  match mqttSerializePublish size 0 1 0 message.packetId.toNat topic message.payload with
  | .error _ => none
  | .ok chunk => do
      let publish ← mqttDeserializePublish (chunk ++ after)
      let pos ← publish.payload
      pure ((chunk ++ after).drop pos)

/-- The cases ST_MQTT_EVENT_PUBLISH_FAILED and ST_MQTT_EVENT_PUBLISH_TIMEOUT of
`_iot_mqtt_signin_client_callback`. -/
def publishFailedCallback (s : State) (failedSequenceNum : Int) (queued : Bool) : State :=
  if failedSequenceNum < 0 then s
  else if queued then { s with commands := s.commands ++ [failedSequenceNum] }
  else s

/-- A step of the system, where it is possible and defined. -/
def step (lib : JsonLibrary) (s : State) : Event → Option State
  | .sendAttr events packetId =>
      if s.calling then none else some (stCapSendAttr lib s events packetId)
  | .sendAttrV2 attrs packetId =>
      if s.calling then none else some (stCapSendAttrV2 lib s attrs packetId)
  | .returns =>
      if s.calling then
        some { s with calling := false, returned := s.eventSequenceNum :: s.returned }
      else none
  | .getDevicePreference packetId =>
      match packetId with
      | some packetId =>
          if s.ctx.evtMqttcli then
            some { s with pending := s.pending ++ [⟨getPreferencesTopic, packetId, [], none⟩] }
          else some s
      | none => some s
  | .delivered i => some { s with pending := s.pending.eraseIdx i }
  | .publishFailed i after queued => do
      let message ← s.pending[i]?
      let payload ← failedPayload message after
      let failedSequenceNum ← iotParseSequenceNum lib payload
      some (publishFailedCallback { s with pending := s.pending.eraseIdx i }
        failedSequenceNum queued)
  | .notify =>
      match s.commands with
      | [] => none
      | num :: commands =>
          some { s with
            commands := commands
            notified := if s.ctx.notiCb then num :: s.notified else s.notified }
  | .update ctx => some { s with ctx := ctx }

def Transition (lib : JsonLibrary) (s : State) (e : Event) (t : State) : Prop :=
  step lib s e = some t

/-- What the application can rely on: a notification carries a number that a call returned
before, the numbers are in the range, and no two calls in a row return the same one. -/
structure Reported (s : State) : Prop where
  named : ∀ num ∈ s.notified, 0 < num ∧ num ∈ s.returned
  range : ∀ num ∈ s.returned, 0 ≤ num → 1 ≤ num ∧ num ≤ maxSqnum
  distinct : s.returned.IsChain fun later earlier => 0 < later → 0 < earlier → later ≠ earlier

/-- A message that the client gives up is an event whose document the library reads back and
whose packet MQTT can carry; and the call that sent a message returns before the application
hears of it. -/
def Careful (lib : JsonLibrary) (s : State) : Event → Prop
  | .publishFailed i _ _ =>
      ∀ message, s.pending[i]? = some message →
        (∃ document, message.document = some document ∧ lib.ReadsBack document) ∧
        mqttSerializePublishLength 1 (.ofCString (some message.topic.text))
          message.payload.length ≤ 268435455
  | .notify => s.calling = true → s.commands.head? ≠ some (s.eventSequenceNum : Int)
  | _ => True

/-! ## The chunk of a message -/

/-- The callback finds the payload, and something behind it. -/
theorem exists_failedPayload {message : Message} (after : List UInt8)
    (limit : mqttSerializePublishLength 1 (.ofCString (some message.topic.text))
      message.payload.length ≤ 268435455) :
    ∃ rest, failedPayload message after = some (message.payload ++ rest) := by
  have spells : (MqttString.ofCString (some message.topic.text)).Spells message.topic.text :=
    .inl rfl
  have topicFits : message.topic.text.bytes.length ≤ 65535 := by
    have := message.topic.short
    omega
  have idFits : message.packetId.toNat ≤ 65535 := Nat.le_of_lt_succ message.packetId.toNat_lt
  have length : (Mqtt.publishBody 1 message.packetId.toNat message.topic.text.bytes
      message.payload).length ≤ 268435455 := by
    rw [Mqtt.publishBody_length]
    rw [mqttSerializePublishLength, spells.strlen] at limit
    exact limit
  obtain ⟨type, level, -⟩ := @Mqtt.publishHeader_fields 1 0 0 (by decide) (by decide)
  have starts := @Mqtt.starts_of_body _ _ after (Mqtt.mqttHeader .publish 0 1 0) _ _ length
  obtain ⟨publish, read, carried⟩ :=
    Mqtt.deserializePublish_of_starts starts type level topicFits idFits
  obtain ⟨pos, found, -, there⟩ := carried.samePayload
  have written : mqttSerializePublish (mqttSerializePublishSize 1
        (.ofCString (some message.topic.text)) message.payload.length) 0 1 0
        message.packetId.toNat (.ofCString (some message.topic.text)) message.payload = _ :=
    @Mqtt.serializePublish_eq _ _ spells _ 0 1 0 message.packetId.toNat message.payload
      (by decide) (Nat.le_refl _)
  rw [← List.append_assoc, ← List.cons_append] at read there
  rw [failedPayload, written]
  simp only [read, found, Option.bind_eq_bind, Option.bind_some, Option.pure_def,
    Option.some.injEq]
  obtain ⟨rest, found⟩ := List.prefix_iff_eq_take.mpr there.symm
  exact ⟨rest, found.symm⟩

/-! ## What holds between the steps -/

/-- The number was returned, or is about to be. -/
def Given (s : State) (num : Nat) : Prop :=
  1 ≤ num ∧ num ≤ maxSqnum ∧
    ((num : Int) ∈ s.returned ∨ s.calling = true ∧ num = s.eventSequenceNum)

/-- A message with a document is an event with a number that was given. -/
def Message.Fair (lib : JsonLibrary) (s : State) (message : Message) : Prop :=
  ∀ document, message.document = some document →
    lib.print document = some message.payload ∧
    ∃ item items num, document = evtRoot (item :: items) ∧ Numbered num item ∧ Given s num

structure Invariant (lib : JsonLibrary) (s : State) : Prop where
  counter : s.eventSequenceNum ≤ maxSqnum
  inCall : s.calling = true → 1 ≤ s.eventSequenceNum
  messages : ∀ message ∈ s.pending, message.Fair lib s
  queue : ∀ num ∈ s.commands, ∃ given : Nat, num = given ∧ Given s given
  reported : Reported s
  last : ∀ num ∈ s.returned.head?, 0 < num →
    if s.calling then num ≠ s.eventSequenceNum else num = s.eventSequenceNum

section Given

variable {lib : JsonLibrary} {s t : State} {num : Nat}

/-- A number that was given stays given while the calls go on. -/
theorem Given.mono (given : Given s num) (more : s.returned ⊆ t.returned)
    (ends : s.calling = true → (s.eventSequenceNum : Int) ∈ t.returned ∨
      t.calling = true ∧ t.eventSequenceNum = s.eventSequenceNum) : Given t num := by
  obtain ⟨low, high, before | ⟨calling, rfl⟩⟩ := given
  · exact ⟨low, high, .inl (more before)⟩
  · refine ⟨low, high, ?_⟩
    obtain now | ⟨still, same⟩ := ends calling
    · exact .inl now
    · exact .inr ⟨still, same.symm⟩

theorem Message.Fair.mono {message : Message} (fair : message.Fair lib s)
    (given : ∀ num, Given s num → Given t num) : message.Fair lib t := by
  intro document found
  obtain ⟨printed, item, items, num, root, numbered, before⟩ := fair document found
  exact ⟨printed, item, items, num, root, numbered, given num before⟩

end Given

namespace Invariant

variable {lib : JsonLibrary} {s : State}

theorem initial (lib : JsonLibrary) (ctx : Context) : Invariant lib (.initial ctx) where
  counter := Nat.zero_le _
  inCall impossible := by cases impossible
  messages message inside := by cases inside
  queue num inside := by cases inside
  reported := ⟨List.forall_mem_nil _, List.forall_mem_nil _, List.isChain_nil⟩
  last num inside := by cases inside

/-- A call returns an error, and may have used up a number. -/
theorem failed (holds : Invariant lib s) (idle : s.calling = false) {code : Int}
    (negative : code < 0) {counter : Nat} (inside : counter ≤ maxSqnum) :
    Invariant lib { s with eventSequenceNum := counter, returned := code :: s.returned } := by
  have given (num : Nat) (before : Given s num) :
      Given { s with eventSequenceNum := counter, returned := code :: s.returned } num :=
    before.mono (List.subset_cons_self _ _) fun calling => by simp [idle] at calling
  refine ⟨inside, fun calling => by simp [idle] at calling, ?_, ?_, ?_, ?_⟩
  · exact fun message inside => (holds.messages message inside).mono given
  · intro num inside
    obtain ⟨number, rfl, before⟩ := holds.queue num inside
    exact ⟨number, rfl, given number before⟩
  · refine ⟨?_, ?_, ?_⟩
    · intro num inside
      obtain ⟨positive, before⟩ := holds.reported.named num inside
      exact ⟨positive, List.mem_cons_of_mem _ before⟩
    · intro num inside nonneg
      obtain rfl | before := List.mem_cons.mp inside
      · omega
      · exact holds.reported.range num before nonneg
    · refine holds.reported.distinct.cons fun earlier _ positive => ?_
      omega
  · intro num inside positive
    rw [List.head?_cons, Option.mem_some_iff] at inside
    omega

/-- A call gives a message to the client. -/
theorem published (holds : Invariant lib s) (idle : s.calling = false) {topic : Topic}
    {packetId : UInt16} {payload : List UInt8} {item : Json} {items : List Json}
    (numbered : Numbered (nextSequenceNum s.eventSequenceNum) item)
    (printed : lib.print (evtRoot (item :: items)) = some payload) :
    Invariant lib { s with
      eventSequenceNum := nextSequenceNum s.eventSequenceNum
      pending := s.pending ++ [⟨topic, packetId, payload, some (evtRoot (item :: items))⟩]
      calling := true } := by
  obtain ⟨low, high⟩ := nextSequenceNum_bounds holds.counter
  have given (num : Nat) (before : Given s num) : Given { s with
      eventSequenceNum := nextSequenceNum s.eventSequenceNum
      pending := s.pending ++ [⟨topic, packetId, payload, some (evtRoot (item :: items))⟩]
      calling := true } num :=
    before.mono (List.Subset.refl _) fun calling => by simp [idle] at calling
  refine ⟨high, fun _ => low, ?_, ?_, ?_, ?_⟩
  · intro message inside
    obtain old | new := List.mem_append.mp inside
    · exact (holds.messages message old).mono given
    · rw [List.mem_singleton.mp new]
      intro document found
      obtain rfl := Option.some.inj found
      exact ⟨printed, item, items, _, rfl, numbered, low, high, .inr ⟨rfl, rfl⟩⟩
  · intro num inside
    obtain ⟨number, rfl, before⟩ := holds.queue num inside
    exact ⟨number, rfl, given number before⟩
  · exact ⟨holds.reported.named, holds.reported.range, holds.reported.distinct⟩
  · intro num inside positive same
    have last := holds.last num inside positive
    rw [idle] at last
    exact nextSequenceNum_ne holds.counter (by exact_mod_cast same.symm.trans last)

/-- A call returns the number it has used. -/
theorem returns (holds : Invariant lib s) (calling : s.calling = true) :
    Invariant lib { s with
      calling := false
      returned := (s.eventSequenceNum : Int) :: s.returned } := by
  have low := holds.inCall calling
  have given (num : Nat) (before : Given s num) : Given { s with
      calling := false
      returned := (s.eventSequenceNum : Int) :: s.returned } num :=
    before.mono (List.subset_cons_self _ _) fun _ => .inl List.mem_cons_self
  refine ⟨holds.counter, fun impossible => (by cases impossible), ?_, ?_, ?_, ?_⟩
  · exact fun message inside => (holds.messages message inside).mono given
  · intro num inside
    obtain ⟨number, rfl, before⟩ := holds.queue num inside
    exact ⟨number, rfl, given number before⟩
  · refine ⟨?_, ?_, ?_⟩
    · intro num inside
      obtain ⟨positive, before⟩ := holds.reported.named num inside
      exact ⟨positive, List.mem_cons_of_mem _ before⟩
    · intro num inside nonneg
      obtain rfl | before := List.mem_cons.mp inside
      · exact ⟨by omega, Int.ofNat_le.mpr holds.counter⟩
      · exact holds.reported.range num before nonneg
    · refine holds.reported.distinct.cons fun earlier last _ positive => ?_
      have differs := holds.last earlier last positive
      rw [calling] at differs
      exact fun same => differs same.symm
  · intro num inside _
    rw [List.head?_cons, Option.mem_some_iff] at inside
    exact inside.symm

/-- The other steps leave the calls of the application alone. -/
theorem quiet (holds : Invariant lib s) {t : State}
    (counter : t.eventSequenceNum = s.eventSequenceNum) (calling : t.calling = s.calling)
    (returned : t.returned = s.returned)
    (pending : ∀ message ∈ t.pending, message ∈ s.pending ∨ message.document = none)
    (commands : ∀ num ∈ t.commands, num ∈ s.commands ∨
      ∃ given : Nat, num = given ∧ Given s given)
    (notified : ∀ num ∈ t.notified, num ∈ s.notified ∨ 0 < num ∧ num ∈ s.returned) :
    Invariant lib t := by
  have given (num : Nat) : Given s num → Given t num := by
    unfold Given
    rw [counter, calling, returned]
    exact id
  refine ⟨counter ▸ holds.counter, ?_, ?_, ?_, ⟨?_, ?_, ?_⟩, ?_⟩
  · rw [counter, calling]
    exact holds.inCall
  · intro message inside document found
    obtain old | none := pending message inside
    · exact (holds.messages message old).mono given document found
    · rw [none] at found
      cases found
  · intro num inside
    obtain ⟨number, same, before⟩ := (commands num inside).elim (holds.queue num) id
    exact ⟨number, same, given number before⟩
  · rw [returned]
    exact fun num inside => (notified num inside).elim (holds.reported.named num) id
  · rw [returned]
    exact holds.reported.range
  · rw [returned]
    exact holds.reported.distinct
  · rw [returned, counter, calling]
    exact holds.last

theorem sendItems (holds : Invariant lib s) (idle : s.calling = false)
    (packetId : Option UInt16) {items : Nat → Option (List Json)}
    (numbered : ∀ seqNum made, items seqNum = some made →
      ∃ item others, made = item :: others ∧ Numbered seqNum item) :
    Invariant lib
      (publishEvent lib s packetId (Capability.sendItems s.ctx s.eventSequenceNum items)) := by
  have high := (nextSequenceNum_bounds holds.counter).2
  unfold Capability.sendItems
  split
  case isTrue => exact holds.failed idle (by decide) holds.counter
  case isFalse =>
    cases made : items (nextSequenceNum s.eventSequenceNum) with
    | none => exact holds.failed idle (by decide) high
    | some made =>
        obtain ⟨item, others, rfl, number⟩ := numbered _ _ (by assumption)
        rw [Option.map_some, publishEvent]
        cases printed : lib.print (evtRoot (item :: others)) with
        | none => exact holds.failed idle (by decide) high
        | some payload =>
            cases packetId with
            | none => exact holds.failed idle (by decide) high
            | some packetId => exact holds.published idle number printed

theorem sendAttr (holds : Invariant lib s) (idle : s.calling = false)
    (events : List (Option EvtData × Option CString)) (packetId : Option UInt16) :
    Invariant lib (stCapSendAttr lib s events packetId) := by
  match events with
  | [] => exact holds.failed idle (by decide) holds.counter
  | (none, _) :: _ => exact holds.failed idle (by decide) holds.counter
  | (some first, timeInMs) :: rest =>
      refine holds.sendItems idle packetId fun seqNum made all => ?_
      obtain ⟨data, item, others, here, rfl⟩ := makeAll_cons all
      exact ⟨item, others, rfl, iotMakeEvtData_numbered here⟩

theorem sendAttrV2 (holds : Invariant lib s) (idle : s.calling = false)
    (attrs : List (Option AttrData × Option CString)) (packetId : Option UInt16) :
    Invariant lib (stCapSendAttrV2 lib s attrs packetId) := by
  cases attrs with
  | nil => exact holds.failed idle (by decide) holds.counter
  | cons first rest =>
      refine holds.sendItems idle packetId fun seqNum made all => ?_
      obtain ⟨data, item, others, here, rfl⟩ := makeAll_cons all
      exact ⟨item, others, rfl, iotMakeEvtDataV2_numbered here⟩

/-- The callback reads the number of an event that the library reads back. -/
theorem parsed (holds : Invariant lib s) {message : Message} (inside : message ∈ s.pending)
    {document : Json} (event : message.document = some document)
    (reads : lib.ReadsBack document) (rest : List UInt8) :
    ∃ num : Nat, iotParseSequenceNum lib (message.payload ++ rest) = some (num : Int) ∧
      Given s num := by
  obtain ⟨printed, item, items, num, rfl, numbered, given⟩ :=
    holds.messages message inside document event
  exact ⟨num, iotParseSequenceNum_evtRoot numbered given.2.1 reads printed rest, given⟩

theorem publishFailed (holds : Invariant lib s) {i : Nat} {after : List UInt8} {queued : Bool}
    {t : State} (careful : Careful lib s (.publishFailed i after queued))
    (transition : Transition lib s (.publishFailed i after queued) t) : Invariant lib t := by
  simp only [Transition, step, Option.bind_eq_bind, Option.bind_eq_some_iff,
    Option.some.injEq] at transition
  obtain ⟨message, there, payload, read, failedSequenceNum, parsed, rfl⟩ := transition
  obtain ⟨⟨document, event, reads⟩, limit⟩ := careful message there
  obtain ⟨rest, found⟩ := exists_failedPayload after limit
  obtain ⟨num, number, given⟩ := holds.parsed (List.mem_of_getElem? there) event reads rest
  rw [found] at read
  rw [← Option.some.inj read, number] at parsed
  rw [← Option.some.inj parsed, publishFailedCallback]
  have kept : ∀ other ∈ s.pending.eraseIdx i, other ∈ s.pending ∨ other.document = none :=
    fun other inside => .inl (List.mem_of_mem_eraseIdx inside)
  have same : ∀ other ∈ s.commands, other ∈ s.commands ∨
      ∃ given : Nat, other = given ∧ Given s given := fun _ => .inl
  have told : ∀ other ∈ s.notified, other ∈ s.notified ∨ 0 < other ∧ other ∈ s.returned :=
    fun _ => .inl
  split
  · exact holds.quiet rfl rfl rfl kept same told
  · split
    · refine holds.quiet rfl rfl rfl kept ?_ told
      intro other inside
      obtain old | new := List.mem_append.mp inside
      · exact .inl old
      · exact .inr ⟨num, List.mem_singleton.mp new, given⟩
    · exact holds.quiet rfl rfl rfl kept same told

theorem notify (holds : Invariant lib s) {t : State} (careful : Careful lib s .notify)
    (transition : Transition lib s .notify t) : Invariant lib t := by
  rw [Transition, step] at transition
  cases queue : s.commands with
  | nil =>
      rw [queue] at transition
      cases transition
  | cons num commands =>
      rw [queue] at transition
      rw [← Option.some.inj transition]
      obtain ⟨number, rfl, low, -, given⟩ := holds.queue num (queue ▸ List.mem_cons_self)
      refine holds.quiet rfl rfl rfl (fun _ => .inl) ?_ ?_
      · exact fun other inside => .inl (queue ▸ List.mem_cons_of_mem _ inside)
      · intro other inside
        split at inside
        · obtain rfl | old := List.mem_cons.mp inside
          · -- a call that has not returned yet would be the one of this number
            obtain before | ⟨calling, rfl⟩ := given
            · exact .inr ⟨by omega, before⟩
            · exact absurd (by rw [queue, List.head?_cons]) (careful calling)
          · exact .inl old
        · exact .inl inside

theorem step (holds : Invariant lib s) {e : Event} {t : State} (careful : Careful lib s e)
    (transition : Transition lib s e t) : Invariant lib t := by
  cases e with
  | sendAttr events packetId =>
      rw [Transition, Capability.step] at transition
      split at transition
      · cases transition
      · rw [← Option.some.inj transition]
        exact holds.sendAttr (by simpa using ‹¬ s.calling = true›) events packetId
  | sendAttrV2 attrs packetId =>
      rw [Transition, Capability.step] at transition
      split at transition
      · cases transition
      · rw [← Option.some.inj transition]
        exact holds.sendAttrV2 (by simpa using ‹¬ s.calling = true›) attrs packetId
  | returns =>
      rw [Transition, Capability.step] at transition
      split at transition
      · rw [← Option.some.inj transition]
        exact holds.returns ‹s.calling = true›
      · cases transition
  | getDevicePreference packetId =>
      cases packetId with
      | none => exact Option.some.inj transition ▸ holds
      | some packetId =>
          rw [Transition, Capability.step] at transition
          split at transition
          · rw [← Option.some.inj transition]
            refine holds.quiet rfl rfl rfl ?_ (fun _ => .inl) (fun _ => .inl)
            intro message inside
            obtain old | new := List.mem_append.mp inside
            · exact .inl old
            · exact .inr (congrArg Message.document (List.mem_singleton.mp new))
          · exact Option.some.inj transition ▸ holds
  | delivered i =>
      rw [Transition, Capability.step] at transition
      rw [← Option.some.inj transition]
      exact holds.quiet rfl rfl rfl (fun _ inside => .inl (List.mem_of_mem_eraseIdx inside))
        (fun _ => .inl) (fun _ => .inl)
  | publishFailed i after queued => exact holds.publishFailed careful transition
  | notify => exact holds.notify careful transition
  | update ctx =>
      rw [Transition, Capability.step] at transition
      rw [← Option.some.inj transition]
      exact holds.quiet rfl rfl rfl (fun _ => .inl) (fun _ => .inl) (fun _ => .inl)

end Invariant

/-- A device that is connected. -/
def connectedContext : Context :=
  ⟨true, true, false, ⟨⟨CString.ascii "/v1/deviceEvents/device", by decide⟩, by decide⟩, true⟩

/-- The switch is on. -/
def switchOn : AttrData where
  customComponent := false
  customComponentName := none
  customAttr := true
  customCapName := some ⟨CString.ascii "switch", by decide⟩
  customAttrName := some ⟨CString.ascii "switch", by decide⟩
  value := .string (some ⟨CString.ascii "on", by decide⟩)
  unit := none
  data := none
  supportHistory := true
  stateChange := false
  relatedCommandId := none

def switchOnItem : Json :=
  .object [(CString.ascii "component", .string (CString.ascii "main")),
    (CString.ascii "capability", .string (CString.ascii "switch")),
    (CString.ascii "attribute", .string (CString.ascii "switch")),
    (CString.ascii "value", .string (CString.ascii "on")),
    (CString.ascii "providerData", providerData 1 none false)]

def switchOnText : List UInt8 :=
  CString.ascii "\x7b\"deviceEvents\":[\x7b\"component\":\"main\",\"capability\":\"switch\"," ++
    CString.ascii "\"attribute\":\"switch\",\"value\":\"on\"," ++
    CString.ascii "\"providerData\":\x7b\"sequenceNumber\":1\x7d\x7d]\x7d"

/-- A library that knows this document. -/
def switchLibrary : JsonLibrary where
  parse text :=
    if switchOnText.isPrefixOf text then some (evtRoot [switchOnItem]).asPrinted else none
  print _ := some switchOnText
  prints _ := rfl

theorem switchLibrary_readsBack : switchLibrary.ReadsBack (evtRoot [switchOnItem]) := by
  intro text printed
  obtain rfl := Option.some.inj printed
  refine ⟨by decide +kernel, fun rest => ?_⟩
  have starts : switchOnText.isPrefixOf (switchOnText ++ rest) = true :=
    List.isPrefixOf_iff_prefix.mpr (List.prefix_append _ _)
  simp only [switchLibrary, starts, if_true]

def switchOnMessage : Message :=
  ⟨connectedContext.mqttEventTopic, 1, switchOnText, some (evtRoot [switchOnItem])⟩

theorem step_publishFailed {lib : JsonLibrary} {s : State} {i : Nat} {after payload : List UInt8}
    {message : Message} {num : Int} (there : s.pending[i]? = some message)
    (found : failedPayload message after = some payload)
    (parsed : iotParseSequenceNum lib payload = some num) (queued : Bool) :
    Transition lib s (.publishFailed i after queued)
      (publishFailedCallback { s with pending := s.pending.eraseIdx i } num queued) := by
  simp only [Transition, step, there, found, parsed, Option.bind_eq_bind, Option.bind_some]

theorem Transition.cons {lib : JsonLibrary} {s t u : State} {e : Event} {events : List Event}
    (transition : Transition lib s e t) (here : Careful lib s e)
    (rest : Run.Steps (Transition lib) t events u ∧
      Run.Along (Transition lib) (Careful lib) t events) :
    Run.Steps (Transition lib) s (e :: events) u ∧
      Run.Along (Transition lib) (Careful lib) s (e :: events) :=
  Run.cons_along transition (fun _ other => Option.some.inj (other.symm.trans transition)) here rest

end StDevice.Capability
