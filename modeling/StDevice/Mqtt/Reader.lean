import StDevice.Mqtt.Deserialize

/-!
# The reader of the client

`_iot_mqtt_run_read_stream` reads one packet: the header byte, the length bytes one at a
time, and the rest into a chunk of the size they announce. The network returns the bytes
in pieces of its own choice, so the pieces are a parameter here.

Every `int` of the function that grows is computed with a check: a value above 2^31 - 1
has no meaning in C, and ends the model. A packet of the wire format is a structure of its
own, and a stream is cut into packets without regard to how it arrives.
-/

namespace StDevice.Mqtt

/-! ## The network -/

/-- The reading end of a connection: the bytes still to come, and how many of them each
further call of `port_net_read` would like to return. -/
structure Net where
  stream : List UInt8
  cuts : Nat → Nat

namespace Net

/-- The size of the next piece: at least one byte and at most what is asked for. -/
def pieceSize (net : Net) (len : Nat) : Nat := min (max 1 (net.cuts 0)) len

/-- `port_net_read`. It fails when the stream has come to its end. -/
def portNetRead (net : Net) (len : Nat) : Option (List UInt8 × Net) :=
  if net.stream = [] then none
  else some (net.stream.take (net.pieceSize len),
    ⟨net.stream.drop (net.pieceSize len), fun i => net.cuts (i + 1)⟩)

theorem length_portNetRead_pos {net next : Net} {len : Nat} {bytes : List UInt8}
    (reads : net.portNetRead len = some (bytes, next)) (positive : 0 < len) :
    0 < bytes.length := by
  unfold portNetRead at reads
  split at reads
  case isTrue => exact absurd reads (by simp)
  case isFalse more =>
    obtain ⟨rfl, -⟩ := Prod.mk.inj (Option.some.inj reads)
    have some := List.length_pos_of_ne_nil more
    rw [List.length_take, pieceSize]
    omega

/-- `_iot_mqtt_read_net`: the bytes it stores. Its counter stays within `len`. -/
def iotMqttReadNet (net : Net) (len : Nat) : Option (List UInt8 × Net) :=
  if _empty : len = 0 then some ([], net)
  else
    match _reads : net.portNetRead len with
    | none => none
    | some (bytes, net) =>
        if bytes.length < len then
          (iotMqttReadNet net (len - bytes.length)).map fun r => (bytes ++ r.1, r.2)
        else some (bytes, net)
termination_by len
decreasing_by
  have := length_portNetRead_pos _reads (Nat.pos_of_ne_zero _empty)
  omega

/-- It reads what it is asked for, in whatever pieces. -/
theorem iotMqttReadNet_of_le {net : Net} {len : Nat} (enough : len ≤ net.stream.length) :
    ∃ cuts, net.iotMqttReadNet len = some (net.stream.take len, ⟨net.stream.drop len, cuts⟩) := by
  induction len using Nat.strongRecOn generalizing net with
  | ind len ih =>
      rw [iotMqttReadNet]
      by_cases empty : len = 0
      · exact ⟨net.cuts, by simp [empty]⟩
      have more : net.stream ≠ [] := by
        rintro none
        simp [none] at enough
        exact empty enough
      have reads : net.portNetRead len = some (net.stream.take (net.pieceSize len),
          ⟨net.stream.drop (net.pieceSize len), fun i => net.cuts (i + 1)⟩) := if_neg more
      have piece : 1 ≤ net.pieceSize len ∧ net.pieceSize len ≤ len := by
        rw [pieceSize]
        omega
      have size : (net.stream.take (net.pieceSize len)).length = net.pieceSize len := by
        rw [List.length_take]
        omega
      rw [dif_neg empty]
      split
      case h_1 fails => exact absurd (fails.symm.trans reads) (by simp)
      case h_2 bytes next succeeds =>
        obtain ⟨rfl, rfl⟩ := Prod.mk.inj (Option.some.inj (succeeds.symm.trans reads))
        rw [size]
        split
        case isTrue short =>
          have left : len - net.pieceSize len ≤
              (⟨net.stream.drop (net.pieceSize len), fun i => net.cuts (i + 1)⟩ :
                Net).stream.length := by
            rw [List.length_drop]
            omega
          obtain ⟨cuts, rest⟩ := ih (len - net.pieceSize len) (by omega) left
          refine ⟨cuts, ?_⟩
          rw [rest, Option.map_some, List.drop_drop, ← List.take_add, Nat.add_sub_cancel' piece.2]
        case isFalse whole =>
          have all : net.pieceSize len = len := by omega
          exact ⟨_, by rw [all]⟩

theorem iotMqttReadNet_of_lt {net : Net} {len : Nat} (short : net.stream.length < len) :
    net.iotMqttReadNet len = none := by
  induction len using Nat.strongRecOn generalizing net with
  | ind len ih =>
      rw [iotMqttReadNet, dif_neg (by omega)]
      split
      case h_1 => rfl
      case h_2 bytes next succeeds =>
        have positive := length_portNetRead_pos succeeds (by omega)
        unfold portNetRead at succeeds
        split at succeeds
        case isTrue => exact absurd succeeds (by simp)
        case isFalse =>
          obtain ⟨rfl, rfl⟩ := Prod.mk.inj (Option.some.inj succeeds)
          rw [List.length_take] at positive ⊢
          rw [if_pos (by omega), ih _ (by omega) (by rw [List.length_drop]; omega),
            Option.map_none]

theorem length_iotMqttReadNet {net next : Net} {len : Nat} {bytes : List UInt8}
    (reads : net.iotMqttReadNet len = some (bytes, next)) : bytes.length = len := by
  by_cases enough : len ≤ net.stream.length
  · obtain ⟨cuts, eq⟩ := iotMqttReadNet_of_le enough
    obtain ⟨rfl, -⟩ := Prod.mk.inj (Option.some.inj (reads.symm.trans eq))
    rw [List.length_take, Nat.min_eq_left enough]
  · rw [iotMqttReadNet_of_lt (Nat.not_le.mp enough)] at reads
    exact absurd reads (by simp)

end Net

/-! ## One packet -/

/-- `INT_MAX`. -/
def intMax : Nat := 2147483647

/-- Why a packet is not read: the network, or a value that no `int` has. -/
inductive ReadFault where
  | networkError
  | overflow
  deriving DecidableEq, Repr

def addInt (a b : Nat) : Except ReadFault Nat :=
  if a + b ≤ intMax then .ok (a + b) else .error .overflow

def mulInt (a b : Nat) : Except ReadFault Nat :=
  if a * b ≤ intMax then .ok (a * b) else .error .overflow

/-- The loop over the length bytes. `fixedHeader` are the bytes in `packet_fixed_header`,
and `read` is their number. -/
def readLength (net : Net) (fixedHeader : List UInt8) (remSize multiplier : Nat) :
    Except ReadFault (Net × List UInt8 × Nat) :=
  if fixedHeader.length - 1 ≥ maxNumOfRemainingLengthBytes then .error .networkError
  else
    match net.iotMqttReadNet 1 with
    | some ([b], net) => do
        let group ← mulInt (b &&& 127).toNat multiplier
        let remSize ← addInt remSize group
        let multiplier ← mulInt multiplier 128
        if b &&& 128 ≠ 0 then readLength net (fixedHeader ++ [b]) remSize multiplier
        else .ok (net, fixedHeader ++ [b], remSize)
    | _ => .error .networkError
termination_by maxNumOfRemainingLengthBytes + 1 - fixedHeader.length
decreasing_by
  simp only [List.length_append, List.length_singleton]
  omega

/-- The loop that fills the chunk, with `todo` bytes left of its size. -/
def readBody (net : Net) (read todo : Nat) : Except ReadFault (Net × List UInt8) :=
  if _more : todo = 0 then .ok (net, [])
  else
    match _reads : net.iotMqttReadNet todo with
    | none => .error .networkError
    | some (bytes, net) => do
        let read ← addInt read bytes.length
        let (net, rest) ← readBody net read (todo - bytes.length)
        .ok (net, bytes ++ rest)
termination_by todo
decreasing_by
  have := Net.length_iotMqttReadNet _reads
  omega

/-- What is known of a packet when it is passed to `_iot_mqtt_process_post_read`. -/
structure Received where
  chunkData : List UInt8
  chunkSize : Nat
  packetType : Nat
  qos : Nat
  deriving DecidableEq, Repr

/-- `_iot_mqtt_run_read_stream` from the header byte to `_iot_mqtt_process_post_read`. -/
def readChunk (net : Net) : Except ReadFault (Net × Received) :=
  match net.iotMqttReadNet 1 with
  | some ([header], net) => do
      let (net, fixedHeader, remSize) ← readLength net [header] 0 1
      let chunkSize ← addInt fixedHeader.length remSize
      let (net, rest) ← readBody net fixedHeader.length (chunkSize - fixedHeader.length)
      .ok (net,
        { chunkData := fixedHeader ++ rest
          chunkSize := chunkSize
          packetType := packetType header
          qos := packetQos header })
  | _ => .error .networkError

/-! ## The calls -/

/-- E_ST_MQTT_DISCONNECTED. -/
def eStMqttDisconnected : Int := -2

/-- E_ST_MQTT_NETWORK_ERROR. -/
def eStMqttNetworkError : Int := -9

/-- A client that reads: `isconnected`, the packets passed on so far, the results of the
calls, and how often EVENT_CHUNK_DISCONNECTED was queued. -/
structure Reader where
  net : Net
  isconnected : Bool := true
  processed : List Received := []
  results : List Int := []
  disconnects : Nat := 0

namespace Reader

/-- A call that returns `result`. -/
def returning (r : Reader) (result : Int) : Reader := { r with results := r.results ++ [result] }

/-- `_iot_mqtt_run_read_stream`. `port_net_read_poll` sees whether there is something to
read. There is no result if a value of the call fits no `int`. -/
def iotMqttRunReadStream (r : Reader) : Option Reader :=
  if r.isconnected = false then some (r.returning eStMqttDisconnected)
  else if r.net.stream = [] then some (r.returning 0)
  else
    match readChunk r.net with
    | .ok (net, packet) =>
        some ({ r with net := net, processed := r.processed ++ [packet] }.returning
          packet.chunkSize)
    | .error .networkError =>
        some ({ r with isconnected := false, disconnects := r.disconnects + 1 }.returning
          eStMqttNetworkError)
    | .error .overflow => none

/-- Successive calls. -/
def calls (r : Reader) : Nat → Option Reader
  | 0 => some r
  | n + 1 => (r.calls n).bind iotMqttRunReadStream

end Reader

/-! ## The wire format -/

/-- A packet: a header byte, one to four length bytes, and as many bytes as they say. -/
structure WirePacket where
  header : UInt8
  lengthBytes : List UInt8
  body : List UInt8
  terminated : Varint.Terminated lengthBytes
  short : lengthBytes.length ≤ maxNumOfRemainingLengthBytes
  size : body.length = Varint.value lengthBytes

namespace WirePacket

def bytes (p : WirePacket) : List UInt8 := p.header :: (p.lengthBytes ++ p.body)

/-- The packet as it is passed on. -/
def received (p : WirePacket) : Received where
  chunkData := p.bytes
  chunkSize := 1 + p.lengthBytes.length + Varint.value p.lengthBytes
  packetType := Mqtt.packetType p.header
  qos := packetQos p.header

end WirePacket

/-- The packets at the front of a stream, and what is left when no other follows. -/
structure Cut (stream : List UInt8) (packets : List WirePacket) (rest : List UInt8) : Prop where
  whole : stream = (packets.map WirePacket.bytes).flatten ++ rest
  ended : ∀ p : WirePacket, ¬ p.bytes <+: rest

/-- The fourth length byte is marked as continued. -/
def TooLong (rest : List UInt8) : Prop :=
  ∃ header field tail, rest = header :: (field ++ tail) ∧
    field.length = maxNumOfRemainingLengthBytes ∧ ∀ b ∈ field, 128 ≤ b.toNat

/-! ## The reader follows the format -/

@[simp] theorem ok_bind {α β : Type} (x : α) (f : α → Except ReadFault β) :
    (Except.ok x >>= f) = f x :=
  rfl

@[simp] theorem error_bind {α β : Type} (fault : ReadFault) (f : α → Except ReadFault β) :
    (Except.error fault >>= f) = .error fault :=
  rfl

theorem addInt_of_le {a b : Nat} (fits : a + b ≤ intMax) : addInt a b = .ok (a + b) := if_pos fits

theorem mulInt_of_le {a b : Nat} (fits : a * b ≤ intMax) : mulInt a b = .ok (a * b) := if_pos fits

/-- One byte is there. -/
theorem iotMqttReadNet_cons {net : Net} {b : UInt8} {stream : List UInt8}
    (next : net.stream = b :: stream) :
    ∃ cuts, net.iotMqttReadNet 1 = some ([b], ⟨stream, cuts⟩) := by
  have one : 1 ≤ net.stream.length := by simp [next]
  obtain ⟨cuts, reads⟩ := Net.iotMqttReadNet_of_le one
  rw [next] at reads
  exact ⟨cuts, reads⟩

/-- No length byte is there. -/
theorem iotMqttReadNet_nil {net : Net} (drained : net.stream = []) : net.iotMqttReadNet 1 = none :=
  Net.iotMqttReadNet_of_lt (by simp [drained])

/-- The powers of the multiplier stay far below the limit. -/
theorem pow_le_intMax {k : Nat} (few : k ≤ maxNumOfRemainingLengthBytes) : 128 ^ k ≤ intMax := by
  have most : 128 ^ k ≤ 128 ^ maxNumOfRemainingLengthBytes := Nat.pow_le_pow_right (by decide) few
  have fits : 128 ^ maxNumOfRemainingLengthBytes ≤ intMax := by decide
  omega

/-- One length byte: the loop adds its group, and goes on if the byte is marked. -/
theorem readLength_cons {net : Net} {fixedHeader stream : List UInt8} {b : UInt8} {k remSize : Nat}
    (read : fixedHeader.length = k + 1) (more : k < maxNumOfRemainingLengthBytes)
    (small : remSize < 128 ^ k) (next : net.stream = b :: stream) :
    ∃ cuts, readLength net fixedHeader remSize (128 ^ k) =
      if b.toNat < 128 then
        .ok (⟨stream, cuts⟩, fixedHeader ++ [b], remSize + b.toNat % 128 * 128 ^ k)
      else readLength ⟨stream, cuts⟩ (fixedHeader ++ [b]) (remSize + b.toNat % 128 * 128 ^ k)
        (128 ^ (k + 1)) := by
  obtain ⟨cuts, reads⟩ := iotMqttReadNet_cons next
  have pow := pow_le_intMax (Nat.succ_le_of_lt more)
  have group : b.toNat % 128 * 128 ^ k ≤ 127 * 128 ^ k :=
    Nat.mul_le_mul_right _ (by omega)
  rw [Nat.pow_succ] at pow
  have product : mulInt (b &&& 127).toNat (128 ^ k) = .ok (b.toNat % 128 * 128 ^ k) := by
    rw [and_127, mulInt_of_le (by omega)]
  have sum : addInt remSize (b.toNat % 128 * 128 ^ k) =
      .ok (remSize + b.toNat % 128 * 128 ^ k) := addInt_of_le (by omega)
  have grown : mulInt (128 ^ k) 128 = .ok (128 ^ (k + 1)) := by
    rw [mulInt_of_le pow, Nat.pow_succ]
  refine ⟨cuts, ?_⟩
  rw [readLength, read, Nat.add_sub_cancel, if_neg (by omega), reads]
  simp only [product, sum, grown, ok_bind]
  by_cases last : b.toNat < 128
  · rw [if_pos last]
    exact if_neg (not_not.mpr ((and_128_eq_zero_iff b).mpr last))
  · rw [if_neg last]
    exact if_pos fun final => last ((and_128_eq_zero_iff b).mp final)

/-- A terminated field of length bytes is read to its end. -/
theorem readLength_of_terminated {net : Net} {fixedHeader field tail : List UInt8}
    {k remSize : Nat} (read : fixedHeader.length = k + 1) (small : remSize < 128 ^ k)
    (terminated : Varint.Terminated field)
    (short : k + field.length ≤ maxNumOfRemainingLengthBytes)
    (next : net.stream = field ++ tail) :
    ∃ cuts, readLength net fixedHeader remSize (128 ^ k) =
      .ok (⟨tail, cuts⟩, fixedHeader ++ field, remSize + Varint.value field * 128 ^ k) := by
  induction field generalizing net fixedHeader k remSize with
  | nil => exact absurd terminated Varint.not_terminated_nil
  | cons b field ih =>
      rw [List.length_cons] at short
      obtain ⟨cuts, step⟩ := readLength_cons read (by omega) small next
      rcases Varint.terminated_cons.mp terminated with ⟨rfl, last⟩ | ⟨continued, terminated⟩
      · refine ⟨cuts, ?_⟩
        rw [step, if_pos last, Varint.value, Varint.value]
        rfl
      · have group : b.toNat % 128 * 128 ^ k ≤ 127 * 128 ^ k := Nat.mul_le_mul_right _ (by omega)
        have grown : remSize + b.toNat % 128 * 128 ^ k < 128 ^ (k + 1) := by
          rw [Nat.pow_succ]
          omega
        have longer : (fixedHeader ++ [b]).length = k + 1 + 1 := by simp [read]
        have stream : (⟨field ++ tail, cuts⟩ : Net).stream = field ++ tail := rfl
        obtain ⟨cuts', rest⟩ := ih longer grown terminated (by omega) stream
        have value : remSize + b.toNat % 128 * 128 ^ k + Varint.value field * 128 ^ (k + 1) =
            remSize + Varint.value (b :: field) * 128 ^ k := by
          rw [Varint.value, Nat.pow_succ]
          ring
        refine ⟨cuts', ?_⟩
        rw [step, if_neg (Nat.not_lt.mpr continued)]
        refine rest.trans ?_
        rw [value, List.append_assoc]
        rfl

/-- A stream that starts with no such field is an error. -/
theorem readLength_of_not_terminated {net : Net} {fixedHeader : List UInt8} {k remSize : Nat}
    (read : fixedHeader.length = k + 1) (few : k ≤ maxNumOfRemainingLengthBytes)
    (small : remSize < 128 ^ k)
    (none : ∀ field tail, net.stream = field ++ tail → Varint.Terminated field →
      ¬ k + field.length ≤ maxNumOfRemainingLengthBytes) :
    readLength net fixedHeader remSize (128 ^ k) = .error .networkError := by
  -- by induction on the length bytes that may still come
  obtain ⟨left, eq⟩ : ∃ left, maxNumOfRemainingLengthBytes = k + left :=
    Nat.exists_eq_add_of_le few
  induction left generalizing net fixedHeader k remSize with
  | zero =>
      rw [readLength, read, Nat.add_sub_cancel, if_pos (by omega)]
  | succ left ih =>
      cases next : net.stream with
      | nil =>
          rw [readLength, read, Nat.add_sub_cancel, if_neg (by omega), iotMqttReadNet_nil next]
      | cons b stream =>
          obtain ⟨cuts, step⟩ := readLength_cons read (by omega) small next
          by_cases last : b.toNat < 128
          · exact absurd (by simp; omega) (none [b] stream next
              (Varint.terminated_cons.mpr (.inl ⟨rfl, last⟩)))
          · have group : b.toNat % 128 * 128 ^ k ≤ 127 * 128 ^ k :=
              Nat.mul_le_mul_right _ (by omega)
            have grown : remSize + b.toNat % 128 * 128 ^ k < 128 ^ (k + 1) := by
              rw [Nat.pow_succ]
              omega
            have longer : (fixedHeader ++ [b]).length = k + 1 + 1 := by simp [read]
            rw [step, if_neg last]
            refine ih longer (by omega) grown ?_ (by omega)
            intro field tail split terminated short
            refine none (b :: field) tail ?_ ?_ ?_
            · rw [next, List.cons_append]
              exact congrArg (b :: ·) split
            · exact Varint.terminated_cons.mpr (.inr ⟨Nat.not_lt.mp last, terminated⟩)
            · rw [List.length_cons]
              omega

/-- The body is read in one round of the loop. -/
theorem readBody_of_le {net : Net} {read todo : Nat} (enough : todo ≤ net.stream.length)
    (fits : read + todo ≤ intMax) :
    ∃ cuts, readBody net read todo =
      .ok (⟨net.stream.drop todo, cuts⟩, net.stream.take todo) := by
  by_cases more : todo = 0
  · subst more
    exact ⟨net.cuts, by rw [readBody, dif_pos rfl]; simp⟩
  · obtain ⟨cuts, reads⟩ := Net.iotMqttReadNet_of_le enough
    have size : (net.stream.take todo).length = todo := by
      rw [List.length_take, Nat.min_eq_left enough]
    refine ⟨cuts, ?_⟩
    rw [readBody, dif_neg more]
    split
    case h_1 fails => exact absurd (fails.symm.trans reads) (by simp)
    case h_2 bytes next succeeds =>
      obtain ⟨rfl, rfl⟩ := Prod.mk.inj (Option.some.inj (succeeds.symm.trans reads))
      rw [size, addInt_of_le fits, ok_bind, Nat.sub_self, readBody, dif_pos rfl, ok_bind]
      dsimp only
      rw [List.append_nil]

theorem readBody_of_lt {net : Net} {read todo : Nat} (short : net.stream.length < todo) :
    readBody net read todo = .error .networkError := by
  rw [readBody, dif_neg (by omega)]
  split
  case h_1 => rfl
  case h_2 succeeds =>
    rw [Net.iotMqttReadNet_of_lt short] at succeeds
    exact absurd succeeds (by simp)

/-- The size of a chunk is an `int`. -/
theorem chunkSize_le_intMax {field : List UInt8}
    (short : field.length ≤ maxNumOfRemainingLengthBytes) :
    1 + field.length + Varint.value field ≤ intMax := by
  have value := Varint.value_lt field
  have most : 128 ^ field.length ≤ 128 ^ maxNumOfRemainingLengthBytes :=
    Nat.pow_le_pow_right (by decide) short
  have fits : 1 + maxNumOfRemainingLengthBytes + 128 ^ maxNumOfRemainingLengthBytes ≤ intMax := by
    decide
  omega

/-- A header byte and a field of length bytes: what is left is the body. -/
theorem readChunk_of_terminated {net : Net} {header : UInt8} {field tail : List UInt8}
    (terminated : Varint.Terminated field) (short : field.length ≤ maxNumOfRemainingLengthBytes)
    (next : net.stream = header :: (field ++ tail)) :
    ∃ cuts, readChunk net = (do
      let (net, rest) ← readBody ⟨tail, cuts⟩ (1 + field.length) (Varint.value field)
      .ok (net, ⟨header :: (field ++ rest), 1 + field.length + Varint.value field,
        packetType header, packetQos header⟩)) := by
  obtain ⟨cuts, reads⟩ := iotMqttReadNet_cons next
  have stream : (⟨field ++ tail, cuts⟩ : Net).stream = field ++ tail := rfl
  have loop : ∃ cuts', readLength ⟨field ++ tail, cuts⟩ [header] 0 (128 ^ 0) =
      .ok (⟨tail, cuts'⟩, [header] ++ field, 0 + Varint.value field * 128 ^ 0) :=
    readLength_of_terminated rfl (by decide) terminated (by omega) stream
  obtain ⟨cuts', length⟩ := loop
  rw [Nat.pow_zero, Nat.zero_add, Nat.mul_one] at length
  have size : ([header] ++ field).length = 1 + field.length := by simp [Nat.add_comm]
  refine ⟨cuts', ?_⟩
  simp only [readChunk, reads, length, ok_bind, size, addInt_of_le (chunkSize_le_intMax short),
    Nat.add_sub_cancel_left]
  rfl

/-- A packet at the front of the stream is read, and nothing behind it. -/
theorem readChunk_of_packet {net : Net} (p : WirePacket) {tail : List UInt8}
    (next : net.stream = p.bytes ++ tail) :
    ∃ cuts, readChunk net = .ok (⟨tail, cuts⟩, p.received) := by
  have split : net.stream = p.header :: (p.lengthBytes ++ (p.body ++ tail)) := by
    rw [next, WirePacket.bytes]
    simp
  obtain ⟨cuts, chunk⟩ := readChunk_of_terminated p.terminated p.short split
  have enough : Varint.value p.lengthBytes ≤ (p.body ++ tail).length := by
    rw [← p.size, List.length_append]
    omega
  have loop : ∃ cuts', readBody ⟨p.body ++ tail, cuts⟩ (1 + p.lengthBytes.length)
      (Varint.value p.lengthBytes) = .ok (⟨(p.body ++ tail).drop (Varint.value p.lengthBytes),
        cuts'⟩, (p.body ++ tail).take (Varint.value p.lengthBytes)) :=
    readBody_of_le enough (chunkSize_le_intMax p.short)
  obtain ⟨cuts', body⟩ := loop
  refine ⟨cuts', ?_⟩
  rw [chunk, body, ok_bind, ← p.size]
  simp only [List.drop_left, List.take_left]
  rw [WirePacket.received, WirePacket.bytes, ← p.size]

/-- Anything else is an error of the network. -/
theorem readChunk_of_not_packet {net : Net} (none : ∀ p : WirePacket, ¬ p.bytes <+: net.stream) :
    readChunk net = .error .networkError := by
  cases next : net.stream with
  | nil => rw [readChunk, iotMqttReadNet_nil next]
  | cons header stream =>
      by_cases field : ∃ field tail, stream = field ++ tail ∧ Varint.Terminated field ∧
          field.length ≤ maxNumOfRemainingLengthBytes
      · obtain ⟨field, tail, rfl, terminated, short⟩ := field
        obtain ⟨cuts, chunk⟩ := readChunk_of_terminated terminated short next
        have missing : tail.length < Varint.value field := by
          refine Nat.not_le.mp fun enough => ?_
          have size : (tail.take (Varint.value field)).length = Varint.value field := by
            rw [List.length_take, Nat.min_eq_left enough]
          refine none ⟨header, field, tail.take (Varint.value field), terminated, short, size⟩ ?_
          refine ⟨tail.drop (Varint.value field), ?_⟩
          simp [WirePacket.bytes, next]
        rw [chunk, readBody_of_lt missing, error_bind]
      · obtain ⟨cuts, reads⟩ := iotMqttReadNet_cons next
        have length : readLength ⟨stream, cuts⟩ [header] 0 (128 ^ 0) = .error .networkError := by
          refine readLength_of_not_terminated rfl (Nat.zero_le _) (by decide) ?_
          intro front tail split terminated short
          exact field ⟨front, tail, split, terminated, by omega⟩
        rw [Nat.pow_zero] at length
        simp only [readChunk, reads, length, error_bind]

namespace Reader

variable {r : Reader} {packets : List WirePacket} {rest : List UInt8} {n : Nat}

theorem run_packet (connected : r.isconnected = true) (p : WirePacket) {tail : List UInt8}
    (next : r.net.stream = p.bytes ++ tail) :
    ∃ cuts, r.iotMqttRunReadStream =
      some ({ r with net := ⟨tail, cuts⟩, processed := r.processed ++ [p.received] }.returning
        p.received.chunkSize) := by
  obtain ⟨cuts, chunk⟩ := readChunk_of_packet p next
  have more : r.net.stream ≠ [] := by
    rw [next, WirePacket.bytes]
    simp
  refine ⟨cuts, ?_⟩
  rw [iotMqttRunReadStream, connected, if_neg (by simp), if_neg more, chunk]

theorem run_error (connected : r.isconnected = true) (more : r.net.stream ≠ [])
    (none : ∀ p : WirePacket, ¬ p.bytes <+: r.net.stream) :
    r.iotMqttRunReadStream =
      some ({ r with isconnected := false, disconnects := r.disconnects + 1 }.returning
        eStMqttNetworkError) := by
  rw [iotMqttRunReadStream, connected, if_neg (by simp), if_neg more,
    readChunk_of_not_packet none]

/-- The state after `n` calls. The packets are passed on one a call, and the call behind
the last of them ends the connection if there is something left. -/
structure After (packets : List WirePacket) (rest : List UInt8) (n : Nat) (r : Reader) : Prop where
  processed : r.processed = (packets.take n).map WirePacket.received
  reading : n ≤ packets.length → r.isconnected = true ∧
    r.net.stream = ((packets.drop n).map WirePacket.bytes).flatten ++ rest ∧
    r.results.length = n ∧ r.disconnects = 0
  waiting : packets.length < n → rest = [] → r.isconnected = true ∧ r.net.stream = []
  closed : packets.length < n → rest ≠ [] → r.isconnected = false ∧ r.disconnects = 1 ∧
    r.results[packets.length]? = some eStMqttNetworkError

/-- One more call. -/
theorem After.step (after : After packets rest n r)
    (ended : ∀ p : WirePacket, ¬ p.bytes <+: rest) :
    ∃ t, r.iotMqttRunReadStream = some t ∧ After packets rest (n + 1) t := by
  rcases Nat.lt_trichotomy n packets.length with inside | rfl | behind
  · -- the next packet
    obtain ⟨connected, stream, count, open_⟩ := after.reading (Nat.le_of_lt inside)
    rw [List.drop_eq_getElem_cons inside, List.map_cons, List.flatten_cons,
      List.append_assoc] at stream
    obtain ⟨cuts, run⟩ := run_packet connected _ stream
    refine ⟨_, run, ?_, fun _ => ⟨connected, rfl, ?_, open_⟩, fun late => ?_, fun late => ?_⟩
    · rw [List.take_add_one, List.getElem?_eq_getElem inside, List.map_append, ← after.processed]
      rfl
    · simp [returning, count]
    · omega
    · omega
  · -- what the packets leave
    obtain ⟨connected, stream, count, open_⟩ := after.reading (Nat.le_refl _)
    rw [List.drop_length, List.map_nil, List.flatten_nil, List.nil_append] at stream
    have all : packets.take (packets.length + 1) = packets.take packets.length := by
      rw [List.take_of_length_le (Nat.le_succ _), List.take_length]
    by_cases empty : rest = []
    · have drained : r.net.stream = [] := stream.trans empty
      have run : r.iotMqttRunReadStream = some (r.returning 0) := by
        rw [iotMqttRunReadStream, connected, if_neg (by simp), if_pos drained]
      refine ⟨_, run, ?_, fun early => ?_, fun _ _ => ⟨connected, drained⟩, fun _ more => ?_⟩
      · rw [all]
        exact after.processed
      · omega
      · exact absurd empty more
    · have run := run_error connected (by rwa [stream]) (by rwa [stream])
      refine ⟨_, run, ?_, fun early => ?_, fun _ none => absurd none empty,
        fun _ _ => ⟨rfl, ?_, ?_⟩⟩
      · rw [all]
        exact after.processed
      · omega
      · simp [returning, open_]
      · simp [returning, ← count]
  · -- the stream is over, or the connection is closed
    have all : packets.take (n + 1) = packets.take n := by
      rw [List.take_of_length_le (by omega), List.take_of_length_le (by omega)]
    by_cases empty : rest = []
    · obtain ⟨connected, drained⟩ := after.waiting behind empty
      have run : r.iotMqttRunReadStream = some (r.returning 0) := by
        rw [iotMqttRunReadStream, connected, if_neg (by simp), if_pos drained]
      refine ⟨_, run, ?_, fun early => ?_, fun _ _ => ⟨connected, drained⟩, fun _ more => ?_⟩
      · rw [all]
        exact after.processed
      · omega
      · exact absurd empty more
    · obtain ⟨disconnected, once, result⟩ := after.closed behind empty
      have run : r.iotMqttRunReadStream = some (r.returning eStMqttDisconnected) := by
        rw [iotMqttRunReadStream, if_pos disconnected]
      refine ⟨_, run, ?_, fun early => ?_, fun _ none => absurd none empty,
        fun _ _ => ⟨disconnected, once, ?_⟩⟩
      · rw [all]
        exact after.processed
      · omega
      · obtain ⟨inside, -⟩ := List.getElem?_eq_some_iff.mp result
        rw [returning, List.getElem?_append_left inside, result]

/-- A client that has just connected. -/
def start (stream : List UInt8) (cuts : Nat → Nat) : Reader where
  net := ⟨stream, cuts⟩

/-- Any number of calls. -/
theorem after_calls {stream : List UInt8} (cut : Cut stream packets rest) (cuts : Nat → Nat)
    (n : Nat) : ∃ r, (start stream cuts).calls n = some r ∧ After packets rest n r := by
  induction n with
  | zero =>
      refine ⟨_, rfl, rfl, fun _ => ⟨rfl, cut.whole, rfl, rfl⟩, fun early => ?_, fun early => ?_⟩
      · exact absurd early (Nat.not_lt_zero _)
      · exact absurd early (Nat.not_lt_zero _)
  | succ n ih =>
      obtain ⟨r, runs, after⟩ := ih
      obtain ⟨t, run, next⟩ := after.step cut.ended
      exact ⟨t, by rw [calls, runs, Option.bind_some, run], next⟩

end Reader

/-- Every stream has such a cut. -/
theorem exists_cut (stream : List UInt8) : ∃ packets rest, Cut stream packets rest := by
  obtain ⟨size, bound⟩ : ∃ size, stream.length ≤ size := ⟨_, Nat.le_refl _⟩
  induction size generalizing stream with
  | zero =>
      obtain rfl : stream = [] := List.eq_nil_of_length_eq_zero (Nat.le_zero.mp bound)
      exact ⟨[], [], rfl, fun p starts => by simp [WirePacket.bytes] at starts⟩
  | succ size ih =>
      by_cases more : ∃ p : WirePacket, p.bytes <+: stream
      · obtain ⟨p, tail, rfl⟩ := more
        have shorter : tail.length ≤ size := by
          simp only [WirePacket.bytes, List.length_append, List.length_cons] at bound
          omega
        obtain ⟨packets, rest, whole, ended⟩ := ih tail shorter
        refine ⟨p :: packets, rest, ?_, ended⟩
        rw [List.map_cons, List.flatten_cons, List.append_assoc, ← whole]
      · exact ⟨[], stream, rfl, not_exists.mp more⟩

/-- No packet goes on behind its fourth length byte. -/
theorem TooLong.ended {rest : List UInt8} (long : TooLong rest) (p : WirePacket) :
    ¬ p.bytes <+: rest := by
  obtain ⟨header, field, tail, rfl, count, marked⟩ := long
  intro starts
  have bytes : p.lengthBytes ++ p.body <+: field ++ tail := (List.cons_prefix_cons.mp starts).2
  have inside : p.lengthBytes <+: field := by
    refine List.prefix_of_prefix_length_le ((List.prefix_append _ _).trans bytes)
      (List.prefix_append _ _) ?_
    rw [count]
    exact p.short
  obtain ⟨front, last, split, -, ends⟩ := p.terminated
  have mem : last ∈ field := by
    refine inside.subset ?_
    rw [split]
    simp
  exact absurd (marked last mem) (Nat.not_le.mpr ends)

/-- However the network cuts a stream, successive calls pass on the packets at its front,
each with the size its length bytes announce, and no value leaves the range of an `int`.
A fourth length byte that is marked as continued closes the connection. -/
theorem calls_follow_format (stream : List UInt8) (cuts : Nat → Nat) :
    (∃ packets rest, Cut stream packets rest) ∧
    (∀ packets rest, Cut stream packets rest → ∀ n, ∃ r,
      (Reader.start stream cuts).calls n = some r ∧ r.After packets rest n) ∧
    (∀ (packets : List WirePacket) rest,
      stream = (packets.map WirePacket.bytes).flatten ++ rest → TooLong rest →
      ∀ n, packets.length < n → ∃ r, (Reader.start stream cuts).calls n = some r ∧
        r.processed = packets.map WirePacket.received ∧ r.isconnected = false ∧
        r.results[packets.length]? = some eStMqttNetworkError) := by
  refine ⟨exists_cut stream, fun packets rest cut n => Reader.after_calls cut cuts n, ?_⟩
  intro packets rest whole long n later
  obtain ⟨r, runs, after⟩ := Reader.after_calls ⟨whole, long.ended⟩ cuts n
  have more : rest ≠ [] := by
    obtain ⟨header, field, tail, rfl, -⟩ := long
    exact List.cons_ne_nil _ _
  obtain ⟨closed, -, result⟩ := after.closed later more
  refine ⟨r, runs, ?_, closed, result⟩
  rw [after.processed, List.take_of_length_le (Nat.le_of_lt later)]

end StDevice.Mqtt
