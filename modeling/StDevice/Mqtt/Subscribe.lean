import StDevice.Mqtt.Answers

/-!
# Subscribing

The broker answers a SUBSCRIBE with one return code for each topic, and 0x80 refuses a
topic. The call looks at the first code only, and it compares an `int` that was a `char`
with 0x80. So a refusal is seen only at the first topic, and only where `char` is unsigned.
-/

namespace StDevice.Mqtt

open Client

theorem charToInt_eq_refusal_iff (signedChar : Bool) (code : UInt8) :
    charToInt signedChar code = 0x80 ↔ signedChar = false ∧ code = 0x80 := by
  have number : code = 0x80 ↔ code.toNat = 128 := UInt8.toNat_inj.symm
  have small := code.toNat_lt
  rw [number]
  unfold charToInt
  cases signedChar with
  | true =>
      simp only [true_and, Bool.true_eq_false, false_and, iff_false]
      split <;> omega
  | false =>
      simp only [Bool.false_eq_true, false_and, if_false, true_and]
      omega

namespace Link

variable {p : Platform} {s t : Link} {topics : List CString} {before after : List Turn}
  {turn : Turn} {suback : WirePacket} {codes : List UInt8}

/-- A SUBACK with these return codes is read in a turn of a call of `st_mqtt_subscribe` that
has waited so far, and it finds the packet of the call. -/
structure Suback (p : Platform) (s : Link) (before : List Turn) (turn : Turn) (t : Link)
    (suback : WirePacket) (codes : List UInt8) : Prop where
  waits : (s.request .subscribe).stillWaits p s.client.created before = some t
  hears : (t.atRead turn).Hears turn.reading suback
  isSuback : suback.IsSuback (nextId s.client.nextPacketid) codes
  found : (t.atRead turn).finds .subscribe (nextId s.client.nextPacketid) = some s.client.created

/-- What the call returns: the outcome of the comparison of the first code. -/
theorem subscribe_answer {code : UInt8} (reached : Client.initial.Reaches s.client)
    (some : topics ≠ []) (answer : Suback p s before turn t suback (code :: codes))
    (returns : ∃ cycle, .cycle cycle ∈ turn :: after) :
    ∃ u, s.stMqttSubscribe p topics (before ++ turn :: after) =
      .some (u, if p.signedChar = false ∧ code = 0x80 then eStMqttFailure else 0) := by
  obtain ⟨events, run⟩ := reached
  have holds : Holds .places s.client [] := Holds.initial.places run
  have ours : t.client.Ours s.client.created .subscribe (nextId s.client.nextPacketid) :=
    (Ours.request holds).reaches (reaches_stillWaits answer.waits)
  have identifier : awaitedId .suback (heardId p turn.reading suback) =
      nextId s.client.nextPacketid := by
    rw [heardId, answer.isSuback.packetId]
    rfl
  obtain ⟨u, result⟩ := waitFor_answer (p := p) ours answer.hears answer.isSuback.1 rfl
    (identifier.symm ▸ answer.found) returns
  refine ⟨u, ?_⟩
  rw [stMqttSubscribe, if_neg some, waitFor_append answer.waits, result]
  simp only [ackReturnCode, Option.getD_some, answer.isSuback.subackQos,
    charToInt_eq_refusal_iff]

/-- The call succeeds exactly when no topic is refused, if and only if no topic is or the
first one is and `char` is unsigned. -/
theorem subscribe_granted_iff (reached : Client.initial.Reaches s.client) (some : topics ≠ [])
    (count : codes.length = topics.length)
    (known : ∀ code ∈ codes, code = 0 ∨ code = 1 ∨ code = 2 ∨ code = 0x80)
    (answer : Suback p s before turn t suback codes)
    (returns : ∃ cycle, .cycle cycle ∈ turn :: after) :
    ∃ u rc, s.stMqttSubscribe p topics (before ++ turn :: after) = .some (u, rc) ∧
      ((rc = 0 ↔ 0x80 ∉ codes) ↔
        0x80 ∉ codes ∨ p.signedChar = false ∧ codes.head? = .some 0x80) := by
  cases codes with
  | nil => exact absurd (List.length_eq_zero_iff.mp count.symm) some
  | cons code codes =>
      obtain ⟨u, result⟩ := subscribe_answer reached some answer returns
      refine ⟨u, _, result, ?_⟩
      by_cases refused : p.signedChar = false ∧ code = 0x80
      · rw [if_pos refused]
        simp [eStMqttFailure, refused]
      · rw [if_neg refused]
        by_cases mem : (0x80 : UInt8) ∈ code :: codes
        · simp only [mem, not_true, List.head?_cons, Option.some.injEq, false_or]
          exact iff_of_false (by simp) refused
        · simp [mem]

/-- A client that has just connected, and what the broker will send. -/
def connectedTo (stream : List UInt8) : Link where
  client := .initial
  net := ⟨stream, fun _ => 0⟩
  isconnected := true
  returnCode := fun _ => 0
  heard := []

/-- A cycle that writes and reads. -/
def plainCycle : Turn := .cycle { written := true, reading := { poll := .ready } }

/-- A SUBACK for the first request of a client. -/
def firstSuback (code : UInt8) : WirePacket where
  header := 0x90
  lengthBytes := [3]
  body := [0, 2, code]
  terminated := ⟨[], 3, rfl, by simp, by decide⟩
  short := by decide
  size := by simp [Varint.value]

theorem suback_first (signedChar : Bool) (code : UInt8) :
    Suback ⟨signedChar, false⟩ (connectedTo (firstSuback code).bytes) [] plainCycle
      ((connectedTo (firstSuback code).bytes).request .subscribe) (firstSuback code) [code] := by
  have type : packetType 0x90 = MsgType.suback.code := by decide
  exact ⟨rfl, ⟨rfl, rfl, List.prefix_refl _⟩, ⟨type, 0, 2, rfl, rfl⟩, rfl⟩

theorem subscribe_granted_one : ∃ u rc,
    (connectedTo (firstSuback 1).bytes).stMqttSubscribe ⟨true, false⟩ [⟨[97], by decide⟩]
      [plainCycle] = .some (u, rc) ∧ ((rc = 0 ↔ 0x80 ∉ [(1 : UInt8)]) ↔
        0x80 ∉ [(1 : UInt8)] ∨ true = false ∧ [(1 : UInt8)].head? = .some 0x80) :=
  subscribe_granted_iff (.refl _) (by simp) rfl (by simp) (suback_first true 1)
    ⟨_, List.mem_cons_self⟩

/-- The only topic is refused, and the call succeeds. -/
theorem subscribe_refused : ∃ u,
    (connectedTo (firstSuback 0x80).bytes).stMqttSubscribe ⟨true, false⟩ [⟨[97], by decide⟩]
      [plainCycle] = .some (u, 0) ∧ (0x80 : UInt8) ∈ [(0x80 : UInt8)] := by
  have answer : ∃ u, (connectedTo (firstSuback 0x80).bytes).stMqttSubscribe ⟨true, false⟩
      [⟨[97], by decide⟩] ([] ++ [plainCycle]) = .some (u, 0) :=
    subscribe_answer (.refl _) (by simp) (suback_first true 0x80) ⟨_, List.mem_cons_self⟩
  obtain ⟨u, result⟩ := answer
  exact ⟨u, result, by simp⟩

end Link

end StDevice.Mqtt
