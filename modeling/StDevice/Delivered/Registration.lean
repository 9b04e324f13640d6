import StDevice.Delivered.Independence

/-!
# The reply to a registration

`mqtt_reg_sub_cb` reads the event, the integration profile, the location and the device id
of a reply. The device id is printed by the JSON library, and 36 bytes behind its first
character are stored, whatever is printed; CLOUD_REGISTERED is then sent.

The handler is taken apart here: what happens before the device id neither stores an id nor
reports one, and whether the device id is reached depends on the reply and on the
allocations alone.
-/

namespace StDevice.Delivered

open CString Effect Main

/-- CLOUD_REGISTERED is put into the command queue. -/
def registered : Output := .commandSend .cloudRegistered none

def Output.isRegistered : Output → Bool
  | .commandSend .cloudRegistered _ => true
  | _ => false

variable {α β : Type} {p : Platform} {d : Device} {m : Act α} {a : α}

/-- A part of the handler that returns `a` after `calls` fallible calls, and neither stores
a device id nor reports one. -/
structure Part (m : Act α) (d : Device) (a : α) (calls : Nat) : Prop where
  result : (m d).result = some a
  calls : (m d).state.calls = d.calls + calls
  deviceId : (m d).state.iotRegData.deviceId = d.iotRegData.deviceId
  updated : (m d).state.iotRegData.updated = d.iotRegData.updated
  silent : ∀ o ∈ (m d).outputs, o.isRegistered = false

namespace Part

theorem bind_apply {calls : Nat} (part : Part m d a calls) (f : α → Act β) :
    (m >>= f) d = (f a (m d).state).after (m d).outputs := by
  rw [Action.bind_apply, part.result]

theorem bind {calls total : Nat} {f : α → Act β} {b : β} (part : Part m d a calls) (more : Nat)
    (next : Part (f a) (m d).state b more) (sum : calls + more = total) :
    Part (m >>= f) d b total := by
  constructor
  · rw [part.bind_apply]
    exact next.result
  · rw [part.bind_apply]
    refine next.calls.trans ?_
    rw [part.calls]
    omega
  · rw [part.bind_apply]
    exact next.deviceId.trans part.deviceId
  · rw [part.bind_apply]
    exact next.updated.trans part.updated
  · rw [part.bind_apply]
    intro o mem
    rcases List.mem_append.mp mem with early | late
    · exact part.silent o early
    · exact next.silent o late

theorem pure (a : α) (d : Device) : Part (Pure.pure a : Act α) d a 0 :=
  ⟨rfl, rfl, rfl, rfl, fun _ mem => absurd mem List.not_mem_nil⟩

theorem emit {output : Output} (silent : output.isRegistered = false) (d : Device) :
    Part (Action.emit output) d () 0 :=
  ⟨rfl, rfl, rfl, rfl, fun _ mem => List.mem_singleton.mp mem ▸ silent⟩

theorem log (level : Level) (func format : String) (args : List Arg) (d : Device) :
    Part (log level func format args) d () 0 := emit rfl d

theorem attempt (p : Platform) (d : Device) : Part (attempt p) d (p.succeeds d.calls) 1 :=
  ⟨rfl, rfl, rfl, rfl, fun _ mem => absurd mem List.not_mem_nil⟩

/-- A change of the other fields. -/
theorem modify {change : Device → Device}
    (same : ∀ d, (change d).calls = d.calls ∧
      (change d).iotRegData.deviceId = d.iotRegData.deviceId ∧
      (change d).iotRegData.updated = d.iotRegData.updated) (d : Device) :
    Part (Action.modify change) d () 0 :=
  ⟨rfl, (same d).1, (same d).2.1, (same d).2.2, fun _ mem => absurd mem List.not_mem_nil⟩

end Part

/-- A line and a value. -/
theorem part_report (level : Level) (func format : String) (args : List Arg) (a : α)
    (d : Device) :
    Part (do Delivered.log level func format args; pure a : Act α) d a 0 :=
  (Part.log _ _ _ _ d).bind 0 (Part.pure a _) rfl

/-- The text is a UUID. -/
def isUuid (item : Json) : Bool := item.valuestring.any validateUuidFormat

theorem part_iotUtilConvertStrUuid (item : Json) (d : Device) :
    ∃ uuid, Part (iotUtilConvertStrUuid item.valuestring) d uuid 0 ∧ uuid.isSome = isUuid item := by
  cases value : item.valuestring with
  | none => exact ⟨none, part_report _ _ _ _ _ d, by simp [isUuid, value]⟩
  | some str =>
      rw [iotUtilConvertStrUuid]
      split
      case isTrue valid => exact ⟨_, Part.pure _ d, by simp [isUuid, value, valid]⟩
      case isFalse invalid =>
        exact ⟨none, part_report _ _ _ _ _ d, by simp [isUuid, value, invalid]⟩

/-- The integration profile is absent, or complete and allocated. -/
def dipPasses (json : Json) (allocated : Bool) : Bool :=
  match json.getObjectItem "deviceIntegrationProfileKey" with
  | none => true
  | some dipKey =>
      allocated && (dipKey.getObjectItem "id").any isUuid &&
        (dipKey.getObjectItem "majorVersion").isSome

/-- The location is absent, or a UUID and allocated. -/
def locationPasses (json : Json) (allocated : Bool) : Bool :=
  match json.getObjectItem "locationId" with
  | none => true
  | some item => allocated && isUuid item

/-- The event is absent, or says that the web token has expired and comes with the time. -/
def eventPasses (json : Json) : Bool :=
  match json.getObjectItem "event" with
  | none => true
  | some event =>
      event.valuestring.any (fun text =>
        strncmp text (ascii "expired.jwt") (ascii "expired.jwt").length = 0) &&
      (json.getObjectItem "currentTime").isSome

/-- Calls made for a member that may be absent. -/
def callsFor (json : Json) (name : String) : Nat :=
  if (json.getObjectItem name).isSome then 1 else 0

theorem part_dipReceived (json : Json) (d : Device) :
    Part (dipReceived p json) d (dipPasses json (p.succeeds d.calls))
      (callsFor json "deviceIntegrationProfileKey") := by
  unfold dipReceived dipPasses callsFor
  cases json.getObjectItem "deviceIntegrationProfileKey" with
  | none => exact Part.pure true d
  | some dipKey =>
      dsimp only
      unfold updateDip
      refine (Part.attempt p d).bind 0 ?_ rfl
      cases p.succeeds d.calls with
      | false => exact part_report _ _ _ _ _ _
      | true =>
          cases dipKey.getObjectItem "id" with
          | none => exact part_report _ _ _ _ _ _
          | some id =>
              obtain ⟨uuid, convert, valid⟩ := part_iotUtilConvertStrUuid id (attempt p d).state
              refine convert.bind 0 ?_ rfl
              simp only [Option.any_some, ← valid, Bool.true_and]
              cases uuid with
              | none => exact part_report _ _ _ _ _ _
              | some dipId =>
                  cases dipKey.getObjectItem "majorVersion" with
                  | none => exact part_report _ _ _ _ _ _
                  | some major =>
                      refine (Part.modify ?_ _).bind 0 (Part.pure true _) rfl
                      exact fun _ => ⟨rfl, rfl, rfl⟩

theorem part_locationReceived (json : Json) (d : Device) :
    Part (locationReceived p json) d (locationPasses json (p.succeeds d.calls))
      (callsFor json "locationId") := by
  unfold locationReceived locationPasses callsFor
  cases json.getObjectItem "locationId" with
  | none => exact part_report _ _ _ _ _ _
  | some item =>
      dsimp only
      unfold updateLocation
      refine (Part.attempt p d).bind 0 ?_ rfl
      cases p.succeeds d.calls with
      | false => exact part_report _ _ _ _ _ _
      | true =>
          obtain ⟨uuid, convert, valid⟩ := part_iotUtilConvertStrUuid item (attempt p d).state
          refine convert.bind 0 ?_ rfl
          simp only [← valid, Bool.true_and]
          cases uuid with
          | none => exact part_report _ _ _ _ _ _
          | some location =>
              refine (Part.modify ?_ _).bind 0 (Part.pure true _) rfl
              exact fun _ => ⟨rfl, rfl, rfl⟩

theorem part_registerAgain (valueint : Int) (d : Device) :
    Part (registerAgain p valueint) d () 1 := by
  have clock : Part (setSntp "mqtt_reg_sub_cb" valueint) d () 0 :=
    (Part.log _ _ _ _ d).bind 0 (Part.emit rfl _) rfl
  refine clock.bind 1 ?_ rfl
  have sent : Part (iotCommandSend p .cloudRegistering none)
      (setSntp "mqtt_reg_sub_cb" valueint d).state (p.succeeds d.calls) 1 := by
    refine (Part.attempt p _).bind 0 ?_ rfl
    show Part (if p.succeeds d.calls = true then _ else _) _ _ 0
    cases p.succeeds d.calls with
    | false => exact Part.pure false _
    | true => exact (Part.emit rfl _).bind 0 (Part.pure true _) rfl
  refine sent.bind 0 ?_ rfl
  cases p.succeeds d.calls with
  | false => exact Part.log _ _ _ _ _
  | true => exact Part.pure () _

/-! ## Before the device id -/

/-- Number of fallible calls made before the device id is reached. -/
def callsBefore (json : Json) : Nat :=
  callsFor json "event" + callsFor json "deviceIntegrationProfileKey" + callsFor json "locationId"

/-- The reply gets past its event, profile and location. -/
def passes (p : Platform) (json : Json) (d : Device) : Bool :=
  let dipCall := d.calls + callsFor json "event"
  let locationCall := dipCall + callsFor json "deviceIntegrationProfileKey"
  eventPasses json && dipPasses json (p.succeeds dipCall) &&
    locationPasses json (p.succeeds locationCall)

/-- The run comes to the device id in a state with the same id, after `calls` fallible
calls. -/
def Arrives (p : Platform) (json : Json) (m : Act Unit) (d : Device) (calls : Nat) : Prop :=
  ∃ earlier d', m d = (updateDeviceId p json d').after earlier ∧ d'.calls = d.calls + calls ∧
    d'.iotRegData.deviceId = d.iotRegData.deviceId ∧
    d'.iotRegData.updated = d.iotRegData.updated ∧ ∀ o ∈ earlier, o.isRegistered = false

theorem Part.arrives {json : Json} {calls : Nat} {f : α → Act Unit} (part : Part m d a calls)
    (more : Nat) (next : Arrives p json (f a) (m d).state more) :
    Arrives p json (m >>= f) d (calls + more) := by
  obtain ⟨earlier, d', run, count, deviceId, updated, silent⟩ := next
  refine ⟨(m d).outputs ++ earlier, d', ?_, ?_, ?_, ?_, ?_⟩
  · rw [part.bind_apply, run]
    simp [Outcome.after]
  · rw [count, part.calls]
    omega
  · exact deviceId.trans part.deviceId
  · exact updated.trans part.updated
  · intro o mem
    rcases List.mem_append.mp mem with early | late
    · exact part.silent o early
    · exact silent o late

/-- The registered data of a reply, from the profile on. -/
theorem updateRegistered_cases (json : Json) (d : Device) :
    Arrives p json (updateRegistered p json) d
        (callsFor json "deviceIntegrationProfileKey" + callsFor json "locationId") ∧
        dipPasses json (p.succeeds d.calls) = true ∧
        locationPasses json
          (p.succeeds (d.calls + callsFor json "deviceIntegrationProfileKey")) = true ∨
      (∃ calls, Part (updateRegistered p json) d () calls) ∧
        (dipPasses json (p.succeeds d.calls) && locationPasses json
          (p.succeeds (d.calls + callsFor json "deviceIntegrationProfileKey"))) = false := by
  have dip := part_dipReceived (p := p) json d
  have location := part_locationReceived (p := p) json (dipReceived p json d).state
  rw [dip.calls] at location
  unfold updateRegistered
  cases dipped : dipPasses json (p.succeeds d.calls) with
  | false =>
      rw [dipped] at dip
      exact .inr ⟨⟨_, dip.bind 0 (Part.pure () _) rfl⟩, rfl⟩
  | true =>
      rw [dipped] at dip
      cases located : locationPasses json
        (p.succeeds (d.calls + callsFor json "deviceIntegrationProfileKey")) with
      | false =>
          rw [located] at location
          refine .inr ⟨⟨_, dip.bind (callsFor json "locationId") ?_ rfl⟩, rfl⟩
          exact location.bind 0 (Part.pure () _) rfl
      | true =>
          rw [located] at location
          refine .inl ⟨dip.arrives _ ?_, rfl, rfl⟩
          refine location.arrives 0 ?_
          exact ⟨[], _, rfl, rfl, rfl, rfl, fun _ mem => absurd mem List.not_mem_nil⟩

/-- A reply with an event that does not pass ends there. -/
theorem part_handleEvent {json : Json} (readable : EventReadable json)
    (fails : eventPasses json = false) (text : List UInt8) (d : Device) :
    Part (handleEvent p json text) d () 0 := by
  unfold handleEvent
  unfold eventPasses at fails
  cases found : json.getObjectItem "event" with
  | none =>
      rw [found] at fails
      exact absurd fails (by simp)
  | some event =>
      obtain ⟨name, value⟩ := Option.ne_none_iff_exists'.mp (readable event found)
      rw [found] at fails
      simp only [value, Option.any_some] at fails
      dsimp only
      rw [value, startsWith_some, Action.pure_bind_eq]
      cases expired : decide
          (strncmp name (ascii "expired.jwt") (ascii "expired.jwt").length = 0) with
      | false =>
          rw [startsWith_some, Action.pure_bind_eq, if_neg Bool.false_ne_true]
          split
          · exact Part.log _ _ _ _ d
          · exact Part.log _ _ _ _ d
      | true =>
          rw [expired, Bool.true_and] at fails
          cases time : json.getObjectItem "currentTime" with
          | none => exact Part.log _ _ _ _ d
          | some time' =>
              rw [time] at fails
              exact absurd fails (by simp)

/-- What is done for a reply with an event that passes. -/
theorem handleEvent_passes {json : Json} (passed : eventPasses json = true) (text : List UInt8) :
    handleEvent p json text = updateRegistered p json ∧ callsFor json "event" = 0 ∨
      (∃ valueint, handleEvent p json text =
        (do registerAgain p valueint; updateRegistered p json)) ∧ callsFor json "event" = 1 := by
  unfold handleEvent callsFor
  unfold eventPasses at passed
  cases found : json.getObjectItem "event" with
  | none => exact .inl ⟨rfl, rfl⟩
  | some event =>
      rw [found] at passed
      simp only [Bool.and_eq_true, Option.any_eq_true] at passed
      obtain ⟨⟨name, value, expired⟩, timed⟩ := passed
      obtain ⟨time, timed⟩ := Option.isSome_iff_exists.mp timed
      refine .inr ⟨⟨time.valueint, ?_⟩, rfl⟩
      dsimp only
      rw [value, startsWith_some, Action.pure_bind_eq, expired, if_pos rfl, timed]

/-- A reply whose event can be read comes to the device id if it passes; otherwise it ends
without an id. -/
theorem handleEvent_cases {json : Json} (readable : EventReadable json) (text : List UInt8)
    (d : Device) :
    Arrives p json (handleEvent p json text) d (callsBefore json) ∧ passes p json d = true ∨
      (∃ calls, Part (handleEvent p json text) d () calls) ∧ passes p json d = false := by
  unfold passes
  cases passed : eventPasses json with
  | false => exact .inr ⟨⟨0, part_handleEvent readable passed text d⟩, rfl⟩
  | true =>
      dsimp only
      rw [Bool.true_and]
      rcases handleEvent_passes (p := p) passed text with ⟨eq, none⟩ | ⟨⟨valueint, eq⟩, one⟩
      · rw [eq, callsBefore, none, Nat.add_zero, Nat.zero_add]
        rcases updateRegistered_cases (p := p) json d with ⟨arrives, dip, location⟩ | stays
        · exact .inl ⟨arrives, by rw [dip, location]; rfl⟩
        · exact .inr stays
      · have again := part_registerAgain (p := p) valueint d
        rw [eq, callsBefore, one]
        rcases updateRegistered_cases (p := p) json (registerAgain p valueint d).state with
          ⟨arrives, dip, location⟩ | ⟨⟨calls, stays⟩, fails⟩
        · rw [again.calls] at dip location
          refine .inl ⟨?_, by rw [dip, location]; rfl⟩
          rw [Nat.add_assoc]
          exact again.arrives _ arrives
        · rw [again.calls] at fails
          exact .inr ⟨⟨_, again.bind calls stays rfl⟩, fails⟩

/-! ## Printed strings -/

/-- A byte that is printed as it is. -/
def isPlain (b : UInt8) : Bool := 31 < b && b != 34 && b != 92

/-- The digit of `%04x`. -/
def hexDigit (n : UInt8) : UInt8 := if n < 10 then 48 + n else 87 + n

/-- What stands behind the backslash of a byte that is not plain. -/
def escapeCode (b : UInt8) : List UInt8 :=
  if b = 92 then [92]
  else if b = 34 then [34]
  else if b = 8 then [98]
  else if b = 12 then [102]
  else if b = 10 then [110]
  else if b = 13 then [114]
  else if b = 9 then [116]
  else [117, 48, 48, hexDigit (b >>> 4), hexDigit (b &&& 15)]

/-- The characters of a string as they are printed between the quotes. -/
def escape (text : List UInt8) : List UInt8 :=
  text.flatMap fun b => if isPlain b then [b] else 92 :: escapeCode b

/-- The library prints a string as its characters between quotes. -/
def PrintsStrings (lib : JsonLibrary) : Prop :=
  ∀ text, lib.print (.string text) = some (34 :: (escape (cstr text) ++ [34]))

theorem escape_cons_of_plain {b : UInt8} (plain : isPlain b = true) (text : List UInt8) :
    escape (b :: text) = b :: escape text := by
  simp [escape, plain]

theorem escape_cons_of_not_plain {b : UInt8} (special : isPlain b = false) (text : List UInt8) :
    escape (b :: text) = 92 :: (escapeCode b ++ escape text) := by
  simp [escape, special]

theorem length_le_escape (text : List UInt8) : text.length ≤ (escape text).length := by
  induction text with
  | nil => exact Nat.le_refl _
  | cons b text ih =>
      cases plain : isPlain b with
      | true =>
          rw [escape_cons_of_plain plain]
          exact Nat.succ_le_succ ih
      | false =>
          rw [escape_cons_of_not_plain plain, List.length_cons, List.length_cons,
            List.length_append]
          omega

/-- The characters are plain, up to backslashes at the end. -/
def PlainText (text : List UInt8) : Prop :=
  ∃ front count, text = front ++ List.replicate count 92 ∧ ∀ b ∈ front, isPlain b = true

/-- Behind backslashes, only backslashes are found where the characters are looked for. -/
theorem take_replicate_escape (text : List UInt8) (ahead : Nat) :
    (List.replicate (ahead + 1) 92 ++ escape text).take text.length = text ↔
      text = List.replicate text.length 92 := by
  induction text generalizing ahead with
  | nil => simp
  | cons b text ih =>
      rw [List.length_cons, List.replicate_succ, List.cons_append, List.take_succ_cons,
        List.replicate_succ, List.cons.injEq, List.cons.injEq]
      constructor
      · rintro ⟨rfl, same⟩
        have code : escape (92 :: text) = List.replicate 2 92 ++ escape text :=
          escape_cons_of_not_plain (by decide) text
        rw [code, ← List.append_assoc, ← List.replicate_add] at same
        exact ⟨rfl, (ih (ahead + 1)).mp same⟩
      · rintro ⟨rfl, same⟩
        have code : escape (92 :: text) = List.replicate 2 92 ++ escape text :=
          escape_cons_of_not_plain (by decide) text
        rw [code, ← List.append_assoc, ← List.replicate_add]
        exact ⟨rfl, (ih (ahead + 1)).mpr same⟩

/-- The printed characters begin with the characters themselves only in plain text. -/
theorem take_escape_iff (text : List UInt8) :
    (escape text).take text.length = text ↔ PlainText text := by
  induction text with
  | nil => exact ⟨fun _ => ⟨[], 0, rfl, fun _ mem => absurd mem List.not_mem_nil⟩, fun _ => rfl⟩
  | cons b text ih =>
      cases plain : isPlain b with
      | true =>
          rw [escape_cons_of_plain plain, List.length_cons, List.take_succ_cons, List.cons.injEq,
            ih]
          constructor
          · rintro ⟨-, front, count, rfl, all⟩
            exact ⟨b :: front, count, rfl, List.forall_mem_cons.mpr ⟨plain, all⟩⟩
          · rintro ⟨front, count, eq, all⟩
            cases front with
            | nil =>
                have slash : b = 92 := List.eq_of_mem_replicate (eq ▸ List.mem_cons_self)
                rw [slash] at plain
                exact absurd plain (by decide)
            | cons c front =>
                obtain ⟨rfl, rfl⟩ := List.cons.inj eq
                exact ⟨rfl, front, count, rfl, (List.forall_mem_cons.mp all).2⟩
      | false =>
          rw [escape_cons_of_not_plain plain, List.length_cons, List.take_succ_cons,
            List.cons.injEq]
          constructor
          · rintro ⟨rfl, same⟩
            have slashes := (take_replicate_escape text 0).mp same
            refine ⟨[], text.length + 1, ?_, fun _ mem => absurd mem List.not_mem_nil⟩
            rw [List.nil_append, List.replicate_succ, ← slashes]
          · rintro ⟨front, count, eq, all⟩
            cases front with
            | nil =>
                rw [List.nil_append] at eq
                obtain rfl : b = 92 := List.eq_of_mem_replicate (eq ▸ List.mem_cons_self)
                have slashes : text = List.replicate text.length 92 :=
                  List.eq_replicate_length.mpr fun c mem =>
                    List.eq_of_mem_replicate (eq ▸ List.mem_cons_of_mem _ mem)
                exact ⟨rfl, (take_replicate_escape text 0).mpr slashes⟩
            | cons c front =>
                obtain ⟨rfl, -⟩ := List.cons.inj eq
                rw [(List.forall_mem_cons.mp all).1] at plain
                exact absurd plain (by decide)

/-! ## The device id -/

/-- The device id of the reply is the text. -/
def HasDeviceId (json : Json) (text : List UInt8) : Prop :=
  ∃ value, json.getObjectItem "deviceId" = some (.string value) ∧ cstr value = text

/-- The device id comes to be stored: the reply has one, and none was stored before. -/
def Stores (json : Json) (d : Device) : Prop :=
  (json.getObjectItem "deviceId").isSome = true ∧ d.iotRegData.updated = false

theorem updateDeviceId_of_not_stores {json : Json} (stays : ¬ Stores json d) :
    updateDeviceId p json d = ⟨[], some (), d⟩ := by
  unfold updateDeviceId
  rw [Action.get_bind_apply]
  cases found : json.getObjectItem "deviceId" with
  | none => rfl
  | some item =>
      have updated : d.iotRegData.updated = true := by
        by_contra new
        exact stays ⟨by simp [found], Bool.eq_false_iff.mpr new⟩
      dsimp only
      rw [updated]
      rfl

/-- What is stored, and whether it is reported. -/
theorem updateDeviceId_of_stores {json item : Json} {printed : List UInt8}
    (found : json.getObjectItem "deviceId" = some item) (new : d.iotRegData.updated = false)
    (print : p.print item = some printed) :
    (updateDeviceId p json d).result = some () ∧
      (updateDeviceId p json d).state.iotRegData.deviceId = copiedDeviceId p printed ∧
      (updateDeviceId p json d).state.iotRegData.updated = true ∧
      (updateDeviceId p json d).outputs.countP Output.isRegistered =
        if p.succeeds d.calls then 1 else 0 := by
  unfold updateDeviceId
  rw [Action.get_bind_apply, found]
  dsimp only
  rw [new, print, if_neg Bool.false_ne_true]
  dsimp only
  rw [Action.modify_bind_apply]
  simp only [iotCommandSend, attempt, Action.bind_apply, Action.get, Action.modify,
    Action.pure_apply,
    Outcome.after]
  cases p.succeeds d.calls with
  | false => exact ⟨rfl, rfl, rfl, rfl⟩
  | true => exact ⟨rfl, rfl, rfl, rfl⟩

theorem length_copiedDeviceId (printed : List UInt8) (some : printed ≠ []) :
    (copiedDeviceId p printed).length = 36 := by
  have long := List.length_pos_iff.mpr some
  rw [copiedDeviceId, List.length_take, List.length_drop, List.length_append, List.length_cons,
    List.length_map, List.length_range]
  omega

/-- What is copied from a printed string with room for it. -/
theorem copiedDeviceId_of_long {text : List UInt8} (long : 36 ≤ (escape text).length) :
    copiedDeviceId p (34 :: (escape text ++ [34])) = (escape text).take 36 := by
  rw [copiedDeviceId, List.cons_append, List.drop_succ_cons, List.drop_zero, List.append_assoc,
    List.take_append_of_le_length long]

/-- The copied bytes are printed characters if there are enough of them. -/
theorem copiedDeviceId_prefix_iff (text : List UInt8) :
    copiedDeviceId p (34 :: (escape text ++ [34])) <+: escape text ↔
      36 ≤ (escape text).length := by
  constructor
  · intro inside
    have short := inside.length_le
    rwa [length_copiedDeviceId _ (List.cons_ne_nil _ _)] at short
  · intro long
    rw [copiedDeviceId_of_long long]
    exact List.take_prefix _ _

/-- The copied bytes are the string if it is plain. -/
theorem copiedDeviceId_eq_iff {text : List UInt8} (sized : text.length = 36) :
    copiedDeviceId p (34 :: (escape text ++ [34])) = text ↔ PlainText text := by
  rw [copiedDeviceId_of_long (sized ▸ length_le_escape text), ← sized]
  exact take_escape_iff text

/-- The number of times a run reports a registration. -/
def reports (r : Outcome Device Output Unit) : Nat := r.outputs.countP Output.isRegistered

/-- What a reply asks of its handler. -/
structure Safe (p : Platform) (d : Device) (payload : List UInt8) : Prop where
  /-- no string is read that is not there -/
  reads : (mqttRegSubCb p payload d).result ≠ none
  /-- what is stored are characters of the device id -/
  copies : d.iotRegData.updated = false →
    (mqttRegSubCb p payload d).state.iotRegData.updated = true →
    ∃ json text, p.parse (cstr payload) = some json ∧ HasDeviceId json text ∧
      (mqttRegSubCb p payload d).state.iotRegData.deviceId <+: escape text
  /-- a registration is reported for an id of 36 characters, which is stored -/
  complete : 0 < reports (mqttRegSubCb p payload d) →
    ∃ json text, p.parse (cstr payload) = some json ∧ HasDeviceId json text ∧ text.length = 36 ∧
      (mqttRegSubCb p payload d).state.iotRegData.deviceId = text
  /-- and once -/
  once : reports (mqttRegSubCb p payload d) + d.iotRegData.updated.toNat ≤
    (mqttRegSubCb p payload d).state.iotRegData.updated.toNat
  /-- a reply that does not get to its device id changes nothing about it -/
  stops : ∀ json, p.parse (cstr payload) = some json → passes p json d = false →
    (mqttRegSubCb p payload d).state.iotRegData.deviceId = d.iotRegData.deviceId ∧
      (mqttRegSubCb p payload d).state.iotRegData.updated = d.iotRegData.updated

/-- A reply that is handled as it should be: its event is a string, and if its device id
comes to be stored, it is a string of which 36 characters are printed. Where the report
finds memory, the string has 36 characters, and they are plain. -/
def WellFormed (p : Platform) (d : Device) (payload : List UInt8) : Prop :=
  ∀ json, p.parse (cstr payload) = some json →
    EventReadable json ∧ (passes p json d = true → Stores json d →
      ∃ text, HasDeviceId json text ∧ 36 ≤ (escape text).length ∧
        (p.succeeds (d.calls + callsBefore json) = true → text.length = 36 ∧ PlainText text))

theorem reports_eq_zero {r : Outcome Device Output Unit}
    (silent : ∀ o ∈ r.outputs, o.isRegistered = false) : reports r = 0 :=
  List.countP_eq_zero.mpr fun o mem => by simp [silent o mem]

/-- A reply that comes to nothing is handled as it should be. -/
theorem Part.safe {payload : List UInt8} {calls : Nat}
    (part : Part (mqttRegSubCb p payload) d () calls) : Safe p d payload := by
  have none : reports (mqttRegSubCb p payload d) = 0 := reports_eq_zero part.silent
  constructor
  · rw [part.result]
    exact Option.some_ne_none _
  · intro new stored
    rw [part.updated, new] at stored
    exact absurd stored Bool.false_ne_true
  · intro reported
    rw [none] at reported
    exact absurd reported (Nat.lt_irrefl 0)
  · rw [none, part.updated, Nat.zero_add]
  · exact fun _ _ _ => ⟨part.deviceId, part.updated⟩

theorem mqttRegSubCb_cases {json : Json} {payload : List UInt8}
    (read : p.parse (cstr payload) = some json) (readable : EventReadable json) (d : Device) :
    Arrives p json (mqttRegSubCb p payload) d (callsBefore json) ∧ passes p json d = true ∨
      (∃ calls, Part (mqttRegSubCb p payload) d () calls) ∧ passes p json d = false := by
  rw [mqttRegSubCb_some p read]
  have line := Part.log .info "mqtt_reg_sub_cb" "Registered MSG : %s" [.json json] d
  rcases handleEvent_cases (p := p) readable (cstr payload) d with
    ⟨arrives, passed⟩ | ⟨⟨calls, part⟩, fails⟩
  · refine .inl ⟨?_, passed⟩
    rw [← Nat.zero_add (callsBefore json)]
    exact line.arrives _ arrives
  · exact .inr ⟨⟨calls, line.bind calls part (Nat.zero_add _)⟩, fails⟩

theorem HasDeviceId.unique {json : Json} {text text' : List UInt8} (has : HasDeviceId json text)
    (other : HasDeviceId json text') : text' = text := by
  obtain ⟨value, found, rfl⟩ := has
  obtain ⟨value', found', rfl⟩ := other
  obtain rfl : value = value' := by simpa using found.symm.trans found'
  rfl

theorem HasDeviceId.printed {json item : Json} {text printed : List UInt8}
    (prints : PrintsStrings p.toJsonLibrary) (has : HasDeviceId json text)
    (found : json.getObjectItem "deviceId" = some item) (print : p.print item = some printed) :
    printed = 34 :: (escape text ++ [34]) := by
  obtain ⟨value, found', rfl⟩ := has
  obtain rfl : Json.string value = item := Option.some.inj (found'.symm.trans found)
  exact Option.some.inj (print.symm.trans (prints value))

/-- What the run leaves and reports when a device id is stored. -/
theorem Arrives.stored {json item : Json} {printed : List UInt8} {m : Act Unit} {calls : Nat}
    (arrives : Arrives p json m d calls) (found : json.getObjectItem "deviceId" = some item)
    (new : d.iotRegData.updated = false) (print : p.print item = some printed) :
    (m d).result = some () ∧ (m d).state.iotRegData.deviceId = copiedDeviceId p printed ∧
      (m d).state.iotRegData.updated = true ∧
      reports (m d) = if p.succeeds (d.calls + calls) then 1 else 0 := by
  obtain ⟨earlier, d', run, count, -, updated, silent⟩ := arrives
  obtain ⟨result, id, set, number⟩ :=
    updateDeviceId_of_stores found (updated.trans new) print
  have none : earlier.countP Output.isRegistered = 0 :=
    List.countP_eq_zero.mpr fun o mem => by simp [silent o mem]
  rw [reports, run, Outcome.after_outputs, List.countP_append, none, number, count, Nat.zero_add]
  exact ⟨result, id, set, rfl⟩

/-- A reply whose device id is stored. -/
theorem safe_iff_of_stores {json : Json} {payload : List UInt8}
    (prints : PrintsStrings p.toJsonLibrary) (read : p.parse (cstr payload) = some json)
    (arrives : Arrives p json (mqttRegSubCb p payload) d (callsBefore json))
    (passed : passes p json d = true) (stores : Stores json d) :
    Safe p d payload ↔ ∃ text, HasDeviceId json text ∧ 36 ≤ (escape text).length ∧
      (p.succeeds (d.calls + callsBefore json) = true → text.length = 36 ∧ PlainText text) := by
  obtain ⟨item, found⟩ := Option.isSome_iff_exists.mp stores.1
  have new := stores.2
  obtain ⟨printed, print⟩ := Option.isSome_iff_exists.mp (p.prints item)
  obtain ⟨result, stored, marked, all⟩ := arrives.stored found new print
  constructor
  · intro safe
    obtain ⟨json', text, read', has, inside⟩ := safe.copies new marked
    obtain rfl : json = json' := Option.some.inj (read.symm.trans read')
    rw [stored, has.printed prints found print, copiedDeviceId_prefix_iff] at inside
    refine ⟨text, has, inside, fun succeeds => ?_⟩
    have reported : 0 < reports (mqttRegSubCb p payload d) := by
      rw [all, if_pos succeeds]
      exact Nat.one_pos
    obtain ⟨json', text', read', has', sized, same⟩ := safe.complete reported
    obtain rfl : json = json' := Option.some.inj (read.symm.trans read')
    obtain rfl : text' = text := has.unique has'
    rw [stored, has.printed prints found print, copiedDeviceId_eq_iff sized] at same
    exact ⟨sized, same⟩
  · rintro ⟨text, has, long, whole⟩
    have eq := has.printed prints found print
    constructor
    · rw [result]
      exact Option.some_ne_none _
    · intro _ _
      refine ⟨json, text, read, has, ?_⟩
      rw [stored, eq]
      exact (copiedDeviceId_prefix_iff text).mpr long
    · intro reported
      have succeeds : p.succeeds (d.calls + callsBefore json) = true := by
        by_contra fails
        rw [all, if_neg fails] at reported
        exact absurd reported (Nat.lt_irrefl 0)
      obtain ⟨sized, plain⟩ := whole succeeds
      refine ⟨json, text, read, has, sized, ?_⟩
      rw [stored, eq]
      exact (copiedDeviceId_eq_iff sized).mpr plain
    · rw [all, new, marked]
      split
      · exact Nat.le_refl _
      · exact Nat.zero_le _
    · intro json' read' fails
      obtain rfl : json = json' := Option.some.inj (read.symm.trans read')
      rw [passed] at fails
      exact absurd fails (by decide)

/-- A reply that comes to its device id and does not store it. -/
theorem safe_of_not_stores {json : Json} {payload : List UInt8}
    (arrives : Arrives p json (mqttRegSubCb p payload) d (callsBefore json))
    (stays : ¬ Stores json d) : Safe p d payload := by
  obtain ⟨earlier, d', run, count, deviceId, updated, silent⟩ := arrives
  have stays : ¬ Stores json d' := by rwa [Stores, updated]
  rw [updateDeviceId_of_not_stores stays] at run
  have part : Part (mqttRegSubCb p payload) d () (callsBefore json) := by
    refine ⟨by rw [run]; rfl, by rw [run]; exact count, by rw [run]; exact deviceId,
      by rw [run]; exact updated, ?_⟩
    rw [run, Outcome.after_outputs, List.append_nil]
    exact silent
  exact part.safe

theorem part_of_unparsed {payload : List UInt8} (failed : p.parse (cstr payload) = none)
    (d : Device) : Part (mqttRegSubCb p payload) d () 0 := by
  rw [mqttRegSubCb_none p failed]
  exact Part.log _ _ _ _ d

theorem mqttRegSubCb_unreadable {json : Json} {payload : List UInt8}
    (read : p.parse (cstr payload) = some json) (unreadable : ¬ EventReadable json) (d : Device) :
    ∃ line, mqttRegSubCb p payload d = ⟨[.log line], none, d⟩ := by
  simp only [EventReadable, not_forall, not_not] at unreadable
  obtain ⟨event, found, value⟩ := unreadable
  rw [mqttRegSubCb_some p read]
  refine ⟨⟨.info, "mqtt_reg_sub_cb", "Registered MSG : %s", [.json json]⟩, ?_⟩
  unfold handleEvent
  rw [found]
  dsimp only
  rw [value]
  rfl

theorem safe_iff_wellFormed (prints : PrintsStrings p.toJsonLibrary) (d : Device)
    (payload : List UInt8) : Safe p d payload ↔ WellFormed p d payload := by
  cases read : p.parse (cstr payload) with
  | none =>
      refine ⟨fun _ json read' => ?_, fun _ => (part_of_unparsed read d).safe⟩
      rw [read] at read'
      exact absurd read' (by simp)
  | some json =>
      have known : WellFormed p d payload ↔
          EventReadable json ∧ (passes p json d = true → Stores json d →
            ∃ text, HasDeviceId json text ∧ 36 ≤ (escape text).length ∧
              (p.succeeds (d.calls + callsBefore json) = true →
                text.length = 36 ∧ PlainText text)) := by
        constructor
        · exact fun wellFormed => wellFormed json read
        · intro here json' read'
          obtain rfl : json = json' := Option.some.inj (read.symm.trans read')
          exact here
      rw [known]
      by_cases readable : EventReadable json
      · rcases mqttRegSubCb_cases read readable d with ⟨arrives, passed⟩ | ⟨⟨calls, part⟩, fails⟩
        · by_cases stores : Stores json d
          · rw [safe_iff_of_stores prints read arrives passed stores]
            exact ⟨fun here => ⟨readable, fun _ _ => here⟩, fun here => here.2 passed stores⟩
          · refine ⟨fun _ => ⟨readable, fun _ stores' => absurd stores' stores⟩, fun _ => ?_⟩
            exact safe_of_not_stores arrives stores
        · refine ⟨fun _ => ⟨readable, fun passed => ?_⟩, fun _ => part.safe⟩
          rw [fails] at passed
          exact absurd passed (by decide)
      · refine ⟨fun safe => ?_, fun here => absurd here.1 readable⟩
        obtain ⟨line, run⟩ := mqttRegSubCb_unreadable read readable d
        refine absurd ?_ safe.reads
        rw [run]

/-! ## Replies one after another -/

/-- However a reply is handled, it is reported at most once, and only if no id was stored
before and one is afterwards. -/
theorem reports_add_le (p : Platform) (d : Device) (payload : List UInt8) :
    reports (mqttRegSubCb p payload d) + d.iotRegData.updated.toNat ≤
      (mqttRegSubCb p payload d).state.iotRegData.updated.toNat := by
  cases read : p.parse (cstr payload) with
  | none => exact (part_of_unparsed read d).safe.once
  | some json =>
      by_cases readable : EventReadable json
      · rcases mqttRegSubCb_cases read readable d with ⟨arrives, passed⟩ | ⟨⟨calls, part⟩, -⟩
        · by_cases stores : Stores json d
          · obtain ⟨item, found⟩ := Option.isSome_iff_exists.mp stores.1
            obtain ⟨printed, print⟩ := Option.isSome_iff_exists.mp (p.prints item)
            obtain ⟨-, -, marked, all⟩ := arrives.stored found stores.2 print
            rw [all, stores.2, marked]
            split
            · exact Nat.le_refl _
            · exact Nat.zero_le _
          · exact (safe_of_not_stores arrives stores).once
        · exact part.safe.once
      · obtain ⟨line, run⟩ := mqttRegSubCb_unreadable read readable d
        rw [run]
        exact Nat.le_of_eq (Nat.zero_add _)

/-- Replies as they come in. -/
def replies (p : Platform) : List (List UInt8) → Act Unit
  | [] => pure ()
  | payload :: payloads => do
      mqttRegSubCb p payload
      replies p payloads

/-- A registration is reported at most once while the device id stays. -/
theorem reports_replies_le (p : Platform) (d : Device) (payloads : List (List UInt8)) :
    reports (replies p payloads d) + d.iotRegData.updated.toNat ≤ 1 := by
  have bound (b : Bool) : b.toNat ≤ 1 := Bool.toNat_le b
  induction payloads generalizing d with
  | nil =>
      show 0 + d.iotRegData.updated.toNat ≤ 1
      rw [Nat.zero_add]
      exact bound _
  | cons payload payloads ih =>
      have first := reports_add_le p d payload
      have last := bound (mqttRegSubCb p payload d).state.iotRegData.updated
      rw [replies, Action.bind_apply]
      cases ended : (mqttRegSubCb p payload d).result with
      | none => exact first.trans last
      | some value =>
          have later := ih (mqttRegSubCb p payload d).state
          rw [reports, Outcome.after_outputs, List.countP_append]
          rw [reports] at first later
          omega

/-- The handler does what it should with a reply if and only if the reply is well formed,
and whatever the replies are, a registration is reported at most once while the device id
stays. -/
theorem replies_handled (p : Platform) (prints : PrintsStrings p.toJsonLibrary) :
    (∀ d payload, Safe p d payload ↔ WellFormed p d payload) ∧
      ∀ d payloads, reports (replies p payloads d) + d.iotRegData.updated.toNat ≤ 1 :=
  ⟨safe_iff_wellFormed prints, reports_replies_le p⟩

section Example

/-- A reply with nothing but a device id. -/
def idReply (id : String) : Json := .object [(ascii "deviceId", .string (ascii id))]

def idReplyText (id : String) : List UInt8 := ascii ("\x7b\"deviceId\":\"" ++ id ++ "\"\x7d")

/-- The library for such a reply. -/
def idPlatform (id : String) : Platform where
  parse text := if text = idReplyText id then some (idReply id) else none
  print := fun
    | .string text => some (34 :: (escape (cstr text) ++ [34]))
    | _ => some (ascii ("\x7b\n\t\"deviceId\":\t\"" ++ id ++ "\"\n\x7d"))
  prints json := by cases json <;> rfl
  succeeds _ := true
  heap _ := 0
  debug := false

theorem idPlatform_prints (id : String) : PrintsStrings (idPlatform id).toJsonLibrary :=
  fun _ => rfl

/-- A device that waits for its id. -/
def unregistered : Device where
  signUpStatus := .success
  signInStatus := .waiting
  iotRegData := ⟨none, none, [], false, true⟩
  rateLimit := false
  rateLimitTimeout := false
  capHandleList := []
  notiCb := false
  calls := 0

def wholeId : String := "42365732-c6db-4bc9-8945-2a7ca10d6f23"

theorem replies_handled_wholeId :
    Safe (idPlatform wholeId) unregistered (idReplyText wholeId) ∧
      reports (replies (idPlatform wholeId) [idReplyText wholeId, idReplyText wholeId]
        unregistered) + unregistered.iotRegData.updated.toNat ≤ 1 := by
  obtain ⟨single, run⟩ := replies_handled (idPlatform wholeId) (idPlatform_prints wholeId)
  refine ⟨(single _ _).mpr fun json read => ?_, run unregistered _⟩
  obtain rfl : idReply wholeId = json := Option.some.inj read
  have none : (idReply wholeId).getObjectItem "event" = none := rfl
  refine ⟨fun event found => ?_, fun _ _ => ⟨ascii wholeId, ?_, ?_, ?_⟩⟩
  · exact absurd (none.symm.trans found) (by simp)
  · exact ⟨_, rfl, by decide⟩
  · exact (by decide : 36 ≤ (ascii wholeId).length).trans (length_le_escape _)
  · exact fun _ => ⟨by decide, ascii wholeId, 0, (List.append_nil _).symm,
      List.all_eq_true.mp (by decide)⟩

/-- An id of one character is stored with 35 bytes from elsewhere, and reported. -/
theorem not_safe_shortId : ¬ Safe (idPlatform "a") unregistered (idReplyText "a") := by
  intro safe
  have fine := (safe_iff_wellFormed (idPlatform_prints "a") _ _).mp safe
  obtain ⟨text, has, long, -⟩ := (fine (idReply "a") rfl).2 rfl ⟨rfl, rfl⟩
  obtain rfl : text = ascii "a" := HasDeviceId.unique ⟨_, rfl, by decide⟩ has
  exact absurd long (by decide)

end Example

end StDevice.Delivered
