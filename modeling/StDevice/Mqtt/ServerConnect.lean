import StDevice.Mqtt.Server

/-!
# The server's half of a connection

The reader of a connect packet takes its flags at their word and looks for the strings that
they announce. It refuses a password without a user name, which the client writes without a
complaint, and it asks for three bytes where a name or a password starts: an empty one at the
end of the packet has only two.
-/

namespace StDevice.Mqtt

/-- `min(a, b)` of the server. -/
def minLen (n len : Nat) : Nat := if n < len then n else len

/-- `MQTTPacket_checkVersion`: the name is compared up to its own length. -/
def mqttPacketCheckVersion (protocol : List UInt8) (version : UInt8) : Bool :=
  let matchesName (name : List UInt8) :=
    protocol.take (minLen name.length protocol.length) ==
      name.take (minLen name.length protocol.length)
  if version = 3 ∧ matchesName [77, 81, 73, 115, 100, 112] then true
  else version = 4 ∧ matchesName [77, 81, 84, 84]

/-- The bits of `MQTTConnectFlags`. -/
def flagBit (flags : UInt8) (bit : Nat) : Bool := flags.toNat / 2 ^ bit % 2 == 1

/-- The fields of `MQTTPacket_connectData` that the reader sets. A string whose reading fails
is left out. -/
structure ConnectRead where
  cleansession : Option Nat := none
  keepAliveInterval : Option Nat := none
  clientID : Option Counted := none
  willFlag : Option Nat := none
  willQos : Option Nat := none
  willRetained : Option Nat := none
  willTopicName : Option Counted := none
  willMessage : Option Counted := none
  username : Option Counted := none
  password : Option Counted := none
  deriving DecidableEq, Repr

/-- What a part of the reader comes back with: the result of the whole function, or the place
where the next part goes on. -/
abbrev Part := Except (Nat × ConnectRead) (Nat × ConnectRead)

/-- The topic and the message of the will. -/
def readWill (chunk : List UInt8) (enddata curdata : Nat) (flags : UInt8) (data : ConnectRead) :
    Option Part := do
  let data := { data with willFlag := some (flagBit flags 2).toNat }
  if flagBit flags 2 then
    let data := { data with
      willQos := some (flags.toNat / 8 % 4)
      willRetained := some (flagBit flags 5).toNat }
    match ← readCounted chunk curdata enddata with
    | none => pure (.error (0, data))
    | some (topicName, curdata) =>
        let data := { data with willTopicName := some topicName }
        match ← readCounted chunk curdata enddata with
        | none => pure (.error (0, data))
        | some (message, curdata) =>
            pure (.ok (curdata, { data with willMessage := some message }))
  else pure (.ok (curdata, data))

/-- A string that has to be there: three bytes at least are left for it. -/
def readCredential (chunk : List UInt8) (enddata curdata : Nat) : Option (Option (Counted × Nat)) :=
  if (enddata : Int) - curdata < 3 then some none else readCounted chunk curdata enddata

/-- The user name and the password. -/
def readCredentials (chunk : List UInt8) (enddata curdata : Nat) (flags : UInt8)
    (data : ConnectRead) : Option (Nat × ConnectRead) := do
  if flagBit flags 7 then
    match ← readCredential chunk enddata curdata with
    | none => pure (0, data)
    | some (username, curdata) =>
        let data := { data with username := some username }
        if flagBit flags 6 then
          match ← readCredential chunk enddata curdata with
          | none => pure (0, data)
          | some (password, _) => pure (1, { data with password := some password })
        else pure (1, data)
  else if flagBit flags 6 then pure (0, data)
  else pure (1, data)

/-- `MQTTDeserialize_connect` on a buffer of `len` bytes. The remaining length is read and not
used. -/
def mqttDeserializeConnect (chunk : List UInt8) : Option (Nat × ConnectRead) := do
  let enddata := chunk.length
  let (header, curdata) ← readChar chunk 0
  if packetType header ≠ MsgType.connect.code then pure (0, {})
  else
    let (n, _) ← mqttPacketDecodeBuf chunk curdata
    match ← readCounted chunk (curdata + n) enddata with
    | none => pure (0, {})
    | some (protocol, curdata) =>
        let (version, curdata) ← readChar chunk curdata
        if mqttPacketCheckVersion (protocol.bytes chunk) version then
          let (flags, curdata) ← readChar chunk curdata
          let (keepAliveInterval, curdata) ← readInt chunk curdata
          let data : ConnectRead :=
            { cleansession := some (flagBit flags 1).toNat
              keepAliveInterval := some keepAliveInterval }
          match ← readCounted chunk curdata enddata with
          | none => pure (0, data)
          | some (clientID, curdata) =>
              match ← readWill chunk enddata curdata flags
                  { data with clientID := some clientID } with
              | .error result => pure result
              | .ok (curdata, data) => readCredentials chunk enddata curdata flags data
        else pure (0, {})

/-! ## Reading what the client wrote -/

namespace MqttConnectData

/-- Every string has one form at most, and a length that two bytes can hold. -/
structure Regular (options : MqttConnectData) : Prop where
  version : options.mqttVersion = 3 ∨ options.mqttVersion = 4
  single : ∀ s ∈ [options.clientID, options.will.topicName, options.will.message,
    options.username, options.password], s.Single ∧ s.bytes.length ≤ 65535

variable (options : MqttConnectData)

/-- The credentials that the server lets pass. -/
def CredentialsPass : Prop :=
  (options.password.present = true →
      options.username.present = true ∧ options.password.bytes ≠ []) ∧
    (options.username.present = true → options.password.present = false →
      options.username.bytes ≠ [])

end MqttConnectData

/-- The counted string spells the bytes. -/
def Counted.Spells (chunk : List UInt8) (read : Option Counted) (bytes : List UInt8) : Prop :=
  ∃ s, read = some s ∧ s.bytes chunk = bytes

/-- The fields hold what the client was asked to write, as far as the packet has room for it. -/
structure ConnectRead.Holds (data : ConnectRead) (chunk : List UInt8)
    (options : MqttConnectData) : Prop where
  cleansession : data.cleansession = some (options.cleansession.toNat % 2)
  keepAlive : data.keepAliveInterval = some options.keepAliveInterval.toNat
  clientID : Counted.Spells chunk data.clientID options.clientID.bytes
  willFlag : data.willFlag = some (decide (options.willFlag ≠ 0)).toNat
  will : options.willFlag ≠ 0 →
    data.willQos = some (options.will.qos.toNat % 4) ∧
      data.willRetained = some (options.will.retained.toNat % 2) ∧
      Counted.Spells chunk data.willTopicName options.will.topicName.bytes ∧
      Counted.Spells chunk data.willMessage options.will.message.bytes
  noWill : options.willFlag = 0 → data.willTopicName = none ∧ data.willMessage = none
  username : if options.username.present
    then Counted.Spells chunk data.username options.username.bytes else data.username = none
  password : if options.password.present
    then Counted.Spells chunk data.password options.password.bytes else data.password = none

section Flags

variable (options : MqttConnectData)

/-- The flags as a number: every field keeps to its own bits. -/
theorem connectFlags_toNat :
    (connectFlags options).toNat = options.cleansession.toNat % 2 * 2 +
      (if options.willFlag ≠ 0 then
        4 + options.will.qos.toNat % 4 * 8 + options.will.retained.toNat % 2 * 32 else 0) +
      (if options.password.present then 64 else 0) +
        if options.username.present then 128 else 0 := by
  rw [connectFlags, UInt8.toNat_ofNat', Nat.mod_eq_of_lt]
  split_ifs <;> omega

theorem connectFlags_cleansession :
    (flagBit (connectFlags options) 1).toNat = options.cleansession.toNat % 2 := by
  rcases Nat.mod_two_eq_zero_or_one options.cleansession.toNat with clear | set
  · have bit : flagBit (connectFlags options) 1 = false := by
      rw [flagBit, connectFlags_toNat, clear, beq_eq_false_iff_ne]
      split_ifs <;> omega
    rw [bit, clear]
    rfl
  · have bit : flagBit (connectFlags options) 1 = true := by
      rw [flagBit, connectFlags_toNat, set, beq_iff_eq]
      split_ifs <;> omega
    rw [bit, set]
    rfl

theorem connectFlags_will :
    flagBit (connectFlags options) 2 = decide (options.willFlag ≠ 0) := by
  by_cases will : options.willFlag ≠ 0
  · rw [flagBit, connectFlags_toNat, if_pos will, decide_eq_true will, beq_iff_eq]
    split_ifs <;> omega
  · rw [flagBit, connectFlags_toNat, if_neg will, decide_eq_false will, beq_eq_false_iff_ne]
    split_ifs <;> omega

theorem connectFlags_willQos (will : options.willFlag ≠ 0) :
    (connectFlags options).toNat / 8 % 4 = options.will.qos.toNat % 4 := by
  rw [connectFlags_toNat, if_pos will]
  split_ifs <;> omega

theorem connectFlags_willRetained (will : options.willFlag ≠ 0) :
    (flagBit (connectFlags options) 5).toNat = options.will.retained.toNat % 2 := by
  rcases Nat.mod_two_eq_zero_or_one options.will.retained.toNat with clear | set
  · have bit : flagBit (connectFlags options) 5 = false := by
      rw [flagBit, connectFlags_toNat, if_pos will, clear, beq_eq_false_iff_ne]
      split_ifs <;> omega
    rw [bit, clear]
    rfl
  · have bit : flagBit (connectFlags options) 5 = true := by
      rw [flagBit, connectFlags_toNat, if_pos will, set, beq_iff_eq]
      split_ifs <;> omega
    rw [bit, set]
    rfl

theorem connectFlags_password :
    flagBit (connectFlags options) 6 = options.password.present := by
  cases present : options.password.present with
  | true =>
      rw [flagBit, connectFlags_toNat, if_pos present, beq_iff_eq]
      split_ifs <;> omega
  | false =>
      rw [flagBit, connectFlags_toNat, present, beq_eq_false_iff_ne]
      simp only [Bool.false_eq_true, if_false]
      split_ifs <;> omega

theorem connectFlags_username :
    flagBit (connectFlags options) 7 = options.username.present := by
  cases present : options.username.present with
  | true =>
      rw [flagBit, connectFlags_toNat, if_pos present, beq_iff_eq]
      split_ifs <;> omega
  | false =>
      rw [flagBit, connectFlags_toNat, present, beq_eq_false_iff_ne]
      simp only [Bool.false_eq_true, if_false]
      split_ifs <;> omega

end Flags

/-- A string that the packet holds only when a flag announces it. -/
def optionalBytes (present : Bool) (data : List UInt8) : List UInt8 :=
  if present then countedBytes data else []

section Parts

variable {chunk rest topic message : List UInt8} {curdata : Nat} {flags : UInt8}

theorem add_le_of_drop {piece : List UInt8} (start : curdata ≤ chunk.length)
    (here : chunk.drop curdata = piece ++ rest) : curdata + piece.length ≤ chunk.length := by
  have size := add_length_le start here
  omega

theorem drop_succ_of_drop {c : UInt8} (here : chunk.drop curdata = c :: rest) :
    chunk.drop (curdata + 1) = rest := by
  rw [← List.drop_drop, here]
  rfl

/-- A string at a place of the packet. -/
theorem readCounted_at {data : List UInt8} (fits : data.length ≤ 65535)
    (start : curdata ≤ chunk.length) (here : chunk.drop curdata = countedBytes data ++ rest) :
    ∃ s : Counted, s.bytes chunk = data ∧
      readCounted chunk curdata chunk.length =
        some (some (s, curdata + (countedBytes data).length)) := by
  have inside := add_le_of_drop start here
  rw [countedBytes_length] at inside
  obtain ⟨read, bytes⟩ := readCounted_of_drop fits here inside
  refine ⟨_, bytes, ?_⟩
  rw [countedBytes_length]
  exact read

theorem readWill_of_absent (clear : flagBit flags 2 = false) (data : ConnectRead) (enddata : Nat) :
    readWill chunk enddata curdata flags data =
      some (.ok (curdata, { data with willFlag := some 0 })) := by
  rw [readWill, clear]
  rfl

/-- The will is read where the flags announce it. -/
theorem readWill_of_drop (set : flagBit flags 2 = true) (topicFits : topic.length ≤ 65535)
    (messageFits : message.length ≤ 65535) (start : curdata ≤ chunk.length)
    (here : chunk.drop curdata = countedBytes topic ++ (countedBytes message ++ rest))
    (data : ConnectRead) :
    ∃ topicName willMessage : Counted,
      topicName.bytes chunk = topic ∧ willMessage.bytes chunk = message ∧
      readWill chunk chunk.length curdata flags data =
        some (.ok (curdata + (countedBytes topic).length + (countedBytes message).length,
          { data with
            willFlag := some 1
            willQos := some (flags.toNat / 8 % 4)
            willRetained := some (flagBit flags 5).toNat
            willTopicName := some topicName
            willMessage := some willMessage })) := by
  obtain ⟨topicName, topicBytes, topicRead⟩ := readCounted_at topicFits start here
  have behind := drop_add_of_drop here
  obtain ⟨willMessage, messageBytes, messageRead⟩ :=
    readCounted_at messageFits (add_le_of_drop start here) behind
  refine ⟨topicName, willMessage, topicBytes, messageBytes, ?_⟩
  rw [readWill, set]
  simp only [if_true, topicRead, messageRead, Option.bind_eq_bind, Option.bind_some,
    Option.pure_def, Bool.toNat_true]

/-- The three bytes that have to be left for a string are the length and one more. -/
theorem readCredential_of_drop {data : List UInt8} (fits : data.length ≤ 65535)
    (start : curdata ≤ chunk.length) (here : chunk.drop curdata = countedBytes data ++ rest) :
    ∃ s : Counted, s.bytes chunk = data ∧
      readCredential chunk chunk.length curdata =
        if data = [] ∧ rest = [] then some none
        else some (some (s, curdata + (countedBytes data).length)) := by
  obtain ⟨s, bytes, read⟩ := readCounted_at fits start here
  refine ⟨s, bytes, ?_⟩
  have size := add_length_le start here
  rw [countedBytes_length] at size
  rw [readCredential, read]
  by_cases empty : data = [] ∧ rest = []
  · rw [if_pos empty]
    rw [empty.1, empty.2, List.length_nil] at size
    rw [if_pos (by omega)]
  · rw [if_neg empty, if_neg]
    intro short
    refine empty ⟨List.eq_nil_of_length_eq_zero (by omega), ?_⟩
    exact List.eq_nil_of_length_eq_zero (by omega)

/-- The flags and the strings of the credentials agree. -/
theorem readCredentials_of_drop {username password : List UInt8} {hasName hasPassword : Bool}
    (nameFlag : flagBit flags 7 = hasName) (passwordFlag : flagBit flags 6 = hasPassword)
    (nameFits : username.length ≤ 65535) (passwordFits : password.length ≤ 65535)
    (start : curdata ≤ chunk.length)
    (here : chunk.drop curdata =
      optionalBytes hasName username ++ optionalBytes hasPassword password)
    {data : ConnectRead} (noName : data.username = none) (noPassword : data.password = none) :
    ∃ rc read, readCredentials chunk chunk.length curdata flags data = some (rc, read) ∧
      (rc = 1 ↔ (hasPassword = true → hasName = true ∧ password ≠ []) ∧
        (hasName = true → hasPassword = false → username ≠ [])) ∧
      (rc = 1 → ∃ name pass, read = { data with username := name, password := pass } ∧
        (if hasName then Counted.Spells chunk name username else name = none) ∧
        (if hasPassword then Counted.Spells chunk pass password else pass = none)) := by
  rw [readCredentials, nameFlag, passwordFlag]
  cases hasName with
  | false =>
      cases hasPassword with
      | false =>
          refine ⟨1, data, rfl, by simp, ?_⟩
          intro _
          exact ⟨data.username, data.password, rfl, noName, noPassword⟩
      | true => exact ⟨0, data, rfl, by simp, by simp⟩
  | true =>
      obtain ⟨name, nameBytes, nameRead⟩ := readCredential_of_drop nameFits start here
      cases hasPassword with
      | false =>
          change _ = if username = [] ∧ [] = [] then _ else _ at nameRead
          by_cases empty : username = []
          · rw [if_pos ⟨empty, rfl⟩] at nameRead
            refine ⟨0, data, ?_, by simp [empty], by simp⟩
            simp only [if_true, nameRead, Option.bind_eq_bind, Option.bind_some, Option.pure_def]
          · rw [if_neg fun both => empty both.1] at nameRead
            refine ⟨1, { data with username := some name }, ?_, by simp [empty], ?_⟩
            · simp only [if_true, nameRead, Option.bind_eq_bind, Option.bind_some, Option.pure_def,
                Bool.false_eq_true, if_false]
            · intro _
              exact ⟨some name, data.password, rfl, ⟨name, rfl, nameBytes⟩, noPassword⟩
      | true =>
          have more : optionalBytes true password ≠ [] := by
            intro empty
            have size := congrArg List.length empty
            change (countedBytes password).length = 0 at size
            rw [countedBytes_length] at size
            omega
          rw [if_neg fun both => more both.2] at nameRead
          have behind : chunk.drop (curdata + (countedBytes username).length) =
              countedBytes password ++ [] := (drop_add_of_drop here).trans (List.append_nil _).symm
          have inside : curdata + (countedBytes username).length ≤ chunk.length :=
            add_le_of_drop start here
          obtain ⟨pass, passBytes, passRead⟩ := readCredential_of_drop passwordFits inside behind
          by_cases empty : password = []
          · rw [if_pos ⟨empty, rfl⟩] at passRead
            refine ⟨0, { data with username := some name }, ?_, by simp [empty], by simp⟩
            simp only [if_true, nameRead, passRead, Option.bind_eq_bind, Option.bind_some,
              Option.pure_def]
          · rw [if_neg fun both => empty both.1] at passRead
            refine ⟨1, { data with username := some name, password := some pass }, ?_,
              by simp [empty], ?_⟩
            · simp only [if_true, nameRead, passRead, Option.bind_eq_bind, Option.bind_some,
                Option.pure_def]
            · intro _
              exact ⟨some name, some pass, rfl, ⟨name, rfl, nameBytes⟩, ⟨pass, rfl, passBytes⟩⟩

end Parts

namespace MqttConnectData

variable {options : MqttConnectData}

theorem Regular.string (regular : options.Regular) {s : MqttString}
    (mem : s ∈ [options.clientID, options.will.topicName, options.will.message,
      options.username, options.password]) :
    writeMqttString s = countedBytes s.bytes ∧ s.bytes.length ≤ 65535 := by
  obtain ⟨single, fits⟩ := regular.single s mem
  exact ⟨single.written, fits⟩

/-- The protocol name and level that the client writes are the ones that the server knows. -/
theorem Regular.protocol (regular : options.Regular) :
    ∃ name level, protocolName options = countedBytes name ++ [level] ∧
      name.length ≤ 65535 ∧ mqttPacketCheckVersion name level = true ∧
      (countedBytes name).length + 4 =
        if options.mqttVersion = 3 then 12 else if options.mqttVersion = 4 then 10 else 0 := by
  rcases regular.version with three | four
  · refine ⟨[77, 81, 73, 115, 100, 112], 3, ?_, by decide, by decide, ?_⟩
    · rw [protocolName, three]
      rfl
    · rw [three]
      rfl
  · refine ⟨[77, 81, 84, 84], 4, ?_, by decide, by decide, ?_⟩
    · rw [protocolName, four]
      rfl
    · rw [four]
      rfl

/-- The strings of the will. -/
def willBytes (options : MqttConnectData) : List UInt8 :=
  if options.willFlag ≠ 0 then
    countedBytes options.will.topicName.bytes ++ countedBytes options.will.message.bytes
  else []

/-- The strings of the credentials. -/
def credentialBytes (options : MqttConnectData) : List UInt8 :=
  optionalBytes options.username.present options.username.bytes ++
    optionalBytes options.password.present options.password.bytes

/-- What the client writes behind the length, one field after the other. -/
theorem Regular.body (regular : options.Regular) {name : List UInt8} {level : UInt8}
    (protocol : protocolName options = countedBytes name ++ [level]) :
    connectBody options = countedBytes name ++ (level :: connectFlags options ::
      (writeInt options.keepAliveInterval.toNat ++ (countedBytes options.clientID.bytes ++
        (options.willBytes ++ options.credentialBytes)))) := by
  have optional : ∀ s : MqttString, writeMqttString s = countedBytes s.bytes →
      (if s.present then writeMqttString s else []) = optionalBytes s.present s.bytes := by
    intro s written
    rw [written, optionalBytes]
  have client := (regular.string (s := options.clientID) (by simp)).1
  have topic := (regular.string (s := options.will.topicName) (by simp)).1
  have message := (regular.string (s := options.will.message) (by simp)).1
  have username := (regular.string (s := options.username) (by simp)).1
  have password := (regular.string (s := options.password) (by simp)).1
  rw [connectBody, protocol, client, topic, message, optional _ username, optional _ password]
  simp only [willBytes, credentialBytes, List.append_assoc, List.cons_append, List.nil_append]

theorem optionalBytes_length (present : Bool) (data : List UInt8) :
    (optionalBytes present data).length = if present then data.length + 2 else 0 := by
  cases present with
  | false => rfl
  | true =>
      change (countedBytes data).length = data.length + 2
      rw [countedBytes_length, Nat.add_comm]

theorem Regular.body_length (regular : options.Regular) :
    (connectBody options).length = mqttSerializeConnectLength options := by
  obtain ⟨name, level, protocol, -, -, size⟩ := regular.protocol
  rw [regular.body protocol, mqttSerializeConnectLength, ← size]
  simp only [List.length_append, List.length_cons, writeInt_length, countedBytes_length, willBytes,
    credentialBytes, optionalBytes_length, MqttString.strlen_eq]
  split_ifs
  all_goals
    simp only [List.length_append, countedBytes_length, List.length_nil]
    omega

theorem Regular.body_limit (regular : options.Regular) :
    (connectBody options).length ≤ 268435455 := by
  obtain ⟨name, level, protocol, nameFits, -, -⟩ := regular.protocol
  have client := (regular.string (s := options.clientID) (by simp)).2
  have topic := (regular.string (s := options.will.topicName) (by simp)).2
  have message := (regular.string (s := options.will.message) (by simp)).2
  have username := (regular.string (s := options.username) (by simp)).2
  have password := (regular.string (s := options.password) (by simp)).2
  rw [regular.body protocol]
  simp only [List.length_append, List.length_cons, writeInt_length, countedBytes_length, willBytes,
    credentialBytes, optionalBytes_length]
  split_ifs
  all_goals
    simp only [List.length_append, countedBytes_length, List.length_nil]
    omega

end MqttConnectData

section Connecting

variable {options : MqttConnectData}

/-- Behind the protocol name and the level lie the fields. -/
structure AtFields (chunk : List UInt8) (options : MqttConnectData) (curdata : Nat) : Prop where
  start : curdata ≤ chunk.length
  here : chunk.drop curdata = connectFlags options ::
    (writeInt options.keepAliveInterval.toNat ++ (countedBytes options.clientID.bytes ++
      (options.willBytes ++ options.credentialBytes)))

/-- The reader comes to the flags of every packet that the client writes. -/
theorem deserializeConnect_at_fields (regular : options.Regular) {chunk : List UInt8} {n : Nat}
    (first : byteAt chunk 0 = some (mqttHeader .connect 0 0 0))
    (decoded : mqttPacketDecodeBuf chunk 1 = some (n, (connectBody options).length))
    (start : 1 + n ≤ chunk.length) (body : chunk.drop (1 + n) = connectBody options) :
    ∃ curdata, AtFields chunk options curdata ∧
      mqttDeserializeConnect chunk = (do
        let (flags, curdata) ← readChar chunk curdata
        let (keepAliveInterval, curdata) ← readInt chunk curdata
        let data : ConnectRead :=
          { cleansession := some (flagBit flags 1).toNat
            keepAliveInterval := some keepAliveInterval }
        match ← readCounted chunk curdata chunk.length with
        | none => pure (0, data)
        | some (clientID, curdata) =>
            match ← readWill chunk chunk.length curdata flags
                { data with clientID := some clientID } with
            | .error result => pure result
            | .ok (curdata, data) => readCredentials chunk chunk.length curdata flags data) := by
  obtain ⟨name, level, protocol, nameFits, version, -⟩ := regular.protocol
  rw [regular.body protocol] at body
  obtain ⟨s, bytes, nameRead⟩ := readCounted_at nameFits start body
  have atLevel := drop_add_of_drop body
  have levelRead := readChar_of_drop atLevel
  have header : readChar chunk 0 = some (mqttHeader .connect 0 0 0, 1) := by
    rw [readChar, first]
    rfl
  have type : packetType (mqttHeader .connect 0 0 0) = MsgType.connect.code := by decide
  refine ⟨1 + n + (countedBytes name).length + 1, ⟨?_, drop_succ_of_drop atLevel⟩, ?_⟩
  · have size := add_length_le start body
    rw [List.length_cons] at size
    omega
  · rw [mqttDeserializeConnect, header]
    simp only [Option.bind_eq_bind, Option.bind_some, Option.pure_def, ne_eq, type,
      not_true_eq_false, if_false, decoded, nameRead, levelRead, bytes, version, if_true]

/-- The reader of the fields. -/
theorem readFields_at {chunk : List UInt8} {curdata : Nat} (regular : options.Regular)
    (fields : AtFields chunk options curdata) :
    ∃ clientID : Counted, ∃ next, clientID.bytes chunk = options.clientID.bytes ∧
      next ≤ chunk.length ∧ chunk.drop next = options.willBytes ++ options.credentialBytes ∧
      readChar chunk curdata = some (connectFlags options, curdata + 1) ∧
      readInt chunk (curdata + 1) = some (options.keepAliveInterval.toNat, curdata + 1 + 2) ∧
      readCounted chunk (curdata + 1 + 2) chunk.length = some (some (clientID, next)) := by
  have keepFits : options.keepAliveInterval.toNat ≤ 65535 := by
    have below := options.keepAliveInterval.toNat_lt
    omega
  have clientFits := (regular.string (s := options.clientID) (by simp)).2
  have atKeep := drop_succ_of_drop fields.here
  have atClient := drop_add_of_drop atKeep
  rw [writeInt_length] at atClient
  have start : curdata + 1 + 2 ≤ chunk.length := by
    have size := congrArg List.length fields.here
    rw [List.length_drop, List.length_cons, List.length_append, writeInt_length] at size
    omega
  obtain ⟨clientID, bytes, read⟩ := readCounted_at clientFits start atClient
  exact ⟨clientID, _, bytes, add_le_of_drop start atClient, drop_add_of_drop atClient,
    readChar_of_drop fields.here, readInt_of_drop keepFits atKeep, read⟩

/-- The will of the packet is read, and the credentials come next. -/
theorem readWill_at {chunk : List UInt8} {curdata : Nat} (regular : options.Regular)
    (start : curdata ≤ chunk.length)
    (here : chunk.drop curdata = options.willBytes ++ options.credentialBytes)
    {data : ConnectRead} (noTopic : data.willTopicName = none)
    (noMessage : data.willMessage = none) :
    ∃ next read, readWill chunk chunk.length curdata (connectFlags options) data =
        some (.ok (next, read)) ∧
      next ≤ chunk.length ∧ chunk.drop next = options.credentialBytes ∧
      (∃ qos retained topicName message, read =
        { data with
          willFlag := some (decide (options.willFlag ≠ 0)).toNat
          willQos := qos
          willRetained := retained
          willTopicName := topicName
          willMessage := message }) ∧
      (options.willFlag ≠ 0 →
        read.willQos = some (options.will.qos.toNat % 4) ∧
          read.willRetained = some (options.will.retained.toNat % 2) ∧
          Counted.Spells chunk read.willTopicName options.will.topicName.bytes ∧
          Counted.Spells chunk read.willMessage options.will.message.bytes) ∧
      (options.willFlag = 0 → read.willTopicName = none ∧ read.willMessage = none) := by
  have flag := connectFlags_will options
  by_cases will : options.willFlag ≠ 0
  · have topicFits := (regular.string (s := options.will.topicName) (by simp)).2
    have messageFits := (regular.string (s := options.will.message) (by simp)).2
    rw [decide_eq_true will] at flag ⊢
    rw [MqttConnectData.willBytes, if_pos will, List.append_assoc] at here
    obtain ⟨topicName, message, topicBytes, messageBytes, read⟩ :=
      readWill_of_drop flag topicFits messageFits start here data
    have behind := drop_add_of_drop here
    rw [connectFlags_willQos options will, connectFlags_willRetained options will] at read
    refine ⟨_, _, read, ?_, drop_add_of_drop behind, ⟨_, _, _, _, rfl⟩,
      fun _ => ⟨rfl, rfl, ⟨topicName, rfl, topicBytes⟩, ⟨message, rfl, messageBytes⟩⟩,
      fun none => absurd none will⟩
    exact add_le_of_drop (add_le_of_drop start here) behind
  · rw [decide_eq_false will] at flag ⊢
    rw [MqttConnectData.willBytes, if_neg will, List.nil_append] at here
    refine ⟨_, _, readWill_of_absent flag data chunk.length, start, here, ⟨_, _, _, _, rfl⟩,
      fun some => absurd some will, fun _ => ⟨noTopic, noMessage⟩⟩

/-- The server reads every field of the client's connect packet, and accepts it exactly when its
credentials pass. -/
theorem deserializeConnect_serializeConnect (regular : options.Regular) {buflen : Nat}
    (room : mqttSerializeConnectSize options ≤ buflen) :
    ∃ written rc data, mqttSerializeConnect buflen options = .ok written ∧
      mqttDeserializeConnect written = some (rc, data) ∧
      (rc = 1 ↔ options.CredentialsPass) ∧ (rc = 1 → data.Holds written options) := by
  have limit := regular.body_limit
  obtain ⟨whole, bodyEq⟩ := @whole_of_body (mqttHeader .connect 0 0 0) _ limit
  have stored : mqttSerializeConnect buflen options = .ok (mqttHeader .connect 0 0 0 ::
      (mqttPacketEncode (connectBody options).length ++ connectBody options)) := by
    rw [mqttSerializeConnectSize] at room
    unfold mqttSerializeConnect
    rw [if_neg (Nat.not_lt.mpr room), regular.body_length]
    rfl
  have decoded := whole.decoded
  rw [bodyEq] at decoded
  have start : 1 + (mqttPacketEncode (connectBody options).length).length ≤ _ :=
    Nat.le.intro whole.length.symm
  obtain ⟨curdata, fields, eq⟩ := deserializeConnect_at_fields regular rfl decoded start
    (whole.body.symm.trans bodyEq)
  obtain ⟨clientID, atWill, clientBytes, inside, here, flagsRead, keepRead, clientRead⟩ :=
    readFields_at regular fields
  let read : ConnectRead :=
    { cleansession := some (flagBit (connectFlags options) 1).toNat
      keepAliveInterval := some options.keepAliveInterval.toNat
      clientID := some clientID }
  obtain ⟨atName, withWill, willRead, insideName, hereName, ⟨qos, retained, topicName, message,
    same⟩, will, noWill⟩ := readWill_at regular inside here
      (show read.willTopicName = none from rfl) rfl
  have noName : withWill.username = none := by rw [same]
  have noPassword : withWill.password = none := by rw [same]
  obtain ⟨rc, result, credentials, passes, fields'⟩ := readCredentials_of_drop
    (connectFlags_username options) (connectFlags_password options)
    (regular.string (s := options.username) (by simp)).2
    (regular.string (s := options.password) (by simp)).2 insideName hereName noName noPassword
  refine ⟨_, rc, result, stored, ?_, passes, ?_⟩
  · rw [eq]
    simp only [flagsRead, keepRead, clientRead, Option.bind_eq_bind, Option.bind_some]
    change (readWill _ _ atWill (connectFlags options) read).bind _ = _
    rw [willRead]
    exact credentials
  · intro accepted
    obtain ⟨name, pass, rfl, nameHolds, passHolds⟩ := fields' accepted
    constructor
    · rw [same, ← connectFlags_cleansession options]
    · rw [same]
    · rw [same]
      exact ⟨clientID, rfl, clientBytes⟩
    · rw [same]
    · exact will
    · exact noWill
    · exact nameHolds
    · exact passHolds

/-- A client with a will, a user name and an empty password. -/
def emptyPassword : MqttConnectData where
  mqttVersion := 4
  clientID := .ofLenString [99]
  keepAliveInterval := 60
  cleansession := 1
  willFlag := 1
  will :=
    { topicName := .ofLenString [116]
      message := .ofLenString [109, 0]
      retained := 1
      qos := 2 }
  username := .ofLenString [117]
  password := .ofLenString []

/-- The packet that the client writes for it is refused. -/
theorem deserializeConnect_serializeConnect_refused :
    ∃ written rc data, mqttSerializeConnect 27 emptyPassword = .ok written ∧
      mqttDeserializeConnect written = some (rc, data) ∧ rc ≠ 1 := by
  have regular : emptyPassword.Regular := by
    refine ⟨.inr rfl, ?_⟩
    intro s mem
    simp only [List.mem_cons, List.not_mem_nil, or_false] at mem
    rcases mem with rfl | rfl | rfl | rfl | rfl
    · exact ⟨.inl rfl, by decide⟩
    · exact ⟨.inl rfl, by decide⟩
    · exact ⟨.inl rfl, by decide⟩
    · exact ⟨.inl rfl, by decide⟩
    · exact ⟨.inl rfl, by decide⟩
  obtain ⟨written, rc, data, stored, read, passes, -⟩ :=
    deserializeConnect_serializeConnect regular (show _ ≤ 27 by decide)
  refine ⟨written, rc, data, stored, read, ?_⟩
  intro accepted
  exact ((passes.mp accepted).1 rfl).2 rfl

end Connecting

end StDevice.Mqtt
