import StDevice.Easysetup.Keyinfo
import StDevice.Foundation.Base64

/-!
# The key over a session

A session is a run of requests on one device: the cipher is set up and taken down, the context
is renewed, and KEYINFO arrives, over any transport, with any payload and any answers of the
calls below. It records the keys that were in place when a KEYINFO succeeded.

The cipher keeps to these keys, and they stay allocated, in exactly the runs in which no
KEYINFO fails after its secret became the key of the cipher.
-/

namespace StDevice.Easysetup

open Security Fallible

/-- The builds of the KEYINFO handler. -/
inductive Transport where
  | http | ble | bleX509
  deriving DecidableEq

/-- The handler of a transport. -/
def Transport.esKeyinfoHandler (library : JsonLibrary) (device : Device) (answers : Answers)
    (payload : List UInt8) (c : Context) : Transport → Handled
  | http => Http.esKeyinfoHandler library device answers payload c
  | ble => Ble.esKeyinfoHandler library device answers payload c
  | bleX509 => Ble.esKeyinfoHandlerX509 library device answers payload c

/-- The calls up to the secret succeed in a handler that takes `spub` and `rand`. -/
def SecretAgreed (answers : Answers) (members : Json) : Prop :=
  ∃ peer seckey bytes, readPeer answers members = .done peer ∧
    answers.malloc .ecdhParams = true ∧ answers.ecdhLoad = some seckey ∧
    Agrees answers (answers.computeEcdhShared .ed25519 seckey (some peer.1)) peer.2 bytes

/-- The calls up to the secret succeed in the handler with certificates. -/
def EphemeralAgreed (answers : Answers) (c : Context) (members : Json) (bytes : List UInt8) :
    Prop :=
  ∃ cpubKey decoded pubkey, members.memberText "cpubKey" = some cpubKey ∧
    decodeText answers "cpubKey" cpubKey = .done decoded ∧
    peerPubkey answers (b64DecodeLen cpubKey.length) decoded = .done pubkey ∧
    c.ecdhParams.isSome = true ∧
    Agrees answers (ephemeralShared answers c pubkey) c.secRandom bytes

/-- The cipher takes the new key, and the request fails afterwards. -/
def FailsWithKey (library : JsonLibrary) (answers : Answers) (payload : List UInt8) (c : Context) :
    Transport → Prop
  | .http => c.TakesKey ∧ ∃ members, library.parse payload = some members ∧
      SecretAgreed answers members ∧ FailsLate answers members
  | .ble => c.TakesKey ∧ ∃ root members, library.parse payload = some root ∧
      root.getObjectItem "data" = some members ∧
      SecretAgreed answers members ∧ FailsLate answers members
  | .bleX509 => c.TakesKey ∧ ∃ root members bytes, library.parse payload = some root ∧
      root.getObjectItem "data" = some members ∧ EphemeralAgreed answers c members bytes ∧
      (IvFails answers c.secRandom bytes ∨
        IvPasses answers c.secRandom bytes ∧ FailsLate answers members)

section Handlers

variable {library : JsonLibrary} {device : Device} {answers : Answers} {payload : List UInt8}
  {c : Context} {keys : List Secret}

theorem keeps_keyinfoHandler_iff {found : Fallible KeyinfoError Json} {features : List Feature}
    (usable : c.Usable keys) :
    (keyinfoHandler answers found features c).Keeps keys ↔
      ¬ (c.TakesKey ∧ ∃ members, found = .done members ∧
        SecretAgreed answers members ∧ FailsLate answers members) := by
  unfold keyinfoHandler SecretAgreed
  cases found with
  | stopped => simp
  | failed err => simpa using usable
  | done members =>
      simp only [done.injEq, exists_eq_left']
      cases read : readPeer answers members with
      | stopped => simp
      | failed err => simpa using usable
      | done peer =>
          simp only [done.injEq, exists_eq_left', exists_and_left]
          rw [keeps_agreeKey_iff usable]
          refine not_congr ?_
          constructor
          · rintro ⟨seckey, bytes, malloc, load, agrees, takes, late⟩
            exact ⟨takes, ⟨malloc, seckey, load, bytes, agrees⟩, late⟩
          · rintro ⟨takes, ⟨malloc, seckey, load, bytes, agrees⟩, late⟩
            exact ⟨seckey, bytes, malloc, load, agrees, takes, late⟩

theorem bleMembers_eq_done_iff {members : Json} :
    bleMembers library payload = .done members ↔
      ∃ root, library.parse payload = some root ∧ root.getObjectItem "data" = some members := by
  simp [bleMembers, bind_eq_done_iff]

theorem keeps_esKeyinfoHandlerX509_iff (usable : c.Usable keys)
    (older : ∀ secret ∈ keys, secret.buffer < c.next) :
    (Ble.esKeyinfoHandlerX509 library device answers payload c).Keeps keys ↔
      ¬ (c.TakesKey ∧ ∃ members bytes, bleMembers library payload = .done members ∧
        EphemeralAgreed answers c members bytes ∧
        (IvFails answers c.secRandom bytes ∨
          IvPasses answers c.secRandom bytes ∧ FailsLate answers members)) := by
  unfold Ble.esKeyinfoHandlerX509 EphemeralAgreed
  cases bleMembers library payload with
  | stopped => simp
  | failed err => simpa using usable
  | done members =>
      simp only [done.injEq, exists_and_left, exists_eq_left', ← readMember_eq_done_iff]
      cases readMember members "cpubKey" with
      | stopped => simp
      | failed err => simpa using usable
      | done cpubKey =>
          simp only [done.injEq, exists_eq_left']
          rw [keeps_agreeEphemeralKey_iff usable older]
          refine not_congr ?_
          constructor
          · rintro ⟨decoded, pubkey, bytes, decodes, peer, ready, agrees, takes, ends⟩
            exact ⟨takes, bytes, ⟨decoded, decodes, pubkey, peer, ready, agrees⟩, ends⟩
          · rintro ⟨takes, bytes, ⟨decoded, decodes, pubkey, peer, ready, agrees⟩, ends⟩
            exact ⟨decoded, pubkey, bytes, decodes, peer, ready, agrees, takes, ends⟩

/-- What a KEYINFO leaves in case of an error, exactly. -/
theorem keeps_esKeyinfoHandler_iff (transport : Transport) (usable : c.Usable keys)
    (older : ∀ secret ∈ keys, secret.buffer < c.next) :
    (transport.esKeyinfoHandler library device answers payload c).Keeps keys ↔
      ¬ FailsWithKey library answers payload c transport := by
  cases transport with
  | http =>
      refine (keeps_keyinfoHandler_iff usable).trans (not_congr ?_)
      simp [FailsWithKey, httpMembers]
  | ble =>
      refine (keeps_keyinfoHandler_iff usable).trans (not_congr ?_)
      simp only [FailsWithKey, bleMembers_eq_done_iff]
      refine and_congr Iff.rfl ?_
      constructor
      · rintro ⟨members, ⟨root, parses, data⟩, rest⟩
        exact ⟨root, members, parses, data, rest⟩
      · rintro ⟨root, members, parses, data, rest⟩
        exact ⟨members, ⟨root, parses, data⟩, rest⟩
  | bleX509 =>
      refine (keeps_esKeyinfoHandlerX509_iff usable older).trans (not_congr ?_)
      simp only [FailsWithKey, bleMembers_eq_done_iff]
      refine and_congr Iff.rfl ?_
      constructor
      · rintro ⟨members, bytes, ⟨root, parses, data⟩, rest⟩
        exact ⟨root, members, bytes, parses, data, rest⟩
      · rintro ⟨root, members, bytes, parses, data, rest⟩
        exact ⟨members, bytes, ⟨root, parses, data⟩, rest⟩

theorem advances_esKeyinfoHandler (transport : Transport) (live : c.KeyLive) :
    (transport.esKeyinfoHandler library device answers payload c).Advances c := by
  cases transport with
  | http => exact advances_keyinfoHandler live
  | ble => exact advances_keyinfoHandler live
  | bleX509 => exact advances_esKeyinfoHandlerX509 live

end Handlers

/-- A device during an onboarding: its security context, and the keys that were in place when
a KEYINFO succeeded. -/
structure Session where
  context : Context
  completed : List Secret

/-- What happens in a session. DEVICEINFO with certificates renews the context. -/
inductive Event where
  | cipherInit (malloc : Bool)
  | cipherDeinit
  | renew (ecdhParams : Option EcdhParams) (ephemeralSeckey : Option (List UInt8))
      (secRandom : List UInt8)
  | keyinfo (transport : Transport) (payload : List UInt8) (answers : Answers)

namespace Session

theorem start_fresh : ∀ buffer ∈ ([] : List Nat), buffer < 0 := by simp

/-- The device before its onboarding. -/
def start : Session where
  context := ⟨false, none, none, none, List.replicate 32 0, [], 0, start_fresh⟩
  completed := []

/-- The session after a request that came back. -/
def after (s : Session) : Except KeyinfoError (List Feature) × Context → Session
  | (.error _, c) => ⟨c, s.completed⟩
  | (.ok _, c) => ⟨c, c.key.toList ++ s.completed⟩

/-- What an event does. Nothing follows where a handler stops. -/
def apply (library : JsonLibrary) (device : Device) (s : Session) : Event → Option Session
  | .cipherInit malloc => some { s with context := s.context.cipherInit malloc }
  | .cipherDeinit => s.context.cipherDeinit.map fun c => { s with context := c }
  | .renew ecdhParams ephemeralSeckey secRandom =>
      some { s with
        context := ⟨true, some none, ecdhParams, ephemeralSeckey, secRandom, s.context.live,
          s.context.next, s.context.fresh⟩ }
  | .keyinfo transport payload answers =>
      (transport.esKeyinfoHandler library device answers payload s.context).map s.after

def Steps (library : JsonLibrary) (device : Device) (s : Session) (e : Event) (t : Session) :
    Prop := s.apply library device e = some t

/-- When KEYINFO returns an error, the cipher refers to no key, or to the key of an earlier
successful KEYINFO, which is allocated. -/
def KeepsKeys (library : JsonLibrary) (device : Device) (s : Session) : Event → Prop
  | .keyinfo transport payload answers =>
      (transport.esKeyinfoHandler library device answers payload s.context).Keeps s.completed
  | _ => True

/-- KEYINFO does not fail after its secret became the key of the cipher. -/
def SucceedsWithKey (library : JsonLibrary) (s : Session) : Event → Prop
  | .keyinfo transport payload answers =>
      ¬ FailsWithKey library answers payload s.context transport
  | _ => True

/-- The cipher has no key or the one of an earlier KEYINFO, and new buffers are new. -/
structure Good (s : Session) : Prop where
  usable : s.context.Usable s.completed
  older : ∀ secret ∈ s.completed, secret.buffer < s.context.next

theorem Good.keyLive {s : Session} (good : s.Good) : s.context.KeyLive :=
  fun secret has => (good.usable secret has).1

theorem good_start : start.Good where
  usable := by
    intro secret has
    cases has
  older := by
    intro secret mem
    cases mem

variable {library : JsonLibrary} {device : Device} {s t : Session} {e : Event}

theorem keepsKeys_iff (good : s.Good) :
    s.KeepsKeys library device e ↔ s.SucceedsWithKey library e := by
  cases e with
  | keyinfo transport payload answers =>
      exact keeps_esKeyinfoHandler_iff transport good.usable good.older
  | cipherInit malloc => exact Iff.rfl
  | cipherDeinit => exact Iff.rfl
  | renew ecdhParams ephemeralSeckey secRandom => exact Iff.rfl

theorem Good.after {result : Except KeyinfoError (List Feature) × Context} (good : s.Good)
    (usable : ∀ err, result.1 = .error err → result.2.Usable s.completed)
    (later : s.context.next ≤ result.2.next)
    (live : ∀ features, result.1 = .ok features → result.2.KeyLive) : (s.after result).Good := by
  obtain ⟨answer, c⟩ := result
  have older : ∀ secret ∈ s.completed, secret.buffer < c.next :=
    fun secret mem => (good.older secret mem).trans_le later
  cases answer with
  | error err => exact ⟨usable err rfl, older⟩
  | ok features =>
      refine ⟨fun secret has => ⟨live features rfl secret has, ?_⟩, ?_⟩
      · exact List.mem_append_left _ (Option.mem_toList.mpr has)
      · intro secret mem
        rcases List.mem_append.mp mem with new | old
        · exact c.fresh _ (live features rfl secret (Option.mem_toList.mp new))
        · exact older secret old

/-- A step whose errors keep the keys keeps the session good. -/
theorem Good.step (good : s.Good) (keeps : s.KeepsKeys library device e)
    (transition : s.Steps library device e t) : t.Good := by
  unfold Steps Session.apply at transition
  cases e with
  | cipherInit malloc =>
      cases transition
      cases malloc with
      | false => exact good
      | true => exact ⟨by rintro secret ⟨⟩, good.older⟩
  | cipherDeinit =>
      obtain ⟨c, down, rfl⟩ := Option.map_eq_some_iff.mp transition
      obtain ⟨none, next⟩ | rfl := s.context.cipherDeinit_cases down
      · refine ⟨fun secret has => ?_, fun secret mem => next ▸ good.older secret mem⟩
        exact absurd (none.symm.trans has) (by simp)
      · exact good
  | renew ecdhParams ephemeralSeckey secRandom =>
      cases transition
      exact ⟨by rintro secret ⟨⟩, good.older⟩
  | keyinfo transport payload answers =>
      obtain ⟨result, handled, rfl⟩ := Option.map_eq_some_iff.mp transition
      obtain ⟨later, live⟩ := advances_esKeyinfoHandler transport good.keyLive _ _ handled
      refine good.after (fun err failed => ?_) later live
      exact keeps err result.2 (by rw [handled, ← failed])

/-- Along any run of a device the errors of KEYINFO leave the cipher without a key or with
the key of an earlier KEYINFO, and never with a released one, exactly if no KEYINFO of the
run fails after its secret became the key of the cipher. -/
theorem keys_kept_iff (library : JsonLibrary) (device : Device) (events : List Event) :
    Run.Along (Steps library device) (KeepsKeys library device) start events ↔
      Run.Along (Steps library device) (SucceedsWithKey library) start events := by
  apply Run.along_congr (I := Good)
  · intro s e good
    exact keepsKeys_iff good
  · intro s e t good keeps transition
    exact good.step keeps transition
  · exact good_start

end Session

section Example

open CString

def spubBytes : List UInt8 := List.replicate 32 9

def randText : List UInt8 := List.replicate 64 48

def datetimeText : List UInt8 := ascii "2024-05-17T10.20.30"

/-- A payload with a key, a salt and a time, but without the regional time. -/
def noRegionalTime : Json :=
  .object [(ascii "spub", .string (Base64.encode spubBytes)),
    (ascii "rand", .string (Base64.encode randText)),
    (ascii "datetime", .string (Base64.encode datetimeText))]

def noRegionalTimeText : List UInt8 :=
  ascii "\x7b\"spub\":\"" ++ Base64.encode spubBytes ++ ascii "\",\"rand\":\"" ++
    Base64.encode randText ++ ascii "\",\"datetime\":\"" ++ Base64.encode datetimeText ++
    ascii "\"\x7d"

/-- The library for this payload. -/
def noRegionalTimeLibrary : JsonLibrary where
  parse text := if text = noRegionalTimeText then some noRegionalTime else none
  print _ := some noRegionalTimeText
  prints _ := rfl

/-- Calls that all succeed. -/
def allSucceed : Answers where
  malloc _ := true
  base64DecodeUrlsafe text size := (Base64.decode text).filter fun data => data.length ≤ size
  base64Decode text size := (Base64.decode text).filter fun data => data.length ≤ size
  ecdhLoad := some (some (List.replicate 32 7))
  computeEcdhShared _ _ _ := some (List.replicate 32 1)
  sha256 _ := some (List.replicate 32 2)
  esTimeSet _ := true
  jsonCreateObject := true
  jsonCreateArray := true

def plainDevice : Device := ⟨1, false, none, none⟩

theorem base64DecodeUrlsafe_encode {data : List UInt8} {size : Nat} (fits : data.length ≤ size) :
    allSucceed.base64DecodeUrlsafe (Base64.encode data) size = some data := by
  simp [allSucceed, Base64.decode_encode, fits]

theorem base64Decode_encode {data : List UInt8} {size : Nat} (fits : data.length ≤ size) :
    allSucceed.base64Decode (Base64.encode data) size = some data := by
  simp [allSucceed, Base64.decode_encode, fits]

theorem secretAgreed_noRegionalTime : SecretAgreed allSucceed noRegionalTime := by
  refine ⟨(spubBytes, keyRand randText), _, List.replicate 32 2, ?_, rfl, rfl, ?_⟩
  · have spub : readMember noRegionalTime "spub" = .done (Base64.encode spubBytes) := rfl
    have rand : readMember noRegionalTime "rand" = .done (Base64.encode randText) := rfl
    simp only [readPeer, spub, rand, done_bind,
      base64DecodeUrlsafe_encode (show spubBytes.length ≤ 32 by decide),
      base64Decode_encode (show randText.length ≤ 65 by decide), orFail]
    rfl
  · exact ⟨rfl, rfl, rfl, rfl, _, rfl, rfl⟩

theorem failsLate_noRegionalTime : FailsLate allSucceed noRegionalTime := by
  refine .inl ⟨rfl, .inr ⟨datetimeText, ⟨Base64.encode datetimeText, rfl, rfl, ?_⟩, .inr (.inl ?_)⟩⟩
  · apply base64DecodeUrlsafe_encode
    rw [Base64.length_encode]
    decide
  · exact .inl rfl

theorem failsWithKey_noRegionalTime {c : Context} (takes : c.TakesKey) :
    FailsWithKey noRegionalTimeLibrary allSucceed noRegionalTimeText c .http := by
  refine ⟨takes, noRegionalTime, ?_, secretAgreed_noRegionalTime, failsLate_noRegionalTime⟩
  simp [noRegionalTimeLibrary]

/-- The cipher is set up, and a KEYINFO without the regional time arrives over HTTP: the
handler returns an error, and the key of the cipher is the secret it has released. -/
theorem not_keys_kept_noRegionalTime :
    ¬ Run.Along (Session.Steps noRegionalTimeLibrary plainDevice)
      (Session.KeepsKeys noRegionalTimeLibrary plainDevice) Session.start
      [.cipherInit true, .keyinfo .http noRegionalTimeText allSucceed] := by
  rintro ⟨first, along⟩
  have ready : Session.Steps noRegionalTimeLibrary plainDevice Session.start (.cipherInit true)
      ⟨Session.start.context.cipherInit true, []⟩ := rfl
  have good := Session.good_start.step first ready
  exact (Session.keepsKeys_iff good).mp (along _ ready).1 (failsWithKey_noRegionalTime ⟨rfl, rfl⟩)

end Example

end StDevice.Easysetup
