import StDevice.Easysetup.Ownership
import StDevice.Easysetup.Security
import StDevice.Foundation.Json
import StDevice.Foundation.Run

/-!
# The key of an onboarding

The handlers of KEYINFO: over HTTP, over BLE, and over BLE with certificates. Each reads a
public key from the payload, computes a shared secret, which the backend makes the key of the
cipher, sets the clock and answers with the validation features.

An error that comes after the computation releases the secret while the cipher still refers
to it. A session records the keys that were in place when a KEYINFO succeeded, and the main
result says which requests leave the cipher with another key than one of these.
-/

namespace StDevice.Easysetup

open Security Fallible

/-- The error codes of the KEYINFO handlers. -/
inductive KeyinfoError where
  | invalidRequest | base64DecodeError | randDecodeError | invalidTime | memAllocError
  | sharedKeyInitFail | sharedKeyParamsFail | sharedKeyCreationFail
  | sharedDataCreationFail | cipherParamsError
  deriving DecidableEq, Repr

/-- The features an answer may list, in the order of their bits. -/
def Feature.all : List Feature := [justworks, qr, button, pin, serialNumber, hashedSerialNumber]

/-- The answer to KEYINFO: `otmSupportFeatures`, from a loop over the bits below `limit`. -/
def Device.otmSupportFeatures (device : Device) (limit : Nat) : List Feature :=
  (Feature.all.take limit).filter device.enables

/-- `OVF_BIT_MAX_FEATURE`. -/
def ovfBitMaxFeature : Nat := 5

/-- `IOT_SECURITY_B64_DECODE_LEN`. -/
def b64DecodeLen (n : Nat) : Nat := (n + 3) / 4 * 3 + 1

/-- A hexadecimal digit. -/
def hexDigit (c : UInt8) : Option Nat :=
  if 48 ≤ c ∧ c ≤ 57 then some (c.toNat - 48)
  else if 97 ≤ c ∧ c ≤ 102 then some (c.toNat - 87)
  else if 65 ≤ c ∧ c ≤ 70 then some (c.toNat - 55)
  else none

/-- `isspace`. -/
def isSpace (c : UInt8) : Bool := c == 32 || (9 ≤ c && c ≤ 13)

/-- `strtol(tmp, NULL, 16)` of two characters, as an `unsigned char`. -/
def strtolHex (a b : UInt8) : UInt8 :=
  match hexDigit a, hexDigit b with
  | some x, some y => UInt8.ofNat (16 * x + y)
  | some x, none => UInt8.ofNat x
  | none, some y =>
      if a = 45 then 0 - UInt8.ofNat y
      else if a = 43 ∨ isSpace a = true then UInt8.ofNat y
      else 0
  | none, none => 0

/-- `key_rand`, from the text of the salt. -/
def keyRand : List UInt8 → List UInt8
  | a :: b :: rest => strtolHex a b :: keyRand rest
  | _ => []

section Stages

variable (answers : Answers)

/-- A member as a string. `strlen` reads through NULL where the member is no string. -/
def readMember (members : Json) (name : String) : Fallible KeyinfoError (List UInt8) := do
  let item ← orFail (members.getObjectItem name) .invalidRequest
  deref item.valuestring

/-- A text decoded into an allocated buffer. -/
def decodeText (name : String) (text : List UInt8) : Fallible KeyinfoError (List UInt8) := do
  require (answers.malloc (.decodeBuf name)) .memAllocError
  orFail (answers.base64DecodeUrlsafe text (b64DecodeLen text.length)) .base64DecodeError

/-- The public key and the salt of the other side, from `spub` and `rand`. -/
def readPeer (members : Json) : Fallible KeyinfoError (List UInt8 × List UInt8) := do
  let spub ← readMember members "spub"
  let keySpubSign ← orFail (answers.base64DecodeUrlsafe spub 32) .base64DecodeError
  require (keySpubSign.length == 32) .base64DecodeError
  let rand ← readMember members "rand"
  let randAsc ← orFail (answers.base64Decode rand 65) .randDecodeError
  require (randAsc.length == 64) .randDecodeError
  pure (keySpubSign, keyRand randAsc)

/-- One of the texts that come with the time. -/
def readTime (members : Json) (name : String) : Fallible KeyinfoError (List UInt8) := do
  let text ← readMember members name
  decodeText answers name text

/-- The part between the key and the answer: nothing without `datetime`, and else the clock
is set and two more members are looked at. -/
def setTime (members : Json) : Fallible KeyinfoError Unit :=
  match members.getObjectItem "datetime" with
  | none => pure ()
  | some _ => do
      let datetime ← readTime answers members "datetime"
      require (answers.esTimeSet datetime) .invalidTime
      let _ ← readTime answers members "regionaldatetime"
      let _ ← readTime answers members "timezoneid"
      pure ()

/-- What follows the computation of the secret, up to the label `exit_secret`. -/
def answerKeyinfo (members : Json) (features : List Feature) :
    Fallible KeyinfoError (List Feature) := do
  setTime answers members
  require answers.jsonCreateObject .memAllocError
  require answers.jsonCreateArray .memAllocError
  pure features

/-- The 65 bytes of the public key inside the decoded certificate key. The copy goes to a
buffer whose allocation is not checked, and reads past a buffer that is too short. -/
def peerPubkey (size : Nat) (decoded : List UInt8) : Fallible KeyinfoError (List UInt8) :=
  deref (if answers.malloc .peerPubkey && 91 ≤ size then
    some (((decoded ++ List.replicate (size - decoded.length) 0).drop 26).take 65) else none)

/-- The vector of the cipher, from a digest of the secret and the random numbers. -/
def deriveIv (secret : Secret) (c : Context) : Fallible KeyinfoError Unit := do
  let _ ← deref (if answers.malloc .dataBuf then some () else none)
  require (answers.malloc .hashBuf && (answers.sha256 (secret.bytes ++ c.secRandom)).isSome)
    .sharedDataCreationFail
  let _ ← deref (if answers.malloc .iv then some () else none)
  require (c.cipherSetParams answers) .cipherParamsError

/-- The result of a handler and the context it leaves. No result where the handler reads
through a pointer that is not there. -/
abbrev Handled := Option (Except KeyinfoError (List Feature) × Context)

/-- The end of a handler after the secret was computed: `exit_secret` releases it in case of
an error. -/
def exitSecret (answered : Fallible KeyinfoError (List Feature)) (secret : Secret)
    (c : Context) : Handled :=
  match answered with
  | .stopped => none
  | .failed err => some (.error err, (c.free secret).ecdhDeinit)
  | .done features => some (.ok features, c.ecdhDeinit)

/-- The parameters of the key agreement, the computation of the secret, and `finish` with it. -/
def agreeWith (keyId : KeyId) (pubkey salt : List UInt8) (finish : Secret → Context → Handled)
    (c : Context) : Handled :=
  match c.ecdhSetParams answers keyId pubkey salt with
  | (false, c) => some (.error .sharedKeyParamsFail, c.ecdhDeinit)
  | (true, c) =>
      match c.computeSharedSecret answers with
      | (none, c) => some (.error .sharedKeyCreationFail, c.ecdhDeinit)
      | (some secret, c) => finish secret c

/-- The key agreement with the key of the device, and what follows it. -/
def agreeKey (members : Json) (peer : List UInt8 × List UInt8) (features : List Feature)
    (c : Context) : Handled :=
  match c.ecdhInit answers with
  | (false, c) => some (.error .sharedKeyInitFail, c)
  | (true, c) =>
      agreeWith answers .unknown peer.1 peer.2
        (exitSecret (answerKeyinfo answers members features)) c

/-- The handler over members that were found. -/
def keyinfoHandler (found : Fallible KeyinfoError Json) (features : List Feature) (c : Context) :
    Handled :=
  match found with
  | .stopped => none
  | .failed err => some (.error err, c)
  | .done members =>
      match readPeer answers members with
      | .stopped => none
      | .failed err => some (.error err, c)
      | .done peer => agreeKey answers members peer features c

end Stages

section Handlers

variable (library : JsonLibrary) (device : Device) (answers : Answers)

/-- The members of a payload over HTTP. -/
def httpMembers (payload : List UInt8) : Fallible KeyinfoError Json :=
  orFail (library.parse payload) .invalidRequest

/-- The members of a payload over BLE. -/
def bleMembers (payload : List UInt8) : Fallible KeyinfoError Json := do
  let root ← orFail (library.parse payload) .invalidRequest
  orFail (root.getObjectItem "data") .invalidRequest

/-- `_es_keyinfo_handler` over HTTP. -/
def Http.esKeyinfoHandler (payload : List UInt8) (c : Context) : Handled :=
  keyinfoHandler answers (httpMembers library payload)
    (device.otmSupportFeatures ovfBitMaxFeature) c

/-- `_es_keyinfo_handler` over BLE. -/
def Ble.esKeyinfoHandler (payload : List UInt8) (c : Context) : Handled :=
  keyinfoHandler answers (bleMembers library payload)
    (device.otmSupportFeatures (ovfBitMaxFeature + 1)) c

/-- The end of the handler with certificates: the two errors of `deriveIv` go to
`exit_ecdh_deinit` and leave the secret allocated. -/
def exitIv (answered : Fallible KeyinfoError (List Feature)) (secret : Secret) (c : Context) :
    Handled :=
  match deriveIv answers secret c with
  | .stopped => none
  | .failed err => some (.error err, c.ecdhDeinit)
  | .done () => exitSecret answered secret c

/-- The part of the handler with certificates that has the key of the other side. -/
def agreeEphemeralKey (members : Json) (cpubKey : List UInt8) (features : List Feature)
    (c : Context) : Handled :=
  match decodeText answers "cpubKey" cpubKey with
  | .stopped => none
  | .failed err => some (.error err, c.ecdhDeinit)
  | .done decoded =>
      match peerPubkey answers (b64DecodeLen cpubKey.length) decoded with
      | .stopped => none
      | .failed err => some (.error err, c)
      | .done pubkey =>
          agreeWith answers .ephemeral pubkey c.secRandom
            (exitIv answers (answerKeyinfo answers members features)) c

/-- `_es_keyinfo_handler` over BLE with certificates. -/
def Ble.esKeyinfoHandlerX509 (payload : List UInt8) (c : Context) : Handled :=
  match bleMembers library payload with
  | .stopped => none
  | .failed err => some (.error err, c)
  | .done members =>
      match readMember members "cpubKey" with
      | .stopped => none
      | .failed err => some (.error err, c)
      | .done cpubKey =>
          agreeEphemeralKey answers members cpubKey (device.otmSupportFeatures ovfBitMaxFeature) c

end Handlers

section Late

variable {answers : Answers} {members : Json} {name : String}

/-- A member that comes with the time is missing, or is a text that cannot be decoded. -/
def TimeBreaks (answers : Answers) (members : Json) (name : String) : Prop :=
  members.getObjectItem name = none ∨
    ∃ text, members.memberText name = some text ∧
      (answers.malloc (.decodeBuf name) = false ∨
        answers.base64DecodeUrlsafe text (b64DecodeLen text.length) = none)

/-- A member that comes with the time is a text that decodes to `decoded`. -/
def TimeReads (answers : Answers) (members : Json) (name : String) (decoded : List UInt8) : Prop :=
  ∃ text, members.memberText name = some text ∧ answers.malloc (.decodeBuf name) = true ∧
    answers.base64DecodeUrlsafe text (b64DecodeLen text.length) = some decoded

/-- The time cannot be taken over. -/
def TimeFails (answers : Answers) (members : Json) : Prop :=
  (members.getObjectItem "datetime").isSome = true ∧
    (TimeBreaks answers members "datetime" ∨
      ∃ datetime, TimeReads answers members "datetime" datetime ∧
        (answers.esTimeSet datetime = false ∨
          TimeBreaks answers members "regionaldatetime" ∨
          ∃ regional, TimeReads answers members "regionaldatetime" regional ∧
            TimeBreaks answers members "timezoneid"))

/-- There is no time, or it is taken over. -/
def TimePasses (answers : Answers) (members : Json) : Prop :=
  members.getObjectItem "datetime" = none ∨
    ∃ datetime regional timezoneid, TimeReads answers members "datetime" datetime ∧
      answers.esTimeSet datetime = true ∧
      TimeReads answers members "regionaldatetime" regional ∧
      TimeReads answers members "timezoneid" timezoneid

/-- Something fails between the key and the answer. -/
def FailsLate (answers : Answers) (members : Json) : Prop :=
  TimeFails answers members ∨
    TimePasses answers members ∧
      (answers.jsonCreateObject = false ∨ answers.jsonCreateArray = false)

theorem fails_readMember_iff :
    Fails (readMember members name) ↔ members.getObjectItem name = none := by
  simp [readMember, fails_bind_iff]

theorem readMember_eq_done_iff {text : List UInt8} :
    readMember members name = .done text ↔ members.memberText name = some text := by
  simp [readMember, bind_eq_done_iff, Json.memberText, Option.bind_eq_some_iff]

theorem fails_readTime_iff :
    Fails (readTime answers members name) ↔ TimeBreaks answers members name := by
  simp only [readTime, decodeText, fails_bind_iff, fails_readMember_iff, readMember_eq_done_iff,
    fails_require_iff, require_eq_done_iff, fails_orFail_iff, TimeBreaks]
  refine or_congr Iff.rfl (exists_congr fun text => and_congr Iff.rfl ?_)
  cases answers.malloc (.decodeBuf name) <;> simp

theorem readTime_eq_done_iff {decoded : List UInt8} :
    readTime answers members name = .done decoded ↔ TimeReads answers members name decoded := by
  simp only [readTime, decodeText, bind_eq_done_iff, readMember_eq_done_iff, require_eq_done_iff,
    orFail_eq_done_iff, TimeReads]
  refine exists_congr fun text => and_congr Iff.rfl ?_
  simp

theorem fails_setTime_iff : Fails (setTime answers members) ↔ TimeFails answers members := by
  unfold setTime TimeFails
  cases members.getObjectItem "datetime" with
  | none => simp
  | some item =>
      simp only [fails_bind_iff, fails_readTime_iff, readTime_eq_done_iff, fails_require_iff,
        require_eq_done_iff, pure_eq, not_fails_done, and_false, exists_false, or_false,
        exists_const, Option.isSome_some, true_and]
      refine or_congr Iff.rfl (exists_congr fun datetime => and_congr Iff.rfl ?_)
      cases answers.esTimeSet datetime <;> simp

theorem setTime_eq_done_iff {u : Unit} :
    setTime answers members = .done u ↔ TimePasses answers members := by
  unfold setTime TimePasses
  cases members.getObjectItem "datetime" with
  | none => simp
  | some item =>
      simp [bind_eq_done_iff, readTime_eq_done_iff]

theorem fails_answerKeyinfo_iff {features : List Feature} :
    Fails (answerKeyinfo answers members features) ↔ FailsLate answers members := by
  simp only [answerKeyinfo, fails_bind_iff, fails_setTime_iff, fails_require_iff,
    require_eq_done_iff, pure_eq, not_fails_done, FailsLate]
  refine or_congr Iff.rfl ?_
  simp only [setTime_eq_done_iff, exists_const, and_false, or_false]
  refine and_congr Iff.rfl ?_
  cases answers.jsonCreateObject <;> simp

end Late

section Ends

variable {answers : Answers} {c : Context} {keys : List Secret}

/-- In case of an error the context refers to no key or to one of `keys` that is allocated. -/
def Handled.Keeps (keys : List Secret) (handled : Handled) : Prop :=
  ∀ err c', handled = some (.error err, c') → c'.Usable keys

@[simp] theorem keeps_none : Handled.Keeps keys none := by
  simp [Handled.Keeps]

@[simp] theorem keeps_ok {features : List Feature} :
    Handled.Keeps keys (some (.ok features, c)) := by
  simp [Handled.Keeps]

@[simp] theorem keeps_error_iff {err : KeyinfoError} :
    Handled.Keeps keys (some (.error err, c)) ↔ c.Usable keys := by
  simp [Handled.Keeps]

@[simp] theorem usable_ecdhDeinit_iff : c.ecdhDeinit.Usable keys ↔ c.Usable keys :=
  c.sameKeys_ecdhDeinit.usable_iff

/-- The end of a handler whose secret is the key of the cipher. -/
theorem keeps_exitSecret_iff {answered : Fallible KeyinfoError (List Feature)} {secret : Secret}
    (has : c.key = some secret) :
    (exitSecret answered secret c).Keeps keys ↔ ¬ Fails answered := by
  cases answered with
  | stopped => simp [exitSecret]
  | failed err => simp [exitSecret, Context.not_usable_free has]
  | done features => simp [exitSecret]

/-- The end of a handler whose secret is a new buffer and nobody's key. -/
theorem keeps_exitSecret_alloc {answered : Fallible KeyinfoError (List Feature)}
    (bytes : List UInt8) (usable : c.Usable keys) :
    (exitSecret answered ⟨c.next, bytes⟩ (c.alloc bytes).2).Keeps keys := by
  cases answered with
  | stopped => simp [exitSecret]
  | failed err => simpa [exitSecret] using Context.usable_free_alloc bytes usable
  | done features => simp [exitSecret]

/-- The key agreement itself comes back with `pmsecret`, and the other calls around it all
succeed and make `bytes` of it. -/
def Agrees (answers : Answers) (pmsecret : Option (List UInt8)) (salt bytes : List UInt8) : Prop :=
  answers.malloc .cPubkey = true ∧ answers.malloc .salt = true ∧
    answers.malloc .secretBuf = true ∧ answers.malloc .sharedSecretBuf = true ∧
    ∃ agreed, pmsecret = some agreed ∧ answers.sha256 (agreed ++ salt) = some bytes

/-- The bytes of the secret after a public key and a salt were set. -/
theorem agrees_iff {keyId : KeyId} {tSeckey pmsecret : Option (List UInt8)}
    {pubkey salt bytes : List UInt8}
    (agreed : c.pmsecret answers ⟨keyId, tSeckey, some pubkey, some salt⟩ = pmsecret) :
    Agrees answers pmsecret salt bytes ↔
      answers.malloc .cPubkey = true ∧ answers.malloc .salt = true ∧
      (c.withEcdh ⟨keyId, tSeckey, some pubkey, some salt⟩).sharedSecret answers = some bytes := by
  unfold Agrees
  refine and_congr Iff.rfl (and_congr Iff.rfl ?_)
  rw [← agreed]
  simp only [Context.sharedSecret, Context.withEcdh, Option.bind_eq_bind, Option.bind_some,
    Option.bind_eq_some_iff, Option.getD_some]
  cases answers.malloc .secretBuf <;> cases answers.malloc .sharedSecretBuf <;> simp
  exact Iff.rfl

/-- A key agreement keeps the keys unless the cipher takes the new one and what follows does
not keep them. -/
theorem keeps_agreeWith_iff {keyId : KeyId} {pubkey salt : List UInt8}
    {finish : Secret → Context → Handled} {params : EcdhParams}
    (pmsecret : Option (List UInt8)) (Bad : List UInt8 → Prop) (usable : c.Usable keys)
    (ready : c.ecdhParams = some params)
    (agreed : c.pmsecret answers ⟨keyId, params.tSeckey, some pubkey, some salt⟩ = pmsecret)
    (quiet : ∀ c' bytes, c.SameKeys c' →
      (finish ⟨c'.next, bytes⟩ (c'.alloc bytes).2).Keeps keys)
    (loud : ∀ c' bytes, c.SameKeys c' → c'.secRandom = c.secRandom → c'.TakesKey →
      ((finish ⟨c'.next, bytes⟩ ((c'.alloc bytes).2.installKey ⟨c'.next, bytes⟩)).Keeps keys ↔
        ¬ Bad bytes)) :
    (agreeWith answers keyId pubkey salt finish c).Keeps keys ↔
      ¬ ∃ bytes, Agrees answers pmsecret salt bytes ∧ c.TakesKey ∧ Bad bytes := by
  simp only [agrees_iff agreed]
  unfold agreeWith Context.ecdhSetParams
  rw [ready]
  cases answers.malloc .cPubkey with
  | false => exact iff_of_true (keeps_error_iff.mpr usable) (by simp)
  | true =>
      cases answers.malloc .salt with
      | false => exact iff_of_true (keeps_error_iff.mpr usable) (by simp)
      | true =>
          simp only [if_true, true_and]
          have same := c.sameKeys_withEcdh ⟨keyId, params.tSeckey, some pubkey, some salt⟩
          have random : (c.withEcdh ⟨keyId, params.tSeckey, some pubkey, some salt⟩).secRandom =
              c.secRandom := rfl
          generalize c.withEcdh ⟨keyId, params.tSeckey, some pubkey, some salt⟩ = c'
            at same random ⊢
          rw [← same.takesKey_iff]
          rcases c'.computeSharedSecret_cases answers with
            ⟨unchanged, without⟩ | ⟨bytes, computed, takes, new⟩ | ⟨bytes, computed, without, new⟩
          · rw [unchanged]
            simp only [keeps_error_iff, usable_ecdhDeinit_iff, same.usable_iff, usable, true_iff]
            rintro ⟨bytes, computed, takes, -⟩
            exact without (by rw [computed]; rfl) takes
          · rw [new]
            simp only [computed, takes, Option.some.injEq, true_and, exists_eq_left']
            exact loud c' bytes same random takes
          · rw [new]
            simp only [quiet c' bytes same, without, false_and, and_false, exists_false,
              not_false_eq_true]

/-- The key agreement with the key of the device keeps the keys unless it succeeds for a
cipher that takes the new key, and something fails afterwards. -/
theorem keeps_agreeKey_iff {members : Json} {peer : List UInt8 × List UInt8}
    {features : List Feature} (usable : c.Usable keys) :
    (agreeKey answers members peer features c).Keeps keys ↔
      ¬ ∃ seckey bytes, answers.malloc .ecdhParams = true ∧ answers.ecdhLoad = some seckey ∧
        Agrees answers (answers.computeEcdhShared .ed25519 seckey (some peer.1)) peer.2 bytes ∧
        c.TakesKey ∧ FailsLate answers members := by
  unfold agreeKey Context.ecdhInit
  cases answers.malloc .ecdhParams with
  | false => exact iff_of_true (keeps_error_iff.mpr usable) (by simp)
  | true =>
      cases answers.ecdhLoad with
      | none => exact iff_of_true (keeps_error_iff.mpr usable) (by simp)
      | some seckey =>
          have same := c.sameKeys_withEcdh ⟨.unknown, seckey, none, none⟩
          simp only [if_true, true_and, Option.some.injEq, exists_and_left, exists_eq_left',
            ← same.takesKey_iff]
          refine (keeps_agreeWith_iff (answers.computeEcdhShared .ed25519 seckey (some peer.1))
            (fun _ => FailsLate answers members) (same.usable_iff.mpr usable) rfl rfl ?_
            ?_).trans ?_
          · intro c' bytes same'
            exact keeps_exitSecret_alloc bytes ((same.trans same').usable_iff.mpr usable)
          · intro c' bytes _ _ _
            rw [keeps_exitSecret_iff rfl, fails_answerKeyinfo_iff]
          · simp only [exists_and_right]

/-- The vector cannot be made or set, for a secret with these bytes. -/
def IvFails (answers : Answers) (secRandom bytes : List UInt8) : Prop :=
  answers.malloc .dataBuf = true ∧
    (answers.malloc .hashBuf = false ∨ answers.sha256 (bytes ++ secRandom) = none ∨
      answers.malloc .iv = true ∧ answers.malloc .cipherIv = false)

/-- The vector is made and set. -/
def IvPasses (answers : Answers) (secRandom bytes : List UInt8) : Prop :=
  answers.malloc .dataBuf = true ∧ answers.malloc .hashBuf = true ∧
    (answers.sha256 (bytes ++ secRandom)).isSome = true ∧ answers.malloc .iv = true ∧
    answers.malloc .cipherIv = true

theorem fails_deriveIv_iff {secret : Secret} (takes : c.TakesKey) :
    Fails (deriveIv answers secret c) ↔ IvFails answers c.secRandom secret.bytes := by
  simp only [deriveIv, fails_bind_iff, not_fails_deref, deref_eq_done_iff, fails_require_iff,
    require_eq_done_iff, Context.cipherSetParams, takes.2, IvFails, false_or, Bool.true_and]
  cases answers.malloc .dataBuf <;> cases answers.malloc .hashBuf <;>
    cases answers.sha256 (secret.bytes ++ c.secRandom) <;> cases answers.malloc .iv <;> simp

theorem deriveIv_eq_done_iff {secret : Secret} {u : Unit} (takes : c.TakesKey) :
    deriveIv answers secret c = .done u ↔ IvPasses answers c.secRandom secret.bytes := by
  simp only [deriveIv, bind_eq_done_iff, deref_eq_done_iff,
    require_eq_done_iff, Context.cipherSetParams, takes.2, IvPasses, Bool.true_and]
  cases answers.malloc .dataBuf <;> cases answers.malloc .hashBuf <;>
    cases answers.sha256 (secret.bytes ++ c.secRandom) <;> cases answers.malloc .iv <;> simp

/-- The end of the handler with certificates, with the secret as the key of the cipher. -/
theorem keeps_exitIv_iff {answered : Fallible KeyinfoError (List Feature)} {secret : Secret}
    (takes : c.TakesKey) (has : c.key = some secret) (unknown : secret ∉ keys) :
    (exitIv answers answered secret c).Keeps keys ↔
      ¬ (IvFails answers c.secRandom secret.bytes ∨
        IvPasses answers c.secRandom secret.bytes ∧ Fails answered) := by
  rw [← fails_deriveIv_iff takes, ← deriveIv_eq_done_iff (u := ()) takes]
  unfold exitIv
  cases deriveIv answers secret c with
  | stopped => simp
  | failed err =>
      simp only [keeps_error_iff, usable_ecdhDeinit_iff, fails_failed, true_or, not_true_eq_false,
        iff_false]
      intro usable
      exact unknown (usable secret has).2
  | done u => simp [keeps_exitSecret_iff has]

/-- The end of the handler with certificates, with the secret as nobody's key. -/
theorem keeps_exitIv_alloc {answered : Fallible KeyinfoError (List Feature)}
    (bytes : List UInt8) (usable : c.Usable keys) :
    (exitIv answers answered ⟨c.next, bytes⟩ (c.alloc bytes).2).Keeps keys := by
  unfold exitIv
  cases deriveIv answers ⟨c.next, bytes⟩ (c.alloc bytes).2 with
  | stopped => simp
  | failed err =>
      rw [keeps_error_iff, usable_ecdhDeinit_iff]
      intro secret has
      exact ⟨List.mem_cons_of_mem _ (usable secret has).1, (usable secret has).2⟩
  | done u => exact keeps_exitSecret_alloc bytes usable

/-- What the agreement with the ephemeral key of the device comes back with. -/
def ephemeralShared (answers : Answers) (c : Context) (pubkey : List UInt8) :
    Option (List UInt8) :=
  c.ephemeralSeckey.bind fun seckey =>
    answers.computeEcdhShared .eccp256 (some seckey) (some pubkey)

/-- The key agreement with the ephemeral key keeps the keys unless it succeeds for a cipher
that takes the new key, and something fails afterwards. -/
theorem keeps_agreeEphemeralKey_iff {members : Json} {cpubKey : List UInt8}
    {features : List Feature} (usable : c.Usable keys)
    (older : ∀ secret ∈ keys, secret.buffer < c.next) :
    (agreeEphemeralKey answers members cpubKey features c).Keeps keys ↔
      ¬ ∃ decoded pubkey bytes, decodeText answers "cpubKey" cpubKey = .done decoded ∧
        peerPubkey answers (b64DecodeLen cpubKey.length) decoded = .done pubkey ∧
        c.ecdhParams.isSome = true ∧
        Agrees answers (ephemeralShared answers c pubkey) c.secRandom bytes ∧ c.TakesKey ∧
        (IvFails answers c.secRandom bytes ∨
          IvPasses answers c.secRandom bytes ∧ FailsLate answers members) := by
  unfold agreeEphemeralKey
  cases decodeText answers "cpubKey" cpubKey with
  | stopped => simp
  | failed err => simpa using usable
  | done decoded =>
      cases peer : peerPubkey answers (b64DecodeLen cpubKey.length) decoded with
      | stopped => simp [peer]
      | failed err => simpa [peer] using usable
      | done pubkey =>
          simp only [done.injEq, exists_and_left, exists_eq_left', peer]
          cases ready : c.ecdhParams with
          | none =>
              unfold agreeWith Context.ecdhSetParams
              rw [ready]
              exact iff_of_true (keeps_error_iff.mpr usable) (by simp)
          | some params =>
              refine (keeps_agreeWith_iff (ephemeralShared answers c pubkey)
                (fun bytes => IvFails answers c.secRandom bytes ∨
                  IvPasses answers c.secRandom bytes ∧ FailsLate answers members)
                usable ready ?_ ?_ ?_).trans ?_
              · unfold Context.pmsecret ephemeralShared
                cases c.ephemeralSeckey <;> rfl
              · intro c' bytes same
                exact keeps_exitIv_alloc bytes (same.usable_iff.mpr usable)
              · intro c' bytes same random takes
                rw [← random, ← fails_answerKeyinfo_iff]
                refine keeps_exitIv_iff ⟨takes.1, rfl⟩ rfl ?_
                intro known
                have before := older _ known
                rw [same.next] at before
                exact lt_irrefl _ before
              · simp

end Ends

section Advance

variable {answers : Answers} {c c' : Context}

/-- Buffers are numbered in the order of their allocation, and after a success the key is
allocated. -/
def Handled.Advances (c : Context) (handled : Handled) : Prop :=
  ∀ result c', handled = some (result, c') →
    c.next ≤ c'.next ∧ ∀ features, result = .ok features → c'.KeyLive

@[simp] theorem advances_none : Handled.Advances c none := by
  simp [Handled.Advances]

@[simp] theorem advances_error_iff {err : KeyinfoError} :
    Handled.Advances c (some (.error err, c')) ↔ c.next ≤ c'.next := by
  simp [Handled.Advances]

@[simp] theorem advances_ok_iff {features : List Feature} :
    Handled.Advances c (some (.ok features, c')) ↔ c.next ≤ c'.next ∧ c'.KeyLive := by
  simp [Handled.Advances]

theorem advances_exitSecret {answered : Fallible KeyinfoError (List Feature)} {secret : Secret}
    (later : c.next ≤ c'.next) (live : c'.KeyLive) :
    (exitSecret answered secret c').Advances c := by
  cases answered with
  | stopped => simp [exitSecret]
  | failed err => exact advances_error_iff.mpr later
  | done features => exact advances_ok_iff.mpr ⟨later, live⟩

theorem advances_exitIv {answered : Fallible KeyinfoError (List Feature)} {secret : Secret}
    (later : c.next ≤ c'.next) (live : c'.KeyLive) :
    (exitIv answers answered secret c').Advances c := by
  unfold exitIv
  cases deriveIv answers secret c' with
  | stopped => simp
  | failed err => exact advances_error_iff.mpr later
  | done u => exact advances_exitSecret later live

theorem advances_agreeWith {keyId : KeyId} {pubkey salt : List UInt8}
    {finish : Secret → Context → Handled} (later : c.next ≤ c'.next) (live : c'.KeyLive)
    (ends : ∀ secret c'', c.next ≤ c''.next → c''.KeyLive → (finish secret c'').Advances c) :
    (agreeWith answers keyId pubkey salt finish c').Advances c := by
  unfold agreeWith Context.ecdhSetParams
  cases c'.ecdhParams with
  | none => exact advances_error_iff.mpr later
  | some params =>
      cases answers.malloc .cPubkey with
      | false => exact advances_error_iff.mpr later
      | true =>
          cases answers.malloc .salt with
          | false => exact advances_error_iff.mpr later
          | true =>
              have same := c'.sameKeys_withEcdh ⟨keyId, params.tSeckey, some pubkey, some salt⟩
              simp only [if_true]
              generalize c'.withEcdh ⟨keyId, params.tSeckey, some pubkey, some salt⟩ = c'' at same ⊢
              have later' : c.next ≤ c''.next := same.next ▸ later
              have live' : c''.KeyLive := same.keyLive_iff.mpr live
              rcases c''.computeSharedSecret_cases answers with
                ⟨unchanged, -⟩ | ⟨bytes, -, -, new⟩ | ⟨bytes, -, -, new⟩
              · rw [unchanged]
                exact advances_error_iff.mpr later'
              · rw [new]
                exact ends _ _ (Nat.le_succ_of_le later') (Context.keyLive_installKey_alloc bytes)
              · rw [new]
                exact ends _ _ (Nat.le_succ_of_le later') (live'.alloc bytes)

theorem advances_keyinfoHandler {found : Fallible KeyinfoError Json} {features : List Feature}
    (live : c.KeyLive) : (keyinfoHandler answers found features c).Advances c := by
  unfold keyinfoHandler
  cases found with
  | stopped => simp
  | failed err => simp
  | done members =>
      dsimp only
      cases readPeer answers members with
      | stopped => simp
      | failed err => simp
      | done peer =>
          unfold agreeKey Context.ecdhInit
          cases answers.malloc .ecdhParams with
          | false => simp
          | true =>
              cases answers.ecdhLoad with
              | none => exact advances_error_iff.mpr le_rfl
              | some seckey =>
                  exact advances_agreeWith le_rfl live fun _ _ => advances_exitSecret

theorem advances_esKeyinfoHandlerX509 {library : JsonLibrary} {device : Device}
    {payload : List UInt8} (live : c.KeyLive) :
    (Ble.esKeyinfoHandlerX509 library device answers payload c).Advances c := by
  unfold Ble.esKeyinfoHandlerX509
  cases bleMembers library payload with
  | stopped => simp
  | failed err => simp
  | done members =>
      dsimp only
      cases readMember members "cpubKey" with
      | stopped => simp
      | failed err => simp
      | done cpubKey =>
          dsimp only
          unfold agreeEphemeralKey
          cases decodeText answers "cpubKey" cpubKey with
          | stopped => simp
          | failed err => exact advances_error_iff.mpr le_rfl
          | done decoded =>
              cases peer : peerPubkey answers (b64DecodeLen cpubKey.length) decoded with
              | stopped => simp [peer]
              | failed err => simp [peer]
              | done pubkey =>
                  simp only [peer]
                  exact advances_agreeWith le_rfl live fun _ _ => advances_exitIv

end Advance

end StDevice.Easysetup
