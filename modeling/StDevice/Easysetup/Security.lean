import Mathlib.Data.List.Basic
import StDevice.Foundation.Fallible

/-!
# The security context of an onboarding

The context the handlers encrypt with, and the software backend below it: the parameters
of the cipher, those of the key agreement, and the computation of a shared secret, which
becomes the key of the cipher.

A shared secret lives in a buffer of its own. The key of the cipher refers to that buffer
and does not copy it, so the context also records which of the buffers are allocated.
-/

namespace StDevice.Security

/-- A buffer with a shared secret. -/
structure Secret where
  buffer : Nat
  bytes : List UInt8
  deriving DecidableEq

/-- The `key_id` of a key agreement. -/
inductive KeyId where
  | unknown | ephemeral
  deriving DecidableEq

/-- `iot_security_key_type_t`, as far as it is used for a key agreement. -/
inductive KeyType where
  | eccp256 | ed25519
  deriving DecidableEq

/-- `iot_security_ecdh_params_t`. A missing buffer is NULL. -/
structure EcdhParams where
  keyId : KeyId
  tSeckey : Option (List UInt8)
  cPubkey : Option (List UInt8)
  salt : Option (List UInt8)

/-- The places where memory is asked for. -/
inductive Malloc where
  | ecdhParams | cPubkey | salt
  | secretBuf | sharedSecretBuf
  | decodeBuf (member : String)
  | peerPubkey | dataBuf | hashBuf | iv | cipherIv
  deriving DecidableEq

/-- What the calls outside of the code come back with in the course of one request. -/
structure Answers where
  malloc : Malloc → Bool
  /-- `iot_security_base64_decode_urlsafe` into a buffer of a given size. -/
  base64DecodeUrlsafe : List UInt8 → Nat → Option (List UInt8)
  /-- `iot_security_base64_decode` into a buffer of a given size. -/
  base64Decode : List UInt8 → Nat → Option (List UInt8)
  /-- `_iot_security_be_software_ecdh_load`, with the secret key of the device. -/
  ecdhLoad : Option (Option (List UInt8))
  /-- `port_crypto_compute_ecdh_shared`. -/
  computeEcdhShared : KeyType → Option (List UInt8) → Option (List UInt8) → Option (List UInt8)
  /-- `port_crypto_sha256`. -/
  sha256 : List UInt8 → Option (List UInt8)
  /-- Whether `_es_time_set` sets the clock. -/
  esTimeSet : List UInt8 → Bool
  jsonCreateObject : Bool
  jsonCreateArray : Bool

/-- `iot_security_context_t`, with the statics the handlers use and the buffers in use.
`cipherParams` is the pointer to the parameters, which hold the key. -/
structure Context where
  subCipher : Bool
  cipherParams : Option (Option Secret)
  ecdhParams : Option EcdhParams
  ephemeralSeckey : Option (List UInt8)
  secRandom : List UInt8
  live : List Nat
  next : Nat
  fresh : ∀ buffer ∈ live, buffer < next

namespace Context

/-- The key the cipher parameters refer to. -/
def key (c : Context) : Option Secret := c.cipherParams.join

/-- A new buffer with a shared secret. -/
def alloc (c : Context) (bytes : List UInt8) : Secret × Context :=
  (⟨c.next, bytes⟩,
    { c with
      live := c.next :: c.live
      next := c.next + 1
      fresh := by
        intro buffer mem
        rcases List.mem_cons.mp mem with rfl | mem
        · exact Nat.lt_succ_self _
        · exact Nat.lt_succ_of_lt (c.fresh buffer mem) })

/-- `free`. -/
def free (c : Context) (secret : Secret) : Context :=
  { c with
    live := c.live.filter (· ≠ secret.buffer)
    fresh := fun buffer mem => c.fresh buffer (List.mem_of_mem_filter mem) }

/-- `iot_security_cipher_init`. -/
def cipherInit (malloc : Bool) (c : Context) : Context :=
  if malloc then { c with cipherParams := some none, subCipher := true } else c

/-- `iot_security_cipher_deinit`. The key is released with the parameters, and must not
have been released before. -/
def cipherDeinit (c : Context) : Option Context :=
  match c.cipherParams with
  | none => some c
  | some none => some { c with cipherParams := none, subCipher := false }
  | some (some secret) =>
      if secret.buffer ∈ c.live then
        some { c.free secret with cipherParams := none, subCipher := false }
      else none

/-- The context with other parameters of the key agreement. -/
def withEcdh (c : Context) (params : EcdhParams) : Context := { c with ecdhParams := some params }

/-- `iot_security_ecdh_deinit`. -/
def ecdhDeinit (c : Context) : Context := { c with ecdhParams := none }

/-- `iot_security_ecdh_init`. -/
def ecdhInit (answers : Answers) (c : Context) : Bool × Context :=
  if answers.malloc .ecdhParams then
    match answers.ecdhLoad with
    | some tSeckey => (true, c.withEcdh ⟨.unknown, tSeckey, none, none⟩)
    | none => (false, c.ecdhDeinit)
  else (false, c)

/-- `iot_security_ecdh_set_params`, given a key id, a public key and a salt that are not
empty. A copy that cannot be allocated leaves no buffer behind. -/
def ecdhSetParams (answers : Answers) (keyId : KeyId) (cPubkey salt : List UInt8)
    (c : Context) : Bool × Context :=
  match c.ecdhParams with
  | none => (false, c)
  | some params =>
      if answers.malloc .cPubkey then
        if answers.malloc .salt then
          (true, c.withEcdh ⟨keyId, params.tSeckey, some cPubkey, some salt⟩)
        else (false, c.withEcdh ⟨keyId, params.tSeckey, some cPubkey, none⟩)
      else (false, c.withEcdh ⟨keyId, params.tSeckey, none, params.salt⟩)

/-- The secret of the key agreement alone: `pmsecret_buf`. -/
def pmsecret (answers : Answers) (params : EcdhParams) (c : Context) : Option (List UInt8) :=
  match params.keyId with
  | .ephemeral =>
      match c.ephemeralSeckey with
      | none => none
      | some seckey => answers.computeEcdhShared .eccp256 (some seckey) params.cPubkey
  | .unknown => answers.computeEcdhShared .ed25519 params.tSeckey params.cPubkey

/-- The bytes of the shared secret, unless a call fails. -/
def sharedSecret (answers : Answers) (c : Context) : Option (List UInt8) := do
  let params ← c.ecdhParams
  let pmsecret ← c.pmsecret answers params
  if answers.malloc .secretBuf && answers.malloc .sharedSecretBuf then
    answers.sha256 (pmsecret ++ params.salt.getD [])
  else none

/-- The cipher parameters take over a buffer as their key. -/
def installKey (c : Context) (secret : Secret) : Context :=
  { c with cipherParams := some (some secret) }

/-- `_iot_security_be_software_manager_set_key` for a shared secret. -/
def managerSetKey (secret : Secret) (c : Context) : Option Context :=
  match c.cipherParams with
  | none => none
  | some _ => some (c.installKey secret)

/-- `_iot_security_be_software_ecdh_compute_shared_secret`. What is allocated for a
computation that fails is released again. -/
def computeSharedSecret (answers : Answers) (c : Context) : Option Secret × Context :=
  match c.sharedSecret answers with
  | none => (none, c)
  | some bytes =>
      if c.subCipher then
        match (c.alloc bytes).2.managerSetKey (c.alloc bytes).1 with
        | none => (none, c)
        | some installed => (some (c.alloc bytes).1, installed)
      else (some (c.alloc bytes).1, (c.alloc bytes).2)

/-- The cipher takes the key of a key agreement. -/
def TakesKey (c : Context) : Prop := c.subCipher = true ∧ c.cipherParams.isSome = true

/-- `iot_security_cipher_set_params` without a key, so that only the vector changes. -/
def cipherSetParams (answers : Answers) (c : Context) : Bool :=
  c.cipherParams.isSome && answers.malloc .cipherIv

/-- The context refers to no key, or to an allocated one among `keys`. -/
def Usable (keys : List Secret) (c : Context) : Prop :=
  ∀ secret, c.key = some secret → secret.buffer ∈ c.live ∧ secret ∈ keys

/-- The key, if there is one, is allocated. -/
def KeyLive (c : Context) : Prop := ∀ secret, c.key = some secret → secret.buffer ∈ c.live

/-- The contexts agree in all that concerns the key of the cipher. -/
structure SameKeys (c c' : Context) : Prop where
  subCipher : c'.subCipher = c.subCipher
  cipherParams : c'.cipherParams = c.cipherParams
  live : c'.live = c.live
  next : c'.next = c.next

theorem SameKeys.refl (c : Context) : SameKeys c c := ⟨rfl, rfl, rfl, rfl⟩

theorem SameKeys.trans {c c' c'' : Context} (first : SameKeys c c') (second : SameKeys c' c'') :
    SameKeys c c'' where
  subCipher := second.subCipher.trans first.subCipher
  cipherParams := second.cipherParams.trans first.cipherParams
  live := second.live.trans first.live
  next := second.next.trans first.next

theorem SameKeys.usable_iff {c c' : Context} {keys : List Secret} (same : SameKeys c c') :
    c'.Usable keys ↔ c.Usable keys := by
  unfold Usable key
  rw [same.cipherParams, same.live]

theorem SameKeys.keyLive_iff {c c' : Context} (same : SameKeys c c') :
    c'.KeyLive ↔ c.KeyLive := by
  unfold KeyLive key
  rw [same.cipherParams, same.live]

theorem SameKeys.takesKey_iff {c c' : Context} (same : SameKeys c c') :
    c'.TakesKey ↔ c.TakesKey := by
  unfold TakesKey
  rw [same.subCipher, same.cipherParams]

theorem sameKeys_ecdhDeinit (c : Context) : SameKeys c c.ecdhDeinit := ⟨rfl, rfl, rfl, rfl⟩

theorem sameKeys_withEcdh (c : Context) (params : EcdhParams) : SameKeys c (c.withEcdh params) :=
  ⟨rfl, rfl, rfl, rfl⟩

theorem cipherDeinit_cases (c : Context) {c' : Context} (down : c.cipherDeinit = some c') :
    (c'.key = none ∧ c'.next = c.next) ∨ c' = c := by
  unfold cipherDeinit at down
  split at down
  · exact .inr (Option.some.inj down).symm
  · cases down
    exact .inl ⟨rfl, rfl⟩
  · split at down
    · cases down
      exact .inl ⟨rfl, rfl⟩
    · cases down

/-- What is left after the computation of a secret: nothing has changed, or there is a new
buffer, and the cipher refers to it if it takes keys. -/
theorem computeSharedSecret_cases (answers : Answers) (c : Context) :
    (c.computeSharedSecret answers = (none, c) ∧
      ((c.sharedSecret answers).isSome = true → ¬ c.TakesKey)) ∨
    (∃ bytes, c.sharedSecret answers = some bytes ∧ c.TakesKey ∧
      c.computeSharedSecret answers =
        (some ⟨c.next, bytes⟩, (c.alloc bytes).2.installKey ⟨c.next, bytes⟩)) ∨
    (∃ bytes, c.sharedSecret answers = some bytes ∧ ¬ c.TakesKey ∧
      c.computeSharedSecret answers = (some ⟨c.next, bytes⟩, (c.alloc bytes).2)) := by
  unfold computeSharedSecret
  cases computed : c.sharedSecret answers with
  | none => exact .inl ⟨rfl, by simp⟩
  | some bytes =>
      cases sub : c.subCipher with
      | false => exact .inr (.inr ⟨bytes, rfl, by simp [TakesKey, sub], rfl⟩)
      | true =>
          cases params : c.cipherParams with
          | none => exact .inl ⟨by simp [managerSetKey, alloc, params], by simp [TakesKey, params]⟩
          | some old =>
              refine .inr (.inl ⟨bytes, rfl, by simp [TakesKey, sub, params], ?_⟩)
              simp [managerSetKey, alloc, params]

theorem KeyLive.alloc {c : Context} (live : c.KeyLive) (bytes : List UInt8) :
    (c.alloc bytes).2.KeyLive :=
  fun secret has => List.mem_cons_of_mem _ (live secret has)

/-- A new buffer that becomes the key is allocated. -/
theorem keyLive_installKey_alloc {c : Context} (bytes : List UInt8) :
    ((c.alloc bytes).2.installKey ⟨c.next, bytes⟩).KeyLive := by
  rintro secret ⟨⟩
  exact List.mem_cons_self

/-- A new buffer and its release leave the key as it was. -/
theorem usable_free_alloc {c : Context} {keys : List Secret} (bytes : List UInt8)
    (usable : c.Usable keys) : ((c.alloc bytes).2.free ⟨c.next, bytes⟩).Usable keys := by
  intro secret has
  obtain ⟨live, known⟩ := usable secret has
  refine ⟨?_, known⟩
  have older := c.fresh _ live
  simp only [free, alloc, List.mem_filter, List.mem_cons, decide_eq_true_eq]
  exact ⟨.inr live, by omega⟩

/-- A key that was released is not usable. -/
theorem not_usable_free {c : Context} {keys : List Secret} {secret : Secret}
    (has : c.key = some secret) : ¬ (c.free secret).Usable keys := by
  intro usable
  have live := (usable secret has).1
  simp [free] at live

end Context

end StDevice.Security
