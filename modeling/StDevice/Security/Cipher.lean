import StDevice.Foundation.BlockCipher
import StDevice.Foundation.Fallible

/-!
# The cipher of the security manager

`iot_security_cipher_aes_encrypt` and `iot_security_cipher_aes_decrypt` check what they are
given, and `mbedtls_helper_cipher_aes` runs AES-256 in CBC mode into a buffer that it
allocates. The library is taken as documented: the mode, the padding and the order of the
calls are its own, and the permutation of a key is a parameter.

A decryption takes the padding off, but the buffer keeps the size of the ciphertext and is
wiped behind the plaintext. As the padding is never empty, there is a NUL behind every
plaintext.
-/

namespace StDevice.Security.Cipher

open BlockCipher

/-- The block size of AES. -/
def blockSize : Nat := 16

/-- `iot_security_key_type_t`, as far as the cipher tells them apart. -/
inductive KeyType where
  | aes256 | other
  deriving DecidableEq

/-- `iot_security_cipher_params_t`. A buffer that is NULL is missing. -/
structure Params where
  type : KeyType
  key : Option (List UInt8)
  iv : Option (List UInt8)

/-- `be_context` of the security context, with the functions that its entry has. -/
inductive Backend where
  | contextNull
  | entryNull
  | entry (encrypts decrypts : Bool)
  deriving DecidableEq

/-- `iot_security_context_t`, as far as it is used for a cipher. -/
structure SecurityContext where
  backend : Backend
  cipherParams : Option Params

inductive Error where
  | beContextNull | beFuncsEntryNull | beFuncNull | cipherParamsNull
  | invalidArgs | cipherInvalidAlgo | cipherInvalidKey | cipherInvalidIv
  | cipherKeyLen | cipherIvLen | memAlloc | cipherLibrary | cipherBufOverflow
  deriving DecidableEq, Repr

/-- The library in the course of one call. `alignSetup` is the call of `mbedtls_cipher_setup`
with which `_cipher_get_align_size` asks for the block size. -/
structure Port where
  aes256 : List UInt8 → Equiv.Perm (Block blockSize)
  infoFromType : Bool
  alignSetup : Bool
  malloc : Bool
  setup : Bool
  setkey : Bool
  setPaddingMode : Bool

/-- `iot_security_buffer_t`: the cells allocated at `p`, and `len`. -/
structure Buffer where
  cells : List UInt8
  len : Nat
  deriving DecidableEq, Repr

/-- `_cipher_get_align_size`. Zero is an error. -/
def cipherGetAlignSize (port : Port) (keyType : KeyType) (dataSize : Nat) : Nat :=
  match keyType with
  | .other => 0
  | .aes256 =>
      if dataSize = 0 then 0
      else if port.infoFromType = false then 0
      else if port.alignSetup = false then 0
      else dataSize + (blockSize - dataSize % blockSize)

/-- The first block of a buffer. -/
def firstBlock (buffer : List UInt8) : Block blockSize := fun i => buffer.getD i 0

/-- `mbedtls_cipher_crypt`: the cells it stores, and the length that counts. A decryption
stores the padding, too. -/
def mbedtlsCipherCrypt (port : Port) (key iv : List UInt8) (isEncrypt : Bool)
    (input : List UInt8) : Option (List UInt8 × Nat) :=
  if isEncrypt = true then
    let coded := encrypt (port.aes256 key) (firstBlock iv) input
    some (coded, coded.length)
  else
    (decrypt (port.aes256 key) (firstBlock iv) input).map fun plain =>
      (pad blockSize plain, plain.length)

/-- `_cipher_buffer_wipe`. -/
def cipherBufferWipe (cells : List UInt8) (len wipedLen : Nat) : List UInt8 :=
  cells.take len ++ List.replicate (wipedLen - len) 0

/-- `mbedtls_helper_cipher_aes`. The library stores its output before the length of it is
compared with the size of the buffer. -/
def mbedtlsHelperCipherAes (port : Port) (params : Params) (isEncrypt : Bool)
    (input : List UInt8) : Fallible Error Buffer := do
  let key ← .orFail params.key .cipherInvalidKey
  let iv ← .orFail params.iv .cipherInvalidIv
  .require port.infoFromType .cipherInvalidAlgo
  .require (key.length == 32) .cipherKeyLen
  .require (iv.length == blockSize) .cipherIvLen
  let requiredLen :=
    if isEncrypt = true then cipherGetAlignSize port params.type input.length else input.length
  .require port.malloc .memAlloc
  .require port.setup .cipherLibrary
  .require port.setkey .cipherLibrary
  .require port.setPaddingMode .cipherLibrary
  let output ← .orFail (mbedtlsCipherCrypt port key iv isEncrypt input) .cipherLibrary
  if requiredLen < output.1.length then .stopped
  else do
    .require (output.2 ≤ requiredLen) .cipherBufOverflow
    pure ⟨cipherBufferWipe output.1 output.2 requiredLen, output.2⟩

/-- `port_crypto_cipher_encrypt` and `port_crypto_cipher_decrypt`. -/
def portCryptoCipher (port : Port) (params : Params) (isEncrypt : Bool) (input : List UInt8) :
    Fallible Error Buffer :=
  if input = [] then .failed .invalidArgs
  else
    match params.type with
    | .aes256 => mbedtlsHelperCipherAes port params isEncrypt input
    | .other => .failed .cipherInvalidAlgo

/-- `_iot_security_be_software_cipher_aes_encrypt` and its counterpart. -/
def beSoftwareCipherAes (port : Port) (context : SecurityContext) (isEncrypt : Bool)
    (input : List UInt8) : Fallible Error Buffer := do
  let params ← .orFail context.cipherParams .cipherParamsNull
  portCryptoCipher port params isEncrypt input

/-- `iot_security_cipher_aes_encrypt` and `iot_security_cipher_aes_decrypt`. -/
def iotSecurityCipherAes (port : Port) (context : SecurityContext) (isEncrypt : Bool)
    (input : List UInt8) : Fallible Error Buffer :=
  match context.backend with
  | .contextNull => .failed .beContextNull
  | .entryNull => .failed .beFuncsEntryNull
  | .entry encrypts decrypts =>
      if input = [] then .failed .invalidArgs
      else if (if isEncrypt = true then encrypts else decrypts) = false then .failed .beFuncNull
      else beSoftwareCipherAes port context isEncrypt input

def iotSecurityCipherAesEncrypt (port : Port) (context : SecurityContext) (input : List UInt8) :
    Fallible Error Buffer :=
  iotSecurityCipherAes port context true input

def iotSecurityCipherAesDecrypt (port : Port) (context : SecurityContext) (input : List UInt8) :
    Fallible Error Buffer :=
  iotSecurityCipherAes port context false input

/-! ## What a call comes back with -/

/-- Every call of the library succeeds. -/
def Port.works (port : Port) : Bool :=
  port.infoFromType && port.malloc && port.setup && port.setkey && port.setPaddingMode

/-- A context with this key and initialisation vector, whose backend has the function. -/
structure SecurityContext.Holds (context : SecurityContext) (isEncrypt : Bool)
    (key iv : List UInt8) : Prop where
  backend : ∃ encrypts decrypts, context.backend = .entry encrypts decrypts ∧
    (if isEncrypt = true then encrypts else decrypts) = true
  params : context.cipherParams = some ⟨.aes256, some key, some iv⟩
  keyLen : key.length = 32
  ivLen : iv.length = blockSize

/-- A plaintext as it is encrypted in one message. -/
def sealing (port : Port) (key iv plain : List UInt8) : List UInt8 :=
  encrypt (port.aes256 key) (firstBlock iv) plain

/-- The buffer of a plaintext that was decrypted. -/
def opened (plain : List UInt8) : Buffer :=
  ⟨plain ++ List.replicate (padLen blockSize plain.length) 0, plain.length⟩

theorem blockSize_pos : 0 < blockSize := Nat.succ_pos 15

theorem blockSize_small : blockSize < 256 := by
  rw [blockSize]
  omega

variable {port : Port} {context : SecurityContext} {params : Params} {isEncrypt : Bool}
variable {key iv input : List UInt8} {buffer : Buffer}

theorem length_sealing (port : Port) (key iv plain : List UInt8) :
    (sealing port key iv plain).length = (plain.length / blockSize + 1) * blockSize :=
  length_encrypt _ _ _

theorem sealing_ne_nil (port : Port) (key iv plain : List UInt8) :
    sealing port key iv plain ≠ [] :=
  encrypt_ne_nil _ blockSize_pos _ _

/-- A NUL stands behind every plaintext. -/
theorem zero_mem_opened (plain : List UInt8) : 0 ∈ (opened plain).cells := by
  apply List.mem_append_right
  rw [List.mem_replicate]
  exact ⟨Nat.ne_of_gt (padLen_pos blockSize_pos _), rfl⟩

theorem cipherGetAlignSize_eq (info : port.infoFromType = true) (size : port.alignSetup = true)
    (given : input ≠ []) :
    cipherGetAlignSize port .aes256 input.length = (input.length / blockSize + 1) * blockSize := by
  have positive : input.length ≠ 0 := fun empty => given (List.length_eq_zero_iff.mp empty)
  rw [cipherGetAlignSize, if_neg positive, if_neg (by rw [info]; exact Bool.noConfusion),
    if_neg (by rw [size]; exact Bool.noConfusion)]
  exact add_padLen blockSize_pos input.length

/-- With everything in place only the library decides. -/
theorem iotSecurityCipherAes_eq (works : port.works = true)
    (holds : context.Holds isEncrypt key iv) (given : input ≠ []) :
    iotSecurityCipherAes port context isEncrypt input =
      match mbedtlsCipherCrypt port key iv isEncrypt input with
      | none => .failed .cipherLibrary
      | some (stored, olen) =>
          let requiredLen :=
            if isEncrypt = true then cipherGetAlignSize port .aes256 input.length
            else input.length
          if requiredLen < stored.length then .stopped
          else if olen ≤ requiredLen then .done ⟨cipherBufferWipe stored olen requiredLen, olen⟩
          else .failed .cipherBufOverflow := by
  obtain ⟨encrypts, decrypts, entry, has⟩ := holds.backend
  simp only [Port.works, Bool.and_eq_true] at works
  obtain ⟨⟨⟨⟨info, memory⟩, setup⟩, setkey⟩, padding⟩ := works
  simp only [iotSecurityCipherAes, entry, given, has, if_false, beSoftwareCipherAes,
    holds.params, portCryptoCipher, mbedtlsHelperCipherAes, Fallible.orFail, Fallible.done_bind,
    info, memory, setup, setkey, padding, holds.keyLen, holds.ivLen, beq_self_eq_true,
    Fallible.require, if_true, Bool.true_eq_false]
  cases crypted : mbedtlsCipherCrypt port key iv isEncrypt input with
  | none => rfl
  | some output =>
      simp only [Fallible.done_bind, Fallible.pure_eq, decide_eq_true_eq]
      generalize (if isEncrypt = true then cipherGetAlignSize port .aes256 input.length
        else input.length) = requiredLen
      by_cases small : requiredLen < output.1.length
      · rw [if_pos small, if_pos small]
      · rw [if_neg small, if_neg small]
        split <;> rfl

/-- A run of the library that does not fail has got past every check. -/
theorem works_of_not_fails
    (passes : ¬ (mbedtlsHelperCipherAes port params isEncrypt input).Fails) :
    port.works = true ∧ ∃ key iv, params.key = some key ∧ params.iv = some iv ∧
      key.length = 32 ∧ iv.length = blockSize := by
  rw [mbedtlsHelperCipherAes] at passes
  obtain ⟨key, keyed, passes⟩ := Fallible.not_fails_orFail_bind passes
  obtain ⟨iv, begun, passes⟩ := Fallible.not_fails_orFail_bind passes
  obtain ⟨info, passes⟩ := Fallible.not_fails_require_bind passes
  obtain ⟨keyLen, passes⟩ := Fallible.not_fails_require_bind passes
  obtain ⟨ivLen, passes⟩ := Fallible.not_fails_require_bind passes
  obtain ⟨memory, passes⟩ := Fallible.not_fails_require_bind passes
  obtain ⟨setup, passes⟩ := Fallible.not_fails_require_bind passes
  obtain ⟨setkey, passes⟩ := Fallible.not_fails_require_bind passes
  obtain ⟨padding, -⟩ := Fallible.not_fails_require_bind passes
  refine ⟨?_, key, iv, keyed, begun, beq_iff_eq.mp keyLen, beq_iff_eq.mp ivLen⟩
  rw [Port.works, info, memory, setup, setkey, padding]
  rfl

/-- A call that does not fail had everything in place. -/
theorem holds_of_not_fails (passes : ¬ (iotSecurityCipherAes port context isEncrypt input).Fails) :
    input ≠ [] ∧ port.works = true ∧ ∃ key iv, context.Holds isEncrypt key iv := by
  rw [iotSecurityCipherAes] at passes
  cases entry : context.backend with
  | contextNull =>
      rw [entry] at passes
      exact absurd (Fallible.fails_failed _) passes
  | entryNull =>
      rw [entry] at passes
      exact absurd (Fallible.fails_failed _) passes
  | entry encrypts decrypts =>
      simp only [entry] at passes
      by_cases given : input = []
      · rw [if_pos given] at passes
        exact absurd (Fallible.fails_failed _) passes
      · rw [if_neg given] at passes
        by_cases lacks : (if isEncrypt = true then encrypts else decrypts) = false
        · rw [if_pos lacks] at passes
          exact absurd (Fallible.fails_failed _) passes
        · rw [if_neg lacks, beSoftwareCipherAes] at passes
          obtain ⟨⟨type, keyed, begun⟩, found, passes⟩ := Fallible.not_fails_orFail_bind passes
          rw [portCryptoCipher, if_neg given] at passes
          cases type with
          | other => exact absurd (Fallible.fails_failed _) passes
          | aes256 =>
              obtain ⟨works, key, iv, rfl, rfl, keyLen, ivLen⟩ := works_of_not_fails passes
              exact ⟨given, works, key, iv,
                ⟨encrypts, decrypts, entry, Bool.eq_true_of_not_eq_false lacks⟩, found,
                keyLen, ivLen⟩

/-! ## Encryption -/

/-- The buffer of an encryption has the size of the message, unless the size could not be
computed: then it has no bytes at all, and the message is stored there. -/
theorem iotSecurityCipherAesEncrypt_eq (works : port.works = true)
    (holds : context.Holds true key iv) (given : input ≠ []) :
    iotSecurityCipherAesEncrypt port context input =
      if port.alignSetup = true then
        .done ⟨sealing port key iv input, (sealing port key iv input).length⟩
      else .stopped := by
  have info : port.infoFromType = true := by
    simp only [Port.works, Bool.and_eq_true] at works
    exact works.1.1.1.1
  rw [iotSecurityCipherAesEncrypt, iotSecurityCipherAes_eq works holds given, mbedtlsCipherCrypt,
    if_pos rfl]
  simp only [if_true]
  rw [← sealing]
  by_cases size : port.alignSetup = true
  · rw [cipherGetAlignSize_eq info size given, ← length_sealing port key iv input,
      if_neg (Nat.lt_irrefl _), if_pos (Nat.le_refl _), if_pos size, cipherBufferWipe,
      Nat.sub_self, List.replicate_zero, List.append_nil, List.take_length]
  · have none : cipherGetAlignSize port .aes256 input.length = 0 := by
      have positive : input.length ≠ 0 := fun empty => given (List.length_eq_zero_iff.mp empty)
      rw [cipherGetAlignSize, if_neg positive, if_neg (by rw [info]; exact Bool.noConfusion),
        if_pos (Bool.eq_false_of_not_eq_true size)]
    rw [none, if_pos (List.length_pos_iff.mpr (sealing_ne_nil port key iv input)), if_neg size]

/-- The buffer of a decryption has room for what the library stores, padding included. -/
theorem iotSecurityCipherAesDecrypt_eq (works : port.works = true)
    (holds : context.Holds false key iv) (given : input ≠ []) :
    iotSecurityCipherAesDecrypt port context input =
      match decrypt (port.aes256 key) (firstBlock iv) input with
      | none => .failed .cipherLibrary
      | some plain => .done (opened plain) := by
  rw [iotSecurityCipherAesDecrypt, iotSecurityCipherAes_eq works holds given, mbedtlsCipherCrypt,
    if_neg Bool.false_ne_true]
  cases decrypted : decrypt (port.aes256 key) (firstBlock iv) input with
  | none => rfl
  | some plain =>
      have size : input.length = (pad blockSize plain).length := by
        rw [encrypt_of_decrypt _ blockSize_pos decrypted, length_encrypt,
          length_pad blockSize_pos]
      have more : (pad blockSize plain).length = plain.length + padLen blockSize plain.length := by
        rw [pad, List.length_append, List.length_replicate]
      simp only [Option.map_some, Bool.false_eq_true, if_false]
      rw [size, if_neg (Nat.lt_irrefl _), if_pos (by omega), cipherBufferWipe, pad,
        List.take_left, ← pad, more, Nat.add_sub_cancel_left]
      rfl

theorem iotSecurityCipherAesDecrypt_ne_stopped :
    iotSecurityCipherAesDecrypt port context input ≠ .stopped := by
  intro stops
  have passes : ¬ (iotSecurityCipherAes port context false input).Fails := by
    rw [show iotSecurityCipherAes port context false input = .stopped from stops]
    exact Fallible.not_fails_stopped
  obtain ⟨given, works, key, iv, holds⟩ := holds_of_not_fails passes
  rw [iotSecurityCipherAesDecrypt_eq works holds given] at stops
  split at stops <;> cases stops

/-- What is decrypted are the messages of this key and initialisation vector. -/
theorem iotSecurityCipherAesDecrypt_eq_done_iff :
    iotSecurityCipherAesDecrypt port context input = .done buffer ↔
      port.works = true ∧ ∃ key iv plain, context.Holds false key iv ∧
        input = sealing port key iv plain ∧ buffer = opened plain := by
  constructor
  · intro returns
    have passes : ¬ (iotSecurityCipherAes port context false input).Fails := by
      rw [show iotSecurityCipherAes port context false input = .done buffer from returns]
      exact Fallible.not_fails_done _
    obtain ⟨given, works, key, iv, holds⟩ := holds_of_not_fails passes
    rw [iotSecurityCipherAesDecrypt_eq works holds given] at returns
    cases decrypted : decrypt (port.aes256 key) (firstBlock iv) input with
    | none =>
        rw [decrypted] at returns
        cases returns
    | some plain =>
        rw [decrypted] at returns
        exact ⟨works, key, iv, plain, holds, encrypt_of_decrypt _ blockSize_pos decrypted,
          (Fallible.done.inj returns).symm⟩
  · rintro ⟨works, key, iv, plain, holds, rfl, rfl⟩
    rw [iotSecurityCipherAesDecrypt_eq works holds (sealing_ne_nil port key iv plain), sealing,
      decrypt_encrypt _ blockSize_pos blockSize_small]

/-! ## A sample -/

/-- A library that always succeeds, and whose cipher leaves the blocks as they are. -/
def plainPort : Port := ⟨fun _ => Equiv.refl _, true, true, true, true, true, true⟩

/-- A context with a key and an initialisation vector of zeros. -/
def zeroContext : SecurityContext :=
  ⟨.entry true true, some ⟨.aes256, some (List.replicate 32 0), some (List.replicate 16 0)⟩⟩

theorem zeroContext_holds (isEncrypt : Bool) :
    zeroContext.Holds isEncrypt (List.replicate 32 0) (List.replicate 16 0) where
  backend := ⟨true, true, rfl, by cases isEncrypt <;> rfl⟩
  params := rfl
  keyLen := rfl
  ivLen := rfl

end StDevice.Security.Cipher
