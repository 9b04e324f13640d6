import StDevice.Foundation.JsonText
import StDevice.Security.Base64
import StDevice.Security.Cipher

/-!
# The envelope of a message

Behind the first two steps of an onboarding every payload is encrypted, encoded in base64 and
put into a document under the name "message". `_es_build_output_data` packs a payload and
`_es_parse_input_data` unpacks one.

The pointer in the text of a member is NULL unless the member is a string, and nothing looks
at the type before the text is measured.
-/

namespace StDevice.Easysetup.Envelope

open StDevice.Security StDevice.Security.Cipher

/-- The places where memory is asked for. -/
inductive Malloc where
  | encodeBuf | decodeBuf | srcDup | message | jsonObject | jsonString
  deriving DecidableEq

structure Port where
  cipher : Cipher.Port
  malloc : Malloc → Bool

/-- `iot_error_t`. A failed allocation in `_decode_and_decrypt` comes back as the code of its
log entry, `memAllocDump`. -/
inductive EsError where
  | internalServerError | aes256EncryptionError | aes256DecryptionError
  | base64EncodeError | base64DecodeError | memAllocError | memAllocDump
  | invalidRequest | jsonCreateError
  deriving DecidableEq, Repr

/-- `_encrypt_and_encode`. -/
def encryptAndEncode (port : Port) (context : SecurityContext) (plainMsg : List UInt8) :
    Fallible EsError (List UInt8) :=
  if plainMsg = [] then .failed .internalServerError
  else do
    let encryptBuf ← (iotSecurityCipherAesEncrypt port.cipher context plainMsg).withError
      .aes256EncryptionError
    .require (port.malloc .encodeBuf) .memAllocError
    .orFail (iotSecurityBase64EncodeUrlsafe (encryptBuf.cells.take encryptBuf.len)
      (encodeLen encryptBuf.len)) .base64EncodeError

/-- The result of the decoder. -/
def decoded : Decoded → Fallible EsError (List UInt8)
  | .error => .failed .base64DecodeError
  | .ok data => .done data
  | .overflow => .stopped

/-- `_decode_and_decrypt`: the cells of the buffer with the plaintext. -/
def decodeAndDecrypt (port : Port) (context : SecurityContext) (msg : List UInt8) :
    Fallible EsError (List UInt8) :=
  if msg = [] then .failed .internalServerError
  else do
    .require (port.malloc .decodeBuf) .memAllocDump
    let data ← decoded
      (iotSecurityBase64DecodeUrlsafe (port.malloc .srcDup) msg (decodeLen msg.length))
    let plainBuf ← (iotSecurityCipherAesDecrypt port.cipher context data).withError
      .aes256DecryptionError
    pure plainBuf.cells

/-- `_es_json_parse_string`. The size of the copy is an `unsigned int`. -/
def esJsonParseString (malloc : Bool) (json : Json) (name : String) :
    Fallible EsError (List UInt8) := do
  let recv ← .orFail (json.getObjectItem name) .invalidRequest
  let valuestring ← .deref recv.valuestring
  .require malloc .memAllocError
  let length := (CString.cstr valuestring).length
  if (length + 1) % 2 ^ 32 < length then .stopped else pure (CString.cstr valuestring)

/-- `_es_parse_input_data`, given the document of the request. The callers get NULL for an
error. -/
def esParseInputData (port : Port) (context : SecurityContext) (root : Option Json) :
    Fallible EsError (List UInt8) := do
  let root ← .orFail root .invalidRequest
  let messageValue ← esJsonParseString (port.malloc .message) root "message"
  decodeAndDecrypt port context messageValue

/-- `_es_build_output_data`: the document that is printed. A string that cannot be created is
not added. -/
def esBuildOutputData (port : Port) (context : SecurityContext) (outPayload : List UInt8) :
    Fallible EsError Json := do
  let encryptedMessage ← encryptAndEncode port context outPayload
  .require (port.malloc .jsonObject) .jsonCreateError
  pure (.object (if port.malloc .jsonString = true then
    [(CString.ascii "message", .string encryptedMessage)] else []))

/-! ## Unpacking -/

section Unpacking

variable {port : Port} {context : SecurityContext} {buffer : List UInt8}

theorem decoded_eq_done_iff {result : Decoded} {data : List UInt8} :
    decoded result = .done data ↔ result = .ok data := by
  cases result <;> simp [decoded]

theorem decoded_eq_stopped_iff {result : Decoded} : decoded result = .stopped ↔
    result = .overflow := by
  cases result <;> simp [decoded]

/-- The copy of the text is too small for texts of four gigabytes. -/
theorem decodeUrlsafe_eq_overflow_iff {allocates : Bool} {src : List UInt8} :
    iotSecurityBase64DecodeUrlsafe allocates src (decodeLen src.length) = .overflow ↔
      allocates = true ∧ 4294967292 < src.length := by
  have positive : decodeLen src.length ≠ 0 := by
    rw [decodeLen]
    omega
  by_cases empty : src = []
  · rw [iotSecurityBase64DecodeUrlsafe, if_pos (.inl empty), empty, List.length_nil]
    simp
  · rw [iotSecurityBase64DecodeUrlsafe, if_neg (not_or.mpr ⟨empty, positive⟩)]
    cases allocates with
    | false => simp
    | true =>
        rw [if_neg (by simp)]
        by_cases long : 4294967292 < src.length
        · rw [if_pos (alignLen_of_long long)]
          simp [long]
        · have short : src.length ≤ 4294967292 := Nat.le_of_not_lt long
          rw [if_neg (by rw [alignLen_of_short short]; omega)]
          simp only
          split <;> simp [long]

theorem decodeUrlsafe_eq_ok {allocates : Bool} {src data : List UInt8}
    (ok : iotSecurityBase64DecodeUrlsafe allocates src (decodeLen src.length) = .ok data) :
    allocates = true ∧ src ≠ [] ∧ src.length ≤ 4294967292 := by
  have given : src ≠ [] := by
    rintro rfl
    rw [iotSecurityBase64DecodeUrlsafe, if_pos (.inl rfl)] at ok
    cases ok
  have allocated : allocates = true := by
    cases allocates with
    | true => rfl
    | false =>
        rw [iotSecurityBase64DecodeUrlsafe] at ok
        split at ok <;> cases ok
  refine ⟨allocated, given, Nat.le_of_not_lt fun long => ?_⟩
  rw [decodeUrlsafe_eq_overflow_iff.mpr ⟨allocated, long⟩] at ok
  cases ok

/-- What is decrypted is the one plaintext of the message. -/
theorem decodeAndDecrypt_eq_done_iff {msg : List UInt8} :
    decodeAndDecrypt port context msg = .done buffer ↔
      port.cipher.works = true ∧ port.malloc .decodeBuf = true ∧ ∃ key iv plain,
        context.Holds false key iv ∧
          iotSecurityBase64DecodeUrlsafe (port.malloc .srcDup) msg (decodeLen msg.length) =
            .ok (sealing port.cipher key iv plain) ∧
          buffer = (opened plain).cells := by
  constructor
  · intro returns
    rw [decodeAndDecrypt] at returns
    split at returns
    case isTrue => cases returns
    case isFalse =>
      obtain ⟨_, memory, returns⟩ := Fallible.bind_eq_done_iff.mp returns
      obtain ⟨data, ok, returns⟩ := Fallible.bind_eq_done_iff.mp returns
      obtain ⟨plainBuf, decrypts, returns⟩ := Fallible.bind_eq_done_iff.mp returns
      obtain ⟨works, key, iv, plain, holds, rfl, rfl⟩ :=
        iotSecurityCipherAesDecrypt_eq_done_iff.mp (Fallible.withError_eq_done_iff.mp decrypts)
      exact ⟨works, Fallible.require_eq_done_iff.mp memory, key, iv, plain, holds,
        decoded_eq_done_iff.mp ok, (Fallible.done.inj returns).symm⟩
  · rintro ⟨works, memory, key, iv, plain, holds, ok, rfl⟩
    have decrypts := iotSecurityCipherAesDecrypt_eq_done_iff.mpr
      ⟨works, key, iv, plain, holds, rfl, rfl⟩
    rw [decodeAndDecrypt, if_neg (decodeUrlsafe_eq_ok ok).2.1, memory, Fallible.require, if_pos rfl,
      Fallible.done_bind, ok, decoded, Fallible.done_bind, decrypts]
    rfl

theorem decodeAndDecrypt_eq_stopped_iff {msg : List UInt8} :
    decodeAndDecrypt port context msg = .stopped ↔
      port.malloc .decodeBuf = true ∧ port.malloc .srcDup = true ∧ 4294967292 < msg.length := by
  by_cases empty : msg = []
  · rw [decodeAndDecrypt, if_pos empty, empty, List.length_nil]
    simp
  · rw [decodeAndDecrypt, if_neg empty, Fallible.bind_eq_stopped_iff]
    simp only [Fallible.require_ne_stopped, false_or, Fallible.require_eq_done_iff,
      Fallible.bind_eq_stopped_iff, decoded_eq_stopped_iff, decodeUrlsafe_eq_overflow_iff,
      Fallible.withError_eq_stopped_iff, iotSecurityCipherAesDecrypt_ne_stopped,
      Fallible.pure_eq, reduceCtorEq, and_false, exists_false, or_false, exists_const]

theorem esJsonParseString_eq_done_iff {malloc : Bool} {json : Json} {name : String}
    {text : List UInt8} :
    esJsonParseString malloc json name = .done text ↔
      malloc = true ∧ text.length + 1 < 2 ^ 32 ∧
        (json.memberText name).map CString.cstr = some text := by
  constructor
  · intro returns
    obtain ⟨recv, found, returns⟩ := Fallible.bind_eq_done_iff.mp returns
    obtain ⟨valuestring, isString, returns⟩ := Fallible.bind_eq_done_iff.mp returns
    obtain ⟨_, memory, returns⟩ := Fallible.bind_eq_done_iff.mp returns
    rw [Fallible.orFail_eq_done_iff] at found
    rw [Fallible.deref_eq_done_iff] at isString
    dsimp only at returns
    split at returns
    case isTrue => cases returns
    case isFalse room =>
      obtain rfl := Fallible.done.inj returns
      refine ⟨Fallible.require_eq_done_iff.mp memory, ?_, ?_⟩
      · omega
      · rw [Json.memberText_eq_of_getObjectItem found, isString, Option.map_some]
  · rintro ⟨memory, room, found⟩
    obtain ⟨valuestring, isString, rfl⟩ := Option.map_eq_some_iff.mp found
    rw [Json.memberText, Option.bind_eq_some_iff] at isString
    obtain ⟨recv, found, isString⟩ := isString
    rw [esJsonParseString, found, Fallible.orFail, Fallible.done_bind, isString, Fallible.deref,
      Fallible.done_bind, memory, Fallible.require, if_pos rfl, Fallible.done_bind]
    exact if_neg (by omega)

theorem esJsonParseString_eq_stopped_iff {malloc : Bool} {json : Json} {name : String} :
    esJsonParseString malloc json name = .stopped ↔
      ∃ item, json.getObjectItem name = some item ∧
        (item.valuestring = none ∨ malloc = true ∧ ∃ text, item.valuestring = some text ∧
          2 ^ 32 ≤ (CString.cstr text).length + 1) := by
  rw [esJsonParseString, Fallible.bind_eq_stopped_iff]
  simp only [Fallible.orFail_ne_stopped, false_or, Fallible.orFail_eq_done_iff,
    Fallible.bind_eq_stopped_iff, Fallible.deref_eq_stopped_iff, Fallible.deref_eq_done_iff,
    Fallible.require_ne_stopped, Fallible.require_eq_done_iff, exists_const]
  have room (text : List UInt8) :
      (if (text.length + 1) % 2 ^ 32 < text.length then (.stopped : Fallible EsError (List UInt8))
        else pure text) = .stopped ↔ 2 ^ 32 ≤ text.length + 1 := by
    split
    case isTrue small => exact ⟨fun _ => by omega, fun _ => rfl⟩
    case isFalse large =>
      constructor
      · intro stops
        rw [Fallible.pure_eq] at stops
        cases stops
      · intro long
        exact absurd (by omega) large
  constructor
  · rintro ⟨item, found, isNull | ⟨text, isString, memory, stops⟩⟩
    · exact ⟨item, found, .inl isNull⟩
    · exact ⟨item, found, .inr ⟨memory, text, isString, (room _).mp stops⟩⟩
  · rintro ⟨item, found, isNull | ⟨memory, text, isString, long⟩⟩
    · exact ⟨item, found, .inl isNull⟩
    · exact ⟨item, found, .inr ⟨text, isString, memory, (room _).mpr long⟩⟩

end Unpacking

section Parsing

variable {port : Port} {context : SecurityContext} {root : Option Json}

/-- A request takes the parser out of its memory exactly when the member "message" is no
string, or a string of four gigabytes for which there is memory. -/
theorem esParseInputData_eq_stopped_iff :
    esParseInputData port context root = .stopped ↔
      ∃ json item, root = some json ∧ json.getObjectItem "message" = some item ∧
        (item.valuestring = none ∨ port.malloc .message = true ∧ ∃ text,
          item.valuestring = some text ∧
            (4294967295 ≤ (CString.cstr text).length ∨
              port.malloc .decodeBuf = true ∧ port.malloc .srcDup = true ∧
                4294967292 < (CString.cstr text).length)) := by
  rw [esParseInputData, Fallible.bind_eq_stopped_iff]
  simp only [Fallible.orFail_ne_stopped, false_or, Fallible.orFail_eq_done_iff,
    Fallible.bind_eq_stopped_iff, esJsonParseString_eq_stopped_iff,
    esJsonParseString_eq_done_iff, decodeAndDecrypt_eq_stopped_iff]
  constructor
  · rintro ⟨json, rfl, ⟨item, found, isNull | ⟨memory, text, isString, long⟩⟩ |
      ⟨message, ⟨memory, -, isString⟩, buf, dup, long⟩⟩
    · exact ⟨json, item, rfl, found, .inl isNull⟩
    · exact ⟨json, item, rfl, found, .inr ⟨memory, text, isString, .inl (by omega)⟩⟩
    · obtain ⟨text, member, rfl⟩ := Option.map_eq_some_iff.mp isString
      rw [Json.memberText, Option.bind_eq_some_iff] at member
      obtain ⟨item, found, isString⟩ := member
      exact ⟨json, item, rfl, found, .inr ⟨memory, text, isString, .inr ⟨buf, dup, long⟩⟩⟩
  · rintro ⟨json, item, rfl, found, isNull | ⟨memory, text, isString, long⟩⟩
    · exact ⟨json, rfl, .inl ⟨item, found, .inl isNull⟩⟩
    · by_cases huge : 2 ^ 32 ≤ (CString.cstr text).length + 1
      · exact ⟨json, rfl, .inl ⟨item, found, .inr ⟨memory, text, isString, huge⟩⟩⟩
      · obtain ⟨buf, dup, long⟩ := long.resolve_left (by omega)
        refine ⟨json, rfl, .inr ⟨CString.cstr text, ⟨memory, by omega, ?_⟩, buf, dup, long⟩⟩
        rw [Json.memberText_eq_of_getObjectItem found, isString, Option.map_some]

/-- A request is accepted when its text is the encoding of a message that was made with the
key and the initialisation vector of the device. The buffer has the plaintext of it with one
to sixteen NULs behind. -/
theorem esParseInputData_eq_done_iff {buffer : List UInt8} :
    esParseInputData port context root = .done buffer ↔
      port.cipher.works = true ∧ port.malloc .message = true ∧ port.malloc .decodeBuf = true ∧
        ∃ json text key iv plain, root = some json ∧
          (json.memberText "message").map CString.cstr = some text ∧
          context.Holds false key iv ∧
          iotSecurityBase64DecodeUrlsafe (port.malloc .srcDup) text (decodeLen text.length) =
            .ok (sealing port.cipher key iv plain) ∧
          buffer = (opened plain).cells := by
  constructor
  · intro returns
    obtain ⟨json, parsed, returns⟩ := Fallible.bind_eq_done_iff.mp returns
    obtain ⟨text, found, returns⟩ := Fallible.bind_eq_done_iff.mp returns
    obtain ⟨memory, -, found⟩ := esJsonParseString_eq_done_iff.mp found
    obtain ⟨works, buf, key, iv, plain, holds, ok, same⟩ :=
      decodeAndDecrypt_eq_done_iff.mp returns
    exact ⟨works, memory, buf, json, text, key, iv, plain, Fallible.orFail_eq_done_iff.mp parsed,
      found, holds, ok, same⟩
  · rintro ⟨works, memory, buf, json, text, key, iv, plain, rfl, found, holds, ok, rfl⟩
    have short := (decodeUrlsafe_eq_ok ok).2.2
    have copied := esJsonParseString_eq_done_iff.mpr ⟨memory, by omega, found⟩
    have opens := decodeAndDecrypt_eq_done_iff.mpr ⟨works, buf, key, iv, plain, holds, ok, rfl⟩
    rw [esParseInputData, Fallible.orFail, Fallible.done_bind, copied, Fallible.done_bind, opens]

end Parsing

/-! ## Packing and unpacking -/

/-- Every call of the library succeeds, and there is memory. -/
structure Port.Succeeds (port : Port) : Prop where
  works : port.cipher.works = true
  aligns : port.cipher.alignSetup = true
  memory : ∀ m, port.malloc m = true

section RoundTrip

variable {sender receiver : Port} {outgoing incoming : SecurityContext}
variable {key iv payload : List UInt8}

theorem encryptAndEncode_eq (sends : sender.Succeeds) (holds : outgoing.Holds true key iv)
    (given : payload ≠ []) :
    encryptAndEncode sender outgoing payload =
      .orFail (iotSecurityBase64EncodeUrlsafe (sealing sender.cipher key iv payload)
        (encodeLen (sealing sender.cipher key iv payload).length)) .base64EncodeError := by
  rw [encryptAndEncode, if_neg given,
    iotSecurityCipherAesEncrypt_eq sends.works holds given, if_pos sends.aligns,
    Fallible.withError, Fallible.done_bind, sends.memory, Fallible.require, if_pos rfl,
    Fallible.done_bind, List.take_length]

theorem esBuildOutputData_eq_done_iff (sends : sender.Succeeds)
    (holds : outgoing.Holds true key iv) (given : payload ≠ []) {doc : Json} :
    esBuildOutputData sender outgoing payload = .done doc ↔
      ∃ text, iotSecurityBase64EncodeUrlsafe (sealing sender.cipher key iv payload)
          (encodeLen (sealing sender.cipher key iv payload).length) = some text ∧
        doc = .object [(CString.ascii "message", .string text)] := by
  rw [esBuildOutputData, encryptAndEncode_eq sends holds given, Fallible.bind_eq_done_iff]
  simp only [sends.memory, Fallible.require, if_true, Fallible.done_bind, Fallible.pure_eq,
    Fallible.orFail_eq_done_iff, Fallible.done.injEq]
  constructor
  · rintro ⟨text, encoded, rfl⟩
    exact ⟨text, encoded, rfl⟩
  · rintro ⟨text, encoded, rfl⟩
    exact ⟨text, encoded, rfl⟩

/-- The text that comes out of the encoder. -/
theorem eq_of_encodeUrlsafe {bytes text : List UInt8} {dstLen : Nat}
    (encoded : iotSecurityBase64EncodeUrlsafe bytes dstLen = some text) :
    text = (Base64.encode bytes).map urlEncode := by
  rw [iotSecurityBase64EncodeUrlsafe] at encoded
  split at encoded
  case isTrue => cases encoded
  case isFalse given =>
    obtain ⟨plain, same, rfl⟩ := Option.map_eq_some_iff.mp encoded
    rw [base64Encode, if_neg fun empty => given (.inl empty)] at same
    dsimp only at same
    generalize bytes.length / 3 + (if bytes.length % 3 ≠ 0 then 1 else 0) = groups at same
    split at same
    case isTrue => cases same
    case isFalse =>
      split at same
      case isTrue => cases same
      case isFalse => rw [Option.some.inj same]

theorem zero_notMem_of_encodeUrlsafe {bytes text : List UInt8} {dstLen : Nat}
    (encoded : iotSecurityBase64EncodeUrlsafe bytes dstLen = some text) : 0 ∉ text := by
  intro inside
  rw [eq_of_encodeUrlsafe encoded] at inside
  rcases isUrlsafe_of_mem inside with safe | pad
  · rw [IsUrlsafe] at safe
    revert safe
    decide
  · cases pad

/-- The text of a message has less than four gigabytes as long as the payload has less than
three. -/
theorem length_sealing_le_iff (port : Cipher.Port) (key iv payload : List UInt8) :
    (sealing port key iv payload).length ≤ 3221225469 ↔ payload.length < 3221225456 := by
  rw [length_sealing, blockSize]
  omega

/-- What one party packs the other one unpacks, from the document as it was printed. -/
def Exchanged (sender receiver : Port) (outgoing incoming : SecurityContext)
    (payload : List UInt8) : Prop :=
  ∃ doc buffer, esBuildOutputData sender outgoing payload = .done doc ∧
    esParseInputData receiver incoming (some doc.asPrinted) = .done buffer ∧
    CString.cstr buffer = payload

/-- The member that was packed is found in what was printed. -/
theorem memberText_message (text : List UInt8) :
    (Json.object [(CString.ascii "message", .string text)]).asPrinted.memberText "message" =
      some text := by
  have here : (Json.object [(CString.ascii "message", .string text)]).getObjectItem "message" =
      some (.string text) := by
    have first := @Json.getObjectItem_behind [] [] "message" (.string text) nofun
    exact first
  rw [Json.memberText_eq_of_getObjectItem (Json.getObjectItem_asPrinted here), Json.asPrinted,
    Json.valuestring]

end RoundTrip

def plainPort : Port := ⟨Cipher.plainPort, fun _ => true⟩

theorem plainPort_succeeds : plainPort.Succeeds where
  works := rfl
  aligns := rfl
  memory _ := rfl

end StDevice.Easysetup.Envelope
