import StDevice.Foundation.Buffer
import StDevice.Foundation.Fallible
import StDevice.Foundation.JsonText
import StDevice.Security.Base64
import StDevice.Security.Certificate
import StDevice.Util.Uuid

/-!
# Web tokens

`_iot_jwt_create` of the JSON build prints a header and a payload, encodes both, signs the
text they make and adds the encoded signature. The length of the token is computed before
there is a signature, from the length the key type announces.

The three helpers start with `err` at IOT_ERROR_NONE and share an exit that leaves it there
where the buffer for the base64 text cannot be allocated. Their output buffer then stays
empty and the token is made without this part.
-/

namespace StDevice.Security

open Util (IotUuid iotUtilConvertUuidStr)

/-- `iot_security_key_type_t` of a key that signs. -/
inductive PkType where
  | unknown | ed25519 | rsa2048 | eccp256 | max
  deriving DecidableEq

/-- `iot_security_pk_get_signature_len`. -/
def iotSecurityPkGetSignatureLen : PkType → Nat
  | .rsa2048 => 256
  | .eccp256 => 1024
  | .ed25519 => 64
  | _ => 0

inductive WtError where
  | invalidArgs | securityInit | memAlloc | webtokenFail
  | securityInvalidArgs | securityBase64Encode
  /-- an error of the security backend or of the port -/
  | backend (code : Nat)
  deriving DecidableEq

/-- The fields of `iot_wt_params_t` that are read. -/
structure IotWtParams where
  sn : Option CString
  mnid : Option CString
  dipid : Option CString
  dipidLen : Nat
  certSn : Option CString

/-- `iot_security_buffer_t`; cells without a value were never written. -/
structure SecurityBuffer where
  p : Option (List (Option UInt8))
  len : Nat
  deriving DecidableEq

/-- The certificates of a header. -/
inductive CertId where
  | device | subCa
  deriving DecidableEq

/-- A text of JSON_PRINT. The library makes none of more than INT_MAX bytes. -/
structure Printed extends CString where
  something : bytes ≠ []
  short : bytes.length < 2 ^ 31

/-- A stored certificate whose copy without frame stays inside its allocation. -/
structure StoredCertificate extends CString where
  trims : (iotJwtHeaderTrimCertificate toCString).isSome = true

/-- The text of `trim_buf`. -/
def StoredCertificate.trimmed (cert : StoredCertificate) : List UInt8 :=
  (iotJwtHeaderTrimCertificate cert.toCString).get cert.trims

/-- How the calls to the JSON library end that make one document. -/
structure JsonCalls where
  createObject : Bool
  createArray : Bool
  /-- whether a member can be created and added -/
  adds : String → Bool
  /-- whether a certificate can be created and added -/
  addsCertificate : CertId → Bool
  print : Json → Option Printed

/-- How the two allocations of `_iot_wt_alloc_b64_buffer` end. -/
structure B64Allocation where
  handle : Bool
  text : Bool

def B64Allocation.succeeds (a : B64Allocation) : Bool := a.handle && a.text

/-- How the calls end that one creation makes: errors are `none` where the call succeeds. -/
structure WtCalls where
  securityInit : Bool
  pkInit : Option WtError
  keyType : PkType
  pkGetKeyType : Option WtError
  header : JsonCalls
  certificate : CertId → Option StoredCertificate
  mallocTrim : CertId → Bool
  b64h : B64Allocation
  getTimeInSec : Option CString
  getRandomUuid : Option IotUuid
  payload : JsonCalls
  b64p : B64Allocation
  mallocToken : Bool
  /-- the second call, of `_iot_jwt_create_b64s` -/
  pkGetKeyTypeAgain : Option WtError
  sha256 : Option WtError
  hash : List UInt8 → List UInt8
  hashLength : ∀ input, (hash input).length = 32
  pkSign : Option WtError
  /-- the backend may succeed and return no signature -/
  signsNothing : Bool
  signature : List UInt8 → List UInt8
  signatureLength : ∀ input, signature input ≠ [] ∧
    (signature input).length ≤ iotSecurityPkGetSignatureLen keyType
  b64s : B64Allocation

/-- A member with a text. -/
def JsonCalls.stringMember (json : JsonCalls) (name : String) (text : Option (List UInt8)) :
    List (List UInt8 × Json) :=
  if json.adds name then Json.stringMember name text else []

/-- A member with a literal. -/
def JsonCalls.literal (json : JsonCalls) (name text : String) : List (List UInt8 × Json) :=
  json.stringMember name (some (CString.ascii text))

/-- The text of a pointer that may be NULL. -/
def textOf (s : Option CString) : Option (List UInt8) := s.map CString.bytes

/-- The check of `dipid`, which makes the header carry certificates. -/
def IotWtParams.hasDip (wtParams : IotWtParams) : Bool :=
  wtParams.dipid.isSome && decide (0 < wtParams.dipidLen)

section Create

variable (calls : WtCalls)

/-- A certificate that is read, trimmed and added to the array. -/
def certificateItem (id : CertId) : Option (List Json) :=
  match calls.certificate id with
  | none => none
  | some cert =>
      if calls.mallocTrim id then
        some (if calls.header.addsCertificate id then [.string cert.trimmed] else [])
      else none

/-- `_iot_jwt_header_set_certificate`, as the member it adds. -/
def iotJwtHeaderSetCertificate : Option (List (List UInt8 × Json)) :=
  if calls.header.createArray = false then none
  else
    match certificateItem calls .device with
    | none => none
    | some device =>
        match certificateItem calls .subCa with
        | none => none
        | some subCa =>
            some (if calls.header.adds "x5c" then
              [(CString.ascii "x5c", .array (device ++ subCa))] else [])

/-- The members behind the first five. -/
def kidMembers (wtParams : IotWtParams) : Option (List (List UInt8 × Json)) :=
  if wtParams.hasDip then
    (iotJwtHeaderSetCertificate calls).map fun x5c =>
      calls.header.stringMember "kid" (textOf wtParams.certSn) ++ x5c
  else some (calls.header.stringMember "kid" (textOf wtParams.sn))

/-- The body of the three functions that make a header. -/
def headerText (alg kty crv : String) (wtParams : IotWtParams)
    (kid : Option (List (List UInt8 × Json))) : Option Printed :=
  if wtParams.sn.isNone then none
  else if calls.header.createObject = false then none
  else
    match kid with
    | none => none
    | some kid =>
        calls.header.print (.object (calls.header.literal "alg" alg ++
          calls.header.literal "kty" kty ++ calls.header.literal "crv" crv ++
          calls.header.literal "typ" "JWT" ++ calls.header.literal "ver" "0.0.1" ++ kid))

/-- `_iot_jwt_header_rs256`. -/
def iotJwtHeaderRs256 (wtParams : IotWtParams) : Option Printed :=
  headerText calls "RS256" "RSA" "" wtParams (kidMembers calls wtParams)

/-- `_iot_jwt_header_ed25519`, which has no certificates. -/
def iotJwtHeaderEd25519 (wtParams : IotWtParams) : Option Printed :=
  headerText calls "EdDSA" "OKP" "Ed25519" wtParams
    (some (calls.header.stringMember "kid" (textOf wtParams.sn)))

/-- `_iot_jwt_header_eccp256`. -/
def iotJwtHeaderEccp256 (wtParams : IotWtParams) : Option Printed :=
  headerText calls "ES256" "EC" "P256" wtParams (kidMembers calls wtParams)

/-- `_iot_jwt_create_header`. -/
def iotJwtCreateHeader (wtParams : IotWtParams) : Option Printed :=
  match calls.keyType with
  | .rsa2048 => iotJwtHeaderRs256 calls wtParams
  | .ed25519 => iotJwtHeaderEd25519 calls wtParams
  | .eccp256 => iotJwtHeaderEccp256 calls wtParams
  | _ => none

/-- The document of `_iot_jwt_create_payload`. -/
def payloadJson (wtParams : IotWtParams) (mnid timeInSec : CString) (uuidStr : List UInt8) : Json :=
  .object (calls.payload.stringMember "iat" (some timeInSec.bytes) ++
    calls.payload.stringMember "jti" (some uuidStr) ++
    calls.payload.stringMember "mnId" (some mnid.bytes) ++
    if wtParams.hasDip then calls.payload.stringMember "dipId" (textOf wtParams.dipid) else [])

/-- `_iot_jwt_create_payload`. -/
def iotJwtCreatePayload (wtParams : IotWtParams) : Option Printed := do
  let mnid ← wtParams.mnid
  let timeInSec ← calls.getTimeInSec
  let uuid ← calls.getRandomUuid
  let uuidStr ← iotUtilConvertUuidStr uuid 40
  if calls.payload.createObject = false then none
  else calls.payload.print (payloadJson calls wtParams mnid timeInSec uuidStr)

end Create

/-- `iot_security_base64_encode`. -/
def iotSecurityBase64Encode (src : List UInt8) (dstLen : Nat) : Fallible WtError (List UInt8) :=
  if src = [] ∨ dstLen = 0 then .failed .securityInvalidArgs
  else .orFail (base64Encode dstLen src) .securityBase64Encode

/-- `_iot_wt_alloc_b64_buffer`, as the length of the buffer. -/
def iotWtAllocB64Buffer (a : B64Allocation) (plainLen : Nat) : Option Nat :=
  if a.handle = false then none
  else if a.text = false then none
  else some (encodeLen plainLen)

/-- What the three helpers do with the text they encode. Without a buffer they leave, with
`err` as it is, and nothing is put in the output buffer. -/
def encodePart (a : B64Allocation) (plain : List UInt8) :
    Fallible WtError (Option (List UInt8)) :=
  match iotWtAllocB64Buffer a plain.length with
  | none => .done none
  | some len => do
      let text ← iotSecurityBase64Encode plain len
      .done (some text)

section Sign

variable (calls : WtCalls)

/-- `iot_security_pk_sign`. -/
def iotSecurityPkSign (input : List UInt8) : Fallible WtError (List UInt8) :=
  if input = [] then .failed .securityInvalidArgs
  else
    match calls.pkSign with
    | some err => .failed err
    | none => .done (if calls.signsNothing then [] else calls.signature input)

/-- `iot_security_sha256`. -/
def iotSecuritySha256 (input : List UInt8) : Fallible WtError (List UInt8) :=
  if input = [] then .failed .securityInvalidArgs
  else
    match calls.sha256 with
    | some err => .failed err
    | none => .done (calls.hash input)

/-- The switch of `_iot_jwt_create_b64s`. -/
def signText (b64hp : List UInt8) : Fallible WtError (List UInt8) :=
  match calls.keyType with
  | .ed25519 => iotSecurityPkSign calls b64hp
  | _ => do
      let hash ← iotSecuritySha256 calls b64hp
      iotSecurityPkSign calls hash

/-- An error code that is returned where it is not IOT_ERROR_NONE. -/
def succeed (err : Option WtError) : Fallible WtError Unit :=
  match err with
  | none => .done ()
  | some err => .failed err

/-- `_iot_jwt_create_b64h`. -/
def iotJwtCreateB64h (wtParams : IotWtParams) : Fallible WtError (Option (List UInt8)) := do
  let hdr ← .orFail (iotJwtCreateHeader calls wtParams) .webtokenFail
  encodePart calls.b64h hdr.bytes

/-- `_iot_jwt_create_b64p`. -/
def iotJwtCreateB64p (wtParams : IotWtParams) : Fallible WtError (Option (List UInt8)) := do
  let payload ← .orFail (iotJwtCreatePayload calls wtParams) .webtokenFail
  encodePart calls.b64p payload.bytes

/-- `_iot_jwt_create_b64s`. -/
def iotJwtCreateB64s (b64hp : List UInt8) : Fallible WtError (Option (List UInt8)) := do
  succeed calls.pkGetKeyTypeAgain
  let sig ← signText calls b64hp
  encodePart calls.b64s sig

/-- `memcpy` or an assignment at `tmp + written`; outside the allocation it has no meaning. -/
def store (tmp : List (Option UInt8)) (written : Nat) (text : List UInt8) :
    Fallible WtError (List (Option UInt8)) :=
  .deref (Buffer.write tmp written (text.map some))

/-- `token_len`. -/
def tokenLen (b64h b64p : List UInt8) : Nat :=
  (b64h.length + b64p.length + encodeLen (iotSecurityPkGetSignatureLen calls.keyType) + 3) % 2 ^ 64

/-- `_iot_jwt_create` behind `b64h.b64`. -/
def joinToken (b64h b64p : List UInt8) : Fallible WtError SecurityBuffer := do
  .require calls.mallocToken .memAlloc
  let tmp := List.replicate (tokenLen calls b64h b64p) none
  let tmp ← store tmp 0 b64h
  let tmp ← store tmp b64h.length [46]
  let tmp ← store tmp (b64h.length + 1) b64p
  let written := b64h.length + 1 + b64p.length
  let b64s ← iotJwtCreateB64s calls ((tmp.take written).filterMap id)
  let tmp ← store tmp written [46]
  let tmp ← store tmp (written + 1) (b64s.getD [])
  let written := written + 1 + (b64s.getD []).length
  let tmp ← store tmp written [0]
  .done ⟨some tmp, written⟩

/-- `_iot_jwt_create` between the check of its arguments and `token_buf`. -/
def createToken (wtParams : IotWtParams) : Fallible WtError SecurityBuffer := do
  .require calls.securityInit .securityInit
  succeed calls.pkInit
  succeed calls.pkGetKeyType
  let b64h ← iotJwtCreateB64h calls wtParams
  let b64p ← iotJwtCreateB64p calls wtParams
  joinToken calls (b64h.getD []) (b64p.getD [])

/-- How a call ends. -/
structure WtEnd where
  err : Option WtError
  tokenBuf : Option SecurityBuffer

/-- `_iot_jwt_create`; there is no result for a write outside the token. -/
def iotJwtCreate (wtParams : Option IotWtParams) (tokenBuf : Option SecurityBuffer) :
    Option WtEnd :=
  match wtParams, tokenBuf with
  | some wtParams, some _ =>
      match createToken calls wtParams with
      | .stopped => none
      | .failed err => some ⟨some err, tokenBuf⟩
      | .done token => some ⟨none, some token⟩
  | _, _ => some ⟨some .invalidArgs, tokenBuf⟩

end Sign

/-! ## One part -/

theorem encodePart_eq {plain : List UInt8} (given : plain ≠ []) (short : plain.length < 2 ^ 62)
    (a : B64Allocation) :
    encodePart a plain = .done (if a.succeeds then some (Base64.encode plain) else none) := by
  have given' : ¬ (plain = [] ∨ encodeLen plain.length = 0) := by
    rintro (empty | zero)
    · exact given empty
    · exact absurd zero (encodeLen_pos _).ne'
  rw [encodePart, iotWtAllocB64Buffer, B64Allocation.succeeds]
  cases a.handle with
  | false => rfl
  | true =>
      cases a.text with
      | false => rfl
      | true =>
          simp only [Bool.true_eq_false, if_false, iotSecurityBase64Encode, if_neg given',
            base64Encode_encodeLen given short]
          rfl

/-- Nothing cannot be encoded, but this is noticed only where there is a buffer for it. -/
theorem encodePart_nil (a : B64Allocation) :
    encodePart a [] = if a.succeeds then .failed .securityInvalidArgs else .done none := by
  rw [encodePart, iotWtAllocB64Buffer, B64Allocation.succeeds]
  cases a.handle with
  | false => rfl
  | true => cases a.text <;> rfl

theorem encode_ne_nil {data : List UInt8} (given : data ≠ []) : Base64.encode data ≠ [] := by
  intro empty
  have length := Base64.length_encode data
  have positive : 0 < data.length := List.length_pos_iff.mpr given
  rw [empty, List.length_nil] at length
  omega

/-- There is no dot in a part. -/
theorem dot_notMem_encode (data : List UInt8) : (46 : UInt8) ∉ Base64.encode data := by
  intro inside
  obtain ⟨n, char⟩ | pad := mem_encode inside
  · have value := decMap_char_lt n
    rw [← char] at value
    exact absurd value (by decide)
  · exact absurd pad (by decide)

/-! ## The signature -/

section Signature

variable (calls : WtCalls)

/-- What is made of the text before it is signed. -/
def signed (b64hp : List UInt8) : List UInt8 :=
  match calls.keyType with
  | .ed25519 => calls.signature b64hp
  | _ => calls.signature (calls.hash b64hp)

/-- No call on the way to a signature fails. -/
structure WtCalls.Signs : Prop where
  sha256 : calls.keyType = .ed25519 ∨ calls.sha256 = none
  pkSign : calls.pkSign = none

variable {calls} {b64hp sig : List UInt8}

theorem signed_bounds (calls : WtCalls) (b64hp : List UInt8) : signed calls b64hp ≠ [] ∧
    (signed calls b64hp).length ≤ iotSecurityPkGetSignatureLen calls.keyType := by
  rw [signed]
  split
  · exact calls.signatureLength _
  · exact calls.signatureLength _

theorem announced_le (type : PkType) : iotSecurityPkGetSignatureLen type ≤ 1024 := by
  cases type <;> decide

private theorem iotSecurityPkSign_eq_done_iff {input : List UInt8} (given : input ≠ []) :
    iotSecurityPkSign calls input = .done sig ↔
      calls.pkSign = none ∧ sig = if calls.signsNothing then [] else calls.signature input := by
  rw [iotSecurityPkSign, if_neg given]
  cases calls.pkSign with
  | none =>
      constructor
      · intro done
        exact ⟨rfl, (Fallible.done.inj done).symm⟩
      · rintro ⟨-, rfl⟩
        rfl
  | some err =>
      constructor
      · intro done
        cases done
      · rintro ⟨succeeds, -⟩
        cases succeeds

theorem signText_eq_done_iff (given : b64hp ≠ []) :
    signText calls b64hp = .done sig ↔
      calls.Signs ∧ sig = if calls.signsNothing then [] else signed calls b64hp := by
  have hashed : calls.hash b64hp ≠ [] := by
    apply List.ne_nil_of_length_pos
    rw [calls.hashLength]
    decide
  by_cases plain : calls.keyType = .ed25519
  · simp only [signText, signed, plain, iotSecurityPkSign_eq_done_iff given]
    exact ⟨fun ⟨signs, eq⟩ => ⟨⟨.inl plain, signs⟩, eq⟩, fun ⟨signs, eq⟩ => ⟨signs.pkSign, eq⟩⟩
  · have signing : signText calls b64hp =
        (iotSecuritySha256 calls b64hp >>= iotSecurityPkSign calls) := by
      rw [signText]
      split
      · contradiction
      · rfl
    have input : signed calls b64hp = calls.signature (calls.hash b64hp) := by
      rw [signed]
      split
      · contradiction
      · rfl
    rw [signing, input, iotSecuritySha256, if_neg given]
    cases hash : calls.sha256 with
    | none =>
        rw [Fallible.done_bind, iotSecurityPkSign_eq_done_iff hashed]
        exact ⟨fun ⟨signs, eq⟩ => ⟨⟨.inr hash, signs⟩, eq⟩,
          fun ⟨signs, eq⟩ => ⟨signs.pkSign, eq⟩⟩
    | some err =>
        rw [Fallible.failed_bind]
        constructor
        · intro done
          cases done
        · rintro ⟨signs, -⟩
          obtain same | none := signs.sha256
          · exact absurd same plain
          · cases hash.symm.trans none

/-- How `_iot_jwt_create_b64s` comes to return IOT_ERROR_NONE. -/
structure WtCalls.EncodesSignature (calls : WtCalls) : Prop where
  again : calls.pkGetKeyTypeAgain = none
  signs : calls.Signs
  something : calls.signsNothing = false ∨ calls.b64s.succeeds = false

/-- The last part, which is missing where there is no buffer for it. -/
def signaturePart (calls : WtCalls) (b64hp : List UInt8) : Option (List UInt8) :=
  if calls.b64s.succeeds then some (Base64.encode (signed calls b64hp)) else none

theorem iotJwtCreateB64s_eq_done_iff (given : b64hp ≠ []) {b64s : Option (List UInt8)} :
    iotJwtCreateB64s calls b64hp = .done b64s ↔
      calls.EncodesSignature ∧ b64s = signaturePart calls b64hp := by
  obtain ⟨nonempty, short⟩ := signed_bounds calls b64hp
  have few : (signed calls b64hp).length < 2 ^ 62 :=
    (short.trans (announced_le _)).trans_lt (by decide)
  rw [iotJwtCreateB64s, signaturePart]
  cases again : calls.pkGetKeyTypeAgain with
  | some err =>
      rw [succeed, Fallible.failed_bind]
      constructor
      · intro done
        cases done
      · rintro ⟨encodes, -⟩
        cases again.symm.trans encodes.again
  | none =>
      rw [succeed, Fallible.done_bind, Fallible.bind_eq_done_iff]
      constructor
      · rintro ⟨sig, signing, encoding⟩
        obtain ⟨signs, rfl⟩ := (signText_eq_done_iff given).mp signing
        cases nothing : calls.signsNothing with
        | false =>
            rw [nothing, if_neg (by decide), encodePart_eq nonempty few] at encoding
            exact ⟨⟨again, signs, .inl nothing⟩, (Fallible.done.inj encoding).symm⟩
        | true =>
            rw [nothing, if_pos rfl, encodePart_nil] at encoding
            cases buffer : calls.b64s.succeeds with
            | true =>
                rw [buffer, if_pos rfl] at encoding
                cases encoding
            | false =>
                rw [buffer, if_neg (by decide)] at encoding
                exact ⟨⟨again, signs, .inr buffer⟩, (Fallible.done.inj encoding).symm⟩
      · rintro ⟨encodes, rfl⟩
        refine ⟨_, (signText_eq_done_iff given).mpr ⟨encodes.signs, rfl⟩, ?_⟩
        cases nothing : calls.signsNothing with
        | false => rw [if_neg (by decide), encodePart_eq nonempty few]
        | true =>
            obtain something | buffer := encodes.something
            · cases nothing.symm.trans something
            · rw [if_pos rfl, encodePart_nil, buffer]
              rfl

end Signature

/-! ## The token -/

section Join

variable {calls : WtCalls} {b64h b64p : List UInt8}

/-- An allocation that has been written up to somewhere. -/
def filledTo (text : List UInt8) (free : Nat) : List (Option UInt8) :=
  text.map some ++ List.replicate free none

theorem store_filledTo (front text : List UInt8) {free pos : Nat} (here : pos = front.length)
    (room : text.length ≤ free) :
    store (filledTo front free) pos text =
      .done (filledTo (front ++ text) (free - text.length)) := by
  subst here
  have inside : front.length + (text.map some).length ≤ (filledTo front free).length := by
    simpa [filledTo] using room
  rw [store, Buffer.write, if_pos inside, filledTo, Fallible.deref,
    List.take_left' (List.length_map _), List.length_map, ← List.drop_drop,
    List.drop_left' (List.length_map _), List.drop_replicate, filledTo, List.map_append]

theorem filterMap_take_filledTo (text : List UInt8) {n : Nat} (here : n = text.length)
    (free : Nat) : ((filledTo text free).take n).filterMap id = text := by
  rw [filledTo, List.take_left' (by rw [List.length_map, here]), List.filterMap_map]
  exact List.filterMap_some

/-- The token with its terminator, in an allocation of this size. -/
def tokenBuffer (size : Nat) (b64hp b64s : List UInt8) : SecurityBuffer :=
  let text := b64hp ++ 46 :: b64s
  ⟨some (text.map some ++ some 0 :: List.replicate (size - text.length - 1) none), text.length⟩

theorem iotSecurityPkSign_ne_stopped (input : List UInt8) :
    iotSecurityPkSign calls input ≠ .stopped := by
  rw [iotSecurityPkSign]
  split
  · exact nofun
  · cases calls.pkSign <;> exact nofun

theorem iotSecuritySha256_ne_stopped (input : List UInt8) :
    iotSecuritySha256 calls input ≠ .stopped := by
  rw [iotSecuritySha256]
  split
  · exact nofun
  · cases calls.sha256 <;> exact nofun

theorem encodePart_ne_stopped (a : B64Allocation) (plain : List UInt8) :
    encodePart a plain ≠ .stopped := by
  rw [encodePart]
  cases iotWtAllocB64Buffer a plain.length with
  | none => exact nofun
  | some len =>
      intro stopped
      obtain stopped | ⟨text, -, done⟩ := Fallible.bind_eq_stopped_iff.mp stopped
      · rw [iotSecurityBase64Encode] at stopped
        split at stopped
        · cases stopped
        · exact Fallible.orFail_ne_stopped _ _ stopped
      · cases done

theorem iotJwtCreateB64s_ne_stopped (b64hp : List UInt8) :
    iotJwtCreateB64s calls b64hp ≠ .stopped := by
  intro stopped
  obtain stopped | ⟨_, -, stopped⟩ := Fallible.bind_eq_stopped_iff.mp stopped
  · revert stopped
    cases calls.pkGetKeyTypeAgain <;> exact nofun
  · obtain stopped | ⟨sig, -, stopped⟩ := Fallible.bind_eq_stopped_iff.mp stopped
    · rw [signText] at stopped
      split at stopped
      · exact iotSecurityPkSign_ne_stopped _ stopped
      · obtain stopped | ⟨hash, -, stopped⟩ := Fallible.bind_eq_stopped_iff.mp stopped
        · exact iotSecuritySha256_ne_stopped _ stopped
        · exact iotSecurityPkSign_ne_stopped _ stopped
    · exact encodePart_ne_stopped _ _ stopped

/-- The length that was announced is enough for the last part. -/
theorem length_signaturePart (calls : WtCalls) (b64hp : List UInt8) :
    ((signaturePart calls b64hp).getD []).length + 1 ≤
      encodeLen (iotSecurityPkGetSignatureLen calls.keyType) := by
  obtain ⟨-, short⟩ := signed_bounds calls b64hp
  have few := announced_le calls.keyType
  rw [signaturePart, encodeLen]
  cases calls.b64s.succeeds with
  | false =>
      change 0 + 1 ≤ _
      omega
  | true =>
      change (Base64.encode (signed calls b64hp)).length + 1 ≤ _
      rw [Base64.length_encode]
      omega

private theorem tokenLen_eq (calls : WtCalls) (fits : b64h.length + b64p.length < 2 ^ 62) :
    tokenLen calls b64h b64p = b64h.length + b64p.length +
      encodeLen (iotSecurityPkGetSignatureLen calls.keyType) + 3 := by
  have few := announced_le calls.keyType
  rw [tokenLen, encodeLen]
  omega

/-- The writes behind the signature. -/
private theorem store_signature (b64hp b64s : List UInt8) {free : Nat}
    (room : b64s.length + 2 ≤ free) :
    (store (filledTo b64hp free) b64hp.length [46] >>= fun tmp =>
      store tmp (b64hp.length + 1) b64s >>= fun tmp =>
      store tmp (b64hp.length + 1 + b64s.length) [0] >>= fun tmp =>
      .done ⟨some tmp, b64hp.length + 1 + b64s.length⟩) =
      .done (tokenBuffer (b64hp.length + free) b64hp b64s) := by
  have dot : (b64hp ++ [46]).length = b64hp.length + 1 := List.length_append
  have text : b64hp ++ [46] ++ b64s = b64hp ++ 46 :: b64s := by
    rw [List.append_assoc, List.singleton_append]
  have whole : (b64hp ++ 46 :: b64s).length = b64hp.length + 1 + b64s.length := by
    rw [← text, List.length_append, dot]
  rw [store_filledTo _ [46] rfl (by rw [List.length_singleton]; omega), Fallible.done_bind,
    List.length_singleton, store_filledTo _ b64s dot.symm (by omega), Fallible.done_bind, text,
    store_filledTo _ [0] whole.symm (by rw [List.length_singleton]; omega), Fallible.done_bind,
    tokenBuffer, filledTo, List.map_append, List.append_assoc, whole, List.length_singleton]
  have left : free - 1 - b64s.length - 1 =
      b64hp.length + free - (b64hp.length + 1 + b64s.length) - 1 := by omega
  rw [left]
  rfl

/-- All writes are inside the token. -/
theorem joinToken_eq (fits : b64h.length + b64p.length < 2 ^ 62) :
    joinToken calls b64h b64p =
      Fallible.require calls.mallocToken .memAlloc >>= fun _ =>
      iotJwtCreateB64s calls (b64h ++ 46 :: b64p) >>= fun b64s =>
      .done (tokenBuffer (tokenLen calls b64h b64p) (b64h ++ 46 :: b64p) (b64s.getD [])) := by
  have size := tokenLen_eq calls fits
  have header : store (List.replicate (tokenLen calls b64h b64p) none) 0 b64h =
      .done (filledTo b64h (tokenLen calls b64h b64p - b64h.length)) :=
    store_filledTo [] b64h rfl (by omega)
  rw [joinToken]
  congr 1
  funext _
  dsimp only
  rw [header, Fallible.done_bind, store_filledTo _ [46] rfl (by rw [List.length_singleton]; omega),
    Fallible.done_bind, List.length_singleton,
    store_filledTo _ b64p (by rw [List.length_append, List.length_singleton]) (by omega),
    Fallible.done_bind, List.append_assoc, List.singleton_append]
  have written : b64h.length + 1 + b64p.length = (b64h ++ 46 :: b64p).length := by
    rw [List.length_append, List.length_cons]
    omega
  rw [filterMap_take_filledTo _ written]
  refine Fallible.bind_congr fun b64s created => ?_
  obtain ⟨-, rfl⟩ := (iotJwtCreateB64s_eq_done_iff (by simp)).mp created
  have enough := length_signaturePart calls (b64h ++ 46 :: b64p)
  have total : tokenLen calls b64h b64p = (b64h ++ 46 :: b64p).length +
      (tokenLen calls b64h b64p - b64h.length - 1 - b64p.length) := by omega
  rw [written, store_signature _ _ (by omega), ← total]

end Join

end StDevice.Security
