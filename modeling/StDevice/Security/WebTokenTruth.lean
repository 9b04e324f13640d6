import StDevice.Security.WebToken

/-!
# The truth about web tokens

A call is truthful when it writes inside the token, returns IOT_ERROR_NONE only for the token
of its parameters with all three parts, and leaves `token_buf` alone otherwise. What a call
returns is known from the calls it makes, and a call is truthful unless a buffer for a base64
text cannot be allocated while everything else succeeds.
-/

namespace StDevice.Security

/-! ## What a call returns -/

/-- The text that is signed. -/
def signedText (header payload : List UInt8) : List UInt8 :=
  Base64.encode header ++ 46 :: Base64.encode payload

/-- The buffer has the text as a C string, and its length. -/
def SecurityBuffer.Holds (buffer : SecurityBuffer) (text : List UInt8) : Prop :=
  (∃ rest, buffer.p = some (text.map some ++ some 0 :: rest)) ∧ buffer.len = text.length

/-- The token of these parameters, with its three parts. -/
def TokenFor (calls : WtCalls) (wtParams : IotWtParams) (token : SecurityBuffer) : Prop :=
  ∃ header payload sig,
    iotJwtCreateHeader calls wtParams = some header ∧
    iotJwtCreatePayload calls wtParams = some payload ∧
    signText calls (signedText header.bytes payload.bytes) = .done sig ∧
    Base64.encode header.bytes ≠ [] ∧ Base64.encode payload.bytes ≠ [] ∧ Base64.encode sig ≠ [] ∧
    token.Holds (signedText header.bytes payload.bytes ++ 46 :: Base64.encode sig)

/-- The call writes inside the token, returns IOT_ERROR_NONE for a token of the parameters
only, and leaves `token_buf` alone otherwise. -/
def Truthful (calls : WtCalls) (wtParams : Option IotWtParams)
    (tokenBuf : Option SecurityBuffer) : Prop :=
  ∃ result, iotJwtCreate calls wtParams tokenBuf = some result ∧
    match result.err with
    | some _ => result.tokenBuf = tokenBuf
    | none => ∃ params token, wtParams = some params ∧ result.tokenBuf = some token ∧
        TokenFor calls params token

/-- No call fails, apart from the allocations for base64 texts. -/
structure WtCalls.OthersSucceed (calls : WtCalls) (wtParams : IotWtParams)
    (header payload : Printed) : Prop where
  securityInit : calls.securityInit = true
  pkInit : calls.pkInit = none
  pkGetKeyType : calls.pkGetKeyType = none
  header : iotJwtCreateHeader calls wtParams = some header
  payload : iotJwtCreatePayload calls wtParams = some payload
  mallocToken : calls.mallocToken = true
  signature : calls.EncodesSignature

/-- All three buffers for base64 texts are allocated. -/
def WtCalls.B64Succeeds (calls : WtCalls) : Prop :=
  calls.b64h.succeeds = true ∧ calls.b64p.succeeds = true ∧ calls.b64s.succeeds = true

section Truth

variable {calls : WtCalls} {wtParams : IotWtParams} {token : SecurityBuffer}

/-- A part, or nothing where there is no buffer for it. -/
def partOf (a : B64Allocation) (plain : List UInt8) : List UInt8 :=
  if a.succeeds then Base64.encode plain else []

theorem encodePart_printed (a : B64Allocation) (text : Printed) :
    encodePart a text.bytes =
      .done (if a.succeeds then some (Base64.encode text.bytes) else none) :=
  encodePart_eq text.something (text.short.trans (by decide)) a

theorem getD_part (a : B64Allocation) (plain : List UInt8) :
    (if a.succeeds then some (Base64.encode plain) else none).getD [] = partOf a plain := by
  rw [partOf]
  cases a.succeeds <;> rfl

theorem length_partOf_lt (a : B64Allocation) (text : Printed) :
    (partOf a text.bytes).length < 2 ^ 61 := by
  have short := text.short
  rw [partOf]
  split
  · rw [Base64.length_encode]
    omega
  · rw [List.length_nil]
    decide

@[simp] theorem succeed_eq_done_iff {err : Option WtError} {u : Unit} :
    succeed err = .done u ↔ err = none := by
  cases err with
  | none => exact ⟨fun _ => rfl, fun _ => rfl⟩
  | some err => exact ⟨nofun, nofun⟩

theorem succeed_ne_stopped (err : Option WtError) : succeed err ≠ .stopped := by
  cases err <;> exact nofun

/-- The token that is made where the other calls succeed. -/
def tokenMade (calls : WtCalls) (header payload : Printed) : SecurityBuffer :=
  let b64h := partOf calls.b64h header.bytes
  let b64p := partOf calls.b64p payload.bytes
  tokenBuffer (tokenLen calls b64h b64p) (b64h ++ 46 :: b64p)
    (partOf calls.b64s (signed calls (b64h ++ 46 :: b64p)))

theorem joinToken_eq_done_iff {b64h b64p : List UInt8}
    (fits : b64h.length + b64p.length < 2 ^ 62) :
    joinToken calls b64h b64p = .done token ↔
      calls.mallocToken = true ∧ calls.EncodesSignature ∧
        token = tokenBuffer (tokenLen calls b64h b64p) (b64h ++ 46 :: b64p)
          (partOf calls.b64s (signed calls (b64h ++ 46 :: b64p))) := by
  have given : b64h ++ 46 :: b64p ≠ [] := by simp
  rw [joinToken_eq fits, Fallible.bind_eq_done_iff]
  simp only [Fallible.require_eq_done_iff, Fallible.bind_eq_done_iff,
    iotJwtCreateB64s_eq_done_iff given, ← getD_part]
  constructor
  · rintro ⟨-, malloc, _, ⟨encodes, rfl⟩, done⟩
    exact ⟨malloc, encodes, (Fallible.done.inj done).symm⟩
  · rintro ⟨malloc, encodes, rfl⟩
    exact ⟨(), malloc, _, ⟨encodes, rfl⟩, rfl⟩

theorem createToken_eq_done_iff :
    createToken calls wtParams = .done token ↔
      ∃ header payload, calls.OthersSucceed wtParams header payload ∧
        token = tokenMade calls header payload := by
  simp only [createToken, iotJwtCreateB64h, iotJwtCreateB64p, Fallible.bind_eq_done_iff,
    Fallible.require_eq_done_iff, succeed_eq_done_iff, Fallible.orFail_eq_done_iff,
    encodePart_printed]
  constructor
  · rintro ⟨-, init, -, pk, -, type, _, ⟨header, someHeader, done⟩, _,
      ⟨payload, somePayload, done'⟩, joined⟩
    cases done
    cases done'
    rw [getD_part, getD_part] at joined
    obtain ⟨malloc, encodes, rfl⟩ := (joinToken_eq_done_iff
      (by have := length_partOf_lt calls.b64h header
          have := length_partOf_lt calls.b64p payload
          omega)).mp joined
    exact ⟨header, payload, ⟨init, pk, type, someHeader, somePayload, malloc, encodes⟩, rfl⟩
  · rintro ⟨header, payload, ok, rfl⟩
    refine ⟨(), ok.securityInit, (), ok.pkInit, (), ok.pkGetKeyType, _, ⟨header, ok.header, rfl⟩,
      _, ⟨payload, ok.payload, rfl⟩, ?_⟩
    rw [getD_part, getD_part]
    have headerShort := length_partOf_lt calls.b64h header
    have payloadShort := length_partOf_lt calls.b64p payload
    exact (joinToken_eq_done_iff (by omega)).mpr ⟨ok.mallocToken, ok.signature, rfl⟩

/-- No write is outside the token. -/
theorem createToken_ne_stopped : createToken calls wtParams ≠ .stopped := by
  intro stopped
  simp only [createToken, iotJwtCreateB64h, iotJwtCreateB64p, Fallible.bind_eq_stopped_iff,
    Fallible.bind_eq_done_iff, Fallible.orFail_eq_done_iff, encodePart_printed,
    Fallible.require_ne_stopped, succeed_ne_stopped, Fallible.orFail_ne_stopped, false_or,
    reduceCtorEq, and_false, exists_false] at stopped
  obtain ⟨-, -, -, -, -, -, _, ⟨header, -, done⟩, _, ⟨payload, -, done'⟩, stopped⟩ := stopped
  cases done
  cases done'
  have headerShort := length_partOf_lt calls.b64h header
  have payloadShort := length_partOf_lt calls.b64p payload
  rw [getD_part, getD_part, joinToken_eq (by omega)] at stopped
  obtain stopped | ⟨-, -, stopped⟩ := Fallible.bind_eq_stopped_iff.mp stopped
  · exact Fallible.require_ne_stopped _ _ stopped
  · obtain stopped | ⟨_, -, stopped⟩ := Fallible.bind_eq_stopped_iff.mp stopped
    · exact iotJwtCreateB64s_ne_stopped _ stopped
    · cases stopped

end Truth

/-! ## When a part is lost -/

theorem append_dot_inj {front front' rest rest' : List UInt8} (plain : (46 : UInt8) ∉ front)
    (plain' : (46 : UInt8) ∉ front') (same : front ++ 46 :: rest = front' ++ 46 :: rest') :
    front = front' ∧ rest = rest' := by
  induction front generalizing front' with
  | nil =>
      cases front' with
      | nil => exact ⟨rfl, (List.cons.inj same).2⟩
      | cons c front' => exact absurd List.mem_cons_self ((List.cons.inj same).1 ▸ plain')
  | cons b front ih =>
      cases front' with
      | nil => exact absurd List.mem_cons_self ((List.cons.inj same).1 ▸ plain)
      | cons c front' =>
          obtain ⟨rfl, later⟩ := List.cons.inj same
          obtain ⟨rfl, rfl⟩ := ih (fun inside => plain (List.mem_cons_of_mem _ inside))
            (fun inside => plain' (List.mem_cons_of_mem _ inside)) later
          exact ⟨rfl, rfl⟩

theorem SecurityBuffer.Holds.inj {buffer : SecurityBuffer} {text text' : List UInt8}
    (holds : buffer.Holds text) (holds' : buffer.Holds text') : text = text' := by
  obtain ⟨⟨rest, cells⟩, len⟩ := holds
  obtain ⟨⟨rest', cells'⟩, len'⟩ := holds'
  have length : (text.map some).length = (text'.map some).length := by
    rw [List.length_map, List.length_map, ← len, len']
  have fronts := (List.append_inj (Option.some.inj (cells.symm.trans cells')) length).1
  exact List.map_injective_iff.mpr (fun _ _ => Option.some.inj) fronts

theorem holds_tokenBuffer (size : Nat) (b64hp b64s : List UInt8) :
    (tokenBuffer size b64hp b64s).Holds (b64hp ++ 46 :: b64s) :=
  ⟨⟨_, rfl⟩, rfl⟩

theorem dot_notMem_partOf (a : B64Allocation) (plain : List UInt8) :
    (46 : UInt8) ∉ partOf a plain := by
  rw [partOf]
  split
  · exact dot_notMem_encode plain
  · exact List.not_mem_nil

theorem succeeds_of_partOf {a : B64Allocation} {plain text : List UInt8}
    (same : partOf a plain = text) (given : text ≠ []) : a.succeeds = true := by
  rw [partOf] at same
  split at same
  · assumption
  · exact absurd same.symm given

section Lost

variable {calls : WtCalls} {wtParams : IotWtParams} {header payload : Printed}

/-- Where all parts are there, the token is the one of the parameters. -/
theorem tokenFor_tokenMade (others : calls.OthersSucceed wtParams header payload)
    (buffers : calls.B64Succeeds) : TokenFor calls wtParams (tokenMade calls header payload) := by
  obtain ⟨forHeader, forPayload, forSignature⟩ := buffers
  have nothing : calls.signsNothing = false := by
    obtain something | missing := others.signature.something
    · exact something
    · cases forSignature.symm.trans missing
  have given : signedText header.bytes payload.bytes ≠ [] := by simp [signedText]
  have signing : signText calls (signedText header.bytes payload.bytes) =
      .done (signed calls (signedText header.bytes payload.bytes)) :=
    (signText_eq_done_iff given).mpr ⟨others.signature.signs, by rw [nothing]; rfl⟩
  refine ⟨header, payload, _, others.header, others.payload, signing,
    encode_ne_nil header.something, encode_ne_nil payload.something,
    encode_ne_nil (signed_bounds calls _).1, ?_⟩
  simp only [tokenMade, partOf, forHeader, forPayload, forSignature, if_true]
  exact holds_tokenBuffer _ _ _

/-- A token with a part missing is not the one of the parameters. -/
theorem b64Succeeds_of_tokenFor
    (truth : TokenFor calls wtParams (tokenMade calls header payload)) : calls.B64Succeeds := by
  obtain ⟨header', payload', sig, -, -, -, someHeader, somePayload, someSig, holds⟩ := truth
  have text := (holds_tokenBuffer _ _ _).inj holds
  rw [signedText, List.append_assoc, List.append_assoc, List.cons_append, List.cons_append] at text
  obtain ⟨headers, later⟩ := append_dot_inj (dot_notMem_partOf _ _) (dot_notMem_encode _) text
  obtain ⟨payloads, sigs⟩ := append_dot_inj (dot_notMem_partOf _ _) (dot_notMem_encode _) later
  exact ⟨succeeds_of_partOf headers someHeader, succeeds_of_partOf payloads somePayload,
    succeeds_of_partOf sigs someSig⟩

theorem truthful_iff_of_others (others : calls.OthersSucceed wtParams header payload)
    (buffer : SecurityBuffer) :
    Truthful calls (some wtParams) (some buffer) ↔ calls.B64Succeeds := by
  have made : createToken calls wtParams = .done (tokenMade calls header payload) :=
    createToken_eq_done_iff.mpr ⟨header, payload, others, rfl⟩
  have returns : iotJwtCreate calls (some wtParams) (some buffer) =
      some ⟨none, some (tokenMade calls header payload)⟩ := by
    simp only [iotJwtCreate, made]
  constructor
  · rintro ⟨result, returned, truth⟩
    cases returns.symm.trans returned
    obtain ⟨params, token, same, same', truth⟩ := truth
    cases same
    cases same'
    exact b64Succeeds_of_tokenFor truth
  · intro buffers
    exact ⟨_, returns, wtParams, _, rfl, rfl, tokenFor_tokenMade others buffers⟩

end Lost

/-- A part is lost where a buffer for a base64 text cannot be allocated and nothing else
fails. -/
def LosesPart (calls : WtCalls) (wtParams : Option IotWtParams)
    (tokenBuf : Option SecurityBuffer) : Prop :=
  tokenBuf.isSome = true ∧ ∃ params header payload, wtParams = some params ∧
    calls.OthersSucceed params header payload ∧ ¬ calls.B64Succeeds

/-- Web tokens are what they are said to be, but for a part that is lost. -/
theorem webToken_truthful_iff (calls : WtCalls) (wtParams : Option IotWtParams)
    (tokenBuf : Option SecurityBuffer) :
    Truthful calls wtParams tokenBuf ↔ ¬ LosesPart calls wtParams tokenBuf := by
  cases tokenBuf with
  | none =>
      refine ⟨fun _ loses => absurd loses.1 nofun, fun _ => ?_⟩
      cases wtParams with
      | none => exact ⟨_, rfl, rfl⟩
      | some wtParams => exact ⟨_, rfl, rfl⟩
  | some buffer =>
      cases wtParams with
      | none =>
          refine ⟨?_, fun _ => ⟨_, rfl, rfl⟩⟩
          rintro - ⟨-, _, _, _, missing, -⟩
          cases missing
      | some wtParams =>
          cases made : createToken calls wtParams with
          | stopped => exact absurd made createToken_ne_stopped
          | failed err =>
              constructor
              · rintro - ⟨-, params, header, payload, same, others, -⟩
                cases same
                cases made.symm.trans (createToken_eq_done_iff.mpr ⟨header, payload, others, rfl⟩)
              · rintro -
                refine ⟨⟨some err, some buffer⟩, ?_, rfl⟩
                simp only [iotJwtCreate, made]
          | done token =>
              obtain ⟨header, payload, others, -⟩ := createToken_eq_done_iff.mp made
              rw [truthful_iff_of_others others buffer]
              constructor
              · rintro buffers ⟨-, _, _, _, -, -, missing⟩
                exact missing buffers
              · intro kept
                by_contra missing
                exact kept ⟨rfl, wtParams, header, payload, rfl, others, missing⟩

/-- A document of this text. -/
private def sampleJson : JsonCalls where
  createObject := true
  createArray := true
  adds _ := true
  addsCertificate _ := true
  print _ := some ⟨⟨[123, 125], by decide⟩, by decide, by decide⟩

private def sampleParams : IotWtParams where
  sn := some ⟨[49], by decide⟩
  mnid := some ⟨[50], by decide⟩
  dipid := none
  dipidLen := 0
  certSn := none

/-- The buffer for the header cannot be allocated. -/
private def headerLost : WtCalls where
  securityInit := true
  pkInit := none
  keyType := .ed25519
  pkGetKeyType := none
  header := sampleJson
  certificate _ := none
  mallocTrim _ := true
  b64h := ⟨true, false⟩
  getTimeInSec := some ⟨[51], by decide⟩
  getRandomUuid := some Util.zeroUuid
  payload := sampleJson
  b64p := ⟨true, true⟩
  mallocToken := true
  pkGetKeyTypeAgain := none
  sha256 := none
  hash _ := List.replicate 32 0
  hashLength _ := rfl
  pkSign := none
  signsNothing := false
  signature _ := [7]
  signatureLength _ := ⟨by decide, by decide⟩
  b64s := ⟨true, true⟩

private theorem headerLost_others : headerLost.OthersSucceed sampleParams
    ⟨⟨[123, 125], by decide⟩, by decide, by decide⟩
    ⟨⟨[123, 125], by decide⟩, by decide, by decide⟩ where
  securityInit := rfl
  pkInit := rfl
  pkGetKeyType := rfl
  header := rfl
  payload := by
    rw [iotJwtCreatePayload]
    rfl
  mallocToken := rfl
  signature := ⟨rfl, ⟨.inl rfl, rfl⟩, .inl rfl⟩

/-- The token begins with the dot. -/
theorem header_lost : ¬ Truthful headerLost (some sampleParams) (some ⟨none, 0⟩) := by
  rw [truthful_iff_of_others headerLost_others]
  exact fun buffers => absurd buffers.1 (by decide)

end StDevice.Security
