import StDevice.Foundation.Json
import StDevice.Serialize.Cbor2Json
import StDevice.Tinycbor.Encoder

/-!
# From JSON to CBOR

A document is encoded into a buffer, and once more into one that is larger by the missing bytes
if it did not fit. While it is encoded, only errors other than a buffer that is too small are
looked at.
-/

namespace StDevice.Serialize

open Tinycbor Cbor

section Encoding

variable (platform : Platform)

/-- An error goes to the caller, unless it is that the buffer is too small. -/
def tolerate (result : Option CborError × CborEncoder) :
    Fallible CborError (Option CborError × CborEncoder) :=
  match result with
  | (some err, cbor) => if err ≠ .outOfMemory then .failed err else .done (some err, cbor)
  | (none, cbor) => .done (none, cbor)

mutual

/-- `_iot_json_value_to_cbor`. -/
def iotJsonValueToCbor : Json → CborEncoder → Fallible CborError (Option CborError × CborEncoder)
  | .object members, cbor => do
      let (_, d) := createMap cbor
      let (err, d) ← membersToCbor members none d
      let (_, cbor) := closeContainer cbor d
      pure (err, cbor)
  | .string text, cbor => tolerate (encodeTextStringz cbor text)
  | .array items, cbor => do
      let (_, d) := createArray cbor
      let (err, d) ← itemsToCbor items none d
      let (_, cbor) := closeContainer cbor d
      pure (err, cbor)
  | .number _ number, cbor =>
      if Double.isWhole number then
        tolerate (encodeInt cbor (.ofInt (platform.toInt (Double.truncate number))))
      else tolerate (encodeDouble cbor number)
  | .bool value, cbor => tolerate (encodeBoolean cbor value)
  | .null, _ => .failed .unknownError

/-- The loop over the members of an object, with the last error. -/
def membersToCbor : List (List UInt8 × Json) → Option CborError → CborEncoder →
    Fallible CborError (Option CborError × CborEncoder)
  | [], err, d => pure (err, d)
  | (string, child) :: members, _, d => do
      let (_, d) ← tolerate (encodeTextStringz d string)
      let (err, d) ← iotJsonValueToCbor child d
      membersToCbor members err d

/-- The loop over the items of an array. -/
def itemsToCbor : List Json → Option CborError → CborEncoder →
    Fallible CborError (Option CborError × CborEncoder)
  | [], err, d => pure (err, d)
  | child :: items, _, d => do
      let (err, d) ← iotJsonValueToCbor child d
      itemsToCbor items err d

end

end Encoding

/-- The errors of `iot_serialize_json2cbor`. -/
inductive Json2CborError where
  | invalidArgs
  | memAlloc
  | badReq
  deriving DecidableEq

/-- Which allocations succeed, by their size. -/
structure Allocations where
  malloc : Nat → Bool
  realloc : Nat → Bool

/-- `iot_serialize_json2cbor` from `retry` on, for a number of rounds. The buffer is given back
with the length of what is in it. -/
def retry (platform : Platform) (allocations : Allocations) (json : Json) :
    (rounds olen : Nat) → Option (Fallible Json2CborError (List UInt8 × Nat))
  | 0, _ => none
  | rounds + 1, olen =>
      if !allocations.malloc (olen + 1) then some (.failed .memAlloc)
      else
        let buf := List.replicate (olen + 1) 0
        match iotJsonValueToCbor platform json (encoderInit buf olen) with
        | .stopped => some .stopped
        | .failed _ => some (.failed .badReq)
        | .done (_, root) =>
            let extraBytesNeeded := getExtraBytesNeeded root
            if extraBytesNeeded ≠ 0 then
              retry platform allocations json rounds (olen + extraBytesNeeded)
            else
              let actualLen := getBufferSize root
              if actualLen < olen then
                if !allocations.realloc (actualLen + 1) then some (.failed .badReq)
                else some (.done (root.buffer.take (actualLen + 1), actualLen))
              else some (.done (root.buffer, actualLen))

/-- `iot_serialize_json2cbor`, for callers that give places for the result. -/
def iotSerializeJson2cbor (platform : Platform) (allocations : Allocations) (rounds : Nat)
    (json : Option Json) : Option (Fallible Json2CborError (List UInt8 × Nat)) :=
  match json with
  | none => some (.failed .invalidArgs)
  | some json => retry platform allocations json rounds 128

/-! ## What a document says -/

mutual

/-- The value of a document whose numbers are whole. -/
def documentValue : Json → JsonValue
  | .null => .null
  | .bool value => .bool value
  | .number _ number => .number (Double.truncate number)
  | .string text => .string text
  | .array items => .array (itemValues items)
  | .object members => .object (memberValues members)

def itemValues : List Json → List JsonValue
  | [] => []
  | item :: items => documentValue item :: itemValues items

def memberValues : List (List UInt8 × Json) → List (List UInt8 × JsonValue)
  | [] => []
  | (name, item) :: members => (name, documentValue item) :: memberValues members

end

mutual

/-- The numbers of a document, at any depth. -/
def numbers : Json → List UInt64
  | .number _ number => [number]
  | .array items => itemNumbers items
  | .object members => memberNumbers members
  | _ => []

def itemNumbers : List Json → List UInt64
  | [] => []
  | item :: items => numbers item ++ itemNumbers items

def memberNumbers : List (List UInt8 × Json) → List UInt64
  | [] => []
  | (_, item) :: members => numbers item ++ memberNumbers members

end

mutual

/-- There is no `null` in the document. -/
def isSupported : Json → Bool
  | .null => false
  | .array items => itemsSupported items
  | .object members => membersSupported members
  | _ => true

def itemsSupported : List Json → Bool
  | [] => true
  | item :: items => isSupported item && itemsSupported items

def membersSupported : List (List UInt8 × Json) → Bool
  | [] => true
  | (_, item) :: members => isSupported item && membersSupported members

end

section Items

variable (platform : Platform)

mutual

/-- The item that a document is encoded as. -/
def documentItem : Json → Item
  | .null => .simple 22
  | .bool value => .simple (if value then 21 else 20)
  | .number _ number =>
      if Double.isWhole number then .integer (platform.toInt (Double.truncate number))
      else .float 8 number.toNat
  | .string text => .text text
  | .array items => .array (itemItems items)
  | .object members => .map (memberItems members)

def itemItems : List Json → List Item
  | [] => []
  | item :: items => documentItem item :: itemItems items

def memberItems : List (List UInt8 × Json) → List (Item × Item)
  | [] => []
  | (name, item) :: members => (.text name, documentItem item) :: memberItems members

end

end Items

/-! ## Encoding -/

/-- Whatever was encoded before, a function that goes on stands for some bytes. The error may
be that of a part that did not fit. -/
def Encodes (encode : CborEncoder → Fallible CborError (Option CborError × CborEncoder))
    (bytes : List UInt8) : Prop :=
  ∀ size before encoder, Encoded size before encoder → ∃ err encoder',
    encode encoder = .done (err, encoder') ∧ Encoded size (before ++ bytes) encoder'

section Rules

variable {bytes others : List UInt8}

theorem encodes_nil (err : Option CborError) : Encodes (fun d => pure (err, d)) [] := by
  intro size before encoder encoded
  exact ⟨err, encoder, rfl, (List.append_nil before).symm ▸ encoded⟩

theorem encodes_tolerate {step : CborEncoder → Option CborError × CborEncoder}
    (appends : Appends step bytes) : Encodes (fun cbor => tolerate (step cbor)) bytes := by
  intro size before encoder encoded
  obtain ⟨encoder', ends, encoded⟩ := appends size before encoder encoded
  refine ⟨roomError size (before ++ bytes), encoder', ?_, encoded⟩
  dsimp only
  rw [ends, roomError]
  split
  · rfl
  · rfl

theorem Encodes.append {f : CborEncoder → Fallible CborError (Option CborError × CborEncoder)}
    {g : Option CborError → CborEncoder → Fallible CborError (Option CborError × CborEncoder)}
    (first : Encodes f bytes) (next : ∀ err, Encodes (g err) others) :
    Encodes (fun cbor => f cbor >>= fun result => g result.1 result.2) (bytes ++ others) := by
  intro size before encoder encoded
  obtain ⟨err, middle, ends, encoded⟩ := first size before encoder encoded
  dsimp only
  rw [← List.append_assoc, ends, Fallible.done_bind]
  exact next err size _ middle encoded

/-- A container: its head, what the loop encodes, and the break. -/
theorem encodes_container
    {create : CborEncoder → Option CborError × CborEncoder} {head : UInt8}
    {loop : CborEncoder → Fallible CborError (Option CborError × CborEncoder)}
    (creates : Appends create [head]) (contents : Encodes loop bytes) :
    Encodes (fun cbor => loop (create cbor).2 >>= fun result =>
      pure (result.1, (closeContainer cbor result.2).2)) (head :: (bytes ++ [255])) := by
  intro size before encoder encoded
  obtain ⟨d, created, encoded⟩ := creates size before encoder encoded
  obtain ⟨err, d', looped, encoded⟩ := contents size _ d encoded
  obtain ⟨cbor, closed, encoded⟩ := appends_close encoder size _ d' encoded
  rw [List.append_assoc, List.append_assoc] at encoded
  refine ⟨err, cbor, ?_, encoded⟩
  dsimp only at closed ⊢
  rw [created, looped, Fallible.done_bind, closed]
  rfl

end Rules

section Run

variable (platform : Platform)

/-- A whole number goes through an `int`, which 64 bits hold. -/
theorem encodes_number (valueint : Int) (number : UInt64) :
    Encodes (iotJsonValueToCbor platform (.number valueint number))
      (documentItem platform (.number valueint number)).encode := by
  rw [documentItem]
  split
  · rename_i whole
    obtain ⟨low, high⟩ := toInt_bounds platform (Double.truncate number)
    have same : (Int64.ofInt (platform.toInt (Double.truncate number))).toInt =
        platform.toInt (Double.truncate number) :=
      Int64.toInt_ofInt_of_le (by omega) (by omega)
    have encodes := encodes_tolerate
      (appends_int (.ofInt (platform.toInt (Double.truncate number))))
    rw [same] at encodes
    simp only [iotJsonValueToCbor, if_pos whole]
    exact encodes
  · rename_i fraction
    simp only [iotJsonValueToCbor, if_neg fraction]
    exact encodes_tolerate (appends_double number)

mutual

/-- Every document without `null` is encoded as its item, in whatever buffer. -/
theorem encodes_document : ∀ json, isSupported json = true →
    (∀ s ∈ (documentValue json).strings, IsCString s) →
      Encodes (iotJsonValueToCbor platform json) (documentItem platform json).encode
  | .null, supported, _ => nomatch supported
  | .bool value, _, _ => encodes_tolerate (appends_boolean value)
  | .number valueint number, _, _ => encodes_number platform valueint number
  | .string text, _, texts =>
      encodes_tolerate (appends_text (texts text (List.mem_singleton_self text)))
  | .array items, supported, texts => by
      rw [isSupported] at supported
      rw [documentValue, JsonValue.strings] at texts
      exact encodes_container (appends_appendToBuffer [159])
        (encodes_items items supported texts none)
  | .object members, supported, texts => by
      rw [isSupported] at supported
      rw [documentValue, JsonValue.strings] at texts
      exact encodes_container (appends_appendToBuffer [191])
        (encodes_members members supported texts none)

theorem encodes_items : ∀ items, itemsSupported items = true →
    (∀ s ∈ JsonValue.elementsStrings (itemValues items), IsCString s) → ∀ err,
      Encodes (itemsToCbor platform items err) (encodeItems (itemItems platform items))
  | [], _, _, err => encodes_nil err
  | item :: items, supported, texts, err => by
      rw [itemsSupported, Bool.and_eq_true] at supported
      rw [itemValues, JsonValue.elementsStrings, List.forall_mem_append] at texts
      exact (encodes_document item supported.1 texts.1).append
        (encodes_items items supported.2 texts.2)

theorem encodes_members : ∀ members, membersSupported members = true →
    (∀ s ∈ JsonValue.membersStrings (memberValues members), IsCString s) → ∀ err,
      Encodes (membersToCbor platform members err) (encodeEntries (memberItems platform members))
  | [], _, _, err => encodes_nil err
  | (name, item) :: members, supported, texts, err => by
      rw [membersSupported, Bool.and_eq_true] at supported
      rw [memberValues, JsonValue.membersStrings, List.cons_append, List.forall_mem_cons,
        List.forall_mem_append] at texts
      have text := encodes_tolerate (appends_text texts.1)
      have value := encodes_document item supported.1 texts.2.1
      have others := encodes_members members supported.2 texts.2.2
      rw [memberItems, encodeEntries, List.append_assoc]
      exact text.append fun _ => value.append others

end

mutual

theorem encodable_document : ∀ json, isSupported json = true →
    (∀ s ∈ (documentValue json).strings, IsCString s) → (documentItem platform json).Encodable
  | .null, supported, _ => nomatch supported
  | .bool false, _, _ => .inl (by decide)
  | .bool true, _, _ => .inl (by decide)
  | .number _ number, _, _ => by
      rw [documentItem]
      split
      · obtain ⟨low, high⟩ := toInt_bounds platform (Double.truncate number)
        rw [Item.Encodable, headNumber]
        split
        · omega
        · omega
      · exact ⟨.inr (.inr rfl), number.toNat_lt⟩
  | .string text, _, texts => (texts text (List.mem_singleton_self text)).short
  | .array items, supported, texts => by
      rw [isSupported] at supported
      rw [documentValue, JsonValue.strings] at texts
      exact encodable_items items supported texts
  | .object members, supported, texts => by
      rw [isSupported] at supported
      rw [documentValue, JsonValue.strings] at texts
      exact encodable_members members supported texts

theorem encodable_items : ∀ items, itemsSupported items = true →
    (∀ s ∈ JsonValue.elementsStrings (itemValues items), IsCString s) →
      EncodableItems (itemItems platform items)
  | [], _, _ => trivial
  | item :: items, supported, texts => by
      rw [itemsSupported, Bool.and_eq_true] at supported
      rw [itemValues, JsonValue.elementsStrings, List.forall_mem_append] at texts
      exact ⟨encodable_document item supported.1 texts.1,
        encodable_items items supported.2 texts.2⟩

theorem encodable_members : ∀ members, membersSupported members = true →
    (∀ s ∈ JsonValue.membersStrings (memberValues members), IsCString s) →
      EncodableEntries (memberItems platform members)
  | [], _, _ => trivial
  | (name, item) :: members, supported, texts => by
      rw [membersSupported, Bool.and_eq_true] at supported
      rw [memberValues, JsonValue.membersStrings, List.cons_append, List.forall_mem_cons,
        List.forall_mem_append] at texts
      exact ⟨texts.1.short, encodable_document item supported.1 texts.2.1,
        encodable_members members supported.2 texts.2.2⟩

end

/-- A whole number that is an `int`. -/
def IsInt (number : UInt64) : Prop :=
  -2 ^ 31 ≤ Double.truncate number ∧ Double.truncate number < 2 ^ 31

mutual

/-- The item has the value of the document if all numbers are `int`s. -/
theorem json?_document_iff : ∀ json, isSupported json = true →
    (∀ number ∈ numbers json, Double.isWhole number = true) →
      ((documentItem platform json).json? = some (documentValue json) ↔
        ∀ number ∈ numbers json, IsInt number)
  | .null, supported, _ => nomatch supported
  | .bool false, _, _ => iff_of_true rfl nofun
  | .bool true, _, _ => iff_of_true rfl nofun
  | .number _ number, _, whole => by
      rw [numbers, List.forall_mem_singleton] at whole ⊢
      rw [documentItem, if_pos whole, Item.json?, documentValue, Option.some.injEq,
        JsonValue.number.injEq, Int.cast_inj]
      exact toInt_eq_iff
  | .string text, _, _ => iff_of_true rfl nofun
  | .array items, supported, whole => by
      rw [isSupported] at supported
      rw [numbers] at whole ⊢
      rw [documentItem, Item.json?, documentValue, ← json?_items_iff items supported whole,
        Option.map_eq_some_iff]
      constructor
      · rintro ⟨values, read, same⟩
        exact JsonValue.array.inj same ▸ read
      · intro read
        exact ⟨_, read, rfl⟩
  | .object members, supported, whole => by
      rw [isSupported] at supported
      rw [numbers] at whole ⊢
      rw [documentItem, Item.json?, documentValue, ← json?_members_iff members supported whole,
        Option.map_eq_some_iff]
      constructor
      · rintro ⟨values, read, same⟩
        exact JsonValue.object.inj same ▸ read
      · intro read
        exact ⟨_, read, rfl⟩

theorem json?_items_iff : ∀ items, itemsSupported items = true →
    (∀ number ∈ itemNumbers items, Double.isWhole number = true) →
      (jsonItems? (itemItems platform items) = some (itemValues items) ↔
        ∀ number ∈ itemNumbers items, IsInt number)
  | [], _, _ => iff_of_true rfl nofun
  | item :: items, supported, whole => by
      rw [itemsSupported, Bool.and_eq_true] at supported
      rw [itemNumbers, List.forall_mem_append] at whole ⊢
      rw [itemItems, itemValues, jsonItems?_cons_iff, json?_document_iff item supported.1 whole.1,
        json?_items_iff items supported.2 whole.2]

theorem json?_members_iff : ∀ members, membersSupported members = true →
    (∀ number ∈ memberNumbers members, Double.isWhole number = true) →
      (jsonEntries? (memberItems platform members) = some (memberValues members) ↔
        ∀ number ∈ memberNumbers members, IsInt number)
  | [], _, _ => iff_of_true rfl nofun
  | (name, item) :: members, supported, whole => by
      rw [membersSupported, Bool.and_eq_true] at supported
      rw [memberNumbers, List.forall_mem_append] at whole ⊢
      rw [memberItems, memberValues, jsonEntries?_cons_iff,
        json?_document_iff item supported.1 whole.1, json?_members_iff members supported.2 whole.2]
      exact and_iff_right rfl

end

end Run

/-! ## The call -/

section Call

variable {platform : Platform} {allocations : Allocations} {json : Json} {bytes : List UInt8}
  {olen rounds : Nat}

/-- All allocations succeed. -/
def Allocations.Succeed (allocations : Allocations) : Prop :=
  ∀ size, allocations.malloc size = true ∧ allocations.realloc size = true

/-- A round in which no allocation fails. -/
theorem retry_succ {err : Option CborError} {root : CborEncoder} (allocates : allocations.Succeed)
    (ends : iotJsonValueToCbor platform json (encoderInit (List.replicate (olen + 1) 0) olen) =
      .done (err, root)) :
    retry platform allocations json (rounds + 1) olen =
      if getExtraBytesNeeded root ≠ 0 then
        retry platform allocations json rounds (olen + getExtraBytesNeeded root)
      else if getBufferSize root < olen then
        some (.done (root.buffer.take (getBufferSize root + 1), getBufferSize root))
      else some (.done (root.buffer, getBufferSize root)) := by
  simp only [retry, ends, (allocates _).1, (allocates _).2, Bool.not_true, Bool.false_eq_true,
    if_false]

/-- A round that has room for all bytes is the last. -/
theorem retry_of_room (encodes : Encodes (iotJsonValueToCbor platform json) bytes)
    (allocates : allocations.Succeed) (room : bytes.length ≤ olen) :
    ∃ buf, retry platform allocations json (rounds + 1) olen = some (.done (buf, bytes.length)) ∧
      buf.length = bytes.length + 1 ∧ buf.take bytes.length = bytes := by
  obtain ⟨err, root, ends, encoded⟩ := encodes olen [] _ (encoded_init olen)
  obtain ⟨limit, data, written⟩ := encoded.fits room
  rw [List.nil_append] at data written
  have extra : getExtraBytesNeeded root = 0 := by
    rw [getExtraBytesNeeded, limit]
    rfl
  have size : getBufferSize root = bytes.length := data
  have length := encoded.length
  rw [retry_succ allocates ends, extra, if_neg (not_not_intro rfl), size]
  split
  · refine ⟨_, rfl, ?_, ?_⟩
    · rw [List.length_take, length]
      omega
    · rw [List.take_take, Nat.min_eq_left (Nat.le_succ _)]
      exact written
  · refine ⟨_, rfl, ?_, written⟩
    omega

/-- A round that has no room asks for exactly as many bytes as there are. -/
theorem retry_of_small (encodes : Encodes (iotJsonValueToCbor platform json) bytes)
    (allocates : allocations.Succeed) (small : olen < bytes.length) :
    retry platform allocations json (rounds + 1) olen =
      retry platform allocations json rounds bytes.length := by
  obtain ⟨err, root, ends, encoded⟩ := encodes olen [] _ (encoded_init olen)
  obtain ⟨limit, counted⟩ := encoded.missing small
  rw [List.nil_append] at counted
  have extra : getExtraBytesNeeded root = root.data := by
    rw [getExtraBytesNeeded, limit]
    rfl
  rw [retry_succ allocates ends, extra, if_pos (by omega), Nat.add_comm, counted]

/-- Two rounds are enough for every document, and the bytes are those of its item. -/
theorem iotSerializeJson2cbor_returns (platform : Platform) (supported : isSupported json = true)
    (texts : ∀ s ∈ (documentValue json).strings, IsCString s) (allocates : allocations.Succeed) :
    ∃ buf, iotSerializeJson2cbor platform allocations (rounds + 2) (some json) =
        some (.done (buf, (documentItem platform json).encode.length)) ∧
      buf.length = (documentItem platform json).encode.length + 1 ∧
      buf.take (documentItem platform json).encode.length =
        (documentItem platform json).encode := by
  have encodes := encodes_document platform json supported texts
  rw [iotSerializeJson2cbor]
  by_cases room : (documentItem platform json).encode.length ≤ 128
  · exact retry_of_room encodes allocates room
  · rw [retry_of_small encodes allocates (Nat.not_le.mp room)]
    exact retry_of_room encodes allocates (Nat.le_refl _)

/-- Whatever is returned after some number of rounds is the bytes. -/
theorem retry_returned {result : Fallible Json2CborError (List UInt8 × Nat)}
    (encodes : Encodes (iotJsonValueToCbor platform json) bytes)
    (allocates : allocations.Succeed)
    (ends : retry platform allocations json rounds olen = some result) :
    ∃ buf, result = .done (buf, bytes.length) ∧ buf.take bytes.length = bytes := by
  have last {rounds olen : Nat} (room : bytes.length ≤ olen)
      (ends : retry platform allocations json (rounds + 1) olen = some result) :
      ∃ buf, result = .done (buf, bytes.length) ∧ buf.take bytes.length = bytes := by
    obtain ⟨buf, returns, -, written⟩ := @retry_of_room _ _ _ _ _ rounds encodes allocates room
    exact ⟨buf, Option.some.inj (ends.symm.trans returns), written⟩
  cases rounds with
  | zero => cases ends
  | succ rounds =>
      by_cases room : bytes.length ≤ olen
      · exact last room ends
      · rw [retry_of_small encodes allocates (Nat.not_le.mp room)] at ends
        cases rounds with
        | zero => cases ends
        | succ rounds => exact last (Nat.le_refl _) ends

/-- Objects, arrays, strings, truth values and integral numbers, of any size and depth. -/
structure Covered (json : Json) : Prop where
  supported : isSupported json = true
  texts : ∀ s ∈ (documentValue json).strings, IsCString s
  whole : ∀ number ∈ numbers json, Double.isFinite number = true ∧ Double.isWhole number = true

/-- After some number of rounds the call returns an item with the value of the document, and its
length. -/
def Faithful (platform : Platform) (allocations : Allocations) (json : Json) : Prop :=
  ∃ rounds cbor cborlen,
    iotSerializeJson2cbor platform allocations rounds (some json) = some (.done (cbor, cborlen)) ∧
      cborlen ≤ cbor.length ∧
      (decode (cbor.take cborlen)).bind Item.json? = some (documentValue json)

/-- What is returned has the value of the item. -/
theorem faithful_iff_json? (covered : Covered json) (allocates : allocations.Succeed) :
    Faithful platform allocations json ↔
      (documentItem platform json).json? = some (documentValue json) := by
  have read := decode_encode (encodable_document platform json covered.supported covered.texts)
  constructor
  · rintro ⟨rounds, cbor, cborlen, ends, -, value⟩
    obtain ⟨buf, same, bytes⟩ := retry_returned
      (encodes_document platform json covered.supported covered.texts) allocates ends
    cases same
    rwa [bytes, read] at value
  · intro value
    obtain ⟨buf, returns, length, bytes⟩ := @iotSerializeJson2cbor_returns allocations json 0
      platform covered.supported covered.texts allocates
    refine ⟨2, buf, _, returns, by omega, ?_⟩
    rw [bytes, read]
    exact value

/-- Numbers go through an `int`, so that exactly those that are `int`s keep their value. -/
theorem iotSerializeJson2cbor_faithful_iff (covered : Covered json)
    (allocates : allocations.Succeed) :
    Faithful platform allocations json ↔ ∀ number ∈ numbers json, IsInt number :=
  (faithful_iff_json? covered allocates).trans
    (json?_document_iff platform json covered.supported fun number inside =>
      (covered.whole number inside).2)

/-- An array in an object. -/
theorem iotSerializeJson2cbor_faithful_nested :
    let json : Json := .object [([97], .array [.number 7 0x401C000000000000, .bool true])]
    Faithful x86 ⟨fun _ => true, fun _ => true⟩ json ↔
      ∀ number ∈ numbers json, IsInt number := by
  intro json
  have covered : Covered json := by
    refine ⟨rfl, ?_, ?_⟩
    · intro s inside
      rw [List.mem_singleton.mp inside]
      exact ⟨by decide, by decide⟩
    · intro number inside
      rw [List.mem_singleton.mp inside]
      decide
  exact iotSerializeJson2cbor_faithful_iff covered fun _ => ⟨rfl, rfl⟩

/-- The smallest number that an `int` does not hold. -/
theorem iotSerializeJson2cbor_narrows :
    let json : Json := .number 2147483647 0x41E0000000000000
    Covered json ∧ documentValue json = .number 2147483648 ∧
      ¬ Faithful x86 ⟨fun _ => true, fun _ => true⟩ json := by
  intro json
  have number : Double.truncate 0x41E0000000000000 = 2147483648 := by decide
  have covered : Covered json := by
    refine ⟨rfl, nofun, ?_⟩
    intro number inside
    rw [List.mem_singleton.mp inside]
    decide
  refine ⟨covered, ?_, ?_⟩
  · rw [documentValue, number]
    rfl
  · rw [faithful_iff_json? covered fun _ => ⟨rfl, rfl⟩,
      json?_document_iff x86 json rfl fun number inside => (covered.whole number inside).2]
    intro fits
    have high := (fits _ (List.mem_singleton_self _)).2
    rw [number] at high
    exact absurd high (by decide)

end Call

end StDevice.Serialize
