import StDevice.Foundation.CString
import StDevice.Foundation.CborEncode
import StDevice.Tinycbor.Parser

/-!
# The CBOR encoder

An encoder writes to a buffer as long as there is room. From the first bytes on that do not fit
it only counts those that are missing. The count of the items that are left belongs to
containers of known length and is left out.

The buffer is kept with the encoder that writes to it, which is that of a container as long as
the container is open. Lengths do not wrap around, since what is encoded is in memory already.
Whatever the size of the buffer, each function stands for the same bytes
(`Appends`), which are in the buffer if all of them fit.
-/

namespace StDevice.Tinycbor

open Cbor

structure CborEncoder where
  buffer : List UInt8
  /-- The position of `ptr`, or `bytes_needed`, which is in the same place where `end` is
  NULL. -/
  data : Nat
  /-- The position of `end`. -/
  limit : Option Nat

/-- `cbor_encoder_init`. -/
def encoderInit (buffer : List UInt8) (size : Nat) : CborEncoder := ⟨buffer, 0, some size⟩

/-- `put64`. -/
def put64 (v : UInt64) : List UInt8 :=
  [(v >>> 56).toUInt8, (v >>> 48).toUInt8, (v >>> 40).toUInt8, (v >>> 32).toUInt8,
    (v >>> 24).toUInt8, (v >>> 16).toUInt8, (v >>> 8).toUInt8, v.toUInt8]

def wouldOverflow (encoder : CborEncoder) (len : Nat) : Bool :=
  (encoder.limit.getD 0 : Int) - encoder.data - len < 0

/-- `advance_ptr`, which adds to whichever of the two is there. -/
def advancePtr (encoder : CborEncoder) (n : Nat) : CborEncoder :=
  { encoder with data := encoder.data + n }

/-- `append_to_buffer`. -/
def appendToBuffer (encoder : CborEncoder) (bytes : List UInt8) :
    Option CborError × CborEncoder :=
  let len := bytes.length
  if wouldOverflow encoder len then
    match encoder.limit with
    | some limit =>
        let missing := len - (limit - encoder.data)
        (some .outOfMemory, advancePtr { encoder with data := 0, limit := none } missing)
    | none => (some .outOfMemory, advancePtr encoder len)
  else
    let before := encoder.buffer.take encoder.data
    let behind := encoder.buffer.drop (encoder.data + len)
    (none, advancePtr { encoder with buffer := before ++ bytes ++ behind } len)

/-- The bytes that `encode_number_no_update` takes from the end of the number. -/
def numberHead (ui : UInt64) (shiftedMajorType : UInt8) : List UInt8 :=
  if ui < 24 then [ui.toUInt8 + shiftedMajorType]
  else
    let more := (if ui > 0xff then 1 else 0) + (if ui > 0xffff then 1 else 0) +
      (if ui > 0xffffffff then 1 else 0)
    (shiftedMajorType + 24 + .ofNat more) :: (put64 ui).drop (8 - 2 ^ more)

/-- `encode_number`. -/
def encodeNumber (encoder : CborEncoder) (ui : UInt64) (shiftedMajorType : UInt8) :
    Option CborError × CborEncoder :=
  appendToBuffer encoder (numberHead ui shiftedMajorType)

/-- `cbor_encode_int`. -/
def encodeInt (encoder : CborEncoder) (value : Int64) : Option CborError × CborEncoder :=
  let ui := (value >>> 63).toUInt64
  let majorType := (ui &&& 0x20).toUInt8
  encodeNumber encoder (ui ^^^ value.toUInt64) majorType

/-- `cbor_encode_simple_value`. -/
def encodeSimpleValue (encoder : CborEncoder) (value : UInt8) : Option CborError × CborEncoder :=
  if 25 ≤ value ∧ value ≤ 31 then (some .illegalSimpleType, encoder)
  else encodeNumber encoder value.toUInt64 224

/-- `cbor_encode_boolean`. -/
def encodeBoolean (encoder : CborEncoder) (value : Bool) : Option CborError × CborEncoder :=
  encodeSimpleValue encoder (if value then 21 else 20)

/-- `cbor_encode_double`. -/
def encodeDouble (encoder : CborEncoder) (value : UInt64) : Option CborError × CborEncoder :=
  appendToBuffer encoder (251 :: put64 value)

/-- `encode_string`. An error of the head is always that memory ran out, and goes on. -/
def encodeString (encoder : CborEncoder) (string : List UInt8) (shiftedMajorType : UInt8) :
    Option CborError × CborEncoder :=
  let head := encodeNumber encoder (.ofNat string.length) shiftedMajorType
  appendToBuffer head.2 string

/-- `cbor_encode_text_stringz`. -/
def encodeTextStringz (encoder : CborEncoder) (string : List UInt8) :
    Option CborError × CborEncoder :=
  encodeString encoder (CString.cstr string) 96

/-- `create_container` with `CborIndefiniteLength`: the encoder of the container. -/
def createContainer (encoder : CborEncoder) (shiftedMajorType : UInt8) :
    Option CborError × CborEncoder :=
  appendToBuffer encoder [shiftedMajorType + 31]

/-- `cbor_encoder_create_array`. -/
def createArray (encoder : CborEncoder) : Option CborError × CborEncoder :=
  createContainer encoder 128

/-- `cbor_encoder_create_map`. -/
def createMap (encoder : CborEncoder) : Option CborError × CborEncoder :=
  createContainer encoder 160

/-- `cbor_encoder_close_container`. The encoder goes on where that of the container is. -/
def closeContainer (encoder containerEncoder : CborEncoder) : Option CborError × CborEncoder :=
  let { buffer, data, limit } := containerEncoder
  appendToBuffer { encoder with buffer, data, limit } [breakByte]

/-- `cbor_encoder_get_buffer_size`. -/
def getBufferSize (encoder : CborEncoder) : Nat := encoder.data

/-- `cbor_encoder_get_extra_bytes_needed`. -/
def getExtraBytesNeeded (encoder : CborEncoder) : Nat :=
  if encoder.limit.isSome then 0 else encoder.data

/-! ## What is appended -/

/-- Where an encoder is that was given some bytes: they are in the buffer, or it counts those
that are missing. The buffer has a byte more than the encoder knows. -/
structure Encoded (size : Nat) (bytes : List UInt8) (encoder : CborEncoder) : Prop where
  length : encoder.buffer.length = size + 1
  fits : bytes.length ≤ size → encoder.limit = some size ∧ encoder.data = bytes.length ∧
    encoder.buffer.take bytes.length = bytes
  missing : size < bytes.length → encoder.limit = none ∧ encoder.data + size = bytes.length

/-- Whether all of the bytes are in the buffer. -/
def roomError (size : Nat) (bytes : List UInt8) : Option CborError :=
  if bytes.length ≤ size then none else some .outOfMemory

/-- A function stands for some bytes, whatever was encoded before. -/
def Appends (encode : CborEncoder → Option CborError × CborEncoder) (bytes : List UInt8) : Prop :=
  ∀ size before encoder, Encoded size before encoder → ∃ encoder',
    encode encoder = (roomError size (before ++ bytes), encoder') ∧
      Encoded size (before ++ bytes) encoder'

theorem encoded_init (size : Nat) :
    Encoded size [] (encoderInit (List.replicate (size + 1) 0) size) where
  length := List.length_replicate
  fits _ := ⟨rfl, rfl, rfl⟩
  missing large := absurd large (Nat.not_lt_zero size)

section Append

variable {buffer bytes : List UInt8} {data limit : Nat}

theorem appendToBuffer_room (room : data + bytes.length ≤ limit) :
    appendToBuffer ⟨buffer, data, some limit⟩ bytes =
      (none, ⟨buffer.take data ++ bytes ++ buffer.drop (data + bytes.length),
        data + bytes.length, some limit⟩) := by
  have enough : wouldOverflow ⟨buffer, data, some limit⟩ bytes.length = false := by
    have left : ¬ (limit : Int) - data - bytes.length < 0 := by omega
    exact decide_eq_false left
  rw [appendToBuffer, enough]
  rfl

/-- The room that is left stays empty. -/
theorem appendToBuffer_full (inside : data ≤ limit) (large : limit < data + bytes.length) :
    appendToBuffer ⟨buffer, data, some limit⟩ bytes =
      (some .outOfMemory, ⟨buffer, data + bytes.length - limit, none⟩) := by
  have more : wouldOverflow ⟨buffer, data, some limit⟩ bytes.length = true := by
    have left : (limit : Int) - data - bytes.length < 0 := by omega
    exact decide_eq_true left
  have missing : 0 + (bytes.length - (limit - data)) = data + bytes.length - limit := by omega
  rw [appendToBuffer, more, ← missing]
  rfl

theorem appendToBuffer_counting (some_missing : 0 < data) :
    appendToBuffer ⟨buffer, data, none⟩ bytes =
      (some .outOfMemory, ⟨buffer, data + bytes.length, none⟩) := by
  have more : wouldOverflow ⟨buffer, data, none⟩ bytes.length = true := by
    have left : (0 : Int) - data - bytes.length < 0 := by omega
    exact decide_eq_true left
  rw [appendToBuffer, more]
  rfl

end Append

section Rules

theorem appends_appendToBuffer (bytes : List UInt8) : Appends (appendToBuffer · bytes) bytes := by
  rintro size before ⟨buffer, data, limit⟩ ⟨length, fits, missing⟩
  have total : (before ++ bytes).length = before.length + bytes.length := List.length_append
  by_cases inside : before.length ≤ size
  · obtain ⟨rfl, rfl, written⟩ := fits inside
    by_cases room : before.length + bytes.length ≤ size
    · rw [roomError, total, if_pos room]
      refine ⟨_, appendToBuffer_room room, ?_, fun _ => ⟨rfl, total.symm, ?_⟩, fun large => ?_⟩
      · simp only [List.length_append, List.length_take, List.length_drop, length]
        omega
      · rw [written]
        exact List.take_left
      · omega
    · rw [roomError, total, if_neg room]
      refine ⟨_, appendToBuffer_full inside (Nat.not_le.mp room), length, fun small => ?_,
        fun _ => ⟨rfl, ?_⟩⟩
      · omega
      · change before.length + bytes.length - size + size = _
        omega
  · obtain ⟨rfl, counted⟩ := missing (Nat.not_le.mp inside)
    change data + size = before.length at counted
    rw [roomError, total, if_neg (by omega)]
    refine ⟨_, appendToBuffer_counting (by omega), length, fun small => ?_, fun _ => ⟨rfl, ?_⟩⟩
    · omega
    · change data + bytes.length + size = _
      omega

/-- One function behind the other. -/
theorem Appends.append {f g : CborEncoder → Option CborError × CborEncoder}
    {bytes others : List UInt8} (first : Appends f bytes) (next : Appends g others) :
    Appends (fun encoder => g (f encoder).2) (bytes ++ others) := by
  intro size before encoder encoded
  obtain ⟨middle, ends, encoded⟩ := first size before encoder encoded
  dsimp only
  rw [← List.append_assoc, ends]
  exact next size _ middle encoded

/-- The break goes behind what the container has written. -/
theorem appends_close (encoder : CborEncoder) : Appends (closeContainer encoder ·) [255] :=
  appends_appendToBuffer [255]

end Rules

/-! ## The bytes of items -/

section Bytes

theorem toUInt8_shiftRight (v shift : UInt64) (small : shift.toNat < 64) :
    (v >>> shift).toUInt8 = .ofNat (v.toNat / 2 ^ shift.toNat) := by
  apply UInt8.toNat.inj
  rw [UInt64.toNat_toUInt8, UInt64.toNat_shiftRight, Nat.mod_eq_of_lt small,
    Nat.shiftRight_eq_div_pow]
  exact UInt8.toNat_ofNat'.symm

theorem put64_eq (v : UInt64) : put64 v = numberBytes 8 v.toNat := by
  have last : v.toUInt8 = .ofNat (v.toNat / 256 ^ 0) := by
    rw [Nat.pow_zero, Nat.div_one]
    rfl
  rw [put64, toUInt8_shiftRight v 56 (by decide), toUInt8_shiftRight v 48 (by decide),
    toUInt8_shiftRight v 40 (by decide), toUInt8_shiftRight v 32 (by decide),
    toUInt8_shiftRight v 24 (by decide), toUInt8_shiftRight v 16 (by decide),
    toUInt8_shiftRight v 8 (by decide), last]
  rfl

/-- A number of more bytes behind the first one. -/
theorem long_head {n major more : Nat} (small : more ≤ 3) (info : headInfo n = 24 + more) :
    (UInt8.ofNat (32 * major) + 24 + .ofNat more) :: (numberBytes 8 n).drop (8 - 2 ^ more) =
      head major n := by
  have first : UInt8.ofNat (32 * major + (24 + more)) =
      UInt8.ofNat (32 * major) + 24 + .ofNat more := by
    rw [UInt8.ofNat_add, UInt8.ofNat_add, ← UInt8.add_assoc]
    rfl
  rw [head, info, first]
  congr 1
  obtain rfl | rfl | rfl | rfl : more = 0 ∨ more = 1 ∨ more = 2 ∨ more = 3 := by omega
  all_goals rfl

/-- The head that is encoded is the shortest. -/
theorem numberHead_eq (ui : UInt64) (major : Nat) :
    numberHead ui (.ofNat (32 * major)) = head major ui.toNat := by
  have bound (k : UInt64) : ui > k ↔ k.toNat < ui.toNat := UInt64.lt_iff_toNat_lt
  have low : ui.toUInt8 = .ofNat ui.toNat := rfl
  rw [numberHead, put64_eq, low]
  simp only [bound, UInt64.lt_iff_toNat_lt, UInt64.reduceToNat]
  generalize ui.toNat = n
  by_cases tiny : n < 24
  · rw [if_pos tiny, head, headInfo, if_pos tiny, argumentSize, if_pos tiny, UInt8.ofNat_add,
      UInt8.add_comm]
    rfl
  · rw [if_neg tiny]
    refine long_head ?_ ?_
    · split_ifs
      all_goals decide
    · rw [headInfo, if_neg tiny]
      split_ifs
      all_goals omega

theorem appends_number (ui : UInt64) (major : Nat) :
    Appends (encodeNumber · ui (.ofNat (32 * major))) (head major ui.toNat) := by
  rw [← numberHead_eq]
  exact appends_appendToBuffer _

/-- The sign of an integer, in all bits. -/
theorem shiftRight_sign (value : Int64) : value >>> 63 = if value.toInt < 0 then -1 else 0 := by
  have low := value.le_toInt
  have high := value.toInt_lt
  have shifted : (value >>> 63).toInt = value.toInt >>> (63 : Nat) := by
    rw [Int64.toInt, Int64.toBitVec_shiftRight, BitVec.toInt_sshiftRight']
    rfl
  apply Int64.toInt.inj
  rw [shifted, Int.shiftRight_eq_div_pow]
  split
  · have whole : value.toInt / 2 ^ 63 = -1 := by omega
    exact whole
  · have whole : value.toInt / 2 ^ 63 = 0 := by omega
    exact whole

/-- The number of an integer is its complement where it is negative. -/
theorem number_eq (value : Int64) :
    ((value >>> 63).toUInt64 ^^^ value.toUInt64).toNat = headNumber value.toInt := by
  have bits : value.toInt = if 2 * value.toUInt64.toNat < 2 ^ 64 then
      (value.toUInt64.toNat : Int) else value.toUInt64.toNat - (2 ^ 64 : Nat) :=
    BitVec.toInt_eq_toNat_cond _
  have bound := value.toUInt64.toNat_lt
  rw [shiftRight_sign, headNumber]
  split
  · have complement : (-1 : Int64).toUInt64 ^^^ value.toUInt64 = ~~~value.toUInt64 :=
      UInt64.neg_one_xor
    have largest : UInt64.size - 1 = 2 ^ 64 - 1 := rfl
    rw [complement, UInt64.toNat_not, largest]
    omega
  · have same : (0 : Int64).toUInt64 ^^^ value.toUInt64 = value.toUInt64 := UInt64.zero_xor
    rw [same]
    omega

theorem appends_int (value : Int64) :
    Appends (encodeInt · value) (Item.integer value.toInt).encode := by
  have number := appends_number ((value >>> 63).toUInt64 ^^^ value.toUInt64)
    (if value.toInt < 0 then 1 else 0)
  have major : ((value >>> 63).toUInt64 &&& 0x20).toUInt8 =
      .ofNat (32 * if value.toInt < 0 then 1 else 0) := by
    rw [shiftRight_sign]
    split
    · rfl
    · rfl
  rw [number_eq, ← major] at number
  exact number

theorem appends_boolean (value : Bool) :
    Appends (encodeBoolean · value) (Item.simple (if value then 21 else 20)).encode := by
  cases value with
  | false => exact appends_number 20 7
  | true => exact appends_number 21 7

theorem appends_double (value : UInt64) :
    Appends (encodeDouble · value) (Item.float 8 value.toNat).encode := by
  have bytes : (Item.float 8 value.toNat).encode = 251 :: put64 value := by
    rw [put64_eq]
    rfl
  rw [bytes]
  exact appends_appendToBuffer _

/-- A text that a pointer can point at. -/
structure IsCString (text : List UInt8) : Prop where
  whole : 0 ∉ text
  short : text.length < 2 ^ 64

theorem appends_text {text : List UInt8} (isText : IsCString text) :
    Appends (encodeTextStringz · text) (Item.text text).encode := by
  have same : CString.cstr text = text := List.takeWhile_eq_self_iff.mpr fun b inside =>
    decide_eq_true fun zero => isText.whole (zero ▸ inside)
  have length : (UInt64.ofNat text.length).toNat = text.length := by
    rw [UInt64.toNat_ofNat']
    exact Nat.mod_eq_of_lt isText.short
  have steps : (encodeTextStringz · text) = fun encoder =>
      appendToBuffer (encodeNumber encoder (.ofNat text.length) (.ofNat (32 * 3))).2 text := by
    funext encoder
    rw [encodeTextStringz, same, encodeString]
    rfl
  have bytes := (appends_number (.ofNat text.length) 3).append (appends_appendToBuffer text)
  rw [length] at bytes
  rw [steps]
  exact bytes

end Bytes

end StDevice.Tinycbor
