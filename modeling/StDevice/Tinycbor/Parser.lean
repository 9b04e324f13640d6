import Mathlib.Algebra.Ring.Nat
import StDevice.Foundation.Fallible

/-!
# The CBOR parser

A `CborValue` is an iterator. It is kept with the bytes from its position to the end of the
buffer. What an iterator points at is looked at when it gets there, so that an error shows
when the item before is left. An assertion of the library that fails stops the program, and
so does whatever follows it when assertions are compiled out. Memory does not run out.
-/

namespace StDevice.Tinycbor

inductive CborError where
  | unknownError
  | advancePastEOF
  | io
  | unexpectedEOF
  | unexpectedBreak
  | unknownType
  | illegalType
  | illegalNumber
  | illegalSimpleType
  | dataTooLarge
  | jsonObjectKeyNotString
  | outOfMemory
  deriving DecidableEq

inductive CborType where
  | integer
  | byteString
  | textString
  | array
  | map
  | tag
  | simple
  | boolean
  | null
  | undefined
  | halfFloat
  | float
  | double
  | invalid
  deriving DecidableEq

/-- The flags of an iterator. The last two survive when the next item is looked at. -/
structure Flags where
  integerValueTooLarge : Bool := false
  negativeInteger : Bool := false
  unknownLength : Bool := false
  containerIsMap : Bool := false
  nextIsMapKey : Bool := false
  deriving DecidableEq

structure CborValue where
  ptr : List UInt8
  /-- The items that are left, or `unknownCount` where a break ends them. -/
  remaining : Nat
  extra : Nat
  type : CborType
  flags : Flags
  deriving DecidableEq

/-- `UINT32_MAX`. -/
def unknownCount : Nat := 2 ^ 32 - 1

def breakByte : UInt8 := 255

def majorType (descriptor : UInt8) : Nat := descriptor.toNat / 32

def smallValue (descriptor : UInt8) : Nat := descriptor.toNat % 32

/-- The bytes behind a descriptor that belong to its number. -/
def bytesNeeded (small : Nat) : Nat := if small < 24 then 0 else 2 ^ (small - 24)

/-- `get16`, `get32` and `get64`. -/
def getNumber (bytes : List UInt8) : Nat := bytes.foldl (fun n b => 256 * n + b.toNat) 0

/-- `_cbor_value_extract_number`. -/
def extractNumber : List UInt8 → Fallible CborError (Nat × List UInt8)
  | [] => .stopped
  | descriptor :: ptr =>
      let small := smallValue descriptor
      if small < 24 then .done (small, ptr)
      else if 27 < small then .failed .illegalNumber
      else if ptr.length < bytesNeeded small then .failed .unexpectedEOF
      else .done (getNumber (ptr.take (bytesNeeded small)), ptr.drop (bytesNeeded small))

/-- The type before the descriptor is looked at further. -/
def typeOfMajor (major : Nat) : CborType :=
  match major with
  | 0 | 1 => .integer
  | 2 => .byteString
  | 3 => .textString
  | 4 => .array
  | 5 => .map
  | 6 => .tag
  | _ => .simple

def isFixedType (type : CborType) : Bool :=
  type != .textString && type != .byteString && type != .array && type != .map

/-- The simple and floating types, which the descriptor tells. -/
def preparseSimple (it : CborValue) (small : Nat) (next : Option UInt8) :
    Fallible CborError CborValue :=
  match small with
  | 20 => .done { it with extra := 0, type := .boolean }
  | 21 => .done { it with type := .boolean }
  | 22 => .done { it with type := .null }
  | 23 => .done { it with type := .undefined }
  | 24 =>
      let extra := (next.getD 0).toNat
      if extra < 32 then .failed .illegalSimpleType else .done { it with extra := extra }
  | 25 => .done { it with type := .halfFloat }
  | 26 => .done { it with type := .float, flags.integerValueTooLarge := true }
  | 27 => .done { it with type := .double, flags.integerValueTooLarge := true }
  | _ => .done it

/-- `preparse_value`. -/
def preparseValue (it : CborValue) : Fallible CborError CborValue :=
  match it.ptr with
  | [] => .failed .unexpectedEOF
  | descriptor :: rest =>
      let major := majorType descriptor
      let small := smallValue descriptor
      let kept : Flags :=
        { containerIsMap := it.flags.containerIsMap, nextIsMapKey := it.flags.nextIsMapKey }
      let it := { it with type := typeOfMajor major, flags := kept, extra := small }
      if 27 < small then
        if small ≠ 31 then .failed (if major = 7 then .unknownType else .illegalNumber)
        else if isFixedType it.type = false then .done { it with flags.unknownLength := true }
        else .failed (if major = 7 then .unexpectedBreak else .illegalNumber)
      else if rest.length < bytesNeeded small then .failed .unexpectedEOF
      else if major = 7 then preparseSimple it small rest.head?
      else
        let it := { it with flags.negativeInteger := major == 1 }
        if small < 24 then .done it
        else if small < 26 then .done { it with extra := getNumber (rest.take (bytesNeeded small)) }
        else .done { it with flags.integerValueTooLarge := true }

/-- `preparse_next_value_nodecrement`. A break ends the items, unless a value must follow. -/
def preparseNextValueNodecrement (it : CborValue) : Fallible CborError CborValue :=
  if it.remaining = unknownCount ∧ it.ptr.head? = some breakByte then
    if it.flags.containerIsMap = true ∧ it.flags.nextIsMapKey = true ∨ it.type = .tag then
      .failed .unexpectedBreak
    else .done { it with ptr := it.ptr.tail, type := .invalid, remaining := 0 }
  else preparseValue it

/-- `preparse_next_value`. A tag does not count as an item. -/
def preparseNextValue (it : CborValue) : Fallible CborError CborValue :=
  let remaining := if it.remaining = unknownCount then unknownCount else it.remaining - 1
  if it.type = .tag then preparseNextValueNodecrement it
  else if remaining = 0 then .done { it with remaining := 0, type := .invalid }
  else
    preparseNextValueNodecrement
      { it with remaining := remaining, flags.nextIsMapKey := !it.flags.nextIsMapKey }

/-- `cbor_parser_init`. -/
def parserInit (buffer : List UInt8) : Fallible CborError CborValue :=
  preparseValue { ptr := buffer, remaining := 1, extra := 0, type := .invalid, flags := {} }

/-- `cbor_value_at_end`. -/
def CborValue.atEnd (it : CborValue) : Bool := it.remaining == 0

/-- `cbor_value_advance_fixed`. -/
def advanceFixed (it : CborValue) : Fallible CborError CborValue :=
  if it.type = .invalid ∨ isFixedType it.type = false then .stopped
  else if it.remaining = 0 then .failed .advancePastEOF
  else do
    let (_, ptr) ← extractNumber it.ptr
    preparseNextValue { it with ptr := ptr }

/-- `cbor_value_is_container`. -/
def CborValue.isContainer (it : CborValue) : Bool := it.type == .array || it.type == .map

/-- `cbor_value_enter_container`. -/
def enterContainer (it : CborValue) : Fallible CborError CborValue :=
  if it.isContainer = false then .stopped
  else
    let inside : Flags := { containerIsMap := it.type == .map }
    if it.flags.unknownLength then
      preparseNextValueNodecrement
        { it with ptr := it.ptr.tail, remaining := unknownCount, flags := inside }
    else do
      let (len, ptr) ← extractNumber it.ptr
      if unknownCount ≤ len ∨ it.type = .map ∧ unknownCount / 2 < len then .failed .dataTooLarge
      else if len = 0 then .done { it with ptr := ptr, remaining := 0, type := .invalid }
      else
        preparseNextValueNodecrement
          { it with
            ptr := ptr
            remaining := if it.type = .map then 2 * len else len
            flags := inside }

/-- `cbor_value_leave_container`. -/
def leaveContainer (it recursed : CborValue) : Fallible CborError CborValue :=
  if it.isContainer = false ∨ recursed.type ≠ .invalid then .stopped
  else preparseNextValue { it with ptr := recursed.ptr }

/-- The number at the iterator, which is read again where `extra` does not hold it. -/
def CborValue.number (it : CborValue) : Nat :=
  if it.flags.integerValueTooLarge then
    getNumber (it.ptr.tail.take (bytesNeeded (smallValue (it.ptr.head?.getD 0))))
  else it.extra

/-- `cbor_value_get_raw_integer`. -/
def getRawInteger (it : CborValue) : Fallible CborError UInt64 :=
  if it.type = .integer then .done (.ofNat it.number) else .stopped

/-- One chunk of a string, behind its descriptor. -/
def extractChunk (ptr : List UInt8) : Fallible CborError (List UInt8 × List UInt8) := do
  let (len, ptr) ← extractNumber ptr
  if ptr.length < len then .failed .unexpectedEOF else .done (ptr.take len, ptr.drop len)

/-- The chunks up to the break. Every chunk takes a byte at least. -/
def stringChunks (type : CborType) : Nat → List UInt8 →
    Fallible CborError (List UInt8 × List UInt8)
  | 0, _ => .failed .unexpectedEOF
  | _ + 1, [] => .failed .unexpectedEOF
  | fuel + 1, descriptor :: ptr =>
      if descriptor = breakByte then .done ([], ptr)
      else if typeOfMajor (majorType descriptor) = type then do
        let (chunk, ptr) ← extractChunk (descriptor :: ptr)
        let (chunks, ptr) ← stringChunks type fuel ptr
        .done (chunk ++ chunks, ptr)
      else .failed .illegalType

/-- The bytes of the string at the iterator, and those behind it. -/
def copyString (it : CborValue) : Fallible CborError (List UInt8 × List UInt8) :=
  if it.flags.unknownLength then stringChunks it.type it.ptr.length it.ptr.tail
  else extractChunk it.ptr

/-- `cbor_value_dup_text_string`: the string, and the iterator behind it. -/
def dupTextString (it : CborValue) : Fallible CborError (List UInt8 × CborValue) :=
  if it.type ≠ .textString then .stopped
  else do
    let (text, ptr) ← copyString it
    let it ← preparseNextValue { it with ptr := ptr }
    .done (text, it)

end StDevice.Tinycbor
