import StDevice.Foundation.Decimal
import StDevice.Foundation.Double
import StDevice.Foundation.Printing
import StDevice.Tinycbor.Parser

/-!
# From CBOR to JSON

The items are printed while the parser walks over them, into a buffer of twice the length of
the input. A function is given the part of the buffer from `out` on with the size that is left
there, and returns how far it came. Positions are kept as numbers; in the inputs of the
callers, which come in one message each, an `int` holds them. `snprintf` does not fail, and
memory does not run out.

Whole doubles are kept as integers, others as their bits.
-/

namespace StDevice.Serialize

open Printing Tinycbor Decimal

/-- The arithmetic of doubles on their bits. -/
structure DoubleArithmetic where
  fpclassify : UInt64 → Int
  /-- The fraction and the integral part. -/
  modf : UInt64 → UInt64 × UInt64
  toInt : UInt64 → Int
  ofInt : Int → UInt64
  mul : UInt64 → UInt64 → UInt64
  div : UInt64 → UInt64 → UInt64
  round : UInt64 → UInt64
  beq : UInt64 → UInt64 → Bool
  blt : UInt64 → UInt64 → Bool

/-- What the language leaves open. -/
structure Platform where
  double : DoubleArithmetic
  /-- The conversion to `int` of a whole double that does not fit. -/
  outOfInt : Int → Int
  isInt : ∀ x, -2 ^ 31 ≤ outOfInt x ∧ outOfInt x < 2 ^ 31
  /-- The conversion to `uint64_t` of a power of ten that does not fit. -/
  outOfUInt64 : Nat → UInt64

/-- `(int)` of a whole double. -/
def Platform.toInt (platform : Platform) (x : Int) : Int :=
  if -2 ^ 31 ≤ x ∧ x < 2 ^ 31 then x else platform.outOfInt x

/-- Whatever is converted, it becomes an `int`. -/
theorem toInt_bounds (platform : Platform) (x : Int) :
    -2 ^ 31 ≤ platform.toInt x ∧ platform.toInt x < 2 ^ 31 := by
  rw [Platform.toInt]
  split
  · rename_i fits
    exact fits
  · exact platform.isInt x

/-- The conversion is exact only for an `int`. -/
theorem toInt_eq_iff {platform : Platform} {x : Int} :
    platform.toInt x = x ↔ -2 ^ 31 ≤ x ∧ x < 2 ^ 31 := by
  constructor
  · intro same
    rw [← same]
    exact toInt_bounds platform x
  · intro fits
    rw [Platform.toInt, if_pos fits]

/-- `(uint64_t)pow(10, exp)`. -/
def Platform.powerOfTen (platform : Platform) (exp : Nat) : UInt64 :=
  if exp < 20 then .ofNat (10 ^ exp) else platform.outOfUInt64 exp

/-- x86-64, where a number that does not fit becomes the smallest `int`, and a power of ten
that does not fit becomes zero. -/
def x86 : Platform where
  double :=
    { fpclassify := fun bits =>
        if Double.exponent bits = 2047 then if Double.fraction bits = 0 then 1 else 0
        else if Double.exponent bits = 0 then if Double.fraction bits = 0 then 2 else 3
        else 4
      modf := fun bits =>
        let x := Float.ofBits bits
        let whole := if x < 0 then x.ceil else x.floor
        (if x.isInf then 0 else (x - whole).toBits, whole.toBits)
      toInt := fun bits => (Double.toInt bits).getD (-2 ^ 31)
      ofInt := Double.ofInt
      mul := fun a b => (Float.ofBits a * Float.ofBits b).toBits
      div := fun a b => (Float.ofBits a / Float.ofBits b).toBits
      round := fun bits => (Float.ofBits bits).round.toBits
      beq := fun a b => Float.ofBits a == Float.ofBits b
      blt := fun a b => decide (Float.ofBits a < Float.ofBits b) }
  outOfInt _ := -2 ^ 31
  isInt _ := by decide
  outOfUInt64 _ := 0

/-- `IOT_SERIALIZE_DECIMAL_PRECISION`. -/
def decimalPrecision : Nat := 1000000

/-- `CborDecimalTag`. -/
def decimalTag : Nat := 4

/-- The double that an integer item becomes. -/
def doubleOfRaw (val : UInt64) (negative : Bool) : Int :=
  let val := (Double.nearest val.toNat : Int)
  if negative then Double.nearestInt (-val - 1) else val

section Values

variable (platform : Platform)

/-- The loop that prints the digits of a fraction, until the fraction is an `int`. -/
def printFraction : Nat → UInt64 → Nat → UInt64 → Nat → Writing Access CborError (Unit × Nat)
  | 0, _, _, _, _ => .running
  | fuel + 1, fracpart, out, len, c =>
      let double := platform.double
      if double.beq fracpart (double.ofInt (double.toInt fracpart)) then pure ((), c)
      else do
        let fracpart := double.mul fracpart (double.ofInt 10)
        let sret ← snprintf (out + c) (len - .ofNat c) (decimal ((double.toInt fracpart).tmod 10))
        printFraction fuel fracpart out len (c + sret)

/-- The case of a double. -/
def doubleToJson (fuel : Nat) (val : UInt64) (out : Nat) (len : UInt64) :
    Writing Access CborError (Unit × Nat) :=
  let double := platform.double
  if double.fpclassify val < 0 then .fail .io
  else do
    let (fracpart, intpart) := double.modf val
    let c ← snprintf out len (decimal (double.toInt intpart))
    if double.beq fracpart (double.ofInt 0) then pure ((), c)
    else do
      let sret ← snprintf (out + c) (len - .ofNat c) (CString.ascii ".")
      let precision := double.ofInt decimalPrecision
      let fracpart := double.div (double.round (double.mul fracpart precision)) precision
      let fracpart :=
        if double.blt fracpart (double.ofInt 0) then double.mul fracpart (double.ofInt (-1))
        else fracpart
      printFraction platform fuel fracpart out len (c + sret)

/-- The digits behind the point of a decimal fraction, where `exp` is the power of ten. -/
def fractionOf (man exp : UInt64) : UInt32 :=
  if decimalPrecision < exp.toNat then
    (man % exp / (exp / .ofNat decimalPrecision)).toUInt32
  else (man % exp).toUInt32

/-- The exponent and the mantissa of a decimal fraction, as they are encoded, the sign of the
mantissa, and the iterator behind them. -/
def readDecimal (it : CborValue) :
    Fallible CborError (UInt64 × UInt64 × Bool × CborValue) := do
  let it ← advanceFixed it
  let recursed ← enterContainer it
  let exp ← getRawInteger recursed
  let recursed ← advanceFixed recursed
  let man ← getRawInteger recursed
  let manSign := recursed.flags.negativeInteger
  let recursed ← advanceFixed recursed
  let it ← leaveContainer it recursed
  pure (exp, man, manSign, it)

/-- The quotient and the digits behind the point. A division by zero has no meaning. -/
def printQuotient (man exp : UInt64) (out : Nat) (len : UInt64) (c : Nat) :
    Writing Access CborError (Unit × Nat) :=
  if exp = 0 then .stop
  else do
    let sret ← snprintf (out + c) (len - .ofNat c) (decimalNat (man / exp).toUInt32.toNat)
    let c := c + sret
    let sret ← snprintf (out + c) (len - .ofNat c) (CString.ascii ".")
    let c := c + sret
    let sret ← snprintf (out + c) (len - .ofNat c) (decimalNat (fractionOf man exp).toNat)
    pure ((), c + sret)

/-- The case of a decimal fraction. -/
def decimalToJson (it : CborValue) (out : Nat) (len : UInt64) :
    Writing Access CborError (CborValue × Nat) := do
  let (exp, man, manSign, it) ← .lift (readDecimal it)
  let exp := platform.powerOfTen exp.toUInt32.toNat
  if manSign then do
    let c ← snprintf out len (CString.ascii "-")
    let (_, c) ← printQuotient man exp out len c
    pure (it, c)
  else do
    let (_, c) ← printQuotient man exp out len 0
    pure (it, c)

/-- A string between quotation marks, as it is. -/
def quoted (str : List UInt8) : List UInt8 :=
  CString.ascii "\"" ++ CString.cstr str ++ CString.ascii "\""

/-- The comma in front of an item, unless it is the first: the position behind it. -/
def storeComma (comma : Bool) (out c : Nat) : Writing Access CborError Nat :=
  if comma then do
    store (out + c) 44
    pure (c + 1)
  else pure c

mutual

/-- `_iot_cbor_array_to_json`, from some round of its loop on. -/
def iotCborArrayToJson : Nat → CborValue → Nat → UInt64 → Bool → Nat →
    Writing Access CborError (CborValue × Nat)
  | 0, _, _, _, _, _ => .running
  | fuel + 1, it, out, len, comma, c =>
      if it.atEnd then pure (it, c)
      else do
        let c ← storeComma comma out c
        let (it, n) ← iotCborValueToJson fuel it (out + c) (len - .ofNat c)
        iotCborArrayToJson fuel it out len true (c + n)
termination_by structural fuel => fuel

/-- `_iot_cbor_map_to_json`, from some round of its loop on. -/
def iotCborMapToJson : Nat → CborValue → Nat → UInt64 → Bool → Nat →
    Writing Access CborError (CborValue × Nat)
  | 0, _, _, _, _, _ => .running
  | fuel + 1, it, out, len, comma, c =>
      if it.atEnd then pure (it, c)
      else do
        let c ← storeComma comma out c
        if it.type ≠ .textString then .fail .jsonObjectKeyNotString
        else do
          let (key, it) ← .lift (dupTextString it)
          let sret ← snprintf (out + c) (len - .ofNat c) (quoted key ++ CString.ascii ":")
          let c := c + sret
          let (it, n) ← iotCborValueToJson fuel it (out + c) (len - .ofNat c)
          iotCborMapToJson fuel it out len true (c + n)
termination_by structural fuel => fuel

/-- `_iot_cbor_value_to_json`. -/
def iotCborValueToJson : Nat → CborValue → Nat → UInt64 →
    Writing Access CborError (CborValue × Nat)
  | 0, _, _, _ => .running
  | fuel + 1, it, out, len =>
      match it.type with
      | .array => do
          let recursed ← .lift (enterContainer it)
          let c ← snprintf out len (CString.ascii "[")
          let (recursed, n) ←
            iotCborArrayToJson fuel recursed (out + c) (len - .ofNat c) false 0
          let c := c + n
          let sret ← snprintf (out + c) (len - .ofNat c) (CString.ascii "]")
          let it ← .lift (leaveContainer it recursed)
          pure (it, c + sret)
      | .map => do
          let recursed ← .lift (enterContainer it)
          let c ← snprintf out len (CString.ascii "\x7b")
          let (recursed, n) ←
            iotCborMapToJson fuel recursed (out + c) (len - .ofNat c) false 0
          let c := c + n
          let sret ← snprintf (out + c) (len - .ofNat c) (CString.ascii "\x7d")
          let it ← .lift (leaveContainer it recursed)
          pure (it, c + sret)
      | .byteString | .textString => do
          let (str, it) ← .lift (dupTextString it)
          let c ← snprintf out len (quoted str)
          pure (it, c)
      | .integer => do
          let val ← .lift (getRawInteger it)
          let val := doubleOfRaw val it.flags.negativeInteger
          let c ← snprintf out len (decimal (platform.toInt val))
          let it ← .lift (advanceFixed it)
          pure (it, c)
      | .double => do
          let (_, c) ← doubleToJson platform fuel (.ofNat it.number) out len
          let it ← .lift (advanceFixed it)
          pure (it, c)
      | .tag =>
          if it.number = decimalTag then decimalToJson platform it out len
          else .fail .unknownType
      | .boolean => do
          let c ← snprintf out len
            (if it.extra = 0 then CString.ascii "false" else CString.ascii "true")
          let it ← .lift (advanceFixed it)
          pure (it, c)
      | _ => .fail .unknownType
termination_by structural fuel => fuel

end

end Values

/-- The errors of `iot_serialize_cbor2json`. -/
inductive IotError where
  | invalidArgs
  | cborParse
  | cborToJson
  | memAlloc
  deriving DecidableEq

/-- The size of the buffer that is allocated for the text. -/
def bufferSize (cbor : List UInt8) : UInt64 := .ofNat cbor.length * 2

/-- `iot_serialize_cbor2json`: the accesses to the buffer, and the text with its length. An
access that leaves the buffer has no meaning. -/
def iotSerializeCbor2json (platform : Platform) (fuel : Nat) (cbor : List UInt8) :
    Writing Access IotError (List UInt8 × Nat) :=
  if cbor = [] then .fail .invalidArgs
  else
    match parserInit cbor with
    | .stopped => .stop
    | .failed _ => .fail .cborParse
    | .done it =>
        let len := bufferSize cbor
        let run := iotCborValueToJson platform fuel it 0 len
        ⟨run.outputs, run.ending.map fun ends =>
          match ends with
          | .stopped => .stopped
          | .failed _ => .failed .cborToJson
          | .done (_, olen) =>
              if olen < len.toNat then
                match run.outputs.foldlM Access.perform (List.replicate len.toNat 0) with
                | none => .stopped
                | some buf => .done (buf.take (olen + 1), olen)
              else .failed .memAlloc⟩

end StDevice.Serialize
