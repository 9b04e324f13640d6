import Mathlib.Algebra.Order.Field.Rat
import Mathlib.Tactic.FieldSimp
import Mathlib.Tactic.LinearCombination
import StDevice.Foundation.DecimalPoint
import StDevice.Serialize.Structure

/-!
# Numbers

An integer is printed through a double and an `int`. A decimal fraction is printed as a
quotient and a remainder of its mantissa. The exponent and the mantissa are those of the
encoding, where a negative number is one less than its absolute value; so the point is in the
wrong place, and the mantissa is wrong where it is negative.
-/

namespace StDevice.Serialize

open Printing Tinycbor Decimal Cbor JsonValue

section Integers

variable {it : CborValue} {bytes rest : List UInt8} {n : Nat} {value : Int}

/-- What the iterator shows of an integer, and where it goes on behind it. -/
structure ShowsInteger (it : CborValue) (value : Int) (rest : List UInt8) : Prop where
  type : it.type = .integer
  raw : getRawInteger it = .done (.ofNat (headNumber value))
  bound : headNumber value < 2 ^ 64
  sign : it.flags.negativeInteger = decide (value < 0)
  next : (advanceFixed it).Returns fun it' => preparseNextValue { it with ptr := rest } = .done it'

theorem showsInteger_of_head {descriptor : UInt8} {number : Nat}
    (seen : Seen (descriptor :: bytes) it) (major : majorType descriptor < 2)
    (head : argument (smallValue descriptor) bytes = some (number, rest))
    (same : headNumber value = number) (sign : decide (value < 0) = (majorType descriptor == 1)) :
    ShowsInteger it value rest := by
  have type : it.type = .integer := by
    rw [type_of_seen seen (by omega)]
    obtain zero | one : majorType descriptor = 0 ∨ majorType descriptor = 1 := by omega
    · rw [zero]
      rfl
    · rw [one]
      rfl
  have fixed : ¬ (it.type = .invalid ∨ isFixedType it.type = false) := by simp [type, isFixedType]
  obtain ⟨before, looked, ptr⟩ := id seen
  obtain ⟨raw, negative⟩ := preparseValue_number looked ptr (by omega) head
  constructor
  · exact type
  · rw [getRawInteger, if_pos type, raw, same]
  · exact same ▸ argument_lt head
  · exact negative.trans sign.symm
  · exact ⟨advanceFixed_ne_stopped seen fixed, fun it' => advanceFixed_seen seen head⟩

/-- An integer that the iterator has just seen. -/
theorem showsInteger_of_seen (seen : Seen bytes it)
    (read : item n bytes = some (.integer value, rest)) : ShowsInteger it value rest := by
  obtain ⟨fuel, descriptor, behind, seen, form⟩ := form_of_seen seen read
  generalize same : Item.integer value = v at form
  cases form with
  | unsigned major head =>
      cases same
      change majorType descriptor = 0 at major
      refine showsInteger_of_head seen (by omega) head ?_ ?_
      · rw [headNumber, if_neg (by omega)]
        rfl
      · rw [major]
        exact decide_eq_false (by omega)
  | negative major head =>
      cases same
      change majorType descriptor = 1 at major
      refine showsInteger_of_head seen (by omega) head ?_ ?_
      · rw [headNumber, if_pos (by omega)]
        omega
      · rw [major]
        exact decide_eq_true (by omega)
  | simple _ _ found =>
      cases same
      obtain ⟨_, same⟩ | ⟨_, _, same⟩ := simple_cases found
      · cases same
      · cases same
  | _ => cases same

variable {platform : Platform} {fuel : Nat}

theorem valuePieces_integer (type : it.type = .integer) :
    valuePieces platform (fuel + 1) it =
      (.lift (getRawInteger it) >>= fun val =>
        print (decimal (platform.toInt (doubleOfRaw val it.flags.negativeInteger))) >>= fun _ =>
          .lift (advanceFixed it)) := by
  rw [valuePieces, type]

/-- The double of an `int` is exact. -/
theorem doubleOfRaw_eq (low : -2 ^ 31 ≤ value) (high : value < 2 ^ 31) :
    doubleOfRaw (.ofNat (headNumber value)) (decide (value < 0)) = value := by
  rw [doubleOfRaw, headNumber]
  by_cases negative : value < 0
  · have small : (-1 - value).toNat < 2 ^ 31 := by omega
    have toNat : (UInt64.ofNat (-1 - value).toNat).toNat = (-1 - value).toNat := by
      rw [UInt64.toNat_ofNat']
      omega
    rw [if_pos negative, toNat, Double.nearest_eq_self (by omega), if_pos (decide_eq_true negative),
      Double.nearestInt_eq_self (by omega)]
    omega
  · have toNat : (UInt64.ofNat value.toNat).toNat = value.toNat := by
      rw [UInt64.toNat_ofNat']
      omega
    rw [if_neg negative, toNat, Double.nearest_eq_self (by omega), if_neg (by simpa using negative)]
    omega

/-- The text of an integer says its value if the value is an `int`. -/
theorem readNumber_integer_iff :
    readNumber (decimal (platform.toInt
      (doubleOfRaw (.ofNat (headNumber value)) (decide (value < 0))))) = some (value : ℚ) ↔
        -2 ^ 31 ≤ value ∧ value < 2 ^ 31 := by
  rw [readNumber_decimal, Option.some.injEq, Int.cast_inj]
  constructor
  · intro same
    rw [← same]
    exact toInt_bounds platform _
  · rintro ⟨low, high⟩
    rw [doubleOfRaw_eq low high, Platform.toInt, if_pos ⟨low, high⟩]

end Integers

/-! ## Decimal fractions -/

section Decimals

variable {it : CborValue} {bytes rest : List UInt8} {n : Nat} {e m : Int}

/-- Behind a tag the iterator looks at the item that is tagged. -/
theorem seen_behind_tag {it' : CborValue} (type : it.type = .tag)
    (next : preparseNextValue { it with ptr := rest } = .done it') : Seen rest it' := by
  rw [preparseNextValue] at next
  dsimp only at next
  rw [if_pos type, preparseNextValueNodecrement] at next
  split at next
  · rw [if_pos (.inr type)] at next
    cases next
  · exact ⟨_, next, rfl⟩

/-- A tag that the iterator has just seen. -/
theorem tag_of_seen {number : Nat} {inner : Item} (seen : Seen bytes it)
    (read : item n bytes = some (.tag number inner, rest)) :
    it.type = .tag ∧ it.number = number ∧ (advanceFixed it).Returns fun it' =>
      ∃ fuel behind, Seen behind it' ∧ item fuel behind = some (inner, rest) := by
  obtain ⟨fuel, descriptor, behind, seen, form⟩ := form_of_seen seen read
  cases form with
  | tag major head read =>
      change majorType descriptor = 6 at major
      have type : it.type = .tag := by
        rw [type_of_seen seen (by omega), major]
        rfl
      have fixed : ¬ (it.type = .invalid ∨ isFixedType it.type = false) := by
        simp [type, isFixedType]
      obtain ⟨before, looked, ptr⟩ := id seen
      obtain ⟨number, -⟩ := preparseValue_number looked ptr (by omega) head
      refine ⟨type, number, advanceFixed_ne_stopped seen fixed, fun it' next => ?_⟩
      exact ⟨_, _, seen_behind_tag type (advanceFixed_seen seen head next), read⟩
  | simple _ _ found =>
      obtain ⟨_, same⟩ | ⟨_, _, same⟩ := simple_cases found
      · cases same
      · cases same

/-- An array that the iterator has just seen, and its first item. -/
theorem array_of_seen {contents : List Item} (seen : Seen bytes it)
    (read : item n bytes = some (.array contents, rest)) :
    it.isContainer ≠ false ∧ (enterContainer it).Returns fun recursed =>
      ∃ fuel count behind, Arrived count behind recursed ∧
        items fuel count behind = some (contents, rest) := by
  obtain ⟨fuel, descriptor, behind, seen, form⟩ := form_of_seen seen read
  cases form with
  | array major head list =>
      change majorType descriptor = 4 at major
      have type : it.type = .array := by
        rw [type_of_seen seen (by omega), major]
        rfl
      have container : it.isContainer ≠ false := by simp [CborValue.isContainer, type]
      exact ⟨container, enterContainer_ne_stopped seen container, fun recursed entered =>
        ⟨_, _, _, arrived_enterContainer seen major (.inl rfl) head entered, list⟩⟩
  | simple _ _ found =>
      obtain ⟨_, same⟩ | ⟨_, _, same⟩ := simple_cases found
      · cases same
      · cases same

/-- An integer inside an array, and what the iterator arrives at behind it. -/
theorem integer_of_arrived {count : Option Nat} {value : Int} {others : List Item}
    (arrived : Arrived count bytes it)
    (read : items n count bytes = some (.integer value :: others, rest)) :
    getRawInteger it = .done (.ofNat (headNumber value)) ∧ headNumber value < 2 ^ 64 ∧
      it.flags.negativeInteger = decide (value < 0) ∧ (advanceFixed it).Returns fun it' =>
        ∃ fuel count' behind, Arrived count' behind it' ∧
          items fuel count' behind = some (others, rest) := by
  obtain ⟨none, -⟩ | ⟨fuel, first, others', behind, count', same, -, seen, here, there, follows⟩ :=
    arrived_cases arrived read
  · cases none
  · obtain ⟨rfl, rfl⟩ := List.cons.inj same
    have shows := showsInteger_of_seen seen here
    refine ⟨shows.raw, shows.bound, shows.sign, shows.next.1, fun it' next => ?_⟩
    exact ⟨fuel, count', behind, follows it' (by simp [shows.type]) (shows.next.2 it' next), there⟩

/-- The exponent and the mantissa are read as they are encoded. -/
theorem readDecimal_of_seen (seen : Seen bytes it)
    (read : item n bytes = some (.tag decimalTag (.array [.integer e, .integer m]), rest)) :
    (readDecimal it).Returns fun (exp, man, manSign, _) =>
      exp = .ofNat (headNumber e) ∧ man = .ofNat (headNumber m) ∧ manSign = decide (m < 0) ∧
        headNumber m < 2 ^ 64 := by
  obtain ⟨-, -, behindTag⟩ := tag_of_seen seen read
  refine behindTag.bind fun it ⟨_, _, seen, read⟩ => ?_
  obtain ⟨container, entered⟩ := array_of_seen seen read
  refine entered.bind fun recursed ⟨_, _, _, arrived, read⟩ => ?_
  obtain ⟨rawExp, -, -, behindExp⟩ := integer_of_arrived arrived read
  rw [rawExp, Fallible.done_bind]
  refine behindExp.bind fun recursed ⟨_, _, _, arrived, read⟩ => ?_
  obtain ⟨rawMan, bound, sign, behindMan⟩ := integer_of_arrived arrived read
  rw [rawMan, Fallible.done_bind]
  refine behindMan.bind fun behind ⟨_, _, _, arrived, read⟩ => ?_
  obtain ⟨-, -, -, left⟩ | ⟨_, _, _, _, _, none, -⟩ := arrived_cases arrived read
  · have leaves : (leaveContainer it behind).Returns fun _ => True :=
      ⟨leaveContainer_ne_stopped container left, fun _ _ => trivial⟩
    exact leaves.bind fun _ _ => .done ⟨rfl, rfl, sign, bound⟩
  · cases none

variable {platform : Platform} {fuel : Nat}

/-- The text of a decimal fraction. -/
def decimalText (man exp : UInt64) (manSign : Bool) : List UInt8 :=
  (if manSign then CString.ascii "-" else []) ++
    (decimalNat (man / exp).toUInt32.toNat ++ 46 :: decimalNat (fractionOf man exp).toNat)

theorem decimalPieces_eq {exp man : UInt64} {manSign : Bool} {it' : CborValue}
    (read : readDecimal it = .done (exp, man, manSign, it')) :
    decimalPieces platform it =
      ((if manSign then print (CString.ascii "-") else pure ()) >>= fun _ =>
        quotientPieces man (platform.powerOfTen exp.toUInt32.toNat) >>= fun _ => pure it') := by
  rw [decimalPieces, read]
  cases manSign with
  | true => rfl
  | false => rfl

theorem decimalPieces_of_failed {err : CborError} (read : readDecimal it = .failed err) :
    (decimalPieces platform it).ending = some (.failed err) := by
  rw [decimalPieces, read]
  rfl

theorem decimalPieces_of_zero {exp man : UInt64} {manSign : Bool} {it' : CborValue}
    (read : readDecimal it = .done (exp, man, manSign, it'))
    (zero : platform.powerOfTen exp.toUInt32.toNat = 0) :
    (decimalPieces platform it).ending = some .stopped := by
  rw [decimalPieces_eq read, quotientPieces, if_pos zero]
  cases manSign with
  | true => rfl
  | false => rfl

theorem decimalPieces_of_ne_zero {exp man : UInt64} {manSign : Bool} {it' : CborValue}
    (read : readDecimal it = .done (exp, man, manSign, it'))
    (nonzero : platform.powerOfTen exp.toUInt32.toNat ≠ 0) :
    (decimalPieces platform it).ending = some (.done it') ∧
      textOf (decimalPieces platform it).outputs =
        decimalText man (platform.powerOfTen exp.toUInt32.toNat) manSign := by
  have whole (front behind : List UInt8) :
      front ++ ([46] ++ (behind ++ [])) = front ++ 46 :: behind := by
    rw [List.append_nil]
    rfl
  rw [decimalPieces_eq read, quotientPieces, if_neg nonzero, decimalText]
  cases manSign with
  | true => exact ⟨rfl, congrArg (CString.ascii "-" ++ ·) (whole _ _)⟩
  | false => exact ⟨rfl, whole _ _⟩

/-- The sides of the point, where the power of ten is one of those that have the precision. -/
theorem decimalText_eq {r : Nat} {man : UInt64} {manSign : Bool}
    (fits : 10 ^ r ≤ decimalPrecision) :
    decimalText man (platform.powerOfTen (UInt64.ofNat r).toUInt32.toNat) manSign =
      (if manSign then [45] else []) ++ (decimalNat (man.toNat / 10 ^ r % 2 ^ 32) ++
        46 :: decimalNat (man.toNat % 10 ^ r)) := by
  have small : r ≤ 6 := (Nat.pow_le_pow_iff_right (by decide)).mp (fits.trans_eq rfl)
  have raw : (UInt64.ofNat r).toUInt32.toNat = r := by
    rw [UInt64.toNat_toUInt32, UInt64.toNat_ofNat']
    omega
  have power : (UInt64.ofNat (10 ^ r)).toNat = 10 ^ r := by
    rw [UInt64.toNat_ofNat', Nat.mod_eq_of_lt]
    exact fits.trans_lt (by decide)
  have positive : 0 < 10 ^ r := Nat.pow_pos (by decide)
  have remainder : man.toNat % 10 ^ r < 2 ^ 32 :=
    (Nat.mod_lt _ positive).trans_le (fits.trans (by decide))
  rw [decimalText, raw, Platform.powerOfTen, if_pos (show r < 20 by omega), fractionOf, power,
    if_neg (Nat.not_lt.mpr fits), UInt64.toNat_toUInt32, UInt64.toNat_toUInt32, UInt64.toNat_div,
    UInt64.toNat_mod, power, Nat.mod_eq_of_lt remainder]
  rfl

/-- What the text says, up to its sign. -/
theorem readNumber_sides (negative : Bool) (q f : Nat) :
    readNumber ((if negative then [45] else []) ++ (decimalNat q ++ 46 :: decimalNat f)) =
      some ((if negative then -1 else 1) * ((q : ℚ) + f / 10 ^ (decimalNat f).length)) := by
  cases negative with
  | true =>
      show (readMagnitude (decimalNat q ++ 46 :: decimalNat f)).map (fun q => -q) = _
      rw [readMagnitude_point, if_pos rfl, neg_one_mul]
      rfl
  | false =>
      show readNumber (decimalNat q ++ 46 :: decimalNat f) = _
      rw [readNumber_digits, readMagnitude_point, if_neg Bool.false_ne_true, one_mul]


/-- The sides of a point say a number if its digits move by one place. -/
theorem sides_eq_iff {r man e : Nat} {q f : Nat} :
    ((q : ℚ) + f / 10 ^ (decimalNat f).length) = ((man + e : Nat) : ℚ) * (1 / 10 ^ (r + 1)) ↔
      10 ^ (r + 1) * (q * 10 ^ (decimalNat f).length + f) =
        (man + e) * 10 ^ (decimalNat f).length := by
  generalize (decimalNat f).length = d
  rw [← @Nat.cast_inj ℚ]
  push_cast
  have tens : (10 : ℚ) ^ (r + 1) ≠ 0 := pow_ne_zero _ (by decide)
  have digits : (10 : ℚ) ^ d ≠ 0 := pow_ne_zero _ (by decide)
  constructor
  · intro same
    field_simp at same
    linear_combination same
  · intro same
    field_simp
    linear_combination same

/-- What the text of a decimal fraction says is its value for zero, and for one negative
mantissa. -/
theorem readNumber_decimal_iff (negative : e < 0) (fits : 10 ^ headNumber e ≤ decimalPrecision)
    (bound : headNumber m < 2 ^ 64) :
    readNumber (decimalText (.ofNat (headNumber m))
      (platform.powerOfTen (UInt64.ofNat (headNumber e)).toUInt32.toNat) (decide (m < 0))) =
        some ((m : ℚ) * 10 ^ e) ↔
      m = 0 ∨ m < 0 ∧ 9 * -m = 10 * (10 ^ headNumber e * 2 ^ 33 + 1) := by
  have power : (10 : ℚ) ^ e = 1 / 10 ^ (headNumber e + 1) := by
    have exponent : e = -((headNumber e + 1 : Nat) : Int) := by
      rw [headNumber, if_pos negative]
      omega
    rw [one_div, ← zpow_natCast, ← zpow_neg, ← exponent]
  have toNat : (UInt64.ofNat (headNumber m)).toNat = headNumber m := by
    rw [UInt64.toNat_ofNat', Nat.mod_eq_of_lt bound]
  rw [decimalText_eq fits, readNumber_sides, power, toNat, Option.some.injEq]
  generalize headNumber e = r
  obtain ⟨enough, needed⟩ := lt_pow_length_decimalNat (headNumber m % 10 ^ r)
  by_cases below : m < 0
  · obtain ⟨man, rfl⟩ : ∃ man : Nat, m = -((man + 1 : Nat) : Int) := ⟨(-1 - m).toNat, by omega⟩
    have raw : headNumber (-((man + 1 : Nat) : Int)) = man := by
      rw [headNumber, if_pos below]
      omega
    rw [raw] at enough needed ⊢
    have exact := DecimalPoint.quotient_exact_iff (Nat.le_refl 1) enough needed
    rw [← sides_eq_iff, or_iff_right (Nat.succ_ne_zero man), and_iff_right rfl] at exact
    rw [or_iff_right below.ne, and_iff_right below, if_pos (decide_eq_true below), Int.cast_neg,
      neg_one_mul, neg_mul, neg_inj, Int.cast_natCast, exact, neg_neg]
    exact_mod_cast Iff.rfl
  · obtain ⟨man, rfl⟩ : ∃ man : Nat, m = man := ⟨m.toNat, by omega⟩
    have raw : headNumber (man : Int) = man := by
      rw [headNumber, if_neg below]
      rfl
    rw [raw] at enough needed ⊢
    have exact := DecimalPoint.quotient_exact_iff (Nat.zero_le 1) enough needed
    rw [← sides_eq_iff, or_iff_left fun both => absurd both.1 (by decide), Nat.add_zero] at exact
    rw [or_iff_left fun both => below both.1, if_neg (by simp), one_mul,
      Int.cast_natCast, exact]
    exact_mod_cast Iff.rfl

/-- The power of ten that is divided by is not zero where it fits into 64 bits, or the platform
makes something of it. -/
theorem powerOfTen_ne_zero_iff (platform : Platform) (exp : Nat) :
    platform.powerOfTen exp ≠ 0 ↔ exp < 20 ∨ platform.outOfUInt64 exp ≠ 0 := by
  rw [Platform.powerOfTen]
  by_cases small : exp < 20
  · rw [if_pos small]
    refine ⟨fun _ => .inl small, fun _ zero => ?_⟩
    have power : 10 ^ exp ≤ 10 ^ 19 := Nat.pow_le_pow_right (by decide) (by omega)
    have toNat : (UInt64.ofNat (10 ^ exp)).toNat = 10 ^ exp := by
      rw [UInt64.toNat_ofNat', Nat.mod_eq_of_lt (power.trans_lt (by decide))]
    rw [zero] at toNat
    exact absurd toNat.symm (Nat.pow_pos (by decide)).ne'
  · rw [if_neg small, or_iff_right small]

/-- A decimal fraction is printed by `decimalPieces`. -/
theorem valuePieces_decimal (seen : Seen bytes it)
    (read : item n bytes = some (.tag decimalTag (.array [.integer e, .integer m]), rest)) :
    valuePieces platform (fuel + 1) it = decimalPieces platform it := by
  obtain ⟨type, number, -⟩ := tag_of_seen seen read
  rw [valuePieces, type]
  exact if_pos number

end Decimals

section Written

variable (platform : Platform) (fuel : Nat) (it : CborValue) (before : List UInt8) (len : UInt64)

/-- The text that is written behind what is in the buffer says the number. -/
def WritesNumber (n : Nat) (q : ℚ) : Prop :=
  ∃ buf, (iotCborValueToJson platform fuel it before.length
      (len - .ofNat before.length)).outputs.foldlM Access.perform
        (before ++ List.replicate (len.toNat - before.length) 0) = some buf ∧
    readNumber ((buf.drop before.length).take n) = some q

variable {platform fuel it before len}

theorem writesNumber_iff {n : Nat} {it' : CborValue} {q : ℚ}
    (ends : (iotCborValueToJson platform fuel it before.length
      (len - .ofNat before.length)).ending = some (.done (it', n)))
    (fits : before.length + n < len.toNat) :
    WritesNumber platform fuel it before len n q ↔
      readNumber (textOf (valuePieces platform fuel it).outputs) = some q := by
  obtain ⟨-, rfl, zeros, written⟩ := iotCborValueToJson_writes platform fuel ends fits
  rw [WritesNumber, written]
  simp only [Option.some.injEq, exists_eq_left', List.append_assoc, List.drop_left,
    List.take_left]

section Read

variable {bytes rest : List UInt8} {k n : Nat} {it' : CborValue} {e m : Int}

theorem writesNumber_integer_iff {value : Int} (seen : Seen bytes it)
    (read : item k bytes = some (.integer value, rest))
    (ends : (iotCborValueToJson platform (fuel + 1) it before.length
      (len - .ofNat before.length)).ending = some (.done (it', n)))
    (fits : before.length + n < len.toNat) :
    WritesNumber platform (fuel + 1) it before len n value ↔
      -2 ^ 31 ≤ value ∧ value < 2 ^ 31 := by
  have shows := showsInteger_of_seen seen read
  have text : textOf (valuePieces platform (fuel + 1) it).outputs =
      decimal (platform.toInt
        (doubleOfRaw (.ofNat (headNumber value)) (decide (value < 0)))) := by
    rw [valuePieces_integer shows.type, shows.raw, shows.sign]
    exact List.append_nil _
  rw [writesNumber_iff ends fits, text, readNumber_integer_iff]

theorem writesNumber_decimal_iff (seen : Seen bytes it)
    (read : item k bytes = some (.tag decimalTag (.array [.integer e, .integer m]), rest))
    (negative : e < 0) (precise : 10 ^ headNumber e ≤ decimalPrecision)
    (ends : (iotCborValueToJson platform (fuel + 1) it before.length
      (len - .ofNat before.length)).ending = some (.done (it', n)))
    (fits : before.length + n < len.toNat) :
    WritesNumber platform (fuel + 1) it before len n (m * 10 ^ e) ↔
      m = 0 ∨ m < 0 ∧ 9 * -m = 10 * (10 ^ headNumber e * 2 ^ 33 + 1) := by
  obtain ⟨piecesEnd, -⟩ := iotCborValueToJson_writes platform (fuel + 1) ends fits
  obtain ⟨goes, reads⟩ := readDecimal_of_seen seen read
  rw [writesNumber_iff ends fits]
  rw [valuePieces_decimal seen read] at piecesEnd ⊢
  cases decimal : readDecimal it with
  | stopped => exact absurd decimal goes
  | failed err =>
      rw [decimalPieces_of_failed decimal] at piecesEnd
      cases piecesEnd
  | done parts =>
      obtain ⟨exp, man, manSign, behind⟩ := parts
      obtain ⟨rfl, rfl, rfl, bound⟩ := reads _ decimal
      by_cases zero : platform.powerOfTen (UInt64.ofNat (headNumber e)).toUInt32.toNat = 0
      · rw [decimalPieces_of_zero decimal zero] at piecesEnd
        cases piecesEnd
      · rw [(decimalPieces_of_ne_zero decimal zero).2]
        exact readNumber_decimal_iff negative precise bound

/-- A decimal fraction that is read is divided by its power of ten. -/
theorem ending_decimal_ne_stopped_iff (seen : Seen bytes it)
    (read : item k bytes = some (.tag decimalTag (.array [.integer e, .integer m]), rest))
    (returns : ∀ err, (iotCborValueToJson platform (fuel + 1) it before.length
      (len - .ofNat before.length)).ending ≠ some (.failed err)) :
    (iotCborValueToJson platform (fuel + 1) it before.length
      (len - .ofNat before.length)).ending ≠ some .stopped ↔
        headNumber e % 2 ^ 32 < 20 ∨ platform.outOfUInt64 (headNumber e % 2 ^ 32) ≠ 0 := by
  obtain ⟨goes, reads⟩ := readDecimal_of_seen seen read
  have ended := ((@placed platform len (fuel + 1)).2.2 it before.length).2
  have raw : (UInt64.ofNat (headNumber e)).toUInt32.toNat = headNumber e % 2 ^ 32 := by
    rw [UInt64.toNat_toUInt32, UInt64.toNat_ofNat', Nat.mod_mod_of_dvd _ (by decide)]
  rw [valuePieces_decimal seen read] at ended
  rw [← powerOfTen_ne_zero_iff, ← raw]
  cases decimal : readDecimal it with
  | stopped => exact absurd decimal goes
  | failed err =>
      rw [decimalPieces_of_failed decimal] at ended
      exact absurd ended (returns err)
  | done parts =>
      obtain ⟨exp, man, manSign, behind⟩ := parts
      obtain ⟨rfl, rfl, rfl, -⟩ := reads _ decimal
      by_cases zero : platform.powerOfTen (UInt64.ofNat (headNumber e)).toUInt32.toNat = 0
      · rw [decimalPieces_of_zero decimal zero] at ended
        exact iff_of_false (fun runs => runs ended) fun nonzero => nonzero zero
      · rw [(decimalPieces_of_ne_zero decimal zero).1] at ended
        refine iff_of_true ?_ zero
        rw [ended]
        nofun

end Read

/-- An integer is printed as it is if it is an `int`. A decimal fraction whose digits have the
precision is printed as it is for zero, and for one negative mantissa. A decimal fraction is
divided by zero if its power of ten does not fit into 64 bits and the platform makes zero of
it. -/
theorem iotCborValueToJson_number_iff {bytes rest : List UInt8} {k : Nat} {v : Item}
    (seen : Seen bytes it) (read : item k bytes = some (v, rest)) :
    (∀ value it' n, v = .integer value →
      (iotCborValueToJson platform (fuel + 1) it before.length
        (len - .ofNat before.length)).ending = some (.done (it', n)) →
      before.length + n < len.toNat →
      (WritesNumber platform (fuel + 1) it before len n value ↔
        -2 ^ 31 ≤ value ∧ value < 2 ^ 31)) ∧
    (∀ e m it' n, v = .tag decimalTag (.array [.integer e, .integer m]) → e < 0 →
      10 ^ headNumber e ≤ decimalPrecision →
      (iotCborValueToJson platform (fuel + 1) it before.length
        (len - .ofNat before.length)).ending = some (.done (it', n)) →
      before.length + n < len.toNat →
      (WritesNumber platform (fuel + 1) it before len n (m * 10 ^ e) ↔
        m = 0 ∨ m < 0 ∧ 9 * -m = 10 * (10 ^ headNumber e * 2 ^ 33 + 1))) ∧
    ∀ e m, v = .tag decimalTag (.array [.integer e, .integer m]) →
      (∀ err, (iotCborValueToJson platform (fuel + 1) it before.length
        (len - .ofNat before.length)).ending ≠ some (.failed err)) →
      ((iotCborValueToJson platform (fuel + 1) it before.length
        (len - .ofNat before.length)).ending ≠ some .stopped ↔
          headNumber e % 2 ^ 32 < 20 ∨ platform.outOfUInt64 (headNumber e % 2 ^ 32) ≠ 0) := by
  refine ⟨?_, ?_, ?_⟩
  · rintro value it' n rfl ends fits
    exact writesNumber_integer_iff seen read ends fits
  · rintro e m it' n rfl negative precise ends fits
    exact writesNumber_decimal_iff seen read negative precise ends fits
  · rintro e m rfl returns
    exact ending_decimal_ne_stopped_iff seen read returns

/-- The integer 7 is printed as it is. -/
theorem iotCborValueToJson_number_seven :
    let it : CborValue := ⟨[7], 1, 7, .integer, {}⟩
    WritesNumber x86 1 it [] 2 1 (7 : Int) ↔ -2 ^ 31 ≤ (7 : Int) ∧ (7 : Int) < 2 ^ 31 := by
  intro it
  have seen : Seen [7] it := ⟨⟨[7], 1, 0, .invalid, {}⟩, rfl, rfl⟩
  have read : item 1 [7] = some (.integer 7, []) := rfl
  have run : valuePieces x86 1 it =
      ⟨[.text [55]], some (.done ⟨[], 0, 7, .invalid, {}⟩)⟩ := by
    have double : doubleOfRaw 7 false = 7 := @doubleOfRaw_eq 7 (by decide) (by decide)
    have value : x86.toInt (doubleOfRaw 7 false) = 7 := by
      rw [double]
      rfl
    rw [valuePieces_integer rfl, show getRawInteger it = .done 7 from rfl,
      show it.flags.negativeInteger = false from rfl]
    show (print (decimal (x86.toInt (doubleOfRaw 7 false))) >>= fun _ => _) = _
    rw [value]
    rfl
  have ended := ((@placed x86 2 1).2.2 it 0).2
  rw [run] at ended
  exact (@iotCborValueToJson_number_iff x86 0 it [] 2 [7] [] 1 (.integer 7) seen read).1
    7 _ 1 rfl ended (by decide)

/-- The fraction 1.25 is printed as 12.5. -/
theorem iotSerializeCbor2json_decimal :
    decode [196, 130, 33, 24, 125] = some (.tag 4 (.array [.integer (-2), .integer 125])) ∧
      (iotSerializeCbor2json x86 2 [196, 130, 33, 24, 125]).ending =
        some (.done (CString.ascii "12.5" ++ [0], 4)) ∧
      readNumber (CString.ascii "12.5") ≠ some (125 * 10 ^ (-2 : Int)) := by
  have text : CString.ascii "12.5" = decimalNat 12 ++ 46 :: decimalNat 5 := rfl
  refine ⟨rfl, ?_, ?_⟩
  · have init : parserInit [196, 130, 33, 24, 125] =
        .done ⟨[196, 130, 33, 24, 125], 1, 4, .tag, {}⟩ := rfl
    obtain ⟨it', read⟩ : ∃ it', readDecimal ⟨[196, 130, 33, 24, 125], 1, 4, .tag, {}⟩ =
        .done (1, 125, false, it') := ⟨_, rfl⟩
    have power : x86.powerOfTen (1 : UInt64).toUInt32.toNat = 10 := rfl
    have pieces := @decimalPieces_of_ne_zero _ x86 _ _ _ _ read (by rw [power]; decide)
    rw [power, show decimalText 125 10 false = CString.ascii "12.5" from rfl] at pieces
    have value : valuePieces x86 2 ⟨[196, 130, 33, 24, 125], 1, 4, .tag, {}⟩ =
        decimalPieces x86 ⟨[196, 130, 33, 24, 125], 1, 4, .tag, {}⟩ := rfl
    have whole := iotSerializeCbor2json_of_fits x86 2 _ init (value ▸ pieces.1)
      (by rw [value, pieces.2]; decide)
    rw [value, pieces.2] at whole
    exact whole
  · have five : (decimalNat 5).length = 1 := rfl
    rw [text, readNumber_digits, readMagnitude_point, five]
    norm_num

end Written

end StDevice.Serialize
