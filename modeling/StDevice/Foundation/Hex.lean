import Mathlib.Data.List.Basic

/-!
# Hexadecimal digits

A byte is printed as two lower-case digits, high half first, and two digits of either case
are read as one byte. Reading what was printed gives the byte back, and printing what was
read gives the digits back in lower case.
-/

namespace Hex

/-- The digits of both cases. -/
def IsDigit (c : UInt8) : Prop :=
  (48 ≤ c ∧ c ≤ 57) ∨ (97 ≤ c ∧ c ≤ 102) ∨ (65 ≤ c ∧ c ≤ 70)

instance : DecidablePred IsDigit := fun c =>
  inferInstanceAs (Decidable ((48 ≤ c ∧ c ≤ 57) ∨ (97 ≤ c ∧ c ≤ 102) ∨ (65 ≤ c ∧ c ≤ 70)))

/-- The value of a digit. -/
def value (c : UInt8) : UInt8 :=
  if 97 ≤ c ∧ c ≤ 102 then c - 87 else if 65 ≤ c ∧ c ≤ 70 then c - 55 else c - 48

/-- The lower-case digit of a value. -/
def digit (n : UInt8) : UInt8 := if n < 10 then 48 + n else 87 + n

/-- The lower-case form of a character. -/
def lower (c : UInt8) : UInt8 := if 65 ≤ c ∧ c ≤ 90 then c + 32 else c

/-- The byte of two halves. -/
def join (high low : UInt8) : UInt8 := high <<< 4 ||| low

/-- The two digits of a byte. -/
def pair (b : UInt8) : List UInt8 := [digit (b >>> 4), digit (b &&& 15)]

/-- The byte of every two digits. -/
def bytes : List UInt8 → List UInt8
  | high :: low :: rest => join (value high) (value low) :: bytes rest
  | _ => []

theorem value_lt {c : UInt8} (hex : IsDigit c) : value c < 16 := by
  unfold IsDigit at hex
  unfold value
  grind

theorem digit_value {c : UInt8} (hex : IsDigit c) : digit (value c) = lower c := by
  unfold IsDigit at hex
  unfold digit value lower
  grind

theorem isDigit_digit {n : UInt8} (small : n < 16) : IsDigit (digit n) := by
  unfold IsDigit digit
  grind

theorem value_digit {n : UInt8} (small : n < 16) : value (digit n) = n := by
  unfold value digit
  grind

private theorem toNat_join {high low : UInt8} (hHigh : high < 16) (hLow : low < 16) :
    (join high low).toNat = high.toNat * 16 + low.toNat := by
  have first : high.toNat < 16 := UInt8.lt_iff_toNat_lt.mp hHigh
  have second : low.toNat < 2 ^ 4 := UInt8.lt_iff_toNat_lt.mp hLow
  have shifted : (high <<< 4).toNat = high.toNat <<< 4 := by
    rw [UInt8.toNat_shiftLeft, Nat.mod_eq_of_lt]
    · rfl
    · change high.toNat <<< 4 < 256
      rw [Nat.shiftLeft_eq]
      omega
  rw [join, UInt8.toNat_or, shifted, ← Nat.shiftLeft_add_eq_or_of_lt second, Nat.shiftLeft_eq]

theorem join_shiftRight {high low : UInt8} (hHigh : high < 16) (hLow : low < 16) :
    join high low >>> 4 = high := by
  have second : low.toNat < 16 := UInt8.lt_iff_toNat_lt.mp hLow
  apply UInt8.toNat_inj.mp
  rw [UInt8.toNat_shiftRight, toNat_join hHigh hLow]
  change (high.toNat * 16 + low.toNat) >>> 4 = high.toNat
  rw [Nat.shiftRight_eq_div_pow]
  omega

theorem join_and {high low : UInt8} (hHigh : high < 16) (hLow : low < 16) :
    join high low &&& 15 = low := by
  have second : low.toNat < 16 := UInt8.lt_iff_toNat_lt.mp hLow
  apply UInt8.toNat_inj.mp
  rw [UInt8.toNat_and, toNat_join hHigh hLow]
  change (high.toNat * 16 + low.toNat) &&& 15 = low.toNat
  rw [Nat.and_two_pow_sub_one_eq_mod _ 4]
  omega

theorem shiftRight_lt (b : UInt8) : b >>> 4 < 16 := by
  have bound := b.toNat_lt
  apply UInt8.lt_iff_toNat_lt.mpr
  rw [UInt8.toNat_shiftRight]
  change b.toNat >>> 4 < 16
  rw [Nat.shiftRight_eq_div_pow]
  omega

theorem and_lt (b : UInt8) : b &&& 15 < 16 := by
  apply UInt8.lt_iff_toNat_lt.mpr
  rw [UInt8.toNat_and]
  exact Nat.lt_of_le_of_lt Nat.and_le_right (by decide)

theorem join_halves (b : UInt8) : join (b >>> 4) (b &&& 15) = b := by
  apply UInt8.toNat_inj.mp
  rw [toNat_join (shiftRight_lt b) (and_lt b), UInt8.toNat_shiftRight, UInt8.toNat_and]
  change (b.toNat >>> 4) * 16 + (b.toNat &&& 15) = b.toNat
  rw [Nat.shiftRight_eq_div_pow, Nat.and_two_pow_sub_one_eq_mod _ 4]
  omega

theorem length_bytes (digits : List UInt8) : (bytes digits).length = digits.length / 2 := by
  induction digits using bytes.induct with
  | case1 high low rest ih =>
      rw [bytes, List.length_cons, ih, List.length_cons, List.length_cons]
      omega
  | case2 digits short =>
      cases digits with
      | nil => rfl
      | cons high digits =>
          cases digits with
          | nil => simp [bytes]
          | cons low rest => exact (short high low rest rfl).elim

/-- Reading what was printed. -/
theorem bytes_pairs (data : List UInt8) : bytes (data.flatMap pair) = data := by
  induction data with
  | nil => rfl
  | cons b data ih =>
      rw [List.flatMap_cons, pair, List.cons_append, List.cons_append, List.nil_append, bytes, ih,
        value_digit (shiftRight_lt b), value_digit (and_lt b), join_halves]

/-- Printing what was read. -/
theorem pairs_bytes {digits : List UInt8} (even : digits.length % 2 = 0)
    (hex : ∀ c ∈ digits, IsDigit c) : (bytes digits).flatMap pair = digits.map lower := by
  induction digits using bytes.induct with
  | case1 high low rest ih =>
      have hHigh : IsDigit high := hex high (by simp)
      have hLow : IsDigit low := hex low (by simp)
      have evenRest : rest.length % 2 = 0 := by
        simp only [List.length_cons] at even
        omega
      rw [bytes, List.flatMap_cons, ih evenRest fun c inside => hex c (by simp [inside]), pair,
        join_shiftRight (value_lt hHigh) (value_lt hLow),
        join_and (value_lt hHigh) (value_lt hLow), digit_value hHigh, digit_value hLow]
      rfl
  | case2 digits short =>
      cases digits with
      | nil => rfl
      | cons high digits =>
          cases digits with
          | nil => exact absurd even (by simp)
          | cons low rest => exact (short high low rest rfl).elim

theorem isDigit_of_mem_pairs {data : List UInt8} {c : UInt8} (inside : c ∈ data.flatMap pair) :
    IsDigit c := by
  obtain ⟨b, -, printed⟩ := List.mem_flatMap.mp inside
  simp only [pair, List.mem_cons, List.not_mem_nil, or_false] at printed
  obtain rfl | rfl := printed
  · exact isDigit_digit (shiftRight_lt b)
  · exact isDigit_digit (and_lt b)

end Hex
