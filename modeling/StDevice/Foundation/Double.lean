import Mathlib.Algebra.Ring.Int.Defs
import Mathlib.Algebra.Ring.Nat
import Mathlib.Data.Nat.Log

/-!
# Integers as doubles

A double is kept as its bits: the sign, eleven bits of exponent and 52 of fraction. An integer
of at most 53 bits is converted exactly, and a conversion to `int` cuts off what is behind the
point.
-/

namespace Double

def exponent (bits : UInt64) : Nat := bits.toNat / 2 ^ 52 % 2 ^ 11

def fraction (bits : UInt64) : Nat := bits.toNat % 2 ^ 52

/-- Neither infinite nor NaN. -/
def isFinite (bits : UInt64) : Bool := exponent bits != 2047

/-- The digits in front of the point of a finite number. -/
def magnitude (bits : UInt64) : Nat :=
  let significand := 2 ^ 52 + fraction bits
  if exponent bits < 1023 then 0
  else if exponent bits < 1075 then significand / 2 ^ (1075 - exponent bits)
  else significand * 2 ^ (exponent bits - 1075)

/-- The number without what is behind the point. -/
def truncate (bits : UInt64) : Int :=
  if bits.toNat < 2 ^ 63 then magnitude bits else -(magnitude bits : Int)

/-- Nothing is behind the point. That is so of an infinite number, too. -/
def isWhole (bits : UInt64) : Bool :=
  if exponent bits = 0 ∨ exponent bits = 2047 then fraction bits = 0
  else 1023 ≤ exponent bits ∧ (2 ^ 52 + fraction bits) % 2 ^ (1075 - exponent bits) = 0

/-- The conversion to `int`, which is undefined for numbers that do not fit. -/
def toInt (bits : UInt64) : Option Int :=
  if isFinite bits = true ∧ -2 ^ 31 ≤ truncate bits ∧ truncate bits < 2 ^ 31 then
    some (truncate bits)
  else none

/-- The conversion of a number below 2^53. -/
def ofNat (n : Nat) : UInt64 :=
  if n = 0 then 0
  else .ofNat ((n.log2 + 1023) * 2 ^ 52 + (n - 2 ^ n.log2) * 2 ^ (52 - n.log2))

/-- The conversion of an `int`. -/
def ofInt (n : Int) : UInt64 :=
  if n < 0 then .ofNat (2 ^ 63 + (ofNat n.natAbs).toNat) else ofNat n.natAbs

/-- The double next to a whole number. Of two that are equally near it is the even one. -/
def nearest (n : Nat) : Nat :=
  let step := 2 ^ (n.log2 - 52)
  let low := n / step
  let rest := n % step
  (if 2 * rest < step ∨ 2 * rest = step ∧ low % 2 = 0 then low else low + 1) * step

def nearestInt (n : Int) : Int := if n < 0 then -(nearest n.natAbs : Int) else nearest n.natAbs

section Exact

variable {n : Nat}

theorem log2_lt (positive : n ≠ 0) (small : n < 2 ^ 53) : n.log2 ≤ 52 :=
  Nat.lt_succ_iff.mp ((Nat.log2_lt positive).mpr small)

theorem pow_split (positive : n ≠ 0) (small : n < 2 ^ 53) :
    2 ^ n.log2 * 2 ^ (52 - n.log2) = 2 ^ 52 := by
  rw [← Nat.pow_add, Nat.add_sub_cancel' (log2_lt positive small)]

/-- The fraction of a number, with the first digit that is not stored. -/
theorem significand_eq (positive : n ≠ 0) (small : n < 2 ^ 53) :
    2 ^ 52 + (n - 2 ^ n.log2) * 2 ^ (52 - n.log2) = n * 2 ^ (52 - n.log2) := by
  rw [← pow_split positive small, ← Nat.add_mul, Nat.add_sub_cancel' (Nat.log2_self_le positive)]

theorem fraction_lt (positive : n ≠ 0) (small : n < 2 ^ 53) :
    (n - 2 ^ n.log2) * 2 ^ (52 - n.log2) < 2 ^ 52 := by
  have below : n < 2 ^ n.log2 * 2 := by
    rw [← Nat.pow_succ]
    exact Nat.lt_log2_self
  rw [← pow_split positive small]
  exact Nat.mul_lt_mul_of_pos_right (by omega) (Nat.two_pow_pos _)

theorem toNat_ofNat (positive : n ≠ 0) (small : n < 2 ^ 53) :
    (ofNat n).toNat = (n.log2 + 1023) * 2 ^ 52 + (n - 2 ^ n.log2) * 2 ^ (52 - n.log2) := by
  have bound := fraction_lt positive small
  have power := log2_lt positive small
  rw [ofNat, if_neg positive, UInt64.toNat_ofNat', Nat.mod_eq_of_lt]
  omega

theorem toNat_ofNat_lt (small : n < 2 ^ 53) : (ofNat n).toNat < 2 ^ 63 := by
  by_cases zero : n = 0
  · rw [zero]
    decide
  · have bound := fraction_lt zero small
    have power := log2_lt zero small
    rw [toNat_ofNat zero small]
    omega

/-- The bits of the number, whatever the sign. -/
theorem magnitude_of_bits {bits : UInt64} (small : n < 2 ^ 53)
    (same : bits.toNat % 2 ^ 63 = (ofNat n).toNat) :
    magnitude bits = n ∧ isFinite bits = true := by
  by_cases zero : n = 0
  · have none : bits.toNat % 2 ^ 63 = 0 := by
      rw [same, zero]
      rfl
    have low : exponent bits = 0 := by
      unfold exponent
      omega
    rw [magnitude, isFinite, low, zero]
    exact ⟨rfl, rfl⟩
  · have bound := fraction_lt zero small
    have power := log2_lt zero small
    have whole := significand_eq zero small
    rw [toNat_ofNat zero small] at same
    generalize (n - 2 ^ n.log2) * 2 ^ (52 - n.log2) = digits at same bound whole
    have high : exponent bits = n.log2 + 1023 := by
      unfold exponent
      omega
    have low : fraction bits = digits := by
      unfold fraction
      omega
    refine ⟨?_, ?_⟩
    · rw [magnitude, high, low, whole, if_neg (by omega)]
      split
      · rw [show 1075 - (n.log2 + 1023) = 52 - n.log2 by omega]
        exact Nat.mul_div_cancel _ (Nat.two_pow_pos _)
      · rw [show n.log2 + 1023 - 1075 = 0 by omega, show 52 - n.log2 = 0 by omega]
        simp
    · rw [isFinite, high]
      simp only [bne_iff_ne]
      omega

theorem nearest_eq_self (small : n < 2 ^ 53) : nearest n = n := by
  have power : n.log2 - 52 = 0 := by
    by_cases zero : n = 0
    · rw [zero]
      rfl
    · exact Nat.sub_eq_zero_of_le (log2_lt zero small)
  rw [nearest, power, Nat.pow_zero, Nat.mod_one, Nat.div_one, if_pos (.inl (by decide)),
    Nat.mul_one]

end Exact

section Int

variable {n : Int}

theorem natAbs_lt (low : -2 ^ 31 ≤ n) (high : n < 2 ^ 31) : n.natAbs < 2 ^ 53 := by omega

/-- The sign is the first bit. -/
theorem toNat_ofInt (low : -2 ^ 31 ≤ n) (high : n < 2 ^ 31) :
    (ofInt n).toNat % 2 ^ 63 = (ofNat n.natAbs).toNat ∧ ((ofInt n).toNat < 2 ^ 63 ↔ 0 ≤ n) := by
  have bound := toNat_ofNat_lt (natAbs_lt low high)
  unfold ofInt
  split
  · rw [UInt64.toNat_ofNat']
    generalize (ofNat n.natAbs).toNat = bits at bound
    have fits : (2 ^ 63 + bits) % 2 ^ 64 = 2 ^ 63 + bits := Nat.mod_eq_of_lt (by omega)
    rw [fits, Nat.add_mod_left, Nat.mod_eq_of_lt bound]
    exact ⟨rfl, by omega⟩
  · exact ⟨Nat.mod_eq_of_lt bound, by omega⟩

theorem isFinite_ofInt (low : -2 ^ 31 ≤ n) (high : n < 2 ^ 31) : isFinite (ofInt n) = true :=
  (magnitude_of_bits (natAbs_lt low high) (toNat_ofInt low high).1).2

theorem truncate_ofInt (low : -2 ^ 31 ≤ n) (high : n < 2 ^ 31) : truncate (ofInt n) = n := by
  obtain ⟨bits, sign⟩ := toNat_ofInt low high
  rw [truncate, (magnitude_of_bits (natAbs_lt low high) bits).1]
  split
  · omega
  · omega

/-- An `int` is the double that it is converted to. -/
theorem toInt_ofInt (low : -2 ^ 31 ≤ n) (high : n < 2 ^ 31) : toInt (ofInt n) = some n := by
  rw [toInt, truncate_ofInt low high, if_pos ⟨isFinite_ofInt low high, low, high⟩]

theorem nearestInt_eq_self (small : n.natAbs < 2 ^ 53) : nearestInt n = n := by
  rw [nearestInt, nearest_eq_self small]
  split
  · omega
  · omega

end Int

end Double
