import Mathlib.Algebra.Ring.Nat
import Mathlib.Data.Nat.Log

/-!
# Variable-length numbers in seven-bit groups

A number is written least significant group first, seven bits a byte, and bit 7
marks every byte but the last. The decoder accepts at most `limit` bytes, so an
unterminated run of continuation bytes is refused instead of being read forever.

The results here are about the number format alone: the exact number of bytes,
and recovery of the number together with the bytes that follow it.
-/

namespace Varint

/-- Seven-bit groups, least significant first, with a continuation bit. -/
def encode (n : Nat) : List UInt8 :=
  if n < 128 then [UInt8.ofNat n] else UInt8.ofNat (n % 128 + 128) :: encode (n / 128)

/-- Read one number of at most `limit` bytes and return the bytes after it. -/
def decode : Nat → List UInt8 → Option (Nat × List UInt8)
  | 0, _ => none
  | _ + 1, [] => none
  | limit + 1, b :: bytes =>
      if b.toNat < 128 then some (b.toNat, bytes)
      else (decode limit bytes).map fun r => (b.toNat % 128 + 128 * r.1, r.2)

/-- The number a field of bytes stands for. -/
def value : List UInt8 → Nat
  | [] => 0
  | b :: field => b.toNat % 128 + 128 * value field

/-- Every byte but the last is marked as continued. -/
def Terminated (field : List UInt8) : Prop :=
  ∃ front last, field = front ++ [last] ∧ (∀ b ∈ front, 128 ≤ b.toNat) ∧ last.toNat < 128

theorem value_lt (field : List UInt8) : value field < 128 ^ field.length := by
  induction field with
  | nil => simp [value]
  | cons b field ih =>
      rw [value, List.length_cons, Nat.pow_succ]
      omega

theorem not_terminated_nil : ¬ Terminated [] := by
  rintro ⟨front, last, split, -⟩
  simp at split

theorem terminated_cons {b : UInt8} {field : List UInt8} :
    Terminated (b :: field) ↔
      field = [] ∧ b.toNat < 128 ∨ 128 ≤ b.toNat ∧ Terminated field := by
  constructor
  · rintro ⟨front, last, split, marked, ends⟩
    cases front with
    | nil =>
        obtain ⟨rfl, rfl⟩ := List.cons.inj split
        exact .inl ⟨rfl, ends⟩
    | cons c front =>
        obtain ⟨rfl, rfl⟩ := List.cons.inj split
        obtain ⟨continued, marked⟩ := List.forall_mem_cons.mp marked
        exact .inr ⟨continued, front, last, rfl, marked, ends⟩
  · rintro (⟨rfl, ends⟩ | ⟨continued, front, last, rfl, marked, ends⟩)
    · exact ⟨[], b, rfl, by simp, ends⟩
    · exact ⟨b :: front, last, rfl, List.forall_mem_cons.mpr ⟨continued, marked⟩, ends⟩

/-- A terminated field is read to its end, and nothing behind it. -/
theorem decode_of_terminated {limit : Nat} {field : List UInt8} (terminated : Terminated field)
    (short : field.length ≤ limit) (rest : List UInt8) :
    decode limit (field ++ rest) = some (value field, rest) := by
  induction field generalizing limit with
  | nil => exact absurd terminated not_terminated_nil
  | cons b field ih =>
      rw [List.length_cons] at short
      obtain ⟨limit, rfl⟩ : ∃ more, limit = more + 1 := ⟨limit - 1, by omega⟩
      rw [List.cons_append, decode]
      rcases terminated_cons.mp terminated with ⟨rfl, last⟩ | ⟨continued, terminated⟩
      · rw [if_pos last, value, value, Nat.mod_eq_of_lt last]
        rfl
      · rw [if_neg (Nat.not_lt.mpr continued), ih terminated (by omega), Option.map_some, value]

theorem encode_of_lt {n : Nat} (h : n < 128) : encode n = [UInt8.ofNat n] := by
  rw [encode, if_pos h]

theorem encode_of_ge {n : Nat} (h : 128 ≤ n) :
    encode n = UInt8.ofNat (n % 128 + 128) :: encode (n / 128) := by
  rw [encode, if_neg (Nat.not_lt.mpr h)]

theorem encode_ne_nil (n : Nat) : encode n ≠ [] := by
  rw [encode]
  split <;> simp

/-- The number of bytes is decided by the powers of 128 alone. -/
theorem encode_length_le_iff (n k : Nat) : (encode n).length ≤ k + 1 ↔ n < 128 ^ (k + 1) := by
  induction k generalizing n with
  | zero =>
      by_cases h : n < 128
      · simp [encode_of_lt h, h]
      · have tail := List.length_pos_iff.mpr (encode_ne_nil (n / 128))
        rw [encode_of_ge (Nat.not_lt.mp h), List.length_cons]
        omega
  | succ k ih =>
      by_cases h : n < 128
      · have hpow : 128 ^ 1 ≤ 128 ^ (k + 1 + 1) := Nat.pow_le_pow_right (by decide) (by omega)
        simp only [encode_of_lt h, List.length_singleton]
        omega
      · rw [encode_of_ge (Nat.not_lt.mp h), List.length_cons, Nat.succ_le_succ_iff, ih,
          Nat.div_lt_iff_lt_mul (by decide), ← Nat.pow_succ]

theorem decode_length_lt {limit n : Nat} {bytes rest : List UInt8}
    (h : decode limit bytes = some (n, rest)) : rest.length < bytes.length := by
  induction limit generalizing bytes n with
  | zero => simp [decode] at h
  | succ limit ih =>
      cases bytes with
      | nil => simp [decode] at h
      | cons b bytes =>
          rw [decode] at h
          split at h
          · obtain ⟨-, rfl⟩ := Prod.mk.inj (Option.some.inj h)
            exact Nat.lt_succ_self _
          · obtain ⟨r, decoded, hr⟩ := Option.map_eq_some_iff.mp h
            obtain ⟨-, rfl⟩ := Prod.mk.inj hr
            exact Nat.lt_succ_of_lt (ih decoded)

private theorem decode_encode_single {limit n : Nat} (small : n < 128) (rest : List UInt8) :
    decode (limit + 1) (encode n ++ rest) = some (n, rest) := by
  have byte : (UInt8.ofNat n).toNat = n := by
    rw [UInt8.toNat_ofNat']
    omega
  simp [encode_of_lt small, decode, byte, small]

/-- Decoding returns the number and leaves exactly the bytes after it. -/
theorem decode_encode_append {limit n : Nat} (h : n < 128 ^ (limit + 1)) (rest : List UInt8) :
    decode (limit + 1) (encode n ++ rest) = some (n, rest) := by
  induction limit generalizing n with
  | zero => exact decode_encode_single (by simpa using h) rest
  | succ limit ih =>
      by_cases small : n < 128
      · exact decode_encode_single small rest
      · have quotient : n / 128 < 128 ^ (limit + 1) := by
          rw [Nat.div_lt_iff_lt_mul (by decide), ← Nat.pow_succ]
          exact h
        have byte : (UInt8.ofNat (n % 128 + 128)).toNat = n % 128 + 128 := by
          rw [UInt8.toNat_ofNat']
          omega
        rw [encode_of_ge (Nat.not_lt.mp small), List.cons_append, decode, byte,
          if_neg (by omega), ih quotient]
        simp only [Option.map_some, Option.some.injEq, Prod.mk.injEq, and_true]
        omega

end Varint
