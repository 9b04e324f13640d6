import Mathlib.Data.List.Basic
import StDevice.Foundation.CString

/-!
# Base64

The encoder turns three bytes into four characters and pads what is left at the end. The
shifts and masks are those of the usual C code, on numbers: a byte is never negative there.
The decoder takes text without white space.

Encodings of pieces may be joined where a piece is a whole number of triples
(`encode_append`), and every encoding is decoded to the bytes it was made of.
-/

namespace Base64

/-- The 64 characters in the order of their values. -/
def alphabet : List UInt8 :=
  CString.ascii "ABCDEFGHIJKLMNOPQRSTUVWXYZabcdefghijklmnopqrstuvwxyz0123456789+/"

/-- The character for the low six bits. -/
def char (n : Nat) : UInt8 := alphabet.getD (n &&& 63) 0

def value (c : UInt8) : Option Nat := alphabet.idxOf? c

/-- The character that pads the last group. -/
def pad : UInt8 := 61

def encode : List UInt8 → List UInt8
  | c1 :: c2 :: c3 :: rest =>
      char (c1.toNat >>> 2) :: char (((c1.toNat &&& 3) <<< 4) + (c2.toNat >>> 4)) ::
        char (((c2.toNat &&& 15) <<< 2) + (c3.toNat >>> 6)) :: char c3.toNat :: encode rest
  | [c1, c2] =>
      [char (c1.toNat >>> 2), char (((c1.toNat &&& 3) <<< 4) + (c2.toNat >>> 4)),
        char ((c2.toNat &&& 15) <<< 2), pad]
  | [c1] => [char (c1.toNat >>> 2), char ((c1.toNat &&& 3) <<< 4), pad, pad]
  | [] => []

/-- The bytes of a group of four values. -/
def join (x y z w : Nat) : List UInt8 :=
  let n := ((x * 64 + y) * 64 + z) * 64 + w
  [UInt8.ofNat (n / 65536), UInt8.ofNat (n / 256), UInt8.ofNat n]

def decode : List UInt8 → Option (List UInt8)
  | [] => some []
  | a :: b :: c :: d :: rest => do
      let x ← value a
      let y ← value b
      if c = pad ∧ d = pad ∧ rest = [] then pure ((join x y 0 0).take 1)
      else
        let z ← value c
        if d = pad ∧ rest = [] then pure ((join x y z 0).take 2)
        else
          let w ← value d
          let more ← decode rest
          pure (join x y z w ++ more)
  | _ => none

/-! ## Characters -/

private theorem alphabet_values : ∀ i < 64, value (alphabet.getD i 0) = some i ∧
    alphabet.getD i 0 ≠ pad ∧ alphabet.getD i 0 ≠ 0 := by
  decide

private theorem mask (n : Nat) : n &&& 63 = n % 64 := Nat.and_two_pow_sub_one_eq_mod n 6

theorem value_char (n : Nat) : value (char n) = some (n % 64) := by
  rw [char, mask]
  exact (alphabet_values _ (Nat.mod_lt _ (by decide))).1

theorem char_ne_pad (n : Nat) : char n ≠ pad := by
  rw [char, mask]
  exact (alphabet_values _ (Nat.mod_lt _ (by decide))).2.1

theorem char_ne_zero (n : Nat) : char n ≠ 0 := by
  rw [char, mask]
  exact (alphabet_values _ (Nat.mod_lt _ (by decide))).2.2

private theorem ofNat_eq {c : UInt8} {n : Nat} (same : n % 256 = c.toNat) : UInt8.ofNat n = c := by
  apply UInt8.toNat_inj.mp
  rw [UInt8.toNat_ofNat', same]

/-- The values of a group give back its bytes. -/
theorem join_group (c1 c2 c3 : UInt8) :
    join ((c1.toNat >>> 2) % 64) ((((c1.toNat &&& 3) <<< 4) + (c2.toNat >>> 4)) % 64)
      ((((c2.toNat &&& 15) <<< 2) + (c3.toNat >>> 6)) % 64) (c3.toNat % 64) = [c1, c2, c3] := by
  have low2 : c1.toNat &&& 3 = c1.toNat % 4 := Nat.and_two_pow_sub_one_eq_mod _ 2
  have low4 : c2.toNat &&& 15 = c2.toNat % 16 := Nat.and_two_pow_sub_one_eq_mod _ 4
  have first := c1.toNat_lt
  have second := c2.toNat_lt
  have third := c3.toNat_lt
  simp only [low2, low4, Nat.shiftRight_eq_div_pow, Nat.shiftLeft_eq, Nat.reducePow] at *
  rw [join, ofNat_eq (c := c1) (by omega), ofNat_eq (c := c2) (by omega),
    ofNat_eq (c := c3) (by omega)]

/-! ## Texts -/

/-- Every encoding is decoded to the bytes it was made of. -/
theorem decode_encode (data : List UInt8) : decode (encode data) = some data := by
  induction data using encode.induct with
  | case1 c1 c2 c3 rest ih =>
      simp only [encode, decode, value_char, ih, char_ne_pad, false_and, if_false,
        Option.bind_eq_bind, Option.bind_some, Option.pure_def, join_group]
      rfl
  | case2 c1 c2 =>
      have two := congrArg (List.take 2) (join_group c1 c2 0)
      simp only [encode, decode, value_char, char_ne_pad, false_and, if_false, and_self, if_true,
        Option.bind_eq_bind, Option.bind_some, Option.pure_def]
      exact congrArg some two
  | case3 c1 =>
      have one := congrArg (List.take 1) (join_group c1 0 0)
      simp only [encode, decode, value_char, and_self, if_true, Option.bind_eq_bind,
        Option.bind_some, Option.pure_def]
      exact congrArg some one
  | case4 => rfl

/-- Whole triples are encoded by themselves. -/
theorem encode_append {front : List UInt8} (triples : front.length % 3 = 0) (data : List UInt8) :
    encode (front ++ data) = encode front ++ encode data := by
  induction front using encode.induct with
  | case1 c1 c2 c3 rest ih =>
      have triples : rest.length % 3 = 0 := by
        simp only [List.length_cons] at triples
        omega
      simp only [List.cons_append, encode, ih triples]
  | case2 c1 c2 => exact absurd triples (by simp)
  | case3 c1 => exact absurd triples (by simp)
  | case4 => rfl

theorem length_encode (data : List UInt8) : (encode data).length = (data.length + 2) / 3 * 4 := by
  induction data using encode.induct with
  | case1 c1 c2 c3 rest ih =>
      simp only [encode, List.length_cons, ih]
      omega
  | case2 c1 c2 => simp [encode]
  | case3 c1 => simp [encode]
  | case4 => rfl

theorem encode_ne_zero (data : List UInt8) : 0 ∉ encode data := by
  have characters (n : Nat) : ¬ 0 = char n := fun same => char_ne_zero n same.symm
  induction data using encode.induct with
  | case1 c1 c2 c3 rest ih => simp [encode, characters, ih]
  | case2 c1 c2 => simp [encode, characters, pad]
  | case3 c1 => simp [encode, characters, pad]
  | case4 => exact List.not_mem_nil

end Base64
