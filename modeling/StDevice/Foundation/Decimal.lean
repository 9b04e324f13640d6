import Mathlib.Algebra.Ring.Nat
import Mathlib.Data.List.TakeWhile
import StDevice.Foundation.CString

/-!
# Numbers in decimal

The text `printf` makes of an `int` under `%d`, and what `atoi` reads from a text. The
digits are those of `Nat.toDigits`; `atoi` skips white space, takes a sign and stops at
the first character that is no digit.
-/

namespace Decimal

/-- The digits `snprintf` prints for `%d`. -/
def decimalNat (n : Nat) : List UInt8 := (Nat.toDigits 10 n).map fun c => UInt8.ofNat c.toNat

def decimal (n : Int) : List UInt8 :=
  if n < 0 then 45 :: decimalNat n.natAbs else decimalNat n.natAbs

def isDigit (b : UInt8) : Bool := 48 ≤ b && b ≤ 57

def isSpace (b : UInt8) : Bool := b == 32 || (9 ≤ b && b ≤ 13)

def digitsValue (text : List UInt8) : Int :=
  ((text.takeWhile isDigit).foldl (fun n b => 10 * n + (b.toNat - 48)) 0 : Nat)

/-- `atoi`. -/
def atoi (text : List UInt8) : Int :=
  match text.dropWhile isSpace with
  | 45 :: digits => -digitsValue digits
  | 43 :: digits => digitsValue digits
  | digits => digitsValue digits

private theorem toNat_of_mem_toDigits {n : Nat} {c : Char} (mem : c ∈ Nat.toDigits 10 n) :
    48 ≤ c.toNat ∧ c.toNat ≤ 57 := by
  have digit := Nat.isDigit_of_mem_toDigits (by decide) (by decide) mem
  simp only [Char.isDigit, Bool.and_eq_true, decide_eq_true_eq] at digit
  exact ⟨UInt32.le_iff_toNat_le.mp digit.1, UInt32.le_iff_toNat_le.mp digit.2⟩

theorem decimalNat_digits (n : Nat) : ∀ b ∈ decimalNat n, isDigit b = true := by
  intro b mem
  obtain ⟨c, char, rfl⟩ := List.mem_map.mp mem
  obtain ⟨low, high⟩ := toNat_of_mem_toDigits char
  simp only [isDigit, Bool.and_eq_true, decide_eq_true_eq, UInt8.le_iff_toNat_le,
    UInt8.toNat_ofNat', UInt8.reduceToNat]
  omega

theorem decimalNat_ne_nil (n : Nat) : decimalNat n ≠ [] := by
  have long := @Nat.length_toDigits_pos 10 n
  intro empty
  rw [List.map_eq_nil_iff.mp empty] at long
  exact absurd long (by simp)

theorem digitsValue_decimalNat (n : Nat) : digitsValue (decimalNat n) = n := by
  have all : (decimalNat n).takeWhile isDigit = decimalNat n :=
    List.takeWhile_eq_self_iff.mpr (decimalNat_digits n)
  have value (l : List Char) (start : Nat) (digits : ∀ c ∈ l, c.toNat ≤ 57) :
      (l.map fun c => UInt8.ofNat c.toNat).foldl (fun n b => 10 * n + (b.toNat - 48)) start =
        Nat.ofDigitChars 10 l start := by
    induction l generalizing start with
    | nil => rfl
    | cons c l ih =>
        have digit := digits c List.mem_cons_self
        have byte : (UInt8.ofNat c.toNat).toNat = c.toNat := by
          rw [UInt8.toNat_ofNat']
          omega
        rw [List.map_cons, List.foldl_cons, Nat.ofDigitChars_cons, byte]
        exact ih _ fun c mem => digits c (List.mem_cons_of_mem _ mem)
  have whole := value (Nat.toDigits 10 n) 0 fun c mem => (toNat_of_mem_toDigits mem).2
  rw [digitsValue, all, decimalNat, whole, Nat.ofDigitChars_ten_toDigits]

/-- Digits alone are read as their number. -/
theorem atoi_of_digits {text : List UInt8} (digits : ∀ b ∈ text, isDigit b = true) :
    atoi text = digitsValue text := by
  cases text with
  | nil => rfl
  | cons b rest =>
      have digit := digits b List.mem_cons_self
      have space : isSpace b = false := by
        simp only [isDigit, Bool.and_eq_true, decide_eq_true_eq, UInt8.le_iff_toNat_le] at digit
        simp only [isSpace, Bool.or_eq_false_iff, beq_eq_false_iff_ne, Bool.and_eq_false_iff,
          decide_eq_false_iff_not, UInt8.le_iff_toNat_le, ne_eq, ← UInt8.toNat_inj]
        simp only [UInt8.reduceToNat] at digit ⊢
        omega
      rw [atoi, List.dropWhile_cons_of_neg (by simp [space])]
      split
      · rename_i sign
        obtain rfl := (List.cons.inj sign).1
        exact absurd digit (by decide)
      · rename_i sign
        obtain rfl := (List.cons.inj sign).1
        exact absurd digit (by decide)
      · rfl

/-- Digits behind a positive number make it greater. -/
theorem lt_digitsValue_append {n : Nat} (positive : 0 < n) {tail : List UInt8}
    (digits : ∀ b ∈ tail, isDigit b = true) (more : tail ≠ []) :
    (n : Int) < digitsValue (decimalNat n ++ tail) := by
  have grows : ∀ (text : List UInt8) (v : Nat),
      v ≤ text.foldl (fun n b => 10 * n + (b.toNat - 48)) v := by
    intro text
    induction text with
    | nil => exact fun v => Nat.le_refl v
    | cons b text ih =>
        intro v
        have step := ih (10 * v + (b.toNat - 48))
        rw [List.foldl_cons]
        omega
  have value := digitsValue_decimalNat n
  rw [digitsValue, List.takeWhile_eq_self_iff.mpr (decimalNat_digits n), Int.natCast_inj] at value
  have all : ∀ b ∈ decimalNat n ++ tail, isDigit b = true :=
    List.forall_mem_append.mpr ⟨decimalNat_digits n, digits⟩
  rw [digitsValue, List.takeWhile_eq_self_iff.mpr all, List.foldl_append, value, Int.ofNat_lt]
  cases tail with
  | nil => exact absurd rfl more
  | cons b tail =>
      have rest := grows tail (10 * n + (b.toNat - 48))
      rw [List.foldl_cons]
      omega

/-- What is printed is read as the same number. -/
theorem atoi_decimal (n : Int) : atoi (decimal n) = n := by
  by_cases negative : n < 0
  · rw [decimal, if_pos negative]
    show -digitsValue (decimalNat n.natAbs) = n
    rw [digitsValue_decimalNat]
    omega
  · rw [decimal, if_neg negative, atoi_of_digits (decimalNat_digits _), digitsValue_decimalNat]
    omega

/-- What is printed has no terminator in it. -/
theorem cstr_decimal (n : Int) : CString.cstr (decimal n) = decimal n := by
  have digits (m : Nat) : ∀ b ∈ decimalNat m, decide (b ≠ 0) = true := by
    intro b mem
    have digit := decimalNat_digits m b mem
    refine decide_eq_true fun zero => ?_
    rw [zero] at digit
    exact absurd digit (by decide)
  refine List.takeWhile_eq_self_iff.mpr ?_
  by_cases negative : n < 0
  · rw [decimal, if_pos negative]
    exact List.forall_mem_cons.mpr ⟨by decide, digits _⟩
  · rw [decimal, if_neg negative]
    exact digits _

theorem decimal_ne_nil (n : Int) : decimal n ≠ [] := by
  by_cases negative : n < 0
  · rw [decimal, if_pos negative]
    exact List.cons_ne_nil _ _
  · rw [decimal, if_neg negative]
    exact decimalNat_ne_nil _

theorem length_decimalNat_le_iff {n k : Nat} (positive : 0 < k) :
    (decimalNat n).length ≤ k ↔ n < 10 ^ k := by
  rw [decimalNat, List.length_map]
  exact Nat.length_toDigits_le_iff (by decide) positive

/-- A number lies between the powers of ten that its digits tell. -/
theorem lt_pow_length_decimalNat (n : Nat) :
    n < 10 ^ (decimalNat n).length ∧
      ((decimalNat n).length = 1 ∨ 10 ^ ((decimalNat n).length - 1) ≤ n) := by
  have positive : 0 < (decimalNat n).length := List.length_pos_iff.mpr (decimalNat_ne_nil n)
  refine ⟨(length_decimalNat_le_iff positive).mp (Nat.le_refl _), ?_⟩
  by_cases single : (decimalNat n).length = 1
  · exact .inl single
  · have more : 0 < (decimalNat n).length - 1 := by omega
    refine .inr (Nat.le_of_not_lt fun less => ?_)
    have fewer := (length_decimalNat_le_iff more).mpr less
    omega

/-- The digits a number needs. -/
theorem length_decimal_le_iff {n k : Nat} (positive : 0 < k) :
    (decimal n).length ≤ k ↔ n < 10 ^ k := by
  rw [decimal, if_neg (by omega), Int.natAbs_natCast]
  exact length_decimalNat_le_iff positive

/-- A number of 32 bits has a sign and ten digits at most. -/
theorem length_decimal_le {n : Int} (low : -2147483648 ≤ n) (high : n < 2147483648) :
    (decimal n).length ≤ 11 := by
  have digits : (decimalNat n.natAbs).length ≤ 10 :=
    (length_decimalNat_le_iff (by decide)).mpr (by omega)
  by_cases negative : n < 0
  · rw [decimal, if_pos negative, List.length_cons]
    omega
  · rw [decimal, if_neg negative]
    omega

end Decimal
