import Mathlib.Data.Nat.GCD.Basic
import Mathlib.Data.Nat.ModEq
import Mathlib.Tactic.Ring

/-!
# A decimal point in the wrong place

A number is split by a power of ten into a quotient and a remainder, and the two are written on
the sides of a point, the quotient as far as it goes into 32 bits and the remainder without
zeros in front. Where the number should have had one digit more behind the point, what is
written is wrong, for all numbers but zero and one.
-/

namespace DecimalPoint

section Nines

variable {r s f : Nat}

/-- Of the numbers of nines only the first divides such a number. -/
theorem one_of_nines (positive : 0 < s) (whole : (10 ^ s - 1) * f = 8 * 10 ^ r + 1) : s = 1 := by
  have one : 10 ^ s ≡ 1 [MOD 10 ^ s - 1] := Nat.modEq_sub (Nat.one_le_pow _ _ (by decide))
  have power : 10 ^ r ≡ 10 ^ (r % s) [MOD 10 ^ s - 1] := by
    have same := (one.pow (r / s)).mul_right (10 ^ (r % s))
    rwa [one_pow, one_mul, ← pow_mul, ← pow_add, Nat.div_add_mod] at same
  have multiple : 10 ^ s - 1 ∣ 8 * 10 ^ (r % s) + 1 :=
    (((power.mul_left 8).add_right 1).dvd_iff (dvd_refl _)).mp ⟨f, whole.symm⟩
  have bound := Nat.le_of_dvd (Nat.succ_pos _) multiple
  have less : 10 ^ (r % s) ≤ 10 ^ (s - 1) :=
    Nat.pow_le_pow_right (by decide) (Nat.le_sub_one_of_lt (Nat.mod_lt r positive))
  obtain ⟨s, rfl⟩ := Nat.exists_eq_add_of_lt positive
  rw [Nat.zero_add, Nat.add_sub_cancel] at less
  rw [Nat.zero_add, pow_succ] at bound
  have small : 10 ^ s < 10 ^ 1 := by omega
  have none := (Nat.pow_lt_pow_iff_right (by decide)).mp small
  omega

theorem nine_mul_add_one (n : Nat) : ∃ a, 10 ^ n = 9 * a + 1 := by
  have one : 10 ^ n ≡ 1 [MOD 9] := (show 10 ≡ 1 [MOD 9] from rfl).pow n |>.trans (by rw [one_pow])
  exact ⟨10 ^ n / 9, by rw [Nat.ModEq] at one; omega⟩

/-- A number whose digits move by some places and leave themselves, or one more, and a digit in
front. -/
theorem nines_cases {x e : Nat} (positive : 0 < f) (few : f < 10 ^ r) (moved : 0 < s)
    (last : e ≤ 1) (digit : x < 10) (nines : (10 ^ s - 1) * f = 10 ^ r * x + e) :
    e = 1 ∧ x = 8 ∧ 9 * f = 8 * 10 ^ r + 1 := by
  obtain rfl | rfl := Nat.le_one_iff_eq_zero_or_eq_one.mp last
  · have next : Nat.Coprime (10 ^ s) (10 ^ s - 1) :=
      (Nat.coprime_self_sub_right (Nat.one_le_pow _ _ (by decide))).mpr (Nat.coprime_one_right _)
    have coprime : Nat.Coprime (10 ^ r) (10 ^ s - 1) :=
      .pow_left _ (next.coprime_dvd_left (dvd_pow_self 10 moved.ne'))
    have multiple : 10 ^ r ∣ f := coprime.dvd_of_dvd_mul_left ⟨x, nines⟩
    exact absurd (Nat.le_of_dvd positive multiple) (by omega)
  · obtain ⟨a, nine⟩ := nine_mul_add_one s
    obtain ⟨b, power⟩ := nine_mul_add_one r
    have eight : x = 8 := by
      rw [nine, power, Nat.add_sub_cancel, Nat.add_mul, Nat.mul_assoc, Nat.mul_assoc] at nines
      omega
    rw [eight, Nat.mul_comm (10 ^ r)] at nines
    rw [one_of_nines moved nines] at nines
    exact ⟨rfl, eight, nines⟩

/-- Eight ninths of a power of ten have as many digits as the nines below it. -/
theorem ninths (whole : 0 < r) :
    ∃ b, 10 ^ r = 9 * b + 1 ∧ 8 * b + 1 < 10 ^ r ∧ ∀ d, 8 * b + 1 < 10 ^ d → r ≤ d := by
  obtain ⟨b, power⟩ := nine_mul_add_one r
  have large : 10 ≤ 10 ^ r := Nat.le_self_pow whole.ne' 10
  refine ⟨b, power, by omega, fun d enough => Nat.le_of_not_lt fun short => ?_⟩
  have less := Nat.pow_le_pow_right (show 0 < 10 by decide) (Nat.succ_le_of_lt short)
  rw [Nat.pow_succ] at less
  omega

end Nines

section Quotient

variable {r d e q k : Nat}

/-- How many words the ninefold of a word has, by the remainder under 9. -/
theorem words_eq {c n : Nat} (narrow : q < 2 ^ 32) (few : c ≤ 8)
    (exact : 9 * q + c = 2 ^ 32 * k + e) (word : n ≤ 8) (same : (4 * n + e) % 9 = c % 9) :
    k = n := by
  have less : k ≤ 8 := by
    by_contra large
    have many := Nat.mul_le_mul_left (2 ^ 32) (Nat.lt_of_not_le large)
    omega
  have nine : 9 * q + c = 9 * (477218588 * k) + 4 * k + e := exact.trans (by ring)
  clear exact narrow
  omega

/-- The digits of a remainder are no more than those that it is taken of. -/
theorem digits_le {f : Nat} (whole : 0 < r) (below : f < 10 ^ r)
    (needed : d = 1 ∨ 10 ^ (d - 1) ≤ f) : d ≤ r := by
  obtain rfl | needed := needed
  · exact whole
  · have power := (Nat.pow_lt_pow_iff_right (by decide)).mp (needed.trans_lt below)
    omega

/-- What follows if a quotient and a remainder are the digits of a number that has one digit
more behind the point. -/
theorem quotient_cases {f w : Nat} (whole : 0 < r) (last : e ≤ 1) (below : f < 10 ^ r)
    (enough : f < 10 ^ d) (needed : d = 1 ∨ 10 ^ (d - 1) ≤ f)
    (exact : 10 ^ (r + 1) * (q * 10 ^ d + f) = (10 ^ r * (w + q) + f + e) * 10 ^ d) :
    e = 0 ∧ f = 0 ∧ 9 * q = w ∨ e = 1 ∧ 9 * f = 8 * 10 ^ r + 1 ∧ 9 * q + 8 = w := by
  obtain ⟨s, rfl⟩ := Nat.exists_eq_add_of_le (digits_le whole below needed)
  have tens : 10 ^ (d + s) * 10 = 10 ^ (s + 1) * 10 ^ d := by ring
  -- the digits of the remainder move by `s + 1` places
  have shifted : 10 ^ (d + s) * (9 * q) + 10 ^ (s + 1) * f = 10 ^ (d + s) * w + f + e := by
    have cancelled :
        10 ^ (s + 1) * (q * 10 ^ d + f) = 10 ^ (d + s) * (w + q) + f + e := by
      refine Nat.eq_of_mul_eq_mul_right (Nat.pow_pos (by decide) : 0 < 10 ^ d) ?_
      rw [← exact]
      ring
    have moved : 10 ^ (s + 1) * (q * 10 ^ d) = 10 ^ (d + s) * (9 * q) + 10 ^ (d + s) * q := by
      ring
    rw [Nat.mul_add, moved, Nat.mul_add] at cancelled
    omega
  have many : 10 ≤ 10 ^ (s + 1) := Nat.le_self_pow (Nat.succ_ne_zero s) 10
  have large : 10 ≤ 10 ^ (d + s) := Nat.le_self_pow (by omega) 10
  obtain rfl | positive := Nat.eq_zero_or_pos f
  · have same : 10 ^ (d + s) * (9 * q) = 10 ^ (d + s) * w + e := by omega
    have multiple : 10 ^ (d + s) ∣ e :=
      (Nat.dvd_add_right (Nat.dvd_mul_right _ w)).mp (same ▸ Nat.dvd_mul_right _ _)
    obtain rfl : e = 0 := Nat.eq_zero_of_dvd_of_lt multiple (by omega)
    exact .inl ⟨rfl, rfl, Nat.eq_of_mul_eq_mul_left (by omega) same⟩
  · have upper : 10 ^ (s + 1) * f < 10 ^ (d + s) * 10 := by
      rw [tens]
      exact Nat.mul_lt_mul_of_pos_left enough (by omega)
    have grows : 10 * f ≤ 10 ^ (s + 1) * f := Nat.mul_le_mul_right f many
    have less : 10 ^ (d + s) * (9 * q) < 10 ^ (d + s) * w := by omega
    obtain ⟨x, rfl⟩ := Nat.exists_eq_add_of_le (Nat.lt_of_mul_lt_mul_left less).le
    rw [Nat.mul_add] at shifted
    have digit : 10 ^ (d + s) * x < 10 ^ (d + s) * 10 := by omega
    have nines : (10 ^ (s + 1) - 1) * f = 10 ^ (d + s) * x + e := by
      rw [Nat.sub_one_mul]
      omega
    obtain ⟨one, eight, remainder⟩ := nines_cases positive below (Nat.succ_pos s) last
      (Nat.lt_of_mul_lt_mul_left digit) nines
    exact .inr ⟨one, remainder, by rw [eight]⟩

/-- The quotient of 32 bits and the remainder are the digits of a number with one digit more
behind the point: a number without a remainder. -/
theorem quotient_one_iff {man : Nat} (last : e ≤ 1) :
    10 * (man % 2 ^ 32 * 10) = (man + e) * 10 ↔
      man + e = 0 ∨ e = 1 ∧ 9 * (man + e) = 10 * (2 ^ 33 + 1) := by
  constructor
  · intro exact
    have narrow := Nat.mod_lt man (Nat.two_pow_pos 32)
    have parts := Nat.div_add_mod man (2 ^ 32)
    have nine : 9 * (man % 2 ^ 32) + 0 = 2 ^ 32 * (man / 2 ^ 32) + e := by omega
    obtain rfl | rfl := Nat.le_one_iff_eq_zero_or_eq_one.mp last
    · have zero := words_eq narrow (Nat.zero_le 8) nine (Nat.zero_le 8) rfl
      rw [zero, Nat.mul_zero, Nat.zero_add] at nine parts
      exact .inl (by omega)
    · have two := words_eq narrow (Nat.zero_le 8) nine (show 2 ≤ 8 by decide) rfl
      rw [two] at nine parts
      refine .inr ⟨rfl, ?_⟩
      calc
        9 * (man + 1) = 9 * 2 ^ 33 + (9 * (man % 2 ^ 32) + 0) + 9 := by
          nth_rewrite 1 [← parts]
          ring
        _ = 10 * (2 ^ 33 + 1) := by
          rw [nine]
          rfl
  · rintro (zero | ⟨rfl, same⟩)
    · obtain ⟨rfl, rfl⟩ := Nat.add_eq_zero_iff.mp zero
      rfl
    · have whole : man + 1 = 9544371770 := Nat.eq_of_mul_eq_mul_left (show 0 < 9 by decide) same
      obtain rfl : man = 9544371769 := Nat.succ.inj whole
      rfl

/-- The quotient of 32 bits and the remainder are the digits of a number with one digit more
behind the point: this is so for zero, and for one negative number, whose quotient is cut. -/
theorem quotient_exact_iff {man : Nat} (last : e ≤ 1)
    (enough : man % 10 ^ r < 10 ^ d) (needed : d = 1 ∨ 10 ^ (d - 1) ≤ man % 10 ^ r) :
    10 ^ (r + 1) * (man / 10 ^ r % 2 ^ 32 * 10 ^ d + man % 10 ^ r) = (man + e) * 10 ^ d ↔
      man + e = 0 ∨ e = 1 ∧ 9 * (man + e) = 10 * (10 ^ r * 2 ^ 33 + 1) := by
  obtain rfl | whole := Nat.eq_zero_or_pos r
  · have single : d = 1 := by
      refine needed.resolve_right fun digits => ?_
      rw [Nat.pow_zero, Nat.mod_one] at digits
      exact absurd digits (Nat.not_le.mpr (Nat.pow_pos (by decide)))
    rw [single, Nat.pow_zero, Nat.mod_one, Nat.div_one, Nat.add_zero, Nat.pow_one, Nat.one_mul]
    exact quotient_one_iff last
  have below := Nat.mod_lt man (Nat.pow_pos (by decide) : 0 < 10 ^ r)
  have parts := Nat.div_add_mod man (10 ^ r)
  constructor
  · intro exact
    have narrow := Nat.mod_lt (man / 10 ^ r) (Nat.two_pow_pos 32)
    have quotient := Nat.div_add_mod (man / 10 ^ r) (2 ^ 32)
    have sum : 10 ^ r * (2 ^ 32 * (man / 10 ^ r / 2 ^ 32) + man / 10 ^ r % 2 ^ 32) +
        man % 10 ^ r = man := by rw [quotient, parts]
    generalize man / 10 ^ r % 2 ^ 32 = q at *
    generalize man / 10 ^ r / 2 ^ 32 = k at *
    generalize man % 10 ^ r = f at *
    obtain ⟨rfl, rfl, none⟩ | ⟨rfl, digits, eight⟩ :=
      quotient_cases whole last below enough needed (by rw [sum, exact])
    · have nine : 9 * q + 0 = 2 ^ 32 * k + 0 := none
      rw [words_eq narrow (Nat.zero_le 8) nine (Nat.zero_le 8) rfl, Nat.mul_zero] at none sum
      have zero : q = 0 := by omega
      rw [zero] at sum
      exact .inl sum.symm
    · have nine : 9 * q + 8 = 2 ^ 32 * k + 0 := eight
      have two : k = 2 := words_eq narrow (Nat.le_refl 8) nine (by decide) rfl
      rw [two] at eight sum
      refine .inr ⟨rfl, ?_⟩
      calc
        9 * (man + 1) = 10 ^ r * (9 * 2 ^ 33 + 9 * q) + 9 * f + 9 := by
          rw [← sum]
          ring
        _ = 10 ^ r * (9 * 2 ^ 33 + (9 * q + 8)) + 10 := by
          rw [digits]
          ring
        _ = 10 * (10 ^ r * 2 ^ 33 + 1) := by
          rw [eight]
          ring
  · rintro (zero | ⟨rfl, same⟩)
    · obtain ⟨rfl, rfl⟩ := Nat.add_eq_zero_iff.mp zero
      rw [Nat.zero_div, Nat.zero_mod, Nat.zero_mod, Nat.zero_mul, Nat.add_zero, Nat.mul_zero]
    · obtain ⟨b, power, less, most⟩ := ninths whole
      have value : 8 * b + 1 + 10 ^ r * 9544371768 = man := by
        refine Nat.eq_of_mul_eq_mul_left (show 0 < 9 by decide) (Nat.add_right_cancel (m := 9) ?_)
        rw [power] at same ⊢
        exact (same.trans (by ring)).symm
      obtain ⟨quotient, remainder⟩ :=
        (Nat.div_mod_unique (Nat.pow_pos (by decide))).mpr ⟨value, less⟩
      rw [remainder] at enough needed below
      have all : d = r := Nat.le_antisymm (digits_le whole below needed) (most d enough)
      rw [quotient, remainder, all, ← value, pow_succ, power,
        show 9544371768 % 2 ^ 32 = 954437176 from rfl]
      ring

end Quotient

end DecimalPoint
