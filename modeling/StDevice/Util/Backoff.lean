import Mathlib.Algebra.Ring.Nat

/-!
# The time until the next try

`iot_util_generator_backoff` doubles a number once for every try, and compares it with the
maximum when both are multiplied by 1000. All of this is done with 32 bits, so that the
comparison means nothing once the product does not fit.
-/

namespace StDevice.Util

/-- How the loop ends: with `return`, behind the last try, or with an overflow of `i`. -/
inductive BackoffEnd where
  | returned
  | ran (backoff : UInt32)
  | overflow
  deriving DecidableEq

/-- The loop for the `left` tries that are left. -/
def backoffLoop (maximumBackoff : UInt32) : (left i : Nat) → (backoff : UInt32) → BackoffEnd
  | 0, _, backoff => .ran backoff
  | left + 1, i, backoff =>
      let backoff := backoff * 2
      if maximumBackoff * 1000 ≤ backoff * 1000 then .returned
      else if i + 1 = 2 ^ 31 then .overflow
      else backoffLoop maximumBackoff left (i + 1) backoff

/-- `iot_util_generator_backoff`. The loop counts with an `int`, and has no result where this
overflows. -/
def iotUtilGeneratorBackoff (tryCount maximumBackoff random : UInt32) : Option UInt32 :=
  match backoffLoop maximumBackoff tryCount.toNat 0 1 with
  | .returned => some (maximumBackoff * 1000)
  | .ran backoff => some (backoff * 1000 + random % 1000)
  | .overflow => none

/-! ## The same with numbers that fit -/

/-- A product that fits into 32 bits. -/
def mul? (a b : UInt32) : Option UInt32 := if a.toNat * b.toNat < 2 ^ 32 then some (a * b) else none

/-- A sum that fits into 32 bits. -/
def add? (a b : UInt32) : Option UInt32 := if a.toNat + b.toNat < 2 ^ 32 then some (a + b) else none

/-- The loop, as long as nothing wraps around. -/
def checkedLoop (maximumBackoff : UInt32) :
    (left i : Nat) → (backoff : UInt32) → Option BackoffEnd
  | 0, _, backoff => some (.ran backoff)
  | left + 1, i, backoff => do
      let backoff ← mul? backoff 2
      let scaled ← mul? backoff 1000
      let limit ← mul? maximumBackoff 1000
      if limit ≤ scaled then some .returned
      else if i + 1 = 2 ^ 31 then some .overflow
      else checkedLoop maximumBackoff left (i + 1) backoff

/-- The result where nothing wraps around on the way. -/
def checkedBackoff (tryCount maximumBackoff random : UInt32) : Option UInt32 := do
  match ← checkedLoop maximumBackoff tryCount.toNat 0 1 with
  | .returned => mul? maximumBackoff 1000
  | .ran backoff => add? (← mul? backoff 1000) (random % 1000)
  | .overflow => none

/-- The time for a try: there is a result, nothing wraps around, and it is a second for
every power of two, up to the maximum. -/
def BacksOff (tryCount maximumBackoff random : UInt32) : Prop :=
  ∃ result, iotUtilGeneratorBackoff tryCount maximumBackoff random = some result ∧
    checkedBackoff tryCount maximumBackoff random = some result ∧
    (2 ^ tryCount.toNat < maximumBackoff.toNat →
      2 ^ tryCount.toNat * 1000 ≤ result.toNat ∧
        result.toNat < (2 ^ tryCount.toNat + 1) * 1000) ∧
    (maximumBackoff.toNat ≤ 2 ^ tryCount.toNat → result.toNat = maximumBackoff.toNat * 1000) ∧
    1000 ≤ result.toNat ∧ result.toNat ≤ maximumBackoff.toNat * 1000

/-- A later try is never sooner. -/
def Grows (maximumBackoff : UInt32) : Prop :=
  ∀ m n r r' : UInt32, m < n → ∃ first second,
    iotUtilGeneratorBackoff m maximumBackoff r = some first ∧
      iotUtilGeneratorBackoff n maximumBackoff r' = some second ∧ first ≤ second

theorem mul?_eq_some {a b c : UInt32} (fits : mul? a b = some c) :
    c = a * b ∧ c.toNat = a.toNat * b.toNat := by
  rw [mul?] at fits
  split at fits
  case isTrue small =>
    obtain rfl := Option.some.inj fits
    exact ⟨rfl, by rw [UInt32.toNat_mul, Nat.mod_eq_of_lt small]⟩
  case isFalse => cases fits

theorem mul?_of_lt {a b : UInt32} (small : a.toNat * b.toNat < 2 ^ 32) :
    mul? a b = some (a * b) :=
  if_pos small

/-- What is computed with numbers that fit is what the code computes. -/
theorem backoffLoop_of_checked {maximumBackoff backoff : UInt32} {left i : Nat} {e : BackoffEnd}
    (checked : checkedLoop maximumBackoff left i backoff = some e) :
    backoffLoop maximumBackoff left i backoff = e := by
  induction left generalizing i backoff with
  | zero => exact Option.some.inj checked
  | succ left ih =>
      simp only [checkedLoop, Option.bind_eq_bind, Option.bind_eq_some_iff] at checked
      obtain ⟨doubled, first, scaled, second, limit, third, rest⟩ := checked
      obtain ⟨rfl, -⟩ := mul?_eq_some first
      obtain ⟨rfl, -⟩ := mul?_eq_some second
      obtain ⟨rfl, -⟩ := mul?_eq_some third
      rw [backoffLoop]
      split at rest
      case isTrue large =>
        rw [if_pos large]
        exact Option.some.inj rest
      case isFalse small =>
        rw [if_neg small]
        split at rest
        case isTrue last =>
          rw [if_pos last]
          exact Option.some.inj rest
        case isFalse =>
          rw [if_neg ‹_›]
          exact ih rest

/-! ## The powers of two -/

section

variable {maximumBackoff : UInt32}

/-- A step from one power of two to the next, up to 2^22. -/
theorem doubling {i : Nat} {backoff : UInt32} (power : backoff.toNat = 2 ^ i) (few : i + 1 ≤ 22)
    (fits : maximumBackoff.toNat ≤ 4294967) :
    (backoff * 2).toNat = 2 ^ (i + 1) ∧
      (maximumBackoff * 1000 ≤ backoff * 2 * 1000 ↔ maximumBackoff.toNat ≤ 2 ^ (i + 1)) ∧
      ∀ left, checkedLoop maximumBackoff (left + 1) i backoff =
        if maximumBackoff.toNat ≤ 2 ^ (i + 1) then some .returned
        else checkedLoop maximumBackoff left (i + 1) (backoff * 2) := by
  have bound : 2 ^ (i + 1) ≤ 2 ^ 22 := Nat.pow_le_pow_right (Nat.zero_lt_succ 1) few
  have two : (2 : UInt32).toNat = 2 := rfl
  have thousand : (1000 : UInt32).toNat = 1000 := rfl
  have doubled : mul? backoff 2 = some (backoff * 2) :=
    mul?_of_lt (by rw [power, two, ← Nat.pow_succ]; omega)
  have power' : (backoff * 2).toNat = 2 ^ (i + 1) := by
    rw [(mul?_eq_some doubled).2, power, two, Nat.pow_succ]
  have scaled : mul? (backoff * 2) 1000 = some (backoff * 2 * 1000) :=
    mul?_of_lt (by rw [power', thousand]; omega)
  have limit : mul? maximumBackoff 1000 = some (maximumBackoff * 1000) :=
    mul?_of_lt (by rw [thousand]; omega)
  have comparison : maximumBackoff * 1000 ≤ backoff * 2 * 1000 ↔
      maximumBackoff.toNat ≤ 2 ^ (i + 1) := by
    rw [UInt32.le_iff_toNat_le, (mul?_eq_some limit).2, (mul?_eq_some scaled).2, power', thousand]
    omega
  refine ⟨power', comparison, fun left => ?_⟩
  have noOverflow : ¬ i + 1 = 2 ^ 31 := by omega
  simp only [checkedLoop, doubled, scaled, limit, Option.bind_eq_bind, Option.bind_some, comparison,
    if_neg noOverflow]

/-- As long as the powers of two stay up to 2^22, the loop ends at the first that is not
below the maximum. -/
theorem checkedLoop_eq (left : Nat) {i : Nat} {backoff : UInt32} (power : backoff.toNat = 2 ^ i)
    (below : 2 ^ i < maximumBackoff.toNat) (fits : maximumBackoff.toNat ≤ 4294967)
    (safe : maximumBackoff.toNat ≤ 2 ^ 22 ∨ i + left < 23) :
    ∃ e, checkedLoop maximumBackoff left i backoff = some e ∧
      (2 ^ (i + left) < maximumBackoff.toNat → ∃ b, e = .ran b ∧ b.toNat = 2 ^ (i + left)) ∧
      (maximumBackoff.toNat ≤ 2 ^ (i + left) → e = .returned) := by
  induction left generalizing i backoff with
  | zero =>
      refine ⟨_, rfl, fun _ => ⟨backoff, rfl, power⟩, ?_⟩
      intro reached
      exact absurd below (Nat.not_lt.mpr reached)
  | succ left ih =>
      have few : i + 1 ≤ 22 := by
        obtain small | early := safe
        · exact (Nat.pow_lt_pow_iff_right (Nat.lt_succ_self 1)).mp (Nat.lt_of_lt_of_le below small)
        · omega
      obtain ⟨power', -, step⟩ := doubling power few fits
      have later : i + (left + 1) = i + 1 + left := by omega
      rw [step, later]
      by_cases reached : maximumBackoff.toNat ≤ 2 ^ (i + 1)
      · rw [if_pos reached]
        refine ⟨.returned, rfl, ?_, fun _ => rfl⟩
        intro above
        have more : 2 ^ (i + 1) ≤ 2 ^ (i + 1 + left) :=
          Nat.pow_le_pow_right (Nat.zero_lt_succ 1) (Nat.le_add_right _ _)
        omega
      · rw [if_neg reached]
        exact ih power' (Nat.not_le.mp reached) (later ▸ safe)

/-- A maximum above 2^22 is not reached by the first `k` powers. -/
theorem loops_skip (k left : Nat) {i : Nat} {backoff : UInt32} (power : backoff.toNat = 2 ^ i)
    (large : 2 ^ 22 < maximumBackoff.toNat) (fits : maximumBackoff.toNat ≤ 4294967)
    (few : i + k ≤ 22) :
    ∃ b : UInt32, b.toNat = 2 ^ (i + k) ∧
      checkedLoop maximumBackoff (k + left) i backoff =
        checkedLoop maximumBackoff left (i + k) b ∧
      backoffLoop maximumBackoff (k + left) i backoff =
        backoffLoop maximumBackoff left (i + k) b := by
  induction k generalizing i backoff with
  | zero => exact ⟨backoff, power, by rw [Nat.zero_add, Nat.add_zero],
      by rw [Nat.zero_add, Nat.add_zero]⟩
  | succ k ih =>
      obtain ⟨power', comparison, step⟩ := doubling power (by omega : i + 1 ≤ 22) fits
      have bound : 2 ^ (i + 1) ≤ 2 ^ 22 := Nat.pow_le_pow_right (Nat.zero_lt_succ 1) (by omega)
      have notReached : ¬ maximumBackoff.toNat ≤ 2 ^ (i + 1) := by omega
      have noOverflow : ¬ i + 1 = 2 ^ 31 := by omega
      obtain ⟨b, last, checked, loop⟩ := ih power' (by omega : i + 1 + k ≤ 22)
      have count : k + 1 + left = k + left + 1 := by omega
      have place : i + (k + 1) = i + 1 + k := by omega
      refine ⟨b, by rw [place]; exact last, ?_, ?_⟩
      · rw [count, step, if_neg notReached, place]
        exact checked
      · rw [count, backoffLoop, place, ← loop]
        simp only [comparison, if_neg notReached, if_neg noOverflow]

theorem backsOff_of_safe {tryCount random : UInt32} (two : 2 ≤ maximumBackoff.toNat)
    (fits : maximumBackoff.toNat ≤ 4294967)
    (safe : maximumBackoff.toNat ≤ 2 ^ 22 ∨ tryCount.toNat < 23) :
    BacksOff tryCount maximumBackoff random := by
  have thousand : (1000 : UInt32).toNat = 1000 := rfl
  have start : (1 : UInt32).toNat = 2 ^ 0 := rfl
  have limit : mul? maximumBackoff 1000 = some (maximumBackoff * 1000) :=
    mul?_of_lt (by rw [thousand]; omega)
  obtain ⟨e, checked, ran, returned⟩ := checkedLoop_eq tryCount.toNat start
    (by omega : 2 ^ 0 < maximumBackoff.toNat) fits (by rwa [Nat.zero_add])
  have loop := backoffLoop_of_checked checked
  rw [Nat.zero_add] at ran returned
  by_cases reached : maximumBackoff.toNat ≤ 2 ^ tryCount.toNat
  · obtain rfl := returned reached
    have value := (mul?_eq_some limit).2
    rw [thousand] at value
    refine ⟨maximumBackoff * 1000, ?_, ?_, by omega, fun _ => value, by omega, by omega⟩
    · rw [iotUtilGeneratorBackoff, loop]
    · simp only [checkedBackoff, checked, Option.bind_eq_bind, Option.bind_some, limit]
  · obtain ⟨b, rfl, power⟩ := ran (Nat.not_le.mp reached)
    have positive : 1 ≤ 2 ^ tryCount.toNat := Nat.one_le_two_pow
    have scaled : mul? b 1000 = some (b * 1000) := mul?_of_lt (by rw [power, thousand]; omega)
    have value := (mul?_eq_some scaled).2
    rw [power, thousand] at value
    have addend : (random % 1000).toNat < 1000 := by
      rw [UInt32.toNat_mod, thousand]
      exact Nat.mod_lt _ (by decide)
    have sum : (b * 1000).toNat + (random % 1000).toNat < 2 ^ 32 := by omega
    have result : (b * 1000 + random % 1000).toNat =
        2 ^ tryCount.toNat * 1000 + (random % 1000).toNat := by
      rw [UInt32.toNat_add, Nat.mod_eq_of_lt sum, value]
    refine ⟨b * 1000 + random % 1000, ?_, ?_, fun _ => by omega, fun le => absurd le reached,
      by omega, by omega⟩
    · rw [iotUtilGeneratorBackoff, loop]
    · simp only [checkedBackoff, checked, Option.bind_eq_bind, Option.bind_some, scaled, add?,
        if_pos sum]

/-- Behind 2^22 the product wraps around. -/
theorem checkedBackoff_eq_none {tryCount random : UInt32} (fits : maximumBackoff.toNat ≤ 4294967)
    (large : 2 ^ 22 < maximumBackoff.toNat) (late : 23 ≤ tryCount.toNat) :
    checkedBackoff tryCount maximumBackoff random = none := by
  have start : (1 : UInt32).toNat = 2 ^ 0 := rfl
  obtain ⟨left, count⟩ : ∃ left, tryCount.toNat = 22 + (left + 1) := ⟨tryCount.toNat - 23, by omega⟩
  obtain ⟨b, power, checked, -⟩ := loops_skip 22 (left + 1) start large fits
    (Nat.le_refl 22)
  have wraps : mul? (b * 2) 1000 = none := by
    have value : b = 4194304 := UInt32.toNat_inj.mp power
    rw [value]
    rfl
  have doubled : mul? b 2 = some (b * 2) := mul?_of_lt (by rw [power]; decide)
  rw [← count] at checked
  simp only [checkedBackoff, checked, checkedLoop, doubled, wraps, Option.bind_eq_bind,
    Option.bind_some, Option.bind_none]

/-- The 23rd try comes before the 22nd when the maximum is above 2^22. -/
theorem not_grows (fits : maximumBackoff.toNat ≤ 4294967) (large : 2 ^ 22 < maximumBackoff.toNat) :
    ¬ Grows maximumBackoff := by
  intro grows
  have start : (1 : UInt32).toNat = 2 ^ 0 := rfl
  have thousand : (1000 : UInt32).toNat = 1000 := rfl
  obtain ⟨first, second, earlier, later, le⟩ := grows 22 23 0 0 (by decide)
  obtain ⟨result, same, -, between, -⟩ : BacksOff 22 maximumBackoff 0 :=
    backsOff_of_safe (by omega) fits (.inr (by decide))
  obtain rfl := Option.some.inj (earlier.symm.trans same)
  have low := (between large).1
  obtain ⟨b, power, -, loop⟩ := loops_skip 22 1 start large fits (Nat.le_refl 22)
  obtain rfl : b = 4194304 := UInt32.toNat_inj.mp power
  have limit := (mul?_eq_some (mul?_of_lt (a := maximumBackoff) (b := 1000)
    (by rw [thousand]; omega))).2
  rw [thousand] at limit
  have below : ¬ maximumBackoff * 1000 ≤ 4194304 * 2 * 1000 := by
    rw [UInt32.le_iff_toNat_le, limit]
    change ¬ maximumBackoff.toNat * 1000 ≤ 4093640704
    omega
  have ran : backoffLoop maximumBackoff 23 0 1 = .ran 8388608 := by
    refine loop.trans ?_
    simp only [backoffLoop, if_neg below]
    rfl
  have value : second = 4093640704 := by
    rw [iotUtilGeneratorBackoff] at later
    change (match backoffLoop maximumBackoff 23 0 1 with
      | .returned => some (maximumBackoff * 1000)
      | .ran backoff => some (backoff * 1000 + 0 % 1000)
      | .overflow => none) = some second at later
    rw [ran] at later
    exact (Option.some.inj later).symm
  rw [value, UInt32.le_iff_toNat_le] at le
  change first.toNat ≤ 4093640704 at le
  change 2 ^ 22 * 1000 ≤ first.toNat at low
  omega

theorem grows_of_le (two : 2 ≤ maximumBackoff.toNat) (small : maximumBackoff.toNat ≤ 2 ^ 22) :
    Grows maximumBackoff := by
  intro m n r r' later
  obtain ⟨first, earlier, -, below, -, -, most⟩ : BacksOff m maximumBackoff r :=
    backsOff_of_safe two (by omega) (.inl small)
  obtain ⟨second, next, -, between, reached, -⟩ : BacksOff n maximumBackoff r' :=
    backsOff_of_safe two (by omega) (.inl small)
  refine ⟨first, second, earlier, next, UInt32.le_iff_toNat_le.mpr ?_⟩
  by_cases whole : maximumBackoff.toNat ≤ 2 ^ n.toNat
  · rw [reached whole]
    exact most
  · have power : 2 ^ (m.toNat + 1) ≤ 2 ^ n.toNat :=
      Nat.pow_le_pow_right (Nat.zero_lt_succ 1) (UInt32.lt_iff_toNat_lt.mp later)
    have positive : 1 ≤ 2 ^ m.toNat := Nat.one_le_two_pow
    rw [Nat.pow_succ] at power
    have low := (between (by omega)).1
    have high := (below (by omega)).2
    omega

end

/-- The time for a try is right, and is computed without wrapping around, for a maximum up to
2^22 or for the first 23 tries, and grows with the tries for a maximum up to 2^22. -/
theorem backsOff_iff (maximumBackoff : UInt32) (two : 2 ≤ maximumBackoff.toNat)
    (fits : maximumBackoff.toNat ≤ 4294967) :
    (∀ tryCount random, BacksOff tryCount maximumBackoff random ↔
      maximumBackoff.toNat ≤ 2 ^ 22 ∨ tryCount.toNat < 23) ∧
    (Grows maximumBackoff ↔ maximumBackoff.toNat ≤ 2 ^ 22) := by
  refine ⟨fun tryCount random => ⟨?_, backsOff_of_safe two fits⟩, ?_, grows_of_le two⟩
  · rintro ⟨result, -, checked, -⟩
    by_contra late
    rw [not_or, Nat.not_le, Nat.not_lt] at late
    rw [checkedBackoff_eq_none fits late.1 late.2] at checked
    cases checked
  · intro grows
    by_contra large
    exact not_grows fits (Nat.not_le.mp large) grows

/-- The maximum that the retry of the connection uses. -/
theorem backsOff_iff_retry : Grows 64 :=
  (backsOff_iff 64 (by decide) (by decide)).2.mpr (by decide)

/-- A maximum of 2^22 + 1 is passed by: the product wraps around to a smaller number. -/
theorem backoff_wraps :
    iotUtilGeneratorBackoff 23 4194305 0 = some 4093640704 ∧ ¬ BacksOff 23 4194305 0 := by
  refine ⟨by decide +kernel, ?_⟩
  rintro ⟨result, -, checked, -⟩
  rw [checkedBackoff_eq_none (by decide) (by decide) (by decide)] at checked
  cases checked

end StDevice.Util
