import Mathlib.Algebra.Ring.Int.Defs
import StDevice.LogFile.File

/-!
# Seeking in the log

`iot_log_file_seek` brings a place back into the log with a remainder. The sum under the
remainder is an `unsigned int`, so that a place before the start of the log is moved by 2^32
first. `File.lean` has the function for a place some bytes before the origin; here the offset
is an `int`, and the remainder is stored in one.

The size of the log is a `size_t` and is added to the new offset as one. A `size_t` of 32 or
64 bits makes no difference to the `int` that is stored.
-/

namespace StDevice.LogFile

/-- `iot_log_file_seek`; `none` is an error. -/
def iotLogFileSeekOffset (handle : Handle) (seekOffset : Int32) (originAddr : Nat) :
    Option Handle :=
  if handle.logSize = 0 then none
  else
    let sum : Int := ((originAddr : Int) - handle.startAddr + seekOffset.toInt) % 4294967296
    let newOffset := (sum % handle.logSize).bmod 4294967296
    let newOffset :=
      if newOffset < 0 then (newOffset + handle.logSize).bmod 4294967296 else newOffset
    some { handle with curAddr := ((handle.startAddr + newOffset) % 4294967296).toNat }

/-- The log ends below 2^32. -/
structure Handle.Addressed (handle : Handle) : Prop where
  nonempty : 0 < handle.logSize
  fits : handle.startAddr + handle.logSize < 4294967296

/-- The place of an origin and an offset, from the start of the log on. -/
def seekPlace (handle : Handle) (seekOffset : Int32) (originAddr : Nat) : Int :=
  (originAddr : Int) - handle.startAddr + seekOffset.toInt

/-- The handle goes to the place, counted round the log. -/
def SeeksTo (handle : Handle) (seekOffset : Int32) (originAddr : Nat) : Prop :=
  ∃ moved, iotLogFileSeekOffset handle seekOffset originAddr = some moved ∧
    (moved.curAddr : Int) =
      handle.startAddr + seekPlace handle seekOffset originAddr % handle.logSize

/-- The place is not moved under the remainder, or the move by 2^32 does not matter. -/
def SeekInRange (handle : Handle) (seekOffset : Int32) (originAddr : Nat) : Prop :=
  let place := seekPlace handle seekOffset originAddr
  (0 ≤ place ∧ place < 4294967296 ∧ place % handle.logSize < 2147483648) ∨
    (place < 0 ∧ ((handle.logSize : Int) ∣ 4294967296 ∨ place + 4294967296 < handle.logSize))

variable {handle : Handle} {seekOffset : Int32} {originAddr : Nat}

/-- The address that is stored, for the remainder. A remainder from 2^31 on is negative as an
`int`, and the size of the log is added. -/
theorem iotLogFileSeekOffset_eq (seekOffset : Int32) (originAddr : Nat)
    (addressed : handle.Addressed) :
    ∃ moved r, iotLogFileSeekOffset handle seekOffset originAddr = some moved ∧
      r = seekPlace handle seekOffset originAddr % 4294967296 % handle.logSize ∧
      0 ≤ r ∧ r < handle.logSize ∧
      (moved.curAddr : Int) = if r < 2147483648 then handle.startAddr + r
        else (handle.startAddr + r + handle.logSize) % 4294967296 := by
  have positive := addressed.nonempty
  have fits := addressed.fits
  have nonneg := Int.emod_nonneg (seekPlace handle seekOffset originAddr % 4294967296)
    (by omega : (handle.logSize : Int) ≠ 0)
  have below := Int.emod_lt_of_pos (seekPlace handle seekOffset originAddr % 4294967296)
    (by omega : 0 < (handle.logSize : Int))
  refine ⟨_, _, by rw [iotLogFileSeekOffset, if_neg (by omega)], rfl, nonneg, below, ?_⟩
  rw [← seekPlace]
  generalize seekPlace handle seekOffset originAddr % 4294967296 % handle.logSize = r at *
  simp only [Int.bmod_def]
  split_ifs <;> omega

theorem seekPlace_bounds (seekOffset : Int32) (origin : handle.startAddr ≤ originAddr)
    (inside : originAddr ≤ handle.startAddr + handle.logSize) :
    -2147483648 ≤ seekPlace handle seekOffset originAddr ∧
      seekPlace handle seekOffset originAddr < handle.logSize + 2147483648 := by
  have low := seekOffset.le_toInt
  have high := seekOffset.toInt_lt
  rw [seekPlace]
  omega

/-- A divisor of 2^32 that is not 2^32. -/
theorem le_of_dvd_word {size : Int} (positive : 0 < size) (fits : size < 4294967296)
    (divides : size ∣ 4294967296) : size ≤ 2147483648 := by
  obtain ⟨count, whole⟩ := divides
  have more : 2 ≤ count := by
    by_contra few
    have one : count ≤ 1 := by omega
    have bound := Int.mul_le_mul_of_nonneg_left one (Int.le_of_lt positive)
    omega
  have bound := Int.mul_le_mul_of_nonneg_left more (Int.le_of_lt positive)
  omega

section Stored

variable {start size place r : Int}

/-- The address for a remainder. -/
def storedAt (start size r : Int) : Int :=
  if r < 2147483648 then start + r else (start + r + size) % 4294967296

/-- A place before the start is moved by 2^32. -/
theorem storedAt_back_iff (first : 0 ≤ start) (fits : start + size < 4294967296)
    (low : -2147483648 ≤ place) (negative : place < 0) (nonneg : 0 ≤ r) (below : r < size)
    (remainder : r = (place + 4294967296) % size) :
    storedAt start size r = start + place % size ↔
      size ∣ 4294967296 ∨ place + 4294967296 < size := by
  have placed := Int.emod_nonneg place (by omega : size ≠ 0)
  have bounded := Int.emod_lt_of_pos place (by omega : 0 < size)
  rw [storedAt]
  by_cases short : place + 4294967296 < size
  · -- the sum is below the size, and the two moves by 2^32 cancel
    have kept : r = place + 4294967296 := by
      rw [remainder, Int.emod_eq_of_lt (by omega) short]
    have turned : place % size = place + size := by
      rw [← Int.add_emod_right, Int.emod_eq_of_lt (by omega) (by omega)]
    rw [if_neg (by omega)]
    refine ⟨fun _ => .inr short, fun _ => ?_⟩
    omega
  · by_cases divides : size ∣ 4294967296
    · have small := le_of_dvd_word (by omega) (by omega) divides
      have same : r = place % size := by
        obtain ⟨count, whole⟩ := divides
        rw [remainder, whole, Int.add_mul_emod_self_left]
      rw [if_pos (by omega), same]
      exact ⟨fun _ => .inl divides, fun _ => rfl⟩
    · have small : r < 2147483648 := by
        by_contra large
        have once : r = place + 4294967296 - size := by
          rw [remainder, ← Int.sub_emod_right, Int.emod_eq_of_lt (by omega) (by omega)]
        omega
      rw [if_pos small]
      constructor
      · intro same
        have equal : (place + 4294967296) % size = place % size := by omega
        have difference := Int.emod_eq_emod_iff_emod_sub_eq_zero.mp equal
        rw [Int.add_comm, Int.add_sub_cancel] at difference
        exact absurd (Int.dvd_of_emod_eq_zero difference) divides
      · rintro (found | found)
        · exact absurd found divides
        · exact absurd found short

/-- A place that is not moved is reached if its remainder is an `int`. -/
theorem storedAt_same_iff (first : 0 ≤ start) (fits : start + size < 4294967296)
    (below : r < size) : storedAt start size r = start + r ↔ r < 2147483648 := by
  rw [storedAt]
  constructor
  · intro equal
    by_contra large
    rw [if_neg large] at equal
    omega
  · intro small
    rw [if_pos small]

/-- A place from 2^32 on is moved back by 2^32, and missed. -/
theorem storedAt_beyond (first : 0 ≤ start) (fits : start + size < 4294967296)
    (large : 4294967296 ≤ place) (high : place < size + 2147483648)
    (remainder : r = (place - 4294967296) % size) :
    storedAt start size r ≠ start + place % size := by
  have kept : r = place - 4294967296 := by
    rw [remainder, Int.emod_eq_of_lt (by omega) (by omega)]
  have turned : place % size = place - size := by
    rw [← Int.sub_emod_right, Int.emod_eq_of_lt (by omega) (by omega)]
  rw [storedAt, if_pos (by omega)]
  omega

end Stored

/-- The handle goes to the place, counted round the log, exactly when the place is not moved
by 2^32 under the remainder, or the log fills 2^32 in whole turns. -/
theorem seeksTo_iff (addressed : handle.Addressed) (origin : handle.startAddr ≤ originAddr)
    (inside : originAddr ≤ handle.startAddr + handle.logSize) :
    SeeksTo handle seekOffset originAddr ↔ SeekInRange handle seekOffset originAddr := by
  obtain ⟨low, high⟩ := seekPlace_bounds seekOffset origin inside
  have fits : (handle.startAddr : Int) + handle.logSize < 4294967296 := by
    have bound := addressed.fits
    omega
  obtain ⟨moved, r, seeks, remainder, nonneg, below, addr⟩ :=
    iotLogFileSeekOffset_eq seekOffset originAddr addressed
  rw [← storedAt] at addr
  have first : (0 : Int) ≤ handle.startAddr := Int.natCast_nonneg _
  have target : SeeksTo handle seekOffset originAddr ↔ (moved.curAddr : Int) =
      handle.startAddr + seekPlace handle seekOffset originAddr % handle.logSize := by
    simp only [SeeksTo, seeks, Option.some.injEq, exists_eq_left']
  rw [target, addr, SeekInRange]
  clear target addr seeks
  generalize seekPlace handle seekOffset originAddr = place at *
  by_cases negative : place < 0
  · have sum : place % 4294967296 = place + 4294967296 := by omega
    rw [sum] at remainder
    rw [storedAt_back_iff first fits low negative nonneg below remainder]
    constructor
    · exact fun found => .inr ⟨negative, found⟩
    · exact fun found => (found.resolve_left fun other => absurd negative (by omega)).2
  · by_cases large : place < 4294967296
    · have sum : place % 4294967296 = place := Int.emod_eq_of_lt (by omega) large
      rw [sum] at remainder
      rw [← remainder, storedAt_same_iff first fits below]
      constructor
      · exact fun small => .inl ⟨by omega, large, small⟩
      · exact fun found => (found.resolve_right fun other => negative other.1).2.2
    · have sum : place % 4294967296 = place - 4294967296 := by omega
      rw [sum] at remainder
      refine iff_of_false (storedAt_beyond first fits (by omega) high remainder) ?_
      rintro (⟨-, found, -⟩ | ⟨found, -⟩)
      · exact absurd found large
      · exact absurd found negative

/-- A log of 4096 bytes of flash that is full and was written up to its end. -/
def fullFlashLog : Handle := ⟨24, 24, 24, 4072, 4072, .flashWithRam⟩

theorem fullFlashLog_addressed : fullFlashLog.Addressed := ⟨by decide, by decide⟩

/-- Sixteen bytes on from the tail. -/
theorem seeksTo_iff_forward : SeeksTo fullFlashLog 16 24 :=
  (seeksTo_iff fullFlashLog_addressed (Nat.le_refl 24) (by decide)).mpr
    (.inl ⟨by decide, by decide, by decide⟩)

/-- Sixteen bytes back from the tail: the new offset is 848 and not 4056. -/
theorem seek_back_misses :
    (iotLogFileSeekOffset fullFlashLog (-16) 24).map Handle.curAddr = some (24 + 848) ∧
      ¬ SeeksTo fullFlashLog (-16) 24 := by
  refine ⟨by decide, ?_⟩
  rintro ⟨moved, seeks, addr⟩
  obtain rfl := Option.some.inj seeks
  exact absurd addr (by decide)

/-- The function for a place some bytes before the origin is the one for an `int`, for a log of
up to 2^31 bytes. -/
theorem iotLogFileSeekOffset_back (addressed : handle.Addressed)
    (small : handle.logSize ≤ 2147483648) (origin : handle.startAddr ≤ originAddr) {back : Nat}
    (inside : originAddr ≤ handle.startAddr + handle.logSize) (few : back ≤ handle.logSize) :
    iotLogFileSeekOffset handle (Int32.ofInt (-back)) originAddr =
      some (iotLogFileSeek handle back originAddr) := by
  have positive := addressed.nonempty
  have fits := addressed.fits
  have offset : (Int32.ofInt (-back)).toInt = -back :=
    Int32.toInt_ofInt_of_le (by omega) (by omega)
  have sum : ((originAddr : Int) - handle.startAddr + -back) % 4294967296 =
      ((originAddr - handle.startAddr + 4294967296 - back) % 4294967296 : Nat) := by omega
  have below : (originAddr - handle.startAddr + 4294967296 - back) % 4294967296 % handle.logSize <
      handle.logSize := Nat.mod_lt _ positive
  rw [iotLogFileSeekOffset, if_neg (by omega), iotLogFileSeek, if_neg (by omega), offset, sum]
  simp only [← Int.natCast_emod]
  generalize (originAddr - handle.startAddr + 4294967296 - back) % 4294967296 %
    handle.logSize = r at *
  have kept : (r : Int).bmod 4294967296 = r := by
    rw [Int.bmod_def]
    omega
  have addr : (((handle.startAddr : Int) + r) % 4294967296).toNat = handle.startAddr + r := by
    omega
  simp only [kept, if_neg (by omega : ¬ (r : Int) < 0), addr]

end StDevice.LogFile
