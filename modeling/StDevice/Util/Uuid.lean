import Mathlib.Data.List.GetD
import StDevice.Delivered.Device
import StDevice.Foundation.Hex
import StDevice.NvData.ProvData

/-!
# UUIDs as text

`iot_util_convert_str_uuid` checks the text with `validate_uuid_format`, then collects the
nibbles with two running counters; `iot_util_convert_uuid_str` prints the bytes and looks
up in a template where the hyphens stand. Both sides meet in the groups of a text
(`UuidGroups`): the check accepts the groups over the characters of `_ishex`, and the
loop reads the 32 digits of the groups two by two.

`_ishex` takes the capital letters up to Z for digits. The switch of the loop has no case
for those behind F, so that such a text is read without them.
-/

namespace StDevice.Util

open NvData
open Delivered (isHex isHexLen validateUuidFormat)

/-- `struct iot_uuid`. -/
structure IotUuid where
  id : List UInt8
  size : id.length = 16

/-- `uuid->id[j] = c`. -/
def IotUuid.store (uuid : IotUuid) (j : Nat) (c : UInt8) : IotUuid :=
  ⟨uuid.id.set j c, by rw [List.length_set, uuid.size]⟩

/-- The bits that the switch of `iot_util_convert_str_uuid` adds for a letter. -/
def letterBits (ch : UInt8) : UInt8 :=
  if ch = 65 ∨ ch = 97 then 0x0a
  else if ch = 66 ∨ ch = 98 then 0x0b
  else if ch = 67 ∨ ch = 99 then 0x0c
  else if ch = 68 ∨ ch = 100 then 0x0d
  else if ch = 69 ∨ ch = 101 then 0x0e
  else if ch = 70 ∨ ch = 102 then 0x0f
  else 0

/-- The bits that a character other than a hyphen adds to `c`. -/
def nibbleBits (ch : UInt8) : UInt8 := if isAlpha ch then letterBits ch else ch - 48

/-- The local variables of the loop, and what is stored so far. -/
structure Nibbles where
  j : Nat
  k : Nat
  c : UInt8
  uuid : IotUuid

/-- The loop body of `iot_util_convert_str_uuid`. -/
def Nibbles.step (n : Nibbles) (ch : UInt8) : Nibbles :=
  if ch = 45 then n
  else
    let c := n.c ||| nibbleBits ch
    if (n.j + 1) * 2 = n.k then
      { j := n.j + 1, k := n.k + 1, c := 0, uuid := n.uuid.store n.j c }
    else { n with k := n.k + 1, c := c <<< 4 }

/-- `iot_util_convert_str_uuid`, where `none` stands for an error and for a NULL pointer. -/
def iotUtilConvertStrUuid : Option (List UInt8) → Option IotUuid → Option IotUuid
  | some str, some uuid =>
      if validateUuidFormat str then
        some ((str.take 36).foldl Nibbles.step ⟨0, 1, 0, uuid⟩).uuid
      else none
  | _, _ => none

/-- `ref_id`. -/
def refId : List UInt8 := CString.ascii "42365732-c6db-4bc9-8945-2a7ca10d6f23"

/-- The loop body of `iot_util_convert_uuid_str`: two digits and, where the template has
one, a hyphen. -/
def printByte (written : List UInt8) (b : UInt8) : List UInt8 :=
  let text := written ++ Hex.pair b
  if refId.getD text.length 0 = 45 then text ++ [45] else text

/-- `iot_util_convert_uuid_str`: the text in front of the NUL. -/
def iotUtilConvertUuidStr (uuid : IotUuid) (maxSz : Nat) : Option (List UInt8) :=
  if maxSz < refId.length + 1 then none else some (uuid.id.foldl printByte [])

/-! ## The groups of a text -/

/-- The groups 8-4-4-4-12 with the version in front of the third. -/
structure UuidGroups (digit : UInt8 → Prop) where
  timeLow : List UInt8
  timeMid : List UInt8
  version : UInt8
  timeHi : List UInt8
  clockSeq : List UInt8
  node : List UInt8
  length_timeLow : timeLow.length = 8
  length_timeMid : timeMid.length = 4
  length_timeHi : timeHi.length = 3
  length_clockSeq : clockSeq.length = 4
  length_node : node.length = 12
  versioned : 49 ≤ version ∧ version ≤ 53
  digits : ∀ c ∈ timeLow ++ (timeMid ++ (timeHi ++ (clockSeq ++ node))), digit c

namespace UuidGroups

variable {digit : UInt8 → Prop}

def text (g : UuidGroups digit) : List UInt8 :=
  g.timeLow ++ 45 :: (g.timeMid ++ 45 :: (g.version :: g.timeHi ++
    45 :: (g.clockSeq ++ 45 :: g.node)))

/-- The text without its hyphens. -/
def all (g : UuidGroups digit) : List UInt8 :=
  g.timeLow ++ (g.timeMid ++ (g.version :: g.timeHi ++ (g.clockSeq ++ g.node)))

theorem length_all (g : UuidGroups digit) : g.all.length = 32 := by
  simp [all, g.length_timeLow, g.length_timeMid, g.length_timeHi, g.length_clockSeq,
    g.length_node]

theorem length_text (g : UuidGroups digit) : g.text.length = 36 := by
  simp [text, g.length_timeLow, g.length_timeMid, g.length_timeHi, g.length_clockSeq,
    g.length_node]

theorem mem_all {g : UuidGroups digit} {c : UInt8} (inside : c ∈ g.all) :
    digit c ∨ c = g.version := by
  have cases : c ∈ g.timeLow ++ (g.timeMid ++ (g.timeHi ++ (g.clockSeq ++ g.node))) ∨
      c = g.version := by
    simp only [all, List.mem_append, List.mem_cons, List.cons_append] at inside ⊢
    tauto
  exact cases.imp_left (g.digits c)

theorem mem_text {g : UuidGroups digit} {c : UInt8} (inside : c ∈ g.text) :
    c = 45 ∨ c ∈ g.all := by
  simp only [text, all, List.mem_append, List.mem_cons, List.cons_append] at inside ⊢
  tauto

theorem mem_text_of_mem_all (g : UuidGroups digit) {c : UInt8} (inside : c ∈ g.all) :
    c ∈ g.text := by
  simp only [text, all, List.mem_append, List.mem_cons, List.cons_append] at inside ⊢
  tauto

/-- The same groups over a wider class of digits. -/
def widen {wider : UInt8 → Prop} (g : UuidGroups digit) (wide : ∀ c ∈ g.all, wider c) :
    UuidGroups wider where
  __ := g
  digits c inside := wide c (by
    simp only [all, List.mem_append, List.mem_cons, List.cons_append] at inside ⊢
    tauto)

@[simp] theorem text_widen {wider : UInt8 → Prop} (g : UuidGroups digit)
    (wide : ∀ c ∈ g.all, wider c) : (g.widen wide).text = g.text :=
  rfl

@[simp] theorem all_widen {wider : UInt8 → Prop} (g : UuidGroups digit)
    (wide : ∀ c ∈ g.all, wider c) : (g.widen wide).all = g.all :=
  rfl

end UuidGroups

/-- The text has the form 8-4-4-4-12 over these digits, with a version from 1 to 5. -/
def UuidForm (digit : UInt8 → Prop) (str : List UInt8) : Prop :=
  ∃ groups : UuidGroups digit, groups.text = str

/-! ## The check -/

private theorem isHexLen_iff {str : List UInt8} {pos len : Nat} (inside : pos + len ≤ str.length) :
    isHexLen str pos len = true ↔ ∀ c ∈ (str.drop pos).take len, isHex c = true := by
  have cell (i : Nat) (small : i < len) :
      ((str.drop pos).take len)[i]? = some (str.getD (pos + i) 0) := by
    rw [List.getElem?_take_of_lt small, List.getElem?_drop, List.getD_eq_getElem?_getD,
      List.getElem?_eq_getElem (by omega), Option.getD_some]
  simp only [isHexLen, List.all_eq_true, List.mem_range]
  constructor
  · intro holds c member
    obtain ⟨i, found⟩ := List.mem_iff_getElem?.mp member
    have small : i < len := by
      have bound := (List.getElem?_eq_some_iff.mp found).1
      rw [List.length_take] at bound
      omega
    rw [cell i small] at found
    rw [← Option.some.inj found]
    exact holds i small
  · intro holds i small
    exact holds _ (List.mem_iff_getElem?.mpr ⟨i, cell i small⟩)

/-- The text from `i` on, cut at the hyphen behind a group of `n`. -/
private theorem drop_group {str : List UInt8} (i n : Nat) (inside : i + n < str.length)
    (hyphen : str.getD (i + n) 0 = 45) :
    str.drop i = (str.drop i).take n ++ 45 :: str.drop (i + n + 1) := by
  have rest : str.drop (i + n) = 45 :: str.drop (i + n + 1) := by
    rw [List.drop_eq_getElem_cons inside, ← hyphen, List.getD_eq_getElem _ _ inside]
  rw [← rest, ← List.drop_drop, List.take_append_drop]

private theorem drop_behind {group : List UInt8} {len : Nat} (size : group.length = len)
    (c : UInt8) (rest : List UInt8) : (group ++ c :: rest).drop (len + 1) = rest := by
  rw [← size, ← List.drop_drop, List.drop_left, List.drop_one, List.tail_cons]

private theorem getD_behind {group : List UInt8} {len : Nat} (size : group.length = len)
    (c : UInt8) (rest : List UInt8) : (group ++ c :: rest).getD len 0 = c := by
  rw [← size, List.getD_append_right _ _ _ _ (Nat.le_refl _), Nat.sub_self, List.getD_cons_zero]

theorem form_of_validate {str : List UInt8} (valid : validateUuidFormat str = true) :
    UuidForm (fun c => isHex c = true) str := by
  simp only [validateUuidFormat, Bool.and_eq_true, beq_iff_eq, decide_eq_true_eq] at valid
  obtain ⟨⟨⟨⟨⟨⟨⟨⟨⟨⟨size, low⟩, first⟩, mid⟩, second⟩, version⟩, hi⟩, third⟩, clock⟩, fourth⟩,
    node⟩ := valid
  rw [isHexLen_iff (by omega)] at low mid hi clock node
  have head : str.drop 14 = str.getD 14 0 :: str.drop 15 := by
    rw [List.drop_eq_getElem_cons (by omega), List.getD_eq_getElem _ _ (by omega)]
  refine ⟨⟨(str.drop 0).take 8, (str.drop 9).take 4, str.getD 14 0, (str.drop 15).take 3,
    (str.drop 19).take 4, (str.drop 24).take 12, ?_, ?_, ?_, ?_, ?_, version, ?_⟩, ?_⟩
  · simp [size]
  · simp [size]
  · simp [size]
  · simp [size]
  · simp [size]
  · simp only [List.mem_append]
    rintro c (inside | inside | inside | inside | inside)
    · exact low c inside
    · exact mid c inside
    · exact hi c inside
    · exact clock c inside
    · exact node c inside
  · have last : (str.drop 24).take 12 = str.drop 24 := List.take_of_length_le (by simp [size])
    simp only [UuidGroups.text, last]
    rw [← drop_group 19 4 (by omega) fourth, List.cons_append,
      ← drop_group 15 3 (by omega) third, ← head,
      ← drop_group 9 4 (by omega) second,
      ← drop_group 0 8 (by omega) first, List.drop_zero]

theorem validate_of_form {str : List UInt8} (form : UuidForm (fun c => isHex c = true) str) :
    validateUuidFormat str = true := by
  obtain ⟨g, rfl⟩ := form
  have hex {group : List UInt8} (sub : ∀ c ∈ group, c ∈ g.timeLow ++ (g.timeMid ++ (g.timeHi ++
      (g.clockSeq ++ g.node)))) : ∀ c ∈ group, isHex c = true :=
    fun c inside => g.digits c (sub c inside)
  have behindLow : g.text.drop 9 = g.timeMid ++ 45 :: (g.version :: g.timeHi ++
      45 :: (g.clockSeq ++ 45 :: g.node)) := drop_behind g.length_timeLow _ _
  have behindMid : g.text.drop 14 = g.version :: (g.timeHi ++
      45 :: (g.clockSeq ++ 45 :: g.node)) := by
    rw [← List.drop_drop (i := 5) (j := 9), behindLow, drop_behind g.length_timeMid]
    rfl
  have behindVersion : g.text.drop 15 = g.timeHi ++ 45 :: (g.clockSeq ++ 45 :: g.node) := by
    rw [← List.drop_drop (i := 1) (j := 14), behindMid]
    rfl
  have behindHi : g.text.drop 19 = g.clockSeq ++ 45 :: g.node := by
    rw [← List.drop_drop (i := 4) (j := 15), behindVersion, drop_behind g.length_timeHi]
  have behindClock : g.text.drop 24 = g.node := by
    rw [← List.drop_drop (i := 5) (j := 19), behindHi, drop_behind g.length_clockSeq]
  have getD_drop (i n : Nat) : g.text.getD (i + n) 0 = (g.text.drop i).getD n 0 := by
    rw [List.getD_eq_getElem?_getD, List.getD_eq_getElem?_getD, List.getElem?_drop]
  have size := g.length_text
  simp only [validateUuidFormat, Bool.and_eq_true, beq_iff_eq, decide_eq_true_eq]
  refine ⟨⟨⟨⟨⟨⟨⟨⟨⟨⟨size, ?_⟩, ?_⟩, ?_⟩, ?_⟩, ?_⟩, ?_⟩, ?_⟩, ?_⟩, ?_⟩, ?_⟩
  · rw [isHexLen_iff (by omega), List.drop_zero, UuidGroups.text, List.take_left' g.length_timeLow]
    exact hex fun c inside => by simp [inside]
  · exact getD_behind g.length_timeLow _ _
  · rw [isHexLen_iff (by omega), behindLow, List.take_left' g.length_timeMid]
    exact hex fun c inside => by simp [inside]
  · rw [getD_drop 9 4, behindLow, getD_behind g.length_timeMid]
  · rw [getD_drop 14 0, behindMid]
    exact g.versioned
  · rw [isHexLen_iff (by omega), behindVersion, List.take_left' g.length_timeHi]
    exact hex fun c inside => by simp [inside]
  · rw [getD_drop 15 3, behindVersion, getD_behind g.length_timeHi]
  · rw [isHexLen_iff (by omega), behindHi, List.take_left' g.length_clockSeq]
    exact hex fun c inside => by simp [inside]
  · rw [getD_drop 19 4, behindHi, getD_behind g.length_clockSeq]
  · rw [isHexLen_iff (by omega), behindClock, List.take_of_length_le (by rw [g.length_node])]
    exact hex fun c inside => by simp [inside]

/-- The check accepts the form over the characters of `_ishex`. -/
theorem validate_iff (str : List UInt8) :
    validateUuidFormat str = true ↔ UuidForm (fun c => isHex c = true) str :=
  ⟨form_of_validate, validate_of_form⟩

/-! ## The loop -/

@[simp] theorem IotUuid.id_store (uuid : IotUuid) (j : Nat) (c : UInt8) :
    (uuid.store j c).id = uuid.id.set j c :=
  rfl

/-- Hyphens are skipped. -/
private theorem foldl_step_filter (str : List UInt8) (n : Nibbles) :
    str.foldl Nibbles.step n = (str.filter (· ≠ 45)).foldl Nibbles.step n := by
  induction str generalizing n with
  | nil => rfl
  | cons ch str ih =>
      by_cases hyphen : ch = 45
      · rw [List.filter_cons_of_neg (by simpa using hyphen), ← ih, List.foldl_cons, Nibbles.step,
          if_pos hyphen]
      · rw [List.filter_cons_of_pos (by simpa using hyphen), List.foldl_cons, List.foldl_cons, ih]

/-- The byte of every two characters, as the loop makes it. -/
def loopBytes : List UInt8 → List UInt8
  | high :: low :: rest => Hex.join (nibbleBits high) (nibbleBits low) :: loopBytes rest
  | _ => []

/-- Two characters at an even count are one byte. -/
private theorem step_step (j : Nat) (uuid : IotUuid) {high low : UInt8} (first : high ≠ 45)
    (second : low ≠ 45) :
    (Nibbles.step ⟨j, 2 * j + 1, 0, uuid⟩ high).step low =
      ⟨j + 1, 2 * (j + 1) + 1, 0, uuid.store j (Hex.join (nibbleBits high) (nibbleBits low))⟩ := by
  have odd : (j + 1) * 2 ≠ 2 * j + 1 := by omega
  have even : (j + 1) * 2 = 2 * j + 1 + 1 := by omega
  simp only [Nibbles.step, if_neg first, if_neg second, if_neg odd, if_pos even, UInt8.zero_or]
  rfl

/-- From an even count on the loop stores its bytes one behind the other. -/
private theorem foldl_step_pairs {digits : List UInt8} (plain : ∀ c ∈ digits, c ≠ 45) (j : Nat)
    (uuid : IotUuid) (even : digits.length % 2 = 0) (room : j + digits.length / 2 ≤ 16) :
    (digits.foldl Nibbles.step ⟨j, 2 * j + 1, 0, uuid⟩).uuid.id =
      uuid.id.take j ++ loopBytes digits ++ uuid.id.drop (j + digits.length / 2) := by
  induction digits using loopBytes.induct generalizing j uuid with
  | case1 high low rest ih =>
      simp only [List.length_cons] at even room
      have behind : j + 1 + rest.length / 2 = j + (rest.length + 1 + 1) / 2 := by omega
      have inside : j < uuid.id.length := by
        rw [uuid.size]
        omega
      have front (c : UInt8) : (uuid.id.set j c).take (j + 1) = uuid.id.take j ++ [c] := by
        rw [List.take_add_one, List.take_set_of_le (Nat.le_refl j), List.getElem?_set_self inside]
        rfl
      rw [List.foldl_cons, List.foldl_cons,
        step_step j uuid (plain high (by simp)) (plain low (by simp)),
        ih (fun c member => plain c (by simp [member])) (j + 1) _ (by omega) (by omega),
        IotUuid.id_store, front, List.drop_set_of_lt (by omega), behind, List.length_cons,
        List.length_cons, loopBytes]
      simp only [List.append_assoc, List.cons_append, List.nil_append]
  | case2 digits short =>
      cases digits with
      | nil => simp [loopBytes]
      | cons high digits =>
          cases digits with
          | nil => exact absurd even (by simp)
          | cons low rest => exact (short high low rest rfl).elim

private theorem isHex_ne_hyphen {c : UInt8} (hex : isHex c = true) : c ≠ 45 := by
  rintro rfl
  exact absurd hex (by decide)

private theorem version_isDigit {c : UInt8} (versioned : 49 ≤ c ∧ c ≤ 53) : Hex.IsDigit c := by
  unfold Hex.IsDigit
  grind

theorem isHex_of_isDigit {c : UInt8} (digit : Hex.IsDigit c) : isHex c = true := by
  unfold Hex.IsDigit at digit
  simp only [isHex, Bool.or_eq_true, Bool.and_eq_true, decide_eq_true_eq]
  grind

theorem nibbleBits_of_isDigit {c : UInt8} (digit : Hex.IsDigit c) :
    nibbleBits c = Hex.value c := by
  unfold Hex.IsDigit at digit
  simp only [nibbleBits, isAlpha, letterBits, Hex.value, Bool.or_eq_true, Bool.and_eq_true,
    decide_eq_true_eq]
  grind

theorem loopBytes_of_isDigit {digits : List UInt8} (hex : ∀ c ∈ digits, Hex.IsDigit c) :
    loopBytes digits = Hex.bytes digits := by
  induction digits using loopBytes.induct with
  | case1 high low rest ih =>
      rw [loopBytes, Hex.bytes, ih fun c inside => hex c (by simp [inside]),
        nibbleBits_of_isDigit (hex high (by simp)), nibbleBits_of_isDigit (hex low (by simp))]
  | case2 digits short =>
      cases digits with
      | nil => rfl
      | cons high digits =>
          cases digits with
          | nil => rfl
          | cons low rest => exact (short high low rest rfl).elim

namespace UuidGroups

theorem filter_text {digit : UInt8 → Prop} (g : UuidGroups digit) (plain : ∀ c ∈ g.all, c ≠ 45) :
    g.text.filter (· ≠ 45) = g.all := by
  have kept (group : List UInt8) (sub : ∀ c ∈ group, c ∈ g.all) :
      group.filter (· ≠ 45) = group :=
    List.filter_eq_self.mpr fun c inside => by simpa using plain c (sub c inside)
  have gone (rest : List UInt8) : (45 :: rest).filter (· ≠ 45) = rest.filter (· ≠ 45) :=
    List.filter_cons_of_neg (by decide)
  simp only [text, List.filter_append, gone]
  rw [kept g.timeLow fun c inside => by simp [all, inside],
    kept g.timeMid fun c inside => by simp [all, inside],
    kept (g.version :: g.timeHi) fun c inside => by
      simp only [all, List.mem_append]
      exact .inr (.inr (.inl inside)),
    kept g.clockSeq fun c inside => by simp [all, inside],
    kept g.node fun c inside => by simp [all, inside]]
  rfl

theorem isHex_all (g : UuidGroups fun c => isHex c = true) (c : UInt8) (inside : c ∈ g.all) :
    isHex c = true := by
  obtain hex | rfl := mem_all inside
  · exact hex
  · exact isHex_of_isDigit (version_isDigit g.versioned)

theorem isDigit_all (g : UuidGroups Hex.IsDigit) (c : UInt8) (inside : c ∈ g.all) :
    Hex.IsDigit c := by
  obtain digit | rfl := mem_all inside
  · exact digit
  · exact version_isDigit g.versioned

end UuidGroups

/-- A text in the form is read: every two of its characters are a byte. -/
theorem convert_groups (g : UuidGroups fun c => isHex c = true) (uuid : IotUuid) :
    ∃ parsed, iotUtilConvertStrUuid (some g.text) (some uuid) = some parsed ∧
      parsed.id = loopBytes g.all := by
  have valid : validateUuidFormat g.text = true := validate_of_form ⟨g, rfl⟩
  have plain : ∀ c ∈ g.all, c ≠ 45 := fun c inside => isHex_ne_hyphen (g.isHex_all c inside)
  have size := g.length_all
  refine ⟨_, by rw [iotUtilConvertStrUuid, if_pos valid], ?_⟩
  have ending : uuid.id.drop (0 + g.all.length / 2) = [] :=
    List.drop_of_length_le (by rw [size, uuid.size])
  rw [List.take_of_length_le (by rw [g.length_text]), foldl_step_filter, g.filter_text plain]
  rw [show (⟨0, 1, 0, uuid⟩ : Nibbles) = ⟨0, 2 * 0 + 1, 0, uuid⟩ from rfl,
    foldl_step_pairs plain 0 uuid (by rw [size]) (by rw [size]), ending, List.take_zero,
    List.nil_append, List.append_nil]

/-! ## Printing -/

/-- The digits with hyphens between the groups. -/
def hyphenate (digits : List UInt8) : List UInt8 :=
  digits.take 8 ++ 45 :: ((digits.drop 8).take 4 ++ 45 :: ((digits.drop 12).take 4 ++
    45 :: ((digits.drop 16).take 4 ++ 45 :: digits.drop 20)))

theorem hyphenate_map_lower (digits : List UInt8) :
    hyphenate (digits.map Hex.lower) = (hyphenate digits).map Hex.lower := by
  have hyphen : Hex.lower 45 = 45 := by decide
  simp only [hyphenate, List.map_append, List.map_cons, List.map_take, List.map_drop, hyphen]

theorem hyphenate_all {digit : UInt8 → Prop} (g : UuidGroups digit) :
    hyphenate g.all = g.text := by
  have behindLow : g.all.drop 8 =
      g.timeMid ++ (g.version :: g.timeHi ++ (g.clockSeq ++ g.node)) :=
    List.drop_left' g.length_timeLow
  have behindMid : g.all.drop 12 = g.version :: g.timeHi ++ (g.clockSeq ++ g.node) := by
    rw [← List.drop_drop (i := 4) (j := 8), behindLow, List.drop_left' g.length_timeMid]
  have sizeHi : (g.version :: g.timeHi).length = 4 := by rw [List.length_cons, g.length_timeHi]
  have behindHi : g.all.drop 16 = g.clockSeq ++ g.node := by
    rw [← List.drop_drop (i := 4) (j := 12), behindMid, List.drop_left' sizeHi]
  have behindClock : g.all.drop 20 = g.node := by
    rw [← List.drop_drop (i := 4) (j := 16), behindHi, List.drop_left' g.length_clockSeq]
  rw [hyphenate, behindLow, behindMid, behindHi, behindClock, UuidGroups.all,
    List.take_left' g.length_timeLow, List.take_left' g.length_timeMid, List.take_left' sizeHi,
    List.take_left' g.length_clockSeq]
  rfl

private theorem length_pairs (data : List UInt8) :
    (data.flatMap Hex.pair).length = 2 * data.length := by
  induction data with
  | nil => rfl
  | cons b data ih =>
      rw [List.flatMap_cons, List.length_append, ih, List.length_cons]
      simp only [Hex.pair, List.length_cons, List.length_nil]
      omega

private theorem take_pairs (data : List UInt8) (n : Nat) :
    (data.flatMap Hex.pair).take (2 * n) = (data.take n).flatMap Hex.pair := by
  induction n generalizing data with
  | zero => rfl
  | succ n ih =>
      cases data with
      | nil => rfl
      | cons b data => exact congrArg (Hex.pair b ++ ·) (ih data)

private theorem drop_pairs (data : List UInt8) (n : Nat) :
    (data.flatMap Hex.pair).drop (2 * n) = (data.drop n).flatMap Hex.pair := by
  induction n generalizing data with
  | zero => rfl
  | succ n ih =>
      cases data with
      | nil => rfl
      | cons b data => exact ih data

/-- Inside a group only digits are written. -/
private theorem foldl_printByte_inside (data written : List UInt8)
    (quiet : ∀ i < data.length, refId.getD (written.length + 2 * i + 2) 0 ≠ 45) :
    data.foldl printByte written = written ++ data.flatMap Hex.pair := by
  induction data generalizing written with
  | nil => rw [List.foldl_nil, List.flatMap_nil, List.append_nil]
  | cons b data ih =>
      have size : (written ++ Hex.pair b).length = written.length + 2 := List.length_append
      have digits : printByte written b = written ++ Hex.pair b := by
        have here := quiet 0 (Nat.succ_pos _)
        rw [printByte, size, if_neg here]
      rw [List.foldl_cons, digits, ih, List.append_assoc, List.flatMap_cons]
      intro i inside
      have later := quiet (i + 1) (Nat.succ_lt_succ inside)
      rwa [size, show written.length + 2 + 2 * i = written.length + 2 * (i + 1) by omega]

/-- A group, and the hyphen that the template has behind it. -/
private theorem foldl_printByte_group (w n : Nat) (data written : List UInt8)
    (start : written.length = w) (size : data.length = n + 1)
    (quiet : ∀ i < n, refId.getD (w + 2 * i + 2) 0 ≠ 45)
    (hyphen : refId.getD (w + 2 * n + 2) 0 = 45) :
    data.foldl printByte written = written ++ data.flatMap Hex.pair ++ [45] ∧
      (written ++ data.flatMap Hex.pair ++ [45]).length = w + 2 * n + 3 := by
  subst start
  obtain rfl | ⟨front, last, rfl⟩ := data.eq_nil_or_concat
  · cases size
  · rw [List.concat_eq_append, List.length_append, List.length_singleton,
      Nat.add_right_cancel_iff] at size
    have digits := foldl_printByte_inside front written fun i inside => quiet i (size ▸ inside)
    have length : (written ++ front.flatMap Hex.pair ++ Hex.pair last).length =
        written.length + 2 * n + 2 := by
      rw [List.length_append, List.length_append, length_pairs, size]
      rfl
    have joined : written ++ (front.concat last).flatMap Hex.pair =
        written ++ front.flatMap Hex.pair ++ Hex.pair last := by
      rw [List.concat_eq_append, List.flatMap_append, List.flatMap_singleton, List.append_assoc]
    constructor
    · rw [joined, List.concat_eq_append, List.foldl_append, digits, List.foldl_cons,
        List.foldl_nil, printByte, length, if_pos hyphen]
    · rw [joined, List.length_append, length, List.length_singleton]

/-- The template puts the hyphens between the groups. -/
theorem convert_uuid_eq (uuid : IotUuid) {maxSz : Nat} (room : 37 ≤ maxSz) :
    iotUtilConvertUuidStr uuid maxSz = some (hyphenate (uuid.id.flatMap Hex.pair)) := by
  have enough : ¬ maxSz < refId.length + 1 := by
    have size : refId.length = 36 := by decide
    omega
  have split : uuid.id = uuid.id.take 4 ++ ((uuid.id.drop 4).take 2 ++ ((uuid.id.drop 6).take 2 ++
      ((uuid.id.drop 8).take 2 ++ uuid.id.drop 10))) := by
    rw [← List.drop_drop (i := 2) (j := 8), List.take_append_drop,
      ← List.drop_drop (i := 2) (j := 6), List.take_append_drop,
      ← List.drop_drop (i := 2) (j := 4), List.take_append_drop, List.take_append_drop]
  have size := uuid.size
  obtain ⟨low, lengthLow⟩ := foldl_printByte_group 0 3 (uuid.id.take 4) [] rfl
    (by simp [size]) (by decide) (by decide)
  obtain ⟨mid, lengthMid⟩ := foldl_printByte_group 9 1 ((uuid.id.drop 4).take 2) _ lengthLow
    (by simp [size]) (by decide) (by decide)
  obtain ⟨hi, lengthHi⟩ := foldl_printByte_group 14 1 ((uuid.id.drop 6).take 2) _ lengthMid
    (by simp [size]) (by decide) (by decide)
  obtain ⟨clock, lengthClock⟩ := foldl_printByte_group 19 1 ((uuid.id.drop 8).take 2) _ lengthHi
    (by simp [size]) (by decide) (by decide)
  have node := foldl_printByte_inside (uuid.id.drop 10) _ (by
    rw [lengthClock, List.length_drop, size]
    decide)
  rw [iotUtilConvertUuidStr, if_neg enough]
  congr 1
  conv_lhs => rw [split]
  rw [List.foldl_append, List.foldl_append, List.foldl_append, List.foldl_append, low, mid, hi,
    clock, node, hyphenate, take_pairs _ 4, drop_pairs _ 4, drop_pairs _ 6, drop_pairs _ 8,
    drop_pairs _ 10, take_pairs _ 2, take_pairs _ 2, take_pairs _ 2]
  simp only [List.append_assoc, List.nil_append, List.cons_append]

/-- The first digit of the third group is the high half of the seventh byte. -/
private theorem version_digit (uuid : IotUuid) :
    (uuid.id.flatMap Hex.pair).drop 12 =
      Hex.digit (uuid.id.getD 6 0 >>> 4) :: (uuid.id.flatMap Hex.pair).drop 13 := by
  obtain ⟨id, size⟩ := uuid
  rcases id with _ | ⟨b0, _ | ⟨b1, _ | ⟨b2, _ | ⟨b3, _ | ⟨b4, _ | ⟨b5, _ | ⟨b6, rest⟩⟩⟩⟩⟩⟩⟩
  all_goals first | rfl | simp at size

/-- `id` has a version from 1 to 5. -/
def IotUuid.Versioned (uuid : IotUuid) : Prop :=
  1 ≤ uuid.id.getD 6 0 >>> (4 : UInt8) ∧ uuid.id.getD 6 0 >>> (4 : UInt8) ≤ 5

/-- The digits of an id, in groups. -/
def IotUuid.groups (uuid : IotUuid) (versioned : uuid.Versioned) : UuidGroups Hex.IsDigit where
  timeLow := (uuid.id.flatMap Hex.pair).take 8
  timeMid := ((uuid.id.flatMap Hex.pair).drop 8).take 4
  version := Hex.digit (uuid.id.getD 6 0 >>> 4)
  timeHi := ((uuid.id.flatMap Hex.pair).drop 13).take 3
  clockSeq := ((uuid.id.flatMap Hex.pair).drop 16).take 4
  node := (uuid.id.flatMap Hex.pair).drop 20
  length_timeLow := by rw [List.length_take, length_pairs, uuid.size]; rfl
  length_timeMid := by rw [List.length_take, List.length_drop, length_pairs, uuid.size]; rfl
  length_timeHi := by rw [List.length_take, List.length_drop, length_pairs, uuid.size]; rfl
  length_clockSeq := by rw [List.length_take, List.length_drop, length_pairs, uuid.size]; rfl
  length_node := by rw [List.length_drop, length_pairs, uuid.size]
  versioned := by
    unfold IotUuid.Versioned at versioned
    unfold Hex.digit
    grind
  digits c inside := by
    refine Hex.isDigit_of_mem_pairs (?_ : c ∈ uuid.id.flatMap Hex.pair)
    simp only [List.mem_append] at inside
    obtain inside | inside | inside | inside | inside := inside
    · exact List.mem_of_mem_take inside
    · exact List.mem_of_mem_drop (List.mem_of_mem_take inside)
    · exact List.mem_of_mem_drop (List.mem_of_mem_take inside)
    · exact List.mem_of_mem_drop (List.mem_of_mem_take inside)
    · exact List.mem_of_mem_drop inside

theorem IotUuid.all_groups (uuid : IotUuid) (versioned : uuid.Versioned) :
    (uuid.groups versioned).all = uuid.id.flatMap Hex.pair := by
  simp only [UuidGroups.all, IotUuid.groups]
  have third : Hex.digit (uuid.id.getD 6 0 >>> 4) :: ((uuid.id.flatMap Hex.pair).drop 13).take 3 =
      ((uuid.id.flatMap Hex.pair).drop 12).take 4 := by
    rw [version_digit uuid, List.take_succ_cons]
  rw [third]
  rw [← List.drop_drop (i := 4) (j := 16), List.take_append_drop,
    ← List.drop_drop (i := 4) (j := 12), List.take_append_drop,
    ← List.drop_drop (i := 4) (j := 8), List.take_append_drop, List.take_append_drop]

theorem IotUuid.text_groups (uuid : IotUuid) (versioned : uuid.Versioned) :
    (uuid.groups versioned).text = hyphenate (uuid.id.flatMap Hex.pair) := by
  rw [← hyphenate_all, uuid.all_groups versioned]

/-! ## Reading and printing -/

theorem IotUuid.eq_of_id {first second : IotUuid} (same : first.id = second.id) :
    first = second := by
  cases first
  cases second
  cases same
  rfl

theorem convert_digits (g : UuidGroups Hex.IsDigit) (uuid : IotUuid) :
    ∃ parsed, iotUtilConvertStrUuid (some g.text) (some uuid) = some parsed ∧
      parsed.id = Hex.bytes g.all := by
  have hex : ∀ c ∈ g.all, isHex c = true :=
    fun c inside => isHex_of_isDigit (g.isDigit_all c inside)
  obtain ⟨parsed, read, bytes⟩ := convert_groups (g.widen hex) uuid
  refine ⟨parsed, read, ?_⟩
  rw [bytes, UuidGroups.all_widen, loopBytes_of_isDigit g.isDigit_all]

/-- A text of hexadecimal digits is printed again in lower case. -/
theorem convert_convert_digits (g : UuidGroups Hex.IsDigit) (uuid : IotUuid) {maxSz : Nat}
    (room : 37 ≤ maxSz) :
    ∃ parsed, iotUtilConvertStrUuid (some g.text) (some uuid) = some parsed ∧
      iotUtilConvertUuidStr parsed maxSz = some (g.text.map Hex.lower) := by
  obtain ⟨parsed, read, bytes⟩ := convert_digits g uuid
  refine ⟨parsed, read, ?_⟩
  rw [convert_uuid_eq parsed room, bytes, Hex.pairs_bytes (by rw [g.length_all]) g.isDigit_all,
    hyphenate_map_lower, hyphenate_all]

/-- An id with a version is read back from its text. -/
theorem convert_printed (id uuid : IotUuid) (versioned : id.Versioned) {maxSz : Nat}
    (room : 37 ≤ maxSz) :
    ∃ printed, iotUtilConvertUuidStr id maxSz = some printed ∧
      iotUtilConvertStrUuid (some printed) (some uuid) = some id := by
  refine ⟨_, convert_uuid_eq id room, ?_⟩
  obtain ⟨parsed, read, bytes⟩ := convert_digits (id.groups versioned) uuid
  rw [id.text_groups versioned] at read
  rw [id.all_groups versioned, Hex.bytes_pairs] at bytes
  rw [read, IotUuid.eq_of_id bytes]

/-- A capital letter behind F. -/
def BehindF (c : UInt8) : Prop := 71 ≤ c ∧ c ≤ 90

theorem isHex_iff (c : UInt8) : isHex c = true ↔ Hex.IsDigit c ∨ BehindF c := by
  simp only [isHex, Bool.or_eq_true, Bool.and_eq_true, decide_eq_true_eq, Hex.IsDigit, BehindF]
  grind

theorem not_behindF_of_form {str : List UInt8} (form : UuidForm Hex.IsDigit str) :
    ∀ c ∈ str, ¬ BehindF c := by
  obtain ⟨g, rfl⟩ := form
  intro c inside behind
  obtain rfl | digit := UuidGroups.mem_text inside
  · exact absurd behind (by simp [BehindF])
  · have hex := g.isDigit_all c digit
    unfold Hex.IsDigit at hex
    unfold BehindF at behind
    grind

/-- A text in the form is read and printed again in lower case, and no other text is read,
except for the texts with a capital letter behind F in the place of a digit. An id with a
version from 1 to 5 is always read back from its text. -/
theorem str_uuid_iff (uuid : IotUuid) (maxSz : Nat) (room : 37 ≤ maxSz) :
    (∀ str : List UInt8,
      (((iotUtilConvertStrUuid (some str) (some uuid)).isSome = true ↔
          UuidForm Hex.IsDigit str) ∧
        ∀ parsed, iotUtilConvertStrUuid (some str) (some uuid) = some parsed →
          iotUtilConvertUuidStr parsed maxSz = some (str.map Hex.lower)) ↔
      (UuidForm (fun c => Hex.IsDigit c ∨ BehindF c) str → ∀ c ∈ str, ¬ BehindF c)) ∧
    ∀ id : IotUuid, id.Versioned →
      ∃ printed, iotUtilConvertUuidStr id maxSz = some printed ∧
        iotUtilConvertStrUuid (some printed) (some uuid) = some id := by
  have classes : (fun c => Hex.IsDigit c ∨ BehindF c) = fun c => isHex c = true :=
    funext fun c => propext (isHex_iff c).symm
  refine ⟨fun str => ?_, fun id versioned => convert_printed id uuid versioned room⟩
  rw [classes]
  constructor
  · rintro ⟨accepted, -⟩ ⟨g, rfl⟩
    obtain ⟨parsed, read, -⟩ := convert_groups g uuid
    exact not_behindF_of_form (accepted.mp (by rw [read]; rfl))
  · intro known
    by_cases form : UuidForm (fun c => isHex c = true) str
    · obtain ⟨g, rfl⟩ := form
      have digits : ∀ c ∈ g.all, Hex.IsDigit c := fun c inside =>
        ((isHex_iff c).mp (g.isHex_all c inside)).resolve_right
          (known ⟨g, rfl⟩ c (g.mem_text_of_mem_all inside))
      obtain ⟨parsed, read, printed⟩ := convert_convert_digits (g.widen digits) uuid room
      rw [UuidGroups.text_widen] at read printed
      rw [read]
      refine ⟨⟨fun _ => ⟨g.widen digits, rfl⟩, fun _ => rfl⟩, ?_⟩
      rintro _ ⟨⟩
      exact printed
    · have refused : iotUtilConvertStrUuid (some str) (some uuid) = none := by
        rw [iotUtilConvertStrUuid, if_neg fun valid => form ((validate_iff str).mp valid)]
      rw [refused]
      refine ⟨⟨fun impossible => absurd impossible (by decide), ?_⟩, by rintro _ ⟨⟩⟩
      rintro ⟨g, rfl⟩
      exact absurd ⟨g.widen fun c inside => isHex_of_isDigit (g.isDigit_all c inside), rfl⟩ form

/-- A `struct iot_uuid` before anything is stored in it. -/
def zeroUuid : IotUuid := ⟨List.replicate 16 0, rfl⟩

/-- The text of the test suite, and the id it stands for. -/
theorem str_uuid_iff_test :
    iotUtilConvertUuidStr (⟨[0xc2, 0x36, 0xf5, 0x27, 0x5d, 0x8d, 0x4d, 0x0b, 0x86, 0xf6, 0x0a,
        0xdd, 0x22, 0x71, 0x7f, 0x0e], rfl⟩ : IotUuid) 37 =
      some (CString.ascii "c236f527-5d8d-4d0b-86f6-0add22717f0e") ∧
    (iotUtilConvertStrUuid (some (CString.ascii "c236f527-5d8d-4d0b-86f6-0add22717f0e"))
      (some zeroUuid)).isSome = true := by
  have id := (str_uuid_iff zeroUuid 37 (Nat.le_refl _)).2
    (⟨[0xc2, 0x36, 0xf5, 0x27, 0x5d, 0x8d, 0x4d, 0x0b, 0x86, 0xf6, 0x0a, 0xdd, 0x22, 0x71, 0x7f,
      0x0e], rfl⟩ : IotUuid) (by unfold IotUuid.Versioned; decide)
  obtain ⟨printed, text, read⟩ := id
  have known : printed = CString.ascii "c236f527-5d8d-4d0b-86f6-0add22717f0e" :=
    Option.some.inj (text.symm.trans (by decide))
  rw [known] at text read
  exact ⟨text, by rw [read]; rfl⟩

/-- G is accepted as a digit and read as zero. -/
theorem capital_g_accepted :
    let str := CString.ascii "G236f527-5d8d-4d0b-86f6-0add22717f0e"
    ¬ UuidForm Hex.IsDigit str ∧
      (iotUtilConvertStrUuid (some str) (some zeroUuid)).isSome = true ∧
      (iotUtilConvertStrUuid (some str) (some zeroUuid)).bind (iotUtilConvertUuidStr · 37) =
        some (CString.ascii "0236f527-5d8d-4d0b-86f6-0add22717f0e") := by
  refine ⟨fun form => ?_, rfl, by decide +kernel⟩
  exact not_behindF_of_form form 71 (by decide) (by unfold BehindF; decide)

end StDevice.Util
