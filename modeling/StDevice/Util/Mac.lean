import StDevice.Util.Uuid

/-!
# MAC addresses as text

`iot_util_convert_str_mac` checks the text while it reads it: the colons by their place, the
letters by the cases of a switch. Whatever is no letter is taken for a decimal digit, so that
texts with other characters in the place of a digit are read as well.
-/

namespace StDevice.Util

open NvData

/-- `struct iot_mac`. -/
structure IotMac where
  addr : List UInt8
  size : addr.length = 6

/-- `mac->addr[j] = c`. -/
def IotMac.store (mac : IotMac) (j : Nat) (c : UInt8) : IotMac :=
  ⟨mac.addr.set j c, by rw [List.length_set, mac.size]⟩

/-- `ref_addr`. -/
def refAddr : List UInt8 := CString.ascii "a1:b2:c3:d4:e5:f6"

/-- The bits that a character adds to `c`; `none` is the default case of the switch. -/
def macBits (ch : UInt8) : Option UInt8 :=
  if isAlpha ch then
    if ch = 65 ∨ ch = 97 then some 0x0a
    else if ch = 66 ∨ ch = 98 then some 0x0b
    else if ch = 67 ∨ ch = 99 then some 0x0c
    else if ch = 68 ∨ ch = 100 then some 0x0d
    else if ch = 69 ∨ ch = 101 then some 0x0e
    else if ch = 70 ∨ ch = 102 then some 0x0f
    else none
  else some (ch - 48)

/-- The local variables of the loop, and what is stored so far. -/
structure MacScan where
  j : Nat
  k : Nat
  c : UInt8
  mac : IotMac

/-- The loop body of `iot_util_convert_str_mac` at `str[i]`. -/
def MacScan.step (s : MacScan) (i : Nat) (ch : UInt8) : Option MacScan :=
  if i % 3 = 2 then if ch = 58 then some s else none
  else
    match macBits ch with
    | none => none
    | some bits =>
        let c := s.c ||| bits
        if (s.j + 1) * 2 = s.k then
          some { j := s.j + 1, k := s.k + 1, c := 0, mac := s.mac.store s.j c }
        else some { s with k := s.k + 1, c := c <<< 4 }

/-- The loop from `str[i]` on. -/
def MacScan.loop : Nat → List UInt8 → MacScan → Option MacScan
  | _, [], s => some s
  | i, ch :: str, s =>
      match s.step i ch with
      | none => none
      | some s => MacScan.loop (i + 1) str s

/-- `iot_util_convert_str_mac`, where `none` stands for an error and for a NULL pointer. -/
def iotUtilConvertStrMac : Option CString → Option IotMac → Option IotMac
  | some str, some mac =>
      if str.strlen ≠ refAddr.length then none
      else (MacScan.loop 0 str.bytes ⟨0, 1, 0, mac⟩).map MacScan.mac
  | _, _ => none

/-- The loop body of `iot_util_convert_mac_str`. -/
def printMacByte (written : List UInt8) (b : UInt8) : List UInt8 :=
  let text := written ++ Hex.pair b
  if refAddr.getD text.length 0 = 58 then text ++ [58] else text

/-- `iot_util_convert_mac_str`: the text in front of the NUL. -/
def iotUtilConvertMacStr (mac : IotMac) (maxSz : Nat) : Option (List UInt8) :=
  if maxSz < refAddr.length + 1 then none else some (mac.addr.foldl printMacByte [])

/-! ## Six pairs -/

/-- Pairs of characters with colons between them. -/
def colonJoined : List (UInt8 × UInt8) → List UInt8
  | [] => []
  | [pair] => [pair.1, pair.2]
  | pair :: next :: pairs => pair.1 :: pair.2 :: 58 :: colonJoined (next :: pairs)

/-- Six pairs of digits with colons between them. -/
def MacForm (digit : UInt8 → Prop) (str : List UInt8) : Prop :=
  ∃ pairs, pairs.length = 6 ∧ (∀ pair ∈ pairs, digit pair.1 ∧ digit pair.2) ∧
    str = colonJoined pairs

/-- A character that the loop reads in the place of a digit. -/
def ReadAsDigit (ch : UInt8) : Prop := Hex.IsDigit ch ∨ isAlpha ch = false

/-- The bytes that the loop makes of the pairs. -/
def bitsOf (pair : UInt8 × UInt8) : Option UInt8 := do
  return Hex.join (← macBits pair.1) (← macBits pair.2)

theorem macBits_isSome_iff (ch : UInt8) : (macBits ch).isSome = true ↔ ReadAsDigit ch := by
  simp only [macBits, ReadAsDigit, isAlpha, Hex.IsDigit, Bool.or_eq_true, Bool.and_eq_true,
    decide_eq_true_eq, Bool.or_eq_false_iff, Bool.and_eq_false_iff, decide_eq_false_iff_not]
  grind

theorem macBits_of_isDigit {ch : UInt8} (digit : Hex.IsDigit ch) :
    macBits ch = some (Hex.value ch) := by
  simp only [Hex.IsDigit] at digit
  simp only [macBits, isAlpha, Hex.value, Bool.or_eq_true, Bool.and_eq_true, decide_eq_true_eq]
  grind

/-! ## The loop over the pairs -/

/-- The characters of a pair are one byte, unless one of them is in no case of the switch. -/
theorem MacScan.loop_pair (j : Nat) (mac : IotMac) (pair : UInt8 × UInt8) (rest : List UInt8) :
    MacScan.loop (3 * j) (pair.1 :: pair.2 :: rest) ⟨j, 2 * j + 1, 0, mac⟩ =
      (bitsOf pair).bind fun b =>
        MacScan.loop (3 * j + 2) rest ⟨j + 1, 2 * (j + 1) + 1, 0, mac.store j b⟩ := by
  have first : ¬ 3 * j % 3 = 2 := by omega
  have second : ¬ (3 * j + 1) % 3 = 2 := by omega
  have odd : ¬ (j + 1) * 2 = 2 * j + 1 := by omega
  have even : (j + 1) * 2 = 2 * j + 1 + 1 := by omega
  cases high : macBits pair.1 with
  | none => simp only [loop, step, if_neg first, high, bitsOf, Option.bind_eq_bind,
      Option.bind_none]
  | some bits =>
      cases low : macBits pair.2 with
      | none => simp only [loop, step, if_neg first, if_neg second, if_neg odd, high, low, bitsOf,
          Option.bind_eq_bind, Option.bind_some, Option.bind_none]
      | some lowBits =>
          simp only [loop, step, if_neg first, if_neg second, if_neg odd, if_pos even, high, low,
            bitsOf, Option.bind_eq_bind, Option.bind_some, Option.pure_def, UInt8.zero_or]
          rfl

/-- A character between two pairs. -/
theorem MacScan.loop_colon (j : Nat) (sep : UInt8) (rest : List UInt8) (s : MacScan) :
    MacScan.loop (3 * j + 2) (sep :: rest) s =
      if sep = 58 then MacScan.loop (3 * (j + 1)) rest s else none := by
  have place : (3 * j + 2) % 3 = 2 := by omega
  by_cases colon : sep = 58
  · simp only [loop, step, if_pos place, if_pos colon]
    rfl
  · simp only [loop, step, if_pos place, if_neg colon]

theorem IotMac.take_store (mac : IotMac) {j : Nat} (inside : j < 6) (b : UInt8) :
    (mac.store j b).addr.take (j + 1) = mac.addr.take j ++ [b] := by
  rw [IotMac.store, List.take_add_one, List.take_set_of_le (Nat.le_refl j),
    List.getElem?_set_self (by rw [mac.size]; exact inside)]
  rfl

/-- From the `j`-th pair on the loop stores its bytes one behind the other. -/
theorem MacScan.loop_colonJoined {pairs : List (UInt8 × UInt8)} (given : pairs ≠ []) (j : Nat)
    (mac : IotMac) (room : j + pairs.length ≤ 6) :
    (MacScan.loop (3 * j) (colonJoined pairs) ⟨j, 2 * j + 1, 0, mac⟩).map (fun s => s.mac.addr) =
      (pairs.mapM bitsOf).map fun bytes =>
        mac.addr.take j ++ bytes ++ mac.addr.drop (j + pairs.length) := by
  fun_induction colonJoined pairs generalizing j mac with
  | case1 => exact absurd rfl given
  | case2 pair =>
      rw [MacScan.loop_pair]
      simp only [List.length_singleton] at room ⊢
      cases bits : bitsOf pair with
      | none => simp [bits]
      | some b =>
          have front := mac.take_store (by omega : j < 6) b
          have back : (mac.store j b).addr.drop (j + 1) = mac.addr.drop (j + 1) :=
            List.drop_set_of_lt (Nat.lt_succ_self j)
          rw [Option.bind_some, loop, Option.map_some, List.mapM_cons, bits]
          simp only [List.mapM_nil, Option.pure_def, Option.bind_eq_bind, Option.bind_some,
            Option.map_some]
          rw [← List.take_append_drop (j + 1) (mac.store j b).addr, front, back]
  | case3 pair next pairs ih =>
      rw [MacScan.loop_pair]
      simp only [List.length_cons] at room ih ⊢
      cases bits : bitsOf pair with
      | none => simp [bits]
      | some b =>
          have behind : j + 1 + (pairs.length + 1) = j + (pairs.length + 1 + 1) := by omega
          have back : (mac.store j b).addr.drop (j + (pairs.length + 1 + 1)) =
              mac.addr.drop (j + (pairs.length + 1 + 1)) := List.drop_set_of_lt (by omega)
          rw [Option.bind_some, MacScan.loop_colon, if_pos rfl,
            ih (by simp) (j + 1) (mac.store j b) (by omega), behind, back,
            mac.take_store (by omega) b, List.mapM_cons (a := pair), bits]
          cases (next :: pairs).mapM bitsOf with
          | none => rfl
          | some bytes => simp

/-- What the loop accepts has the colons in their places. -/
theorem MacScan.colonJoined_of_loop (n j : Nat) (mac : IotMac) {str : List UInt8}
    (size : str.length = 3 * n + 2)
    (accepted : (MacScan.loop (3 * j) str ⟨j, 2 * j + 1, 0, mac⟩).isSome = true) :
    ∃ pairs, pairs.length = n + 1 ∧ str = colonJoined pairs := by
  induction n generalizing j mac str with
  | zero =>
      obtain ⟨high, low, rfl⟩ := List.length_eq_two.mp size
      exact ⟨[(high, low)], rfl, rfl⟩
  | succ n ih =>
      match str, size with
      | high :: low :: sep :: rest, size =>
          rw [MacScan.loop_pair j mac (high, low)] at accepted
          obtain ⟨s, whole⟩ := Option.isSome_iff_exists.mp accepted
          obtain ⟨b, -, found⟩ := Option.bind_eq_some_iff.mp whole
          rw [MacScan.loop_colon] at found
          split at found
          case isFalse => cases found
          case isTrue colon =>
            subst colon
            have later : rest.length = 3 * n + 2 := by
              simp only [List.length_cons] at size
              omega
            obtain ⟨pairs, count, rfl⟩ := ih (j + 1) (mac.store j b) later
              (Option.isSome_iff_exists.mpr ⟨s, found⟩)
            have positive : 0 < pairs.length := by omega
            obtain ⟨next, others, rfl⟩ := List.exists_cons_of_length_pos positive
            exact ⟨(high, low) :: next :: others, by simpa using count, rfl⟩

/-! ## Reading and printing -/

theorem length_colonJoined {pairs : List (UInt8 × UInt8)} (given : pairs ≠ []) :
    (colonJoined pairs).length + 1 = 3 * pairs.length := by
  fun_induction colonJoined pairs with
  | case1 => exact absurd rfl given
  | case2 pair => rfl
  | case3 pair next pairs ih =>
      have rest := ih (by simp)
      simp only [List.length_cons] at rest ⊢
      omega

theorem colonJoined_map_lower (pairs : List (UInt8 × UInt8)) :
    (colonJoined pairs).map Hex.lower =
      colonJoined (pairs.map fun pair => (Hex.lower pair.1, Hex.lower pair.2)) := by
  have colon : Hex.lower 58 = 58 := by decide
  fun_induction colonJoined pairs with
  | case1 => rfl
  | case2 pair => rfl
  | case3 pair next pairs ih =>
      simp only [List.map_cons] at ih ⊢
      rw [colon, ih]
      rfl

/-- The digits of the bytes, with colons between them. -/
def macText (addr : List UInt8) : List UInt8 :=
  colonJoined (addr.map fun b : UInt8 => (Hex.digit (b >>> 4), Hex.digit (b &&& 15)))

/-- The template has a colon behind every byte but the last. -/
theorem refAddr_colon : ∀ j < 6, refAddr.getD (3 * j + 2) 0 = 58 ↔ j < 5 := by decide

/-- From the `j`-th byte on. -/
theorem foldl_printMacByte {addr written : List UInt8} {j : Nat} (place : written.length = 3 * j)
    (six : j + addr.length = 6) : addr.foldl printMacByte written = written ++ macText addr := by
  induction addr generalizing written j with
  | nil => exact (List.append_nil written).symm
  | cons b addr ih =>
      rw [List.length_cons] at six
      have length : (written ++ Hex.pair b).length = 3 * j + 2 := by
        rw [List.length_append, place]
        rfl
      have colon := refAddr_colon j (by omega)
      rw [List.foldl_cons, printMacByte, length]
      cases addr with
      | nil =>
          rw [List.length_nil] at six
          rw [if_neg (by rw [colon]; omega)]
          rfl
      | cons next addr =>
          rw [List.length_cons] at six
          have behind : (written ++ Hex.pair b ++ [58]).length = 3 * (j + 1) := by
            rw [List.length_append, length]
            rfl
          rw [if_pos (colon.mpr (by omega)), ih behind (by rw [List.length_cons]; omega),
            List.append_assoc, List.append_assoc]
          rfl

theorem convert_mac_eq (mac : IotMac) {maxSz : Nat} (room : 18 ≤ maxSz) :
    iotUtilConvertMacStr mac maxSz = some (macText mac.addr) := by
  have enough : ¬ maxSz < refAddr.length + 1 := by
    have length : refAddr.length = 17 := by decide
    omega
  rw [iotUtilConvertMacStr, if_neg enough, @foldl_printMacByte _ [] 0 rfl (by rw [mac.size]),
    List.nil_append]

theorem mapM_bitsOf_isSome_iff (pairs : List (UInt8 × UInt8)) :
    (pairs.mapM bitsOf).isSome = true ↔
      ∀ pair ∈ pairs, ReadAsDigit pair.1 ∧ ReadAsDigit pair.2 := by
  induction pairs with
  | nil => simp
  | cons pair pairs ih =>
      rw [List.forall_mem_cons, ← macBits_isSome_iff, ← macBits_isSome_iff, List.mapM_cons, bitsOf]
      cases macBits pair.1 with
      | none => simp
      | some high =>
          cases macBits pair.2 with
          | none => simp
          | some low =>
              rw [← ih]
              cases pairs.mapM bitsOf <;> simp

/-- A text is read exactly when it is six pairs of characters that are read as digits. -/
theorem convert_mac_isSome_iff (str : CString) (mac : IotMac) :
    (iotUtilConvertStrMac (some str) (some mac)).isSome = true ↔
      MacForm ReadAsDigit str.bytes := by
  have length : refAddr.length = 17 := by decide
  have start : (⟨0, 1, 0, mac⟩ : MacScan) = ⟨0, 2 * 0 + 1, 0, mac⟩ := rfl
  have some_iff (pairs : List (UInt8 × UInt8)) (six : pairs.length = 6) :
      (MacScan.loop 0 (colonJoined pairs) ⟨0, 1, 0, mac⟩).isSome = true ↔
        ∀ pair ∈ pairs, ReadAsDigit pair.1 ∧ ReadAsDigit pair.2 := by
    have given : pairs ≠ [] := List.ne_nil_of_length_pos (by omega)
    have addr := congrArg Option.isSome
      (MacScan.loop_colonJoined given 0 mac (by omega : 0 + pairs.length ≤ 6))
    rw [Option.isSome_map, Option.isSome_map, Nat.mul_zero, ← start] at addr
    rw [addr]
    exact mapM_bitsOf_isSome_iff pairs
  rw [iotUtilConvertStrMac]
  by_cases size : str.strlen = refAddr.length
  · rw [if_neg (not_not.mpr size), Option.isSome_map]
    constructor
    · intro accepted
      obtain ⟨pairs, six, text⟩ :=
        MacScan.colonJoined_of_loop 5 0 mac (size.trans length) accepted
      rw [text] at accepted
      exact ⟨pairs, six, (some_iff pairs six).mp accepted, text⟩
    · rintro ⟨pairs, six, digits, text⟩
      rw [text]
      exact (some_iff pairs six).mpr digits
  · rw [if_pos size]
    refine ⟨fun impossible => absurd impossible (by decide), ?_⟩
    rintro ⟨pairs, six, -, text⟩
    have joined := length_colonJoined (List.ne_nil_of_length_pos (by omega : 0 < pairs.length))
    rw [CString.strlen, text, length] at size
    omega

theorem mapM_bitsOf_of_isDigit {pairs : List (UInt8 × UInt8)}
    (digits : ∀ pair ∈ pairs, Hex.IsDigit pair.1 ∧ Hex.IsDigit pair.2) :
    pairs.mapM bitsOf =
      some (pairs.map fun pair => Hex.join (Hex.value pair.1) (Hex.value pair.2)) := by
  induction pairs with
  | nil => rfl
  | cons pair pairs ih =>
      obtain ⟨⟨high, low⟩, rest⟩ := List.forall_mem_cons.mp digits
      rw [List.mapM_cons, ih rest, bitsOf, macBits_of_isDigit high, macBits_of_isDigit low]
      rfl

/-- Six pairs of digits are read as their six bytes. -/
theorem convert_mac_pairs {str : CString} {pairs : List (UInt8 × UInt8)} (six : pairs.length = 6)
    (digits : ∀ pair ∈ pairs, Hex.IsDigit pair.1 ∧ Hex.IsDigit pair.2)
    (text : str.bytes = colonJoined pairs) (mac : IotMac) :
    ∃ parsed, iotUtilConvertStrMac (some str) (some mac) = some parsed ∧
      parsed.addr = pairs.map fun pair => Hex.join (Hex.value pair.1) (Hex.value pair.2) := by
  have accepted := (convert_mac_isSome_iff str mac).mpr
    ⟨pairs, six, fun pair inside => ⟨.inl (digits pair inside).1, .inl (digits pair inside).2⟩,
      text⟩
  obtain ⟨parsed, read⟩ := Option.isSome_iff_exists.mp accepted
  refine ⟨parsed, read, ?_⟩
  have given : pairs ≠ [] := List.ne_nil_of_length_pos (by omega)
  have addr := MacScan.loop_colonJoined given 0 mac (by omega : 0 + pairs.length ≤ 6)
  rw [mapM_bitsOf_of_isDigit digits, Nat.mul_zero, ← text, Option.map_some] at addr
  rw [iotUtilConvertStrMac] at read
  split at read
  case isTrue => cases read
  case isFalse =>
    obtain ⟨s, found, rfl⟩ := Option.map_eq_some_iff.mp read
    rw [found, Option.map_some, List.take_zero, List.nil_append,
      List.drop_of_length_le (by rw [mac.size]; omega), List.append_nil] at addr
    exact Option.some.inj addr

/-- Six pairs of digits are printed again in lower case. -/
theorem macText_pairs {pairs : List (UInt8 × UInt8)}
    (digits : ∀ pair ∈ pairs, Hex.IsDigit pair.1 ∧ Hex.IsDigit pair.2) :
    macText (pairs.map fun pair => Hex.join (Hex.value pair.1) (Hex.value pair.2)) =
      (colonJoined pairs).map Hex.lower := by
  rw [macText, List.map_map, colonJoined_map_lower]
  congr 1
  refine List.map_congr_left fun pair inside => ?_
  obtain ⟨high, low⟩ := digits pair inside
  have highSmall := Hex.value_lt high
  have lowSmall := Hex.value_lt low
  simp only [Function.comp_apply, Hex.join_shiftRight highSmall lowSmall,
    Hex.join_and highSmall lowSmall, Hex.digit_value high, Hex.digit_value low]

theorem mem_colonJoined {pairs : List (UInt8 × UInt8)} {c : UInt8}
    (inside : c ∈ colonJoined pairs) :
    c = 58 ∨ ∃ pair ∈ pairs, c = pair.1 ∨ c = pair.2 := by
  fun_induction colonJoined pairs with
  | case1 => cases inside
  | case2 pair => exact .inr ⟨pair, List.mem_cons_self, by simpa using inside⟩
  | case3 pair next pairs ih =>
      simp only [List.mem_cons] at inside
      obtain first | second | colon | rest := inside
      · exact .inr ⟨pair, List.mem_cons_self, .inl first⟩
      · exact .inr ⟨pair, List.mem_cons_self, .inr second⟩
      · exact .inl colon
      · obtain colon | ⟨other, member, same⟩ := ih rest
        · exact .inl colon
        · exact .inr ⟨other, List.mem_cons_of_mem pair member, same⟩

theorem zero_notMem_colonJoined {pairs : List (UInt8 × UInt8)}
    (digits : ∀ pair ∈ pairs, Hex.IsDigit pair.1 ∧ Hex.IsDigit pair.2) :
    0 ∉ colonJoined pairs := by
  have noDigit : ¬ Hex.IsDigit 0 := by decide
  intro inside
  obtain colon | ⟨pair, member, first | second⟩ := mem_colonJoined inside
  · exact absurd colon (by decide)
  · exact noDigit (first ▸ (digits pair member).1)
  · exact noDigit (second ▸ (digits pair member).2)

/-- The two digits of every byte. -/
def IotMac.pairs (mac : IotMac) : List (UInt8 × UInt8) :=
  mac.addr.map fun b : UInt8 => (Hex.digit (b >>> 4), Hex.digit (b &&& 15))

theorem IotMac.isDigit_pairs (mac : IotMac) :
    ∀ pair ∈ mac.pairs, Hex.IsDigit pair.1 ∧ Hex.IsDigit pair.2 := by
  intro pair inside
  obtain ⟨b, -, rfl⟩ := List.mem_map.mp inside
  exact ⟨Hex.isDigit_digit (Hex.shiftRight_lt b), Hex.isDigit_digit (Hex.and_lt b)⟩

/-- The printed text of an address. -/
def IotMac.text (mac : IotMac) : CString :=
  ⟨macText mac.addr, zero_notMem_colonJoined mac.isDigit_pairs⟩

/-- An address is read back from its text. -/
theorem convert_mac_text (id mac : IotMac) :
    iotUtilConvertStrMac (some id.text) (some mac) = some id := by
  have six : id.pairs.length = 6 := by rw [IotMac.pairs, List.length_map, id.size]
  have text : id.text.bytes = colonJoined id.pairs := rfl
  obtain ⟨parsed, read, addr⟩ := convert_mac_pairs six id.isDigit_pairs text mac
  have same : parsed.addr = id.addr := by
    rw [addr, IotMac.pairs, List.map_map]
    refine (List.map_congr_left fun b _ => ?_).trans id.addr.map_id
    rw [Function.comp_apply, Hex.value_digit (Hex.shiftRight_lt b), Hex.value_digit (Hex.and_lt b),
      Hex.join_halves, id_eq]
  cases parsed
  cases id
  cases same
  exact read

/-- Six pairs of digits are read and printed again in lower case, and no other text is read,
except for the texts with a character that is neither letter nor digit in the place of a
digit. An address is always read back from its text. -/
theorem str_mac_iff (mac : IotMac) (maxSz : Nat) (room : 18 ≤ maxSz) :
    (∀ str : CString,
      (((iotUtilConvertStrMac (some str) (some mac)).isSome = true ↔
          MacForm Hex.IsDigit str.bytes) ∧
        ∀ parsed, iotUtilConvertStrMac (some str) (some mac) = some parsed →
          iotUtilConvertMacStr parsed maxSz = some (str.bytes.map Hex.lower)) ↔
      (MacForm ReadAsDigit str.bytes → MacForm Hex.IsDigit str.bytes)) ∧
    ∀ id : IotMac, ∃ printed : CString, iotUtilConvertMacStr id maxSz = some printed.bytes ∧
      iotUtilConvertStrMac (some printed) (some mac) = some id := by
  refine ⟨fun str => ?_, fun id => ⟨id.text, convert_mac_eq id room, convert_mac_text id mac⟩⟩
  rw [convert_mac_isSome_iff]
  constructor
  · rintro ⟨accepted, -⟩
    exact accepted.mp
  · intro digits
    refine ⟨⟨digits, ?_⟩, ?_⟩
    · rintro ⟨pairs, six, digits, text⟩
      exact ⟨pairs, six, fun pair inside =>
        ⟨.inl (digits pair inside).1, .inl (digits pair inside).2⟩, text⟩
    · intro parsed read
      have form := digits ((convert_mac_isSome_iff str mac).mp (by rw [read]; rfl))
      obtain ⟨pairs, six, hex, text⟩ := form
      obtain ⟨parsed', read', addr⟩ := convert_mac_pairs six hex text mac
      obtain rfl := Option.some.inj (read'.symm.trans read)
      rw [convert_mac_eq _ room, addr, macText_pairs hex, text]

/-- A `struct iot_mac` before anything is stored in it. -/
def zeroMac : IotMac := ⟨List.replicate 6 0, rfl⟩

/-- The address `b2:b3:fe:c9:8e:7d`. -/
def testMac : IotMac := ⟨[0xb2, 0xb3, 0xfe, 0xc9, 0x8e, 0x7d], rfl⟩

theorem str_mac_iff_test :
    ∃ printed : CString, iotUtilConvertMacStr testMac 18 = some printed.bytes ∧
      iotUtilConvertStrMac (some printed) (some zeroMac) = some testMac :=
  (str_mac_iff zeroMac 18 (Nat.le_refl _)).2 testMac

/-- Slashes are accepted as digits, and the text that is printed is another one. -/
theorem slashes_accepted :
    let str : CString := ⟨CString.ascii "a2:b3:fe:c9:8e:7/", by decide⟩
    ¬ MacForm Hex.IsDigit str.bytes ∧
      (iotUtilConvertStrMac (some str) (some zeroMac)).isSome = true ∧
      (iotUtilConvertStrMac (some str) (some zeroMac)).bind (iotUtilConvertMacStr · 18) =
        some (CString.ascii "a2:b3:fe:c9:8e:ff") := by
  refine ⟨?_, by decide +kernel, by decide +kernel⟩
  rintro ⟨pairs, -, digits, text⟩
  have slash : 47 ∈ colonJoined pairs := by
    rw [← text]
    decide +kernel
  have noDigit : ¬ Hex.IsDigit 47 := by decide
  obtain colon | ⟨pair, member, first | second⟩ := mem_colonJoined slash
  · exact absurd colon (by decide)
  · exact noDigit (first ▸ (digits pair member).1)
  · exact noDigit (second ▸ (digits pair member).2)

end StDevice.Util
