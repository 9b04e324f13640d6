import StDevice.Foundation.CString
import StDevice.Mqtt.Packet

/-!
# Certificates without their frame

`_iot_jwt_header_trim_certificate` and `_iot_nv_trim_certificate` take the frame and the line
breaks off the text of a certificate. The second one looks both markers up and copies what
stands between them. The first one assumes the BEGIN line at the start of the text, and
stops at the first hyphen that has the END line anywhere behind it.

A run that writes outside its allocation, reads past the end of the text or lets an `int`
overflow has no result. Allocations succeed.
-/

namespace StDevice.Security

def certificatePrefix : List UInt8 := CString.ascii "-----BEGIN CERTIFICATE-----"

def certificateSuffix : List UInt8 := CString.ascii "-----END CERTIFICATE-----"

/-- CR or LF. -/
def isBreak (c : UInt8) : Bool := c == 10 || c == 13

/-- The loop of `_iot_jwt_header_trim_certificate` at `origin[i]`, with what is in `trim`. -/
def jwtTrimLoop (originLen : Nat) (i : Nat) (trim : List UInt8) :
    List UInt8 → Option (List UInt8)
  | [] => if trim.length < originLen then some trim else none
  | c :: origin =>
      if isBreak c then
        if i + 1 < 2 ^ 31 then jwtTrimLoop originLen (i + 1) trim origin else none
      else if c = 45 ∧ (CString.strstr (c :: origin) certificateSuffix).isSome = true then
        if trim.length < originLen then some trim else none
      else if trim.length < originLen then
        if i + 1 < 2 ^ 31 then jwtTrimLoop originLen (i + 1) (trim ++ [c]) origin else none
      else none

/-- `_iot_jwt_header_trim_certificate`. -/
def iotJwtHeaderTrimCertificate (origin : CString) : Option (List UInt8) :=
  let originIdx :=
    if (CString.strstr origin.bytes certificatePrefix).isSome then certificatePrefix.length else 0
  jwtTrimLoop origin.strlen originIdx [] (origin.bytes.drop originIdx)

/-- The loop of `_iot_nv_trim_certificate` over what is between its pointers, for an
allocation of `size` bytes. -/
def nvTrimLoop (size : Nat) (trimmed : List UInt8) : List UInt8 → Option (List UInt8)
  | [] => if trimmed.length < size then some trimmed else none
  | c :: cert =>
      if isBreak c then nvTrimLoop size trimmed cert
      else if trimmed.length < size ∧ trimmed.length + 1 < 2 ^ 31 then
        nvTrimLoop size (trimmed ++ [c]) cert
      else none

/-- `cert_head`, from the start of the text. -/
def certHead (cert : CString) : Nat :=
  match CString.strstr cert.bytes certificatePrefix with
  | none => 0
  | some b => b + certificatePrefix.length

/-- `cert_tail`, from the start of the text. -/
def certTail (cert : CString) : Nat :=
  match CString.strstr cert.bytes certificateSuffix with
  | none => cert.strlen
  | some e => e

/-- `_iot_nv_trim_certificate`. Where the tail is before the head, the loop does not meet it
inside the text. -/
def iotNvTrimCertificate (cert : CString) : Option (List UInt8) :=
  let head := certHead cert
  let tail := certTail cert
  if tail < head then none
  else nvTrimLoop (tail - head + 1) [] ((cert.bytes.drop head).take (tail - head))

/-! ## What the loops return -/

/-- The characters without CR and LF. -/
def withoutBreaks (text : List UInt8) : List UInt8 := text.filter fun c => !isBreak c

theorem withoutBreaks_cons_of_break {c : UInt8} (line : isBreak c = true) (text : List UInt8) :
    withoutBreaks (c :: text) = withoutBreaks text :=
  List.filter_cons_of_neg (by simp [line])

theorem withoutBreaks_cons {c : UInt8} (kept : isBreak c = false) (text : List UInt8) :
    withoutBreaks (c :: text) = c :: withoutBreaks text :=
  List.filter_cons_of_pos (by simp [kept])

/-- The text in front of the first hyphen that has the END line behind it. -/
def beforeSuffix : List UInt8 → List UInt8
  | [] => []
  | c :: text =>
      if c = 45 ∧ (CString.strstr (c :: text) certificateSuffix).isSome = true then []
      else c :: beforeSuffix text

theorem beforeSuffix_cons_of_stop {c : UInt8} {text : List UInt8}
    (stop : c = 45 ∧ (CString.strstr (c :: text) certificateSuffix).isSome = true) :
    beforeSuffix (c :: text) = [] := if_pos stop

theorem beforeSuffix_cons {c : UInt8} {text : List UInt8}
    (goesOn : ¬ (c = 45 ∧ (CString.strstr (c :: text) certificateSuffix).isSome = true)) :
    beforeSuffix (c :: text) = c :: beforeSuffix text := if_neg goesOn

theorem beforeSuffix_of_absent {text : List UInt8}
    (absent : CString.strstr text certificateSuffix = none) : beforeSuffix text = text := by
  induction text with
  | nil => rfl
  | cons c text ih =>
      have later := CString.strstr_drop_eq_none absent 1
      rw [beforeSuffix_cons fun stop => absurd stop.2 (by rw [absent]; decide), ih later]

/-- Where the END line is in the text, the first hyphen has it behind it. -/
theorem beforeSuffix_of_found {text : List UInt8} {e : Nat}
    (found : CString.strstr text certificateSuffix = some e) :
    beforeSuffix text = text.takeWhile (· ≠ 45) := by
  induction text generalizing e with
  | nil => rfl
  | cons c text ih =>
      by_cases hyphen : c = 45
      · rw [beforeSuffix_cons_of_stop ⟨hyphen, by rw [found]; rfl⟩,
          List.takeWhile_cons_of_neg (by simpa using hyphen)]
      · have later : 1 ≤ e := by
          rcases Nat.eq_zero_or_pos e with rfl | positive
          · have here := CString.prefix_of_strstr found
            exact absurd (List.cons_prefix_cons.mp here).1.symm hyphen
          · exact positive
        rw [beforeSuffix_cons fun stop => hyphen stop.1,
          List.takeWhile_cons_of_pos (by simpa using hyphen),
          ih (CString.strstr_drop found later)]

theorem jwtTrimLoop_eq {originLen i : Nat} {trim text : List UInt8} (small : i < 2 ^ 31) :
    jwtTrimLoop originLen i trim text =
      if i + (beforeSuffix text).length < 2 ^ 31 ∧
          trim.length + (withoutBreaks (beforeSuffix text)).length < originLen then
        some (trim ++ withoutBreaks (beforeSuffix text))
      else none := by
  induction text generalizing i trim with
  | nil =>
      simp only [jwtTrimLoop, beforeSuffix, withoutBreaks, List.filter_nil, List.length_nil,
        Nat.add_zero, List.append_nil, small, true_and]
  | cons c text ih =>
      rw [jwtTrimLoop]
      by_cases line : isBreak c = true
      · have notHyphen : c ≠ 45 := by
          rintro rfl
          exact absurd line (by decide)
        rw [if_pos line, beforeSuffix_cons fun stop => notHyphen stop.1,
          withoutBreaks_cons_of_break line, List.length_cons]
        by_cases next : i + 1 < 2 ^ 31
        · rw [if_pos next, ih next, Nat.add_right_comm i 1, ← Nat.add_assoc]
        · rw [if_neg next, if_neg fun fits => next (by omega)]
      · have kept : isBreak c = false := by simpa using line
        rw [if_neg line]
        by_cases stop : c = 45 ∧ (CString.strstr (c :: text) certificateSuffix).isSome = true
        · rw [if_pos stop, beforeSuffix_cons_of_stop stop]
          simp only [withoutBreaks, List.filter_nil, List.length_nil, Nat.add_zero,
            List.append_nil, small, true_and]
        · rw [if_neg stop, beforeSuffix_cons stop, withoutBreaks_cons kept, List.length_cons,
            List.length_cons]
          by_cases room : trim.length < originLen
          · rw [if_pos room]
            by_cases next : i + 1 < 2 ^ 31
            · rw [if_pos next, ih next, List.length_append, List.length_singleton,
                Nat.add_right_comm i 1, Nat.add_right_comm trim.length 1, List.append_assoc]
              rfl
            · rw [if_neg next, if_neg fun fits => next (by omega)]
          · rw [if_neg room, if_neg fun fits => room (by omega)]

theorem nvTrimLoop_eq {size : Nat} {trimmed text : List UInt8} (small : trimmed.length < 2 ^ 31) :
    nvTrimLoop size trimmed text =
      if trimmed.length + (withoutBreaks text).length < size ∧
          trimmed.length + (withoutBreaks text).length < 2 ^ 31 then
        some (trimmed ++ withoutBreaks text)
      else none := by
  induction text generalizing trimmed with
  | nil =>
      simp only [nvTrimLoop, withoutBreaks, List.filter_nil, List.length_nil, Nat.add_zero,
        List.append_nil, small, and_true]
  | cons c text ih =>
      rw [nvTrimLoop]
      by_cases line : isBreak c = true
      · rw [if_pos line, withoutBreaks_cons_of_break line, ih small]
      · have kept : isBreak c = false := by simpa using line
        rw [if_neg line, withoutBreaks_cons kept, List.length_cons]
        by_cases room : trimmed.length < size ∧ trimmed.length + 1 < 2 ^ 31
        · have longer : (trimmed ++ [c]).length = trimmed.length + 1 := List.length_append
          rw [if_pos room, ih (longer ▸ room.2), longer, Nat.add_right_comm, List.append_assoc]
          rfl
        · rw [if_neg room, if_neg fun fits => room ⟨by omega, by omega⟩]

/-! ## Both functions -/

/-- What stands between the markers, or between a marker and the end of the text on its
side, without line breaks. -/
def betweenMarkers (cert : CString) : List UInt8 :=
  withoutBreaks ((cert.bytes.drop (certHead cert)).take (certTail cert - certHead cert))

/-- Where `_iot_jwt_header_trim_certificate` starts. -/
def jwtStart (cert : CString) : Nat :=
  if (CString.strstr cert.bytes certificatePrefix).isSome then 27 else 0

theorem iotJwtHeaderTrimCertificate_eq (cert : CString) :
    iotJwtHeaderTrimCertificate cert =
      let body := beforeSuffix (cert.bytes.drop (jwtStart cert))
      if jwtStart cert + body.length < 2 ^ 31 ∧ (withoutBreaks body).length < cert.strlen then
        some (withoutBreaks body)
      else none := by
  have small : jwtStart cert < 2 ^ 31 := by
    unfold jwtStart
    split <;> decide
  change jwtTrimLoop cert.strlen (jwtStart cert) [] (cert.bytes.drop (jwtStart cert)) = _
  rw [jwtTrimLoop_eq small]
  simp only [List.length_nil, Nat.zero_add, List.nil_append]

theorem iotNvTrimCertificate_eq (cert : CString) :
    iotNvTrimCertificate cert =
      if certHead cert ≤ certTail cert ∧ (betweenMarkers cert).length < 2 ^ 31 then
        some (betweenMarkers cert)
      else none := by
  rw [iotNvTrimCertificate]
  by_cases reversed : certTail cert < certHead cert
  · rw [if_pos reversed, if_neg fun fits => absurd fits.1 (Nat.not_le.mpr reversed)]
  · have inside : (betweenMarkers cert).length < certTail cert - certHead cert + 1 :=
      Nat.lt_succ_of_le (Nat.le_trans (List.length_filter_le _ _) (List.length_take_le _ _))
    rw [if_neg reversed, nvTrimLoop_eq (by decide), List.length_nil, Nat.zero_add, List.nil_append]
    change (if (betweenMarkers cert).length < _ ∧ _ then some (betweenMarkers cert) else none) = _
    simp only [inside, true_and, Nat.le_of_not_lt reversed]
    rfl

/-- Both functions keep to the text and to their allocations, and return `body`. -/
def BothTrim (cert : CString) (body : List UInt8) : Prop :=
  iotJwtHeaderTrimCertificate cert = some body ∧ iotNvTrimCertificate cert = some body

/-- What stands between the markers where the text has both of them, and the whole text
elsewhere, without line breaks. -/
def betweenBoth (cert : CString) : List UInt8 :=
  if (CString.strstr cert.bytes certificatePrefix).isSome = true ∧
      (CString.strstr cert.bytes certificateSuffix).isSome = true then
    betweenMarkers cert
  else withoutBreaks cert.bytes

/-- The text where both functions find the same characters. A BEGIN line that is not at the
start of the text leaves this to what happens to be in front of it: the first function takes
the characters from the 28th to the next hyphen. -/
def SameBody (cert : CString) : Prop :=
  match CString.strstr cert.bytes certificatePrefix,
    CString.strstr cert.bytes certificateSuffix with
  | none, none => (∃ c ∈ cert.bytes, isBreak c = true) ∧ cert.strlen < 2 ^ 31
  | none, some e => 45 ∉ cert.bytes.take e ∧ e < 2 ^ 31
  | some 0, none => cert.strlen < 2 ^ 31
  | some 0, some e => 27 ≤ e ∧ 45 ∉ (cert.bytes.drop 27).take (e - 27) ∧ e < 2 ^ 31
  | some (_ + 1), none => False
  | some (b + 1), some e =>
      let front := (cert.bytes.drop 27).takeWhile (· ≠ 45)
      b + 28 ≤ e ∧ 27 + front.length < 2 ^ 31 ∧
        withoutBreaks front = withoutBreaks ((cert.bytes.drop (b + 28)).take (e - (b + 28)))

theorem bothTrim_iff (cert : CString) :
    BothTrim cert (betweenMarkers cert) ↔
      certHead cert ≤ certTail cert ∧
      jwtStart cert + (beforeSuffix (cert.bytes.drop (jwtStart cert))).length < 2 ^ 31 ∧
      (withoutBreaks (beforeSuffix (cert.bytes.drop (jwtStart cert)))).length < cert.strlen ∧
      withoutBreaks (beforeSuffix (cert.bytes.drop (jwtStart cert))) = betweenMarkers cert := by
  rw [BothTrim, iotJwtHeaderTrimCertificate_eq, iotNvTrimCertificate_eq]
  simp only [Option.ite_none_right_eq_some, Option.some.injEq, and_true]
  constructor
  · rintro ⟨⟨⟨start, room⟩, same⟩, ordered, -⟩
    exact ⟨ordered, start, room, same⟩
  · rintro ⟨ordered, start, room, same⟩
    have shorter := List.length_filter_le (fun c => !isBreak c)
      (beforeSuffix (cert.bytes.drop (jwtStart cert)))
    refine ⟨⟨⟨start, room⟩, same⟩, ordered, ?_⟩
    rw [← same]
    exact Nat.lt_of_le_of_lt shorter (by omega)

/-! ## The text by its markers -/

theorem mem_withoutBreaks {text : List UInt8} : 45 ∈ withoutBreaks text ↔ 45 ∈ text := by
  rw [withoutBreaks, List.mem_filter]
  exact and_iff_left (by decide)

theorem withoutBreaks_ne_nil {text : List UInt8} (hyphen : 45 ∈ text) :
    withoutBreaks text ≠ [] :=
  List.ne_nil_of_mem (mem_withoutBreaks.mpr hyphen)

theorem withoutBreaks_append (front rest : List UInt8) :
    withoutBreaks (front ++ rest) = withoutBreaks front ++ withoutBreaks rest :=
  List.filter_append _ _

theorem length_le_of_found {text needle : List UInt8} {e : Nat}
    (found : CString.strstr text needle = some e) (inside : 0 < needle.length) :
    e + needle.length ≤ text.length := by
  have there := (CString.prefix_of_strstr found).length_le
  rw [List.length_drop] at there
  omega

theorem takeWhile_eq_take {text : List UInt8} {n : Nat} (hyphen : [45] <+: text.drop n)
    (free : 45 ∉ text.take n) : text.takeWhile (· ≠ 45) = text.take n := by
  obtain ⟨rest, there⟩ := hyphen
  have passed : ∀ c ∈ text.take n, decide (c ≠ 45) = true := by
    intro c inside
    apply decide_eq_true
    rintro rfl
    exact free inside
  have stops : ([45] ++ rest).takeWhile (fun c => decide (c ≠ 45)) = [] := by simp
  conv_lhs => rw [← List.take_append_drop n text, ← there]
  rw [List.takeWhile_append_of_pos passed, stops, List.append_nil]

/-- Where the text has a hyphen at `n`, the characters in front of its first hyphen are those
in front of `n` only if there is no hyphen among them. -/
theorem withoutBreaks_takeWhile_eq_iff {text : List UInt8} {n : Nat}
    (hyphen : [45] <+: text.drop n) :
    withoutBreaks (text.takeWhile (· ≠ 45)) = withoutBreaks (text.take n) ↔
      45 ∉ text.take n := by
  constructor
  · intro same inside
    have first := mem_withoutBreaks.mp (same ▸ mem_withoutBreaks.mpr inside)
    have other := List.all_eq_true.mp List.all_takeWhile 45 first
    simp at other
  · intro free
    rw [takeWhile_eq_take hyphen free]

theorem mem_take_of_hyphen {text : List UInt8} {n m : Nat} (hyphen : [45] <+: text.drop n)
    (before : n < m) : 45 ∈ text.take m := by
  have there : text[n]? = some 45 := by
    obtain ⟨rest, eq⟩ := hyphen
    have first : (text.drop n)[0]? = some 45 := by
      rw [← eq]
      rfl
    rwa [List.getElem?_drop, Nat.add_zero] at first
  apply List.mem_of_getElem?
  rw [List.getElem?_take_of_lt before]
  exact there

/-- The BEGIN line ends with a hyphen. -/
theorem hyphen_of_begin {text : List UInt8} {b : Nat}
    (found : CString.strstr text certificatePrefix = some b) : [45] <+: text.drop (b + 26) := by
  obtain ⟨rest, there⟩ := CString.prefix_of_strstr found
  rw [← List.drop_drop, ← there, List.drop_append_of_le_length (by decide)]
  exact List.prefix_append _ _

theorem hyphen_of_end {text : List UInt8} {e : Nat}
    (found : CString.strstr text certificateSuffix = some e) : [45] <+: text.drop e :=
  List.IsPrefix.trans (by decide) (CString.prefix_of_strstr found)

variable {cert : CString}

theorem certHead_of_absent (noPrefix : CString.strstr cert.bytes certificatePrefix = none) :
    certHead cert = 0 := by rw [certHead, noPrefix]

theorem certHead_of_found {b : Nat}
    (found : CString.strstr cert.bytes certificatePrefix = some b) : certHead cert = b + 27 := by
  rw [certHead, found]
  rfl

theorem certTail_of_absent (noSuffix : CString.strstr cert.bytes certificateSuffix = none) :
    certTail cert = cert.bytes.length := by
  rw [certTail, noSuffix]
  rfl

theorem certTail_of_found {e : Nat}
    (suffix : CString.strstr cert.bytes certificateSuffix = some e) : certTail cert = e := by
  rw [certTail, suffix]

theorem jwtStart_of_absent (noPrefix : CString.strstr cert.bytes certificatePrefix = none) :
    jwtStart cert = 0 := by
  rw [jwtStart, noPrefix]
  rfl

theorem jwtStart_of_found {b : Nat}
    (found : CString.strstr cert.bytes certificatePrefix = some b) : jwtStart cert = 27 := by
  rw [jwtStart, found]
  rfl

theorem betweenMarkers_none_none
    (noPrefix : CString.strstr cert.bytes certificatePrefix = none)
    (noSuffix : CString.strstr cert.bytes certificateSuffix = none) :
    betweenMarkers cert = withoutBreaks cert.bytes := by
  rw [betweenMarkers, certHead_of_absent noPrefix, certTail_of_absent noSuffix, Nat.sub_zero,
    List.drop_zero, List.take_length]

theorem betweenMarkers_none_some {e : Nat}
    (noPrefix : CString.strstr cert.bytes certificatePrefix = none)
    (suffix : CString.strstr cert.bytes certificateSuffix = some e) :
    betweenMarkers cert = withoutBreaks (cert.bytes.take e) := by
  rw [betweenMarkers, certHead_of_absent noPrefix, certTail_of_found suffix, Nat.sub_zero,
    List.drop_zero]

theorem betweenMarkers_some_none {b : Nat}
    (found : CString.strstr cert.bytes certificatePrefix = some b)
    (noSuffix : CString.strstr cert.bytes certificateSuffix = none) :
    betweenMarkers cert = withoutBreaks (cert.bytes.drop (b + 27)) := by
  rw [betweenMarkers, certHead_of_found found, certTail_of_absent noSuffix,
    List.take_of_length_le (by rw [List.length_drop])]

theorem sameBody_none_none
    (noPrefix : CString.strstr cert.bytes certificatePrefix = none)
    (noSuffix : CString.strstr cert.bytes certificateSuffix = none) :
    BothTrim cert (betweenMarkers cert) ↔
      (∃ c ∈ cert.bytes, isBreak c = true) ∧ cert.strlen < 2 ^ 31 := by
  have shorter : (withoutBreaks cert.bytes).length < cert.strlen ↔
      ∃ c ∈ cert.bytes, isBreak c = true := by
    rw [withoutBreaks, CString.strlen, List.length_filter_lt_length_iff_exists]
    simp
  rw [bothTrim_iff, certHead_of_absent noPrefix, jwtStart_of_absent noPrefix,
    betweenMarkers_none_none noPrefix noSuffix, List.drop_zero, beforeSuffix_of_absent noSuffix,
    shorter, Nat.zero_add]
  constructor
  · rintro ⟨-, small, line, -⟩
    exact ⟨line, small⟩
  · rintro ⟨line, small⟩
    exact ⟨Nat.zero_le _, small, line, rfl⟩

theorem sameBody_none_some {e : Nat}
    (noPrefix : CString.strstr cert.bytes certificatePrefix = none)
    (suffix : CString.strstr cert.bytes certificateSuffix = some e) :
    BothTrim cert (betweenMarkers cert) ↔ 45 ∉ cert.bytes.take e ∧ e < 2 ^ 31 := by
  have hyphen := hyphen_of_end suffix
  have inside : e + 25 ≤ cert.bytes.length := length_le_of_found suffix (by decide)
  rw [bothTrim_iff, certHead_of_absent noPrefix, jwtStart_of_absent noPrefix,
    betweenMarkers_none_some noPrefix suffix, List.drop_zero, beforeSuffix_of_found suffix,
    withoutBreaks_takeWhile_eq_iff hyphen, Nat.zero_add, CString.strlen]
  constructor
  · rintro ⟨-, small, -, free⟩
    rw [takeWhile_eq_take hyphen free, List.length_take] at small
    exact ⟨free, by omega⟩
  · rintro ⟨free, small⟩
    have shorter := List.length_filter_le (fun c => !isBreak c) (cert.bytes.take e)
    have taken := List.length_take_le e cert.bytes
    rw [takeWhile_eq_take hyphen free]
    refine ⟨Nat.zero_le _, by omega, ?_, free⟩
    exact Nat.lt_of_le_of_lt shorter (by omega)

/-- With the BEGIN line at `b`. -/
theorem sameBody_some_none {b : Nat}
    (found : CString.strstr cert.bytes certificatePrefix = some b)
    (noSuffix : CString.strstr cert.bytes certificateSuffix = none) :
    BothTrim cert (betweenMarkers cert) ↔ b = 0 ∧ cert.strlen < 2 ^ 31 := by
  have inside : b + 27 ≤ cert.bytes.length := length_le_of_found found (by decide)
  have shorter := List.length_filter_le (fun c => !isBreak c) (cert.bytes.drop 27)
  rw [List.length_drop] at shorter
  rw [bothTrim_iff, certHead_of_found found, certTail_of_absent noSuffix, jwtStart_of_found found,
    betweenMarkers_some_none found noSuffix,
    beforeSuffix_of_absent (CString.strstr_drop_eq_none noSuffix 27), List.length_drop,
    CString.strlen]
  constructor
  · rintro ⟨-, small, -, same⟩
    refine ⟨?_, by omega⟩
    by_contra late
    have hyphen : [45] <+: (cert.bytes.drop 27).drop (b - 1) := by
      rw [List.drop_drop, show 27 + (b - 1) = b + 26 by omega]
      exact hyphen_of_begin found
    have cut : cert.bytes.drop 27 = (cert.bytes.drop 27).take b ++ cert.bytes.drop (b + 27) := by
      rw [Nat.add_comm b, ← List.drop_drop, List.take_append_drop]
    rw [cut, withoutBreaks_append, List.append_left_eq_self] at same
    have kept := mem_take_of_hyphen hyphen (Nat.sub_lt (by omega) Nat.one_pos)
    exact withoutBreaks_ne_nil kept same
  · rintro ⟨rfl, small⟩
    exact ⟨inside, by omega, Nat.lt_of_le_of_lt shorter (by omega), rfl⟩

/-- With the BEGIN line at `b`, the first function goes from the 28th character to the next
hyphen. -/
theorem sameBody_some_some {b e : Nat}
    (found : CString.strstr cert.bytes certificatePrefix = some b)
    (suffix : CString.strstr cert.bytes certificateSuffix = some e) :
    BothTrim cert (betweenMarkers cert) ↔
      let front := (cert.bytes.drop 27).takeWhile (· ≠ 45)
      b + 27 ≤ e ∧ 27 + front.length < 2 ^ 31 ∧
        withoutBreaks front = withoutBreaks ((cert.bytes.drop (b + 27)).take (e - (b + 27))) := by
  have inside : e + 25 ≤ cert.bytes.length := length_le_of_found suffix (by decide)
  rw [bothTrim_iff, betweenMarkers, certHead_of_found found, certTail_of_found suffix,
    jwtStart_of_found found, CString.strlen]
  constructor
  · rintro ⟨ordered, small, -, same⟩
    have later := CString.strstr_drop suffix (show 27 ≤ e by omega)
    rw [beforeSuffix_of_found later] at small same
    exact ⟨ordered, small, same⟩
  · rintro ⟨ordered, small, same⟩
    have later := CString.strstr_drop suffix (show 27 ≤ e by omega)
    have shorter := List.length_filter_le (fun c => !isBreak c)
      ((cert.bytes.drop 27).takeWhile (· ≠ 45))
    have front := (List.takeWhile_prefix (fun c : UInt8 => decide (c ≠ 45))
      (l := cert.bytes.drop 27)).length_le
    rw [List.length_drop] at front
    rw [beforeSuffix_of_found later]
    refine ⟨ordered, small, ?_, same⟩
    exact Nat.lt_of_le_of_lt shorter (by omega)

/-- With the BEGIN line at the start of the text, these are the characters of the body if it
has no hyphen. -/
theorem sameBody_zero_some {e : Nat}
    (found : CString.strstr cert.bytes certificatePrefix = some 0)
    (suffix : CString.strstr cert.bytes certificateSuffix = some e) :
    BothTrim cert (betweenMarkers cert) ↔
      27 ≤ e ∧ 45 ∉ (cert.bytes.drop 27).take (e - 27) ∧ e < 2 ^ 31 := by
  have inside : e + 25 ≤ cert.bytes.length := length_le_of_found suffix (by decide)
  rw [sameBody_some_some found suffix, Nat.zero_add]
  apply and_congr_right
  intro ordered
  have hyphen : [45] <+: (cert.bytes.drop 27).drop (e - 27) := by
    rw [List.drop_drop, Nat.add_sub_cancel' ordered]
    exact hyphen_of_end suffix
  have taken : 27 + ((cert.bytes.drop 27).take (e - 27)).length = e := by
    rw [List.length_take, List.length_drop]
    omega
  rw [withoutBreaks_takeWhile_eq_iff hyphen]
  constructor
  · rintro ⟨small, free⟩
    rw [takeWhile_eq_take hyphen free, taken] at small
    exact ⟨free, small⟩
  · rintro ⟨free, small⟩
    rw [takeWhile_eq_take hyphen free, taken]
    exact ⟨small, free⟩

theorem bothTrim_betweenMarkers_iff (cert : CString) :
    BothTrim cert (betweenMarkers cert) ↔ SameBody cert := by
  rw [SameBody]
  cases found : CString.strstr cert.bytes certificatePrefix with
  | none =>
      cases suffix : CString.strstr cert.bytes certificateSuffix with
      | none => exact sameBody_none_none found suffix
      | some e => exact sameBody_none_some found suffix
  | some b =>
      cases suffix : CString.strstr cert.bytes certificateSuffix with
      | none =>
          rw [sameBody_some_none found suffix]
          cases b with
          | zero => exact and_iff_right rfl
          | succ b => exact iff_of_false (fun both => absurd both.1 (Nat.succ_ne_zero b)) id
      | some e =>
          cases b with
          | zero => exact sameBody_zero_some found suffix
          | succ b => exact sameBody_some_some found suffix

/-- A marker that stands alone is not in the text that the second function returns. -/
theorem betweenMarkers_ne_whole
    (single : (CString.strstr cert.bytes certificatePrefix).isSome ≠
      (CString.strstr cert.bytes certificateSuffix).isSome) :
    betweenMarkers cert ≠ withoutBreaks cert.bytes := by
  cases found : CString.strstr cert.bytes certificatePrefix with
  | none =>
      cases suffix : CString.strstr cert.bytes certificateSuffix with
      | none => exact absurd (by rw [found, suffix]) single
      | some e =>
          rw [betweenMarkers_none_some found suffix]
          intro same
          nth_rewrite 2 [← List.take_append_drop e cert.bytes] at same
          rw [withoutBreaks_append, List.self_eq_append_right] at same
          exact withoutBreaks_ne_nil ((hyphen_of_end suffix).mem List.mem_cons_self) same
  | some b =>
      cases suffix : CString.strstr cert.bytes certificateSuffix with
      | some e => exact absurd (by rw [found, suffix]; rfl) single
      | none =>
          rw [betweenMarkers_some_none found suffix]
          intro same
          nth_rewrite 2 [← List.take_append_drop (b + 27) cert.bytes] at same
          rw [withoutBreaks_append, List.self_eq_append_left] at same
          have kept := mem_take_of_hyphen (hyphen_of_begin found) (Nat.lt_succ_self (b + 26))
          exact withoutBreaks_ne_nil kept same

theorem betweenBoth_of_same
    (paired : (CString.strstr cert.bytes certificatePrefix).isSome =
      (CString.strstr cert.bytes certificateSuffix).isSome) :
    betweenBoth cert = betweenMarkers cert := by
  rw [betweenBoth]
  cases found : CString.strstr cert.bytes certificatePrefix with
  | none =>
      have noSuffix : CString.strstr cert.bytes certificateSuffix = none := by
        rw [found] at paired
        exact Option.isNone_iff_eq_none.mp (Option.isSome_eq_false_iff.mp paired.symm)
      rw [if_neg fun both => absurd both.1 (by decide), betweenMarkers_none_none found noSuffix]
  | some b =>
      rw [found] at paired
      rw [if_pos ⟨rfl, paired.symm⟩]

/-- Both functions return what stands between the markers, with the end of the text in the
place of a missing one, exactly when they find the same characters. A single marker they do
not leave in the text. -/
theorem trimmers_agree_iff (cert : CString) :
    (BothTrim cert (betweenMarkers cert) ↔ SameBody cert) ∧
      (BothTrim cert (betweenBoth cert) ↔
        SameBody cert ∧ (CString.strstr cert.bytes certificatePrefix).isSome =
          (CString.strstr cert.bytes certificateSuffix).isSome) := by
  refine ⟨bothTrim_betweenMarkers_iff cert, ?_⟩
  by_cases paired : (CString.strstr cert.bytes certificatePrefix).isSome =
      (CString.strstr cert.bytes certificateSuffix).isSome
  · rw [betweenBoth_of_same paired, bothTrim_betweenMarkers_iff, and_iff_left paired]
  · apply iff_of_false
    · intro both
      have whole : betweenBoth cert = withoutBreaks cert.bytes := by
        rw [betweenBoth, if_neg fun found => paired (found.1.trans found.2.symm)]
      have returned := both.2
      rw [iotNvTrimCertificate_eq, Option.ite_none_right_eq_some, Option.some.injEq, whole]
        at returned
      exact betweenMarkers_ne_whole paired returned.2
    · exact fun cond => paired cond.2

/-- A line break in front of the BEGIN line moves the first function into the line. -/
theorem leading_break_disagrees :
    let text := CString.ascii "\n-----BEGIN CERTIFICATE-----\nAAAA\n-----END CERTIFICATE-----\n"
    let cert : CString := ⟨text, by decide +kernel⟩
    iotJwtHeaderTrimCertificate cert = some [] ∧
      iotNvTrimCertificate cert = some (CString.ascii "AAAA") ∧
      ¬ BothTrim cert (betweenMarkers cert) ∧ ¬ BothTrim cert (betweenBoth cert) := by
  intro text cert
  have jwt : iotJwtHeaderTrimCertificate cert = some [] := by decide +kernel
  have nv : iotNvTrimCertificate cert = some (CString.ascii "AAAA") := by decide +kernel
  have apart (body : List UInt8) : ¬ BothTrim cert body := by
    rintro ⟨first, second⟩
    rw [jwt] at first
    rw [nv, ← first] at second
    exact absurd second (by decide +kernel)
  exact ⟨jwt, nv, apart _, apart _⟩

end StDevice.Security
