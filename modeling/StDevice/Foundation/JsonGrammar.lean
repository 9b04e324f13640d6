import Mathlib.Algebra.Order.Field.Rat
import Mathlib.Algebra.BigOperators.Group.List.Basic
import StDevice.Foundation.Decimal
import StDevice.Foundation.Hex

/-!
# The grammar of JSON

A value and the texts that denote it, over bytes. The members of an object keep their order, a
number is the rational number that it is read as, and a string is the UTF-8 of its characters.
Blanks may stand around every token, and a string may write a character in more than one way.

Among the texts of a value that has no numbers there is one without blanks and escapes. It is
a text of the value only if no string has a byte that must be escaped, and no other text of the
value is shorter.
-/

inductive JsonValue where
  | null
  | bool (value : Bool)
  | number (value : ℚ)
  | string (text : List UInt8)
  | array (items : List JsonValue)
  | object (members : List (List UInt8 × JsonValue))

namespace JsonValue

open Decimal

/-! ## Numbers -/

/-- The number that digits stand for. -/
def digitsNumber (digits : List UInt8) : Nat := digits.foldl (fun n b => 10 * n + (b.toNat - 48)) 0

/-- The digits behind a point, if there is one, and the text behind them. -/
def readFraction : List UInt8 → Option (ℚ × List UInt8)
  | 46 :: text =>
      let digits := text.takeWhile isDigit
      if digits = [] then none
      else some (digitsNumber digits / 10 ^ digits.length, text.dropWhile isDigit)
  | text => some (0, text)

/-- The digits of an exponent, which end the text. -/
def readDigits (text : List UInt8) : Option Nat :=
  if text ≠ [] ∧ text.all isDigit then some (digitsNumber text) else none

/-- The power of ten that an exponent stands for. -/
def readExponent : List UInt8 → Option ℚ
  | [] => some 1
  | e :: text =>
      if e ≠ 101 ∧ e ≠ 69 then none
      else
        match text with
        | 45 :: digits => (readDigits digits).map fun n => 1 / 10 ^ n
        | 43 :: digits => (readDigits digits).map fun n => 10 ^ n
        | digits => (readDigits digits).map fun n => 10 ^ n

/-- A number without its sign. More than one digit in front of the point begin with no zero. -/
def readMagnitude (text : List UInt8) : Option ℚ :=
  let whole := text.takeWhile isDigit
  if whole = [] ∨ 1 < whole.length ∧ whole.head? = some 48 then none
  else do
    let (fraction, rest) ← readFraction (text.dropWhile isDigit)
    let power ← readExponent rest
    some ((digitsNumber whole + fraction) * power)

def readNumber : List UInt8 → Option ℚ
  | 45 :: text => (readMagnitude text).map fun q => -q
  | text => readMagnitude text

section Printed

variable {n : Nat} {rest : List UInt8}

theorem digitsNumber_lt {digits : List UInt8} (all : ∀ b ∈ digits, isDigit b = true) :
    digitsNumber digits < 10 ^ digits.length := by
  have go (start : Nat) : digits.foldl (fun n b => 10 * n + (b.toNat - 48)) start <
      (start + 1) * 10 ^ digits.length := by
    induction digits generalizing start with
    | nil => simp
    | cons b digits ih =>
        have digit := all b List.mem_cons_self
        simp only [isDigit, Bool.and_eq_true, decide_eq_true_eq, UInt8.le_iff_toNat_le,
          UInt8.reduceToNat] at digit
        refine (ih (fun c mem => all c (List.mem_cons_of_mem b mem)) _).trans_le ?_
        rw [List.length_cons, Nat.pow_succ, ← Nat.mul_assoc, Nat.mul_right_comm]
        have step : 10 * start + (b.toNat - 48) + 1 ≤ (start + 1) * 10 := by omega
        exact Nat.mul_le_mul_right _ step
  exact (go 0).trans_eq (Nat.one_mul _)

theorem takeWhile_decimalNat (ends : ∀ b ∈ rest.head?, isDigit b = false) :
    (decimalNat n ++ rest).takeWhile isDigit = decimalNat n ∧
      (decimalNat n ++ rest).dropWhile isDigit = rest := by
  rw [List.takeWhile_append_of_pos (decimalNat_digits n),
    List.dropWhile_append_of_pos (decimalNat_digits n)]
  cases rest with
  | nil => exact ⟨List.append_nil _, rfl⟩
  | cons b rest =>
      have stop : ¬ isDigit b = true := by simp [ends b rfl]
      rw [List.takeWhile_cons_of_neg stop, List.dropWhile_cons_of_neg stop]
      exact ⟨List.append_nil _, rfl⟩

theorem digitsNumber_decimalNat (n : Nat) : digitsNumber (decimalNat n) = n := by
  have all : (decimalNat n).takeWhile isDigit = decimalNat n :=
    List.takeWhile_eq_self_iff.mpr (decimalNat_digits n)
  have value := digitsValue_decimalNat n
  rw [digitsValue, all] at value
  exact Int.ofNat.inj value

/-- A number is printed with no zero in front. -/
theorem head?_decimalNat (long : 1 < (decimalNat n).length) : (decimalNat n).head? ≠ some 48 := by
  intro zero
  have digits := decimalNat_digits n
  have value := digitsNumber_decimalNat n
  have most (k : Nat) (positive : 0 < k) := @length_decimalNat_le_iff n k positive
  cases same : decimalNat n with
  | nil =>
      rw [same] at zero
      cases zero
  | cons b rest =>
      rw [same] at zero digits value long most
      obtain rfl : b = 48 := Option.some.inj zero
      rw [List.length_cons] at long most
      have less : n < 10 ^ rest.length :=
        value ▸ digitsNumber_lt fun c mem => digits c (List.mem_cons_of_mem _ mem)
      exact absurd ((most _ (by omega)).mpr less) (by omega)

/-- A number that is printed, and what follows it. -/
theorem readMagnitude_append (ends : ∀ b ∈ rest.head?, isDigit b = false) :
    readMagnitude (decimalNat n ++ rest) = (do
      let (fraction, rest) ← readFraction rest
      let power ← readExponent rest
      some ((n + fraction) * power)) := by
  obtain ⟨digits, behind⟩ := takeWhile_decimalNat ends
  have proper : ¬ (decimalNat n = [] ∨
      1 < (decimalNat n).length ∧ (decimalNat n).head? = some 48) := by
    rintro (empty | ⟨long, zero⟩)
    · exact decimalNat_ne_nil n empty
    · exact head?_decimalNat long zero
  rw [readMagnitude, digits, behind, if_neg proper, digitsNumber_decimalNat]

theorem readMagnitude_decimalNat (n : Nat) : readMagnitude (decimalNat n) = some (n : ℚ) := by
  have whole := @readMagnitude_append n [] (by simp)
  rw [List.append_nil] at whole
  simp [whole, readFraction, readExponent]

/-- Two numbers on the sides of a point. -/
theorem readMagnitude_point (q f : Nat) :
    readMagnitude (decimalNat q ++ 46 :: decimalNat f) =
      some ((q : ℚ) + f / 10 ^ (decimalNat f).length) := by
  have digits := @takeWhile_decimalNat f [] (by simp)
  rw [List.append_nil] at digits
  have fraction : readFraction (46 :: decimalNat f) =
      some ((f : ℚ) / 10 ^ (decimalNat f).length, []) := by
    rw [readFraction, digits.1, digits.2, if_neg (decimalNat_ne_nil f), digitsNumber_decimalNat]
  rw [readMagnitude_append (by simp [isDigit]), fraction]
  simp [readExponent]

/-- A text that begins with a digit has no sign. -/
theorem readNumber_digits (n : Nat) (rest : List UInt8) :
    readNumber (decimalNat n ++ rest) = readMagnitude (decimalNat n ++ rest) := by
  have digits := decimalNat_digits n
  cases same : decimalNat n with
  | nil => exact absurd same (decimalNat_ne_nil n)
  | cons b digits' =>
      rw [same] at digits
      have digit := digits b List.mem_cons_self
      rw [List.cons_append, readNumber]
      intro text sign
      rw [(List.cons.inj sign).1] at digit
      exact absurd digit (by decide)

/-- What is printed is read as the same number. -/
theorem readNumber_decimal (n : Int) : readNumber (decimal n) = some (n : ℚ) := by
  by_cases negative : n < 0
  · have sign : -((n.natAbs : Int) : ℚ) = n := by
      rw [← Int.cast_neg, Int.ofNat_natAbs_of_nonpos negative.le, Int.neg_neg]
    rw [decimal, if_pos negative, readNumber, readMagnitude_decimalNat]
    exact congrArg some sign
  · have same : ((n.natAbs : Int) : ℚ) = n := by
      rw [Int.natAbs_of_nonneg (Int.not_lt.mp negative)]
    have whole := readNumber_digits n.natAbs []
    rw [List.append_nil, readMagnitude_decimalNat] at whole
    rw [decimal, if_neg negative, whole]
    exact congrArg some same

end Printed

/-! ## Strings -/

/-- Quotation marks, backslashes and control characters must be escaped. -/
def isPlain (b : UInt8) : Bool := 32 ≤ b && b != 34 && b != 92

/-- What a backslash and a character stand for. -/
def escapeOf (c : UInt8) : Option UInt8 :=
  [(34, 34), (92, 92), (47, 47), (98, 8), (102, 12), (110, 10), (114, 13), (116, 9)].lookup c

/-- The number of four hexadecimal digits. -/
def hexNumber (digits : List UInt8) : Nat :=
  digits.foldl (fun n c => 16 * n + (Hex.value c).toNat) 0

/-- The text between the quotation marks, and the string. -/
inductive Chars : List UInt8 → List UInt8 → Prop where
  | nil : Chars [] []
  | plain {b : UInt8} {text s : List UInt8} :
      isPlain b = true → Chars text s → Chars (b :: text) (b :: s)
  | escaped {c b : UInt8} {text s : List UInt8} :
      escapeOf c = some b → Chars text s → Chars (92 :: c :: text) (b :: s)
  /-- A character of the basic plane. -/
  | unicode {digits text s : List UInt8} {char : Char} :
      digits.length = 4 → (∀ c ∈ digits, Hex.IsDigit c) → char.toNat = hexNumber digits →
      Chars text s → Chars (92 :: 117 :: digits ++ text) (String.utf8EncodeChar char ++ s)
  /-- Another character, as a pair of surrogates. -/
  | pair {high low text s : List UInt8} {char : Char} :
      high.length = 4 → (∀ c ∈ high, Hex.IsDigit c) →
      low.length = 4 → (∀ c ∈ low, Hex.IsDigit c) →
      0xd800 ≤ hexNumber high → hexNumber high < 0xdc00 →
      0xdc00 ≤ hexNumber low → hexNumber low < 0xe000 →
      char.toNat = 0x10000 + (hexNumber high - 0xd800) * 0x400 + (hexNumber low - 0xdc00) →
      Chars text s →
      Chars (92 :: 117 :: high ++ 92 :: 117 :: low ++ text) (String.utf8EncodeChar char ++ s)

/-! ## Values -/

def Blank (text : List UInt8) : Prop := ∀ b ∈ text, b = 32 ∨ b = 9 ∨ b = 10 ∨ b = 13

/-- What a text may stand for: a value, or the contents of an array or an object. -/
inductive Part where
  | value (v : JsonValue)
  | elements (items : List JsonValue)
  | members (members : List (List UInt8 × JsonValue))

/-- The texts of a part. -/
inductive Denotes : List UInt8 → Part → Prop where
  | null : Denotes (CString.ascii "null") (.value .null)
  | true : Denotes (CString.ascii "true") (.value (.bool Bool.true))
  | false : Denotes (CString.ascii "false") (.value (.bool Bool.false))
  | number {text : List UInt8} {q : ℚ} :
      readNumber text = some q → Denotes text (.value (.number q))
  | string {text s : List UInt8} :
      Chars text s → Denotes (34 :: text ++ [34]) (.value (.string s))
  | array {text : List UInt8} {items : List JsonValue} :
      Denotes text (.elements items) → Denotes (91 :: text ++ [93]) (.value (.array items))
  | object {text : List UInt8} {members : List (List UInt8 × JsonValue)} :
      Denotes text (.members members) → Denotes (123 :: text ++ [125]) (.value (.object members))
  | noElements {blank : List UInt8} : Blank blank → Denotes blank (.elements [])
  | element {before text after : List UInt8} {v : JsonValue} :
      Blank before → Denotes text (.value v) → Blank after →
      Denotes (before ++ text ++ after) (.elements [v])
  | moreElements {before text after rest : List UInt8} {v next : JsonValue}
      {items : List JsonValue} :
      Blank before → Denotes text (.value v) → Blank after →
      Denotes rest (.elements (next :: items)) →
      Denotes (before ++ text ++ after ++ 44 :: rest) (.elements (v :: next :: items))
  | noMembers {blank : List UInt8} : Blank blank → Denotes blank (.members [])
  | member {before key s between behind text after : List UInt8} {v : JsonValue} :
      Blank before → Chars key s → Blank between → Blank behind → Denotes text (.value v) →
      Blank after →
      Denotes (before ++ 34 :: key ++ 34 :: between ++ 58 :: behind ++ text ++ after)
        (.members [(s, v)])
  | moreMembers {before key s between behind text after rest : List UInt8} {v : JsonValue}
      {next : List UInt8 × JsonValue} {members : List (List UInt8 × JsonValue)} :
      Blank before → Chars key s → Blank between → Blank behind → Denotes text (.value v) →
      Blank after → Denotes rest (.members (next :: members)) →
      Denotes (before ++ 34 :: key ++ 34 :: between ++ 58 :: behind ++ text ++ after ++ 44 :: rest)
        (.members ((s, v) :: next :: members))

def IsUtf8 (text : List UInt8) : Prop :=
  ∃ chars : List Char, text = chars.flatMap String.utf8EncodeChar

/-- A JSON text of the value. -/
def IsText (text : List UInt8) (v : JsonValue) : Prop :=
  IsUtf8 text ∧ ∃ before middle after,
    Blank before ∧ Denotes middle (.value v) ∧ Blank after ∧ text = before ++ middle ++ after

/-! ## The text without blanks and escapes -/

mutual

/-- The strings of a value and the names of its members, at any depth. -/
def strings : JsonValue → List (List UInt8)
  | string text => [text]
  | array items => elementsStrings items
  | object members => membersStrings members
  | _ => []

def elementsStrings : List JsonValue → List (List UInt8)
  | [] => []
  | v :: items => v.strings ++ elementsStrings items

def membersStrings : List (List UInt8 × JsonValue) → List (List UInt8)
  | [] => []
  | (name, v) :: members => name :: v.strings ++ membersStrings members

end

mutual

/-- The value has neither a number nor `null` in it. -/
def isTextual : JsonValue → Bool
  | null => false
  | number _ => false
  | array items => elementsTextual items
  | object members => membersTextual members
  | _ => true

def elementsTextual : List JsonValue → Bool
  | [] => true
  | v :: items => v.isTextual && elementsTextual items

def membersTextual : List (List UInt8 × JsonValue) → Bool
  | [] => true
  | (_, v) :: members => v.isTextual && membersTextual members

end

mutual

/-- The text without blanks and escapes. A number, which has many texts, is left out. -/
def text : JsonValue → List UInt8
  | null => CString.ascii "null"
  | bool value => if value then CString.ascii "true" else CString.ascii "false"
  | number _ => []
  | string s => 34 :: s ++ [34]
  | array items => 91 :: elementsText false items ++ [93]
  | object members => 123 :: membersText false members ++ [125]

/-- The elements, with a comma in front of every one but perhaps the first. -/
def elementsText : Bool → List JsonValue → List UInt8
  | _, [] => []
  | comma, v :: items => (if comma then [44] else []) ++ v.text ++ elementsText true items

def membersText : Bool → List (List UInt8 × JsonValue) → List UInt8
  | _, [] => []
  | comma, (name, v) :: members =>
      (if comma then [44] else []) ++ (34 :: name ++ [34, 58]) ++ v.text ++ membersText true members

end

/-- No string has a byte that must be escaped. -/
def Plain (v : JsonValue) : Prop := ∀ s ∈ v.strings, ∀ b ∈ s, isPlain b = true

namespace Part

def text : Part → List UInt8
  | value v => v.text
  | elements items => elementsText false items
  | members list => membersText false list

def strings : Part → List (List UInt8)
  | value v => v.strings
  | elements items => elementsStrings items
  | members list => membersStrings list

/-- How many bytes must be escaped. -/
def special (part : Part) : Nat := (part.strings.flatten).countP fun b => !isPlain b

end Part

theorem elementsText_true (v : JsonValue) (items : List JsonValue) :
    elementsText true (v :: items) = 44 :: elementsText false (v :: items) := by
  simp [elementsText]

theorem membersText_true (member : List UInt8 × JsonValue)
    (members : List (List UInt8 × JsonValue)) :
    membersText true (member :: members) = 44 :: membersText false (member :: members) := by
  simp [membersText]

/-- An ASCII character other than NUL. -/
def isAscii (b : UInt8) : Bool := decide (0 < b) && decide (b < 128)

/-- What holds of single ASCII characters, and of texts that are put one behind the other. -/
structure Closed (P : List UInt8 → Prop) : Prop where
  nil : P []
  append : ∀ a b, P a → P b → P (a ++ b)
  char : ∀ b : UInt8, 0 < b → b < 128 → P [b]

namespace Closed

variable {P : List UInt8 → Prop}

theorem ascii (closed : Closed P) (chars : List UInt8) (small : chars.all isAscii = true) :
    P chars := by
  induction chars with
  | nil => exact closed.nil
  | cons b chars ih =>
      rw [List.all_cons, Bool.and_eq_true, isAscii, Bool.and_eq_true, decide_eq_true_iff,
        decide_eq_true_iff] at small
      obtain ⟨⟨positive, low⟩, others⟩ := small
      exact closed.append [b] chars (closed.char b positive low) (ih others)

theorem comma (closed : Closed P) (comma : Bool) : P (if comma then [44] else []) := by
  cases comma with
  | false => exact closed.nil
  | true => exact closed.ascii _ rfl

/-- A text between two characters. -/
theorem between (closed : Closed P) (first last : List UInt8) {middle : List UInt8}
    (inside : P middle) (left : first.all isAscii = true) (right : last.all isAscii = true) :
    P (first ++ (middle ++ last)) :=
  closed.append _ _ (closed.ascii first left) (closed.append _ _ inside (closed.ascii last right))

mutual

/-- It holds of the text of a value if it holds of the strings. -/
theorem text (closed : Closed P) : ∀ v : JsonValue, v.isTextual = true →
    (∀ s ∈ v.strings, P s) → P v.text
  | .null, textual, _ => absurd textual (by simp [isTextual])
  | .number _, textual, _ => absurd textual (by simp [isTextual])
  | .bool false, _, _ => closed.ascii (CString.ascii "false") rfl
  | .bool true, _, _ => closed.ascii (CString.ascii "true") rfl
  | .string s, _, all => closed.between [34] [34] (all s (by simp [strings])) rfl rfl
  | .array items, textual, all => by
      rw [isTextual] at textual
      rw [strings] at all
      exact closed.between [91] [93] (closed.elements items textual all false) rfl rfl
  | .object members, textual, all => by
      rw [isTextual] at textual
      rw [strings] at all
      exact closed.between [123] [125] (closed.members members textual all false) rfl rfl

theorem elements (closed : Closed P) : ∀ items : List JsonValue, elementsTextual items = true →
    (∀ s ∈ elementsStrings items, P s) → ∀ comma, P (elementsText comma items)
  | [], _, _, _ => closed.nil
  | v :: items, textual, all, comma => by
      rw [elementsTextual, Bool.and_eq_true] at textual
      rw [elementsStrings, List.forall_mem_append] at all
      rw [elementsText]
      have first := closed.append _ _ (closed.comma comma) (closed.text v textual.1 all.1)
      exact closed.append _ _ first (closed.elements items textual.2 all.2 true)

theorem members (closed : Closed P) : ∀ members : List (List UInt8 × JsonValue),
    membersTextual members = true → (∀ s ∈ membersStrings members, P s) →
      ∀ comma, P (membersText comma members)
  | [], _, _, _ => closed.nil
  | (name, v) :: members, textual, all, comma => by
      rw [membersTextual, Bool.and_eq_true] at textual
      rw [membersStrings, List.cons_append, List.forall_mem_cons, List.forall_mem_append] at all
      rw [membersText]
      have key : P (34 :: name ++ [34, 58]) :=
        closed.between [34] [34, 58] all.1 rfl rfl
      have first := closed.append _ _ (closed.append _ _ (closed.comma comma) key)
        (closed.text v textual.1 all.2.1)
      exact closed.append _ _ first (closed.members members textual.2 all.2.2 true)

end

end Closed

theorem closed_isUtf8 : Closed IsUtf8 where
  nil := ⟨[], rfl⟩
  append := by
    rintro a b ⟨chars, rfl⟩ ⟨others, rfl⟩
    exact ⟨chars ++ others, List.flatMap_append.symm⟩
  char b positive small := by
    refine ⟨[Char.ofNat b.toNat], ?_⟩
    have short : b.toNat ≤ 127 := Nat.lt_succ_iff.mp (UInt8.lt_iff_toNat_lt.mp small)
    have valid : b.toNat.isValidChar := .inl (by omega)
    have code : (Char.ofNat b.toNat).val.toNat = b.toNat := by
      rw [Char.ofNat, dif_pos valid]
      rfl
    simp [String.utf8EncodeChar, code, short]

theorem closed_notMem_zero : Closed fun text => 0 ∉ text where
  nil := List.not_mem_nil
  append a b left right inside := (List.mem_append.mp inside).elim left right
  char b positive _ inside := absurd positive (by rw [← List.mem_singleton.mp inside]; decide)

/-! ## Which texts are that short -/

section Length

theorem toNat_value_lt {c : UInt8} (hex : Hex.IsDigit c) : (Hex.value c).toNat < 16 :=
  UInt8.lt_iff_toNat_lt.mp (Hex.value_lt hex)

theorem hexNumber_lt {digits : List UInt8} (hex : ∀ c ∈ digits, Hex.IsDigit c) :
    hexNumber digits < 16 ^ digits.length := by
  have bound (l : List UInt8) (n : Nat) (hex : ∀ c ∈ l, Hex.IsDigit c) :
      l.foldl (fun n c => 16 * n + (Hex.value c).toNat) n < 16 ^ l.length * (n + 1) := by
    induction l generalizing n with
    | nil => simp
    | cons c l ih =>
        obtain ⟨first, others⟩ := List.forall_mem_cons.mp hex
        have digit := toNat_value_lt first
        refine Nat.lt_of_lt_of_le (ih _ others) ?_
        rw [List.length_cons, Nat.pow_succ, Nat.mul_assoc]
        exact Nat.mul_le_mul_left _ (by dsimp only; omega)
  have whole := bound digits 0 hex
  rwa [Nat.zero_add, Nat.mul_one] at whole

/-- The UTF-8 of a character is no longer than three bytes in the basic plane. -/
theorem length_utf8_le {char : Char} :
    (String.utf8EncodeChar char).length ≤ 4 ∧
      (char.toNat < 2 ^ 16 → (String.utf8EncodeChar char).length ≤ 3) := by
  have same : char.toNat = char.val.toNat := rfl
  fun_cases String.utf8EncodeChar char
  all_goals simp only [List.length_cons, List.length_nil]
  all_goals omega

/-- A string takes a character for each byte, and one more for each that must be escaped. -/
theorem Chars.length_le {text s : List UInt8} (chars : Chars text s) :
    s.length + s.countP (fun b => !isPlain b) ≤ text.length := by
  induction chars with
  | nil => exact Nat.le_refl _
  | plain plain _ ih =>
      rw [List.countP_cons_of_neg (by simp [plain]), List.length_cons, List.length_cons]
      omega
  | @escaped c b text s _ _ ih =>
      have one : (b :: s).countP (fun b => !isPlain b) ≤ s.countP (fun b => !isPlain b) + 1 := by
        rw [List.countP_cons]
        split <;> omega
      simp only [List.length_cons]
      omega
  | @unicode digits text s char four hex same _ ih =>
      have small : (String.utf8EncodeChar char).length ≤ 3 := by
        refine length_utf8_le.2 ?_
        rw [same]
        have bound := hexNumber_lt hex
        rwa [four] at bound
      have marked := @List.countP_le_length _ (fun b => !isPlain b) (String.utf8EncodeChar char)
      simp only [List.length_append, List.countP_append, List.length_cons]
      omega
  | @pair high low text s char four _ four' _ _ _ _ _ _ _ ih =>
      have small := (@length_utf8_le char).1
      have marked := @List.countP_le_length _ (fun b => !isPlain b) (String.utf8EncodeChar char)
      simp only [List.length_append, List.countP_append, List.length_cons]
      omega

/-- No text of the value is shorter than its text without blanks and escapes, of which the
bytes that must be escaped count twice. -/
theorem Denotes.length_le {text : List UInt8} {part : Part} (denotes : Denotes text part) :
    part.text.length + part.special ≤ text.length := by
  induction denotes with
  | null => exact Nat.le_refl _
  | true => exact Nat.le_refl _
  | false => exact Nat.le_refl _
  | number _ => exact Nat.zero_le _
  | string chars =>
      have longer := chars.length_le
      simp only [Part.text, Part.special, Part.strings, JsonValue.text, JsonValue.strings,
        List.flatten_cons, List.flatten_nil, List.append_nil, List.length_append, List.length_cons]
      omega
  | array _ ih =>
      simp only [Part.text, Part.special, Part.strings, JsonValue.text, JsonValue.strings,
        List.length_append, List.length_cons] at ih ⊢
      omega
  | object _ ih =>
      simp only [Part.text, Part.special, Part.strings, JsonValue.text, JsonValue.strings,
        List.length_append, List.length_cons] at ih ⊢
      omega
  | noElements _ => exact Nat.zero_le _
  | element _ _ _ ih =>
      simp only [Part.text, Part.special, Part.strings, elementsText, elementsStrings,
        List.length_append, List.append_nil] at ih ⊢
      simp only [List.length_nil, Bool.false_eq_true, if_false]
      omega
  | moreElements _ _ _ _ first others =>
      simp only [Part.text, Part.special, Part.strings] at first others ⊢
      rw [elementsText, elementsText_true, elementsStrings, List.flatten_append,
        List.countP_append]
      simp only [List.length_append, List.length_cons, List.length_nil, Bool.false_eq_true,
        if_false]
      omega
  | noMembers _ => exact Nat.zero_le _
  | member _ chars _ _ _ _ ih =>
      have longer := chars.length_le
      simp only [Part.text, Part.special, Part.strings, membersText, membersStrings] at ih ⊢
      simp only [List.length_append, List.append_nil, List.length_cons, List.length_nil,
        Bool.false_eq_true, if_false, List.flatten_cons, List.countP_append]
      omega
  | moreMembers _ chars _ _ _ _ _ first others =>
      have longer := chars.length_le
      simp only [Part.text, Part.special, Part.strings] at first others ⊢
      rw [membersText, membersText_true, membersStrings]
      simp only [List.length_append, List.length_cons, List.length_nil, Bool.false_eq_true,
        if_false, List.flatten_cons, List.flatten_append, List.countP_append, List.cons_append]
      omega

end Length

section Plain

theorem chars_of_plain {s : List UInt8} (plain : ∀ b ∈ s, isPlain b = true) : Chars s s := by
  induction s with
  | nil => exact .nil
  | cons b s ih =>
      obtain ⟨first, others⟩ := List.forall_mem_cons.mp plain
      exact .plain first (ih others)

theorem blank_nil : Blank [] := fun _ inside => absurd inside List.not_mem_nil

mutual

/-- The text without blanks and escapes is a text of the value if nothing must be escaped. -/
theorem denotes_text : ∀ v : JsonValue, v.isTextual = true → v.Plain → Denotes v.text (.value v)
  | .null, textual, _ => absurd textual (by simp [isTextual])
  | .number _, textual, _ => absurd textual (by simp [isTextual])
  | .bool false, _, _ => .false
  | .bool true, _, _ => .true
  | .string s, _, plain => .string (chars_of_plain (plain s (by simp [strings])))
  | .array items, textual, plain => by
      rw [isTextual] at textual
      rw [Plain, strings] at plain
      exact .array (denotes_elements items textual plain)
  | .object members, textual, plain => by
      rw [isTextual] at textual
      rw [Plain, strings] at plain
      exact .object (denotes_members members textual plain)

theorem denotes_elements : ∀ items : List JsonValue, elementsTextual items = true →
    (∀ s ∈ elementsStrings items, ∀ b ∈ s, isPlain b = true) →
      Denotes (elementsText false items) (.elements items)
  | [], _, _ => .noElements blank_nil
  | [v], textual, plain => by
      rw [elementsTextual, Bool.and_eq_true] at textual
      rw [elementsStrings, List.forall_mem_append] at plain
      exact .element blank_nil (denotes_text v textual.1 plain.1) blank_nil
  | v :: next :: items, textual, plain => by
      rw [elementsTextual, Bool.and_eq_true] at textual
      rw [elementsStrings, List.forall_mem_append] at plain
      have others := denotes_elements (next :: items) textual.2 plain.2
      have whole := Denotes.moreElements blank_nil (denotes_text v textual.1 plain.1) blank_nil
        others
      rw [elementsText, elementsText_true]
      rwa [List.append_nil] at whole

theorem denotes_members : ∀ members : List (List UInt8 × JsonValue),
    membersTextual members = true →
      (∀ s ∈ membersStrings members, ∀ b ∈ s, isPlain b = true) →
        Denotes (membersText false members) (.members members)
  | [], _, _ => .noMembers blank_nil
  | [(name, v)], textual, plain => by
      rw [membersTextual, Bool.and_eq_true] at textual
      rw [membersStrings, List.cons_append, List.forall_mem_cons, List.forall_mem_append] at plain
      have whole := Denotes.member blank_nil (chars_of_plain plain.1) blank_nil blank_nil
        (denotes_text v textual.1 plain.2.1) blank_nil
      simpa [membersText] using whole
  | (name, v) :: next :: members, textual, plain => by
      rw [membersTextual, Bool.and_eq_true] at textual
      rw [membersStrings, List.cons_append, List.forall_mem_cons, List.forall_mem_append] at plain
      have others := denotes_members (next :: members) textual.2 plain.2.2
      have whole := Denotes.moreMembers blank_nil (chars_of_plain plain.1) blank_nil blank_nil
        (denotes_text v textual.1 plain.2.1) blank_nil others
      rw [membersText, membersText_true]
      simpa using whole

end

/-- The text without blanks and escapes is a JSON text of a value without numbers if and only
if nothing must be escaped. -/
theorem isText_text_iff {v : JsonValue} (textual : v.isTextual = true)
    (utf8 : ∀ s ∈ v.strings, IsUtf8 s) : IsText v.text v ↔ v.Plain := by
  constructor
  · rintro ⟨-, before, middle, after, -, denotes, -, same⟩
    have short := denotes.length_le
    have whole := congrArg List.length same
    simp only [Part.text, List.length_append] at short whole
    have none : (Part.value v).special = 0 := by omega
    rw [Part.special, List.countP_eq_zero] at none
    intro s inside b mem
    simpa using none b (List.mem_flatten.mpr ⟨s, inside, mem⟩)
  · intro plain
    refine ⟨closed_isUtf8.text v textual utf8, [], v.text, [], blank_nil,
      denotes_text v textual plain, blank_nil, ?_⟩
    rw [List.nil_append, List.append_nil]

end Plain

end JsonValue
