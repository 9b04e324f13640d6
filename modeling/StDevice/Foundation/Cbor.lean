import StDevice.Foundation.JsonGrammar

/-!
# CBOR

The data items of RFC 8949 and what a sequence of bytes says, in whichever form it is encoded:
the number of a head may have more bytes than it needs, strings may come in chunks, and arrays
and maps may end with a break. The decoder takes fuel for every item and every list of items.
-/

namespace Cbor

inductive Item where
  | integer (value : Int)
  | bytes (content : List UInt8)
  | text (content : List UInt8)
  | array (items : List Item)
  | map (entries : List (Item × Item))
  | tag (number : Nat) (item : Item)
  | simple (number : Nat)
  | float (size bits : Nat)

/-! ## Decoding -/

def bigEndian (bytes : List UInt8) : Nat := bytes.foldl (fun n b => 256 * n + b.toNat) 0

/-- The bytes behind the first byte of a head that belong to its number. -/
def argumentSize (info : Nat) : Nat := if info < 24 then 0 else 2 ^ (info - 24)

/-- The number of a head, and the bytes behind it. -/
def argument (info : Nat) (bytes : List UInt8) : Option (Nat × List UInt8) :=
  if info < 24 then some (info, bytes)
  else if 27 < info ∨ bytes.length < argumentSize info then none
  else some (bigEndian (bytes.take (argumentSize info)), bytes.drop (argumentSize info))

/-- The number in the head of an integer. -/
def headNumber (value : Int) : Nat :=
  if value < 0 then (-1 - value).toNat else value.toNat

/-- The content of a string of known length. -/
def content (info : Nat) (bytes : List UInt8) : Option (List UInt8 × List UInt8) := do
  let (len, rest) ← argument info bytes
  if rest.length < len then none else some (rest.take len, rest.drop len)

/-- The chunks of a string, up to the break. -/
def chunks (major : Nat) : Nat → List UInt8 → Option (List UInt8 × List UInt8)
  | 0, _ => none
  | _ + 1, [] => none
  | fuel + 1, first :: bytes =>
      if first = 255 then some ([], bytes)
      else if first.toNat / 32 = major then do
        let (chunk, rest) ← content (first.toNat % 32) bytes
        let (others, rest) ← chunks major fuel rest
        some (chunk ++ others, rest)
      else none

/-- The content of a string, of known length or in chunks. -/
def string (major info fuel : Nat) (bytes : List UInt8) : Option (List UInt8 × List UInt8) :=
  if info = 31 then chunks major fuel bytes else content info bytes

/-- A simple value in a byte of its own is none of the first 32. -/
def simple (info number : Nat) : Option Item :=
  if info < 24 then some (.simple number)
  else if info = 24 then if number < 32 then none else some (.simple number)
  else some (.float (argumentSize info) number)

/-- Keys and values in turn. -/
def pairUp : List Item → Option (List (Item × Item))
  | [] => some []
  | [_] => none
  | key :: value :: items => (pairUp items).map fun entries => (key, value) :: entries

/-- How many items an array or a map has, with no number if a break ends it. -/
def itemCount (each info : Nat) (bytes : List UInt8) : Option (Option Nat × List UInt8) :=
  if info = 31 then some (none, bytes)
  else (argument info bytes).map fun (n, rest) => (some (each * n), rest)

mutual

/-- One item, and the bytes behind it. -/
def item : Nat → List UInt8 → Option (Item × List UInt8)
  | 0, _ => none
  | _ + 1, [] => none
  | fuel + 1, first :: bytes =>
      let major := first.toNat / 32
      let info := first.toNat % 32
      match major with
      | 0 => (argument info bytes).map fun (n, rest) => (.integer n, rest)
      | 1 => (argument info bytes).map fun (n, rest) => (.integer (-1 - n), rest)
      | 2 => (string 2 info fuel bytes).map fun (content, rest) => (.bytes content, rest)
      | 3 => (string 3 info fuel bytes).map fun (content, rest) => (.text content, rest)
      | 4 => do
          let (count, rest) ← itemCount 1 info bytes
          let (contents, rest) ← items fuel count rest
          some (.array contents, rest)
      | 5 => do
          let (count, rest) ← itemCount 2 info bytes
          let (contents, rest) ← items fuel count rest
          let entries ← pairUp contents
          some (.map entries, rest)
      | 6 => do
          let (number, rest) ← argument info bytes
          let (inner, rest) ← item fuel rest
          some (.tag number inner, rest)
      | _ => do
          let (number, rest) ← argument info bytes
          let value ← simple info number
          some (value, rest)
termination_by structural fuel => fuel

/-- The items of a list of known length, or up to the break. -/
def items : Nat → Option Nat → List UInt8 → Option (List Item × List UInt8)
  | 0, _, _ => none
  | _ + 1, some 0, bytes => some ([], bytes)
  | fuel + 1, some (count + 1), bytes => do
      let (first, rest) ← item fuel bytes
      let (others, rest) ← items fuel (some count) rest
      some (first :: others, rest)
  | fuel + 1, none, bytes =>
      if bytes.head? = some 255 then some ([], bytes.tail)
      else do
        let (first, rest) ← item fuel bytes
        let (others, rest) ← items fuel none rest
        some (first :: others, rest)
termination_by structural fuel => fuel

end

/-- The item that the bytes are, with nothing behind it. -/
def decode (bytes : List UInt8) : Option Item :=
  match item (2 * bytes.length + 1) bytes with
  | some (value, []) => some value
  | _ => none

theorem bigEndian_lt (bytes : List UInt8) : bigEndian bytes < 256 ^ bytes.length := by
  have go (start : Nat) : bytes.foldl (fun n b => 256 * n + b.toNat) start <
      (start + 1) * 256 ^ bytes.length := by
    induction bytes generalizing start with
    | nil => simp
    | cons b bytes ih =>
        have byte := b.toNat_lt
        have step : 256 * start + b.toNat + 1 ≤ (start + 1) * 256 := by omega
        refine (ih _).trans_le ?_
        rw [List.length_cons, Nat.pow_succ, ← Nat.mul_assoc, Nat.mul_right_comm]
        exact Nat.mul_le_mul_right _ step
  exact (go 0).trans_eq (Nat.one_mul _)

/-- The number of a head has 64 bits. -/
theorem argument_lt {info n : Nat} {bytes rest : List UInt8}
    (head : argument info bytes = some (n, rest)) : n < 2 ^ 64 := by
  rw [argument] at head
  split at head
  · rename_i small
    rw [← (Prod.mk.inj (Option.some.inj head)).1]
    exact small.trans (by decide)
  · split at head
    · cases head
    · rename_i large fits
      rw [not_or, Nat.not_lt, Nat.not_lt] at fits
      rw [← (Prod.mk.inj (Option.some.inj head)).1]
      have short : (bytes.take (argumentSize info)).length ≤ 8 := by
        have power : 2 ^ (info - 24) ≤ 2 ^ 3 := Nat.pow_le_pow_right (by decide) (by omega)
        rw [List.length_take, argumentSize, if_neg large]
        exact (Nat.min_le_left _ _).trans power
      exact (bigEndian_lt _).trans_le (Nat.pow_le_pow_right (by decide) short)

theorem simple_cases {info number : Nat} {value : Item}
    (found : simple info number = some value) :
    (∃ k, value = .simple k) ∨ ∃ size bits, value = .float size bits := by
  rw [simple] at found
  split at found
  · cases found
    exact .inl ⟨_, rfl⟩
  · split at found
    · split at found
      · cases found
      · cases found
        exact .inl ⟨_, rfl⟩
    · cases found
      exact .inr ⟨_, _, rfl⟩

/-- The forms of an item behind its first byte. -/
inductive Form (fuel major info : Nat) (bytes rest : List UInt8) : Item → Prop where
  | unsigned {n : Nat} : major = 0 → argument info bytes = some (n, rest) →
      Form fuel major info bytes rest (.integer n)
  | negative {n : Nat} : major = 1 → argument info bytes = some (n, rest) →
      Form fuel major info bytes rest (.integer (-1 - n))
  | bytes {content : List UInt8} : major = 2 → string 2 info fuel bytes = some (content, rest) →
      Form fuel major info bytes rest (.bytes content)
  | text {content : List UInt8} : major = 3 → string 3 info fuel bytes = some (content, rest) →
      Form fuel major info bytes rest (.text content)
  | array {count : Option Nat} {behind : List UInt8} {contents : List Item} : major = 4 →
      itemCount 1 info bytes = some (count, behind) →
      items fuel count behind = some (contents, rest) →
      Form fuel major info bytes rest (.array contents)
  | map {count : Option Nat} {behind : List UInt8} {contents : List Item}
      {entries : List (Item × Item)} : major = 5 →
      itemCount 2 info bytes = some (count, behind) →
      items fuel count behind = some (contents, rest) → pairUp contents = some entries →
      Form fuel major info bytes rest (.map entries)
  | tag {number : Nat} {behind : List UInt8} {inner : Item} : major = 6 →
      argument info bytes = some (number, behind) → item fuel behind = some (inner, rest) →
      Form fuel major info bytes rest (.tag number inner)
  | simple {number : Nat} {value : Item} : 7 ≤ major →
      argument info bytes = some (number, rest) → simple info number = some value →
      Form fuel major info bytes rest value

theorem form_of_item {n : Nat} {bytes rest : List UInt8} {value : Item}
    (read : item n bytes = some (value, rest)) :
    ∃ fuel first behind, n = fuel + 1 ∧ bytes = first :: behind ∧
      Form fuel (first.toNat / 32) (first.toNat % 32) behind rest value := by
  cases n with
  | zero => cases read
  | succ fuel =>
      cases bytes with
      | nil => cases read
      | cons first bytes =>
          refine ⟨fuel, first, bytes, rfl, rfl, ?_⟩
          rw [item] at read
          dsimp only at read
          split at read
          case h_1 major =>
            obtain ⟨⟨n, behind⟩, head, same⟩ := Option.map_eq_some_iff.mp read
            obtain ⟨rfl, rfl⟩ := Prod.mk.inj same
            exact .unsigned major head
          case h_2 major =>
            obtain ⟨⟨n, behind⟩, head, same⟩ := Option.map_eq_some_iff.mp read
            obtain ⟨rfl, rfl⟩ := Prod.mk.inj same
            exact .negative major head
          case h_3 major =>
            obtain ⟨⟨content, behind⟩, head, same⟩ := Option.map_eq_some_iff.mp read
            obtain ⟨rfl, rfl⟩ := Prod.mk.inj same
            exact .bytes major head
          case h_4 major =>
            obtain ⟨⟨content, behind⟩, head, same⟩ := Option.map_eq_some_iff.mp read
            obtain ⟨rfl, rfl⟩ := Prod.mk.inj same
            exact .text major head
          case h_5 major =>
            obtain ⟨⟨count, behind⟩, head, more⟩ := Option.bind_eq_some_iff.mp read
            obtain ⟨⟨contents, behind'⟩, list, same⟩ := Option.bind_eq_some_iff.mp more
            obtain ⟨rfl, rfl⟩ := Prod.mk.inj (Option.some.inj same)
            exact .array major head list
          case h_6 major =>
            obtain ⟨⟨count, behind⟩, head, more⟩ := Option.bind_eq_some_iff.mp read
            obtain ⟨⟨contents, behind'⟩, list, more⟩ := Option.bind_eq_some_iff.mp more
            obtain ⟨entries, pairs, same⟩ := Option.bind_eq_some_iff.mp more
            obtain ⟨rfl, rfl⟩ := Prod.mk.inj (Option.some.inj same)
            exact .map major head list pairs
          case h_7 major =>
            obtain ⟨⟨number, behind⟩, head, more⟩ := Option.bind_eq_some_iff.mp read
            obtain ⟨⟨inner, behind'⟩, list, same⟩ := Option.bind_eq_some_iff.mp more
            obtain ⟨rfl, rfl⟩ := Prod.mk.inj (Option.some.inj same)
            exact .tag major head list
          case h_8 zero one two three four five six =>
            obtain ⟨⟨number, behind⟩, head, more⟩ := Option.bind_eq_some_iff.mp read
            obtain ⟨value, found, same⟩ := Option.bind_eq_some_iff.mp more
            obtain ⟨rfl, rfl⟩ := Prod.mk.inj (Option.some.inj same)
            change _ ≠ _ at zero one two three four five six
            exact .simple (by omega) head found

theorem item_of_form {fuel : Nat} {first : UInt8} {behind rest : List UInt8} {value : Item}
    (form : Form fuel (first.toNat / 32) (first.toNat % 32) behind rest value) :
    item (fuel + 1) (first :: behind) = some (value, rest) := by
  rw [item]
  dsimp only
  cases form with
  | unsigned major head =>
      rw [major, head]
      rfl
  | negative major head =>
      rw [major, head]
      rfl
  | bytes major content =>
      rw [major, content]
      rfl
  | text major content =>
      rw [major, content]
      rfl
  | array major head list =>
      simp only [major, head, list, Option.bind_eq_bind, Option.bind_some]
  | map major head list pairs =>
      simp only [major, head, list, pairs, Option.bind_eq_bind, Option.bind_some]
  | tag major head inner =>
      simp only [major, head, inner, Option.bind_eq_bind, Option.bind_some]
  | simple major head found =>
      obtain ⟨k, same⟩ := Nat.exists_eq_add_of_le' major
      rw [same]
      simp only [head, found, Option.bind_eq_bind, Option.bind_some]

/-! ## Items as JSON values -/

mutual

/-- The JSON value that says the same, if there is one. Keys must be texts. -/
def Item.json? : Item → Option JsonValue
  | .integer value => some (.number value)
  | .text content => some (.string content)
  | .array items => (jsonItems? items).map .array
  | .map entries => (jsonEntries? entries).map .object
  | .simple 20 => some (.bool false)
  | .simple 21 => some (.bool true)
  | .simple 22 => some .null
  | _ => none

def jsonItems? : List Item → Option (List JsonValue)
  | [] => some []
  | item :: items => do
      let first ← item.json?
      let others ← jsonItems? items
      some (first :: others)

def jsonEntries? : List (Item × Item) → Option (List (List UInt8 × JsonValue))
  | [] => some []
  | (.text key, item) :: entries => do
      let first ← item.json?
      let others ← jsonEntries? entries
      some ((key, first) :: others)
  | _ => none

end

theorem jsonItems?_cons_iff {item : Item} {items : List Item} {value : JsonValue}
    {values : List JsonValue} : jsonItems? (item :: items) = some (value :: values) ↔
      item.json? = some value ∧ jsonItems? items = some values := by
  simp [jsonItems?, Option.bind_eq_some_iff]

theorem jsonEntries?_cons_iff {key name : List UInt8} {item : Item} {entries : List (Item × Item)}
    {value : JsonValue} {members : List (List UInt8 × JsonValue)} :
    jsonEntries? ((.text key, item) :: entries) = some ((name, value) :: members) ↔
      key = name ∧ item.json? = some value ∧ jsonEntries? entries = some members := by
  simp only [jsonEntries?, Option.bind_eq_bind, Option.bind_eq_some_iff, Option.some.injEq,
    List.cons.injEq, Prod.mk.injEq]
  constructor
  · rintro ⟨first, found, others, read, ⟨rfl, rfl⟩, rfl⟩
    exact ⟨rfl, found, read⟩
  · rintro ⟨rfl, found, read⟩
    exact ⟨value, found, members, read, ⟨rfl, rfl⟩, rfl⟩

end Cbor
