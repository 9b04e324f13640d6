import Mathlib.Tactic.Ring
import StDevice.Foundation.Cbor

/-!
# Encoding CBOR

One encoding of an item: the number of a head has the shortest form, strings are in one piece,
and a break ends arrays and maps. It is decoded to the item if numbers and lengths have 64 bits.
-/

namespace Cbor

/-- The last bytes of a number, the highest first. -/
def numberBytes : (count n : Nat) → List UInt8
  | 0, _ => []
  | count + 1, n => .ofNat (n / 256 ^ count) :: numberBytes count n

/-- What the first byte of a head says about its number. -/
def headInfo (n : Nat) : Nat :=
  if n < 24 then n
  else if n < 2 ^ 8 then 24
  else if n < 2 ^ 16 then 25
  else if n < 2 ^ 32 then 26
  else 27

def head (major n : Nat) : List UInt8 :=
  .ofNat (32 * major + headInfo n) :: numberBytes (argumentSize (headInfo n)) n

mutual

def Item.encode : Item → List UInt8
  | .integer value => head (if value < 0 then 1 else 0) (headNumber value)
  | .bytes content => head 2 content.length ++ content
  | .text content => head 3 content.length ++ content
  | .array items => 159 :: (encodeItems items ++ [255])
  | .map entries => 191 :: (encodeEntries entries ++ [255])
  | .tag number item => head 6 number ++ item.encode
  | .simple number => head 7 number
  | .float size bits => .ofNat (248 + size.log2) :: numberBytes size bits

def encodeItems : List Item → List UInt8
  | [] => []
  | item :: items => item.encode ++ encodeItems items

def encodeEntries : List (Item × Item) → List UInt8
  | [] => []
  | (key, value) :: entries => key.encode ++ value.encode ++ encodeEntries entries

end

mutual

/-- The numbers and the lengths have 64 bits, and the simple values and floats are those that
there are. -/
def Item.Encodable : Item → Prop
  | .integer value => headNumber value < 2 ^ 64
  | .bytes content => content.length < 2 ^ 64
  | .text content => content.length < 2 ^ 64
  | .array items => EncodableItems items
  | .map entries => EncodableEntries entries
  | .tag number item => number < 2 ^ 64 ∧ item.Encodable
  | .simple number => number < 24 ∨ 32 ≤ number ∧ number < 256
  | .float size bits => (size = 2 ∨ size = 4 ∨ size = 8) ∧ bits < 256 ^ size

def EncodableItems : List Item → Prop
  | [] => True
  | item :: items => item.Encodable ∧ EncodableItems items

def EncodableEntries : List (Item × Item) → Prop
  | [] => True
  | (key, value) :: entries => key.Encodable ∧ value.Encodable ∧ EncodableEntries entries

end

/-! ## Heads -/

section Heads

variable {major info n fuel : Nat} {rest : List UInt8}

@[simp] theorem length_numberBytes (count n : Nat) : (numberBytes count n).length = count := by
  induction count with
  | zero => rfl
  | succ count ih => rw [numberBytes, List.length_cons, ih]

theorem bigEndian_numberBytes {count : Nat} (small : n < 256 ^ count) :
    bigEndian (numberBytes count n) = n := by
  have go (start : Nat) : (numberBytes count n).foldl (fun n b => 256 * n + b.toNat) start =
      256 ^ count * start + n % 256 ^ count := by
    clear small
    induction count generalizing start with
    | zero => simp [numberBytes, Nat.mod_one]
    | succ count ih =>
        have byte : (UInt8.ofNat (n / 256 ^ count)).toNat = n / 256 ^ count % 256 :=
          UInt8.toNat_ofNat'
        rw [numberBytes, List.foldl_cons, ih, byte, @Nat.mod_pow_succ n 256 count]
        ring
  rw [bigEndian, go, Nat.mod_eq_of_lt small, Nat.mul_zero, Nat.zero_add]

theorem headInfo_lt (n : Nat) : headInfo n < 28 := by
  unfold headInfo
  split_ifs
  all_goals omega

/-- A number is the first part of its head, or it has as many bytes as that says. -/
theorem headInfo_cases (small : n < 2 ^ 64) :
    headInfo n = n ∧ n < 24 ∨ 24 ≤ headInfo n ∧ n < 256 ^ argumentSize (headInfo n) := by
  unfold headInfo
  split_ifs with tiny one two four
  · exact .inl ⟨rfl, tiny⟩
  · exact .inr ⟨by decide, one⟩
  · exact .inr ⟨by decide, two⟩
  · exact .inr ⟨by decide, four⟩
  · exact .inr ⟨by decide, small⟩

/-- A number is read from as many bytes as its head says. -/
theorem argument_of_lt (long : 24 ≤ info) (known : info < 28) (fits : n < 256 ^ argumentSize info) :
    argument info (numberBytes (argumentSize info) n ++ rest) = some (n, rest) := by
  have enough : ¬ (27 < info ∨
      (numberBytes (argumentSize info) n ++ rest).length < argumentSize info) := by
    rw [List.length_append, length_numberBytes]
    omega
  rw [argument, if_neg (by omega), if_neg enough, List.take_left' (length_numberBytes _ _),
    List.drop_left' (length_numberBytes _ _), bigEndian_numberBytes fits]

/-- A number of 64 bits is read from its shortest form. -/
theorem argument_numberBytes (small : n < 2 ^ 64) :
    argument (headInfo n) (numberBytes (argumentSize (headInfo n)) n ++ rest) = some (n, rest) := by
  obtain ⟨same, tiny⟩ | ⟨long, fits⟩ := headInfo_cases small
  · rw [same, argument, argumentSize, if_pos tiny, if_pos tiny]
    rfl
  · exact argument_of_lt long (headInfo_lt n) fits

/-- What the first byte of a head says. -/
theorem firstByte_eq (major_lt : major < 8) (info_lt : info < 32) :
    (UInt8.ofNat (32 * major + info)).toNat / 32 = major ∧
      (UInt8.ofNat (32 * major + info)).toNat % 32 = info := by
  have byte : (UInt8.ofNat (32 * major + info)).toNat = (32 * major + info) % 256 :=
    UInt8.toNat_ofNat'
  rw [byte]
  omega

/-- A head is no break. -/
theorem firstByte_ne (major_lt : major < 8) (n : Nat) :
    UInt8.ofNat (32 * major + headInfo n) ≠ 255 := by
  have known := headInfo_lt n
  obtain ⟨-, low⟩ := firstByte_eq major_lt (known.trans (by decide))
  intro same
  rw [← low, same] at known
  exact absurd known (by decide)

/-- An item with a head of the shortest form. -/
theorem item_of_head {bytes : List UInt8} {value : Item} (major_lt : major < 8)
    (form : Form fuel major (headInfo n) (numberBytes (argumentSize (headInfo n)) n ++ bytes) rest
      value) :
    item (fuel + 1) (head major n ++ bytes) = some (value, rest) := by
  obtain ⟨high, low⟩ := firstByte_eq major_lt ((headInfo_lt n).trans (by decide))
  rw [head, List.cons_append]
  refine item_of_form ?_
  rw [high, low]
  exact form

end Heads

/-! ## Decoding what is encoded -/

section RoundTrip

variable {fuel : Nat} {rest : List UInt8}

theorem content_encode {content : List UInt8} (small : content.length < 2 ^ 64) :
    Cbor.content (headInfo content.length)
      (numberBytes (argumentSize (headInfo content.length)) content.length ++ content ++ rest) =
        some (content, rest) := by
  have enough : ¬ (content ++ rest).length < content.length := by
    rw [List.length_append]
    omega
  rw [Cbor.content, List.append_assoc, argument_numberBytes small]
  simp only [Option.bind_eq_bind, Option.bind_some, if_neg enough, List.take_left, List.drop_left]

theorem string_encode {major : Nat} {content : List UInt8} (small : content.length < 2 ^ 64) :
    string major (headInfo content.length) fuel
      (numberBytes (argumentSize (headInfo content.length)) content.length ++ content ++ rest) =
        some (content, rest) := by
  have known := headInfo_lt content.length
  rw [string, if_neg (by omega), content_encode small]

/-- The items of a map, keys and values in turn. -/
def flatten : List (Item × Item) → List Item
  | [] => []
  | (key, value) :: entries => key :: value :: flatten entries

theorem pairUp_flatten (entries : List (Item × Item)) :
    pairUp (flatten entries) = some entries := by
  induction entries with
  | nil => rfl
  | cons entry entries ih => rw [flatten, pairUp, ih, Option.map_some]

theorem encodeEntries_eq (entries : List (Item × Item)) :
    encodeEntries entries = encodeItems (flatten entries) := by
  induction entries with
  | nil => rfl
  | cons entry entries ih =>
      rw [encodeEntries, flatten, encodeItems, encodeItems, ih, List.append_assoc]

theorem encodableItems_flatten {entries : List (Item × Item)}
    (encodable : EncodableEntries entries) : EncodableItems (flatten entries) := by
  induction entries with
  | nil => trivial
  | cons entry entries ih =>
      obtain ⟨key, value, others⟩ := encodable
      exact ⟨key, value, ih others⟩

/-- The first byte of an item is no break. -/
theorem encode_eq_cons {value : Item} (encodable : value.Encodable) :
    ∃ first behind, value.encode = first :: behind ∧ first ≠ 255 := by
  cases value with
  | integer value =>
      refine ⟨_, _, rfl, firstByte_ne ?_ _⟩
      split
      · decide
      · decide
  | bytes content => exact ⟨_, _, rfl, firstByte_ne (by decide) _⟩
  | text content => exact ⟨_, _, rfl, firstByte_ne (by decide) _⟩
  | array items => exact ⟨_, _, rfl, by decide⟩
  | map entries => exact ⟨_, _, rfl, by decide⟩
  | tag number inner => exact ⟨_, _, rfl, firstByte_ne (by decide) _⟩
  | simple number => exact ⟨_, _, rfl, firstByte_ne (by decide) _⟩
  | float size bits =>
      refine ⟨_, _, rfl, ?_⟩
      obtain ⟨rfl | rfl | rfl, -⟩ := encodable
      · decide
      · decide
      · decide

theorem form_integer {value : Int} (small : headNumber value < 2 ^ 64) :
    Form fuel (if value < 0 then 1 else 0) (headInfo (headNumber value))
      (numberBytes (argumentSize (headInfo (headNumber value))) (headNumber value) ++ rest) rest
      (.integer value) := by
  have read := @argument_numberBytes _ rest small
  by_cases negative : value < 0
  · have same : value = -1 - (headNumber value : Int) := by
      rw [headNumber, if_pos negative]
      omega
    have form : Form fuel 1 _ _ rest _ := .negative rfl read
    rw [← same] at form
    rw [if_pos negative]
    exact form
  · have same : value = (headNumber value : Int) := by
      rw [headNumber, if_neg negative]
      omega
    have form : Form fuel 0 _ _ rest _ := .unsigned rfl read
    rw [← same] at form
    rw [if_neg negative]
    exact form

theorem form_simple {number : Nat} (encodable : (Item.simple number).Encodable) :
    Form fuel 7 (headInfo number)
      (numberBytes (argumentSize (headInfo number)) number ++ rest) rest (.simple number) := by
  have small : number < 256 := by
    obtain tiny | ⟨-, small⟩ := encodable
    · omega
    · exact small
  refine .simple (by decide) (argument_numberBytes (small.trans (by decide))) ?_
  obtain tiny | ⟨large, -⟩ := encodable
  · rw [simple, headInfo, if_pos tiny, if_pos tiny]
  · have info : headInfo number = 24 := by
      rw [headInfo, if_neg (by omega), if_pos (show number < 2 ^ 8 from small)]
    rw [simple, info, if_neg (by decide), if_pos rfl, if_neg (by omega)]

theorem item_float {size bits : Nat} (encodable : (Item.float size bits).Encodable) :
    item (fuel + 1) ((Item.float size bits).encode ++ rest) = some (.float size bits, rest) := by
  obtain ⟨rfl | rfl | rfl, fits⟩ := encodable
  · have read := @argument_of_lt 25 bits rest (by decide) (by decide) fits
    exact item_of_form (.simple (by decide) read rfl)
  · have read := @argument_of_lt 26 bits rest (by decide) (by decide) fits
    exact item_of_form (.simple (by decide) read rfl)
  · have read := @argument_of_lt 27 bits rest (by decide) (by decide) fits
    exact item_of_form (.simple (by decide) read rfl)

/-- Within the fuel an item is read back from what it is encoded as. -/
def ReadsItem (fuel : Nat) : Prop :=
  ∀ (value : Item) (rest : List UInt8), value.Encodable → value.encode.length ≤ fuel →
    item fuel (value.encode ++ rest) = some (value, rest)

/-- Items are read back up to the break. -/
def ReadsItems (fuel : Nat) : Prop :=
  ∀ (values : List Item) (rest : List UInt8), EncodableItems values →
    (encodeItems values).length < fuel →
      items fuel none (encodeItems values ++ 255 :: rest) = some (values, rest)

theorem readsItem_succ (reads : ReadsItem fuel) (readsItems : ReadsItems fuel) :
    ReadsItem (fuel + 1) := by
  intro value rest encodable short
  cases value with
  | integer value =>
      refine item_of_head ?_ (form_integer encodable)
      split
      · decide
      · decide
  | bytes content =>
      rw [Item.encode, List.append_assoc]
      refine item_of_head (by decide) (.bytes rfl ?_)
      rw [← List.append_assoc]
      exact string_encode encodable
  | text content =>
      rw [Item.encode, List.append_assoc]
      refine item_of_head (by decide) (.text rfl ?_)
      rw [← List.append_assoc]
      exact string_encode encodable
  | array values =>
      rw [Item.encode, List.cons_append, List.append_assoc]
      refine item_of_form (.array rfl rfl (readsItems values rest encodable ?_))
      simp only [Item.encode, List.length_cons, List.length_append] at short
      omega
  | map entries =>
      rw [Item.encode, List.cons_append, List.append_assoc, encodeEntries_eq]
      have encodable := encodableItems_flatten encodable
      refine item_of_form
        (.map rfl rfl (readsItems _ rest encodable ?_) (pairUp_flatten entries))
      simp only [Item.encode, List.length_cons, List.length_append, encodeEntries_eq] at short
      omega
  | tag number inner =>
      obtain ⟨small, encodable⟩ := encodable
      rw [Item.encode, List.append_assoc]
      refine item_of_head (by decide)
        (.tag rfl (argument_numberBytes small) (reads inner rest encodable ?_))
      simp only [Item.encode, List.length_append, head, List.length_cons] at short
      omega
  | simple number => exact item_of_head (by decide) (form_simple encodable)
  | float size bits => exact item_float encodable

theorem readsItems_succ (reads : ReadsItem fuel) (readsItems : ReadsItems fuel) :
    ReadsItems (fuel + 1) := by
  intro values rest encodable short
  cases values with
  | nil => rfl
  | cons value values =>
      obtain ⟨first, others⟩ := encodable
      obtain ⟨byte, behind, same, proper⟩ := encode_eq_cons first
      have more : ¬ (encodeItems (value :: values) ++ 255 :: rest).head? = some 255 := by
        rw [encodeItems, same]
        exact fun stops => proper (Option.some.inj stops)
      have length : value.encode.length = behind.length + 1 := by rw [same, List.length_cons]
      rw [encodeItems, List.length_append] at short
      rw [items, if_neg more, encodeItems, List.append_assoc]
      simp only [reads value _ first (by omega), readsItems values rest others (by omega),
        Option.bind_eq_bind, Option.bind_some]

/-- The induction is on the fuel: an item has at least as many bytes as it takes fuel. -/
theorem reads (fuel : Nat) : ReadsItem fuel ∧ ReadsItems fuel := by
  induction fuel with
  | zero =>
      constructor
      · intro value rest encodable short
        obtain ⟨first, behind, same, -⟩ := encode_eq_cons encodable
        rw [same] at short
        cases short
      · intro values rest _ short
        cases short
  | succ fuel ih => exact ⟨readsItem_succ ih.1 ih.2, readsItems_succ ih.1 ih.2⟩

theorem decode_encode {value : Item} (encodable : value.Encodable) :
    decode value.encode = some value := by
  have read := (reads (2 * value.encode.length + 1)).1 value [] encodable (by omega)
  rw [List.append_nil] at read
  rw [decode, read]

end RoundTrip

end Cbor
