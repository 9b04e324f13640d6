import StDevice.Foundation.Cbor
import StDevice.Tinycbor.Parser

/-!
# What the iterator sees

Where RFC 8949 says what the bytes at an iterator are, the iterator shows it, and goes on
behind it. An iterator inside an array or a map arrives at one item after the other, until no
items are left.
-/

namespace StDevice.Tinycbor

open Cbor

section Numbers

variable {descriptor : UInt8} {bytes rest content : List UInt8} {n fuel : Nat}

theorem getNumber_eq : getNumber = bigEndian := rfl

theorem bytesNeeded_eq : bytesNeeded = argumentSize := rfl

/-- The number of a head. -/
theorem extractNumber_eq (head : argument (smallValue descriptor) bytes = some (n, rest)) :
    extractNumber (descriptor :: bytes) = .done (n, rest) := by
  rw [argument] at head
  rw [extractNumber, bytesNeeded_eq, getNumber_eq]
  split at head
  · rename_i small
    obtain ⟨rfl, rfl⟩ := Prod.mk.inj (Option.some.inj head)
    rw [if_pos small]
  · rename_i large
    split at head
    · cases head
    · rename_i fits
      obtain ⟨rfl, rfl⟩ := Prod.mk.inj (Option.some.inj head)
      rw [not_or] at fits
      rw [if_neg large, if_neg fits.1, if_neg fits.2]

theorem extractChunk_eq (head : Cbor.content (smallValue descriptor) bytes = some (content, rest)) :
    extractChunk (descriptor :: bytes) = .done (content, rest) := by
  obtain ⟨⟨len, behind⟩, number, fits⟩ := Option.bind_eq_some_iff.mp head
  dsimp only at fits
  split at fits
  · cases fits
  · rename_i enough
    obtain ⟨rfl, rfl⟩ := Prod.mk.inj (Option.some.inj fits)
    rw [extractChunk, extractNumber_eq number, Fallible.done_bind]
    exact if_neg enough

theorem typeOfMajor_text {major : Nat} : typeOfMajor major = .textString ↔ major = 3 := by
  refine ⟨fun same => ?_, fun same => same ▸ rfl⟩
  match major with
  | 3 => rfl
  | 0 | 1 | 2 | 4 | 5 | 6 => cases same
  | _ + 7 => cases same

theorem length_of_content {info : Nat} (read : Cbor.content info bytes = some (content, rest)) :
    rest.length ≤ bytes.length := by
  obtain ⟨⟨len, behind⟩, number, fits⟩ := Option.bind_eq_some_iff.mp read
  dsimp only at fits
  split at fits
  · cases fits
  · obtain ⟨-, rfl⟩ := Prod.mk.inj (Option.some.inj fits)
    have shorter : behind.length ≤ bytes.length := by
      rw [argument] at number
      split at number
      · rw [(Prod.mk.inj (Option.some.inj number)).2]
      · split at number
        · cases number
        · rw [← (Prod.mk.inj (Option.some.inj number)).2, List.length_drop]
          exact Nat.sub_le _ _
    rw [List.length_drop]
    omega

/-- The chunks of a text. -/
theorem stringChunks_eq {room : Nat} (read : chunks 3 fuel bytes = some (content, rest))
    (enough : bytes.length ≤ room) :
    stringChunks .textString room bytes = .done (content, rest) := by
  induction fuel generalizing bytes content room with
  | zero => cases read
  | succ fuel ih =>
      cases bytes with
      | nil => cases read
      | cons first bytes =>
          obtain ⟨room, rfl⟩ : ∃ more, room = more + 1 :=
            ⟨room - 1, by rw [List.length_cons] at enough; omega⟩
          rw [chunks] at read
          rw [stringChunks, breakByte]
          by_cases ends : first = 255
          · rw [if_pos ends] at read ⊢
            obtain ⟨rfl, rfl⟩ := Prod.mk.inj (Option.some.inj read)
            rfl
          · rw [if_neg ends] at read ⊢
            by_cases text : first.toNat / 32 = 3
            · rw [if_pos text] at read
              have same : typeOfMajor (majorType first) = .textString := typeOfMajor_text.mpr text
              rw [if_pos same]
              obtain ⟨⟨chunk, behind⟩, here, later⟩ := Option.bind_eq_some_iff.mp read
              obtain ⟨⟨others, behind'⟩, there, final⟩ := Option.bind_eq_some_iff.mp later
              obtain ⟨rfl, rfl⟩ := Prod.mk.inj (Option.some.inj final)
              have shorter := length_of_content here
              rw [extractChunk_eq here, Fallible.done_bind]
              dsimp only
              rw [ih there (by rw [List.length_cons] at enough; omega)]
              rfl
            · rw [if_neg text] at read
              cases read

end Numbers

section Values

variable {it it' : CborValue} {descriptor : UInt8} {bytes rest : List UInt8} {n : Nat}

/-- An item that is looked at stays where it is. -/
structure Stays (it it' : CborValue) : Prop where
  ptr : it'.ptr = it.ptr
  remaining : it'.remaining = it.remaining
  containerIsMap : it'.flags.containerIsMap = it.flags.containerIsMap
  nextIsMapKey : it'.flags.nextIsMapKey = it.flags.nextIsMapKey

theorem preparseSimple_stays {small : Nat} {next : Option UInt8}
    (seen : preparseSimple it small next = .done it') : Stays it it' := by
  unfold preparseSimple at seen
  split at seen
  case h_5 =>
    dsimp only at seen
    split at seen
    · cases seen
    · cases seen
      exact ⟨rfl, rfl, rfl, rfl⟩
  all_goals
    cases seen
    exact ⟨rfl, rfl, rfl, rfl⟩

theorem preparseValue_stays (seen : preparseValue it = .done it') : Stays it it' := by
  unfold preparseValue at seen
  split at seen
  · cases seen
  · rename_i at_ptr
    dsimp only at seen
    split at seen
    · split at seen
      · cases seen
      · split at seen
        · cases seen
          exact ⟨rfl, rfl, rfl, rfl⟩
        · cases seen
    · split at seen
      · cases seen
      · split at seen
        · have stays := preparseSimple_stays seen
          exact ⟨stays.ptr, stays.remaining, stays.containerIsMap, stays.nextIsMapKey⟩
        · split at seen
          · cases seen
            exact ⟨rfl, rfl, rfl, rfl⟩
          · split at seen
            · cases seen
              exact ⟨rfl, rfl, rfl, rfl⟩
            · cases seen
              exact ⟨rfl, rfl, rfl, rfl⟩

/-- What is seen of an item that is no simple value. -/
theorem preparseValue_type (seen : preparseValue it = .done it')
    (ptr : it.ptr = descriptor :: bytes) (other : majorType descriptor ≠ 7) :
    it'.type = typeOfMajor (majorType descriptor) ∧
      it'.flags.unknownLength = (smallValue descriptor == 31) := by
  rw [preparseValue, ptr] at seen
  simp only [if_neg other] at seen
  split at seen
  · split at seen
    · cases seen
    · rename_i unknown
      rw [not_not.mp unknown]
      split at seen
      · cases seen
        exact ⟨rfl, rfl⟩
      · cases seen
  · rename_i known
    have definite : false = (smallValue descriptor == 31) :=
      (beq_eq_false_iff_ne.mpr fun same => known (by rw [same]; decide)).symm
    split at seen
    · cases seen
    · split at seen
      · cases seen
        exact ⟨rfl, definite⟩
      · split at seen
        · cases seen
          exact ⟨rfl, definite⟩
        · cases seen
          exact ⟨rfl, definite⟩

/-- The number at an iterator, and its sign. -/
theorem preparseValue_number (seen : preparseValue it = .done it')
    (ptr : it.ptr = descriptor :: bytes) (other : majorType descriptor ≠ 7)
    (head : argument (smallValue descriptor) bytes = some (n, rest)) :
    it'.number = n ∧ it'.flags.negativeInteger = (majorType descriptor == 1) := by
  rw [preparseValue, ptr] at seen
  simp only [if_neg other, bytesNeeded_eq, getNumber_eq] at seen
  rw [argument] at head
  split at head
  · rename_i small
    obtain ⟨rfl, rfl⟩ := Prod.mk.inj (Option.some.inj head)
    have short : argumentSize (smallValue descriptor) = 0 := if_pos small
    rw [if_neg (by omega), if_neg (by rw [short]; exact Nat.not_lt_zero _), if_pos small]
      at seen
    cases seen
    exact ⟨rfl, rfl⟩
  · rename_i large
    split at head
    · cases head
    · rename_i fits
      obtain ⟨rfl, rfl⟩ := Prod.mk.inj (Option.some.inj head)
      rw [not_or] at fits
      rw [if_neg fits.1, if_neg fits.2, if_neg large] at seen
      split at seen
      · cases seen
        exact ⟨rfl, rfl⟩
      · cases seen
        refine ⟨?_, rfl⟩
        rw [CborValue.number, if_pos rfl]
        rfl

/-- A boolean. -/
theorem preparseValue_boolean (seen : preparseValue it = .done it')
    (ptr : it.ptr = descriptor :: bytes) (major : majorType descriptor = 7)
    (small : smallValue descriptor = 20 ∨ smallValue descriptor = 21) :
    it'.type = .boolean ∧ (it'.extra = 0 ↔ smallValue descriptor = 20) := by
  rw [preparseValue, ptr] at seen
  dsimp only at seen
  have none : ¬ bytes.length < bytesNeeded (smallValue descriptor) := by
    obtain small | small := small
    · rw [small]
      exact Nat.not_lt_zero _
    · rw [small]
      exact Nat.not_lt_zero _
  rw [if_neg (by omega), if_neg none, if_pos major] at seen
  obtain small | small := small
  · rw [small] at seen ⊢
    cases seen
    exact ⟨rfl, by simp⟩
  · rw [small] at seen ⊢
    cases seen
    exact ⟨rfl, by simp⟩

/-- The iterator has just looked at an item, which begins these bytes. -/
def Seen (bytes : List UInt8) (it : CborValue) : Prop :=
  ∃ before, preparseValue before = .done it ∧ before.ptr = bytes

theorem Seen.ptr (seen : Seen bytes it) : it.ptr = bytes := by
  obtain ⟨before, value, rfl⟩ := seen
  exact (preparseValue_stays value).ptr

/-- What a text is read as. -/
theorem Seen.dupTextString {content : List UInt8} {fuel : Nat}
    (seen : Seen (descriptor :: bytes) it) (text : majorType descriptor = 3)
    (read : Cbor.string 3 (smallValue descriptor) fuel bytes = some (content, rest)) :
    it.type = .textString ∧ Tinycbor.dupTextString it =
      (preparseNextValue { it with ptr := rest } >>= fun it => .done (content, it)) := by
  obtain ⟨before, value, ptr⟩ := seen
  have here := (preparseValue_stays value).ptr.trans ptr
  obtain ⟨type, unknown⟩ := preparseValue_type value ptr (by rw [text]; decide)
  rw [text] at type
  change it.type = .textString at type
  refine ⟨type, ?_⟩
  have string : copyString it = .done (content, rest) := by
    rw [copyString, unknown, here, type]
    rw [Cbor.string] at read
    by_cases chunked : smallValue descriptor = 31
    · rw [if_pos chunked] at read
      rw [if_pos (beq_iff_eq.mpr chunked)]
      exact stringChunks_eq read (Nat.le_succ _)
    · rw [if_neg chunked] at read
      rw [if_neg (fun same => chunked (beq_iff_eq.mp same))]
      exact extractChunk_eq read
  rw [Tinycbor.dupTextString, if_neg (not_not.mpr type), string, Fallible.done_bind]

end Values

/-! ## Inside arrays and maps -/

section Inside

variable {it it' recursed : CborValue} {descriptor : UInt8} {bytes behind rest : List UInt8}
  {count : Option Nat}

/-- The iterator is inside an array or a map, at the first of some items, or behind them. -/
inductive Arrived : Option Nat → List UInt8 → CborValue → Prop where
  | finished {bytes : List UInt8} {it : CborValue} :
      it.remaining = 0 → it.ptr = bytes → it.type = .invalid → Arrived (some 0) bytes it
  | ended {bytes : List UInt8} {it : CborValue} :
      it.remaining = 0 → it.ptr = bytes → it.type = .invalid →
      Arrived none (breakByte :: bytes) it
  | counted {k : Nat} {bytes : List UInt8} {it : CborValue} : Seen bytes it →
      it.remaining = k + 1 → k + 1 < unknownCount → Arrived (some (k + 1)) bytes it
  | uncounted {bytes : List UInt8} {it : CborValue} : Seen bytes it →
      it.remaining = unknownCount → bytes.head? ≠ some breakByte → Arrived none bytes it

/-- Where items are left, the iterator looks at the first of them, or at the break. -/
theorem arrived_of_nodecrement {before : CborValue} (ptr : before.ptr = bytes)
    (more : before.remaining = count.getD unknownCount) (left : count ≠ some 0)
    (known : ∀ k ∈ count, k < unknownCount)
    (next : preparseNextValueNodecrement before = .done it) : Arrived count bytes it := by
  rw [preparseNextValueNodecrement] at next
  cases count with
  | none =>
      by_cases ends : bytes.head? = some breakByte
      · rw [if_pos ⟨more, ptr ▸ ends⟩] at next
        split at next
        · cases next
        · cases next
          obtain ⟨rest, rfl⟩ := List.head?_eq_some_iff.mp ends
          exact .ended rfl (congrArg List.tail ptr) rfl
      · rw [if_neg fun both => ends (ptr ▸ both.2)] at next
        exact .uncounted ⟨before, next, ptr⟩ ((preparseValue_stays next).remaining.trans more) ends
  | some k =>
      obtain ⟨k, rfl⟩ := Nat.exists_eq_succ_of_ne_zero fun zero : k = 0 => left (zero ▸ rfl)
      have small := known _ rfl
      rw [Option.getD_some] at more
      rw [if_neg fun both => Nat.ne_of_lt small (more.symm.trans both.1)] at next
      exact .counted ⟨before, next, ptr⟩ ((preparseValue_stays next).remaining.trans more) small

/-- Behind an item that counts, the iterator arrives at the next one. -/
theorem arrived_next {k : Nat} (type : it.type ≠ .tag)
    (next : preparseNextValue { it with ptr := behind } = .done it') :
    (it.remaining = k + 1 → k + 1 < unknownCount → Arrived (some k) behind it') ∧
      (it.remaining = unknownCount → Arrived none behind it') := by
  rw [preparseNextValue] at next
  dsimp only at next
  rw [if_neg type] at next
  constructor
  · intro more known
    rw [more, if_neg (Nat.ne_of_lt known), Nat.add_sub_cancel] at next
    split at next
    · rename_i zero
      cases next
      rw [zero]
      exact .finished rfl rfl rfl
    · rename_i left
      refine arrived_of_nodecrement rfl rfl (fun zero => left (Option.some.inj zero)) ?_ next
      intro other same
      cases same
      omega
  · intro more
    rw [more, if_pos rfl, if_neg (by decide)] at next
    exact arrived_of_nodecrement rfl rfl (by simp) (by simp) next

/-- At the first of the items, or at their end. -/
theorem arrived_cases {fuel : Nat} {contents : List Item} (arrived : Arrived count bytes it)
    (read : items fuel count bytes = some (contents, rest)) :
    contents = [] ∧ it.atEnd = true ∧ it.ptr = rest ∧ it.type = .invalid ∨
      ∃ fuel' first others behind count', contents = first :: others ∧ it.atEnd = false ∧
        Seen bytes it ∧ item fuel' bytes = some (first, behind) ∧
        items fuel' count' behind = some (others, rest) ∧
        ∀ it', it.type ≠ .tag → preparseNextValue { it with ptr := behind } = .done it' →
          Arrived count' behind it' := by
  cases fuel with
  | zero => cases read
  | succ fuel =>
      cases arrived with
      | finished none ptr type =>
          rw [items] at read
          obtain ⟨rfl, rfl⟩ := Prod.mk.inj (Option.some.inj read)
          exact .inl ⟨rfl, beq_iff_eq.mpr none, ptr, type⟩
      | ended none ptr type =>
          rw [items, List.head?_cons, breakByte, if_pos rfl] at read
          obtain ⟨rfl, rfl⟩ := Prod.mk.inj (Option.some.inj read)
          exact .inl ⟨rfl, beq_iff_eq.mpr none, ptr, type⟩
      | counted seen more known =>
          rw [items] at read
          obtain ⟨⟨first, behind⟩, here, later⟩ := Option.bind_eq_some_iff.mp read
          obtain ⟨⟨others, rest'⟩, there, same⟩ := Option.bind_eq_some_iff.mp later
          obtain ⟨rfl, rfl⟩ := Prod.mk.inj (Option.some.inj same)
          refine .inr ⟨fuel, first, others, behind, _, rfl, ?_, seen, here, there, ?_⟩
          · rw [CborValue.atEnd, more]
            rfl
          · exact fun it' type next => (arrived_next type next).1 more known
      | uncounted seen more goes =>
          change bytes.head? ≠ some 255 at goes
          rw [items, if_neg goes] at read
          obtain ⟨⟨first, behind⟩, here, later⟩ := Option.bind_eq_some_iff.mp read
          obtain ⟨⟨others, rest'⟩, there, same⟩ := Option.bind_eq_some_iff.mp later
          obtain ⟨rfl, rfl⟩ := Prod.mk.inj (Option.some.inj same)
          refine .inr ⟨fuel, first, others, behind, _, rfl, ?_, seen, here, there, ?_⟩
          · rw [CborValue.atEnd, more]
            rfl
          · exact fun it' type next => (@arrived_next _ _ _ 0 type next).2 more

/-- Inside an array or a map, the iterator arrives at its first item. -/
theorem arrived_enterContainer {each : Nat} (seen : Seen (descriptor :: bytes) it)
    (major : majorType descriptor = each + 3) (container : each = 1 ∨ each = 2)
    (head : itemCount each (smallValue descriptor) bytes = some (count, behind))
    (entered : enterContainer it = .done recursed) : Arrived count behind recursed := by
  obtain ⟨before, value, ptr⟩ := seen
  have here := (preparseValue_stays value).ptr.trans ptr
  obtain ⟨type, unknown⟩ := preparseValue_type value ptr (by omega)
  rw [enterContainer, unknown, here] at entered
  rw [itemCount] at head
  split at entered
  · cases entered
  · by_cases unended : smallValue descriptor = 31
    · rw [if_pos unended] at head
      obtain ⟨rfl, rfl⟩ := Prod.mk.inj (Option.some.inj head)
      dsimp only at entered
      rw [if_pos (beq_iff_eq.mpr unended)] at entered
      exact arrived_of_nodecrement rfl rfl (by simp) (by simp) entered
    · rw [if_neg unended] at head
      obtain ⟨⟨len, behind⟩, number, same⟩ := Option.map_eq_some_iff.mp head
      obtain ⟨rfl, rfl⟩ := Prod.mk.inj same
      dsimp only at entered
      rw [if_neg (fun same => unended (beq_iff_eq.mp same)), extractNumber_eq number,
        Fallible.done_bind] at entered
      dsimp only at entered
      have isMap : it.type = .map ↔ each = 2 := by
        rw [type, major]
        obtain rfl | rfl := container
        · exact ⟨fun same => absurd same (by decide), fun same => absurd same (by decide)⟩
        · exact ⟨fun _ => rfl, fun _ => rfl⟩
      have items : (if it.type = .map then 2 * len else len) = each * len := by
        obtain rfl | rfl := container
        · rw [if_neg fun same => absurd (isMap.mp same) (by decide), Nat.one_mul]
        · rw [if_pos (isMap.mpr rfl)]
      rw [items] at entered
      split at entered
      · cases entered
      · rename_i fits
        rw [not_or, not_and] at fits
        split at entered
        · rename_i zero
          cases entered
          rw [zero]
          exact .finished rfl rfl rfl
        · rename_i left
          refine arrived_of_nodecrement rfl rfl ?_ ?_ entered
          · intro zero
            rw [Option.some.injEq, Nat.mul_eq_zero] at zero
            omega
          · intro k same
            cases same
            obtain rfl | rfl := container
            · omega
            · have half := fits.2 (isMap.mpr rfl)
              rw [unknownCount] at half ⊢
              omega

end Inside

/-! ## Assertions -/

section Assertions

variable {it recursed : CborValue} {descriptor : UInt8} {bytes : List UInt8}

theorem preparseSimple_ne_stopped (it : CborValue) (small : Nat) (next : Option UInt8) :
    preparseSimple it small next ≠ .stopped := by
  unfold preparseSimple
  split
  case h_5 =>
    dsimp only
    split
    · simp
    · simp
  all_goals simp

theorem preparseValue_ne_stopped (it : CborValue) : preparseValue it ≠ .stopped := by
  unfold preparseValue
  split
  · simp
  · dsimp only
    split
    · split
      · simp
      · split
        · simp
        · simp
    · split
      · simp
      · split
        · exact preparseSimple_ne_stopped _ _ _
        · split
          · simp
          · split
            · simp
            · simp

theorem preparseNextValueNodecrement_ne_stopped (it : CborValue) :
    preparseNextValueNodecrement it ≠ .stopped := by
  rw [preparseNextValueNodecrement]
  split_ifs
  · simp
  · simp
  · exact preparseValue_ne_stopped it

theorem preparseNextValue_ne_stopped (it : CborValue) : preparseNextValue it ≠ .stopped := by
  rw [preparseNextValue]
  dsimp only
  split_ifs
  · exact preparseNextValueNodecrement_ne_stopped _
  · simp
  · exact preparseNextValueNodecrement_ne_stopped _
  · simp
  · exact preparseNextValueNodecrement_ne_stopped _

theorem extractNumber_ne_stopped : extractNumber (descriptor :: bytes) ≠ .stopped := by
  rw [extractNumber]
  split_ifs
  all_goals simp

theorem advanceFixed_ne_stopped (seen : Seen (descriptor :: bytes) it)
    (fixed : ¬ (it.type = .invalid ∨ isFixedType it.type = false)) :
    advanceFixed it ≠ .stopped := by
  rw [advanceFixed, if_neg fixed, seen.ptr]
  split
  · simp
  · intro stops
    obtain stops | ⟨_, -, stops⟩ := Fallible.bind_eq_stopped_iff.mp stops
    · exact extractNumber_ne_stopped stops
    · exact preparseNextValue_ne_stopped _ stops

theorem enterContainer_ne_stopped (seen : Seen (descriptor :: bytes) it)
    (container : it.isContainer ≠ false) : enterContainer it ≠ .stopped := by
  rw [enterContainer, if_neg container, seen.ptr]
  dsimp only
  split
  · exact preparseNextValueNodecrement_ne_stopped _
  · intro stops
    obtain stops | ⟨⟨len, ptr⟩, -, stops⟩ := Fallible.bind_eq_stopped_iff.mp stops
    · exact extractNumber_ne_stopped stops
    · dsimp only at stops
      split at stops
      · cases stops
      · split at stops
        · cases stops
        · exact preparseNextValueNodecrement_ne_stopped _ stops

theorem leaveContainer_ne_stopped (container : it.isContainer ≠ false)
    (left : recursed.type = .invalid) : leaveContainer it recursed ≠ .stopped := by
  rw [leaveContainer, if_neg fun none => none.elim container fun more => more left]
  exact preparseNextValue_ne_stopped _

end Assertions

end StDevice.Tinycbor
