import StDevice.Serialize.Pieces
import StDevice.Tinycbor.Reading

/-!
# Structure and strings

For input that RFC 8949 decodes to arrays, maps with text keys, texts and booleans, what the
functions print is the text of the value without blanks and escapes. Strings are printed as they
are, so that it is a JSON text of the value only if nothing in them must be escaped.
-/

namespace StDevice.Serialize

open Printing Tinycbor Cbor JsonValue

section Read

variable {it it' : CborValue} {descriptor : UInt8} {bytes rest : List UInt8} {n : Nat}

/-- Behind an item of one head. -/
theorem advanceFixed_seen (seen : Seen (descriptor :: bytes) it)
    (head : argument (smallValue descriptor) bytes = some (n, rest))
    (next : advanceFixed it = .done it') :
    preparseNextValue { it with ptr := rest } = .done it' := by
  rw [advanceFixed] at next
  split at next
  · cases next
  · split at next
    · cases next
    · rwa [seen.ptr, extractNumber_eq head, Fallible.done_bind] at next

theorem quoted_eq {str : List UInt8} (whole : 0 ∉ str) : quoted str = 34 :: str ++ [34] := by
  have same : CString.cstr str = str := List.takeWhile_eq_self_iff.mpr fun b inside =>
    decide_eq_true fun zero => whole (zero ▸ inside)
  rw [quoted, same]
  rfl

/-- The simple values that are booleans. -/
theorem simple_boolean {info number : Nat} {value : Item} {j : JsonValue}
    (found : Cbor.simple info number = some value)
    (head : argument info bytes = some (number, rest)) (json : value.json? = some j)
    (textual : j.isTextual = true) :
    info = 20 ∧ j = .bool false ∨ info = 21 ∧ j = .bool true := by
  have boolean {k : Nat} (json : (Item.simple k).json? = some j) :
      k = 20 ∧ j = .bool false ∨ k = 21 ∧ j = .bool true := by
    unfold Item.json? at json
    split at json
    case h_5 same =>
      cases json
      exact .inl ⟨Item.simple.inj same, rfl⟩
    case h_6 same =>
      cases json
      exact .inr ⟨Item.simple.inj same, rfl⟩
    case h_7 =>
      cases json
      cases textual
    all_goals contradiction
  rw [Cbor.simple] at found
  split at found
  · rename_i small
    cases found
    rw [argument, if_pos small] at head
    rw [(Prod.mk.inj (Option.some.inj head)).1]
    exact boolean json
  · split at found
    · split at found
      · cases found
      · cases found
        obtain ⟨same, -⟩ | ⟨same, -⟩ := boolean json
        · omega
        · omega
    · cases found
      cases json

/-- A value that the iterator has just seen, by the form of its bytes. -/
theorem form_of_seen {value : Item} (seen : Seen bytes it)
    (read : item n bytes = some (value, rest)) :
    ∃ fuel descriptor behind, Seen (descriptor :: behind) it ∧
      Form fuel (majorType descriptor) (smallValue descriptor) behind rest value := by
  obtain ⟨fuel, descriptor, behind, -, rfl, form⟩ := form_of_item read
  exact ⟨fuel, descriptor, behind, seen, form⟩

theorem type_of_seen (seen : Seen (descriptor :: bytes) it) (other : majorType descriptor ≠ 7) :
    it.type = typeOfMajor (majorType descriptor) := by
  obtain ⟨before, value, ptr⟩ := seen
  exact (preparseValue_type value ptr other).1

end Read

section Text

variable {platform : Platform} {fuel : Nat}

/-- When the loop over an array comes to an end, it has printed the text of the items. -/
def PrintsItems (platform : Platform) (fuel : Nat) : Prop :=
  ∀ {it it' : CborValue} {comma : Bool} {count : Option Nat} {bytes rest : List UInt8} {n : Nat}
    {contents : List Item} {items : List JsonValue}, Arrived count bytes it →
    Cbor.items n count bytes = some (contents, rest) → jsonItems? contents = some items →
    elementsTextual items = true → (∀ s ∈ elementsStrings items, 0 ∉ s) →
    (arrayPieces platform fuel it comma).ending = some (.done it') →
      textOf (arrayPieces platform fuel it comma).outputs = elementsText comma items ∧
        it'.ptr = rest

def PrintsMembers (platform : Platform) (fuel : Nat) : Prop :=
  ∀ {it it' : CborValue} {comma : Bool} {count : Option Nat} {bytes rest : List UInt8} {n : Nat}
    {contents : List Item} {entries : List (Item × Item)}
    {members : List (List UInt8 × JsonValue)}, Arrived count bytes it →
    Cbor.items n count bytes = some (contents, rest) → pairUp contents = some entries →
    jsonEntries? entries = some members →
    membersTextual members = true → (∀ s ∈ membersStrings members, 0 ∉ s) →
    (mapPieces platform fuel it comma).ending = some (.done it') →
      textOf (mapPieces platform fuel it comma).outputs = membersText comma members ∧
        it'.ptr = rest

/-- When a value has been printed, its text has, and the iterator goes on behind it. -/
def PrintsValue (platform : Platform) (fuel : Nat) : Prop :=
  ∀ {it it' : CborValue} {bytes rest : List UInt8} {n : Nat} {v : Item} {j : JsonValue},
    Seen bytes it → item n bytes = some (v, rest) → v.json? = some j → j.isTextual = true →
    (∀ s ∈ j.strings, 0 ∉ s) → (valuePieces platform fuel it).ending = some (.done it') →
      textOf (valuePieces platform fuel it).outputs = j.text ∧ it.type ≠ .tag ∧
        preparseNextValue { it with ptr := rest } = .done it'

/-- A text, and the iterator behind it. -/
theorem text_of_seen {it : CborValue} {bytes rest content : List UInt8} {n : Nat}
    (seen : Seen bytes it) (read : item n bytes = some (.text content, rest)) :
    it.type = .textString ∧ ∀ str next, dupTextString it = .done (str, next) →
      str = content ∧ preparseNextValue { it with ptr := rest } = .done next := by
  obtain ⟨fuel, descriptor, behind, seen, form⟩ := form_of_seen seen read
  cases form with
  | text major string =>
      obtain ⟨type, same⟩ := seen.dupTextString major string
      refine ⟨type, fun str next dup => ?_⟩
      obtain ⟨next', moved, pair⟩ := Fallible.bind_eq_done_iff.mp (same ▸ dup)
      obtain ⟨rfl, rfl⟩ := Prod.mk.inj (Fallible.done.inj pair)
      exact ⟨rfl, moved⟩
  | simple _ _ found =>
      obtain ⟨_, same⟩ | ⟨_, _, same⟩ := simple_cases found
      · cases same
      · cases same

theorem text_commaPieces (comma : Bool) :
    textOf (commaPieces comma).outputs = if comma then [44] else [] := by
  cases comma with
  | false => rfl
  | true => rfl

theorem printsItems_succ (value : PrintsValue platform fuel) (array : PrintsItems platform fuel) :
    PrintsItems platform (fuel + 1) := by
  intro it it' comma count bytes rest n contents items arrived read json textual whole ends
  rw [arrayPieces] at ends ⊢
  obtain ⟨rfl, atEnd, ptr, -⟩ | ⟨n', first, others, behind, count', rfl, atEnd, seen, here, there,
    follows⟩ := arrived_cases arrived read
  · rw [if_pos atEnd] at ends ⊢
    cases ends
    cases json
    exact ⟨rfl, ptr⟩
  · rw [if_neg (by simp [atEnd])] at ends ⊢
    obtain ⟨j, firstJson, more⟩ := Option.bind_eq_some_iff.mp json
    obtain ⟨js, othersJson, same⟩ := Option.bind_eq_some_iff.mp more
    cases same
    rw [elementsTextual, Bool.and_eq_true] at textual
    rw [elementsStrings, List.forall_mem_append] at whole
    obtain ⟨-, -, ends, printed⟩ := Writing.bind_returns ends
    obtain ⟨next, valueEnds, ends, printed'⟩ := Writing.bind_returns ends
    obtain ⟨text, type, moved⟩ := value seen here firstJson textual.1 whole.1 valueEnds
    obtain ⟨texts, ptr⟩ :=
      array (follows next type moved) there othersJson textual.2 whole.2 ends
    refine ⟨?_, ptr⟩
    rw [printed, printed', textOf_append, textOf_append, text_commaPieces, text, texts,
      elementsText, List.append_assoc]

theorem printsMembers_succ (value : PrintsValue platform fuel)
    (map : PrintsMembers platform fuel) : PrintsMembers platform (fuel + 1) := by
  intro it it' comma count bytes rest n contents entries members arrived read paired json textual
    whole ends
  rw [mapPieces] at ends ⊢
  obtain ⟨rfl, atEnd, ptr, -⟩ | ⟨n', key, others, behind, count', rfl, atEnd, seen, here, there,
    follows⟩ := arrived_cases arrived read
  · rw [if_pos atEnd] at ends ⊢
    cases ends
    cases paired
    cases json
    exact ⟨rfl, ptr⟩
  · rw [if_neg (by simp [atEnd])] at ends ⊢
    cases others with
    | nil => cases paired
    | cons inner others =>
        obtain ⟨entries, pairedOthers, rfl⟩ := Option.map_eq_some_iff.mp paired
        cases key with
        | text content =>
            obtain ⟨j, firstJson, more⟩ := Option.bind_eq_some_iff.mp json
            obtain ⟨js, othersJson, same⟩ := Option.bind_eq_some_iff.mp more
            cases same
            rw [membersTextual, Bool.and_eq_true] at textual
            rw [membersStrings, List.cons_append, List.forall_mem_cons, List.forall_mem_append]
              at whole
            obtain ⟨type, string⟩ := text_of_seen seen here
            rw [if_neg (not_not.mpr type)] at ends ⊢
            have counts : it.type ≠ .tag := by
              rw [type]
              decide
            obtain ⟨-, -, ends, printed⟩ := Writing.bind_returns ends
            obtain ⟨⟨str, next⟩, dup, ends, printedNone⟩ := Writing.bind_returns ends
            obtain ⟨-, -, ends, printedKey⟩ := Writing.bind_returns ends
            obtain ⟨next', valueEnds, ends, printedValue⟩ := Writing.bind_returns ends
            obtain ⟨rfl, moved⟩ := string str next (Option.some.inj dup)
            obtain ⟨none, -⟩ | ⟨n'', first, others', behind', count'', same, -, seen', here',
              there', follows'⟩ := arrived_cases (follows next counts moved) there
            · cases none
            · obtain ⟨rfl, rfl⟩ := List.cons.inj same
              obtain ⟨text, type', moved'⟩ :=
                value seen' here' firstJson textual.1 whole.2.1 valueEnds
              obtain ⟨texts, ptr⟩ := map (follows' next' type' moved') there' pairedOthers
                othersJson textual.2 whole.2.2 ends
              refine ⟨?_, ptr⟩
              have key : quoted str ++ CString.ascii ":" = 34 :: str ++ [34, 58] := by
                rw [quoted_eq whole.1, List.append_assoc]
                rfl
              rw [printed, printedNone, printedKey, printedValue, membersText]
              simp only [textOf_append, text_commaPieces, textOf_lift, textOf_print, text, texts,
                key, List.nil_append, List.append_assoc]
        | _ => cases json

section Types

variable {it : CborValue}

theorem valuePieces_text (type : it.type = .textString) :
    valuePieces platform (fuel + 1) it =
      (.lift (dupTextString it) >>= fun read => print (quoted read.1) >>= fun _ =>
        pure read.2) := by
  rw [valuePieces, type]

theorem valuePieces_array (type : it.type = .array) :
    valuePieces platform (fuel + 1) it =
      (.lift (enterContainer it) >>= fun recursed => print (CString.ascii "[") >>= fun _ =>
        arrayPieces platform fuel recursed false >>= fun recursed =>
          print (CString.ascii "]") >>= fun _ => .lift (leaveContainer it recursed)) := by
  rw [valuePieces, type]

theorem valuePieces_map (type : it.type = .map) :
    valuePieces platform (fuel + 1) it =
      (.lift (enterContainer it) >>= fun recursed => print (CString.ascii "\x7b") >>= fun _ =>
        mapPieces platform fuel recursed false >>= fun recursed =>
          print (CString.ascii "\x7d") >>= fun _ => .lift (leaveContainer it recursed)) := by
  rw [valuePieces, type]

theorem valuePieces_boolean (type : it.type = .boolean) :
    valuePieces platform (fuel + 1) it =
      (print (if it.extra = 0 then CString.ascii "false" else CString.ascii "true") >>= fun _ =>
        .lift (advanceFixed it)) := by
  rw [valuePieces, type]

end Types

/-- Behind an array or a map. -/
theorem leaveContainer_done {it it' recursed : CborValue} {rest : List UInt8}
    (ptr : recursed.ptr = rest) (left : leaveContainer it recursed = .done it') :
    preparseNextValue { it with ptr := rest } = .done it' := by
  rw [leaveContainer] at left
  split at left
  · cases left
  · rwa [ptr] at left

/-- An array or a map, if its loop prints a text and stops behind the items. -/
theorem container_printed {pieces : CborValue → Writing Piece CborError CborValue}
    {it it' : CborValue} {first last text rest : List UInt8}
    (inside : ∀ recursed recursed', enterContainer it = .done recursed →
      (pieces recursed).ending = some (.done recursed') →
        textOf (pieces recursed).outputs = text ∧ recursed'.ptr = rest)
    (ends : (.lift (enterContainer it) >>= fun recursed => print first >>= fun _ =>
      pieces recursed >>= fun recursed => print last >>= fun _ =>
        Writing.lift (leaveContainer it recursed)).ending = some (.done it')) :
    textOf (.lift (enterContainer it) >>= fun recursed => print first >>= fun _ =>
      pieces recursed >>= fun recursed => print last >>= fun _ =>
        Writing.lift (leaveContainer it recursed)).outputs = first ++ text ++ last ∧
      preparseNextValue { it with ptr := rest } = .done it' := by
  obtain ⟨recursed, entered, ends, printedNone⟩ := Writing.bind_returns ends
  obtain ⟨-, -, ends, printedFirst⟩ := Writing.bind_returns ends
  obtain ⟨recursed', loopEnds, ends, printedItems⟩ := Writing.bind_returns ends
  obtain ⟨-, -, ends, printedLast⟩ := Writing.bind_returns ends
  obtain ⟨text, ptr⟩ := inside recursed recursed' (Option.some.inj entered) loopEnds
  refine ⟨?_, leaveContainer_done ptr (Option.some.inj ends)⟩
  rw [printedNone, printedFirst, printedItems, printedLast]
  simp only [textOf_append, textOf_lift, textOf_print, text, List.nil_append, List.append_nil,
    List.append_assoc]

/-- A boolean, by the number of its head. -/
theorem boolean_printed {it it' : CborValue} {descriptor : UInt8} {bytes rest : List UInt8}
    {number : Nat} (value : Bool) (seen : Seen (descriptor :: bytes) it)
    (seven : majorType descriptor = 7)
    (small : smallValue descriptor = if value then 21 else 20)
    (head : argument (smallValue descriptor) bytes = some (number, rest))
    (ends : (valuePieces platform (fuel + 1) it).ending = some (.done it')) :
    textOf (valuePieces platform (fuel + 1) it).outputs = (JsonValue.bool value).text ∧
      it.type ≠ .tag ∧ preparseNextValue { it with ptr := rest } = .done it' := by
  obtain ⟨before, looked, ptr⟩ := id seen
  obtain ⟨type, extra⟩ := preparseValue_boolean looked ptr seven (by cases value <;> simp [small])
  rw [valuePieces_boolean type] at ends ⊢
  obtain ⟨-, -, ends, printed⟩ := Writing.bind_returns ends
  refine ⟨?_, by simp [type], advanceFixed_seen seen head (Option.some.inj ends)⟩
  rw [printed, textOf_append, textOf_print, textOf_lift, List.append_nil, JsonValue.text]
  cases value with
  | false => rw [if_pos (extra.mpr small), if_neg (by decide)]
  | true =>
      have other : ¬ it.extra = 0 := fun zero => by
        have same := extra.mp zero
        rw [small] at same
        cases same
      rw [if_neg other, if_pos rfl]

theorem printsValue_succ (array : PrintsItems platform fuel)
    (map : PrintsMembers platform fuel) : PrintsValue platform (fuel + 1) := by
  intro it it' bytes rest n v j seen read json textual whole ends
  obtain ⟨fuel', descriptor, behind, seen', form⟩ := form_of_seen seen read
  cases form with
  | unsigned _ _ =>
      cases json
      cases textual
  | negative _ _ =>
      cases json
      cases textual
  | bytes _ _ => cases json
  | tag _ _ _ => cases json
  | text _ _ =>
      obtain ⟨type, string⟩ := text_of_seen seen read
      cases json
      rw [valuePieces_text type] at ends ⊢
      obtain ⟨⟨str, next⟩, dup, ends, printedNone⟩ := Writing.bind_returns ends
      obtain ⟨-, -, ends, printed⟩ := Writing.bind_returns ends
      obtain ⟨rfl, moved⟩ := string str next (Option.some.inj dup)
      cases ends
      refine ⟨?_, by simp [type], moved⟩
      rw [printedNone, printed, textOf_append, textOf_append, textOf_lift, textOf_print,
        quoted_eq (whole str (by simp [strings]))]
      exact List.append_nil _
  | array major head list =>
      have type := type_of_seen seen' (by omega)
      rw [major] at type
      change it.type = .array at type
      obtain ⟨items, jsonItems, rfl⟩ := Option.map_eq_some_iff.mp json
      rw [isTextual] at textual
      rw [strings] at whole
      rw [valuePieces_array type] at ends ⊢
      obtain ⟨text, moved⟩ := container_printed (fun recursed recursed' entered arrayEnds =>
        array (arrived_enterContainer seen' major (.inl rfl) head entered) list jsonItems textual
          whole arrayEnds) ends
      exact ⟨text, by simp [type], moved⟩
  | map major head list paired =>
      have type := type_of_seen seen' (by omega)
      rw [major] at type
      change it.type = .map at type
      obtain ⟨members, jsonMembers, rfl⟩ := Option.map_eq_some_iff.mp json
      rw [isTextual] at textual
      rw [strings] at whole
      rw [valuePieces_map type] at ends ⊢
      obtain ⟨text, moved⟩ := container_printed (fun recursed recursed' entered mapEnds =>
        map (arrived_enterContainer seen' major (.inr rfl) head entered) list paired jsonMembers
          textual whole mapEnds) ends
      exact ⟨text, by simp [type], moved⟩
  | simple major head found =>
      have seven : majorType descriptor = 7 := by
        have bound := descriptor.toNat_lt
        rw [majorType] at major ⊢
        omega
      obtain ⟨small, rfl⟩ | ⟨small, rfl⟩ := simple_boolean found head json textual
      · exact boolean_printed false seen' seven small head ends
      · exact boolean_printed true seen' seven small head ends

theorem prints_text (fuel : Nat) : PrintsItems platform fuel ∧ PrintsMembers platform fuel ∧
    PrintsValue platform fuel := by
  induction fuel with
  | zero =>
      refine ⟨?_, ?_, ?_⟩
      · intro _ _ _ _ _ _ _ _ _ _ _ _ _ _ ends
        cases ends
      · intro _ _ _ _ _ _ _ _ _ _ _ _ _ _ _ _ ends
        cases ends
      · intro _ _ _ _ _ _ _ _ _ _ _ _ ends
        cases ends
  | succ fuel ih =>
      obtain ⟨array, map, value⟩ := ih
      exact ⟨printsItems_succ value array, printsMembers_succ value map,
        printsValue_succ array map⟩

end Text

/-- What is printed is a JSON text of the value, and its length is returned, if and only if no
string has a quotation mark, a backslash or a control character in it. -/
theorem iotSerializeCbor2json_isText_iff (platform : Platform) (fuel : Nat)
    {cbor json : List UInt8} {jsonlen : Nat} {v : Item} {j : JsonValue}
    (read : decode cbor = some v) (value : v.json? = some j) (textual : j.isTextual = true)
    (texts : ∀ s ∈ j.strings, 0 ∉ s ∧ IsUtf8 s)
    (ends : (iotSerializeCbor2json platform fuel cbor).ending = some (.done (json, jsonlen))) :
    (IsText (CString.cstr json) j ∧ jsonlen = (CString.cstr json).length) ↔ j.Plain := by
  obtain ⟨it, it', init, piecesEnd, rfl, rfl⟩ :=
    iotSerializeCbor2json_returns platform fuel cbor ends
  have first : item (2 * cbor.length + 1) cbor = some (v, []) := by
    rw [decode] at read
    split at read
    · rename_i whole
      cases read
      exact whole
    · cases read
  obtain ⟨text, -⟩ := (prints_text fuel).2.2 ⟨_, init, rfl⟩ first value textual
    (fun s inside => (texts s inside).1) piecesEnd
  have noZero : 0 ∉ j.text := closed_notMem_zero.text j textual fun s inside => (texts s inside).1
  have whole : CString.cstr (j.text ++ [0]) = j.text :=
    (CString.cstr_append_of_notMem noZero [0]).trans (List.append_nil _)
  rw [text, whole, isText_text_iff textual fun s inside => (texts s inside).2]
  exact and_iff_left rfl

/-- The text of one letter. -/
theorem iotSerializeCbor2json_isText_letter :
    (iotSerializeCbor2json x86 1 [97, 65]).ending = some (.done ([34, 65, 34, 0], 3)) ∧
      ((IsText (CString.cstr [34, 65, 34, 0]) (.string [65]) ∧
          3 = (CString.cstr [34, 65, 34, 0]).length) ↔
        (JsonValue.string [65]).Plain) := by
  have ends : (iotSerializeCbor2json x86 1 [97, 65]).ending =
      some (.done ([34, 65, 34, 0], 3)) := rfl
  have read : decode [97, 65] = some (.text [65]) := rfl
  refine ⟨ends, iotSerializeCbor2json_isText_iff x86 1 read rfl rfl ?_ ends⟩
  intro s inside
  rw [List.mem_singleton.mp inside]
  exact ⟨by decide, ['A'], rfl⟩

/-- A quotation mark in a text ends the text. -/
theorem iotSerializeCbor2json_quotation :
    decode [98, 34, 65] = some (.text [34, 65]) ∧
      (iotSerializeCbor2json x86 1 [98, 34, 65]).ending =
        some (.done ([34, 34, 65, 34, 0], 4)) ∧
      ¬ IsText (CString.cstr [34, 34, 65, 34, 0]) (.string [34, 65]) := by
  refine ⟨rfl, rfl, fun text => ?_⟩
  have plain := (@isText_text_iff (.string [34, 65]) rfl fun s inside => ?_).mp text
  · exact absurd (plain _ (.head _) 34 (.head _)) (by decide)
  · rw [List.mem_singleton.mp inside]
    exact ⟨['"', 'A'], rfl⟩

end StDevice.Serialize
