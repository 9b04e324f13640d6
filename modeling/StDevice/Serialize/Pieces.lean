import StDevice.Serialize.Cbor2Json

/-!
# The text of the items and where it goes

The items in front of the iterator have a text of their own, piece by piece, up to the end of
the value or to the first fault in the input. The functions print these pieces one behind the
other, whatever the size of the buffer.
-/

namespace StDevice.Serialize

open Printing Tinycbor Decimal

/-- The comma between two items. -/
def commaPieces (comma : Bool) : Writing Piece CborError Unit :=
  if comma then putChar 44 else pure ()

section Values

variable (platform : Platform)

/-- The digits of a fraction. -/
def fractionPieces : Nat → UInt64 → Writing Piece CborError Unit
  | 0, _ => .running
  | fuel + 1, fracpart =>
      let double := platform.double
      if double.beq fracpart (double.ofInt (double.toInt fracpart)) then pure ()
      else do
        let fracpart := double.mul fracpart (double.ofInt 10)
        print (decimal ((double.toInt fracpart).tmod 10))
        fractionPieces fuel fracpart

def doublePieces (fuel : Nat) (val : UInt64) : Writing Piece CborError Unit :=
  let double := platform.double
  if double.fpclassify val < 0 then .fail .io
  else do
    let (fracpart, intpart) := double.modf val
    print (decimal (double.toInt intpart))
    if double.beq fracpart (double.ofInt 0) then pure ()
    else do
      print (CString.ascii ".")
      let precision := double.ofInt decimalPrecision
      let fracpart := double.div (double.round (double.mul fracpart precision)) precision
      let fracpart :=
        if double.blt fracpart (double.ofInt 0) then double.mul fracpart (double.ofInt (-1))
        else fracpart
      fractionPieces platform fuel fracpart

def quotientPieces (man exp : UInt64) : Writing Piece CborError Unit :=
  if exp = 0 then .stop
  else do
    print (decimalNat (man / exp).toUInt32.toNat)
    print (CString.ascii ".")
    print (decimalNat (fractionOf man exp).toNat)

def decimalPieces (it : CborValue) : Writing Piece CborError CborValue := do
  let (exp, man, manSign, it) ← .lift (readDecimal it)
  let exp := platform.powerOfTen exp.toUInt32.toNat
  if manSign then do
    print (CString.ascii "-")
    quotientPieces man exp
    pure it
  else do
    quotientPieces man exp
    pure it

mutual

/-- The text of the items of an array that are left. -/
def arrayPieces : Nat → CborValue → Bool → Writing Piece CborError CborValue
  | 0, _, _ => .running
  | fuel + 1, it, comma =>
      if it.atEnd then pure it
      else do
        commaPieces comma
        let it ← valuePieces fuel it
        arrayPieces fuel it true
termination_by structural fuel => fuel

/-- The text of the members of a map that are left. -/
def mapPieces : Nat → CborValue → Bool → Writing Piece CborError CborValue
  | 0, _, _ => .running
  | fuel + 1, it, comma =>
      if it.atEnd then pure it
      else do
        commaPieces comma
        if it.type ≠ .textString then .fail .jsonObjectKeyNotString
        else do
          let (key, it) ← .lift (dupTextString it)
          print (quoted key ++ CString.ascii ":")
          let it ← valuePieces fuel it
          mapPieces fuel it true
termination_by structural fuel => fuel

/-- The text of the item at the iterator. -/
def valuePieces : Nat → CborValue → Writing Piece CborError CborValue
  | 0, _ => .running
  | fuel + 1, it =>
      match it.type with
      | .array => do
          let recursed ← .lift (enterContainer it)
          print (CString.ascii "[")
          let recursed ← arrayPieces fuel recursed false
          print (CString.ascii "]")
          .lift (leaveContainer it recursed)
      | .map => do
          let recursed ← .lift (enterContainer it)
          print (CString.ascii "\x7b")
          let recursed ← mapPieces fuel recursed false
          print (CString.ascii "\x7d")
          .lift (leaveContainer it recursed)
      | .byteString | .textString => do
          let (str, it) ← .lift (dupTextString it)
          print (quoted str)
          pure it
      | .integer => do
          let val ← .lift (getRawInteger it)
          let val := doubleOfRaw val it.flags.negativeInteger
          print (decimal (platform.toInt val))
          .lift (advanceFixed it)
      | .double => do
          doublePieces platform fuel (.ofNat it.number)
          .lift (advanceFixed it)
      | .tag =>
          if it.number = decimalTag then decimalPieces platform it else .fail .unknownType
      | .boolean => do
          print (if it.extra = 0 then CString.ascii "false" else CString.ascii "true")
          .lift (advanceFixed it)
      | _ => .fail .unknownType
termination_by structural fuel => fuel

end

variable {platform} {len : UInt64}

theorem storeComma_placed {comma : Bool} {out c : Nat}
    {f : Nat → Writing Access CborError (CborValue × Nat)} {p : Writing Piece CborError CborValue}
    (next : ∀ n, Placed len (out + (c + n)) (c + n) (f (c + n)) p) :
    Placed len (out + c) c (storeComma comma out c >>= f) (commaPieces comma >>= fun _ => p) := by
  cases comma with
  | false => exact next 0
  | true =>
      rw [storeComma, if_pos rfl, Writing.bind_assoc]
      exact Placed.store (next 1)

theorem printFraction_placed (fuel : Nat) (fracpart : UInt64) (out c : Nat) :
    Placed len (out + c) c (printFraction platform fuel fracpart out (len - .ofNat out) c)
      (fractionPieces platform fuel fracpart) := by
  induction fuel generalizing fracpart c with
  | zero => exact Placed.running
  | succ fuel ih =>
      rw [printFraction, fractionPieces]
      dsimp only
      split
      · exact Placed.pure ()
      · refine Placed.snprintf (left_left len out c) ?_
        rw [Nat.add_assoc]
        exact ih _ _

theorem doubleToJson_placed (fuel : Nat) (val : UInt64) (out : Nat) :
    Placed len out 0 (doubleToJson platform fuel val out (len - .ofNat out))
      (doublePieces platform fuel val) := by
  rw [doubleToJson, doublePieces]
  dsimp only
  split
  · exact Placed.fail _
  · refine Placed.snprintf rfl ?_
    rw [Nat.zero_add]
    split
    · exact Placed.pure ()
    · refine Placed.snprintf (left_left len out _) ?_
      rw [Nat.add_assoc]
      exact printFraction_placed fuel _ out _

theorem printQuotient_placed (man exp : UInt64) (out c : Nat) :
    Placed len (out + c) c (printQuotient man exp out (len - .ofNat out) c)
      (quotientPieces man exp) := by
  rw [printQuotient, quotientPieces]
  split
  · exact Placed.stop
  · refine Placed.snprintf (left_left len out _) ?_
    rw [Nat.add_assoc]
    refine Placed.snprintf (left_left len out _) ?_
    rw [Nat.add_assoc]
    exact Placed.snprintf (p := pure ()) (left_left len out _) (Placed.pure ())

theorem decimalToJson_placed (it : CborValue) (out : Nat) :
    Placed len out 0 (decimalToJson platform it out (len - .ofNat out))
      (decimalPieces platform it) := by
  rw [decimalToJson, decimalPieces]
  refine Placed.lift fun read _ => ?_
  obtain ⟨exp, man, manSign, it⟩ := read
  dsimp only
  split
  · refine Placed.snprintf rfl ?_
    rw [Nat.zero_add]
    exact (printQuotient_placed man _ out _).bind fun _ _ => Placed.pure it
  · exact (printQuotient_placed man _ out 0).bind fun _ _ => Placed.pure it

/-- An array or a map, if its loop prints the text of the items. -/
theorem container_placed
    (loop : CborValue → Nat → UInt64 → Writing Access CborError (CborValue × Nat))
    (pieces : CborValue → Writing Piece CborError CborValue) (it : CborValue) (out : Nat)
    (first last : List UInt8)
    (inside : ∀ recursed out, Placed len out 0 (loop recursed out (len - .ofNat out))
      (pieces recursed)) :
    Placed len out 0
      (.lift (enterContainer it) >>= fun recursed =>
        snprintf out (len - .ofNat out) first >>= fun c =>
          loop recursed (out + c) (len - .ofNat out - .ofNat c) >>= fun (recursed, n) =>
            snprintf (out + (c + n)) (len - .ofNat out - .ofNat (c + n)) last >>= fun sret =>
              .lift (leaveContainer it recursed) >>= fun it => pure (it, c + n + sret))
      (.lift (enterContainer it) >>= fun recursed => print first >>= fun _ =>
        pieces recursed >>= fun recursed => print last >>= fun _ =>
          .lift (leaveContainer it recursed)) := by
  refine Placed.lift fun recursed _ => Placed.snprintf rfl ?_
  rw [Nat.zero_add, left_left]
  refine (inside recursed (out + first.length)).call fun recursed n => ?_
  rw [Nat.add_assoc]
  exact Placed.snprintf (left_left len out _) Placed.lift_last

/-- From some round on, the loop over an array prints the text of the items, in the part of the
buffer that it is given. -/
def PlacesItems (platform : Platform) (len : UInt64) (fuel : Nat) : Prop :=
  ∀ it comma out c, Placed len (out + c) c
    (iotCborArrayToJson platform fuel it out (len - .ofNat out) comma c)
    (arrayPieces platform fuel it comma)

def PlacesMembers (platform : Platform) (len : UInt64) (fuel : Nat) : Prop :=
  ∀ it comma out c, Placed len (out + c) c
    (iotCborMapToJson platform fuel it out (len - .ofNat out) comma c)
    (mapPieces platform fuel it comma)

def PlacesValue (platform : Platform) (len : UInt64) (fuel : Nat) : Prop :=
  ∀ it out, Placed len out 0 (iotCborValueToJson platform fuel it out (len - .ofNat out))
    (valuePieces platform fuel it)

theorem placesItems_succ (array : PlacesItems platform len fuel)
    (value : PlacesValue platform len fuel) : PlacesItems platform len (fuel + 1) := by
  intro it comma out c
  rw [iotCborArrayToJson, arrayPieces]
  split
  · exact Placed.pure it
  · refine storeComma_placed fun n => ?_
    rw [left_left]
    refine (value it (out + (c + n))).call fun it m => ?_
    rw [Nat.add_assoc]
    exact array it true out _

theorem placesMembers_succ (map : PlacesMembers platform len fuel)
    (value : PlacesValue platform len fuel) : PlacesMembers platform len (fuel + 1) := by
  intro it comma out c
  rw [iotCborMapToJson, mapPieces]
  split
  · exact Placed.pure it
  · refine storeComma_placed fun n => ?_
    split
    · exact Placed.fail _
    · refine Placed.lift fun key _ => Placed.snprintf (left_left len out _) ?_
      dsimp only
      rw [left_left, Nat.add_assoc out]
      refine (value key.2 (out + (c + n + _))).call fun it m => ?_
      rw [Nat.add_assoc out]
      exact map it true out _

theorem placesValue_succ (array : PlacesItems platform len fuel)
    (map : PlacesMembers platform len fuel) : PlacesValue platform len (fuel + 1) := by
  intro it out
  rw [iotCborValueToJson, valuePieces]
  cases type : it.type with
  | array =>
      exact container_placed
        (fun it out len => iotCborArrayToJson platform fuel it out len false 0)
        (fun it => arrayPieces platform fuel it false) it out _ _
        fun recursed out => array recursed false out 0
  | map =>
      exact container_placed
        (fun it out len => iotCborMapToJson platform fuel it out len false 0)
        (fun it => mapPieces platform fuel it false) it out _ _
        fun recursed out => map recursed false out 0
  | byteString =>
      refine Placed.lift fun read _ => Placed.snprintf rfl ?_
      rw [Nat.zero_add]
      exact Placed.pure read.2
  | textString =>
      refine Placed.lift fun read _ => Placed.snprintf rfl ?_
      rw [Nat.zero_add]
      exact Placed.pure read.2
  | integer =>
      refine Placed.lift fun val _ => Placed.snprintf rfl ?_
      rw [Nat.zero_add]
      exact Placed.lift_last
  | double =>
      exact (doubleToJson_placed fuel _ out).bind fun _ n => Placed.lift_last
  | tag =>
      dsimp only
      split
      · exact decimalToJson_placed it out
      · exact Placed.fail _
  | boolean =>
      refine Placed.snprintf rfl ?_
      rw [Nat.zero_add]
      exact Placed.lift_last
  | simple => exact Placed.fail _
  | null => exact Placed.fail _
  | undefined => exact Placed.fail _
  | halfFloat => exact Placed.fail _
  | float => exact Placed.fail _
  | invalid => exact Placed.fail _

/-- One round of a loop takes fuel as one call does. -/
theorem placed (fuel : Nat) : PlacesItems platform len fuel ∧ PlacesMembers platform len fuel ∧
    PlacesValue platform len fuel := by
  induction fuel with
  | zero =>
      refine ⟨fun it comma out c => ?_, fun it comma out c => ?_, fun it out => ?_⟩
      · rw [iotCborArrayToJson, arrayPieces]
        exact Placed.running
      · rw [iotCborMapToJson, mapPieces]
        exact Placed.running
      · rw [iotCborValueToJson, valuePieces]
        exact Placed.running
  | succ fuel ih =>
      obtain ⟨array, map, value⟩ := ih
      exact ⟨placesItems_succ array value, placesMembers_succ map value,
        placesValue_succ array map⟩

end Values

section Buffer

variable (platform : Platform) (fuel : Nat) (cbor : List UInt8)

/-- The text of an input, piece by piece, up to the end of its first item or to the first
fault. -/
def inputPieces : List Piece :=
  match parserInit cbor with
  | .done it => (valuePieces platform fuel it).outputs
  | _ => []

/-- The first item, which begins the buffer. -/
theorem root_placed (it : CborValue) (len : UInt64) :
    Placed len 0 0 (iotCborValueToJson platform fuel it 0 len) (valuePieces platform fuel it) := by
  have first := (@placed platform len fuel).2.2 it 0
  rwa [show UInt64.ofNat 0 = 0 from rfl, UInt64.sub_zero] at first

/-- Where there is room for the text of an item behind what is in the buffer, it is written
there. -/
theorem iotCborValueToJson_writes {it it' : CborValue} {before : List UInt8} {len : UInt64}
    {n : Nat}
    (ends : (iotCborValueToJson platform fuel it before.length
      (len - .ofNat before.length)).ending = some (.done (it', n)))
    (fits : before.length + n < len.toNat) :
    (valuePieces platform fuel it).ending = some (.done it') ∧
      n = (textOf (valuePieces platform fuel it).outputs).length ∧
      ∃ zeros, (iotCborValueToJson platform fuel it before.length
          (len - .ofNat before.length)).outputs.foldlM Access.perform
            (before ++ List.replicate (len.toNat - before.length) 0) =
        some (before ++ textOf (valuePieces platform fuel it).outputs ++ zeros) := by
  obtain ⟨accesses, ended⟩ := (@placed platform len fuel).2.2 it before.length
  rw [ended] at ends
  obtain ⟨result, piecesEnd, same⟩ := Option.map_eq_some_iff.mp ends
  obtain ⟨next, rfl, same⟩ := Fallible.bind_eq_done_iff.mp same
  obtain ⟨rfl, rfl⟩ := Prod.mk.inj (Fallible.done.inj same)
  rw [Nat.zero_add] at fits
  have size : len.toNat = before.length + (len.toNat - before.length) := by omega
  have written := @perform_layout len (valuePieces platform fuel it).outputs before _ size
    (by omega)
  rw [← accesses] at written
  exact ⟨piecesEnd, Nat.zero_add _, _, written⟩

theorem outputs_iotSerializeCbor2json :
    (iotSerializeCbor2json platform fuel cbor).outputs =
      layout (bufferSize cbor) 0 (inputPieces platform fuel cbor) := by
  rw [iotSerializeCbor2json, inputPieces]
  by_cases empty : cbor = []
  · rw [if_pos empty, empty]
    rfl
  · rw [if_neg empty]
    cases parserInit cbor with
    | stopped => rfl
    | failed err => rfl
    | done it =>
        exact (root_placed platform fuel it (bufferSize cbor)).1

/-- Where there is room for the text of the first item, it is written, with a zero byte behind
it. -/
theorem iotSerializeCbor2json_of_fits {it it' : CborValue} (init : parserInit cbor = .done it)
    (ends : (valuePieces platform fuel it).ending = some (.done it'))
    (fits : (textOf (valuePieces platform fuel it).outputs).length < (bufferSize cbor).toNat) :
    (iotSerializeCbor2json platform fuel cbor).ending =
      some (.done (textOf (valuePieces platform fuel it).outputs ++ [0],
        (textOf (valuePieces platform fuel it).outputs).length)) := by
  have bytes : cbor ≠ [] := by
    rintro rfl
    cases init
  obtain ⟨accesses, ended⟩ := root_placed platform fuel it (bufferSize cbor)
  have written := @perform_layout (bufferSize cbor) _ [] _ (Nat.zero_add _).symm fits
  rw [List.nil_append, List.length_nil, ← accesses, List.nil_append] at written
  obtain ⟨spare, more⟩ : ∃ spare, (bufferSize cbor).toNat -
      (textOf (valuePieces platform fuel it).outputs).length = spare + 1 :=
    ⟨_, (Nat.sub_add_cancel (Nat.sub_pos_of_lt fits)).symm⟩
  rw [iotSerializeCbor2json, if_neg bytes, init]
  simp only [ended, ends, written, Option.map_some, Fallible.done_bind, Nat.zero_add, if_pos fits]
  rw [more, List.take_append, Nat.add_sub_cancel_left, List.replicate_succ,
    List.take_of_length_le (Nat.le_succ _)]
  rfl

/-- Where the function returns, there was room for the text of the first item. -/
theorem iotSerializeCbor2json_returns {json : List UInt8} {jsonlen : Nat}
    (ends : (iotSerializeCbor2json platform fuel cbor).ending = some (.done (json, jsonlen))) :
    ∃ it it', parserInit cbor = .done it ∧
      (valuePieces platform fuel it).ending = some (.done it') ∧
      jsonlen = (textOf (valuePieces platform fuel it).outputs).length ∧
      json = textOf (valuePieces platform fuel it).outputs ++ [0] := by
  cases init : parserInit cbor with
  | stopped =>
      rw [iotSerializeCbor2json, init] at ends
      split at ends
      · cases ends
      · cases ends
  | failed err =>
      rw [iotSerializeCbor2json, init] at ends
      split at ends
      · cases ends
      · cases ends
  | done it =>
      obtain ⟨it', piecesEnd, fits⟩ : ∃ it', (valuePieces platform fuel it).ending =
          some (.done it') ∧
          (textOf (valuePieces platform fuel it).outputs).length < (bufferSize cbor).toNat := by
        obtain ⟨-, ended⟩ := root_placed platform fuel it (bufferSize cbor)
        rw [iotSerializeCbor2json, init] at ends
        split at ends
        · cases ends
        · obtain ⟨result, run, returned⟩ := Option.map_eq_some_iff.mp ends
          rw [ended] at run
          obtain ⟨last, piecesEnd, same⟩ := Option.map_eq_some_iff.mp run
          cases result with
          | stopped => cases returned
          | failed err => cases returned
          | done position =>
              obtain ⟨it', rfl, same⟩ := Fallible.bind_eq_done_iff.mp same
              cases same
              dsimp only at returned
              rw [Nat.zero_add] at returned
              split at returned
              · rename_i fits
                exact ⟨it', piecesEnd, fits⟩
              · cases returned
      have whole := iotSerializeCbor2json_of_fits platform fuel cbor init piecesEnd fits
      obtain ⟨rfl, rfl⟩ :=
        Prod.mk.inj (Fallible.done.inj (Option.some.inj (ends.symm.trans whole)))
      exact ⟨it, it', rfl, piecesEnd, rfl, rfl⟩

/-- All accesses stay inside the buffer if and only if the text without its last piece fits. -/
theorem iotSerializeCbor2json_inBounds_iff :
    (∀ access ∈ (iotSerializeCbor2json platform fuel cbor).outputs,
      access.InBounds (bufferSize cbor).toNat) ↔
        reach (inputPieces platform fuel cbor) ≤ (bufferSize cbor).toNat := by
  rw [outputs_iotSerializeCbor2json, layout_inBounds_iff, Nat.zero_add]
  refine ⟨fun fits => fits.elim (fun none => ?_) id, .inr⟩
  rw [none]
  exact Nat.zero_le _

/-- The bracket behind an array of one boolean is printed behind the end of the buffer. -/
theorem iotSerializeCbor2json_overrun :
    ∃ access ∈ (iotSerializeCbor2json x86 5 [129, 245]).outputs,
      ¬ access.InBounds (2 * [129, 245].length) := by
  refine ⟨.snprintf 5 (4 - 5) (CString.ascii "]"), ?_, fun inside => absurd inside.1 (by decide)⟩
  have accesses : (iotSerializeCbor2json x86 5 [129, 245]).outputs =
      [.snprintf 0 4 (CString.ascii "["), .snprintf 1 3 (CString.ascii "true"),
        .snprintf 5 (4 - 5) (CString.ascii "]")] := rfl
  rw [accesses]
  exact .tail _ (.tail _ (.head _))

end Buffer

end StDevice.Serialize
