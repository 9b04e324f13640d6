import StDevice.Mqtt.RoundTrip

/-!
# The server's half of subscribe and unsubscribe

`mqtt/packet` holds both ends of a subscription: the client writes topic filters behind a
packet identifier, the server reads them into arrays of `maxcount` entries. The two readers
differ in one byte, the requested QoS behind each filter.

A reader returns the number of length bytes when it gives up in the middle of a filter, and
that number is 1 for every packet with fewer than 128 bytes behind its length. It never
looks at `maxcount`.
-/

namespace StDevice.Mqtt

/-! ## Reading at a place -/

section Places

variable {chunk rest : List UInt8} {pos : Nat}

theorem readChar_of_drop {c : UInt8} (here : chunk.drop pos = c :: rest) :
    readChar chunk pos = some (c, pos + 1) := by
  have found : byteAt chunk pos = some c := by
    rw [byteAt, ← List.head?_drop, here]
    rfl
  rw [readChar, found]
  rfl

theorem readInt_of_drop {value : Nat} (fits : value ≤ 65535)
    (here : chunk.drop pos = writeInt value ++ rest) :
    readInt chunk pos = some (value, pos + 2) := by
  have shifted := readInt_drop chunk pos 0
  rw [Nat.add_zero, here] at shifted
  rw [shifted]
  exact congrArg (Option.map _) (readInt_writeInt fits [] rest)

/-- What lies behind a piece that was read. -/
theorem drop_add_of_drop {piece : List UInt8} (here : chunk.drop pos = piece ++ rest) :
    chunk.drop (pos + piece.length) = rest := by
  rw [← List.drop_drop, here, List.drop_left]

theorem length_of_drop {piece : List UInt8} (here : chunk.drop pos = piece)
    (nonempty : piece ≠ []) :
    chunk.length = pos + piece.length := by
  have size := congrArg List.length here
  have positive := List.length_pos_iff.mpr nonempty
  rw [List.length_drop] at size
  omega

end Places

/-- A counted string inside the chunk. -/
structure Counted where
  len : Nat
  data : Nat
  deriving DecidableEq, Repr

/-- The bytes of a counted string. -/
def Counted.bytes (s : Counted) (chunk : List UInt8) : List UInt8 := (chunk.drop s.data).take s.len

/-- `readMQTTLenString` as its callers use it: the string with the position after it, or
nothing when it fails. -/
def readCounted (chunk : List UInt8) (pos enddata : Nat) : Option (Option (Counted × Nat)) := do
  let name ← readMqttLenString chunk pos enddata
  match name with
  | ⟨true, some len, some data, next⟩ => pure (some (⟨len, data⟩, next))
  | _ => pure none

/-- A counted string as it is written. -/
def countedBytes (data : List UInt8) : List UInt8 := writeInt data.length ++ data

@[simp] theorem countedBytes_length (data : List UInt8) :
    (countedBytes data).length = 2 + data.length := by
  rw [countedBytes, List.length_append, writeInt_length]

section CountedStrings

variable {chunk rest data : List UInt8} {pos enddata : Nat}

/-- A written string is read back where it lies inside the packet. -/
theorem readCounted_of_drop (fits : data.length ≤ 65535)
    (here : chunk.drop pos = countedBytes data ++ rest)
    (inside : pos + (2 + data.length) ≤ enddata) :
    readCounted chunk pos enddata =
        some (some (⟨data.length, pos + 2⟩, pos + (2 + data.length))) ∧
      (⟨data.length, pos + 2⟩ : Counted).bytes chunk = data := by
  have length : readInt chunk pos = some (data.length, pos + 2) := by
    rw [countedBytes, List.append_assoc] at here
    exact readInt_of_drop fits here
  have behind : chunk.drop (pos + 2) = data ++ rest := by
    rw [countedBytes, List.append_assoc] at here
    exact drop_add_of_drop here
  have read : readMqttLenString chunk pos enddata =
      some ⟨true, some data.length, some (pos + 2), pos + 2 + data.length⟩ := by
    unfold readMqttLenString
    rw [if_pos (by omega), length]
    simp only [Option.bind_eq_bind, Option.bind_some, Option.pure_def]
    rw [if_pos (by omega)]
  constructor
  · rw [readCounted, read]
    simp only [Option.bind_eq_bind, Option.bind_some, Option.pure_def, Nat.add_assoc]
  · change (chunk.drop (pos + 2)).take data.length = data
    rw [behind, List.take_left]

/-- The two bytes of a number are the number. -/
theorem writeInt_of_bytes (high low : UInt8) :
    writeInt (256 * high.toNat + low.toNat) = [high, low] := by
  have highFits := high.toNat_lt
  have lowFits := low.toNat_lt
  have quotient : (256 * high.toNat + low.toNat) / 256 = high.toNat := by omega
  have remainder : (256 * high.toNat + low.toNat) % 256 = low.toNat := by omega
  rw [writeInt, quotient, remainder, UInt8.ofNat_toNat, UInt8.ofNat_toNat]

/-- The reader succeeds on written strings only, and fails without leaving the packet. -/
theorem readCounted_cases (whole : enddata = chunk.length) (start : pos ≤ enddata) :
    (∃ data rest, chunk.drop pos = countedBytes data ++ rest ∧ data.length ≤ 65535) ∨
      readCounted chunk pos enddata = some none ∧
        ∀ data rest, chunk.drop pos ≠ countedBytes data ++ rest := by
  by_cases room : pos + 1 < enddata
  · obtain ⟨high, low, tail, here⟩ : ∃ high low tail, chunk.drop pos = high :: low :: tail := by
      have size : (chunk.drop pos).length = enddata - pos := by rw [List.length_drop, whole]
      match found : chunk.drop pos with
      | [] => rw [found] at size; simp only [List.length_nil] at size; omega
      | [_] => rw [found] at size; simp only [List.length_singleton] at size; omega
      | high :: low :: tail => exact ⟨high, low, tail, rfl⟩
    have highFits := high.toNat_lt
    have lowFits := low.toNat_lt
    have fits : 256 * high.toNat + low.toNat ≤ 65535 := by omega
    have read : readInt chunk pos = some (256 * high.toNat + low.toNat, pos + 2) := by
      apply @readInt_of_drop chunk tail pos _ fits
      rw [writeInt_of_bytes, here]
      rfl
    have tailLength : tail.length = enddata - pos - 2 := by
      have size : (chunk.drop pos).length = enddata - pos := by rw [List.length_drop, whole]
      rw [here, List.length_cons, List.length_cons] at size
      omega
    by_cases enough : 256 * high.toNat + low.toNat ≤ tail.length
    · left
      have taken : (tail.take (256 * high.toNat + low.toNat)).length =
          256 * high.toNat + low.toNat := by
        rw [List.length_take, Nat.min_eq_left enough]
      refine ⟨tail.take (256 * high.toNat + low.toNat), tail.drop (256 * high.toNat + low.toNat),
        ?_, by omega⟩
      rw [countedBytes, taken, writeInt_of_bytes, here, List.append_assoc, List.take_append_drop]
      rfl
    · right
      constructor
      · rw [readCounted, readMqttLenString, if_pos room, read]
        simp only [Option.bind_eq_bind, Option.bind_some, Option.pure_def]
        rw [if_neg (by omega)]
        rfl
      · intro data rest same
        rw [here, countedBytes, List.append_assoc] at same
        obtain ⟨first, same⟩ := List.cons.inj same
        obtain ⟨second, behind⟩ := List.cons.inj same
        have size : tail.length = data.length + rest.length := by
          rw [behind]
          change (data ++ rest).length = _
          exact List.length_append
        have firstValue := congrArg UInt8.toNat first
        have secondValue := congrArg UInt8.toNat second
        rw [UInt8.toNat_ofNat'] at firstValue secondValue
        omega
  · right
    constructor
    · rw [readCounted, readMqttLenString, if_neg room]
      rfl
    · intro data rest same
      have size := congrArg List.length same
      rw [List.length_drop, List.length_append, countedBytes_length] at size
      omega

end CountedStrings

/-! ## Filters -/

/-- An entry of the arrays `topicFilters` and `requestedQoSs`. -/
structure TopicFilter where
  name : Counted
  qos : Option UInt8
  deriving DecidableEq, Repr

/-- The loop over the filters, with the entries of the arrays that are left: an entry behind
the last one is stored outside of them. The result says whether the loop reached the end of
the packet. -/
def readFilters (chunk : List UInt8) (withQos : Bool) (enddata : Nat) :
    (free curdata : Nat) → (filters : List TopicFilter) → Option (Bool × List TopicFilter)
  | 0, curdata, filters => if curdata < enddata then none else some (true, filters)
  | free + 1, curdata, filters =>
      if curdata < enddata then do
        match ← readCounted chunk curdata enddata with
        | none => pure (false, filters)
        | some (name, curdata) =>
            if withQos then
              if curdata ≥ enddata then pure (false, filters)
              else
                let (qos, curdata) ← readChar chunk curdata
                readFilters chunk withQos enddata free curdata (filters ++ [⟨name, some qos⟩])
            else readFilters chunk withQos enddata free curdata (filters ++ [⟨name, none⟩])
      else some (true, filters)

/-- What the two readers return and set, without the entry that a reader may have started
when it gives up. -/
structure FilterList where
  rc : Int
  dup : Option Nat := none
  packetid : Option Nat := none
  filters : List TopicFilter := []
  deriving DecidableEq, Repr

/-- `MQTTDeserialize_subscribe` and `MQTTDeserialize_unsubscribe`, up to the type, the result
for another type, and the byte behind a filter. -/
def deserializeFilters (type : MsgType) (otherType : Int) (withQos : Bool) (maxcount : Nat)
    (chunk : List UInt8) : Option FilterList := do
  let (header, curdata) ← readChar chunk 0
  if packetType header ≠ type.code then pure { rc := otherType }
  else
    let (n, mylen) ← mqttPacketDecodeBuf chunk curdata
    let enddata := curdata + n + mylen
    let (packetid, curdata) ← readInt chunk (curdata + n)
    let (complete, filters) ← readFilters chunk withQos enddata maxcount curdata []
    pure
      { rc := if complete then 1 else n
        dup := some (packetDup header)
        packetid := some packetid
        filters := filters }

/-- `MQTTDeserialize_subscribe`. -/
def mqttDeserializeSubscribe (maxcount : Nat) (chunk : List UInt8) : Option FilterList :=
  deserializeFilters .subscribe (-1) true maxcount chunk

/-- `MQTTDeserialize_unsubscribe`. -/
def mqttDeserializeUnsubscribe (maxcount : Nat) (chunk : List UInt8) : Option FilterList :=
  deserializeFilters .unsubscribe 0 false maxcount chunk

/-- A filter and its QoS as they stand in a packet. -/
def filterBytes (withQos : Bool) (filter : List UInt8 × UInt8) : List UInt8 :=
  countedBytes filter.1 ++ if withQos then [filter.2] else []

/-- The entry holds the filter. -/
def TopicFilter.Holds (chunk : List UInt8) (withQos : Bool) (entry : TopicFilter)
    (filter : List UInt8 × UInt8) : Prop :=
  entry.name.bytes chunk = filter.1 ∧ entry.qos = if withQos then some filter.2 else none

/-- Every filter has a length that two bytes can hold. -/
def Countable (filters : List (List UInt8 × UInt8)) : Prop := ∀ f ∈ filters, f.1.length ≤ 65535

section Loop

variable {chunk : List UInt8} {withQos : Bool} {enddata : Nat}

theorem filterBytes_length (withQos : Bool) (f : List UInt8 × UInt8) :
    (filterBytes withQos f).length = 2 + f.1.length + if withQos then 1 else 0 := by
  rw [filterBytes, List.length_append, countedBytes_length]
  cases withQos
  · rfl
  · rfl

/-- One round of the loop over a complete filter. -/
theorem readFilters_step (free : Nat) (filters : List TopicFilter) {curdata : Nat}
    {f : List UInt8 × UInt8} {rest : List UInt8} (fits : f.1.length ≤ 65535)
    (here : chunk.drop curdata = filterBytes withQos f ++ rest)
    (inside : curdata + (filterBytes withQos f).length ≤ enddata) :
    ∃ entry : TopicFilter, entry.Holds chunk withQos f ∧
      readFilters chunk withQos enddata (free + 1) curdata filters =
        readFilters chunk withQos enddata free (curdata + (filterBytes withQos f).length)
          (filters ++ [entry]) := by
  rw [filterBytes_length] at inside
  have split : chunk.drop curdata =
      countedBytes f.1 ++ ((if withQos then [f.2] else []) ++ rest) := by
    rw [here, filterBytes, List.append_assoc]
  obtain ⟨read, bytes⟩ := readCounted_of_drop fits split
    (show curdata + (2 + f.1.length) ≤ enddata by omega)
  have behind := drop_add_of_drop split
  rw [countedBytes_length] at behind
  cases withQos with
  | false =>
      refine ⟨⟨⟨f.1.length, curdata + 2⟩, none⟩, ⟨bytes, rfl⟩, ?_⟩
      rw [readFilters, if_pos (by omega), read, filterBytes_length]
      rfl
  | true =>
      simp only [if_true] at inside behind
      refine ⟨⟨⟨f.1.length, curdata + 2⟩, some f.2⟩, ⟨bytes, rfl⟩, ?_⟩
      rw [readFilters, if_pos (by omega), read, filterBytes_length]
      simp only [Option.bind_eq_bind, Option.bind_some, if_true]
      rw [if_neg (by omega), readChar_of_drop behind]
      rfl

/-- Complete filters that fit into the arrays are all read. -/
theorem readFilters_run (free : Nat) (filters : List TopicFilter)
    {fs : List (List UInt8 × UInt8)} {rest : List UInt8} {curdata : Nat} (countable : Countable fs)
    (here : chunk.drop curdata = fs.flatMap (filterBytes withQos) ++ rest)
    (inside : curdata + (fs.flatMap (filterBytes withQos)).length ≤ enddata) :
    ∃ entries, List.Forall₂ (TopicFilter.Holds chunk withQos) entries fs ∧
      readFilters chunk withQos enddata (fs.length + free) curdata filters =
        readFilters chunk withQos enddata free
          (curdata + (fs.flatMap (filterBytes withQos)).length) (filters ++ entries) := by
  induction fs generalizing curdata filters with
  | nil =>
      refine ⟨[], .nil, ?_⟩
      rw [List.length_nil, Nat.zero_add, List.append_nil]
      rfl
  | cons f fs ih =>
      obtain ⟨fits, countable⟩ := List.forall_mem_cons.mp countable
      rw [List.flatMap_cons, List.append_assoc] at here
      rw [List.flatMap_cons, List.length_append] at inside
      obtain ⟨entry, holds, step⟩ := readFilters_step (fs.length + free) filters fits here
        (show curdata + _ ≤ enddata by omega)
      obtain ⟨entries, all, run⟩ := ih (filters ++ [entry]) countable
        (drop_add_of_drop here) (by omega)
      refine ⟨entry :: entries, .cons holds all, ?_⟩
      rw [List.length_cons, Nat.add_right_comm, step, run, List.flatMap_cons, List.length_append,
        List.append_assoc, Nat.add_assoc]
      rfl

/-- Bytes split into complete filters and a rest that does not start with one. -/
theorem exists_filters (withQos : Bool) (bytes : List UInt8) :
    ∃ fs rest, bytes = fs.flatMap (filterBytes withQos) ++ rest ∧ Countable fs ∧
      ∀ f tail, f.1.length ≤ 65535 → rest ≠ filterBytes withQos f ++ tail := by
  induction size : bytes.length using Nat.strongRecOn generalizing bytes with
  | ind n ih =>
      by_cases more : ∃ f tail, f.1.length ≤ 65535 ∧ bytes = filterBytes withQos f ++ tail
      · obtain ⟨f, tail, fits, rfl⟩ := more
        have shorter : tail.length < n := by
          rw [← size, List.length_append, filterBytes_length]
          omega
        obtain ⟨fs, rest, rfl, countable, last⟩ := ih tail.length shorter tail rfl
        refine ⟨f :: fs, rest, ?_, List.forall_mem_cons.mpr ⟨fits, countable⟩, last⟩
        rw [List.flatMap_cons, List.append_assoc]
      · refine ⟨[], bytes, rfl, fun _ absent => absurd absent List.not_mem_nil, ?_⟩
        intro f tail fits same
        exact more ⟨f, tail, fits, same⟩

/-- The loop gives up at bytes that are not a complete filter. -/
theorem readFilters_gives_up {rest : List UInt8} {free curdata : Nat}
    {filters : List TopicFilter} (whole : enddata = chunk.length)
    (here : chunk.drop curdata = rest) (more : rest ≠ [])
    (last : ∀ f tail, f.1.length ≤ 65535 → rest ≠ filterBytes withQos f ++ tail) :
    readFilters chunk withQos enddata (free + 1) curdata filters = some (false, filters) := by
  have size := length_of_drop here more
  have positive := List.length_pos_iff.mpr more
  rw [readFilters, if_pos (by omega)]
  rcases readCounted_cases whole (show curdata ≤ enddata by omega) with
      ⟨data, tail, split, fits⟩ | ⟨failed, -⟩
  · have length := congrArg List.length split
    rw [List.length_drop, List.length_append, countedBytes_length] at length
    rw [(readCounted_of_drop fits split (by omega)).1]
    cases withQos with
    | false =>
        refine absurd ?_ (last (data, 0) tail fits)
        rw [← here, split, filterBytes]
        simp only [Bool.false_eq_true, if_false, List.append_nil]
    | true =>
        cases tail with
        | cons c tail =>
            refine absurd ?_ (last (data, c) tail fits)
            rw [← here, split, filterBytes]
            simp only [if_true, List.append_assoc, List.cons_append, List.nil_append]
        | nil =>
            rw [List.length_nil] at length
            simp only [Option.bind_eq_bind, Option.bind_some, if_true, Option.pure_def]
            rw [if_pos (by omega)]
  · rw [failed]
    rfl

end Loop

/-- Complete filters and nothing else. -/
def Complete (withQos : Bool) (bytes : List UInt8) : Prop :=
  ∃ fs, Countable fs ∧ bytes = fs.flatMap (filterBytes withQos)

/-- More bytes behind as many complete filters as the arrays have entries. -/
def Overruns (withQos : Bool) (maxcount : Nat) (bytes : List UInt8) : Prop :=
  ∃ fs rest, Countable fs ∧ fs.length = maxcount ∧ rest ≠ [] ∧
    bytes = fs.flatMap (filterBytes withQos) ++ rest

section Readers

variable {chunk bytes : List UInt8} {withQos : Bool} {enddata maxcount curdata : Nat}
  {fs : List (List UInt8 × UInt8)}

/-- Filters that fill the packet up to its end. -/
theorem readFilters_of_fits {after : List UInt8} (countable : Countable fs)
    (fits : fs.length ≤ maxcount)
    (here : chunk.drop curdata = fs.flatMap (filterBytes withQos) ++ after) :
    ∃ entries, List.Forall₂ (TopicFilter.Holds chunk withQos) entries fs ∧
      readFilters chunk withQos (curdata + (fs.flatMap (filterBytes withQos)).length) maxcount
        curdata [] = some (true, entries) := by
  obtain ⟨free, rfl⟩ := Nat.exists_eq_add_of_le fits
  obtain ⟨entries, all, run⟩ := readFilters_run free [] countable here
    (Nat.le_refl _)
  refine ⟨entries, all, ?_⟩
  rw [run, List.nil_append]
  cases free with
  | zero => rw [readFilters, if_neg (Nat.lt_irrefl _)]
  | succ free => rw [readFilters, if_neg (Nat.lt_irrefl _)]

/-- What lies before the rest of the chunk ends inside it. -/
theorem add_length_le {front rest : List UInt8} (start : curdata ≤ chunk.length)
    (here : chunk.drop curdata = front ++ rest) :
    curdata + front.length + rest.length = chunk.length := by
  have size := congrArg List.length here
  rw [List.length_drop, List.length_append] at size
  omega

theorem readFilters_of_overruns (exceeds : Overruns withQos maxcount bytes)
    (start : curdata ≤ chunk.length) (here : chunk.drop curdata = bytes) :
    readFilters chunk withQos chunk.length maxcount curdata [] = none := by
  obtain ⟨fs, rest, countable, rfl, more, rfl⟩ := exceeds
  have size := add_length_le start here
  have positive := List.length_pos_iff.mpr more
  obtain ⟨entries, -, run⟩ := readFilters_run 0 [] countable here
    (show _ ≤ chunk.length by omega)
  rw [Nat.add_zero] at run
  rw [run, readFilters, if_pos (by omega)]

theorem filterBytes_ne_nil (f : List UInt8 × UInt8) : filterBytes withQos f ≠ [] := by
  intro empty
  have size := filterBytes_length withQos f
  rw [empty, List.length_nil] at size
  omega

/-- More complete filters than the arrays have entries. -/
theorem overruns_of_lt (countable : Countable fs) (many : maxcount < fs.length)
    (rest : List UInt8) : Overruns withQos maxcount (fs.flatMap (filterBytes withQos) ++ rest) := by
  refine ⟨fs.take maxcount, (fs.drop maxcount).flatMap (filterBytes withQos) ++ rest,
    fun f mem => countable f (List.mem_of_mem_take mem), ?_, ?_, ?_⟩
  · rw [List.length_take, Nat.min_eq_left (Nat.le_of_lt many)]
  · rw [List.drop_eq_getElem_cons many, List.flatMap_cons]
    intro empty
    exact filterBytes_ne_nil _ (List.append_eq_nil_iff.mp (List.append_eq_nil_iff.mp empty).1).1
  · rw [← List.append_assoc, ← List.flatMap_append, List.take_append_drop]

/-- What the loop does with any bytes: it leaves the arrays, reads all filters, or gives up. -/
theorem readFilters_cases (withQos : Bool) (maxcount : Nat) (start : curdata ≤ chunk.length)
    (here : chunk.drop curdata = bytes) :
    Overruns withQos maxcount bytes ∧
        readFilters chunk withQos chunk.length maxcount curdata [] = none ∨
      ¬ Overruns withQos maxcount bytes ∧ ∃ complete entries,
        readFilters chunk withQos chunk.length maxcount curdata [] = some (complete, entries) ∧
          (complete = true ↔ Complete withQos bytes) := by
  obtain ⟨fs, rest, split, countable, last⟩ := exists_filters withQos bytes
  have fitting : ∀ {gs}, Countable gs → bytes = gs.flatMap (filterBytes withQos) →
      gs.length ≤ maxcount → ∃ entries,
        readFilters chunk withQos chunk.length maxcount curdata [] = some (true, entries) := by
    intro gs countable same few
    have ends := here.trans (same.trans (List.append_nil _).symm)
    have size := add_length_le start ends
    rw [List.length_nil, Nat.add_zero] at size
    obtain ⟨entries, -, read⟩ := readFilters_of_fits countable few ends
    rw [size] at read
    exact ⟨entries, read⟩
  by_cases exceeds : Overruns withQos maxcount bytes
  · exact .inl ⟨exceeds, readFilters_of_overruns exceeds start here⟩
  refine .inr ⟨exceeds, ?_⟩
  have few : ∀ {gs rest}, Countable gs → bytes = gs.flatMap (filterBytes withQos) ++ rest →
      gs.length ≤ maxcount := by
    intro gs rest countable same
    refine Nat.not_lt.mp fun many => exceeds ?_
    rw [same]
    exact overruns_of_lt countable many rest
  by_cases all : rest = []
  · subst all
    rw [List.append_nil] at split
    have room := few countable (split.trans (List.append_nil _).symm)
    obtain ⟨entries, read⟩ := fitting countable split room
    exact ⟨true, entries, read, fun _ => ⟨fs, countable, split⟩, fun _ => rfl⟩
  -- Something is left that is no filter: another way to split the bytes would contradict the run.
  have room : fs.length < maxcount := by
    refine Nat.lt_of_le_of_ne (few countable split) fun full => exceeds ?_
    exact ⟨fs, rest, countable, full, all, split⟩
  obtain ⟨free, rfl⟩ : ∃ free, maxcount = fs.length + (free + 1) :=
    ⟨maxcount - fs.length - 1, by omega⟩
  have size := add_length_le start (here.trans split)
  obtain ⟨entries, -, run⟩ := readFilters_run (free + 1) [] countable (here.trans split)
    (show _ ≤ chunk.length by omega)
  rw [readFilters_gives_up rfl (drop_add_of_drop (here.trans split)) all last,
    List.nil_append] at run
  refine ⟨false, entries, run, fun impossible => absurd impossible Bool.false_ne_true, ?_⟩
  rintro ⟨gs, other, same⟩
  obtain ⟨_, read⟩ := fitting other same (few other (same.trans (List.append_nil _).symm))
  cases run.symm.trans read

end Readers

/-! ## Whole packets -/

section Packets

variable {type : MsgType} {otherType : Int} {withQos : Bool} {maxcount id n : Nat}
  {chunk bytes : List UInt8} {header : UInt8}

/-- A chunk that starts with a packet of filters. -/
structure StartsFilters (chunk : List UInt8) (header : UInt8) (n id : Nat)
    (bytes after : List UInt8) : Prop where
  first : byteAt chunk 0 = some header
  decoded : mqttPacketDecodeBuf chunk 1 = some (n, 2 + bytes.length)
  body : chunk.drop (1 + n) = writeInt id ++ (bytes ++ after)

/-- A packet of filters, with something behind it. -/
def filterPacket (header : UInt8) (id : Nat) (bytes : List UInt8) : List UInt8 :=
  header :: (mqttPacketEncode (2 + bytes.length) ++ (writeInt id ++ bytes))

theorem startsFilters (header : UInt8) (id : Nat) (limit : 2 + bytes.length ≤ 268435455)
    (after : List UInt8) :
    StartsFilters (filterPacket header id bytes ++ after) header
      (mqttPacketEncode (2 + bytes.length)).length id bytes after := by
  have size : (writeInt id ++ bytes).length = 2 + bytes.length := by
    rw [List.length_append, writeInt_length]
  have decoded := decodeBuf_of_body header (show (writeInt id ++ bytes).length ≤ _ by omega) after
  rw [size] at decoded
  refine ⟨rfl, ?_, ?_⟩
  · rw [filterPacket, List.cons_append, List.append_assoc]
    exact decoded
  · rw [filterPacket, List.cons_append, List.append_assoc, Nat.add_comm, List.drop_succ_cons,
      List.drop_left, List.append_assoc]

theorem filterPacket_length (header : UInt8) (id : Nat) (bytes : List UInt8) :
    (filterPacket header id bytes).length =
      1 + (mqttPacketEncode (2 + bytes.length)).length + 2 + bytes.length := by
  simp only [filterPacket, List.length_cons, List.length_append, writeInt_length]
  omega

/-- The readers do nothing but run the loop behind the identifier. -/
theorem deserializeFilters_eq (otherType : Int) (withQos : Bool) (maxcount : Nat)
    {after : List UInt8} (starts : StartsFilters chunk header n id bytes after)
    (known : packetType header = type.code) (idFits : id ≤ 65535) :
    deserializeFilters type otherType withQos maxcount chunk =
      (readFilters chunk withQos (1 + n + 2 + bytes.length) maxcount (1 + n + 2) []).map fun r =>
        { rc := if r.1 then 1 else n
          dup := some (packetDup header)
          packetid := some id
          filters := r.2 } := by
  have start : readChar chunk 0 = some (header, 1) := by
    rw [readChar, starts.first]
    rfl
  have idRead : readInt chunk (1 + n) = some (id, 1 + n + 2) :=
    readInt_of_drop idFits starts.body
  unfold deserializeFilters
  rw [start]
  simp only [Option.bind_eq_bind, Option.bind_some, Option.pure_def, ne_eq, known,
    not_true_eq_false, if_false, starts.decoded, idRead, ← Nat.add_assoc]
  cases readFilters chunk withQos (1 + n + 2 + bytes.length) maxcount (1 + n + 2) [] with
  | none => rfl
  | some r => rfl

/-- A packet of complete filters that fit into the arrays is read back. -/
theorem deserializeFilters_of_complete (otherType : Int) {fs : List (List UInt8 × UInt8)}
    {after : List UInt8}
    (starts : StartsFilters chunk header n id (fs.flatMap (filterBytes withQos)) after)
    (known : packetType header = type.code) (idFits : id ≤ 65535) (countable : Countable fs)
    (few : fs.length ≤ maxcount) :
    ∃ entries, List.Forall₂ (TopicFilter.Holds chunk withQos) entries fs ∧
      deserializeFilters type otherType withQos maxcount chunk =
        some
          { rc := 1
            dup := some (packetDup header)
            packetid := some id
            filters := entries } := by
  obtain ⟨entries, all, read⟩ := readFilters_of_fits countable few (drop_add_of_drop starts.body)
  rw [writeInt_length] at read
  refine ⟨entries, all, ?_⟩
  rw [deserializeFilters_eq otherType withQos maxcount starts known idFits, read]
  rfl

/-- Which packets a reader accepts, and on which it leaves the arrays. -/
theorem deserializeFilters_accepts (known : packetType header = type.code) (idFits : id ≤ 65535)
    (limit : 2 + bytes.length ≤ 268435455) :
    (deserializeFilters type otherType withQos maxcount (filterPacket header id bytes) = none ↔
        Overruns withQos maxcount bytes) ∧
      ∀ read,
        deserializeFilters type otherType withQos maxcount (filterPacket header id bytes) =
            some read →
          (read.rc = 1 ↔ Complete withQos bytes ∨ 2 + bytes.length < 128) := by
  have starts := startsFilters header id limit []
  rw [List.append_nil] at starts
  have size := filterPacket_length header id bytes
  have field := mqttPacketEncode_length limit
  have eq := deserializeFilters_eq otherType withQos maxcount starts known idFits
  rw [← size] at eq
  have behind := drop_add_of_drop starts.body
  rw [writeInt_length, List.append_nil] at behind
  rw [eq]
  rcases readFilters_cases withQos maxcount (by omega) behind with
      ⟨exceeds, lost⟩ | ⟨within, complete, entries, read, whether⟩
  · rw [lost]
    refine ⟨⟨fun _ => exceeds, fun _ => rfl⟩, ?_⟩
    intro read impossible
    cases impossible
  · rw [read]
    constructor
    · constructor
      · intro impossible
        cases impossible
      · intro exceeds
        exact absurd exceeds within
    intro result same
    obtain rfl := Option.some.inj same
    cases complete with
    | true => exact ⟨fun _ => .inl (whether.mp rfl), fun _ => rfl⟩
    | false =>
        have incomplete : ¬ Complete withQos bytes := by
          intro complete
          exact absurd (whether.mpr complete) Bool.false_ne_true
        constructor
        · intro one
          right
          replace one : ((mqttPacketEncode (2 + bytes.length)).length : Int) = 1 := one
          by_contra long
          rw [field, if_neg long] at one
          split_ifs at one <;> omega
        · rintro (complete | short)
          · exact absurd complete incomplete
          · change ((mqttPacketEncode (2 + bytes.length)).length : Int) = 1
            rw [field, if_pos short]
            rfl

end Packets

/-- The two packets of filters. -/
inductive FilterPacket where
  | subscribe | unsubscribe
  deriving DecidableEq, Repr

namespace FilterPacket

def type : FilterPacket → MsgType
  | subscribe => .subscribe
  | unsubscribe => .unsubscribe

def withQos : FilterPacket → Bool
  | subscribe => true
  | unsubscribe => false

/-- The server's function for the packet. -/
def deserialize : FilterPacket → Nat → List UInt8 → Option FilterList
  | subscribe => mqttDeserializeSubscribe
  | unsubscribe => mqttDeserializeUnsubscribe

/-- The client's function for the packet; an unsubscribe has no use for the QoS. -/
def serialize (buflen dup packetid : Nat) (topicFilters : List (MqttString × Int)) :
    FilterPacket → Except PacketError (List UInt8)
  | subscribe => mqttSerializeSubscribe buflen dup packetid topicFilters
  | unsubscribe => mqttSerializeUnsubscribe buflen dup packetid (topicFilters.map Prod.fst)

/-- The size that the client predicts for the packet. -/
def size (topicFilters : List MqttString) : FilterPacket → Nat
  | subscribe => mqttSerializeSubscribeSize topicFilters
  | unsubscribe => mqttSerializeUnsubscribeSize topicFilters

theorem deserialize_eq (p : FilterPacket) :
    ∃ otherType, ∀ maxcount chunk,
      p.deserialize maxcount chunk =
        deserializeFilters p.type otherType p.withQos maxcount chunk := by
  cases p with
  | subscribe => exact ⟨-1, fun _ _ => rfl⟩
  | unsubscribe => exact ⟨0, fun _ _ => rfl⟩

end FilterPacket

/-- The readers leave their arrays on exactly the packets that go on behind `maxcount` filters.
What they accept otherwise is the packets made of filters, and every packet with fewer than
128 bytes. -/
theorem deserialize_accepts_iff (p : FilterPacket) (maxcount : Nat) (header : UInt8) (id : UInt16)
    (bytes : List UInt8) (known : packetType header = p.type.code)
    (limit : 2 + bytes.length ≤ 268435455) :
    (p.deserialize maxcount (filterPacket header id.toNat bytes) = none ↔
        Overruns p.withQos maxcount bytes) ∧
      ∀ read, p.deserialize maxcount (filterPacket header id.toNat bytes) = some read →
        (read.rc = 1 ↔ Complete p.withQos bytes ∨ 2 + bytes.length < 128) := by
  have idFits : id.toNat ≤ 65535 := by
    have below := id.toNat_lt
    omega
  obtain ⟨otherType, eq⟩ := p.deserialize_eq
  rw [eq]
  exact deserializeFilters_accepts known idFits limit

/-- A server without room for a filter leaves its arrays on any byte behind the identifier. -/
theorem deserialize_accepts_iff_overrun :
    FilterPacket.subscribe.deserialize 0 (filterPacket 0x82 7 [0]) = none := by
  apply (deserialize_accepts_iff .subscribe 0 0x82 7 [0] (by decide) (by decide)).1.mpr
  exact ⟨[], [0], fun _ absent => absurd absent List.not_mem_nil, rfl, by decide, rfl⟩

/-! ## What the client writes -/

namespace MqttString

/-- The string has one form at most. -/
def Single (s : MqttString) : Prop := s.cstring = none ∨ s.lenstring = none

/-- The bytes of a string with one form. -/
def bytes (s : MqttString) : List UInt8 :=
  match s.cstring with
  | some c => c.bytes
  | none => s.lenstring.getD []

variable {s : MqttString}

theorem strlen_eq (s : MqttString) : mqttStrlen s = s.bytes.length := by
  obtain ⟨cstring, lenstring⟩ := s
  cases cstring with
  | none => rfl
  | some c => rfl

theorem Single.written (single : s.Single) : writeMqttString s = countedBytes s.bytes := by
  obtain ⟨cstring, lenstring⟩ := s
  rcases single with rfl | rfl
  · unfold writeMqttString MqttString.bytes lenstringLen
    cases lenstring with
    | none => rfl
    | some data =>
        cases data with
        | nil => rfl
        | cons c data => rfl
  · cases cstring with
    | none => rfl
    | some c => rfl

end MqttString

/-- The filter that the client asks for, with the QoS byte that it stores. -/
def filterOf (t : MqttString × Int) : List UInt8 × UInt8 :=
  (t.1.bytes, UInt8.ofNat (t.2 % 256).toNat)

section Clients

variable {topicFilters : List (MqttString × Int)}

theorem subscribeLength_eq (lengths : List MqttString) (len : Nat) :
    lengths.foldl (fun len topic => len + (2 + mqttStrlen topic + 1)) len =
      len + (lengths.flatMap fun t => filterBytes true (t.bytes, 0)).length := by
  induction lengths generalizing len with
  | nil => rfl
  | cons t lengths ih =>
      rw [List.foldl_cons, ih, List.flatMap_cons, List.length_append, filterBytes_length,
        MqttString.strlen_eq]
      simp only [if_true]
      omega

theorem unsubscribeLength_eq (lengths : List MqttString) (len : Nat) :
    lengths.foldl (fun len topic => len + (2 + mqttStrlen topic)) len =
      len + (lengths.flatMap fun t => filterBytes false (t.bytes, 0)).length := by
  induction lengths generalizing len with
  | nil => rfl
  | cons t lengths ih =>
      rw [List.foldl_cons, ih, List.flatMap_cons, List.length_append, filterBytes_length,
        MqttString.strlen_eq]
      simp only [Bool.false_eq_true, if_false]
      omega

/-- The length of the filters does not depend on their QoS. -/
theorem filters_length (withQos : Bool) (topicFilters : List (MqttString × Int)) :
    ((topicFilters.map Prod.fst).flatMap fun t => filterBytes withQos (t.bytes, 0)).length =
      ((topicFilters.map filterOf).flatMap (filterBytes withQos)).length := by
  induction topicFilters with
  | nil => rfl
  | cons t topicFilters ih =>
      simp only [List.map_cons, List.flatMap_cons, List.length_append, ih, filterBytes_length,
        filterOf]

theorem subscribe_written (single : ∀ t ∈ topicFilters, t.1.Single) :
    (topicFilters.flatMap fun t => writeMqttString t.1 ++ [UInt8.ofNat (t.2 % 256).toNat]) =
      (topicFilters.map filterOf).flatMap (filterBytes true) := by
  induction topicFilters with
  | nil => rfl
  | cons t topicFilters ih =>
      obtain ⟨here, single⟩ := List.forall_mem_cons.mp single
      rw [List.flatMap_cons, ih single, here.written]
      rfl

theorem unsubscribe_written (single : ∀ t ∈ topicFilters, t.1.Single) :
    (topicFilters.map Prod.fst).flatMap writeMqttString =
      (topicFilters.map filterOf).flatMap (filterBytes false) := by
  induction topicFilters with
  | nil => rfl
  | cons t topicFilters ih =>
      obtain ⟨here, single⟩ := List.forall_mem_cons.mp single
      rw [List.map_cons, List.flatMap_cons, ih single, here.written, List.map_cons,
        List.flatMap_cons, filterBytes]
      simp only [filterOf, Bool.false_eq_true, if_false, List.append_nil]

/-- What the client stores in a buffer of the predicted size. -/
theorem FilterPacket.serialize_eq (p : FilterPacket) {buflen dup packetid : Nat}
    (single : ∀ t ∈ topicFilters, t.1.Single)
    (room : p.size (topicFilters.map Prod.fst) ≤ buflen) :
    p.serialize buflen dup packetid topicFilters =
      .ok (filterPacket (mqttHeader p.type dup 1 0) packetid
        ((topicFilters.map filterOf).flatMap (filterBytes p.withQos))) := by
  cases p with
  | subscribe =>
      have length : mqttSerializeSubscribeLength (topicFilters.map Prod.fst) =
          2 + ((topicFilters.map filterOf).flatMap (filterBytes true)).length := by
        rw [mqttSerializeSubscribeLength, subscribeLength_eq, filters_length]
      change mqttPacketLen (mqttSerializeSubscribeLength _) ≤ buflen at room
      change mqttSerializeSubscribe buflen dup packetid topicFilters = _
      unfold mqttSerializeSubscribe
      rw [if_neg (Nat.not_lt.mpr room), length, subscribe_written single]
      rfl
  | unsubscribe =>
      have length : mqttSerializeUnsubscribeLength (topicFilters.map Prod.fst) =
          2 + ((topicFilters.map filterOf).flatMap (filterBytes false)).length := by
        rw [mqttSerializeUnsubscribeLength, unsubscribeLength_eq, filters_length]
      change mqttPacketLen (mqttSerializeUnsubscribeLength _) ≤ buflen at room
      change mqttSerializeUnsubscribe buflen dup packetid (topicFilters.map Prod.fst) = _
      unfold mqttSerializeUnsubscribe
      rw [if_neg (Nat.not_lt.mpr room), length, unsubscribe_written single]
      rfl

theorem FilterPacket.size_eq (p : FilterPacket) (topicFilters : List (MqttString × Int)) :
    p.size (topicFilters.map Prod.fst) =
      mqttPacketLen (2 + ((topicFilters.map filterOf).flatMap (filterBytes p.withQos)).length) := by
  cases p with
  | subscribe =>
      change mqttPacketLen (mqttSerializeSubscribeLength _) = _
      rw [mqttSerializeSubscribeLength, subscribeLength_eq, filters_length]
      rfl
  | unsubscribe =>
      change mqttPacketLen (mqttSerializeUnsubscribeLength _) = _
      rw [mqttSerializeUnsubscribeLength, unsubscribeLength_eq, filters_length]
      rfl

/-- The type and the flag of a subscription. -/
theorem filterHeader_fields (p : FilterPacket) (dup : Bool) :
    packetType (mqttHeader p.type dup.toNat 1 0) = p.type.code ∧
      packetDup (mqttHeader p.type dup.toNat 1 0) = dup.toNat := by
  cases p with
  | subscribe =>
      cases dup
      · decide
      · decide
  | unsubscribe =>
      cases dup
      · decide
      · decide

end Clients

/-- The server reads the filters that the client asks for, in their order, whatever lies behind
the packet in its buffer. -/
theorem deserialize_serialize_filters (p : FilterPacket) (topicFilters : List (MqttString × Int))
    (single : ∀ t ∈ topicFilters, t.1.Single) (short : ∀ t ∈ topicFilters, t.1.bytes.length ≤ 65535)
    (dup : Bool) (id : UInt16) {buflen maxcount : Nat}
    (room : p.size (topicFilters.map Prod.fst) ≤ buflen) (few : topicFilters.length ≤ maxcount)
    (limit : p.size (topicFilters.map Prod.fst) ≤ 268435460) :
    ∃ written, p.serialize buflen dup.toNat id.toNat topicFilters = .ok written ∧
      ∀ after, ∃ entries,
        List.Forall₂ (TopicFilter.Holds (written ++ after) p.withQos) entries
          (topicFilters.map filterOf) ∧
        p.deserialize maxcount (written ++ after) =
          some
            { rc := 1
              dup := some dup.toNat
              packetid := some id.toNat
              filters := entries } := by
  have idFits : id.toNat ≤ 65535 := by
    have below := id.toNat_lt
    omega
  have countable : Countable (topicFilters.map filterOf) := by
    intro f mem
    obtain ⟨t, found, rfl⟩ := List.mem_map.mp mem
    exact short t found
  obtain ⟨known, flag⟩ := filterHeader_fields p dup
  have small : 2 + ((topicFilters.map filterOf).flatMap (filterBytes p.withQos)).length ≤
      268435455 := by
    rw [FilterPacket.size_eq, mqttPacketLen] at limit
    split_ifs at limit <;> omega
  obtain ⟨otherType, eq⟩ := p.deserialize_eq
  refine ⟨_, p.serialize_eq single room, ?_⟩
  intro after
  obtain ⟨entries, all, read⟩ := deserializeFilters_of_complete otherType
    (startsFilters _ _ small after) known idFits countable
    (show (topicFilters.map filterOf).length ≤ maxcount by rw [List.length_map]; exact few)
  rw [flag] at read
  exact ⟨entries, all, (eq _ _).trans read⟩

/-- Two filters with different QoS, one of them empty. -/
theorem deserialize_serialize_filters_two :
    ∃ written, FilterPacket.subscribe.serialize 14 0 9
        [(.ofCString (some ⟨[97, 47], by decide⟩), 1), (.ofLenString [], 0)] = .ok written ∧
      ∃ entries,
        List.Forall₂ (TopicFilter.Holds (written ++ [0]) true) entries [([97, 47], 1), ([], 0)] ∧
        FilterPacket.subscribe.deserialize 2 (written ++ [0]) =
          some { rc := 1, dup := some 0, packetid := some 9, filters := entries } := by
  obtain ⟨written, stored, read⟩ := deserialize_serialize_filters .subscribe
    [(.ofCString (some ⟨[97, 47], by decide⟩), 1), (.ofLenString [], 0)]
    (by
      intro t mem
      rcases List.mem_pair.mp mem with rfl | rfl
      · exact .inr rfl
      · exact .inl rfl)
    (by
      intro t mem
      rcases List.mem_pair.mp mem with rfl | rfl
      · decide
      · decide)
    false 9 (show _ ≤ 14 by decide) (show _ ≤ 2 by decide) (by decide)
  exact ⟨written, stored, read [0]⟩

end StDevice.Mqtt
