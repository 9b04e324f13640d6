import StDevice.LogFile.File

/-!
# The log in RAM

In the build with `RAM_ONLY` the buffer is a ring. Its index is brought back to zero only
when the next character comes, so it may stand one behind the last byte, and the flag
`overridden` says whether the oldest byte is at the start of the buffer or at the index.
-/

namespace StDevice.LogFile

/-- `iot_log_file_open`, the case `RAM_ONLY`: the handle, the file size and the context after
it. `allocated` says whether the handle could be allocated. -/
def iotLogFileOpenRamOnly {size : Nat} (allocated : Bool) (ctx : Ctx size) :
    Option (Handle × Nat × Ctx size) :=
  if allocated then
    let ctx := iotLogFileEnable false ctx
    let filesize := if ctx.logBuf.overridden then size else ctx.logBuf.cnt
    let handle :=
      { startAddr := 0
        tailAddr := ctx.logBuf.cnt
        curAddr := if ctx.logBuf.overridden then ctx.logBuf.cnt else 0
        logSize := filesize
        maxLogSize := size
        fileType := .ramOnly }
    some (handle, filesize, ctx)
  else none

/-- Calls of `iot_log_file_store` one after another, with what they return. -/
def storeAll {size : Nat} (type : FileType) (ctx : Ctx size) :
    List (List UInt8) → List Int × Ctx size
  | [] => ([], ctx)
  | logData :: calls =>
      let (ret, ctx) := iotLogFileStore type ctx logData
      let (rets, ctx) := storeAll type ctx calls
      (ret :: rets, ctx)

/-- The buffer is the ring of all bytes stored so far. -/
structure Stored {size : Nat} (b : LogBuf size) (history : List UInt8) : Prop where
  holds : Ring.Holds b.cell size b.cnt history
  first : b.overridden = false → b.cnt = history.length
  full : b.overridden = true → size ≤ history.length

section Ring

variable {size : Nat} {b : LogBuf size} {history : List UInt8}

theorem stored_init (size : Nat) : Stored (iotLogFileInit size).logBuf [] :=
  ⟨Ring.holds_nil _ _, fun _ => rfl, fun impossible => absurd impossible Bool.false_ne_true⟩

private theorem cell_set {place p : Nat} (inside : place < size) (c : UInt8) :
    (b.buf.setIfInBounds place c)[p]?.getD 0 = if place = p then c else b.cell p := by
  unfold LogBuf.cell
  by_cases same : place = p
  · subst same
    simp [inside]
  · simp [same]

/-- One character is appended to the ring. -/
theorem Stored.storeChar (stored : Stored b history) (positive : 0 < size) (c : UInt8) :
    Stored (iotLogFileStoreChar b c) (history ++ [c]) := by
  have place := stored.holds.inside
  by_cases ends : b.cnt ≥ size
  · have result : iotLogFileStoreChar b c =
        { b with cnt := 1, overridden := true, buf := b.buf.setIfInBounds 0 c } := by
      rw [iotLogFileStoreChar, if_pos ends]
    rw [result]
    refine ⟨stored.holds.append ?_ ?_ ?_ (.inr ?_), nofun, fun _ => ?_⟩
    · exact positive
    · intro i below
      obtain rfl : i = 0 := by simpa using below
      have front : Ring.forward size b.cnt 0 = 0 := by
        rw [Ring.forward, if_neg (by omega)]
        omega
      rw [front, LogBuf.cell, cell_set positive, if_pos rfl]
      rfl
    · intro p _ other
      have elsewhere := other 0 (by simp)
      have front : Ring.forward size b.cnt 0 = 0 := by
        rw [Ring.forward, if_neg (by omega)]
        omega
      rw [front] at elsewhere
      rw [LogBuf.cell, cell_set positive, if_neg elsewhere]
    · dsimp only [List.length_singleton]
      omega
    · have enough : size ≤ history.length := by
        cases wrapped : b.overridden with
        | true => exact stored.full wrapped
        | false =>
            have known := stored.first wrapped
            omega
      rw [List.length_append]
      omega
  · have inside : b.cnt < size := Nat.not_le.mp ends
    have result : iotLogFileStoreChar b c =
        { b with cnt := b.cnt + 1, buf := b.buf.setIfInBounds b.cnt c } := by
      rw [iotLogFileStoreChar, if_neg ends]
    have here : Ring.forward size b.cnt 0 = b.cnt := by
      rw [Ring.forward, if_pos (by omega), Nat.add_zero]
    rw [result]
    refine ⟨stored.holds.append ?_ ?_ ?_ (.inl ⟨rfl, inside⟩), ?_, ?_⟩
    · exact positive
    · intro i below
      obtain rfl : i = 0 := by simpa using below
      rw [here, LogBuf.cell, cell_set inside, if_pos rfl]
      rfl
    · intro p _ other
      have elsewhere := other 0 (by simp)
      rw [here] at elsewhere
      rw [LogBuf.cell, cell_set inside, if_neg elsewhere]
    · intro unwrapped
      have known := stored.first unwrapped
      rw [List.length_append, List.length_singleton, ← known]
    · intro wrapped
      have known := stored.full wrapped
      rw [List.length_append]
      omega

theorem Stored.storeChars (stored : Stored b history) (positive : 0 < size)
    (logData : List UInt8) :
    Stored (logData.foldl iotLogFileStoreChar b) (history ++ logData) := by
  induction logData generalizing b history with
  | nil =>
      rw [List.append_nil]
      exact stored
  | cons c logData ih =>
      rw [List.foldl_cons, List.append_cons]
      exact ih (stored.storeChar positive c)

@[simp] theorem storeChar_enable (b : LogBuf size) (c : UInt8) :
    (iotLogFileStoreChar b c).enable = b.enable := by
  unfold iotLogFileStoreChar
  split
  · rfl
  · rfl

@[simp] theorem foldl_storeChar_enable (b : LogBuf size) (logData : List UInt8) :
    (logData.foldl iotLogFileStoreChar b).enable = b.enable := by
  induction logData generalizing b with
  | nil => rfl
  | cons c logData ih => rw [List.foldl_cons, ih, storeChar_enable]

/-- The context after an accepted call in the build with `RAM_ONLY`. -/
theorem store_ramOnly {ctx : Ctx size} {logData : List UInt8}
    (enabled : ctx.logBuf.enable = true) (short : logData.length < maxStringSize) :
    iotLogFileStore .ramOnly ctx logData =
      ((logData.length : Int),
        { ctx with logBuf := logData.foldl iotLogFileStoreChar ctx.logBuf }) := by
  have usable : ¬ ctx.logBuf.enable = false := by
    rw [enabled]
    nofun
  rw [iotLogFileStore, if_neg usable, if_neg (Nat.not_le.mpr short)]

/-- All calls are accepted, and the buffer is the ring of everything they stored. -/
theorem storeAll_ramOnly {ctx : Ctx size} (positive : 0 < size)
    (enabled : ctx.logBuf.enable = true) (stored : Stored ctx.logBuf history)
    {calls : List (List UInt8)} (accepted : ∀ logData ∈ calls, logData.length < maxStringSize) :
    (storeAll .ramOnly ctx calls).1 = calls.map (fun logData => (logData.length : Int)) ∧
      Stored (storeAll .ramOnly ctx calls).2.logBuf (history ++ calls.flatten) := by
  induction calls generalizing ctx history with
  | nil =>
      rw [List.flatten_nil, List.append_nil]
      exact ⟨rfl, stored⟩
  | cons logData calls ih =>
      have short := accepted logData List.mem_cons_self
      obtain ⟨rets, after⟩ := @ih (history ++ logData)
        { ctx with logBuf := logData.foldl iotLogFileStoreChar ctx.logBuf }
        ((foldl_storeChar_enable _ _).trans enabled) (stored.storeChars positive logData)
        fun other member => accepted other (List.mem_cons_of_mem logData member)
      rw [storeAll, store_ramOnly enabled short]
      refine ⟨by rw [List.map_cons, ← rets], ?_⟩
      rw [List.flatten_cons, ← List.append_assoc]
      exact after

/-- The bytes of the buffer can be read at every offset. -/
theorem readable_ramOnly (ctx : Ctx size) (readFlash : Nat → Nat → Option (List UInt8))
    {logSize : Nat} (inside : logSize ≤ size) :
    Readable (iotLogReadBytes readFlash ctx .ramOnly) 0 logSize ctx.logBuf.cell := by
  intro offset n fits
  rw [iotLogReadBytes, Buffer.read, Vector.length_toList, if_pos (by omega)]
  congr 1
  apply List.ext_getElem?
  intro k
  by_cases below : k < n
  · have within : offset + k < size := by omega
    simp [below, LogBuf.cell, within]
  · rw [List.getElem?_eq_none, List.getElem?_eq_none]
    · simpa using below
    · rw [List.length_take]
      omega

/-- The size of the file. -/
theorem Stored.filesize (stored : Stored b history) :
    (if b.overridden then size else b.cnt) = min history.length size := by
  have place := stored.holds.inside
  cases wrapped : b.overridden with
  | true =>
      have known := stored.full wrapped
      rw [if_pos rfl]
      omega
  | false =>
      have known := stored.first wrapped
      rw [if_neg Bool.false_ne_true]
      omega

/-- A reader of the opened file gets the newest bytes that the buffer holds. -/
theorem readAll_ramOnly {ctx : Ctx size} (stored : Stored ctx.logBuf history)
    (readFlash : Nat → Nat → Option (List UInt8)) :
    ∃ handle opened, iotLogFileOpenRamOnly true ctx =
        some (handle, min history.length size, opened) ∧
      ∀ sizes : List Nat, sizes.sum ≤ min history.length size →
        ∃ handle' pieces,
          readAll (iotLogReadBytes readFlash opened handle.fileType) handle sizes =
            some (handle', pieces) ∧
          pieces.map List.length = sizes ∧
          pieces.flatten =
            (history.drop (history.length - min history.length size)).take sizes.sum := by
  have place := stored.holds.inside
  have filesize := stored.filesize
  refine ⟨⟨0, ctx.logBuf.cnt, if ctx.logBuf.overridden then ctx.logBuf.cnt else 0,
    min history.length size, size, .ramOnly⟩, iotLogFileEnable false ctx, ?_, ?_⟩
  · rw [iotLogFileOpenRamOnly, if_pos rfl, ← filesize]
    rfl
  intro sizes total
  have readable : Readable (iotLogReadBytes readFlash (iotLogFileEnable false ctx) .ramOnly) 0
      (min history.length size) ctx.logBuf.cell :=
    readable_ramOnly (iotLogFileEnable false ctx) readFlash (by omega)
  -- The oldest byte is at the index once the ring has wrapped, and at the start before.
  have oldest : Ring.window ctx.logBuf.cell (min history.length size)
        (if ctx.logBuf.overridden then ctx.logBuf.cnt else 0) sizes.sum =
      Ring.window ctx.logBuf.cell (min history.length size)
        (if history.length < size then 0 else ctx.logBuf.cnt) sizes.sum := by
    cases wrapped : ctx.logBuf.overridden with
    | true =>
        have known := stored.full wrapped
        rw [if_pos rfl, if_neg (by omega)]
    | false =>
        have known := stored.first wrapped
        rw [if_neg Bool.false_ne_true]
        by_cases short : history.length < size
        · rw [if_pos short]
        · have full : min history.length size = size := by omega
          have last : ctx.logBuf.cnt = size := by omega
          rw [if_neg short, full, last, Ring.window_end (by omega)]
  have inside : (if ctx.logBuf.overridden then ctx.logBuf.cnt else 0) ≤
      min history.length size := by
    cases wrapped : ctx.logBuf.overridden with
    | true =>
        have known := stored.full wrapped
        rw [if_pos rfl]
        omega
    | false => exact Nat.zero_le _
  obtain ⟨handle', pieces, read, lengths, joined⟩ :=
    @readAll_eq_window _ ⟨0, ctx.logBuf.cnt,
        if ctx.logBuf.overridden then ctx.logBuf.cnt else 0, min history.length size, size,
        .ramOnly⟩ _ _ _ readable (Nat.zero_add _).symm inside total
  refine ⟨handle', pieces, read, lengths, ?_⟩
  rw [joined, oldest, stored.holds.window_eq total]

/-- Whatever was stored in whatever pieces, an opened file has the size of what the buffer
can hold of it, and reads of any sizes return the last bytes stored. -/
theorem readAll_storeAll_ramOnly (positive : 0 < size) {calls : List (List UInt8)}
    (accepted : ∀ logData ∈ calls, logData.length < maxStringSize)
    (readFlash : Nat → Nat → Option (List UInt8)) :
    (storeAll .ramOnly (iotLogFileInit size) calls).1 =
        calls.map (fun logData => (logData.length : Int)) ∧
      ∃ handle filesize opened,
        iotLogFileOpenRamOnly true (storeAll .ramOnly (iotLogFileInit size) calls).2 =
          some (handle, filesize, opened) ∧
        filesize = min calls.flatten.length size ∧
        ∀ sizes : List Nat, sizes.sum ≤ filesize →
          ∃ handle' pieces,
            readAll (iotLogReadBytes readFlash opened handle.fileType) handle sizes =
              some (handle', pieces) ∧
            pieces.map List.length = sizes ∧
            pieces.flatten =
              (calls.flatten.drop (calls.flatten.length - filesize)).take sizes.sum := by
  obtain ⟨rets, stored⟩ := storeAll_ramOnly positive rfl (stored_init size) accepted
  rw [List.nil_append] at stored
  obtain ⟨handle, opened, open_, reads⟩ := readAll_ramOnly stored readFlash
  exact ⟨rets, handle, _, opened, open_, rfl, reads⟩

/-- Seven bytes in a buffer of four: the last four are read, across the end. -/
theorem readAll_storeAll_ramOnly_wrapped :
    ∃ handle filesize opened,
      iotLogFileOpenRamOnly true
          (storeAll .ramOnly (iotLogFileInit 4) [[1, 2, 3], [4, 5], [6, 7]]).2 =
        some (handle, filesize, opened) ∧ filesize = 4 ∧
      ∃ handle' pieces,
        readAll (iotLogReadBytes (fun _ _ => none) opened handle.fileType) handle [1, 3] =
          some (handle', pieces) ∧
        pieces.flatten = [4, 5, 6, 7] := by
  obtain ⟨-, handle, filesize, opened, open_, size, reads⟩ :=
    @readAll_storeAll_ramOnly 4 (by decide) [[1, 2, 3], [4, 5], [6, 7]] (by decide) fun _ _ => none
  have four : filesize = 4 := size
  subst four
  obtain ⟨handle', pieces, read, -, joined⟩ := reads [1, 3] (by decide)
  exact ⟨handle, 4, opened, open_, rfl, handle', pieces, read, joined⟩

end Ring

end StDevice.LogFile
