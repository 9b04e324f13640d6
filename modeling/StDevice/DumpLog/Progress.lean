import StDevice.DumpLog.Output
import StDevice.Foundation.Loop

/-!
# Reads that fail during a dump

The storage under the log may fail. `iot_log_file_read` then reports that nothing was read,
and `st_create_log_dump` does not look at the error: it copies what is in its scratch buffer.
Where that is nothing, the copy fails and the loop is left. Where up to two bytes are left
over from before, the copy keeps them, and the loop goes on as it was.
-/

namespace StDevice.DumpLog

open LogFile

/-- The storage: whether a read succeeds, and what is in the buffer of the caller behind it.
The reads are counted, as each may end in another way. -/
structure Storage where
  read : (attempt addr n : Nat) → Bool × List UInt8
  size : ∀ attempt addr n, (read attempt addr n).2.length = n

/-- What `iot_log_file_read` does: the handle, the bytes in the buffer of the caller, the size
that is reported, and the number of reads of the storage so far. -/
structure LogRead where
  handle : Handle
  stored : List UInt8
  readSize : Nat
  attempt : Nat

/-- `iot_log_file_read`, which changes nothing in the handle when a read fails. -/
def iotLogFileTryRead (storage : Storage) (attempt : Nat) (handle : Handle) (bufSize : Nat) :
    LogRead :=
  if iotLogFileCheckValidRange handle bufSize then
    let read := storage.read attempt handle.curAddr bufSize
    if read.1 = false then ⟨handle, read.2, 0, attempt + 1⟩
    else ⟨{ handle with curAddr := handle.curAddr + bufSize }, read.2, bufSize, attempt + 1⟩
  else
    let offsetSize := handle.curAddr - handle.startAddr
    let sizeToRead := handle.logSize - offsetSize
    let first := storage.read attempt handle.curAddr sizeToRead
    if first.1 = false then ⟨handle, first.2, 0, attempt + 1⟩
    else
      let remainSize := bufSize - sizeToRead
      let maxRemainSize := offsetSize
      let remainSize := if remainSize > maxRemainSize then maxRemainSize else remainSize
      let second := storage.read (attempt + 1) handle.startAddr remainSize
      if second.1 = false then ⟨handle, first.2 ++ second.2, 0, attempt + 2⟩
      else
        ⟨{ handle with curAddr := handle.startAddr + remainSize }, first.2 ++ second.2,
          sizeToRead + remainSize, attempt + 2⟩

/-- The variables of the loop over the log. -/
structure CopyState where
  logfile : Handle
  maxMsgSize : Nat
  dump : Dump
  attempt : Nat

/-- `msg_size`, which is what the scratch buffer has room for, or the rest. -/
def CopyState.msgSize (s : CopyState) : Nat :=
  let msgSize := bufferSize - s.dump.remainNumber
  if msgSize > s.maxMsgSize then s.maxMsgSize else msgSize

/-- A round of the loop; `none` is an error of the copy. -/
def copyRound (storage : Storage) (base64 : Bool) (outputLogSize : Nat) (s : CopyState) :
    Option CopyState := do
  let read := iotLogFileTryRead storage s.attempt s.logfile s.msgSize
  let tempBuf ← Buffer.write s.dump.tempBuf s.dump.remainNumber read.stored
  let dump ← iotDumpCopyMemory base64 outputLogSize .tempBuf (read.readSize + s.dump.remainNumber)
    { s.dump with tempBuf, remainNumber := 0 }
  pure ⟨read.handle, s.maxMsgSize - read.readSize, dump, read.attempt⟩

/-- `while (max_msg_size)`. -/
def MoreToCopy (s : CopyState) : Prop := s.maxMsgSize ≠ 0

instance : DecidablePred MoreToCopy := fun s => inferInstanceAs (Decidable (s.maxMsgSize ≠ 0))

/-- What `st_create_log_dump` starts the loop with: the size of the output, and the variables. -/
def copyStart (logfile : Handle) (storedLogSize : Nat) (state : DumpState) (maxLogDumpSize : Nat)
    (logMode : UInt32) : Option (Nat × CopyState) :=
  let stateSize := dumpStateSize state logMode
  if maxLogDumpSize < outputSize (needBase64 logMode) (16 + stateSize) then none
  else do
    let maxMsgSize := maxMsgSize state logMode maxLogDumpSize storedLogSize
    let outputLogSize := outputSize (needBase64 logMode) (maxMsgSize + 16 + stateSize)
    let dump ← copyBlocks state logMode outputLogSize
    pure (outputLogSize, ⟨iotLogFileSeek logfile maxMsgSize logfile.tailAddr, maxMsgSize, dump, 0⟩)

/-- The loop ends, and each of its rounds takes at least one byte or leaves it. -/
def CopyEnds (storage : Storage) (base64 : Bool) (outputLogSize : Nat) (s : CopyState) : Prop :=
  Loop.Ends MoreToCopy (copyRound storage base64 outputLogSize) s ∧
    Loop.Progresses MoreToCopy (copyRound storage base64 outputLogSize) CopyState.maxMsgSize s

/-- The reads of the storage for `n` bytes succeed: one, or two where the log ends before. -/
def ReadSucceeds (storage : Storage) (attempt : Nat) (handle : Handle) (n : Nat) : Prop :=
  if handle.curAddr + n ≤ handle.startAddr + handle.logSize then
    (storage.read attempt handle.curAddr n).1 = true
  else
    let sizeToRead := handle.startAddr + handle.logSize - handle.curAddr
    (storage.read attempt handle.curAddr sizeToRead).1 = true ∧
      (storage.read (attempt + 1) handle.startAddr (n - sizeToRead)).1 = true

/-- The storage gives what `readBytes` reads, each time. -/
def Storage.Gives (storage : Storage) (readBytes : (addr n : Nat) → Option (List UInt8)) : Prop :=
  ∀ addr n bytes, readBytes addr n = some bytes →
    ∀ attempt, storage.read attempt addr n = (true, bytes)

theorem Storage.Gives.length_eq {storage : Storage}
    {readBytes : (addr n : Nat) → Option (List UInt8)} (gives : storage.Gives readBytes)
    {addr n : Nat} {bytes : List UInt8} (read : readBytes addr n = some bytes) :
    bytes.length = n := by
  have size := storage.size 0 addr n
  rw [gives addr n bytes read] at size
  exact size

/-- A read that succeeds is the one of `File.lean`. -/
theorem tryRead_of_read {storage : Storage} {readBytes : (addr n : Nat) → Option (List UInt8)}
    (gives : storage.Gives readBytes) {handle handle' : Handle} {n : Nat} {bytes : List UInt8}
    (read : iotLogFileRead readBytes handle n = some (handle', bytes)) (attempt : Nat) :
    ∃ attempt', iotLogFileTryRead storage attempt handle n =
      ⟨handle', bytes, bytes.length, attempt'⟩ := by
  rw [iotLogFileRead] at read
  rw [iotLogFileTryRead]
  split at read
  case isTrue valid =>
    obtain ⟨got, found, same⟩ := Option.bind_eq_some_iff.mp read
    obtain ⟨rfl, rfl⟩ := Prod.mk.inj (Option.some.inj same)
    rw [if_pos valid]
    simp only [gives _ _ _ found, Bool.true_eq_false, if_false]
    exact ⟨attempt + 1, by rw [gives.length_eq found]⟩
  case isFalse invalid =>
    obtain ⟨first, found, rest⟩ := Option.bind_eq_some_iff.mp read
    obtain ⟨second, found', same⟩ := Option.bind_eq_some_iff.mp rest
    obtain ⟨rfl, rfl⟩ := Prod.mk.inj (Option.some.inj same)
    rw [if_neg invalid]
    simp only [gives _ _ _ found, gives _ _ _ found', Bool.true_eq_false, if_false]
    exact ⟨attempt + 2, by rw [List.length_append, gives.length_eq found, gives.length_eq found']⟩

/-- Where no read fails, the loop makes the dump of `copyLog`. -/
theorem rounds_of_copyLog {storage : Storage} {readBytes : (addr n : Nat) → Option (List UInt8)}
    (gives : storage.Gives readBytes) {base64 : Bool} {outputLogSize count maxMsgSize : Nat}
    {handle : Handle} {d d' : Dump} (attempt : Nat)
    (copied : copyLog readBytes base64 outputLogSize count handle maxMsgSize d = some d') :
    ∃ s, Loop.rounds MoreToCopy (copyRound storage base64 outputLogSize) count
      ⟨handle, maxMsgSize, d, attempt⟩ = .finished s ∧ s.dump = d' := by
  induction count generalizing handle maxMsgSize d attempt with
  | zero =>
      cases maxMsgSize with
      | zero => exact ⟨_, Loop.rounds_of_not fun more => more rfl, Option.some.inj copied⟩
      | succ maxMsgSize => cases copied
  | succ count ih =>
      cases maxMsgSize with
      | zero => exact ⟨_, Loop.rounds_of_not fun more => more rfl, Option.some.inj copied⟩
      | succ maxMsgSize =>
          rw [copyLog] at copied
          obtain ⟨⟨handle', bytes⟩, read, rest⟩ := Option.bind_eq_some_iff.mp copied
          obtain ⟨tempBuf, written, rest⟩ := Option.bind_eq_some_iff.mp rest
          obtain ⟨dump, copy, rest⟩ := Option.bind_eq_some_iff.mp rest
          obtain ⟨attempt', tried⟩ := tryRead_of_read gives read attempt
          have next : copyRound storage base64 outputLogSize ⟨handle, maxMsgSize + 1, d, attempt⟩ =
              some ⟨handle', maxMsgSize + 1 - bytes.length, dump, attempt'⟩ := by
            simp only [copyRound, CopyState.msgSize, tried, written, copy, Option.bind_eq_bind,
              Option.bind_some, Option.pure_def]
          have more : MoreToCopy ⟨handle, maxMsgSize + 1, d, attempt⟩ := Nat.succ_ne_zero maxMsgSize
          rw [Loop.rounds_succ more next]
          exact ih attempt' rest

/-- The handle points into its log. -/
structure InLog (handle : Handle) : Prop where
  behindStart : handle.startAddr ≤ handle.curAddr
  beforeEnd : handle.curAddr ≤ handle.startAddr + handle.logSize

section

variable {n : Nat} {handle : Handle}

/-- A read that succeeds is whole, when the log has as many bytes, and one that fails counts for
nothing. -/
theorem tryRead_spec (storage : Storage) (attempt : Nat) (inLog : InLog handle)
    (enough : n ≤ handle.logSize) :
    ∃ r, iotLogFileTryRead storage attempt handle n = r ∧
      (ReadSucceeds storage attempt handle n → r.readSize = n ∧ r.stored.length = n ∧
        InLog r.handle ∧ r.handle.logSize = handle.logSize) ∧
      (¬ ReadSucceeds storage attempt handle n → r.readSize = 0 ∧ r.stored.length ≤ n ∧
        r.handle = handle) := by
  obtain ⟨behind, before⟩ := inLog
  refine ⟨_, rfl, ?_⟩
  by_cases direct : handle.curAddr + n ≤ handle.startAddr + handle.logSize
  · have valid : iotLogFileCheckValidRange handle n = true := if_neg (Nat.not_lt.mpr direct)
    have size := storage.size attempt handle.curAddr n
    simp only [ReadSucceeds, iotLogFileTryRead, if_pos direct, if_pos valid]
    cases (storage.read attempt handle.curAddr n).1 with
    | false => exact ⟨nofun, fun _ => ⟨rfl, Nat.le_of_eq size, rfl⟩⟩
    | true =>
        have inside : InLog { handle with curAddr := handle.curAddr + n } :=
          ⟨Nat.le_trans behind (Nat.le_add_right _ _), direct⟩
        exact ⟨fun _ => ⟨rfl, size, inside, rfl⟩, fun fails => absurd rfl fails⟩
  · have invalid : ¬ iotLogFileCheckValidRange handle n = true := by
      rw [iotLogFileCheckValidRange, if_pos (Nat.not_le.mp direct)]
      exact Bool.false_ne_true
    obtain ⟨room, roomEq⟩ : ∃ room, room = handle.startAddr + handle.logSize - handle.curAddr :=
      ⟨_, rfl⟩
    have toRead : handle.logSize - (handle.curAddr - handle.startAddr) = room := by omega
    have short : ¬ n - room > handle.curAddr - handle.startAddr := by omega
    have firstSize := storage.size attempt handle.curAddr room
    have secondSize := storage.size (attempt + 1) handle.startAddr (n - room)
    have place : handle.startAddr + (n - room) ≤ handle.startAddr + handle.logSize := by omega
    have inside : InLog { handle with curAddr := handle.startAddr + (n - room) } :=
      ⟨Nat.le_add_right _ _, place⟩
    simp only [ReadSucceeds, iotLogFileTryRead, if_neg direct, if_neg invalid, ← roomEq, toRead,
      if_neg short]
    cases (storage.read attempt handle.curAddr room).1 with
    | false => exact ⟨fun succeeds => absurd succeeds.1 Bool.false_ne_true,
        fun _ => ⟨rfl, show _ ≤ n by simp only [if_true]; omega, rfl⟩⟩
    | true =>
        cases (storage.read (attempt + 1) handle.startAddr (n - room)).1 with
        | false =>
            refine ⟨fun succeeds => absurd succeeds.2 Bool.false_ne_true, fun _ => ⟨rfl, ?_, rfl⟩⟩
            simp only [Bool.true_eq_false, if_true, if_false, List.length_append]
            omega
        | true =>
            refine ⟨fun _ => ⟨?_, ?_, inside, rfl⟩, fun fails => absurd ⟨rfl, rfl⟩ fails⟩
            · simp only [Bool.true_eq_false, if_false]
              omega
            · simp only [Bool.true_eq_false, if_false, List.length_append]
              omega

end

/-! ## A round -/

/-- The state before a round: what has been copied, the rest of the output and of the log. -/
structure Copying (base64 : Bool) (outputLogSize : Nat) (data : List UInt8) (s : CopyState) :
    Prop where
  contains : Contains base64 data s.dump
  room : outputSize base64 (data.length + s.maxMsgSize) ≤ outputLogSize
  inLog : InLog s.logfile
  stored : s.maxMsgSize ≤ s.logfile.logSize

theorem Contains.remain_eq {base64 : Bool} {data : List UInt8} {d : Dump}
    (contains : Contains base64 data d) :
    d.remainNumber = if base64 then data.length % 3 else 0 := by
  cases base64 with
  | false => exact contains.2.2
  | true =>
      obtain ⟨-, front, carry, rfl, carries⟩ := contains
      have groups := carries.groups
      have short := carries.short
      rw [carries.remain, if_pos rfl, List.length_append]
      omega

section

variable {storage : Storage} {base64 : Bool} {outputLogSize : Nat} {data : List UInt8}
  {s : CopyState}

theorem CopyState.msgSize_bounds (copying : Copying base64 outputLogSize data s)
    (more : MoreToCopy s) : 0 < s.msgSize ∧ s.msgSize ≤ s.maxMsgSize ∧
      s.dump.remainNumber + s.msgSize ≤ bufferSize ∧
      (s.msgSize = s.maxMsgSize ∨ s.dump.remainNumber + s.msgSize = bufferSize) := by
  have left := copying.contains.remain_lt
  have positive : 0 < s.maxMsgSize := Nat.pos_of_ne_zero more
  have value : s.msgSize = if bufferSize - s.dump.remainNumber > s.maxMsgSize then s.maxMsgSize
    else bufferSize - s.dump.remainNumber := rfl
  rw [value, bufferSize]
  split_ifs <;> omega

/-- A round whose read succeeds copies what was read. All but the last fill up the groups. -/
theorem copyRound_of_succeeds (copying : Copying base64 outputLogSize data s)
    (more : MoreToCopy s) (succeeds : ReadSucceeds storage s.attempt s.logfile s.msgSize) :
    ∃ piece s', copyRound storage base64 outputLogSize s = some s' ∧
      Copying base64 outputLogSize (data ++ piece) s' ∧ s'.maxMsgSize < s.maxMsgSize ∧
      (s'.maxMsgSize = 0 ∨ s'.dump.remainNumber = 0) := by
  obtain ⟨positive, most, fits, whole⟩ := s.msgSize_bounds copying more
  obtain ⟨r, read, spec, -⟩ := tryRead_spec storage s.attempt copying.inLog
    (Nat.le_trans most copying.stored)
  obtain ⟨readSize, length, inLog, logSize⟩ := spec succeeds
  have room := copying.room
  obtain ⟨tempBuf, d', written, copied, contains⟩ := @Contains.append_piece s.dump data
    outputLogSize base64 copying.contains r.stored (List.ne_nil_of_length_pos (by omega)) (by omega)
    (Nat.le_trans (outputSize_mono base64 (by omega)) room)
  rw [length, ← readSize] at copied
  refine ⟨r.stored, ⟨r.handle, s.maxMsgSize - r.readSize, d', r.attempt⟩, ?_, ?_, ?_, ?_⟩
  · simp only [copyRound, read, written, copied, Option.bind_eq_bind, Option.bind_some,
      Option.pure_def]
  · refine ⟨contains, ?_, inLog, ?_⟩
    · rw [List.length_append, length, Nat.add_assoc, readSize, Nat.add_sub_cancel' most]
      exact room
    · rw [logSize]
      exact Nat.le_trans (Nat.sub_le _ _) copying.stored
  · exact Nat.sub_lt (Nat.pos_of_ne_zero more) (by omega)
  · obtain all | full := whole
    · exact .inl (by simp only; omega)
    · refine .inr ?_
      have remain := copying.contains.remain_eq
      rw [contains.remain_eq, List.length_append, length]
      rw [bufferSize] at full
      cases base64 with
      | false => rfl
      | true =>
          simp only [if_true] at remain ⊢
          omega

/-- A round whose read fails leaves the loop when no bytes are left over. -/
theorem copyRound_of_fails (copying : Copying base64 outputLogSize data s) (more : MoreToCopy s)
    (fails : ¬ ReadSucceeds storage s.attempt s.logfile s.msgSize)
    (free : s.dump.remainNumber = 0) : copyRound storage base64 outputLogSize s = none := by
  obtain ⟨positive, most, fits, whole⟩ := s.msgSize_bounds copying more
  obtain ⟨r, read, -, spec⟩ := tryRead_spec storage s.attempt copying.inLog
    (Nat.le_trans most copying.stored)
  obtain ⟨readSize, -, -⟩ := spec fails
  have nothing (d : Dump) : iotDumpCopyMemory base64 outputLogSize .tempBuf 0 d = none := by
    rw [iotDumpCopyMemory, if_pos (.inr rfl)]
  simp only [copyRound, read, readSize, free, Nat.add_zero, nothing, Option.bind_eq_bind,
    Option.bind_none, Option.bind_eq_none_iff]
  exact fun _ _ => trivial

/-- Where bytes are left over, such a round changes nothing that counts. -/
theorem copyRound_of_stuck (copying : Copying base64 outputLogSize data s) (more : MoreToCopy s)
    (fails : ¬ ReadSucceeds storage s.attempt s.logfile s.msgSize)
    (left : s.dump.remainNumber ≠ 0) :
    ∃ s', copyRound storage base64 outputLogSize s = some s' ∧
      Copying base64 outputLogSize data s' ∧ s'.maxMsgSize = s.maxMsgSize ∧
      s'.dump.remainNumber = s.dump.remainNumber := by
  obtain ⟨positive, most, fits, whole⟩ := s.msgSize_bounds copying more
  obtain ⟨r, read, -, spec⟩ := tryRead_spec storage s.attempt copying.inLog
    (Nat.le_trans most copying.stored)
  obtain ⟨readSize, length, handle⟩ := spec fails
  have scratch := copying.contains.1
  have inside : s.dump.remainNumber + r.stored.length ≤ s.dump.tempBuf.length := by omega
  obtain ⟨tempBuf, written⟩ := Buffer.exists_write_iff.mpr inside
  have size := Buffer.length_of_write written
  have start := Buffer.take_of_write written
  cases base64 with
  | false => exact absurd copying.contains.2.2 left
  | true =>
      obtain ⟨-, front, carry, dataEq, carries⟩ := copying.contains
      have remain := carries.remain
      have again : tempBuf.take s.dump.remainNumber = carry := by
        have both := congrArg (List.take s.dump.remainNumber) start
        rw [List.take_take, Nat.min_eq_left (Nat.le_add_right _ _), List.take_left' (by
          rw [List.length_take]; omega), remain, carries.kept, ← remain] at both
        exact both
      have room := copying.room
      rw [outputSize, if_pos rfl, dataEq, List.length_append] at room
      obtain ⟨d', copied, contains⟩ := @contains_of_whole
        { s.dump with tempBuf, remainNumber := 0 } outputLogSize .tempBuf front
        s.dump.remainNumber carries.groups carries.out rfl (size.trans scratch)
        (Nat.pos_of_ne_zero left) (show _ ≤ tempBuf.length by omega)
        (by rw [b64EncodeLen] at room ⊢; omega)
      rw [Src.bytes, again, ← dataEq] at contains
      refine ⟨⟨r.handle, s.maxMsgSize, d', r.attempt⟩, ?_, ⟨contains, copying.room, ?_, ?_⟩, rfl,
        ?_⟩
      · simp only [copyRound, read, readSize, written, Nat.zero_add, copied, Option.bind_eq_bind,
          Option.bind_some, Option.pure_def, Nat.sub_zero]
      · rw [handle]
        exact copying.inLog
      · rw [handle]
        exact copying.stored
      · rw [contains.remain_eq, copying.contains.remain_eq]

end

/-! ## The loop -/

/-- A seek stays in the log. -/
theorem exists_seek (handle : Handle) (back originAddr : Nat) (nonempty : handle.logSize ≠ 0) :
    ∃ offset < handle.logSize, iotLogFileSeek handle back originAddr =
      { handle with curAddr := handle.startAddr + offset } := by
  rw [iotLogFileSeek, if_neg nonempty]
  exact ⟨_, Nat.mod_lt _ (Nat.pos_of_ne_zero nonempty), rfl⟩

theorem maxMsgSize_le (state : DumpState) (logMode : UInt32) (maxLogDumpSize stored : Nat) :
    maxMsgSize state logMode maxLogDumpSize stored ≤ stored := by
  have most (room : Nat) : (if room > stored then stored else room) ≤ stored := by
    split <;> omega
  rw [maxMsgSize, getLargestMultiple]
  exact Nat.le_trans (Nat.div_mul_le_self _ _) (most _)

/-- The loop starts behind the header and the state, which leave over what fills no group. -/
theorem copying_of_copyStart {logfile : Handle} {state : DumpState} {maxLogDumpSize size : Nat}
    {logMode : UInt32} {s : CopyState}
    (start : copyStart logfile logfile.logSize state maxLogDumpSize logMode = some (size, s))
    (more : MoreToCopy s) :
    Copying (needBase64 logMode) size (blocks state logMode) s ∧ s.attempt = 0 := by
  rw [copyStart] at start
  split at start
  case isTrue => cases start
  case isFalse =>
    obtain ⟨dump, copied, rfl, rfl⟩ : ∃ dump, copyBlocks state logMode size = some dump ∧
        size = outputSize (needBase64 logMode)
          (maxMsgSize state logMode maxLogDumpSize logfile.logSize + 16 +
            dumpStateSize state logMode) ∧
        s = ⟨iotLogFileSeek logfile (maxMsgSize state logMode maxLogDumpSize logfile.logSize)
          logfile.tailAddr, maxMsgSize state logMode maxLogDumpSize logfile.logSize, dump, 0⟩ := by
      obtain ⟨dump, copied, same⟩ := Option.bind_eq_some_iff.mp start
      obtain ⟨rfl, rfl⟩ := Prod.mk.inj (Option.some.inj same)
      exact ⟨dump, copied, rfl, rfl⟩
    obtain ⟨n, nEq⟩ : ∃ n, n = maxMsgSize state logMode maxLogDumpSize logfile.logSize := ⟨_, rfl⟩
    have stored : n ≤ logfile.logSize := nEq ▸ maxMsgSize_le _ _ _ _
    rw [← nEq] at copied more ⊢
    have positive : n ≠ 0 := more
    obtain ⟨dump', copied', contains⟩ := @contains_blocks state logMode
      (outputSize (needBase64 logMode) (n + 16 + dumpStateSize state logMode))
      (outputSize_mono _ (by omega))
    obtain rfl := Option.some.inj (copied.symm.trans copied')
    obtain ⟨offset, below, seek⟩ := exists_seek logfile n logfile.tailAddr (by omega)
    rw [seek]
    refine ⟨⟨contains, ?_, ⟨Nat.le_add_right _ _, Nat.add_le_add_left (Nat.le_of_lt below) _⟩,
      stored⟩, rfl⟩
    rw [length_blocks]
    exact outputSize_mono _ (show _ + n ≤ _ by omega)

/-- The loop makes progress in every round, unless there are bytes left over behind the header
and the state and the first read fails. -/
theorem copyEnds_iff (storage : Storage) {logfile : Handle} {state : DumpState}
    {maxLogDumpSize size : Nat} {logMode : UInt32} {s : CopyState}
    (start : copyStart logfile logfile.logSize state maxLogDumpSize logMode = some (size, s)) :
    CopyEnds storage (needBase64 logMode) size s ↔
      s.maxMsgSize = 0 ∨ needBase64 logMode = false ∨
        (16 + dumpStateSize state logMode) % 3 = 0 ∨
        ReadSucceeds storage 0 s.logfile s.msgSize := by
  by_cases done : s.maxMsgSize = 0
  · refine ⟨fun _ => .inl done, fun _ => ?_⟩
    have progress : Loop.Progresses MoreToCopy (copyRound storage (needBase64 logMode) size)
        CopyState.maxMsgSize s := by
      intro n t runs
      have stops : ¬ MoreToCopy s := fun more => more done
      rw [Loop.rounds_of_not stops] at runs
      cases runs
    exact ⟨progress.ends, progress⟩
  · obtain ⟨copying, attempt⟩ := copying_of_copyStart start done
    have remain : s.dump.remainNumber = if needBase64 logMode then
        (16 + dumpStateSize state logMode) % 3 else 0 := by
      rw [copying.contains.remain_eq, length_blocks]
    have left_iff : s.dump.remainNumber = 0 ↔ needBase64 logMode = false ∨
        (16 + dumpStateSize state logMode) % 3 = 0 := by
      rw [remain]
      cases needBase64 logMode <;> simp
    have first : ReadSucceeds storage 0 s.logfile s.msgSize ↔
        ReadSucceeds storage s.attempt s.logfile s.msgSize := by rw [attempt]
    rw [first, ← or_assoc (b := (16 + dumpStateSize state logMode) % 3 = 0), ← left_iff]
    constructor
    · rintro ⟨-, progress⟩
      by_contra stuck
      obtain ⟨-, left, fails⟩ : s.maxMsgSize ≠ 0 ∧ s.dump.remainNumber ≠ 0 ∧
        ¬ ReadSucceeds storage s.attempt s.logfile s.msgSize := by simpa using stuck
      obtain ⟨s', next, -, same, -⟩ := copyRound_of_stuck copying done fails left
      obtain failed | ⟨s'', next', smaller⟩ := progress.first done
      · rw [failed] at next
        cases next
      · obtain rfl := Option.some.inj (next.symm.trans next')
        omega
    · intro runs
      let I : CopyState → Prop := fun s => MoreToCopy s →
        (∃ data, Copying (needBase64 logMode) size data s) ∧
          (s.dump.remainNumber = 0 ∨ ReadSucceeds storage s.attempt s.logfile s.msgSize)
      have progress : Loop.Progresses MoreToCopy (copyRound storage (needBase64 logMode) size)
          CopyState.maxMsgSize s := by
        refine Loop.progresses_of_invariant (I := I) ?_ fun _ =>
          ⟨⟨_, copying⟩, runs.resolve_left done⟩
        intro s here more
        obtain ⟨⟨data, copying⟩, reads⟩ := here more
        by_cases succeeds : ReadSucceeds storage s.attempt s.logfile s.msgSize
        · obtain ⟨piece, s', next, copying', smaller, free⟩ :=
            copyRound_of_succeeds copying more succeeds
          refine .inr ⟨s', next, smaller, fun more' => ⟨⟨_, copying'⟩, .inl ?_⟩⟩
          exact free.resolve_left more'
        · exact .inl (copyRound_of_fails copying more succeeds (reads.resolve_right succeeds))
      exact ⟨progress.ends, progress⟩

/-- A storage whose reads all fail. -/
def brokenStorage : Storage where
  read _ _ n := (false, List.replicate n 0)
  size _ _ _ := List.length_replicate

/-- A full log of 4096 bytes in a flash of 8192, which was written up to its end. -/
def brokenLog : Handle := ⟨24, 4120, 24, 4096, 8168, .flashWithRam⟩

/-- In base64 and without the state, the header leaves one byte over. -/
theorem brokenLog_start :
    ((copyStart brokenLog 4096 blankState 2048 1).map fun start => start.2.maxMsgSize) =
        some 1504 ∧
      ((copyStart brokenLog 4096 blankState 2048 1).map fun start =>
        start.2.dump.remainNumber) = some 1 := by
  decide +kernel

/-- The loop over a storage that is broken does not end. -/
theorem brokenStorage_runs_on : ∃ size s,
    copyStart brokenLog 4096 blankState 2048 1 = some (size, s) ∧
      (∀ n, ∃ t, Loop.rounds MoreToCopy (copyRound brokenStorage (needBase64 1) size) n s =
        .running t) ∧
      ¬ CopyEnds brokenStorage (needBase64 1) size s := by
  obtain ⟨size_s, start, msg⟩ := Option.map_eq_some_iff.mp brokenLog_start.1
  obtain ⟨start', same, left⟩ := Option.map_eq_some_iff.mp brokenLog_start.2
  obtain rfl := Option.some.inj (start.symm.trans same)
  obtain ⟨size, s⟩ := size_s
  have more : MoreToCopy s := by
    intro none
    rw [none] at msg
    cases msg
  have fails (s : CopyState) : ¬ ReadSucceeds brokenStorage s.attempt s.logfile s.msgSize := by
    rw [ReadSucceeds]
    split
    · exact Bool.false_ne_true
    · exact fun both => Bool.false_ne_true both.1
  have endless (n : Nat) : ∃ t, Loop.rounds MoreToCopy
      (copyRound brokenStorage (needBase64 1) size) n s = .running t := by
    refine Loop.running_of_invariant (I := fun s => MoreToCopy s ∧ s.dump.remainNumber ≠ 0 ∧
      ∃ data, Copying (needBase64 1) size data s) ?_ ?_ n
    · rintro s ⟨more, left, data, copying⟩
      obtain ⟨s', next, copying', same, remain⟩ := copyRound_of_stuck copying more (fails s) left
      have more' : MoreToCopy s' := by
        rw [MoreToCopy, same]
        exact more
      exact ⟨more, s', next, more', remain ▸ left, data, copying'⟩
    · refine ⟨more, ?_, _, (copying_of_copyStart start more).1⟩
      rw [left]
      exact Nat.one_ne_zero
  refine ⟨size, s, start, endless, ?_⟩
  rintro ⟨⟨n, stopped⟩, -⟩
  obtain ⟨t, runs⟩ := endless n
  exact stopped t runs

/-- A storage whose reads all succeed. -/
def soundStorage : Storage where
  read _ _ n := (true, List.replicate n 0)
  size _ _ _ := List.length_replicate

theorem copyEnds_iff_sound : ∃ size s,
    copyStart brokenLog 4096 blankState 2048 1 = some (size, s) ∧
      CopyEnds soundStorage (needBase64 1) size s := by
  obtain ⟨⟨size, s⟩, start, -⟩ := Option.map_eq_some_iff.mp brokenLog_start.1
  refine ⟨size, s, start, (copyEnds_iff soundStorage start).mpr (.inr (.inr (.inr ?_)))⟩
  rw [ReadSucceeds]
  split
  · rfl
  · exact ⟨rfl, rfl⟩

end StDevice.DumpLog
