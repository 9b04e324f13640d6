import Mathlib.Data.List.Rotate
import StDevice.DumpLog.Content
import StDevice.LogFile.Manager
import StDevice.LogFile.Ram

/-!
# The log dump as a whole

A dump is to be the header, the state and the last bytes of the log, as many whole lines as
fit. What the code makes of an open log file is stated in full first; the dumps that are as
they should be are those where the handle is put to the place of the last bytes and where
the byte that is repeated at the end is not there or is zero.
-/

namespace StDevice.DumpLog

open LogFile

/-- A log file that has been opened. The next byte would be stored at `tail`. -/
structure OpenLog where
  readBytes : (addr size : Nat) → Option (List UInt8)
  handle : Handle
  cell : Nat → UInt8
  tail : Nat
  readable : Readable readBytes handle.startAddr handle.logSize cell
  tailAddr : handle.tailAddr = handle.startAddr + tail
  inside : tail ≤ handle.logSize
  small : handle.logSize < 1073741824

namespace OpenLog

/-- The bytes of the log, the oldest first. -/
def text (log : OpenLog) : List UInt8 :=
  Ring.window log.cell log.handle.logSize log.tail log.handle.logSize

@[simp] theorem length_text (log : OpenLog) : log.text.length = log.handle.logSize :=
  Ring.window_length _ _ _ _

/-- The dump of this log. -/
def createLogDump (log : OpenLog) (state : DumpState) (maxLogDumpSize : Nat) (logMode : UInt32) :
    Option (List UInt8) :=
  stCreateLogDump log.readBytes log.handle log.handle.logSize state maxLogDumpSize logMode

/-- Where the handle is put to read the last bytes. -/
def seekOffset (log : OpenLog) (n : Nat) : Nat :=
  (log.tail + 4294967296 - n) % 4294967296 % log.handle.logSize

/-- What is read of the log. -/
def readLast (log : OpenLog) (n : Nat) : List UInt8 :=
  Ring.window log.cell log.handle.logSize (log.seekOffset n) n

end OpenLog

/-- What stands before the log in a dump. -/
def blocks (state : DumpState) (logMode : UInt32) : List UInt8 :=
  dumpHeader (dumpStateSize state logMode) ++ if needDumpState logMode then state.bytes else []

theorem length_blocks (state : DumpState) (logMode : UInt32) :
    (blocks state logMode).length = 16 + dumpStateSize state logMode := by
  rw [blocks, dumpStateSize, List.length_append]
  cases needDumpState logMode with
  | true => rfl
  | false => rfl

/-- The largest number of bytes of the log, in whole lines, for which there is room. -/
structure Largest (log : OpenLog) (state : DumpState) (maxLogDumpSize : Nat) (logMode : UInt32)
    (n : Nat) : Prop where
  lines : lineLength ∣ n
  stored : n ≤ log.text.length
  fits : outputSize (needBase64 logMode) ((blocks state logMode).length + n) ≤ maxLogDumpSize
  largest : ∀ m, lineLength ∣ m → m ≤ log.text.length →
    outputSize (needBase64 logMode) ((blocks state logMode).length + m) ≤ maxLogDumpSize → m ≤ n

/-- What a dump is to contain. -/
def wanted (log : OpenLog) (state : DumpState) (logMode : UInt32) (n : Nat) : List UInt8 :=
  blocks state logMode ++ log.text.drop (log.text.length - n)

/-- A dump is made, and it is as it should be. -/
def Faithful (log : OpenLog) (state : DumpState) (maxLogDumpSize : Nat) (logMode : UInt32) :
    Prop :=
  ∃ n out, Largest log state maxLogDumpSize logMode n ∧
    log.createLogDump state maxLogDumpSize logMode = some out ∧
    if needBase64 logMode then
      ∃ zeros ≤ 2, Base64.decode (CString.cstr out) =
        some (wanted log state logMode n ++ List.replicate zeros 0)
    else out = wanted log state logMode n

/-- The log is read from the right place: it has not wrapped within its last bytes, or its size
divides the range of an `unsigned int`, or the same bytes stand at both places. -/
def InPlace (log : OpenLog) (n : Nat) : Prop :=
  n ≤ log.tail ∨ log.text.length ∣ 4294967296 ∨
    (log.text.rotate (4294967296 - n)).take n = log.text.drop (log.text.length - n)

/-- No byte is repeated at the end, or only a zero. -/
def Aligned (logMode : UInt32) (data : List UInt8) : Prop :=
  needBase64 logMode = false ∨ data.length % 3 = 0 ∨ data[data.length / 3 * 3]? = some 0

section Whole

variable {log : OpenLog} {state : DumpState} {maxLogDumpSize : Nat} {logMode : UInt32}

theorem contains_blocks {outputLogSize : Nat}
    (room : outputSize (needBase64 logMode) (16 + dumpStateSize state logMode) ≤ outputLogSize) :
    ∃ d, copyBlocks state logMode outputLogSize = some d ∧
      Contains (needBase64 logMode) (blocks state logMode) d := by
  have start : Contains (needBase64 logMode) []
      { out := [], tempBuf := List.replicate bufferSize 0, remainNumber := 0 } := by
    refine ⟨List.length_replicate, ?_⟩
    cases needBase64 logMode with
    | false => exact ⟨rfl, rfl⟩
    | true => exact ⟨[], [], rfl, rfl, Nat.zero_lt_succ 2, rfl, rfl, rfl⟩
  obtain ⟨d, copied, header⟩ := @Contains.append_block _ _
    (dumpHeader (dumpStateSize state logMode)) outputLogSize _ start (show 3 ≤ 16 by decide)
    (Nat.le_trans (outputSize_mono _ (show 0 + 16 ≤ _ by omega)) room)
  rw [List.nil_append] at header
  simp only [copyBlocks, copied, Option.bind_eq_bind, Option.bind_some, blocks]
  cases wanted : needDumpState logMode with
  | false =>
      refine ⟨d, rfl, ?_⟩
      rw [if_neg Bool.false_ne_true, List.append_nil]
      exact header
  | true =>
      have long : 3 ≤ state.bytes.length := by
        rcases state.size with size | size <;> omega
      rw [dumpStateSize, wanted, if_pos rfl] at room
      exact header.append_block long room

theorem largest_maxMsgSize (log : OpenLog)
    (enough : outputSize (needBase64 logMode) (16 + dumpStateSize state logMode) ≤ maxLogDumpSize) :
    Largest log state maxLogDumpSize logMode
      (maxMsgSize state logMode maxLogDumpSize log.handle.logSize) := by
  obtain ⟨n, eq⟩ : ∃ n, maxMsgSize state logMode maxLogDumpSize log.handle.logSize = n := ⟨_, rfl⟩
  rw [eq]
  rw [maxMsgSize, getLargestMultiple, lineLength] at eq
  cases base64 : needBase64 logMode with
  | false =>
      simp only [base64, outputSize, if_neg Bool.false_ne_true] at enough eq
      refine ⟨?_, ?_, ?_, ?_⟩
      · rw [lineLength]
        omega
      · rw [log.length_text]
        split at eq <;> omega
      · rw [base64, length_blocks, outputSize, if_neg Bool.false_ne_true]
        split at eq <;> omega
      · intro m lines stored fits
        rw [base64, length_blocks, outputSize, if_neg Bool.false_ne_true] at fits
        rw [log.length_text] at stored
        rw [lineLength] at lines
        split at eq <;> omega
  | true =>
      simp only [base64, outputSize, if_pos, b64EncodeLen] at enough eq
      refine ⟨?_, ?_, ?_, ?_⟩
      · rw [lineLength]
        omega
      · rw [log.length_text]
        split at eq <;> omega
      · rw [base64, length_blocks, outputSize, if_pos rfl, b64EncodeLen]
        split at eq <;> omega
      · intro m lines stored fits
        rw [base64, length_blocks, outputSize, if_pos rfl, b64EncodeLen] at fits
        rw [log.length_text] at stored
        rw [lineLength] at lines
        split at eq <;> omega

theorem Largest.unique {m n : Nat} (first : Largest log state maxLogDumpSize logMode m)
    (second : Largest log state maxLogDumpSize logMode n) : m = n :=
  Nat.le_antisymm (second.largest m first.lines first.stored first.fits)
    (first.largest n second.lines second.stored second.fits)

theorem Largest.enough {n : Nat} (largest : Largest log state maxLogDumpSize logMode n) :
    outputSize (needBase64 logMode) (16 + dumpStateSize state logMode) ≤ maxLogDumpSize := by
  have fits := largest.fits
  rw [length_blocks] at fits
  exact Nat.le_trans (outputSize_mono _ (Nat.le_add_right _ _)) fits

/-- The bytes of the log that are read go behind the blocks. -/
theorem contains_log {n outputLogSize : Nat} {d : Dump} (stored : n ≤ log.handle.logSize)
    (contains : Contains (needBase64 logMode) (blocks state logMode) d)
    (room : outputSize (needBase64 logMode) ((blocks state logMode).length + n) ≤ outputLogSize) :
    ∃ d', copyLog log.readBytes (needBase64 logMode) outputLogSize n
        (iotLogFileSeek log.handle n log.handle.tailAddr) n d = some d' ∧
      Contains (needBase64 logMode) (blocks state logMode ++ log.readLast n) d' := by
  by_cases empty : log.handle.logSize = 0
  · obtain rfl : n = 0 := by omega
    refine ⟨d, ?_, ?_⟩
    · rw [copyLog]
    · rw [show log.readLast 0 = [] from rfl, List.append_nil]
      exact contains
  · have seek : iotLogFileSeek log.handle n log.handle.tailAddr =
        { log.handle with curAddr := log.handle.startAddr + log.seekOffset n } := by
      have place : log.handle.tailAddr - log.handle.startAddr = log.tail := by
        rw [log.tailAddr, Nat.add_sub_cancel_left]
      rw [iotLogFileSeek, if_neg empty, place]
      rfl
    have inside : log.seekOffset n ≤ log.handle.logSize :=
      Nat.le_of_lt (Nat.mod_lt _ (Nat.pos_of_ne_zero empty))
    rw [seek]
    exact @Contains.append_log d (blocks state logMode) outputLogSize _ log.readBytes
      { log.handle with curAddr := log.handle.startAddr + log.seekOffset n } log.cell
      (log.seekOffset n) log.readable rfl inside n n (Nat.le_refl n) stored contains room

/-- The dump the code makes. -/
theorem createLogDump_eq {n : Nat} (largest : Largest log state maxLogDumpSize logMode n) :
    log.createLogDump state maxLogDumpSize logMode =
      some (if needBase64 logMode then
        Base64.encode (blocks state logMode ++ log.readLast n ++
          padding (blocks state logMode ++ log.readLast n)) ++ [0]
      else blocks state logMode ++ log.readLast n) := by
  have enough := largest.enough
  obtain rfl := largest.unique (largest_maxMsgSize log enough)
  obtain ⟨n, nEq⟩ : ∃ n, n = maxMsgSize state logMode maxLogDumpSize log.handle.logSize := ⟨_, rfl⟩
  rw [← nEq] at largest ⊢
  have stored := largest.stored
  rw [log.length_text] at stored
  obtain ⟨size, sizeEq⟩ : ∃ size, size =
    outputSize (needBase64 logMode) (n + 16 + dumpStateSize state logMode) := ⟨_, rfl⟩
  have total : (blocks state logMode).length + n = n + 16 + dumpStateSize state logMode := by
    rw [length_blocks]
    omega
  have room : outputSize (needBase64 logMode) ((blocks state logMode).length + n) ≤ size := by
    rw [total, sizeEq]
  have length : (blocks state logMode ++ log.readLast n).length =
      n + 16 + dumpStateSize state logMode := by
    rw [List.length_append, OpenLog.readLast, Ring.window_length, total]
  obtain ⟨d, first, contains⟩ := @contains_blocks state logMode size
    (Nat.le_trans (outputSize_mono _ (by rw [length_blocks]; omega)) room)
  obtain ⟨d', second, contains⟩ := contains_log stored contains room
  rw [OpenLog.createLogDump, stCreateLogDump, if_neg (Nat.not_lt.mpr enough)]
  simp only [← nEq, ← sizeEq, first, second, Option.bind_eq_bind, Option.bind_some]
  cases base64 : needBase64 logMode with
  | false =>
      rw [base64] at contains sizeEq
      rw [padGroup_plain contains, Option.bind_some, contains.2.1, length, sizeEq]
      simp [outputSize]
  | true =>
      rw [base64] at contains sizeEq
      obtain ⟨d'', padded, out⟩ := @padGroup_eq d' _ size contains (by
        rw [length, sizeEq]
        exact Nat.le_refl _)
      have filled : (Base64.encode (blocks state logMode ++ log.readLast n ++
          padding (blocks state logMode ++ log.readLast n))).length + 1 = size := by
        rw [Base64.length_encode, List.length_append, length_padding, length, sizeEq, outputSize,
          if_pos rfl, b64EncodeLen]
        omega
      rw [padded, Option.bind_some, out, ← filled, Nat.add_sub_cancel_left]
      rfl

/-! ## Where the dump is as it should be -/

/-- The bytes behind the data are zeros. -/
theorem padding_eq_zeros_iff (data : List UInt8) :
    (∃ zeros, padding data = List.replicate zeros 0) ↔
      data.length % 3 = 0 ∨ data[data.length / 3 * 3]? = some 0 := by
  obtain ⟨rest, restEq⟩ : ∃ rest, rest = data.drop (data.length / 3 * 3) := ⟨_, rfl⟩
  have length : rest.length = data.length % 3 := by
    rw [restEq, List.length_drop]
    omega
  have first : data[data.length / 3 * 3]? = rest[0]? := by
    rw [restEq, List.getElem?_drop, Nat.add_zero]
  rw [padding, ← restEq, ← length, first]
  have short : rest.length < 3 := by omega
  clear restEq length first
  cases rest with
  | nil => exact ⟨fun _ => .inl rfl, fun _ => ⟨0, rfl⟩⟩
  | cons b rest =>
      constructor
      · rintro ⟨zeros, eq⟩
        have member : b ∈ (b :: rest ++ [0, 0]).take ((3 - (rest.length + 1)) % 3) := by
          simp only [List.length_cons] at short
          obtain ⟨n, eq⟩ : ∃ n, (3 - (rest.length + 1)) % 3 = n + 1 :=
            ⟨(3 - (rest.length + 1)) % 3 - 1, by omega⟩
          rw [eq]
          exact List.mem_cons_self
        rw [List.length_cons] at eq
        rw [eq] at member
        exact .inr (congrArg some (List.eq_of_mem_replicate member))
      · rintro (full | zero)
        · exact absurd full (by simp only [List.length_cons] at short ⊢; omega)
        · obtain rfl : b = 0 := by simpa using zero
          cases rest with
          | nil => exact ⟨2, rfl⟩
          | cons c rest =>
              obtain rfl : rest = [] := by
                simp only [List.length_cons] at short
                exact List.eq_nil_of_length_eq_zero (by omega)
              exact ⟨1, rfl⟩

theorem cstr_encode (data : List UInt8) :
    CString.cstr (Base64.encode data ++ [0]) = Base64.encode data := by
  have none := Base64.encode_ne_zero data
  rw [CString.cstr, List.takeWhile_append_of_pos]
  · simp
  · intro c mem
    exact decide_eq_true fun zero => none (zero ▸ mem)

theorem length_readLast (log : OpenLog) {n : Nat} (stored : n ≤ log.text.length) :
    (log.readLast n).length = (log.text.drop (log.text.length - n)).length := by
  rw [OpenLog.readLast, Ring.window_length, List.length_drop]
  omega

/-- Of the text of a dump the bytes are the wanted ones, and what follows are zeros, if the last
bytes of the log are read and the padding is of zeros. -/
theorem decoded_iff {n : Nat} (stored : n ≤ log.text.length) :
    (∃ zeros ≤ 2, blocks state logMode ++ log.readLast n ++
        padding (blocks state logMode ++ log.readLast n) =
          wanted log state logMode n ++ List.replicate zeros 0) ↔
      log.readLast n = log.text.drop (log.text.length - n) ∧
        ∃ zeros, padding (wanted log state logMode n) = List.replicate zeros 0 := by
  have same : (blocks state logMode ++ log.readLast n).length =
      (wanted log state logMode n).length := by
    rw [wanted, List.length_append, List.length_append, length_readLast log stored]
  constructor
  · rintro ⟨zeros, -, eq⟩
    obtain ⟨data, rest⟩ := List.append_inj eq same
    rw [data] at rest
    exact ⟨List.append_cancel_left data, zeros, rest⟩
  · rintro ⟨last, zeros, eq⟩
    have few : zeros ≤ 2 := by
      have length := congrArg List.length eq
      rw [length_padding, List.length_replicate] at length
      omega
    refine ⟨zeros, few, ?_⟩
    rw [last]
    exact congrArg (wanted log state logMode n ++ ·) eq

/-- A dump is as it should be if the last bytes are read and only zeros are added. -/
theorem faithful_iff_readLast {n : Nat} (largest : Largest log state maxLogDumpSize logMode n) :
    Faithful log state maxLogDumpSize logMode ↔
      log.readLast n = log.text.drop (log.text.length - n) ∧
        Aligned logMode (wanted log state logMode n) := by
  have made := createLogDump_eq largest
  have only : Faithful log state maxLogDumpSize logMode ↔
      if needBase64 logMode then
        ∃ zeros ≤ 2, blocks state logMode ++ log.readLast n ++
          padding (blocks state logMode ++ log.readLast n) =
            wanted log state logMode n ++ List.replicate zeros 0
      else blocks state logMode ++ log.readLast n = wanted log state logMode n := by
    constructor
    · rintro ⟨m, out, other, created, content⟩
      obtain rfl := largest.unique other
      rw [made] at created
      obtain rfl := Option.some.inj created
      cases base64 : needBase64 logMode with
      | false =>
          rw [base64] at content
          exact content
      | true =>
          simp only [base64, if_true, cstr_encode, Base64.decode_encode, Option.some.injEq]
            at content
          exact content
    · intro content
      refine ⟨n, _, largest, made, ?_⟩
      cases base64 : needBase64 logMode with
      | false =>
          rw [base64] at content
          exact content
      | true =>
          simp only [base64, if_true, cstr_encode, Base64.decode_encode, Option.some.injEq]
            at content ⊢
          exact content
  rw [only, Aligned]
  cases base64 : needBase64 logMode with
  | false =>
      rw [if_neg Bool.false_ne_true, wanted, List.append_cancel_left_eq]
      exact ⟨fun last => ⟨last, .inl rfl⟩, fun both => both.1⟩
  | true =>
      rw [if_pos rfl, decoded_iff largest.stored, padding_eq_zeros_iff]
      simp

/-! ## The place of the last bytes -/

theorem forward_eq_mod {size pos i : Nat} (inside : pos ≤ size) (below : i < size) :
    Ring.forward size pos i = (pos + i) % size := by
  rw [Ring.forward]
  by_cases direct : pos + i < size
  · rw [if_pos direct, Nat.mod_eq_of_lt direct]
  · rw [if_neg direct, Nat.mod_eq_sub_mod (by omega), Nat.mod_eq_of_lt (by omega)]

theorem getElem?_text (log : OpenLog) {i : Nat} (below : i < log.handle.logSize) :
    log.text[i]? = some (log.cell ((log.tail + i) % log.handle.logSize)) := by
  simp [OpenLog.text, Ring.window, below, forward_eq_mod log.inside below]

theorem getElem?_readLast (log : OpenLog) {n i : Nat} (stored : n ≤ log.handle.logSize)
    (below : i < n) : (log.readLast n)[i]? =
      some (log.cell ((log.seekOffset n + i) % log.handle.logSize)) := by
  have inside : log.seekOffset n ≤ log.handle.logSize :=
    Nat.le_of_lt (Nat.mod_lt _ (by omega))
  simp [OpenLog.readLast, Ring.window, below, forward_eq_mod inside (show i < _ by omega)]

/-- A log that has not wrapped within its last bytes is read from their place. -/
theorem readLast_of_le {n : Nat} (stored : n ≤ log.handle.logSize) (direct : n ≤ log.tail) :
    log.readLast n = log.text.drop (log.text.length - n) := by
  have inside := log.inside
  have small := log.small
  refine List.ext_getElem? fun i => ?_
  by_cases below : i < n
  · have offset : log.seekOffset n = log.tail - n := by
      rw [OpenLog.seekOffset, show log.tail + 4294967296 - n = log.tail - n + 4294967296 by omega,
        Nat.add_mod_right, Nat.mod_eq_of_lt (show log.tail - n < 4294967296 by omega),
        Nat.mod_eq_of_lt (by omega)]
    have index : (log.tail + (log.handle.logSize - n + i)) % log.handle.logSize =
        (log.tail - n + i) % log.handle.logSize := by
      rw [show log.tail + (log.handle.logSize - n + i) = log.tail - n + i + log.handle.logSize by
        omega, Nat.add_mod_right]
    rw [getElem?_readLast log stored below, List.getElem?_drop, log.length_text,
      getElem?_text log (by omega), offset, index]
  · rw [List.getElem?_eq_none, List.getElem?_eq_none]
    · rw [List.length_drop, log.length_text]
      omega
    · rw [OpenLog.readLast, Ring.window_length]
      omega

/-- A log that has wrapped is read from a place that the range of the sum has moved. -/
theorem readLast_of_lt {n : Nat} (stored : n ≤ log.handle.logSize) (wrapped : log.tail < n) :
    log.readLast n = (log.text.rotate (4294967296 - n)).take n := by
  have small := log.small
  have offset : log.seekOffset n = (log.tail + (4294967296 - n)) % log.handle.logSize := by
    rw [OpenLog.seekOffset, Nat.mod_eq_of_lt (show log.tail + 4294967296 - n < 4294967296 by omega)]
    congr 1
    omega
  refine List.ext_getElem? fun i => ?_
  by_cases below : i < n
  · have positive : 0 < log.handle.logSize := by omega
    rw [getElem?_readLast log stored below, List.getElem?_take_of_lt below,
      List.getElem?_rotate (by rw [log.length_text]; omega), log.length_text,
      getElem?_text log (Nat.mod_lt _ positive), offset, Nat.mod_add_mod, Nat.add_mod_mod]
    congr 3
    omega
  · rw [List.getElem?_eq_none, List.getElem?_eq_none]
    · rw [List.length_take]
      omega
    · rw [OpenLog.readLast, Ring.window_length]
      omega

private theorem rotate_of_dvd {bytes : List UInt8} {n : Nat} (divides : bytes.length ∣ 4294967296)
    (stored : n ≤ bytes.length) :
    (bytes.rotate (4294967296 - n)).take n = bytes.drop (bytes.length - n) := by
  obtain ⟨count, eq⟩ := divides
  obtain ⟨rounds, rfl⟩ : ∃ rounds, count = rounds + 1 := by
    cases count with
    | zero => exact absurd eq (by simp)
    | succ rounds => exact ⟨rounds, rfl⟩
  rw [Nat.mul_succ] at eq
  rw [show 4294967296 - n = bytes.length - n + bytes.length * rounds by omega, ← List.rotate_mod,
    Nat.add_mul_mod_self_left, List.rotate_mod, List.rotate_eq_drop_append_take (by omega),
    List.take_append_of_le_length (by rw [List.length_drop]; omega),
    List.take_of_length_le (by rw [List.length_drop]; omega)]

theorem readLast_iff_inPlace {n : Nat} (stored : n ≤ log.text.length) :
    log.readLast n = log.text.drop (log.text.length - n) ↔ InPlace log n := by
  have inside : n ≤ log.handle.logSize := log.length_text ▸ stored
  by_cases direct : n ≤ log.tail
  · exact ⟨fun _ => .inl direct, fun _ => readLast_of_le inside direct⟩
  · rw [readLast_of_lt inside (Nat.not_le.mp direct)]
    constructor
    · exact fun same => .inr (.inr same)
    · rintro (impossible | divides | same)
      · exact absurd impossible direct
      · exact rotate_of_dvd divides stored
      · exact same

/-- The dumps that are as they should be, for every log, mode and maximum for which there is
room for header and state. -/
theorem faithful_iff {n : Nat} (largest : Largest log state maxLogDumpSize logMode n) :
    Faithful log state maxLogDumpSize logMode ↔
      InPlace log n ∧ Aligned logMode (wanted log state logMode n) := by
  rw [faithful_iff_readLast largest, readLast_iff_inPlace largest.stored]

end Whole

/-! ## The log files of the two builds -/

section Builds

variable {history : List UInt8}

/-- The file that is opened in the build with `RAM_ONLY`. -/
def OpenLog.ofRamOnly {size : Nat} (ctx : Ctx size) (stored : Stored ctx.logBuf history)
    (small : size < 1073741824) : OpenLog where
  readBytes := iotLogReadBytes (fun _ _ => none) (iotLogFileEnable false ctx) .ramOnly
  handle := ⟨0, ctx.logBuf.cnt, if ctx.logBuf.overridden then ctx.logBuf.cnt else 0,
    min history.length size, size, .ramOnly⟩
  cell := ctx.logBuf.cell
  tail := ctx.logBuf.cnt
  readable := readable_ramOnly (iotLogFileEnable false ctx) _ (Nat.min_le_right _ _)
  tailAddr := (Nat.zero_add _).symm
  inside := stored.holds.pos_le
  small := Nat.lt_of_le_of_lt (Nat.min_le_right _ _) small

theorem OpenLog.ofRamOnly_open {size : Nat} {ctx : Ctx size} (stored : Stored ctx.logBuf history)
    (small : size < 1073741824) :
    iotLogFileOpenRamOnly true ctx =
        some ((ofRamOnly ctx stored small).handle, (ofRamOnly ctx stored small).handle.logSize,
          iotLogFileEnable false ctx) ∧
      (ofRamOnly ctx stored small).text =
        history.drop (history.length - min history.length size) := by
  refine ⟨?_, stored.holds.window_all⟩
  have handle : (ofRamOnly ctx stored small).handle =
      ⟨0, ctx.logBuf.cnt, if ctx.logBuf.overridden then ctx.logBuf.cnt else 0,
        min history.length size, size, .ramOnly⟩ := rfl
  rw [iotLogFileOpenRamOnly, if_pos rfl, handle, ← stored.filesize]
  rfl

variable {F : Type} {cfg : FlashConfig} {drv : FlashDriver F} {cell : F → Nat → UInt8}
  {mem : Nat → UInt8} {header : Header} {pos : Nat}

/-- The file that is opened in the build with `FLASH_WITH_RAM`. -/
def OpenLog.ofFlash (logged : Logged cfg mem history header pos) (lawful : drv.Lawful cfg cell)
    {flash : F} (same : cell flash = mem) (small : cfg.flashSize < 1073741824) : OpenLog where
  readBytes := drv.readFlash flash
  handle := Logged.handle cfg history pos
  cell := fun p => mem (cfg.flashAddr + headerSize + p)
  tail := pos
  readable := readable_flash lawful same (Nat.min_le_right _ _)
  tailAddr := rfl
  inside := logged.ring.pos_le
  small := by
    have size := cfg.maxLogSize_eq
    exact Nat.lt_of_le_of_lt (Nat.min_le_right _ _) (by omega)

theorem OpenLog.ofFlash_open (logged : Logged cfg mem history header pos)
    (lawful : drv.Lawful cfg cell) {flash : F} (same : cell flash = mem)
    (small : cfg.flashSize < 1073741824) (ctx : Ctx cfg.ramBufSize) :
    iotLogFileOpenFlashWithRam cfg drv true flash ctx =
        (some ((ofFlash logged lawful same small).handle,
          (ofFlash logged lawful same small).handle.logSize), iotLogFileOpenState true ctx) ∧
      (ofFlash logged lawful same small).text =
        history.drop (history.length - min history.length cfg.maxLogSize) :=
  ⟨logged.open_eq lawful same ctx, logged.ring.window_all⟩

end Builds

/-! ## Dumps of small logs -/

/-- The log of a RAM buffer of 48 bytes into which these bytes were stored. -/
def smallLog (bytes : List UInt8) : OpenLog :=
  .ofRamOnly
    { iotLogFileInit 48 with
      logBuf := bytes.foldl iotLogFileStoreChar (iotLogFileInit 48).logBuf }
    ((stored_init 48).storeChars (by decide) bytes) (by decide)

/-- The state of a device that has nothing to say. -/
def blankState : DumpState := ⟨List.replicate 164 0, .inl rfl⟩

/-- Two lines behind the header fill sixteen groups of base64. -/
theorem faithful_iff_twoLines :
    Largest (smallLog (List.replicate 32 65)) blankState 65 1 32 ∧
      Faithful (smallLog (List.replicate 32 65)) blankState 65 1 := by
  have largest : Largest (smallLog (List.replicate 32 65)) blankState 65 1 32 :=
    largest_maxMsgSize (smallLog (List.replicate 32 65)) (by decide)
  exact ⟨largest, (faithful_iff largest).mpr ⟨.inl (by decide +kernel), .inr (.inl (by decide))⟩⟩

/-- One line behind the header leaves two bytes, and the first of them is encoded once more
where a zero should be. -/
theorem not_faithful_oneLine :
    ¬ Faithful (smallLog (List.replicate 16 65)) blankState 65 1 := by
  have largest : Largest (smallLog (List.replicate 16 65)) blankState 65 1 16 :=
    largest_maxMsgSize (smallLog (List.replicate 16 65)) (by decide)
  rw [faithful_iff_readLast largest]
  rintro ⟨-, aligned⟩
  exact absurd aligned (by unfold Aligned; decide +kernel)

/-- A ring of 48 bytes that has wrapped is read from a place 16 bytes too far. -/
theorem not_faithful_wrapped :
    ¬ Faithful (smallLog ((List.range 56).map UInt8.ofNat)) blankState 48 0 := by
  have largest : Largest (smallLog ((List.range 56).map UInt8.ofNat)) blankState 48 0 32 :=
    largest_maxMsgSize (smallLog ((List.range 56).map UInt8.ofNat)) (by decide)
  rw [faithful_iff_readLast largest]
  rintro ⟨last, -⟩
  exact absurd last (by decide +kernel)

end StDevice.DumpLog
