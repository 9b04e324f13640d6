import Mathlib.Algebra.Ring.Nat
import StDevice.Foundation.Buffer
import StDevice.Foundation.Ring

/-!
# The log buffer and the log file handle

Log text is stored in a buffer in RAM. In the build with `RAM_ONLY` this buffer is the log;
in the build with `FLASH_WITH_RAM` a task moves its contents to flash. A log file handle
reads either of the two through the same functions.

The context exists (`log_ctx` is set by `iot_log_file_init` before anything is logged) and
its event group is one bit, the request to write the buffer to flash. Sizes and addresses
are natural numbers: all sums below stay inside the log area, and the handle never points
behind its end, so no subtraction of the source goes below zero.
-/

namespace StDevice.LogFile

/-- `iot_log_file_type_t`. A build supports one of the two. -/
inductive FileType where
  | ramOnly | flashWithRam
  deriving DecidableEq, Repr

/-- `IOT_LOG_FILE_MAX_STRING_SIZE`. -/
def maxStringSize : Nat := 128

/-- `IOT_LOG_FILE_MARGIN_CNT`. -/
def marginCnt : Nat := 1

/-- `struct iot_log_file_buf_tag`, for a buffer of `size` bytes. -/
structure LogBuf (size : Nat) where
  enable : Bool
  cnt : Nat
  buf : Vector UInt8 size
  overridden : Bool
  deriving DecidableEq, Repr

/-- The part of `struct iot_log_file_ctx` that is shared with the log task, with the bit of
its event group. -/
structure Ctx (size : Nat) where
  logBuf : LogBuf size
  syncReq : Bool
  fileOpened : Bool
  deriving DecidableEq, Repr

section Storing

variable {size : Nat}

/-- `_iot_log_file_buf_free_size`. -/
def iotLogFileBufFreeSize (ctx : Ctx size) : Nat := size - ctx.logBuf.cnt

/-- `_iot_log_file_store_char`: a full buffer starts again at its first byte. -/
def iotLogFileStoreChar (b : LogBuf size) (character : UInt8) : LogBuf size :=
  let b := if b.cnt ≥ size then { b with cnt := 0, overridden := true } else b
  { b with buf := b.buf.setIfInBounds b.cnt character, cnt := b.cnt + 1 }

/-- `_iot_log_file_enable`. -/
def iotLogFileEnable (enable : Bool) (ctx : Ctx size) : Ctx size :=
  { ctx with logBuf := { ctx.logBuf with enable := enable } }

/-- `_iot_log_file_open_state`. -/
def iotLogFileOpenState (openState : Bool) (ctx : Ctx size) : Ctx size :=
  { ctx with fileOpened := openState }

/-- `iot_log_file_sync`. -/
def iotLogFileSync (ctx : Ctx size) : Ctx size :=
  { iotLogFileEnable false ctx with syncReq := true }

/-- `iot_log_file_store`: the value returned and the context after it. -/
def iotLogFileStore (type : FileType) (ctx : Ctx size) (logData : List UInt8) : Int × Ctx size :=
  if ctx.logBuf.enable = false then (-1, ctx)
  else if logData.length ≥ maxStringSize then (-1, ctx)
  else
    let ctx := { ctx with logBuf := logData.foldl iotLogFileStoreChar ctx.logBuf }
    match type with
    | .ramOnly => (logData.length, ctx)
    | .flashWithRam =>
        if iotLogFileBufFreeSize ctx < maxStringSize * marginCnt then
          (logData.length, iotLogFileSync ctx)
        else (logData.length, ctx)

/-- `_iot_log_file_clear_buf`. -/
def iotLogFileClearBuf (ctx : Ctx size) : Ctx size :=
  let ctx := { ctx with logBuf := { ctx.logBuf with cnt := 0, overridden := false } }
  if ctx.fileOpened = false then iotLogFileEnable true ctx else ctx

/-- `iot_log_file_close` of a handle of this type. -/
def iotLogFileClose (type : FileType) (ctx : Ctx size) : Ctx size :=
  match type with
  | .flashWithRam => iotLogFileOpenState false ctx
  | .ramOnly => iotLogFileEnable true ctx

/-- The context after `iot_log_file_init`. -/
def iotLogFileInit (size : Nat) : Ctx size :=
  { logBuf := ⟨true, 0, Vector.replicate size 0, false⟩, syncReq := false, fileOpened := false }

/-- The cells of the buffer. -/
def LogBuf.cell (b : LogBuf size) (i : Nat) : UInt8 := b.buf[i]?.getD 0

/-- The bytes below `cnt`. -/
def LogBuf.pending (b : LogBuf size) : List UInt8 := b.buf.toList.take b.cnt

end Storing

/-- `iot_log_file_handle_t`. -/
structure Handle where
  startAddr : Nat
  tailAddr : Nat
  curAddr : Nat
  logSize : Nat
  maxLogSize : Nat
  fileType : FileType
  deriving DecidableEq, Repr

/-- `_iot_log_file_check_valid_range`. -/
def iotLogFileCheckValidRange (handle : Handle) (readSize : Nat) : Bool :=
  if handle.curAddr + readSize > handle.startAddr + handle.logSize then false else true

/-- `_iot_log_read_bytes` from the address `addr` on, for a handle of the type that the build
supports. `readFlash` is `iot_log_read_flash`, which the port provides. -/
def iotLogReadBytes {size : Nat} (readFlash : (addr size : Nat) → Option (List UInt8))
    (ctx : Ctx size) (type : FileType) (addr n : Nat) : Option (List UInt8) :=
  match type with
  | .ramOnly => Buffer.read ctx.logBuf.buf.toList addr n
  | .flashWithRam => readFlash addr n

/-- `iot_log_file_read`: the handle after it and the bytes it has stored in the buffer of
the caller. `readBytes` is `_iot_log_read_bytes` with the address of the handle as an
argument; when it fails, nothing counts as read and the handle is as before. -/
def iotLogFileRead (readBytes : (addr size : Nat) → Option (List UInt8)) (handle : Handle)
    (bufSize : Nat) : Option (Handle × List UInt8) :=
  if iotLogFileCheckValidRange handle bufSize then do
    let bytes ← readBytes handle.curAddr bufSize
    pure ({ handle with curAddr := handle.curAddr + bufSize }, bytes)
  else do
    let offsetSize := handle.curAddr - handle.startAddr
    let sizeToRead := handle.logSize - offsetSize
    let first ← readBytes handle.curAddr sizeToRead
    let remainSize := bufSize - sizeToRead
    let maxRemainSize := offsetSize
    let remainSize := if remainSize > maxRemainSize then maxRemainSize else remainSize
    let second ← readBytes handle.startAddr remainSize
    pure ({ handle with curAddr := handle.startAddr + remainSize }, first ++ second)

/-- `iot_log_file_seek` to `back` bytes before the origin. The sum is an `unsigned int`, so
the new offset is never negative. -/
def iotLogFileSeek (handle : Handle) (back originAddr : Nat) : Handle :=
  if handle.logSize = 0 then handle
  else
    let newOffset :=
      (originAddr - handle.startAddr + 4294967296 - back) % 4294967296 % handle.logSize
    { handle with curAddr := handle.startAddr + newOffset }

/-- Reads one after another, with what each of them returns. -/
def readAll (readBytes : (addr size : Nat) → Option (List UInt8)) :
    Handle → List Nat → Option (Handle × List (List UInt8))
  | handle, [] => some (handle, [])
  | handle, bufSize :: sizes => do
      let (handle, bytes) ← iotLogFileRead readBytes handle bufSize
      let (handle, pieces) ← readAll readBytes handle sizes
      pure (handle, bytes :: pieces)

/-! ## What a sequence of reads returns -/

/-- The log area of the handle can be read, and these are its bytes. -/
def Readable (readBytes : (addr size : Nat) → Option (List UInt8)) (start logSize : Nat)
    (cell : Nat → UInt8) : Prop :=
  ∀ offset n, offset + n ≤ logSize →
    readBytes (start + offset) n = some ((List.range n).map fun i => cell (offset + i))

section Reading

variable {readBytes : (addr size : Nat) → Option (List UInt8)} {handle : Handle}
  {cell : Nat → UInt8} {offset : Nat}

private theorem window_direct {logSize n : Nat} (inside : offset + n ≤ logSize) :
    Ring.window cell logSize offset n = (List.range n).map fun i => cell (offset + i) := by
  apply List.map_congr_left
  intro i member
  have below := List.mem_range.mp member
  rw [Ring.forward, if_pos (by omega)]

private theorem window_wrapped {logSize n : Nat} :
    Ring.window cell logSize logSize n = (List.range n).map fun i => cell (0 + i) := by
  apply List.map_congr_left
  intro i _
  rw [Ring.forward, if_neg (by omega), Nat.add_sub_cancel_left, Nat.zero_add]

/-- One read returns the next bytes of the ring, across its end if necessary. -/
theorem read_eq_window
    (readable : Readable readBytes handle.startAddr handle.logSize cell)
    (here : handle.curAddr = handle.startAddr + offset) (inside : offset ≤ handle.logSize)
    {n : Nat} (fits : n ≤ handle.logSize) :
    iotLogFileRead readBytes handle n =
      some ({ handle with
          curAddr := handle.startAddr + Ring.advance handle.logSize offset n },
        Ring.window cell handle.logSize offset n) := by
  by_cases direct : offset + n ≤ handle.logSize
  · have valid : iotLogFileCheckValidRange handle n = true := by
      rw [iotLogFileCheckValidRange, here, if_neg (by omega)]
    rw [iotLogFileRead, if_pos valid, here, readable offset n direct, Ring.advance,
      if_pos direct, window_direct direct]
    simp only [Option.bind_eq_bind, Option.bind_some, Option.pure_def, Nat.add_assoc]
  · have invalid : ¬ iotLogFileCheckValidRange handle n = true := by
      rw [iotLogFileCheckValidRange, here, if_pos (by omega)]
      exact Bool.false_ne_true
    -- The bytes up to the end of the area, and those from its start on.
    obtain ⟨first, firstEq⟩ : ∃ first, first = handle.logSize - offset := ⟨_, rfl⟩
    obtain ⟨second, rfl⟩ : ∃ second, n = first + second := ⟨n - first, by omega⟩
    have last : Ring.advance handle.logSize offset first = handle.logSize := by
      rw [Ring.advance, if_pos (by omega)]
      omega
    have parts : Ring.window cell handle.logSize offset (first + second) = _ :=
      Ring.window_add inside fits
    rw [last, window_wrapped, window_direct (n := first) (by omega)] at parts
    have start := readable 0 second (by omega)
    rw [Nat.add_zero] at start
    have behind : offset + (first + second) - handle.logSize = second := by omega
    rw [iotLogFileRead, if_neg invalid, here, parts, Ring.advance, if_neg direct, behind]
    simp only [Nat.add_sub_cancel_left, ← firstEq]
    rw [readable offset first (by omega), if_neg (by omega), start]
    simp only [Option.bind_eq_bind, Option.bind_some, Option.pure_def]

/-- Reads of any sizes return consecutive pieces of the ring. -/
theorem readAll_eq_window {sizes : List Nat}
    (readable : Readable readBytes handle.startAddr handle.logSize cell)
    (here : handle.curAddr = handle.startAddr + offset) (inside : offset ≤ handle.logSize)
    (total : sizes.sum ≤ handle.logSize) :
    ∃ handle' pieces, readAll readBytes handle sizes = some (handle', pieces) ∧
      pieces.map List.length = sizes ∧
      pieces.flatten = Ring.window cell handle.logSize offset sizes.sum := by
  induction sizes generalizing handle offset with
  | nil => exact ⟨handle, [], rfl, rfl, rfl⟩
  | cons n sizes ih =>
      rw [List.sum_cons] at total
      have read := read_eq_window readable here inside (show n ≤ handle.logSize by omega)
      have place : Ring.advance handle.logSize offset n ≤ handle.logSize := by
        unfold Ring.advance
        split_ifs <;> omega
      obtain ⟨handle', pieces, rest, lengths, joined⟩ :=
        @ih { handle with
          curAddr := handle.startAddr + Ring.advance handle.logSize offset n } _
          readable rfl place (by dsimp only; omega)
      refine ⟨handle', Ring.window cell handle.logSize offset n :: pieces, ?_, ?_, ?_⟩
      · rw [readAll, read]
        simp only [Option.bind_eq_bind, Option.bind_some, rest, Option.pure_def]
      · rw [List.map_cons, lengths, Ring.window_length]
      · rw [List.flatten_cons, joined, List.sum_cons, Ring.window_add inside total]

end Reading

end StDevice.LogFile
