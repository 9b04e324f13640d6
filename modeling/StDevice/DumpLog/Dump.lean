import StDevice.Foundation.Base64
import StDevice.LogFile.File

/-!
# The log dump

`st_create_log_dump` puts a header, the state of the device and the end of the log into one
buffer, as they are or in base64. The pieces go through `_iot_dump_copy_memory`, which
leaves up to two bytes that fill no group in a scratch buffer of its caller. The log is
read into the same scratch buffer behind these bytes.

The log file is open and allocations succeed. The sizes are natural numbers: they fit an
`int` as long as the log does. A copy between overlapping parts of the scratch buffer takes
all its bytes before it stores the first. Of the output the bytes below `curr_size` are
kept; behind them stand zeros.
-/

namespace StDevice.DumpLog

open LogFile

/-- `IOT_DUMP_BUFFER_SIZE`. -/
def bufferSize : Nat := 48

/-- `IOT_DUMP_LOG_MSG_LINE_LENGTH`. -/
def lineLength : Nat := 16

/-- `IOT_DUMP_MAGIC_NUMBER`. -/
def magicNumber : Nat := 0x57D1C109

/-- `IOT_DUMP_LOG_VERSION`. -/
def logVersion : Nat := 0

/-- The bytes of an `int`. -/
def intBytes (n : Nat) : List UInt8 :=
  [UInt8.ofNat n, UInt8.ofNat (n / 256), UInt8.ofNat (n / 65536), UInt8.ofNat (n / 16777216)]

/-- The bytes of a `struct iot_dump_state`, whose last field is a `long`. -/
structure DumpState where
  bytes : List UInt8
  size : bytes.length = 164 ∨ bytes.length = 168

/-- `struct iot_dump_header` with the value of `dump_state_size`. -/
def dumpHeader (dumpStateSize : Nat) : List UInt8 :=
  intBytes magicNumber ++ intBytes logVersion ++ intBytes dumpStateSize ++ intBytes 0

/-- `log_mode & IOT_DUMP_MODE_NEED_BASE64`. -/
def needBase64 (logMode : UInt32) : Bool := logMode &&& 1 != 0

/-- `log_mode & IOT_DUMP_MODE_NEED_DUMP_STATE`. -/
def needDumpState (logMode : UInt32) : Bool := logMode &&& 2 != 0

/-- `IOT_SECURITY_B64_ENCODE_LEN`. -/
def b64EncodeLen (n : Nat) : Nat := (n + 2) / 3 * 4 + 1

/-- `GET_LARGEST_MULTIPLE`. -/
def getLargestMultiple (x n : Nat) : Nat := x / n * n

/-- `iot_security_base64_encode` into `dstLen` bytes. -/
def iotSecurityBase64Encode (src : List UInt8) (dstLen : Nat) : Option (List UInt8) :=
  if src = [] ∨ dstLen = 0 then none
  else if dstLen < (src.length / 3 + if src.length % 3 ≠ 0 then 1 else 0) * 4 + 1 then none
  else some (Base64.encode src)

/-- Where `_iot_dump_copy_memory` copies from: memory of its own, or the scratch buffer. -/
inductive Src where
  | block (bytes : List UInt8)
  | tempBuf

def Src.bytes (tempBuf : List UInt8) : Src → List UInt8
  | .block bytes => bytes
  | .tempBuf => tempBuf

/-- The output so far, the scratch buffer and the number of bytes left in it. -/
structure Dump where
  out : List UInt8
  tempBuf : List UInt8
  remainNumber : Nat

/-- Step 1 of `_iot_dump_copy_memory`: the bytes left are filled up to a group. The result is
the text, the number of bytes taken and the scratch buffer. -/
def fillGroup (d : Dump) (destSize : Nat) (src : Src) :
    Option (List UInt8 × Nat × List UInt8) :=
  if d.remainNumber > 0 then do
    let preCopyLen := 3 - d.remainNumber
    let bytes ← Buffer.read (src.bytes d.tempBuf) 0 preCopyLen
    let buf ← Buffer.write d.tempBuf d.remainNumber bytes
    let group ← Buffer.read buf 0 3
    let text ← iotSecurityBase64Encode group destSize
    let buf ← Buffer.write buf 0 [0, 0, 0]
    pure (text, preCopyLen, buf)
  else pure ([], 0, d.tempBuf)

/-- Step 2: whole groups are converted. -/
def encodeGroups (bytes : List UInt8) (offset mainCopyLen destSize : Nat) :
    Option (List UInt8) :=
  if mainCopyLen > 0 then do
    let bytes ← Buffer.read bytes offset mainCopyLen
    iotSecurityBase64Encode bytes destSize
  else pure []

/-- Steps 2 and 3 for the `count` bytes of the source from `preCopyLen` on: what fills no
group is kept. -/
def convertGroups (buf : List UInt8) (destSize : Nat) (src : Src) (preCopyLen count : Nat) :
    Option (List UInt8 × List UInt8 × Nat) := do
  let remainNumber := count % 3
  let mainCopyLen := getLargestMultiple count 3
  let text ← encodeGroups (src.bytes buf) preCopyLen mainCopyLen destSize
  let rest ← Buffer.read (src.bytes buf) (preCopyLen + mainCopyLen) remainNumber
  let buf ← Buffer.write buf 0 rest
  pure (text, buf, remainNumber)

/-- `_iot_dump_copy_memory` to the end of the output. -/
def iotDumpCopyMemory (base64 : Bool) (outputLogSize : Nat) (src : Src) (srcSize : Nat)
    (d : Dump) : Option Dump :=
  let destSize := outputLogSize - d.out.length
  if destSize = 0 ∨ srcSize = 0 then none
  else
    let srcSize := if srcSize > destSize then destSize else srcSize
    if base64 then do
      let (pre, preCopyLen, buf) ← fillGroup d destSize src
      let (main, buf, remainNumber) ←
        convertGroups buf (destSize - pre.length) src preCopyLen (srcSize - preCopyLen)
      pure { out := d.out ++ (pre ++ main), tempBuf := buf, remainNumber }
    else do
      let bytes ← Buffer.read (src.bytes d.tempBuf) 0 srcSize
      pure { d with out := d.out ++ bytes }

/-- The loop over the log. A read that returned nothing would be repeated for ever, so the
loop ends after as many rounds as there are bytes. -/
def copyLog (readBytes : (addr size : Nat) → Option (List UInt8)) (base64 : Bool)
    (outputLogSize : Nat) : (rounds : Nat) → Handle → (maxMsgSize : Nat) → Dump → Option Dump
  | _, _, 0, d => some d
  | 0, _, _ + 1, _ => none
  | rounds + 1, handle, maxMsgSize + 1, d => do
      let msgSize := bufferSize - d.remainNumber
      let msgSize := if msgSize > maxMsgSize + 1 then maxMsgSize + 1 else msgSize
      let (handle, bytes) ← iotLogFileRead readBytes handle msgSize
      let tempBuf ← Buffer.write d.tempBuf d.remainNumber bytes
      let d ← iotDumpCopyMemory base64 outputLogSize .tempBuf (bytes.length + d.remainNumber)
        { d with tempBuf, remainNumber := 0 }
      copyLog readBytes base64 outputLogSize rounds handle (maxMsgSize + 1 - bytes.length) d

/-- The last group: the bytes left and zeros behind them. -/
def padGroup (base64 : Bool) (outputLogSize : Nat) (d : Dump) : Option Dump :=
  if d.remainNumber ≠ 0 then do
    let tempBuf ← Buffer.write d.tempBuf d.remainNumber (List.replicate (3 - d.remainNumber) 0)
    iotDumpCopyMemory base64 outputLogSize .tempBuf (3 - d.remainNumber) { d with tempBuf }
  else some d

/-- The size of the state in the dump. -/
def dumpStateSize (state : DumpState) (logMode : UInt32) : Nat :=
  if needDumpState logMode then state.bytes.length else 0

/-- The size of the output for a number of bytes. -/
def outputSize (base64 : Bool) (n : Nat) : Nat := if base64 then b64EncodeLen n else n

/-- How much of the log goes into the dump. -/
def maxMsgSize (state : DumpState) (logMode : UInt32) (maxLogDumpSize storedLogSize : Nat) : Nat :=
  let room :=
    if needBase64 logMode then
      (maxLogDumpSize - 1) / 4 * 3 - 16 - dumpStateSize state logMode
    else maxLogDumpSize - 16 - dumpStateSize state logMode
  getLargestMultiple (if room > storedLogSize then storedLogSize else room) lineLength

/-- The header and, if it is wanted, the state. -/
def copyBlocks (state : DumpState) (logMode : UInt32) (outputLogSize : Nat) : Option Dump := do
  let base64 := needBase64 logMode
  let d := { out := [], tempBuf := List.replicate bufferSize 0, remainNumber := 0 }
  let header := dumpHeader (dumpStateSize state logMode)
  let d ← iotDumpCopyMemory base64 outputLogSize (.block header) header.length d
  if needDumpState logMode then
    iotDumpCopyMemory base64 outputLogSize (.block state.bytes) state.bytes.length d
  else pure d

/-- `st_create_log_dump` for a log file that is open: the output of `allocated_size` bytes,
or an error. -/
def stCreateLogDump (readBytes : (addr size : Nat) → Option (List UInt8)) (logfile : Handle)
    (storedLogSize : Nat) (state : DumpState) (maxLogDumpSize : Nat) (logMode : UInt32) :
    Option (List UInt8) :=
  let base64 := needBase64 logMode
  let stateSize := dumpStateSize state logMode
  if maxLogDumpSize < outputSize base64 (16 + stateSize) then none
  else do
    let maxMsgSize := maxMsgSize state logMode maxLogDumpSize storedLogSize
    let outputLogSize := outputSize base64 (maxMsgSize + 16 + stateSize)
    let d ← copyBlocks state logMode outputLogSize
    let logfile := iotLogFileSeek logfile maxMsgSize logfile.tailAddr
    let d ← copyLog readBytes base64 outputLogSize maxMsgSize logfile maxMsgSize d
    let d ← padGroup base64 outputLogSize d
    pure (d.out ++ List.replicate (outputLogSize - d.out.length) 0)

end StDevice.DumpLog
