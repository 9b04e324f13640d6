import StDevice.LogFile.File

/-!
# Writing the log to flash

In the build with `FLASH_WITH_RAM` the log task moves the buffer to a ring of flash sectors.
The first sector starts with a header that says where the next byte goes and how many bytes
there are. A sector can only be erased as a whole, so every write reads the sector, erases
it and writes it again.

The three flash operations belong to the port. They are parameters here, with failures, and
what the log relies on is said by `Lawful`: an erased sector reads as ones, and a write of
erased bytes is read back. Allocations succeed. Addresses and sizes are natural numbers;
the configuration leaves one sector of address space behind the log area, so no sum of the
source leaves the range of `unsigned int`.
-/

namespace StDevice.LogFile

/-- The flash operations of the port. `none` is an error. -/
structure FlashDriver (F : Type) where
  readFlash : F → (addr size : Nat) → Option (List UInt8)
  eraseSector : F → (sectorNum : Nat) → Option F
  writeFlash : F → (addr : Nat) → List UInt8 → Option F

/-- `IOT_LOG_FILE_FLASH_HEADER_SIZE`: four characters and five words. -/
def headerSize : Nat := 24

/-- The configured log area. -/
structure FlashConfig where
  ramBufSize : Nat
  flashAddr : Nat
  flashSize : Nat
  sectorSize : Nat
  ramPositive : 0 < ramBufSize
  addrAligned : sectorSize ∣ flashAddr
  sizeAligned : sectorSize ∣ flashSize
  twoSectors : 2 * sectorSize ≤ flashSize
  ramFits : ramBufSize + headerSize ≤ sectorSize
  addressable : flashAddr + flashSize + sectorSize ≤ 4294967296

namespace FlashConfig

/-- `IOT_LOG_FILE_FLASH_FIRST_SECTOR`. -/
def firstSector (cfg : FlashConfig) : Nat := cfg.flashAddr / cfg.sectorSize

/-- `IOT_LOG_FILE_FLASH_MAX_ADDR`. -/
def maxAddr (cfg : FlashConfig) : Nat := cfg.flashAddr + cfg.flashSize

/-- The number of bytes the log area has besides its header. -/
def maxLogSize (cfg : FlashConfig) : Nat := cfg.flashSize - headerSize

end FlashConfig

/-! ## The header -/

/-- `struct iot_log_file_sector_tag`. -/
structure Sector where
  num : Nat
  offset : Nat
  deriving DecidableEq, Repr

/-- `struct iot_log_file_header_tag`. -/
structure Header where
  magicCode : List UInt8
  fileSize : Nat
  writtenSize : Nat
  sector : Sector
  checksum : Nat
  deriving DecidableEq, Repr

/-- The bytes of an `unsigned int` in memory. -/
def wordBytes (value : Nat) : List UInt8 :=
  [UInt8.ofNat (value % 256), UInt8.ofNat (value / 256 % 256),
    UInt8.ofNat (value / 65536 % 256), UInt8.ofNat (value / 16777216 % 256)]

/-- The `unsigned int` with these bytes. -/
def wordOf (bytes : List UInt8) : Nat :=
  bytes.foldr (fun b value => b.toNat + 256 * value) 0

/-- The header as it lies in memory. -/
def Header.bytes (header : Header) : List UInt8 :=
  header.magicCode ++ wordBytes header.fileSize ++ wordBytes header.writtenSize ++
    wordBytes header.sector.num ++ wordBytes header.sector.offset ++ wordBytes header.checksum

/-- The header that lies in these bytes. -/
def Header.ofBytes (bytes : List UInt8) : Header :=
  { magicCode := bytes.take 4
    fileSize := wordOf ((bytes.drop 4).take 4)
    writtenSize := wordOf ((bytes.drop 8).take 4)
    sector := ⟨wordOf ((bytes.drop 12).take 4), wordOf ((bytes.drop 16).take 4)⟩
    checksum := wordOf ((bytes.drop 20).take 4) }

/-- The three characters that are compared. -/
def Header.HasMagic (header : Header) : Prop :=
  header.magicCode[0]? = some 76 ∧ header.magicCode[1]? = some 79 ∧
    header.magicCode[2]? = some 71

instance (header : Header) : Decidable header.HasMagic :=
  inferInstanceAs (Decidable (_ ∧ _))

/-- `iot_log_file_header_state_t`, less `LOAD_FAIL`. -/
inductive HeaderState where
  | normal | noMagic
  deriving DecidableEq, Repr

/-- What the log task alone uses of the context, and the flash. -/
structure FlashLog (F : Type) where
  fileHeader : Header
  fileBuf : List UInt8
  flash : F

section Model

variable {F : Type} (cfg : FlashConfig) (drv : FlashDriver F)

/-- `_iot_log_file_init_header`. -/
def iotLogFileInitHeader (header : Header) : Header :=
  { header with
    magicCode := [76, 79, 71, 0]
    fileSize := cfg.flashSize
    writtenSize := 0
    sector := ⟨(cfg.flashAddr + headerSize) / cfg.sectorSize, headerSize⟩ }

/-- `_iot_log_file_sector_to_addr`. -/
def iotLogFileSectorToAddr (sectorNum offset : Nat) : Nat :=
  sectorNum * cfg.sectorSize + offset

/-- `_iot_log_file_load_header`; `none` is `LOAD_FAIL`. -/
def iotLogFileLoadHeader (flash : F) : Option (HeaderState × Header) := do
  let bytes ← drv.readFlash flash cfg.flashAddr headerSize
  let header := Header.ofBytes bytes
  if header.HasMagic then pure (.normal, { header with fileSize := cfg.flashSize })
  else pure (.noMagic, iotLogFileInitHeader cfg header)

/-- `_iot_log_file_get_next_sector`. -/
def iotLogFileGetNextSector (currentNum : Nat) : Nat :=
  if currentNum + 1 ≥ (cfg.flashAddr + cfg.flashSize) / cfg.sectorSize then cfg.firstSector
  else currentNum + 1

/-- `_iot_log_file_addr_to_sector`. -/
def iotLogFileAddrToSector (addr : Nat) : Sector :=
  ⟨addr / cfg.sectorSize, addr % cfg.sectorSize⟩

/-- `_iot_log_file_write_sector`. -/
def iotLogFileWriteSector (flash : F) (sectorNum offset : Nat) (data : List UInt8) :
    Option F := do
  let sectorAddr := iotLogFileSectorToAddr cfg sectorNum 0
  let sectorBuf ← drv.readFlash flash sectorAddr cfg.sectorSize
  let flash ← drv.eraseSector flash sectorNum
  let sectorBuf ← Buffer.write sectorBuf offset data
  drv.writeFlash flash sectorAddr sectorBuf

/-- `_iot_log_file_write_header`: the flash and the buffer after it. -/
def iotLogFileWriteHeader (flash : F) (buf : List UInt8) (header : Header) :
    Option (F × List UInt8) := do
  let sector ← drv.readFlash flash cfg.flashAddr cfg.sectorSize
  let buf ← Buffer.write buf 0 sector
  let buf ← Buffer.write buf 0 header.bytes
  let flash ← drv.eraseSector flash cfg.firstSector
  let sector ← Buffer.read buf 0 cfg.sectorSize
  let flash ← drv.writeFlash flash cfg.flashAddr sector
  pure (flash, buf)

/-- `_iot_log_file_write_data`. -/
def iotLogFileWriteData (flash : F) (sectorStartNum : Nat) (fileBuf : List UInt8)
    (fileWriteSize : Nat) : Option F := do
  let sector ← Buffer.read fileBuf 0 cfg.sectorSize
  let flash ← iotLogFileWriteSector cfg drv flash sectorStartNum 0 sector
  if fileWriteSize ≤ cfg.sectorSize then pure flash
  else
    let sectorNext := iotLogFileGetNextSector cfg sectorStartNum
    let remain ← Buffer.read fileBuf cfg.sectorSize (fileWriteSize - cfg.sectorSize)
    if iotLogFileSectorToAddr cfg sectorNext 0 ≠ cfg.flashAddr then
      iotLogFileWriteSector cfg drv flash sectorNext 0 remain
    else iotLogFileWriteSector cfg drv flash sectorNext headerSize remain

/-- `_iot_log_file_load_old_data`: the buffer, and the size that its data has so far. -/
def iotLogFileLoadOldData (flash : F) (buf : List UInt8) (header : Header) :
    HeaderState → Option (List UInt8 × Nat)
  | .normal => do
      let sector ← drv.readFlash flash (header.sector.num * cfg.sectorSize) cfg.sectorSize
      let buf ← Buffer.write buf 0 sector
      pure (buf, header.sector.offset)
  | .noMagic => do
      let buf ← Buffer.write buf 0 header.bytes
      pure (buf, headerSize)

/-- The header that `_iot_log_file_update_header` computes for `logBufSize` new bytes. -/
def updatedHeader (header : Header) (logBufSize : Nat) : Header :=
  let addr := iotLogFileSectorToAddr cfg header.sector.num header.sector.offset + logBufSize
  let sector :=
    if addr ≥ cfg.maxAddr then
      { iotLogFileAddrToSector cfg (addr + headerSize) with num := cfg.firstSector }
    else iotLogFileAddrToSector cfg addr
  let writtenSize :=
    if header.writtenSize + logBufSize ≤ cfg.maxLogSize then header.writtenSize + logBufSize
    else cfg.maxLogSize
  { header with sector := sector, writtenSize := writtenSize }

/-- `_iot_log_file_update_header`. -/
def iotLogFileUpdateHeader (flash : F) (buf : List UInt8) (header : Header)
    (logBufSize : Nat) : Option (F × List UInt8 × Header) := do
  let header := updatedHeader cfg header logBufSize
  let (flash, buf) ← iotLogFileWriteHeader cfg drv flash buf header
  pure (flash, buf, header)

/-- `_iot_log_file_manager`. -/
def iotLogFileManager {size : Nat} (log : FlashLog F) (ctx : Ctx size) :
    Option (FlashLog F × Ctx size) := do
  let logBufSize := ctx.logBuf.cnt
  let (state, header) ← iotLogFileLoadHeader cfg drv log.flash
  let (buf, fileWriteSize) ← iotLogFileLoadOldData cfg drv log.flash log.fileBuf header state
  let data ← Buffer.read ctx.logBuf.buf.toList 0 logBufSize
  let buf ← Buffer.write buf header.sector.offset data
  let flash ← iotLogFileWriteData cfg drv log.flash header.sector.num buf
    (fileWriteSize + logBufSize)
  let (flash, buf, header) ← iotLogFileUpdateHeader cfg drv flash buf header logBufSize
  pure (⟨header, buf, flash⟩, iotLogFileClearBuf ctx)

/-- `iot_log_file_open`, the case `FLASH_WITH_RAM`: the handle and the file size, and the
context after it. -/
def iotLogFileOpenFlashWithRam {size : Nat} (allocated : Bool) (flash : F) (ctx : Ctx size) :
    Option (Handle × Nat) × Ctx size :=
  if allocated then
    let ctx := iotLogFileOpenState true ctx
    match iotLogFileLoadHeader cfg drv flash with
    | some (.normal, header) =>
        let startAddr := cfg.flashAddr + headerSize
        let tailAddr := iotLogFileSectorToAddr cfg header.sector.num header.sector.offset
        let handle : Handle :=
          { startAddr := startAddr
            tailAddr := tailAddr
            curAddr := if header.writtenSize < cfg.maxLogSize then startAddr else tailAddr
            logSize := header.writtenSize
            maxLogSize := cfg.maxLogSize
            fileType := .flashWithRam }
        (some (handle, header.writtenSize), ctx)
    | _ => (none, iotLogFileOpenState false ctx)
  else (none, ctx)

end Model

end StDevice.LogFile
