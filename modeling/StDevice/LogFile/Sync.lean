import StDevice.Foundation.Memory
import StDevice.LogFile.Flash

/-!
# What the flash functions leave in flash

Each function that writes to flash is described by the memory after it. The sector that is
read, erased and written again drops out of these descriptions, and what remains is where
the new bytes go: up to the end of the sector, and then to the next sector or, behind the
last sector, to the first byte after the header.
-/

namespace StDevice.LogFile

open Memory

/-- What the log relies on: operations inside the log area succeed, an erased sector reads
as ones, and bytes written to erased cells are read back. -/
structure FlashDriver.Lawful {F : Type} (drv : FlashDriver F) (cfg : FlashConfig)
    (cell : F → Nat → UInt8) : Prop where
  read : ∀ flash addr n, cfg.flashAddr ≤ addr → addr + n ≤ cfg.maxAddr →
    drv.readFlash flash addr n = some (slice (cell flash) addr n)
  erase : ∀ flash num, cfg.flashAddr ≤ num * cfg.sectorSize →
    num * cfg.sectorSize + cfg.sectorSize ≤ cfg.maxAddr →
    ∃ erased, drv.eraseSector flash num = some erased ∧
      cell erased =
        patch (cell flash) (num * cfg.sectorSize) (List.replicate cfg.sectorSize 255)
  write : ∀ flash addr data, cfg.flashAddr ≤ addr → addr + data.length ≤ cfg.maxAddr →
    slice (cell flash) addr data.length = List.replicate data.length 255 →
    ∃ written, drv.writeFlash flash addr data = some written ∧
      cell written = patch (cell flash) addr data

/-! ## The header as bytes -/

/-- The values of the header fit their fields. -/
structure Header.Fits (header : Header) : Prop where
  magic : header.magicCode.length = 4
  fileSize : header.fileSize < 4294967296
  writtenSize : header.writtenSize < 4294967296
  num : header.sector.num < 4294967296
  offset : header.sector.offset < 4294967296
  checksum : header.checksum < 4294967296

theorem wordOf_wordBytes {value : Nat} (fits : value < 4294967296) :
    wordOf (wordBytes value) = value := by
  simp only [wordOf, wordBytes, List.foldr_cons, List.foldr_nil, UInt8.toNat_ofNat']
  omega

theorem wordOf_lt {bytes : List UInt8} (short : bytes.length ≤ 4) :
    wordOf bytes < 4294967296 := by
  have bound : wordOf bytes < 256 ^ bytes.length := by
    clear short
    induction bytes with
    | nil => decide
    | cons b bytes ih =>
        have byte := b.toNat_lt
        rw [List.length_cons, Nat.pow_succ]
        have unfolded : wordOf (b :: bytes) = b.toNat + 256 * wordOf bytes := rfl
        omega
  have most : 256 ^ bytes.length ≤ 256 ^ 4 := Nat.pow_le_pow_right (by decide) short
  omega

theorem Header.Fits.length_bytes {header : Header} (fits : header.Fits) :
    header.bytes.length = headerSize := by
  simp [Header.bytes, fits.magic, wordBytes, headerSize]

/-- A header is loaded as it was stored. -/
theorem Header.Fits.ofBytes_bytes {header : Header} (fits : header.Fits) :
    Header.ofBytes header.bytes = header := by
  obtain ⟨magic, fileSize, writtenSize, ⟨num, offset⟩, checksum⟩ := header
  obtain ⟨a, b, c, d, rfl⟩ : ∃ a b c d, magic = [a, b, c, d] := by
    match magic, fits.magic with
    | [a, b, c, d], _ => exact ⟨a, b, c, d, rfl⟩
  have words : Header.ofBytes (Header.bytes ⟨[a, b, c, d], fileSize, writtenSize, ⟨num, offset⟩,
      checksum⟩) = ⟨[a, b, c, d], wordOf (wordBytes fileSize), wordOf (wordBytes writtenSize),
        ⟨wordOf (wordBytes num), wordOf (wordBytes offset)⟩, wordOf (wordBytes checksum)⟩ := rfl
  rw [words, wordOf_wordBytes fits.fileSize, wordOf_wordBytes fits.writtenSize,
    wordOf_wordBytes fits.num, wordOf_wordBytes fits.offset, wordOf_wordBytes fits.checksum]

/-- Whatever is loaded from flash fits. -/
theorem Header.fits_ofBytes {bytes : List UInt8} (enough : 4 ≤ bytes.length) :
    (Header.ofBytes bytes).Fits := by
  have word : ∀ start, wordOf ((bytes.drop start).take 4) < 4294967296 := fun start =>
    wordOf_lt (by rw [List.length_take]; omega)
  refine ⟨?_, word 4, word 8, word 12, word 16, word 20⟩
  dsimp only [Header.ofBytes]
  rw [List.length_take]
  omega

section Functions

variable {F : Type} {cfg : FlashConfig} {drv : FlashDriver F} {cell : F → Nat → UInt8}

theorem FlashConfig.header_lt (cfg : FlashConfig) : headerSize ≤ cfg.sectorSize := by
  have fits := cfg.ramFits
  omega

private theorem slice_erased {mem : Nat → UInt8} (addr n : Nat) :
    slice (patch mem addr (List.replicate n 255)) addr n = List.replicate n 255 := by
  have read := slice_patch mem addr (List.replicate n (255 : UInt8))
  rw [List.length_replicate] at read
  exact read

private theorem patch_patch_of_length {mem : Nat → UInt8} {addr : Nat} {old new : List UInt8}
    (same : old.length = new.length) :
    patch (patch mem addr old) addr new = patch mem addr new := by
  funext a
  by_cases inside : addr ≤ a ∧ a < addr + new.length
  · obtain ⟨k, rfl⟩ : ∃ k, a = addr + k := ⟨a - addr, by omega⟩
    have below : k < new.length := by omega
    have left := getElem?_eq_patch (patch mem addr old) addr below
    have right := getElem?_eq_patch mem addr below
    exact Option.some.inj (left.symm.trans right)
  · rw [patch_outside (by omega), patch_outside (by omega), patch_outside (by omega)]

/-- A sector that is read, changed, erased and written changes only where it was changed. -/
theorem writeSector_eq (lawful : drv.Lawful cfg cell) (flash : F) (num offset : Nat)
    (data : List UInt8) (low : cfg.flashAddr ≤ num * cfg.sectorSize)
    (high : num * cfg.sectorSize + cfg.sectorSize ≤ cfg.maxAddr)
    (fits : offset + data.length ≤ cfg.sectorSize) :
    ∃ flash', iotLogFileWriteSector cfg drv flash num offset data = some flash' ∧
      cell flash' = patch (cell flash) (num * cfg.sectorSize + offset) data := by
  obtain ⟨erased, erases, blank⟩ := lawful.erase flash num low high
  obtain ⟨out, writes⟩ := Buffer.exists_write_iff.mpr
    (show offset + data.length ≤ (slice (cell flash) (num * cfg.sectorSize) cfg.sectorSize).length
      by rw [slice_length]; exact fits)
  have length := Buffer.length_of_write writes
  rw [slice_length] at length
  obtain ⟨flash', stores, after⟩ := lawful.write erased (num * cfg.sectorSize) out low
    (by omega) (by rw [length, blank, slice_erased])
  refine ⟨flash', ?_, ?_⟩
  · unfold iotLogFileWriteSector iotLogFileSectorToAddr
    simp only [Nat.add_zero, lawful.read flash _ _ low high, Option.bind_eq_bind,
      Option.bind_some, erases, writes, stores]
  · rw [after, blank, patch_patch_of_length (by rw [List.length_replicate, length]),
      Buffer.patch_of_write writes]

/-- The header is replaced, and the rest of its sector stays. -/
theorem writeHeader_eq (lawful : drv.Lawful cfg cell) (flash : F) {buf : List UInt8}
    {header : Header} (fits : header.Fits) (room : cfg.sectorSize ≤ buf.length) :
    ∃ flash' buf', iotLogFileWriteHeader cfg drv flash buf header = some (flash', buf') ∧
      buf'.length = buf.length ∧
      cell flash' = patch (cell flash) cfg.flashAddr header.bytes := by
  have length := fits.length_bytes
  have two := cfg.twoSectors
  have small := cfg.header_lt
  have first : cfg.firstSector * cfg.sectorSize = cfg.flashAddr :=
    Nat.div_mul_cancel cfg.addrAligned
  have high : cfg.flashAddr + cfg.sectorSize ≤ cfg.maxAddr := by
    unfold FlashConfig.maxAddr
    omega
  obtain ⟨erased, erases, blank⟩ := lawful.erase flash cfg.firstSector (by omega) (by omega)
  rw [first] at blank
  obtain ⟨loaded, loads⟩ := Buffer.exists_write_iff.mpr
    (show 0 + (slice (cell flash) cfg.flashAddr cfg.sectorSize).length ≤ buf.length by
      rw [slice_length]; omega)
  have loadedLength := Buffer.length_of_write loads
  obtain ⟨changed, changes⟩ := Buffer.exists_write_iff.mpr
    (show 0 + header.bytes.length ≤ loaded.length by omega)
  have changedLength := Buffer.length_of_write changes
  -- The sector of the buffer is the sector of the flash with the new header in front.
  have sector : Buffer.write (slice (cell flash) cfg.flashAddr cfg.sectorSize) 0 header.bytes =
      some (changed.take cfg.sectorSize) := by
    have front := Buffer.take_of_write loads
    rw [slice_length, List.take_zero, List.nil_append, Nat.zero_add] at front
    rw [← front]
    exact Buffer.write_take changes (by omega)
  have sectorLength : (changed.take cfg.sectorSize).length = cfg.sectorSize := by
    rw [List.length_take]
    omega
  obtain ⟨flash', stores, after⟩ := lawful.write erased cfg.flashAddr
    (changed.take cfg.sectorSize) (Nat.le_refl _) (by omega)
    (by rw [sectorLength, blank, slice_erased])
  have readBack : Buffer.read changed 0 cfg.sectorSize = some (changed.take cfg.sectorSize) := by
    rw [Buffer.read_eq_some_iff]
    exact ⟨by omega, by rw [List.drop_zero]⟩
  refine ⟨flash', changed, ?_, by omega, ?_⟩
  · unfold iotLogFileWriteHeader
    rw [lawful.read flash _ _ (Nat.le_refl _) high]
    simp only [Option.bind_eq_bind, Option.bind_some, loads, changes, erases, readBack, stores,
      Option.pure_def]
  · rw [after, blank, patch_patch_of_length (by rw [List.length_replicate, sectorLength]),
      Buffer.patch_of_write sector, Nat.add_zero]

/-- Where the bytes go that do not fit the sector at `base`: to the next sector, or behind
the header when there is none. -/
def Continues (cfg : FlashConfig) (base next : Nat) : Prop :=
  base + cfg.sectorSize = cfg.maxAddr ∧ next = cfg.flashAddr + headerSize ∨
    base + 2 * cfg.sectorSize ≤ cfg.maxAddr ∧ next = base + cfg.sectorSize

theorem FlashConfig.maxAddr_aligned (cfg : FlashConfig) :
    (cfg.flashAddr + cfg.flashSize) / cfg.sectorSize * cfg.sectorSize = cfg.maxAddr :=
  Nat.div_mul_cancel (Nat.dvd_add cfg.addrAligned cfg.sizeAligned)

/-- The second write of `_iot_log_file_write_data`. -/
private theorem writeNext_eq (lawful : drv.Lawful cfg cell) (flash : F) {num : Nat}
    {remain : List UInt8} (low : cfg.flashAddr ≤ num * cfg.sectorSize)
    (high : num * cfg.sectorSize + cfg.sectorSize ≤ cfg.maxAddr)
    (fits : headerSize + remain.length ≤ cfg.sectorSize) :
    ∃ flash' next, Continues cfg (num * cfg.sectorSize) next ∧
      (if iotLogFileSectorToAddr cfg (iotLogFileGetNextSector cfg num) 0 ≠ cfg.flashAddr then
          iotLogFileWriteSector cfg drv flash (iotLogFileGetNextSector cfg num) 0 remain
        else
          iotLogFileWriteSector cfg drv flash (iotLogFileGetNextSector cfg num) headerSize
            remain) = some flash' ∧
      cell flash' = patch (cell flash) next remain := by
  have aligned := cfg.maxAddr_aligned
  have first : cfg.firstSector * cfg.sectorSize = cfg.flashAddr :=
    Nat.div_mul_cancel cfg.addrAligned
  have two := cfg.twoSectors
  have positive : 0 < cfg.sectorSize := Nat.lt_of_lt_of_le (by decide) cfg.header_lt
  have area : cfg.maxAddr = cfg.flashAddr + cfg.flashSize := rfl
  have following : (num + 1) * cfg.sectorSize = num * cfg.sectorSize + cfg.sectorSize :=
    Nat.succ_mul num cfg.sectorSize
  unfold iotLogFileGetNextSector iotLogFileSectorToAddr
  by_cases last : num + 1 ≥ (cfg.flashAddr + cfg.flashSize) / cfg.sectorSize
  · have reached : (cfg.flashAddr + cfg.flashSize) / cfg.sectorSize * cfg.sectorSize ≤
        (num + 1) * cfg.sectorSize := Nat.mul_le_mul_right _ last
    obtain ⟨flash', writes, after⟩ := writeSector_eq lawful flash cfg.firstSector headerSize remain
      (by omega) (by omega) fits
    rw [first] at after
    refine ⟨flash', _, .inl ⟨by omega, rfl⟩, ?_, after⟩
    rw [if_pos last, Nat.add_zero, first, if_neg (not_not.mpr rfl)]
    exact writes
  · have more : (num + 2) * cfg.sectorSize ≤
        (cfg.flashAddr + cfg.flashSize) / cfg.sectorSize * cfg.sectorSize :=
      Nat.mul_le_mul_right _ (by omega)
    have second : (num + 2) * cfg.sectorSize =
        num * cfg.sectorSize + cfg.sectorSize + cfg.sectorSize := by
      rw [Nat.succ_mul, Nat.succ_mul]
    obtain ⟨flash', writes, after⟩ := writeSector_eq lawful flash (num + 1) 0 remain (by omega)
      (by omega) (by omega)
    rw [Nat.add_zero, following] at after
    refine ⟨flash', _, .inr ⟨by omega, rfl⟩, ?_, after⟩
    rw [if_neg last, Nat.add_zero, if_pos (by omega)]
    exact writes

/-- What `_iot_log_file_write_data` leaves in flash: the first sector of the buffer in the
sector, the rest of the data behind it, and everything else as before. -/
structure WroteData (cfg : FlashConfig) (buf : List UInt8) (fileWriteSize base next : Nat)
    (mem mem' : Nat → UInt8) : Prop where
  continues : Continues cfg base next
  sector : ∀ k < cfg.sectorSize, buf[k]? = some (mem' (base + k))
  rest : ∀ k, cfg.sectorSize ≤ k → k < fileWriteSize →
    buf[k]? = some (mem' (next + (k - cfg.sectorSize)))
  kept : ∀ a, a < base ∨ base + cfg.sectorSize ≤ a →
    a < next ∨ next + (fileWriteSize - cfg.sectorSize) ≤ a → mem' a = mem a

theorem exists_continues (cfg : FlashConfig) {num : Nat}
    (high : num * cfg.sectorSize + cfg.sectorSize ≤ cfg.maxAddr) :
    ∃ next, Continues cfg (num * cfg.sectorSize) next := by
  have aligned := cfg.maxAddr_aligned
  by_cases last : num * cfg.sectorSize + cfg.sectorSize = cfg.maxAddr
  · exact ⟨_, .inl ⟨last, rfl⟩⟩
  · refine ⟨_, .inr ⟨?_, rfl⟩⟩
    obtain ⟨m, sectors⟩ : ∃ m, m * cfg.sectorSize = cfg.maxAddr := ⟨_, aligned⟩
    have following : (num + 1) * cfg.sectorSize = num * cfg.sectorSize + cfg.sectorSize :=
      Nat.succ_mul num cfg.sectorSize
    have below : num + 1 < m := by
      by_contra reached
      have most := Nat.mul_le_mul_right cfg.sectorSize (Nat.not_lt.mp reached)
      omega
    have enough := Nat.mul_le_mul_right cfg.sectorSize (show num + 2 ≤ m from below)
    have second : (num + 2) * cfg.sectorSize =
        num * cfg.sectorSize + cfg.sectorSize + cfg.sectorSize := by
      rw [Nat.succ_mul, Nat.succ_mul]
    omega

theorem writeData_eq (lawful : drv.Lawful cfg cell) (flash : F) {num fileWriteSize : Nat}
    {buf : List UInt8} (low : cfg.flashAddr ≤ num * cfg.sectorSize)
    (high : num * cfg.sectorSize + cfg.sectorSize ≤ cfg.maxAddr)
    (room : buf.length = 2 * cfg.sectorSize)
    (fits : headerSize + fileWriteSize ≤ 2 * cfg.sectorSize) :
    ∃ flash' next, iotLogFileWriteData cfg drv flash num buf fileWriteSize = some flash' ∧
      WroteData cfg buf fileWriteSize (num * cfg.sectorSize) next (cell flash) (cell flash') := by
  have two := cfg.twoSectors
  have area : cfg.maxAddr = cfg.flashAddr + cfg.flashSize := rfl
  have front : Buffer.read buf 0 cfg.sectorSize = some (buf.take cfg.sectorSize) := by
    rw [Buffer.read_eq_some_iff]
    exact ⟨by omega, by rw [List.drop_zero]⟩
  have frontLength : (buf.take cfg.sectorSize).length = cfg.sectorSize := by
    rw [List.length_take]
    omega
  obtain ⟨flash₁, writes, after⟩ := writeSector_eq lawful flash num 0
    (buf.take cfg.sectorSize) low high (by omega)
  rw [Nat.add_zero] at after
  have sector : ∀ k < cfg.sectorSize,
      buf[k]? = some (cell flash₁ (num * cfg.sectorSize + k)) := by
    intro k below
    rw [after, ← getElem?_eq_patch _ _ (by omega), List.getElem?_take_of_lt below]
  unfold iotLogFileWriteData
  rw [front]
  simp only [Option.bind_eq_bind, Option.bind_some, writes, Option.pure_def]
  by_cases single : fileWriteSize ≤ cfg.sectorSize
  · obtain ⟨next, continues⟩ := exists_continues cfg high
    refine ⟨flash₁, next, by rw [if_pos single], continues, sector, by omega, ?_⟩
    intro a outside _
    rw [after, patch_outside (by omega)]
  · obtain ⟨remain, behind⟩ := Buffer.exists_read_iff.mpr
      (show cfg.sectorSize + (fileWriteSize - cfg.sectorSize) ≤ buf.length by omega)
    have remainLength := Buffer.length_of_read behind
    obtain ⟨-, remainEq⟩ := Buffer.read_eq_some_iff.mp behind
    obtain ⟨flash', next, continues, writes', after'⟩ := writeNext_eq lawful flash₁
      low high (show headerSize + remain.length ≤ cfg.sectorSize by omega)
    refine ⟨flash', next, ?_, continues, ?_, ?_, ?_⟩
    · rw [if_neg single, behind]
      exact writes'
    · intro k below
      rw [sector k below, after', patch_outside]
      rcases continues with ⟨end_, start⟩ | ⟨-, start⟩
      · omega
      · omega
    · intro k behind below
      rw [after', ← getElem?_eq_patch _ _ (by omega), remainEq, List.getElem?_take_of_lt (by omega),
        List.getElem?_drop, Nat.add_sub_cancel' behind]
    · intro a outside elsewhere
      rw [after', patch_outside (by omega), after, patch_outside (by omega)]

end Functions

end StDevice.LogFile
