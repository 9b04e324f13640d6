import StDevice.LogFile.Sync

/-!
# The log in flash is a ring

One run of `_iot_log_file_manager` appends the bytes of the buffer to the ring behind the
header, whatever the sector, the place in it and the number of bytes. An area that starts
blank or with a log stays a log that holds all bytes ever synced, as far as it has room.
-/

namespace StDevice.LogFile

open Memory

/-- The header is stored at the start of the area, and the ring behind it holds the history. -/
structure Logged (cfg : FlashConfig) (mem : Nat → UInt8) (history : List UInt8)
    (header : Header) (pos : Nat) : Prop where
  stored : slice mem cfg.flashAddr headerSize = header.bytes
  magic : header.HasMagic
  fits : header.Fits
  offset : header.sector.offset < cfg.sectorSize
  tail : header.sector.num * cfg.sectorSize + header.sector.offset =
    cfg.flashAddr + headerSize + pos
  place : pos < cfg.maxLogSize
  written : header.writtenSize = min history.length cfg.maxLogSize
  ring : Ring.Holds (fun p => mem (cfg.flashAddr + headerSize + p)) cfg.maxLogSize pos history

/-- There is no log yet. -/
def Blank (cfg : FlashConfig) (mem : Nat → UInt8) : Prop :=
  ¬ (Header.ofBytes (slice mem cfg.flashAddr headerSize)).HasMagic

instance (cfg : FlashConfig) (mem : Nat → UInt8) : Decidable (Blank cfg mem) :=
  inferInstanceAs (Decidable (¬ _))

/-- The area is blank and nothing was logged, or it holds everything that was. -/
def Area (cfg : FlashConfig) (mem : Nat → UInt8) (history : List UInt8) : Prop :=
  Blank cfg mem ∧ history = [] ∨ ∃ header pos, Logged cfg mem history header pos

/-- What the header is once it is loaded, for a log or for a blank area. -/
structure Loaded (cfg : FlashConfig) (mem : Nat → UInt8) (history : List UInt8)
    (state : HeaderState) (header : Header) (pos : Nat) : Prop where
  magic : header.HasMagic
  fits : header.Fits
  offset : header.sector.offset < cfg.sectorSize
  tail : header.sector.num * cfg.sectorSize + header.sector.offset =
    cfg.flashAddr + headerSize + pos
  place : pos < cfg.maxLogSize
  written : header.writtenSize = min history.length cfg.maxLogSize
  ring : state = .normal →
    Ring.Holds (fun p => mem (cfg.flashAddr + headerSize + p)) cfg.maxLogSize pos history
  fresh : state = .noMagic → history = [] ∧ pos = 0 ∧ header.sector.offset = headerSize

section Manager

variable {F : Type} {cfg : FlashConfig} {drv : FlashDriver F} {cell : F → Nat → UInt8}
  {mem : Nat → UInt8} {history : List UInt8} {state : HeaderState} {header : Header} {pos : Nat}

theorem FlashConfig.maxLogSize_eq (cfg : FlashConfig) :
    cfg.maxLogSize + headerSize = cfg.flashSize := by
  have two := cfg.twoSectors
  have small := cfg.header_lt
  unfold FlashConfig.maxLogSize
  omega

/-- A stored log is loaded with its own header. -/
theorem Logged.loaded (logged : Logged cfg mem history header pos) :
    Loaded cfg mem history .normal { header with fileSize := cfg.flashSize } pos := by
  have space := cfg.addressable
  have positive : 0 < cfg.sectorSize := Nat.lt_of_lt_of_le (by decide) cfg.header_lt
  obtain ⟨length, -, written, num, offset, checksum⟩ := logged.fits
  exact ⟨logged.magic, ⟨length, by dsimp only; omega, written, num, offset, checksum⟩,
    logged.offset, logged.tail, logged.place, logged.written, fun _ => logged.ring, nofun⟩

/-- The sector of the first byte behind the header is the first sector. -/
theorem FlashConfig.firstSector_eq (cfg : FlashConfig) :
    (cfg.flashAddr + headerSize) / cfg.sectorSize * cfg.sectorSize = cfg.flashAddr := by
  have ram := cfg.ramFits
  have some := cfg.ramPositive
  obtain ⟨a, aligned⟩ := cfg.addrAligned
  rw [aligned, Nat.mul_add_div (by omega), Nat.div_eq_of_lt (by omega), Nat.add_zero,
    Nat.mul_comm]

/-- A blank area is loaded with a header for the empty log. -/
theorem loaded_init (loadedFits : header.Fits) :
    Loaded cfg mem [] .noMagic (iotLogFileInitHeader cfg header) 0 := by
  have ram := cfg.ramFits
  have some := cfg.ramPositive
  have two := cfg.twoSectors
  have space := cfg.addressable
  have size := cfg.maxLogSize_eq
  have first := cfg.firstSector_eq
  have num : (cfg.flashAddr + headerSize) / cfg.sectorSize ≤ cfg.flashAddr + headerSize :=
    Nat.div_le_self _ _
  have fits : (iotLogFileInitHeader cfg header).Fits := by
    refine ⟨rfl, ?_, (by decide : 0 < 4294967296), ?_,
      (by decide : headerSize < 4294967296), loadedFits.checksum⟩
    · dsimp only [iotLogFileInitHeader]
      omega
    · dsimp only [iotLogFileInitHeader]
      omega
  refine ⟨⟨rfl, rfl, rfl⟩, fits, ?_, ?_, by omega, ?_, nofun, fun _ => ⟨rfl, rfl, rfl⟩⟩
  · dsimp only [iotLogFileInitHeader]
    omega
  · dsimp only [iotLogFileInitHeader]
    rw [first, Nat.add_zero]
  · dsimp only [iotLogFileInitHeader, List.length_nil]
    omega

/-- `_iot_log_file_load_header` of a blank area or of a log. -/
theorem loadHeader_eq (lawful : drv.Lawful cfg cell) {flash : F}
    (area : Area cfg (cell flash) history) :
    ∃ state header pos, iotLogFileLoadHeader cfg drv flash = some (state, header) ∧
      Loaded cfg (cell flash) history state header pos := by
  have size := cfg.maxLogSize_eq
  have area' : cfg.maxAddr = cfg.flashAddr + cfg.flashSize := rfl
  unfold iotLogFileLoadHeader
  rw [lawful.read flash cfg.flashAddr headerSize (Nat.le_refl _) (by omega)]
  simp only [Option.bind_eq_bind, Option.bind_some, Option.pure_def]
  obtain ⟨blank, rfl⟩ | ⟨header, pos, logged⟩ := area
  · refine ⟨.noMagic, _, 0, if_neg blank, loaded_init (Header.fits_ofBytes ?_)⟩
    rw [slice_length]
    decide
  · refine ⟨.normal, { header with fileSize := cfg.flashSize }, pos, ?_, logged.loaded⟩
    rw [logged.stored, logged.fits.ofBytes_bytes, if_pos logged.magic]

/-- `_iot_log_file_load_old_data` fills the first sector of the buffer with the sector that
is going to be written; of a blank area it has only the header. -/
theorem Loaded.loadOldData (loaded : Loaded cfg mem history state header pos)
    (lawful : drv.Lawful cfg cell) {flash : F} (same : cell flash = mem) {buf : List UInt8}
    (room : buf.length = 2 * cfg.sectorSize)
    (low : cfg.flashAddr ≤ header.sector.num * cfg.sectorSize)
    (high : header.sector.num * cfg.sectorSize + cfg.sectorSize ≤ cfg.maxAddr) :
    ∃ buf', iotLogFileLoadOldData cfg drv flash buf header state =
        some (buf', header.sector.offset) ∧
      buf'.length = 2 * cfg.sectorSize ∧
      (state = .normal → ∀ k < cfg.sectorSize,
        buf'[k]? = some (mem (header.sector.num * cfg.sectorSize + k))) := by
  cases state with
  | normal =>
      obtain ⟨buf', writes⟩ := Buffer.exists_write_iff.mpr
        (show 0 + (slice (cell flash) (header.sector.num * cfg.sectorSize)
          cfg.sectorSize).length ≤ buf.length by rw [slice_length]; omega)
      refine ⟨buf', ?_, (Buffer.length_of_write writes).trans room, fun _ k below => ?_⟩
      · unfold iotLogFileLoadOldData
        rw [lawful.read flash _ _ low high]
        simp only [Option.bind_eq_bind, Option.bind_some, Option.pure_def, writes]
      · rw [Buffer.getElem?_of_write writes, slice_length, if_pos (by omega), Nat.sub_zero,
          getElem?_slice below, same]
  | noMagic =>
      obtain ⟨-, -, offset⟩ := loaded.fresh rfl
      have small := cfg.header_lt
      obtain ⟨buf', writes⟩ := Buffer.exists_write_iff.mpr
        (show 0 + header.bytes.length ≤ buf.length by rw [loaded.fits.length_bytes]; omega)
      refine ⟨buf', ?_, (Buffer.length_of_write writes).trans room, nofun⟩
      unfold iotLogFileLoadOldData
      simp only [Option.bind_eq_bind, Option.bind_some, Option.pure_def, writes, offset]

/-- Where the next byte goes after `n` more. -/
def nextPos (cfg : FlashConfig) (pos n : Nat) : Nat :=
  if pos + n < cfg.maxLogSize then pos + n else pos + n - cfg.maxLogSize

/-- The header that is written after `n` bytes. -/
theorem Loaded.updated (loaded : Loaded cfg mem history state header pos) {n : Nat}
    (fits : n ≤ cfg.ramBufSize) :
    (updatedHeader cfg header n).HasMagic ∧ (updatedHeader cfg header n).Fits ∧
      (updatedHeader cfg header n).sector.offset < cfg.sectorSize ∧
      (updatedHeader cfg header n).sector.num * cfg.sectorSize +
          (updatedHeader cfg header n).sector.offset =
        cfg.flashAddr + headerSize + nextPos cfg pos n ∧
      nextPos cfg pos n < cfg.maxLogSize ∧
      (updatedHeader cfg header n).writtenSize =
        min (history.length + n) cfg.maxLogSize := by
  have ram := cfg.ramFits
  have two := cfg.twoSectors
  have space := cfg.addressable
  have size := cfg.maxLogSize_eq
  have area : cfg.maxAddr = cfg.flashAddr + cfg.flashSize := rfl
  have tail := loaded.tail
  have place := loaded.place
  have written := loaded.written
  have positive : 0 < cfg.sectorSize := Nat.lt_of_lt_of_le (by decide) cfg.header_lt
  have addr : iotLogFileSectorToAddr cfg header.sector.num header.sector.offset =
      cfg.flashAddr + headerSize + pos := tail
  -- Both cases of the source give a sector with this place in it.
  have sector : (updatedHeader cfg header n).sector.offset < cfg.sectorSize ∧
      (updatedHeader cfg header n).sector.num * cfg.sectorSize +
          (updatedHeader cfg header n).sector.offset =
        cfg.flashAddr + headerSize + nextPos cfg pos n := by
    unfold nextPos
    by_cases stays : pos + n < cfg.maxLogSize
    · have sectorEq : (updatedHeader cfg header n).sector =
          iotLogFileAddrToSector cfg (cfg.flashAddr + headerSize + pos + n) := by
        dsimp only [updatedHeader]
        rw [addr, if_neg (by omega)]
      rw [sectorEq, if_pos stays]
      dsimp only [iotLogFileAddrToSector]
      refine ⟨Nat.mod_lt _ positive, ?_⟩
      rw [Nat.div_add_mod']
      omega
    · have sectorEq : (updatedHeader cfg header n).sector =
          ⟨cfg.firstSector,
            (cfg.flashAddr + headerSize + pos + n + headerSize) % cfg.sectorSize⟩ := by
        dsimp only [updatedHeader]
        rw [addr, if_pos (by omega)]
        rfl
      obtain ⟨m, sectors⟩ : ∃ m, m * cfg.sectorSize = cfg.maxAddr := ⟨_, cfg.maxAddr_aligned⟩
      have behind : cfg.flashAddr + headerSize + pos + n + headerSize =
          (pos + n - cfg.maxLogSize + headerSize) + m * cfg.sectorSize := by omega
      have first : cfg.firstSector * cfg.sectorSize = cfg.flashAddr :=
        Nat.div_mul_cancel cfg.addrAligned
      rw [sectorEq, if_neg stays]
      dsimp only
      rw [behind, Nat.add_mul_mod_self_right, Nat.mod_eq_of_lt (by omega), first]
      exact ⟨by omega, by omega⟩
  have next : nextPos cfg pos n < cfg.maxLogSize := by
    unfold nextPos
    split
    · assumption
    · omega
  have most : (updatedHeader cfg header n).writtenSize =
      min (history.length + n) cfg.maxLogSize := by
    dsimp only [updatedHeader]
    split
    · omega
    · omega
  have num := Nat.le_mul_of_pos_right (updatedHeader cfg header n).sector.num positive
  obtain ⟨below, place'⟩ := sector
  refine ⟨loaded.magic, ⟨loaded.fits.magic, loaded.fits.fileSize, by omega, by omega, by omega,
    loaded.fits.checksum⟩, below, place', next, most⟩

/-- The bytes are stored from the position on, round the ring. -/
theorem Loaded.stored_forward (loaded : Loaded cfg mem history state header pos)
    {buf buf' data : List UInt8} {mem' : Nat → UInt8} {next : Nat}
    (fits : data.length ≤ cfg.ramBufSize)
    (copies : Buffer.write buf header.sector.offset data = some buf')
    (high : header.sector.num * cfg.sectorSize + cfg.sectorSize ≤ cfg.maxAddr)
    (wrote : WroteData cfg buf' (header.sector.offset + data.length)
      (header.sector.num * cfg.sectorSize) next mem mem') {i : Nat} (below : i < data.length) :
    data[i]? = some (mem' (cfg.flashAddr + headerSize + Ring.forward cfg.maxLogSize pos i)) := by
  have ram := cfg.ramFits
  have two := cfg.twoSectors
  have size := cfg.maxLogSize_eq
  have area : cfg.maxAddr = cfg.flashAddr + cfg.flashSize := rfl
  have tail := loaded.tail
  have place := loaded.place
  have inSector := loaded.offset
  have copied := Buffer.getElem?_of_write copies (header.sector.offset + i)
  rw [if_pos (by omega), Nat.add_sub_cancel_left] at copied
  rw [← copied]
  unfold Ring.forward
  by_cases here : header.sector.offset + i < cfg.sectorSize
  · rw [if_pos (by omega), wrote.sector _ here]
    congr 2
    omega
  · rw [wrote.rest _ (by omega) (by omega)]
    rcases wrote.continues with ⟨end_, start⟩ | ⟨more, start⟩
    · rw [if_neg (by omega)]
      congr 2
      omega
    · rw [if_pos (by omega)]
      congr 2
      omega

/-- The other places of the ring keep their bytes. -/
theorem Loaded.kept_elsewhere (loaded : Loaded cfg mem history state header pos)
    {buf buf' data : List UInt8} {mem' : Nat → UInt8} {next p : Nat}
    (old : ∀ k < cfg.sectorSize, buf[k]? = some (mem (header.sector.num * cfg.sectorSize + k)))
    (copies : Buffer.write buf header.sector.offset data = some buf')
    (wrote : WroteData cfg buf' (header.sector.offset + data.length)
      (header.sector.num * cfg.sectorSize) next mem mem')
    (inside : p < cfg.maxLogSize)
    (elsewhere : ∀ i < data.length, Ring.forward cfg.maxLogSize pos i ≠ p) :
    mem' (cfg.flashAddr + headerSize + p) = mem (cfg.flashAddr + headerSize + p) := by
  have ram := cfg.ramFits
  have two := cfg.twoSectors
  have size := cfg.maxLogSize_eq
  have area : cfg.maxAddr = cfg.flashAddr + cfg.flashSize := rfl
  have tail := loaded.tail
  have place := loaded.place
  have inSector := loaded.offset
  by_cases sector : header.sector.num * cfg.sectorSize ≤ cfg.flashAddr + headerSize + p ∧
      cfg.flashAddr + headerSize + p < header.sector.num * cfg.sectorSize + cfg.sectorSize
  · obtain ⟨k, address⟩ : ∃ k, cfg.flashAddr + headerSize + p =
        header.sector.num * cfg.sectorSize + k := ⟨_, (Nat.add_sub_cancel' sector.1).symm⟩
    have copied := Buffer.getElem?_of_write copies k
    rw [wrote.sector k (by omega), old k (by omega)] at copied
    split at copied
    case isTrue changed =>
      refine absurd ?_ (elsewhere (k - header.sector.offset) (by omega))
      unfold Ring.forward
      rw [if_pos (by omega)]
      omega
    case isFalse unchanged =>
      rw [address]
      exact Option.some.inj copied
  · apply wrote.kept _ (by omega)
    by_contra written
    refine absurd ?_ (elsewhere
      (cfg.flashAddr + headerSize + p - next + cfg.sectorSize - header.sector.offset)
      (by omega))
    unfold Ring.forward
    rcases wrote.continues with ⟨end_, start⟩ | ⟨more, start⟩
    · rw [if_neg (by omega)]
      omega
    · rw [if_pos (by omega)]
      omega

/-- The bytes written behind the header are appended to the ring. -/
theorem Loaded.ring_append (loaded : Loaded cfg mem history state header pos)
    {buf buf' data : List UInt8} {mem' : Nat → UInt8} {next : Nat}
    (fits : data.length ≤ cfg.ramBufSize)
    (old : state = .normal → ∀ k < cfg.sectorSize,
      buf[k]? = some (mem (header.sector.num * cfg.sectorSize + k)))
    (copies : Buffer.write buf header.sector.offset data = some buf')
    (high : header.sector.num * cfg.sectorSize + cfg.sectorSize ≤ cfg.maxAddr)
    (wrote : WroteData cfg buf' (header.sector.offset + data.length)
      (header.sector.num * cfg.sectorSize) next mem mem') :
    Ring.Holds (fun p => mem' (cfg.flashAddr + headerSize + p)) cfg.maxLogSize
      (nextPos cfg pos data.length) (history ++ data) := by
  have ram := cfg.ramFits
  have two := cfg.twoSectors
  have size := cfg.maxLogSize_eq
  have tail := loaded.tail
  have stored : ∀ i < data.length, data[i]? =
      some (mem' (cfg.flashAddr + headerSize + Ring.forward cfg.maxLogSize pos i)) :=
    fun _ below => loaded.stored_forward fits copies high wrote below
  have step : nextPos cfg pos data.length = pos + data.length ∧
      pos + data.length ≤ cfg.maxLogSize ∨
      nextPos cfg pos data.length + cfg.maxLogSize = pos + data.length := by
    unfold nextPos
    split
    · exact .inl ⟨rfl, by omega⟩
    · right
      omega
  cases state with
  | noMagic =>
      obtain ⟨rfl, rfl, -⟩ := loaded.fresh rfl
      exact (Ring.holds_nil _ _).append (by omega) stored (fun _ _ _ => rfl) step
  | normal =>
      refine (loaded.ring rfl).append (by omega) stored ?_ step
      intro p inside elsewhere
      exact loaded.kept_elsewhere (old rfl) copies wrote inside elsewhere

/-- The sector of the next byte lies in the area. -/
theorem Loaded.sector_inside (loaded : Loaded cfg mem history state header pos) :
    cfg.flashAddr ≤ header.sector.num * cfg.sectorSize ∧
      header.sector.num * cfg.sectorSize + cfg.sectorSize ≤ cfg.maxAddr := by
  have size := cfg.maxLogSize_eq
  have area : cfg.maxAddr = cfg.flashAddr + cfg.flashSize := rfl
  have tail := loaded.tail
  have place := loaded.place
  have inSector := loaded.offset
  obtain ⟨m, sectors⟩ : ∃ m, m * cfg.sectorSize = cfg.maxAddr := ⟨_, cfg.maxAddr_aligned⟩
  have first : cfg.firstSector * cfg.sectorSize = cfg.flashAddr :=
    Nat.div_mul_cancel cfg.addrAligned
  constructor
  · have least : cfg.firstSector ≤ header.sector.num := by
      by_contra below
      have most := Nat.mul_le_mul_right cfg.sectorSize
        (show header.sector.num + 1 ≤ cfg.firstSector by omega)
      rw [Nat.succ_mul] at most
      omega
    have scaled := Nat.mul_le_mul_right cfg.sectorSize least
    omega
  · have most : header.sector.num + 1 ≤ m := by
      by_contra above
      have least := Nat.mul_le_mul_right cfg.sectorSize (show m ≤ header.sector.num by omega)
      omega
    have scaled := Nat.mul_le_mul_right cfg.sectorSize most
    rw [Nat.succ_mul] at scaled
    omega

theorem LogBuf.read_pending {size : Nat} {b : LogBuf size} (inside : b.cnt ≤ size) :
    Buffer.read b.buf.toList 0 b.cnt = some b.pending ∧ b.pending.length = b.cnt := by
  refine ⟨?_, ?_⟩
  · rw [Buffer.read_eq_some_iff, Vector.length_toList, List.drop_zero]
    exact ⟨by omega, rfl⟩
  · rw [LogBuf.pending, List.length_take, Vector.length_toList]
    omega

/-- One run of `_iot_log_file_manager` appends the buffer to the log. -/
theorem manager_eq (lawful : drv.Lawful cfg cell) {log : FlashLog F}
    (room : log.fileBuf.length = 2 * cfg.sectorSize)
    (area : Area cfg (cell log.flash) history) {ctx : Ctx cfg.ramBufSize}
    (inside : ctx.logBuf.cnt ≤ cfg.ramBufSize) :
    ∃ log', iotLogFileManager cfg drv log ctx = some (log', iotLogFileClearBuf ctx) ∧
      log'.fileBuf.length = 2 * cfg.sectorSize ∧
      ∃ header pos, Logged cfg (cell log'.flash) (history ++ ctx.logBuf.pending) header pos := by
  obtain ⟨read, pendingLength⟩ := LogBuf.read_pending inside
  have ram := cfg.ramFits
  have small := cfg.header_lt
  obtain ⟨state, header, pos, load, loaded⟩ := loadHeader_eq lawful area
  have inSector := loaded.offset
  obtain ⟨low, high⟩ := loaded.sector_inside
  obtain ⟨buf, loadOld, length, old⟩ := loaded.loadOldData lawful rfl room low high
  obtain ⟨buf', copies⟩ := Buffer.exists_write_iff.mpr
    (show header.sector.offset + ctx.logBuf.pending.length ≤ buf.length by omega)
  have length' := Buffer.length_of_write copies
  obtain ⟨flash, next, writes, wrote⟩ := writeData_eq lawful log.flash low high
    (show buf'.length = 2 * cfg.sectorSize by omega)
    (show headerSize + (header.sector.offset + ctx.logBuf.cnt) ≤ 2 * cfg.sectorSize by omega)
  obtain ⟨magic, fits, offset, tail, place, written⟩ := loaded.updated inside
  obtain ⟨flash', buf'', writesHeader, length'', after⟩ := writeHeader_eq lawful flash
    fits (show cfg.sectorSize ≤ buf'.length by omega)
  refine ⟨⟨updatedHeader cfg header ctx.logBuf.cnt, buf'', flash'⟩, ?_, by dsimp only; omega,
    updatedHeader cfg header ctx.logBuf.cnt, nextPos cfg pos ctx.logBuf.cnt, ?_, magic, fits,
    offset, tail, place, ?_, ?_⟩
  · unfold iotLogFileManager iotLogFileUpdateHeader
    rw [load]
    simp only [Option.bind_eq_bind, Option.bind_some, Option.pure_def, loadOld, read, copies,
      writes, writesHeader]
  · dsimp only
    rw [after, ← fits.length_bytes, slice_patch]
  · rw [List.length_append, pendingLength, written]
  · rw [← pendingLength] at wrote ⊢
    have ring := loaded.ring_append (by omega) old copies high wrote
    dsimp only
    rw [after]
    convert ring using 3 with p
    rw [patch_outside]
    rw [fits.length_bytes]
    omega

/-- Runs of `_iot_log_file_manager` one after another, each with the context it finds. -/
def manageAll (cfg : FlashConfig) (drv : FlashDriver F) (log : FlashLog F) :
    List (Ctx cfg.ramBufSize) → Option (FlashLog F)
  | [] => some log
  | ctx :: runs => do
      let (log, _) ← iotLogFileManager cfg drv log ctx
      manageAll cfg drv log runs

/-- What the runs append. -/
def synced {size : Nat} (runs : List (Ctx size)) : List UInt8 :=
  runs.flatMap fun ctx => ctx.logBuf.pending

/-- The area stays a log of everything that was synced. -/
theorem manageAll_eq (lawful : drv.Lawful cfg cell) {log : FlashLog F}
    (room : log.fileBuf.length = 2 * cfg.sectorSize)
    (area : Area cfg (cell log.flash) history) {runs : List (Ctx cfg.ramBufSize)}
    (inside : ∀ ctx ∈ runs, ctx.logBuf.cnt ≤ cfg.ramBufSize) :
    ∃ log', manageAll cfg drv log runs = some log' ∧
      (runs = [] ∧ log' = log ∨
        ∃ header pos, Logged cfg (cell log'.flash) (history ++ synced runs) header pos) := by
  induction runs generalizing log history with
  | nil => exact ⟨log, rfl, .inl ⟨rfl, rfl⟩⟩
  | cons ctx runs ih =>
      obtain ⟨log₁, run, room₁, header, pos, logged⟩ :=
        manager_eq lawful room area (inside ctx List.mem_cons_self)
      obtain ⟨log', rest, result⟩ := ih room₁ (.inr ⟨header, pos, logged⟩)
        fun other member => inside other (List.mem_cons_of_mem ctx member)
      refine ⟨log', ?_, .inr ?_⟩
      · rw [manageAll, run]
        exact rest
      · have split : history ++ synced (ctx :: runs) =
            history ++ ctx.logBuf.pending ++ synced runs := by
          rw [synced, List.flatMap_cons, List.append_assoc]
          rfl
        rw [split]
        obtain ⟨rfl, rfl⟩ | later := result
        · rw [synced, List.flatMap_nil, List.append_nil]
          exact ⟨header, pos, logged⟩
        · exact later

/-- The handle of the file of a log. -/
def Logged.handle (cfg : FlashConfig) (history : List UInt8) (pos : Nat) : Handle :=
  ⟨cfg.flashAddr + headerSize, cfg.flashAddr + headerSize + pos,
    cfg.flashAddr + headerSize + if history.length < cfg.maxLogSize then 0 else pos,
    min history.length cfg.maxLogSize, cfg.maxLogSize, .flashWithRam⟩

/-- Opening the file of a log. -/
theorem Logged.open_eq (logged : Logged cfg mem history header pos)
    (lawful : drv.Lawful cfg cell) {flash : F} (same : cell flash = mem)
    (ctx : Ctx cfg.ramBufSize) :
    iotLogFileOpenFlashWithRam cfg drv true flash ctx =
      (some (Logged.handle cfg history pos, min history.length cfg.maxLogSize),
        iotLogFileOpenState true ctx) := by
  have size := cfg.maxLogSize_eq
  have area : cfg.maxAddr = cfg.flashAddr + cfg.flashSize := rfl
  have load : iotLogFileLoadHeader cfg drv flash =
      some (.normal, { header with fileSize := cfg.flashSize }) := by
    unfold iotLogFileLoadHeader
    rw [lawful.read flash cfg.flashAddr headerSize (Nat.le_refl _) (by omega), same]
    simp only [Option.bind_eq_bind, Option.bind_some, Option.pure_def]
    rw [logged.stored, logged.fits.ofBytes_bytes, if_pos logged.magic]
  have start : (if min history.length cfg.maxLogSize < cfg.maxLogSize then
        cfg.flashAddr + headerSize else cfg.flashAddr + headerSize + pos) =
      cfg.flashAddr + headerSize + if history.length < cfg.maxLogSize then 0 else pos := by
    by_cases short : history.length < cfg.maxLogSize
    · rw [if_pos (by omega), if_pos short, Nat.add_zero]
    · rw [if_neg (by omega), if_neg short]
  unfold iotLogFileOpenFlashWithRam iotLogFileSectorToAddr
  rw [if_pos rfl, load]
  simp only [logged.tail, logged.written, start, Logged.handle]

/-- The bytes behind the header can be read at every offset. -/
theorem readable_flash (lawful : drv.Lawful cfg cell) {flash : F} (same : cell flash = mem)
    {logSize : Nat} (inside : logSize ≤ cfg.maxLogSize) :
    Readable (drv.readFlash flash) (cfg.flashAddr + headerSize) logSize
      fun p => mem (cfg.flashAddr + headerSize + p) := by
  have size := cfg.maxLogSize_eq
  have area : cfg.maxAddr = cfg.flashAddr + cfg.flashSize := rfl
  intro offset n fits
  rw [lawful.read flash _ _ (by omega) (by omega), same]
  congr 1
  apply List.map_congr_left
  intro i _
  rw [Nat.add_assoc]

/-- Opening the file of a log and reading it. -/
theorem Logged.readAll (logged : Logged cfg mem history header pos)
    (lawful : drv.Lawful cfg cell) {flash : F} (same : cell flash = mem)
    (ctx : Ctx cfg.ramBufSize) :
    ∃ handle opened, iotLogFileOpenFlashWithRam cfg drv true flash ctx =
        (some (handle, min history.length cfg.maxLogSize), opened) ∧
      ∀ sizes : List Nat, sizes.sum ≤ min history.length cfg.maxLogSize →
        ∃ handle' pieces,
          readAll (iotLogReadBytes (drv.readFlash flash) opened handle.fileType) handle sizes =
            some (handle', pieces) ∧
          pieces.map List.length = sizes ∧
          pieces.flatten = (history.drop
            (history.length - min history.length cfg.maxLogSize)).take sizes.sum := by
  have place := logged.place
  refine ⟨_, _, logged.open_eq lawful same ctx, ?_⟩
  intro sizes total
  have inside : (if history.length < cfg.maxLogSize then 0 else pos) ≤
      min history.length cfg.maxLogSize := by
    split
    · exact Nat.zero_le _
    · omega
  obtain ⟨handle', pieces, read, lengths, joined⟩ :=
    @readAll_eq_window _ (Logged.handle cfg history pos) _ _ _
      (readable_flash lawful same (Nat.min_le_right _ _)) rfl inside total
  exact ⟨handle', pieces, read, lengths, joined.trans (logged.ring.window_eq total)⟩

/-- Opening fails on an area without a log. -/
theorem open_blank (lawful : drv.Lawful cfg cell) {flash : F} (blank : Blank cfg (cell flash))
    (allocated : Bool) (ctx : Ctx cfg.ramBufSize) :
    (iotLogFileOpenFlashWithRam cfg drv allocated flash ctx).1 = none := by
  have size := cfg.maxLogSize_eq
  have area : cfg.maxAddr = cfg.flashAddr + cfg.flashSize := rfl
  have load : iotLogFileLoadHeader cfg drv flash = some (.noMagic, iotLogFileInitHeader cfg
      (Header.ofBytes (slice (cell flash) cfg.flashAddr headerSize))) := by
    unfold iotLogFileLoadHeader
    rw [lawful.read flash cfg.flashAddr headerSize (Nat.le_refl _) (by omega)]
    simp only [Option.bind_eq_bind, Option.bind_some, Option.pure_def]
    rw [if_neg blank]
  unfold iotLogFileOpenFlashWithRam
  rw [load]
  cases allocated with
  | false => rfl
  | true => rfl

/-- After any runs on an area that was blank or held a log, the header is intact and the file
reads as the last bytes synced, unless nothing was ever written and there is no file. -/
theorem readAll_manageAll (lawful : drv.Lawful cfg cell) {log : FlashLog F}
    (room : log.fileBuf.length = 2 * cfg.sectorSize)
    (area : Area cfg (cell log.flash) history) {runs : List (Ctx cfg.ramBufSize)}
    (inside : ∀ ctx ∈ runs, ctx.logBuf.cnt ≤ cfg.ramBufSize) (ctx : Ctx cfg.ramBufSize) :
    ∃ log', manageAll cfg drv log runs = some log' ∧
      (runs = [] ∧ Blank cfg (cell log'.flash) ∧
          (iotLogFileOpenFlashWithRam cfg drv true log'.flash ctx).1 = none ∨
        (Header.ofBytes (slice (cell log'.flash) cfg.flashAddr headerSize)).HasMagic ∧
        ∃ handle filesize opened,
          iotLogFileOpenFlashWithRam cfg drv true log'.flash ctx =
            (some (handle, filesize), opened) ∧
          filesize = min (history ++ synced runs).length (cfg.flashSize - headerSize) ∧
          ∀ sizes : List Nat, sizes.sum ≤ filesize →
            ∃ handle' pieces,
              readAll (iotLogReadBytes (drv.readFlash log'.flash) opened handle.fileType) handle
                sizes = some (handle', pieces) ∧
              pieces.map List.length = sizes ∧
              pieces.flatten = ((history ++ synced runs).drop
                ((history ++ synced runs).length - filesize)).take sizes.sum) := by
  have logs : ∀ {flash : F} {all : List UInt8} {header : Header} {pos : Nat},
      Logged cfg (cell flash) all header pos →
      (Header.ofBytes (slice (cell flash) cfg.flashAddr headerSize)).HasMagic := by
    intro flash all header pos logged
    rw [logged.stored, logged.fits.ofBytes_bytes]
    exact logged.magic
  obtain ⟨log', run, ⟨rfl, rfl⟩ | ⟨header, pos, logged⟩⟩ := manageAll_eq lawful room area inside
  · obtain ⟨blank, rfl⟩ | ⟨header, pos, logged⟩ := area
    · exact ⟨log', run, .inl ⟨rfl, blank, open_blank lawful blank true ctx⟩⟩
    · obtain ⟨handle, opened, opens, reads⟩ := logged.readAll lawful rfl ctx
      have all : history ++ synced ([] : List (Ctx cfg.ramBufSize)) = history :=
        List.append_nil history
      rw [all]
      exact ⟨log', run, .inr ⟨logs logged, handle, _, opened, opens, rfl, reads⟩⟩
  · obtain ⟨handle, opened, opens, reads⟩ := logged.readAll lawful rfl ctx
    exact ⟨log', run, .inr ⟨logs logged, handle, _, opened, opens, rfl, reads⟩⟩

end Manager

/-- A flash in which a write can only clear bits. -/
def norFlash (sectorSize : Nat) : FlashDriver (Nat → UInt8) where
  readFlash flash addr n := some (slice flash addr n)
  eraseSector flash num := some (patch flash (num * sectorSize) (List.replicate sectorSize 255))
  writeFlash flash addr data := some fun a => flash a &&& patch (fun _ => 255) addr data a

private theorem and_ones (b : UInt8) : b &&& 255 = b ∧ 255 &&& b = b := by
  have ones : (255 : UInt8) = -1 := rfl
  rw [ones]
  exact ⟨UInt8.and_neg_one, UInt8.neg_one_and⟩

theorem norFlash_lawful (cfg : FlashConfig) :
    (norFlash cfg.sectorSize).Lawful cfg fun flash => flash := by
  refine ⟨fun _ _ _ _ _ => rfl, fun _ _ _ _ => ⟨_, rfl, rfl⟩, ?_⟩
  intro flash addr data _ _ erased
  refine ⟨_, rfl, ?_⟩
  funext a
  by_cases inside : addr ≤ a ∧ a < addr + data.length
  · obtain ⟨k, rfl⟩ : ∃ k, a = addr + k := ⟨a - addr, by omega⟩
    have below : k < data.length := by omega
    have ones : (slice flash addr data.length)[k]? = some (flash (addr + k)) := getElem?_slice below
    rw [erased, List.getElem?_replicate, if_pos below] at ones
    have left := getElem?_eq_patch (fun _ => 255) addr below
    have right := getElem?_eq_patch flash addr below
    rw [← Option.some.inj ones, (and_ones _).2]
    exact Option.some.inj (left.symm.trans right)
  · rw [patch_outside (by omega), patch_outside (by omega), (and_ones _).1]

/-- Two sectors of 32 bytes, with a buffer of four bytes. -/
def smallArea : FlashConfig where
  ramBufSize := 4
  flashAddr := 32
  flashSize := 64
  sectorSize := 32
  ramPositive := by decide
  addrAligned := by decide
  sizeAligned := by decide
  twoSectors := by decide
  ramFits := by decide
  addressable := by decide

/-- A log that starts in a blank flash and gets three bytes. -/
theorem readAll_manageAll_blank :
    ∃ log', manageAll smallArea (norFlash 32)
        ⟨⟨[], 0, 0, ⟨0, 0⟩, 0⟩, List.replicate 64 0, fun _ => 255⟩
        [⟨⟨false, 3, #v[1, 2, 3, 4], false⟩, false, false⟩] = some log' ∧
      ∃ handle filesize opened,
        iotLogFileOpenFlashWithRam smallArea (norFlash 32) true log'.flash (iotLogFileInit 4) =
          (some (handle, filesize), opened) ∧ filesize = 3 ∧
        ∃ handle' pieces,
          readAll (iotLogReadBytes ((norFlash 32).readFlash log'.flash) opened handle.fileType)
            handle [1, 2] = some (handle', pieces) ∧
          pieces.flatten = [1, 2, 3] := by
  have blank : Blank smallArea fun _ => 255 := by decide
  obtain ⟨log', run, ⟨impossible, -⟩ | ⟨-, handle, filesize, opened, opens, size, reads⟩⟩ :=
    @readAll_manageAll _ _ _ _ _ (norFlash_lawful smallArea)
      ⟨⟨[], 0, 0, ⟨0, 0⟩, 0⟩, List.replicate 64 0, fun _ => 255⟩ (by decide)
      (.inl ⟨blank, rfl⟩) [⟨⟨false, 3, #v[1, 2, 3, 4], false⟩, false, false⟩] (by decide)
      (iotLogFileInit 4)
  · cases impossible
  · have three : filesize = 3 := size
    subst three
    obtain ⟨handle', pieces, read, -, joined⟩ := reads [1, 2] (by decide)
    exact ⟨log', run, handle, 3, opened, opens, rfl, handle', pieces, read, joined⟩

end StDevice.LogFile
