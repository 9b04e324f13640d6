import StDevice.Foundation.CString
import StDevice.Mqtt.Packet

/-!
# Text items of NV memory

`iot_nv_get_device_id`, `iot_nv_get_serial_number` and `iot_nv_get_misc_info` read an item
into a buffer of `DATA_SIZE` bytes and measure it there with `strlen`. The item comes from
a file of the POSIX port, of which no more than IOT_SECURITY_STORAGE_BUF_MAX_LEN bytes are
read, or, for the data of the manufacturer in a build without an STNV partition, from the
device information.

`_iot_nv_io_storage` terminates the text only where it is shorter than the buffer. Text
that fills the buffer is measured past its end.
-/

namespace StDevice.NvData

/-- The items that are read as text. -/
inductive TextItem where
  | deviceId | miscInfo | serialNum
  deriving DecidableEq, Repr

/-- The calls on the way that may fail. -/
inductive Fallible where
  | mallocData | storageInit | fsOpen | mallocFsBuf | fsRead | reallocFsBuf | fsClose
  | readDeviceIdentity | mallocNewBuff
  deriving DecidableEq, Repr

/-- The build and the results of the calls that may fail. -/
structure TextPlatform where
  /-- CONFIG_STDK_IOT_CORE_SUPPORT_STNV_PARTITION -/
  stnvPartition : Bool
  succeeds : Fallible → Bool

inductive StorageTarget where
  | nv | factory | di
  deriving DecidableEq, Repr

inductive ReadError where
  | notExist | dataError | fsBuffer
  deriving DecidableEq, Repr

/-- IOT_SECURITY_STORAGE_BUF_MAX_LEN. -/
def storageBufMaxLen : Nat := 2048

section Reading

variable (p : TextPlatform)

/-- `_iot_security_be_bsp_fs_storage_id2target`. -/
def storageId2target : TextItem → StorageTarget
  | .deviceId => .nv
  | .miscInfo => .nv
  | .serialNum => if p.stnvPartition then .factory else .di

/-- `_iot_security_be_bsp_fs_load_from_nv`, for what is in the file. -/
def loadFromNv : Option (List UInt8) → Except ReadError (List UInt8)
  | none => .error .notExist
  | some file =>
      if p.succeeds .fsOpen && p.succeeds .mallocFsBuf && p.succeeds .fsRead &&
          p.succeeds .reallocFsBuf && p.succeeds .fsClose then .ok (file.take storageBufMaxLen)
      else .error .dataError

/-- `iot_nv_get_data_from_device_info`. -/
def getDataFromDeviceInfo : Option (List UInt8) → Except ReadError (List UInt8)
  | none => .error .dataError
  | some value => if p.succeeds .readDeviceIdentity then .ok value else .error .dataError

/-- `iot_security_storage_read` through `_iot_security_be_bsp_fs_load`. -/
def iotSecurityStorageRead (item : TextItem) (stored : Option (List UInt8)) :
    Except ReadError (List UInt8) :=
  match storageId2target p item with
  | .nv => loadFromNv p stored
  | .factory => loadFromNv p stored
  | .di => getDataFromDeviceInfo p stored

/-- The cells of the buffer after `memcpy` and, where there is room, the terminator. Cells
without a value were never written. -/
def filled (dataLen : Nat) (data : List UInt8) : List (Option UInt8) :=
  data.map some ++
    if data.length < dataLen then some 0 :: List.replicate (dataLen - data.length - 1) none else []

/-- `_iot_nv_read_data` into a fresh buffer. -/
def iotNvReadText (item : TextItem) (dataLen : Nat) (stored : Option (List UInt8)) :
    Except ReadError (List (Option UInt8)) :=
  if p.succeeds .storageInit then do
    let data ← iotSecurityStorageRead p item stored
    if dataLen < data.length then .error .fsBuffer else .ok (filled dataLen data)
  else .error .dataError

/-- `strlen`, as far as cells with a value go. -/
def strlenCells : List (Option UInt8) → Option Nat
  | some b :: cells => if b = 0 then some 0 else (strlenCells cells).map (· + 1)
  | _ => none

/-- What a getter does. -/
inductive TextResult where
  | error
  | text (value : List UInt8) (len : Nat)
  /-- a cell outside the buffer or without a value is read -/
  | undefined
  deriving DecidableEq, Repr

/-- The body that the getters share. -/
def getText (item : TextItem) (dataSize : Nat) (stored : Option (List UInt8)) : TextResult :=
  if p.succeeds .mallocData then
    match iotNvReadText p item dataSize stored with
    | .error _ => .error
    | .ok cells =>
        match strlenCells cells with
        | none => .undefined
        | some size =>
            if p.succeeds .mallocNewBuff then .text ((cells.take size).filterMap id) size
            else .error
  else .error

/-- `iot_nv_get_device_id`. -/
def iotNvGetDeviceId : Option (List UInt8) → TextResult := getText p .deviceId (128 + 1)

/-- `iot_nv_get_serial_number`. -/
def iotNvGetSerialNumber : Option (List UInt8) → TextResult := getText p .serialNum (30 + 1)

/-- `iot_nv_get_misc_info`. -/
def iotNvGetMiscInfo : Option (List UInt8) → TextResult := getText p .miscInfo (2048 + 1)

end Reading

/-! ## One getter -/

theorem strlenCells_terminated {data : List UInt8} (plain : 0 ∉ data)
    (rest : List (Option UInt8)) :
    strlenCells (data.map some ++ some 0 :: rest) = some data.length := by
  induction data with
  | nil => rfl
  | cons b data ih =>
      have nonzero : b ≠ 0 := fun nul => plain (nul ▸ List.mem_cons_self)
      have later : 0 ∉ data := fun inside => plain (List.mem_cons_of_mem _ inside)
      rw [List.map_cons, List.cons_append, strlenCells, if_neg nonzero, ih later]
      rfl

theorem strlenCells_unterminated {data : List UInt8} (plain : 0 ∉ data) :
    strlenCells (data.map some) = none := by
  induction data with
  | nil => rfl
  | cons b data ih =>
      have nonzero : b ≠ 0 := fun nul => plain (nul ▸ List.mem_cons_self)
      have later : 0 ∉ data := fun inside => plain (List.mem_cons_of_mem _ inside)
      rw [List.map_cons, strlenCells, if_neg nonzero, ih later]
      rfl

/-- The getter returns an error or exactly what is stored. -/
def Exact (stored : List UInt8) (result : TextResult) : Prop :=
  result = .error ∨ result = .text stored stored.length

theorem getText_of_read {p : TextPlatform} {item : TextItem} {dataSize : Nat}
    {stored : Option (List UInt8)} {data : List UInt8} (plain : 0 ∉ data)
    (loaded : iotSecurityStorageRead p item stored = .ok data)
    (ready : p.succeeds .mallocData = true ∧ p.succeeds .storageInit = true) :
    getText p item dataSize stored =
      if dataSize < data.length then .error
      else if data.length = dataSize then .undefined
      else if p.succeeds .mallocNewBuff then .text data data.length
      else .error := by
  have read : iotNvReadText p item dataSize stored =
      if dataSize < data.length then .error .fsBuffer else .ok (filled dataSize data) := by
    rw [iotNvReadText, if_pos ready.2, loaded]
    rfl
  rw [getText, if_pos ready.1, read]
  by_cases tooLong : dataSize < data.length
  · rw [if_pos tooLong, if_pos tooLong]
  · rw [if_neg tooLong, if_neg tooLong]
    by_cases fills : data.length = dataSize
    · have cells : filled dataSize data = data.map some := by
        rw [filled, if_neg (by omega), List.append_nil]
      simp only [cells, strlenCells_unterminated plain, if_pos fills]
    · have cells : filled dataSize data =
          data.map some ++ some 0 :: List.replicate (dataSize - data.length - 1) none := by
        rw [filled, if_pos (by omega)]
      have text : ((filled dataSize data).take data.length).filterMap id = data := by
        rw [cells, List.take_left' (List.length_map some), List.filterMap_map]
        exact List.filterMap_some
      have size : strlenCells (filled dataSize data) = some data.length := by
        rw [cells, strlenCells_terminated plain]
      simp only [if_neg fills, size, text]

/-- What reaches `_iot_nv_io_storage` of an item when nothing fails. -/
def loaded (stnvPartition : Bool) (item : TextItem) (stored : List UInt8) : List UInt8 :=
  if item = .serialNum ∧ stnvPartition = false then stored else stored.take storageBufMaxLen

theorem mem_of_mem_loaded {stnvPartition : Bool} {item : TextItem} {stored : List UInt8} {b : UInt8}
    (inside : b ∈ loaded stnvPartition item stored) : b ∈ stored := by
  unfold loaded at inside
  split at inside
  · exact inside
  · exact List.mem_of_mem_take inside

theorem storageRead_cases (p : TextPlatform) (item : TextItem) (stored : List UInt8) :
    iotSecurityStorageRead p item (some stored) = .ok (loaded p.stnvPartition item stored) ∨
      ∃ e, iotSecurityStorageRead p item (some stored) = .error e := by
  have file : loadFromNv p (some stored) = .ok (stored.take storageBufMaxLen) ∨
      ∃ e, loadFromNv p (some stored) = .error e := by
    rw [loadFromNv]
    split
    · exact .inl rfl
    · exact .inr ⟨_, rfl⟩
  cases item with
  | deviceId => exact file
  | miscInfo => exact file
  | serialNum =>
      cases partition : p.stnvPartition with
      | true =>
          simp only [iotSecurityStorageRead, storageId2target, partition]
          exact file
      | false =>
          simp only [iotSecurityStorageRead, storageId2target, partition, getDataFromDeviceInfo]
          cases p.succeeds .readDeviceIdentity with
          | true => exact .inl rfl
          | false => exact .inr ⟨_, rfl⟩

theorem storageRead_of_success (stnvPartition : Bool) (item : TextItem) (stored : List UInt8) :
    iotSecurityStorageRead ⟨stnvPartition, fun _ => true⟩ item (some stored) =
      .ok (loaded stnvPartition item stored) := by
  cases item with
  | deviceId => rfl
  | miscInfo => rfl
  | serialNum =>
      cases stnvPartition with
      | true => rfl
      | false => rfl

/-- Text of this size is refused, or read as it is and terminated. -/
def FitsBuffer (stored data : List UInt8) (dataSize : Nat) : Prop :=
  dataSize < data.length ∨ (data.length ≠ dataSize ∧ data = stored)

theorem exact_of_fitsBuffer {stored data : List UInt8} {dataSize : Nat}
    (fits : FitsBuffer stored data dataSize) (copied : Bool) :
    Exact stored (if dataSize < data.length then .error
      else if data.length = dataSize then .undefined
      else if copied then .text data data.length else .error) := by
  obtain tooLong | ⟨free, rfl⟩ := fits
  · rw [if_pos tooLong]
    exact .inl rfl
  · rw [if_neg free]
    split
    · exact .inl rfl
    · cases copied with
      | true => exact .inr rfl
      | false => exact .inl rfl

theorem fitsBuffer_of_exact {stored data : List UInt8} {dataSize : Nat}
    (exact : Exact stored (if dataSize < data.length then .error
      else if data.length = dataSize then .undefined else .text data data.length)) :
    FitsBuffer stored data dataSize := by
  by_cases tooLong : dataSize < data.length
  · exact .inl tooLong
  · rw [if_neg tooLong] at exact
    split at exact
    case isTrue => exact absurd exact (by simp [Exact])
    case isFalse free =>
      obtain impossible | same := exact
      · cases impossible
      · exact .inr ⟨free, (TextResult.text.inj same).1⟩

/-- A getter is exact whatever fails, exactly where it is when nothing fails. -/
theorem exact_iff (stored : CString) (item : TextItem) (dataSize : Nat) :
    (∀ p, Exact stored.bytes (getText p item dataSize (some stored.bytes))) ↔
      ∀ stnvPartition,
        FitsBuffer stored.bytes (loaded stnvPartition item stored.bytes) dataSize := by
  have plain (stnvPartition : Bool) : 0 ∉ loaded stnvPartition item stored.bytes :=
    fun inside => stored.noNul (mem_of_mem_loaded inside)
  constructor
  · intro exact stnvPartition
    have result := exact ⟨stnvPartition, fun _ => true⟩
    rw [getText_of_read (plain stnvPartition)
      (storageRead_of_success stnvPartition item stored.bytes) ⟨rfl, rfl⟩] at result
    exact fitsBuffer_of_exact result
  · intro fits p
    by_cases ready : p.succeeds .mallocData = true ∧ p.succeeds .storageInit = true
    · obtain read | ⟨e, failed⟩ := storageRead_cases p item stored.bytes
      · rw [getText_of_read (plain p.stnvPartition) read ready]
        exact exact_of_fitsBuffer (fits p.stnvPartition) _
      · refine .inl ?_
        rw [getText, if_pos ready.1, iotNvReadText, if_pos ready.2, failed]
        rfl
    · refine .inl ?_
      rw [getText]
      split
      case isTrue data =>
        rw [iotNvReadText, if_neg fun init => ready ⟨data, init⟩]
      case isFalse => rfl

/-! ## The three getters -/

theorem length_loaded (item : TextItem) (stored : List UInt8) (partition : Bool) :
    (loaded partition item stored).length =
      if item = .serialNum ∧ partition = false then stored.length
      else min storageBufMaxLen stored.length := by
  unfold loaded
  split
  · rfl
  · exact List.length_take

theorem loaded_of_le (item : TextItem) {stored : List UInt8} (short : stored.length ≤ 2048)
    (partition : Bool) : loaded partition item stored = stored := by
  unfold loaded
  split
  · rfl
  · exact List.take_of_length_le short

/-- Where the buffer is smaller than what is read of a file, only text of the size of the
buffer is not read as it is. -/
theorem exact_small_iff (stored : CString) (item : TextItem) {dataSize : Nat}
    (small : dataSize < storageBufMaxLen) :
    (∀ p, Exact stored.bytes (getText p item dataSize (some stored.bytes))) ↔
      stored.strlen ≠ dataSize := by
  have bound : storageBufMaxLen = 2048 := rfl
  rw [exact_iff]
  constructor
  · intro fits fills
    change stored.bytes.length = dataSize at fills
    have same := loaded_of_le item (show stored.bytes.length ≤ 2048 by omega) true
    obtain tooLong | ⟨free, -⟩ := fits true
    · rw [same] at tooLong
      omega
    · exact free (by rw [same, fills])
  · intro free partition
    change stored.bytes.length ≠ dataSize at free
    by_cases short : stored.bytes.length ≤ 2048
    · have same := loaded_of_le item short partition
      exact .inr ⟨by rwa [same], same⟩
    · refine .inl ?_
      rw [length_loaded]
      split <;> omega

theorem exact_miscInfo_iff (stored : CString) :
    (∀ p, Exact stored.bytes (getText p .miscInfo (2048 + 1) (some stored.bytes))) ↔
      stored.strlen ≤ 2048 := by
  rw [exact_iff]
  constructor
  · intro fits
    have length := length_loaded .miscInfo stored.bytes true
    rw [if_neg (by simp)] at length
    have bound : storageBufMaxLen = 2048 := rfl
    obtain tooLong | ⟨-, same⟩ := fits true
    · omega
    · rw [same] at length
      change stored.bytes.length ≤ 2048
      omega
  · intro short partition
    have same := loaded_of_le .miscInfo short partition
    change stored.bytes.length ≤ 2048 at short
    exact .inr ⟨by rw [same]; omega, same⟩

/-- The getters return an error or exactly what is stored, except for text that fills the
buffer and, for the misc info, text that is longer than what is read of a file. -/
theorem getters_exact_iff (stored : CString) :
    ((∀ p, Exact stored.bytes (iotNvGetDeviceId p (some stored.bytes))) ↔
      stored.strlen ≠ 129) ∧
    ((∀ p, Exact stored.bytes (iotNvGetSerialNumber p (some stored.bytes))) ↔
      stored.strlen ≠ 31) ∧
    ((∀ p, Exact stored.bytes (iotNvGetMiscInfo p (some stored.bytes))) ↔
      stored.strlen ≤ 2048) := by
  refine ⟨?_, ?_, exact_miscInfo_iff stored⟩
  · exact exact_small_iff stored .deviceId (by decide)
  · exact exact_small_iff stored .serialNum (by decide)

/-- A device id of 129 characters has no end in the buffer of 129 bytes. -/
theorem deviceId_129_unterminated :
    iotNvGetDeviceId ⟨false, fun _ => true⟩ (some (List.replicate 129 97)) = .undefined ∧
      ¬ Exact (List.replicate 129 97)
        (iotNvGetDeviceId ⟨false, fun _ => true⟩ (some (List.replicate 129 97))) := by
  have undefined : iotNvGetDeviceId ⟨false, fun _ => true⟩ (some (List.replicate 129 97)) =
      .undefined := by decide +kernel
  refine ⟨undefined, ?_⟩
  rw [undefined]
  simp [Exact]

end StDevice.NvData
