import Mathlib.Algebra.Ring.Nat
import Mathlib.Logic.Function.Basic
import StDevice.Foundation.Overlay

/-!
# The items of NV memory as files

Every operation on an NV item goes through the security library to the files of the POSIX
port: `_iot_nv_io_storage`, `iot_security_storage_read`, `_write` and `_remove`, the
software backend, `iot_bsp_fs_open` and its companions. A file that is opened for writing
is not emptied, and no more than IOT_SECURITY_STORAGE_BUF_MAX_LEN bytes of one are read.

The results of the system calls and of the allocations are given with each operation. The
security context is made anew for each of them, so that its checks do not fail.
-/

namespace StDevice.Security.Storage

open Overlay

/-- `iot_nvd_t`. -/
inductive NvdType where
  | unknown
  | wifiProvStatus | apSsid | apPass | apBssid | apAuthType
  | cloudProvStatus | serverUrl | serverPort | label
  | deviceId | miscInfo
  | privateKey | publicKey | rootCaCert | subCaCert | deviceCert | serialNum
  | max
  deriving DecidableEq, Repr

def NvdType.code : NvdType → Nat
  | .unknown => 0
  | .wifiProvStatus => 1
  | .apSsid => 2
  | .apPass => 3
  | .apBssid => 4
  | .apAuthType => 5
  | .cloudProvStatus => 6
  | .serverUrl => 7
  | .serverPort => 8
  | .label => 9
  | .deviceId => 10
  | .miscInfo => 11
  | .privateKey => 12
  | .publicKey => 13
  | .rootCaCert => 14
  | .subCaCert => 15
  | .deviceCert => 16
  | .serialNum => 17
  | .max => 18

/-- IOT_NVD_FACTORY. -/
def nvdFactory : Nat := NvdType.privateKey.code

/-- `iot_bsp_nv_get_data_path`. -/
def iotBspNvGetDataPath : NvdType → Option String
  | .wifiProvStatus => some "WifiProvStatus"
  | .apSsid => some "IotAPSSID"
  | .apPass => some "IotAPPASS"
  | .apBssid => some "IotAPBSSID"
  | .apAuthType => some "IotAPAuthType"
  | .cloudProvStatus => some "CloudProvStatus"
  | .serverUrl => some "ServerURL"
  | .serverPort => some "ServerPort"
  | .label => some "Label"
  | .deviceId => some "DeviceID"
  | .miscInfo => some "MiscInfo"
  | .privateKey => some "PrivateKey"
  | .publicKey => some "PublicKey"
  | .rootCaCert => some "RootCert"
  | .subCaCert => some "SubCert"
  | .deviceCert => some "DeviceCert"
  | .serialNum => some "SerialNum"
  | .unknown => none
  | .max => none

/-! ## The system calls -/

/-- How much of the data `write` takes. -/
inductive Written where
  | all
  | part (n : Nat)
  | failed
  deriving DecidableEq, Repr

/-- The results of the calls that an operation makes. -/
structure Outcome where
  /-- `iot_security_init` and `iot_security_storage_init` -/
  storageInit : Bool
  /-- what `open` returns -/
  fd : Int
  mallocFsBuf : Bool
  mallocData : Bool
  read : Bool
  realloc : Bool
  write : Written
  close : Bool
  remove : Bool
  deriving DecidableEq, Repr

/-- Nothing fails. -/
def Outcome.good : Outcome where
  storageInit := true
  fd := 3
  mallocFsBuf := true
  mallocData := true
  read := true
  realloc := true
  write := .all
  close := true
  remove := true

/-- The files, and how many descriptors are in use. -/
structure Disk where
  files : String → Option (List UInt8)
  descriptors : Nat

/-- A file is there and has a descriptor. -/
def Disk.opened (d : Disk) (filename : String) : Disk where
  files := Function.update d.files filename (some ((d.files filename).getD []))
  descriptors := d.descriptors + 1

inductive FsError where
  | noFile | openFail | readFail | writeFail | closeFail | removeFail
  deriving DecidableEq, Repr

section Port

variable (filename : String) (o : Outcome) (d : Disk)

/-- `iot_bsp_fs_open`, and for reading `iot_bsp_fs_open_from_stnv`. Descriptor 0 is taken for
a failure. -/
def iotBspFsOpen (readonly : Bool) : Except FsError Unit × Disk :=
  if readonly && (d.files filename).isNone then (.error .noFile, d)
  else if o.fd < 0 then (.error .openFail, d)
  else (if o.fd > 0 then .ok () else .error .openFail, d.opened filename)

/-- `iot_bsp_fs_read` of a file that was just opened. -/
def iotBspFsRead (length : Nat) : Except FsError (List UInt8) :=
  match d.files filename with
  | none => .error .noFile
  | some file =>
      if !o.mallocData then .error .openFail
      else if !o.read then .error .readFail
      else .ok (file.take length)

/-- What `write` puts into the file. -/
def Written.taken (data : List UInt8) : Written → List UInt8
  | .all => data
  | .part n => data.take n
  | .failed => []

/-- `write` returns the length it was given. -/
def Written.complete (data : List UInt8) : Written → Bool
  | .all => true
  | .part n => n == data.length
  | .failed => false

/-- `iot_bsp_fs_write` to a file that was just opened. -/
def iotBspFsWrite (data : List UInt8) : Except FsError Unit × Disk :=
  let file := overwrite (o.write.taken data) ((d.files filename).getD [])
  (if o.write.complete data then .ok () else .error .writeFail,
    { d with files := Function.update d.files filename (some file) })

/-- `iot_bsp_fs_close`. -/
def iotBspFsClose : Except FsError Unit × Disk :=
  (if o.close then .ok () else .error .closeFail, { d with descriptors := d.descriptors - 1 })

/-- `iot_bsp_fs_remove`. -/
def iotBspFsRemove : Except FsError Unit × Disk :=
  match d.files filename with
  | none => (.error .noFile, d)
  | some _ =>
      if o.remove then (.ok (), { d with files := Function.update d.files filename none })
      else (.error .removeFail, d)

end Port

/-! ## The software backend -/

inductive SecurityError where
  | invalidArgs | storageInvalidId | memAlloc | external
  | fsInvalidArgs | fsInvalidTarget | fsUnknownTarget | fsNotFound
  | fsOpen | fsRead | fsWrite | fsClose | fsRemove
  deriving DecidableEq, Repr

inductive StorageTarget where
  | unknown | nv | factory | di
  deriving DecidableEq, Repr

/-- The build, and the data of the manufacturer. -/
structure Platform where
  /-- CONFIG_STDK_IOT_CORE_SUPPORT_STNV_PARTITION -/
  stnvPartition : Bool
  /-- `iot_nv_get_data_from_device_info` -/
  externalDeviceInfoCb : NvdType → Except SecurityError (List UInt8)

section Backend

variable (p : Platform) (id : NvdType) (o : Outcome) (d : Disk)

/-- `_iot_security_be_bsp_fs_storage_id2target`. -/
def storageId2target : StorageTarget :=
  if id = .unknown then .unknown
  else if id.code < nvdFactory then .nv
  else if id.code < NvdType.max.code then (if p.stnvPartition then .factory else .di)
  else .unknown

/-- `_iot_security_be_bsp_fs_storage_id2filename`; every name has room in the buffer. -/
def storageId2filename : Except SecurityError String :=
  match iotBspNvGetDataPath id with
  | none => .error .storageInvalidId
  | some storageFile => .ok ("./" ++ storageFile)

/-- IOT_SECURITY_STORAGE_BUF_MAX_LEN. -/
def bufMaxLen : Nat := 2048

/-- `_iot_security_be_bsp_fs_load_from_nv` behind the opening of the file. -/
def loadOpened (filename : String) : Except SecurityError (List UInt8) × Disk :=
  if !o.mallocFsBuf then (.error .memAlloc, d)
  else
    match iotBspFsRead filename o d bufMaxLen with
    | .error .noFile => (.error .fsNotFound, (iotBspFsClose o d).2)
    | .error _ => (.error .fsRead, (iotBspFsClose o d).2)
    | .ok data =>
        if !o.realloc then (.error .memAlloc, (iotBspFsClose o d).2)
        else
          match iotBspFsClose o d with
          | (.error _, d) => (.error .fsClose, d)
          | (.ok _, d) => (.ok data, d)

/-- `_iot_security_be_bsp_fs_load_from_nv`. -/
def loadFromNv : Except SecurityError (List UInt8) × Disk :=
  match storageId2filename id with
  | .error e => (.error e, d)
  | .ok filename =>
      if nvdFactory ≤ id.code ∧ p.stnvPartition = false then (.error .fsOpen, d)
      else
        match iotBspFsOpen filename o d true with
        | (.error .noFile, d) => (.error .fsNotFound, d)
        | (.error _, d) => (.error .fsOpen, d)
        | (.ok _, d) => loadOpened o d filename

/-- `_iot_security_be_bsp_fs_load`. -/
def load : Except SecurityError (List UInt8) × Disk :=
  match storageId2target p id with
  | .nv => loadFromNv p id o d
  | .factory => loadFromNv p id o d
  | .di => (p.externalDeviceInfoCb id, d)
  | .unknown => (.error .fsUnknownTarget, d)

/-- `_iot_security_be_bsp_fs_store_to_nv`; the length is passed on as an `unsigned int`. -/
def storeToNv (data : List UInt8) : Except SecurityError Unit × Disk :=
  match storageId2filename id with
  | .error e => (.error e, d)
  | .ok filename =>
      match iotBspFsOpen filename o d false with
      | (.error _, d) => (.error .fsOpen, d)
      | (.ok _, d) =>
          match iotBspFsWrite filename o d (data.take (data.length % 2 ^ 32)) with
          | (.error _, d) => (.error .fsWrite, (iotBspFsClose o d).2)
          | (.ok _, d) =>
              match iotBspFsClose o d with
              | (.error _, d) => (.error .fsClose, d)
              | (.ok _, d) => (.ok (), d)

/-- `_iot_security_be_bsp_fs_store`. -/
def store (data : List UInt8) : Except SecurityError Unit × Disk :=
  if data = [] then (.error .fsInvalidArgs, d)
  else
    match storageId2target p id with
    | .nv => storeToNv id o d data
    | .factory => (.error .fsInvalidTarget, d)
    | .di => (.error .fsInvalidTarget, d)
    | .unknown => (.error .fsUnknownTarget, d)

/-- `_iot_security_be_bsp_fs_remove_from_nv`. -/
def removeFromNv : Except SecurityError Unit × Disk :=
  match storageId2filename id with
  | .error e => (.error e, d)
  | .ok filename =>
      match iotBspFsRemove filename o d with
      | (.error .noFile, d) => (.error .fsNotFound, d)
      | (.error _, d) => (.error .fsRemove, d)
      | (.ok _, d) => (.ok (), d)

/-- `_iot_security_be_bsp_fs_remove`. -/
def remove : Except SecurityError Unit × Disk :=
  match storageId2target p id with
  | .nv => removeFromNv id o d
  | .factory => (.error .fsInvalidTarget, d)
  | .di => (.error .fsInvalidTarget, d)
  | .unknown => (.error .fsUnknownTarget, d)

/-! ## The library -/

/-- `_iot_security_storage_set_storage_id` lets the id pass. -/
def setStorageId : Bool := !(id.code ≤ NvdType.unknown.code || id.code ≥ NvdType.max.code)

/-- `iot_security_storage_read`. -/
def iotSecurityStorageRead : Except SecurityError (List UInt8) × Disk :=
  if setStorageId id then load p id o d else (.error .storageInvalidId, d)

/-- `iot_security_storage_write`. -/
def iotSecurityStorageWrite (data : List UInt8) : Except SecurityError Unit × Disk :=
  if setStorageId id then
    if data = [] then (.error .invalidArgs, d) else store p id o d data
  else (.error .storageInvalidId, d)

/-- `iot_security_storage_remove`. -/
def iotSecurityStorageRemove : Except SecurityError Unit × Disk :=
  if setStorageId id then remove p id o d else (.error .storageInvalidId, d)

end Backend

/-- The calls of `_iot_nv_read_data`, `_iot_nv_write_data` and `_iot_nv_remove_data`. A missing
buffer is refused like an empty one. -/
inductive NvOp where
  | read (id : NvdType) (dataLen : Nat)
  | write (id : NvdType) (data : List UInt8)
  | remove (id : NvdType)
  deriving DecidableEq, Repr

namespace NvOp

def id : NvOp → NvdType
  | read id _ => id
  | write id _ => id
  | remove id => id

/-- The buffer of a call that needs one is empty. -/
def refused : NvOp → Bool
  | read _ dataLen => dataLen == 0
  | write _ data => data.isEmpty
  | remove _ => false

end NvOp

inductive NvError where
  | invalidArgs | nvDataError | nvDataNotExist | securityFsBuffer
  deriving DecidableEq, Repr

/-- The error of a reading or a removal. -/
def nvError : SecurityError → NvError
  | .fsNotFound => .nvDataNotExist
  | _ => .nvDataError

/-- The switch over the mode in `_iot_nv_io_storage`. -/
def ioMode (p : Platform) (op : NvOp) (o : Outcome) (d : Disk) :
    Except NvError (List UInt8) × Disk :=
  match op with
  | .read id dataLen =>
      match iotSecurityStorageRead p id o d with
      | (.error e, d) => (.error (nvError e), d)
      | (.ok data, d) =>
          if dataLen < data.length then (.error .securityFsBuffer, d) else (.ok data, d)
  | .write id data =>
      match iotSecurityStorageWrite p id o d data with
      | (.error _, d) => (.error .nvDataError, d)
      | (.ok _, d) => (.ok [], d)
  | .remove id =>
      match iotSecurityStorageRemove p id o d with
      | (.error e, d) => (.error (nvError e), d)
      | (.ok _, d) => (.ok [], d)

/-- `_iot_nv_io_storage`, with the bytes that are read. -/
def iotNvIoStorage (p : Platform) (op : NvOp) (o : Outcome) (d : Disk) :
    Except NvError (List UInt8) × Disk :=
  if NvdType.max.code ≤ op.id.code then (.error .invalidArgs, d)
  else if op.refused then (.error .invalidArgs, d)
  else if !o.storageInit then (.error .nvDataError, d)
  else ioMode p op o d

/-- A run of operations. -/
def runNv (p : Platform) (ops : List (NvOp × Outcome)) (d : Disk) : Disk :=
  ops.foldl (fun d op => (iotNvIoStorage p op.1 op.2 d).2) d

/-! ## What an operation does to the files -/

/-- The item lies in the memory that the device itself may write. -/
def isNv (id : NvdType) : Bool := NvdType.unknown.code < id.code && id.code < nvdFactory

/-- The file of an item. -/
def filePath (id : NvdType) : String := "./" ++ (iotBspNvGetDataPath id).getD ""

/-- The effect of an operation on the file of its item, if it comes that far. Descriptor 0
leaves an empty file behind. -/
def effect : NvOp → Outcome → Option (NvdType × Effect UInt8)
  | .read _ _, _ => none
  | .write id data, o =>
      if isNv id ∧ data ≠ [] ∧ o.storageInit ∧ 0 ≤ o.fd then
        some (id, .put (if o.fd = 0 then [] else o.write.taken (data.take (data.length % 2 ^ 32))))
      else none
  | .remove id, o => if isNv id ∧ o.storageInit ∧ o.remove then some (id, .remove) else none

/-- The files after an effect. -/
def touched (files : String → Option (List UInt8)) :
    Option (NvdType × Effect UInt8) → String → Option (List UInt8)
  | none => files
  | some (id, e) => Function.update files (filePath id) (e.apply (files (filePath id)))

section Steps

variable {p : Platform} {id : NvdType} {o : Outcome} {d : Disk} {filename : String}

theorem storageId2target_eq_nv_iff : storageId2target p id = .nv ↔ isNv id = true := by
  cases id with
  | privateKey | publicKey | rootCaCert | subCaCert | deviceCert | serialNum =>
      cases stnv : p.stnvPartition
      · simp [storageId2target, isNv, NvdType.code, nvdFactory, stnv]
      · simp [storageId2target, isNv, NvdType.code, nvdFactory, stnv]
  | _ => simp [storageId2target, isNv, NvdType.code, nvdFactory]

theorem storageId2filename_of_isNv (nv : isNv id = true) :
    storageId2filename id = .ok (filePath id) := by
  cases id with
  | unknown => exact absurd nv (by decide)
  | max => exact absurd nv (by decide)
  | _ => rfl

theorem setStorageId_of_isNv (nv : isNv id = true) : setStorageId id = true := by
  revert nv
  cases id <;> decide

theorem code_lt_max_of_isNv (nv : isNv id = true) : id.code < NvdType.max.code := by
  rw [isNv, Bool.and_eq_true, decide_eq_true_iff, decide_eq_true_iff] at nv
  exact Nat.lt_trans nv.2 (by decide)

/-- Opening creates the file, empty, and does nothing else to the files. -/
theorem iotBspFsOpen_files (readonly : Bool) :
    (iotBspFsOpen filename o d readonly).2.files =
      if 0 ≤ o.fd ∧ readonly = false then
        Function.update d.files filename (some ((d.files filename).getD []))
      else d.files := by
  rw [iotBspFsOpen]
  cases readonly with
  | false =>
      by_cases fails : o.fd < 0
      · rw [if_neg (by simp), if_pos fails, if_neg (by omega)]
      · have opens : 0 ≤ o.fd ∧ false = false := ⟨by omega, rfl⟩
        rw [if_pos opens, if_neg (by simp), if_neg fails]
        rfl
  | true =>
      rw [if_neg (c := 0 ≤ o.fd ∧ true = false) (by simp)]
      cases found : d.files filename with
      | none => rfl
      | some file =>
          rw [if_neg (by simp)]
          by_cases fails : o.fd < 0
          · rw [if_pos fails]
          · rw [if_neg fails, Disk.opened, found]
            change Function.update d.files filename (some file) = d.files
            rw [← found, Function.update_eq_self]

theorem loadOpened_files : (loadOpened o d filename).2.files = d.files := by
  rw [loadOpened]
  cases o.mallocFsBuf with
  | false => rfl
  | true =>
      rw [if_neg (by simp)]
      cases iotBspFsRead filename o d bufMaxLen with
      | error e => cases e <;> rfl
      | ok data =>
          cases o.realloc with
          | false => rfl
          | true =>
              rw [iotBspFsClose]
              cases o.close <;> rfl

theorem loadFromNv_files : (loadFromNv p id o d).2.files = d.files := by
  rw [loadFromNv]
  cases storageId2filename id with
  | error e => rfl
  | ok filename =>
      dsimp only
      by_cases noPartition : nvdFactory ≤ id.code ∧ p.stnvPartition = false
      · rw [if_pos noPartition]
      · rw [if_neg noPartition]
        have kept : (iotBspFsOpen filename o d true).2.files = d.files := by
          rw [iotBspFsOpen_files, if_neg (by simp)]
        generalize iotBspFsOpen filename o d true = opened at kept
        obtain ⟨e | _, d'⟩ := opened
        · cases e <;> exact kept
        · exact loadOpened_files.trans kept

/-- Reading changes nothing. -/
theorem iotSecurityStorageRead_files : (iotSecurityStorageRead p id o d).2.files = d.files := by
  rw [iotSecurityStorageRead]
  cases setStorageId id with
  | false => rfl
  | true =>
      change (load p id o d).2.files = d.files
      rw [load]
      cases storageId2target p id with
      | unknown => rfl
      | nv => exact loadFromNv_files
      | factory => exact loadFromNv_files
      | di => rfl

theorem iotBspFsWrite_opened (filename : String) (o : Outcome) (d : Disk) (data : List UInt8) :
    (iotBspFsWrite filename o (d.opened filename) data).2.files =
      Function.update d.files filename
        (some (overwrite (o.write.taken data) ((d.files filename).getD []))) := by
  rw [iotBspFsWrite, Disk.opened]
  dsimp only
  rw [Function.update_self, Option.getD_some, Function.update_idem]

/-- A write overlays what is there, as far as it comes. -/
theorem storeToNv_files (nv : isNv id = true) (data : List UInt8) :
    (storeToNv id o d data).2.files =
      if 0 ≤ o.fd then
        Function.update d.files (filePath id)
          (some (overwrite
            (if o.fd = 0 then [] else o.write.taken (data.take (data.length % 2 ^ 32)))
            ((d.files (filePath id)).getD [])))
      else d.files := by
  rw [storeToNv, storageId2filename_of_isNv nv]
  dsimp only
  rw [iotBspFsOpen, if_neg (by simp)]
  rcases Int.lt_trichotomy o.fd 0 with fails | zero | opened
  · rw [if_pos fails, if_neg (by omega)]
  · rw [if_neg (by omega), if_neg (show ¬ o.fd > 0 by omega), if_pos (by omega), if_pos zero,
      overwrite_nil]
    rfl
  · rw [if_neg (by omega), if_pos (show o.fd > 0 from opened), if_pos (by omega),
      if_neg (by omega)]
    have file := iotBspFsWrite_opened (filePath id) o d (data.take (data.length % 2 ^ 32))
    dsimp only
    generalize iotBspFsWrite (filePath id) o _ _ = written at file
    obtain ⟨e | _, d'⟩ := written
    · exact file
    · dsimp only
      rw [iotBspFsClose]
      cases o.close <;> exact file

theorem removeFromNv_files (nv : isNv id = true) :
    (removeFromNv id o d).2.files =
      if o.remove then Function.update d.files (filePath id) none else d.files := by
  rw [removeFromNv, storageId2filename_of_isNv nv]
  dsimp only
  rw [iotBspFsRemove]
  cases found : d.files (filePath id) with
  | none =>
      cases o.remove with
      | false => rfl
      | true =>
          change d.files = Function.update d.files (filePath id) none
          rw [← found, Function.update_eq_self]
  | some file => cases o.remove <;> rfl

theorem iotSecurityStorageWrite_files {data : List UInt8} (nonempty : data ≠ []) :
    (iotSecurityStorageWrite p id o d data).2.files =
      if isNv id then (storeToNv id o d data).2.files else d.files := by
  rw [iotSecurityStorageWrite, store, if_neg nonempty, if_neg nonempty]
  cases nv : isNv id with
  | true =>
      rw [setStorageId_of_isNv nv, storageId2target_eq_nv_iff.mpr nv]
      rfl
  | false =>
      have other : storageId2target p id ≠ .nv := by
        rw [ne_eq, storageId2target_eq_nv_iff, nv]
        exact Bool.false_ne_true
      cases setStorageId id with
      | false => rfl
      | true =>
          cases target : storageId2target p id with
          | nv => exact absurd target other
          | unknown => rfl
          | factory => rfl
          | di => rfl

theorem iotSecurityStorageRemove_files :
    (iotSecurityStorageRemove p id o d).2.files =
      if isNv id then (removeFromNv id o d).2.files else d.files := by
  rw [iotSecurityStorageRemove, remove]
  cases nv : isNv id with
  | true =>
      rw [setStorageId_of_isNv nv, storageId2target_eq_nv_iff.mpr nv]
      rfl
  | false =>
      have other : storageId2target p id ≠ .nv := by
        rw [ne_eq, storageId2target_eq_nv_iff, nv]
        exact Bool.false_ne_true
      cases setStorageId id with
      | false => rfl
      | true =>
          cases target : storageId2target p id with
          | nv => exact absurd target other
          | unknown => rfl
          | factory => rfl
          | di => rfl

theorem effect_write_none {data : List UInt8}
    (stops : ¬ (isNv id ∧ data ≠ [] ∧ o.storageInit ∧ 0 ≤ o.fd)) :
    effect (.write id data) o = none := if_neg stops

theorem effect_write_some {data : List UInt8}
    (comes : isNv id ∧ data ≠ [] ∧ o.storageInit ∧ 0 ≤ o.fd) :
    effect (.write id data) o = some (id, .put
      (if o.fd = 0 then [] else o.write.taken (data.take (data.length % 2 ^ 32)))) :=
  if_pos comes

theorem effect_remove_some (comes : isNv id ∧ o.storageInit ∧ o.remove) :
    effect (.remove id) o = some (id, .remove) := if_pos comes

theorem effect_remove_none (stops : ¬ (isNv id ∧ o.storageInit ∧ o.remove)) :
    effect (.remove id) o = none := if_neg stops

theorem effect_of_outside {op : NvOp} (outside : NvdType.max.code ≤ op.id.code) :
    effect op o = none := by
  cases op with
  | read id dataLen => rfl
  | write id data =>
      apply effect_write_none
      intro all
      exact absurd outside (Nat.not_le.mpr (code_lt_max_of_isNv all.1))
  | remove id =>
      apply effect_remove_none
      intro all
      exact absurd outside (Nat.not_le.mpr (code_lt_max_of_isNv all.1))

theorem effect_of_refused {op : NvOp} (refused : op.refused = true) : effect op o = none := by
  cases op with
  | read id dataLen => rfl
  | write id data =>
      apply effect_write_none
      intro all
      exact all.2.1 (List.isEmpty_iff.mp refused)
  | remove id => cases refused

theorem effect_of_not_init {op : NvOp} (fails : o.storageInit = false) : effect op o = none := by
  cases op with
  | read id dataLen => rfl
  | write id data =>
      apply effect_write_none
      intro all
      exact absurd (fails.symm.trans all.2.2.1) Bool.false_ne_true
  | remove id =>
      apply effect_remove_none
      intro all
      exact absurd (fails.symm.trans all.2.1) Bool.false_ne_true

/-- The switch has the effect of the operation. -/
theorem ioMode_files {op : NvOp} (accepted : op.refused = false) (init : o.storageInit = true) :
    (ioMode p op o d).2.files = touched d.files (effect op o) := by
  cases op with
  | read id dataLen =>
      have kept := @iotSecurityStorageRead_files p id o d
      rw [ioMode]
      generalize iotSecurityStorageRead p id o d = read at kept
      obtain ⟨e | data, d'⟩ := read
      · exact kept
      · dsimp only
        by_cases short : dataLen < data.length
        · rw [if_pos short]
          exact kept
        · rw [if_neg short]
          exact kept
  | write id data =>
      have nonempty : data ≠ [] := List.isEmpty_eq_false_iff.mp accepted
      have kept := @iotSecurityStorageWrite_files p id o d data nonempty
      have same : (if isNv id then (storeToNv id o d data).2.files else d.files) =
          touched d.files (effect (.write id data) o) := by
        cases nv : isNv id with
        | false =>
            rw [effect_write_none fun all => absurd (nv.symm.trans all.1) Bool.false_ne_true]
            rfl
        | true =>
            rw [if_pos rfl, storeToNv_files nv]
            by_cases opens : 0 ≤ o.fd
            · rw [if_pos opens, effect_write_some ⟨nv, nonempty, init, opens⟩]
              rfl
            · rw [if_neg opens, effect_write_none fun all => opens all.2.2.2]
              rfl
      rw [ioMode, ← same, ← kept]
      obtain ⟨e | _, d'⟩ := iotSecurityStorageWrite p id o d data
      · rfl
      · rfl
  | remove id =>
      have kept := @iotSecurityStorageRemove_files p id o d
      have same : (if isNv id then (removeFromNv id o d).2.files else d.files) =
          touched d.files (effect (.remove id) o) := by
        cases nv : isNv id with
        | false =>
            rw [effect_remove_none fun all => absurd (nv.symm.trans all.1) Bool.false_ne_true]
            rfl
        | true =>
            rw [if_pos rfl, removeFromNv_files nv]
            cases removed : o.remove with
            | true =>
                rw [effect_remove_some ⟨nv, init, removed⟩]
                rfl
            | false =>
                rw [effect_remove_none fun all =>
                  absurd (removed.symm.trans all.2.2) Bool.false_ne_true]
                rfl
      rw [ioMode, ← same, ← kept]
      obtain ⟨e | _, d'⟩ := iotSecurityStorageRemove p id o d
      · rfl
      · rfl

/-- One operation, whatever fails in it, has its effect on one file and no other. -/
theorem iotNvIoStorage_files (op : NvOp) :
    (iotNvIoStorage p op o d).2.files = touched d.files (effect op o) := by
  rw [iotNvIoStorage]
  by_cases outside : NvdType.max.code ≤ op.id.code
  · rw [if_pos outside, effect_of_outside outside]
    rfl
  rw [if_neg outside]
  cases accepted : op.refused with
  | true =>
      rw [effect_of_refused accepted]
      rfl
  | false =>
      cases init : o.storageInit with
      | false =>
          rw [effect_of_not_init init]
          rfl
      | true => exact ioMode_files accepted init

end Steps

/-! ## Runs -/

/-- The effects of a run on the file of one item. -/
def effectsOn (k : NvdType) (ops : List (NvOp × Outcome)) : List (Effect UInt8) :=
  ops.filterMap fun op =>
    (effect op.1 op.2).bind fun found => if found.1 = k then some found.2 else none

theorem effectsOn_cons (k : NvdType) (op : NvOp) (o : Outcome) (ops : List (NvOp × Outcome)) :
    effectsOn k ((op, o) :: ops) =
      match effect op o with
      | some (id, e) => if id = k then e :: effectsOn k ops else effectsOn k ops
      | none => effectsOn k ops := by
  rw [effectsOn, List.filterMap_cons]
  cases effect op o with
  | none => rfl
  | some found =>
      obtain ⟨id, e⟩ := found
      by_cases same : id = k
      · simp only [Option.bind_some, same, if_true]
        rfl
      · simp only [Option.bind_some, same, if_false]
        rfl

/-- No two items share a file. -/
theorem filePath_inj {j k : NvdType} (nvJ : isNv j = true) (nvK : isNv k = true)
    (same : filePath j = filePath k) : j = k := by
  revert nvJ nvK same
  cases j <;> cases k <;> decide

theorem isNv_of_effect {op : NvOp} {o : Outcome} {id : NvdType} {e : Effect UInt8}
    (found : effect op o = some (id, e)) : isNv id = true := by
  cases op with
  | read id dataLen => cases found
  | write id data =>
      rw [effect] at found
      split at found
      · rename_i comes
        obtain ⟨rfl, -⟩ := Prod.mk.inj (Option.some.inj found)
        exact comes.1
      · cases found
  | remove id =>
      rw [effect] at found
      split at found
      · rename_i comes
        obtain ⟨rfl, -⟩ := Prod.mk.inj (Option.some.inj found)
        exact comes.1
      · cases found

/-- The files of NV memory after a run are those of the effects, item by item, and no other
file is touched. -/
theorem runNv_files (p : Platform) (ops : List (NvOp × Outcome)) (d : Disk) :
    (∀ k, isNv k = true →
        (runNv p ops d).files (filePath k) =
          fileAfter (d.files (filePath k)) (effectsOn k ops)) ∧
      ∀ filename, (∀ k, isNv k = true → filename ≠ filePath k) →
        (runNv p ops d).files filename = d.files filename := by
  induction ops generalizing d with
  | nil => exact ⟨fun _ _ => rfl, fun _ _ => rfl⟩
  | cons op ops ih =>
      obtain ⟨op, o⟩ := op
      have step := @iotNvIoStorage_files p o d op
      obtain ⟨items, others⟩ := ih (iotNvIoStorage p op o d).2
      have run : runNv p ((op, o) :: ops) d = runNv p ops (iotNvIoStorage p op o d).2 := rfl
      constructor
      · intro k nv
        rw [run, items k nv, step, effectsOn_cons]
        cases found : effect op o with
        | none => rfl
        | some pair =>
            obtain ⟨id, e⟩ := pair
            by_cases same : id = k
            · subst same
              simp only [if_true, touched, Function.update_self]
              rfl
            · have apart : filePath k ≠ filePath id := by
                intro paths
                exact same (filePath_inj nv (isNv_of_effect found) paths).symm
              simp only [if_neg same, touched, Function.update_of_ne apart]
      · intro filename other
        rw [run, others filename other, step]
        cases found : effect op o with
        | none => rfl
        | some pair =>
            obtain ⟨id, e⟩ := pair
            exact Function.update_of_ne (other id (isNv_of_effect found)) _ _

/-! ## Reading back -/

section ReadingBack

variable {p : Platform} {k : NvdType} {o : Outcome} {d : Disk}

theorem taken_of_complete {w : Written} {data : List UInt8} (complete : w.complete data = true) :
    w.taken data = data := by
  cases w with
  | all => rfl
  | part n =>
      obtain rfl : n = data.length := beq_iff_eq.mp complete
      exact List.take_length
  | failed => cases complete

theorem storeToNv_ok {data : List UInt8} (nv : isNv k = true)
    (stored : (storeToNv k o d data).1 = .ok ()) :
    0 < o.fd ∧ o.write.complete (data.take (data.length % 2 ^ 32)) = true := by
  rw [storeToNv, storageId2filename_of_isNv nv] at stored
  dsimp only at stored
  rw [iotBspFsOpen, if_neg (by simp)] at stored
  by_cases fails : o.fd < 0
  · rw [if_pos fails] at stored
    cases stored
  rw [if_neg fails] at stored
  by_cases opened : o.fd > 0
  · refine ⟨opened, ?_⟩
    rw [if_pos opened] at stored
    dsimp only [iotBspFsWrite] at stored
    cases complete : o.write.complete (data.take (data.length % 2 ^ 32)) with
    | true => rfl
    | false =>
        rw [complete] at stored
        cases stored
  · rw [if_neg opened] at stored
    cases stored

/-- An operation that succeeds has passed the checks. -/
theorem iotNvIoStorage_ok {op : NvOp} {bytes : List UInt8}
    (succeeds : (iotNvIoStorage p op o d).1 = .ok bytes) :
    op.refused = false ∧ o.storageInit = true ∧ (ioMode p op o d).1 = .ok bytes := by
  rw [iotNvIoStorage] at succeeds
  by_cases outside : NvdType.max.code ≤ op.id.code
  · rw [if_pos outside] at succeeds
    cases succeeds
  rw [if_neg outside] at succeeds
  cases accepted : op.refused with
  | true =>
      rw [accepted] at succeeds
      cases succeeds
  | false =>
      rw [accepted] at succeeds
      cases init : o.storageInit with
      | false =>
          rw [init] at succeeds
          cases succeeds
      | true =>
          rw [init] at succeeds
          exact ⟨rfl, rfl, succeeds⟩

theorem iotSecurityStorageWrite_of_isNv {data : List UInt8} (nv : isNv k = true)
    (nonempty : data ≠ []) : iotSecurityStorageWrite p k o d data = storeToNv k o d data := by
  rw [iotSecurityStorageWrite, store, if_neg nonempty, if_neg nonempty, setStorageId_of_isNv nv,
    storageId2target_eq_nv_iff.mpr nv]
  rfl

/-- Where nothing fails, a write succeeds. -/
theorem write_good {data : List UInt8} (nv : isNv k = true) (nonempty : data ≠ []) :
    (iotNvIoStorage p (.write k data) .good d).1 = .ok [] := by
  have inside : ¬ NvdType.max.code ≤ (NvOp.write k data).id.code :=
    Nat.not_le.mpr (code_lt_max_of_isNv nv)
  have accepted : (NvOp.write k data).refused = false := by
    rw [NvOp.refused, List.isEmpty_eq_false_iff]
    exact nonempty
  rw [iotNvIoStorage, if_neg inside, accepted, if_neg Bool.false_ne_true, if_neg (by decide),
    ioMode, iotSecurityStorageWrite_of_isNv nv nonempty, storeToNv, storageId2filename_of_isNv nv]
  rfl

/-- A write that returns IOT_ERROR_NONE puts all of its data down. -/
theorem effect_of_written {data : List UInt8} (nv : isNv k = true)
    (written : (iotNvIoStorage p (.write k data) o d).1 = .ok []) :
    effect (.write k data) o = some (k, .put (data.take (data.length % 2 ^ 32))) := by
  obtain ⟨accepted, init, written⟩ := iotNvIoStorage_ok written
  have nonempty : data ≠ [] := List.isEmpty_eq_false_iff.mp accepted
  have stored : (storeToNv k o d data).1 = .ok () := by
    rw [ioMode, iotSecurityStorageWrite_of_isNv nv nonempty] at written
    generalize storeToNv k o d data = result at written
    obtain ⟨e | u, d'⟩ := result
    · cases written
    · rfl
  obtain ⟨opened, complete⟩ := storeToNv_ok nv stored
  rw [effect_write_some ⟨nv, nonempty, init, by omega⟩, if_neg (by omega),
    taken_of_complete complete]

theorem loadOpened_ok {filename : String} {bytes : List UInt8}
    (read : (loadOpened o d filename).1 = .ok bytes) :
    ∃ file, d.files filename = some file ∧ bytes = file.take bufMaxLen := by
  rw [loadOpened] at read
  cases fsBuf : o.mallocFsBuf with
  | false =>
      rw [fsBuf] at read
      cases read
  | true =>
      rw [fsBuf, if_neg (by simp), iotBspFsRead] at read
      cases found : d.files filename with
      | none =>
          rw [found] at read
          cases read
      | some file =>
          refine ⟨file, rfl, ?_⟩
          rw [found] at read
          dsimp only at read
          cases data : o.mallocData with
          | false =>
              rw [data] at read
              cases read
          | true =>
              cases reads : o.read with
              | false =>
                  rw [data, reads] at read
                  cases read
              | true =>
                  cases grown : o.realloc with
                  | false =>
                      rw [data, reads, grown] at read
                      cases read
                  | true =>
                      rw [data, reads, grown, iotBspFsClose] at read
                      cases closed : o.close with
                      | false =>
                          rw [closed] at read
                          cases read
                      | true =>
                          rw [closed] at read
                          exact (Except.ok.inj read).symm

/-- What a successful loading returns. -/
theorem loadFromNv_ok {bytes : List UInt8} (nv : isNv k = true)
    (read : (loadFromNv p k o d).1 = .ok bytes) :
    ∃ file, d.files (filePath k) = some file ∧ bytes = file.take bufMaxLen := by
  have inNv : ¬ (nvdFactory ≤ k.code ∧ p.stnvPartition = false) := by
    intro both
    rw [isNv, Bool.and_eq_true, decide_eq_true_iff, decide_eq_true_iff] at nv
    exact absurd nv.2 (Nat.not_lt.mpr both.1)
  rw [loadFromNv, storageId2filename_of_isNv nv] at read
  dsimp only at read
  rw [if_neg inNv, iotBspFsOpen] at read
  cases found : d.files (filePath k) with
  | none =>
      rw [found] at read
      cases read
  | some file =>
      rw [if_neg (by simp [found])] at read
      by_cases fails : o.fd < 0
      · rw [if_pos fails] at read
        cases read
      rw [if_neg fails] at read
      by_cases opened : o.fd > 0
      · rw [if_pos opened] at read
        obtain ⟨same, there, bytesEq⟩ := loadOpened_ok read
        rw [Disk.opened, found] at there
        dsimp only at there
        rw [Function.update_self] at there
        obtain rfl := Option.some.inj there
        exact ⟨file, rfl, bytesEq⟩
      · rw [if_neg opened] at read
        cases read

/-- A successful reading returns the start of the file. -/
theorem read_ok {size : Nat} {bytes : List UInt8} (nv : isNv k = true)
    (read : (iotNvIoStorage p (.read k size) o d).1 = .ok bytes) :
    ∃ file, d.files (filePath k) = some file ∧ bytes = file.take bufMaxLen := by
  obtain ⟨-, -, read⟩ := iotNvIoStorage_ok read
  have through : iotSecurityStorageRead p k o d = loadFromNv p k o d := by
    rw [iotSecurityStorageRead, load, setStorageId_of_isNv nv, storageId2target_eq_nv_iff.mpr nv]
    rfl
  rw [ioMode, through] at read
  have loaded : (loadFromNv p k o d).1 = .ok bytes := by
    generalize loadFromNv p k o d = result at read
    obtain ⟨e | data, d'⟩ := result
    · cases read
    · dsimp only at read
      by_cases short : size < data.length
      · rw [if_pos short] at read
        cases read
      · rw [if_neg short] at read
        exact congrArg Except.ok (Except.ok.inj read)
  exact loadFromNv_ok nv loaded

/-- The start of a file is the text that was written last, exactly when nothing longer lies
under it, or when it fills the buffer of the reading. -/
theorem take_overwrite_iff (data file : List UInt8) (n : Nat) :
    (overwrite data file).take n = data ↔
      data.length = n ∨ data.length < n ∧ file.length ≤ data.length := by
  constructor
  · intro same
    have size := congrArg List.length same
    rw [List.length_take, length_overwrite] at size
    omega
  · rintro (full | ⟨less, covered⟩)
    · rw [overwrite, ← full, List.take_left]
    · rw [overwrite_eq_text_iff.mpr covered, List.take_of_length_le (Nat.le_of_lt less)]

end ReadingBack

/-- What is read is what was written last exactly when it fills the buffer of the reading, or
is shorter and nothing longer was written since the item was last removed: whatever failed in
the operations before, and whatever was done to other items. -/
theorem read_back_iff {p : Platform} {k : NvdType} (nv : isNv k = true)
    (ops more : List (NvOp × Outcome)) (d : Disk) {data bytes : List UInt8} {o o' : Outcome}
    {size : Nat} (written : (iotNvIoStorage p (.write k data) o (runNv p ops d)).1 = .ok [])
    (quiet : effectsOn k more = [])
    (read : (iotNvIoStorage p (.read k size) o'
      (runNv p (ops ++ (.write k data, o) :: more) d)).1 = .ok bytes) :
    bytes = data ↔
      data.length = bufMaxLen ∨
        data.length < bufMaxLen ∧
          ∀ t ∈ sinceRemoved (d.files (filePath k)) (effectsOn k ops), t.length ≤ data.length := by
  obtain ⟨file, found, rfl⟩ := read_ok nv read
  have effects : effectsOn k (ops ++ (.write k data, o) :: more) =
      effectsOn k ops ++ [.put (data.take (data.length % 2 ^ 32))] := by
    have here := effectsOn_cons k (.write k data) o more
    rw [effect_of_written nv written, quiet] at here
    rw [effectsOn, List.filterMap_append]
    exact congrArg _ (here.trans (if_pos rfl))
  rw [(runNv_files p _ d).1 k nv, effects, fileAfter_append] at found
  obtain rfl := Option.some.inj found
  rw [← (longest_after (d.files (filePath k)) (effectsOn k ops)).2]
  by_cases short : data.length < 2 ^ 32
  · rw [Nat.mod_eq_of_lt short, List.take_length]
    exact take_overwrite_iff data _ bufMaxLen
  · have long : bufMaxLen < data.length := by
      rw [bufMaxLen]
      omega
    constructor
    · intro same
      have size := congrArg List.length same
      rw [List.length_take] at size
      omega
    · rintro (full | ⟨less, -⟩)
      · omega
      · omega

/-- The port 443 over the port 8883, and something else in between. -/
theorem read_back_iff_shorter :
    ∃ bytes, (iotNvIoStorage ⟨true, fun _ => .error .external⟩ (.read .serverPort 8) .good
        (runNv ⟨true, fun _ => .error .external⟩
          ([(.write .serverPort [56, 56, 56, 51], .good)] ++
            (.write .serverPort [52, 52, 51], .good) :: [(.remove .label, .good)])
          ⟨fun _ => none, 0⟩)).1 = .ok bytes ∧ bytes ≠ [52, 52, 51] := by
  have read : (iotNvIoStorage ⟨true, fun _ => .error .external⟩ (.read .serverPort 8) .good
      (runNv ⟨true, fun _ => .error .external⟩
        ([(.write .serverPort [56, 56, 56, 51], .good)] ++
          (.write .serverPort [52, 52, 51], .good) :: [(.remove .label, .good)])
        ⟨fun _ => none, 0⟩)).1 = .ok [52, 52, 51, 51] := rfl
  refine ⟨_, read, ?_⟩
  intro same
  have exact := (read_back_iff rfl _ _ _ rfl rfl read).mp same
  rcases exact with full | ⟨-, covered⟩
  · exact absurd full (by decide)
  · exact absurd (covered [56, 56, 56, 51] (List.mem_singleton_self _)) (by decide)

end StDevice.Security.Storage
