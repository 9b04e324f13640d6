import StDevice.NvData.Broker
import StDevice.Security.Storage

/-!
# Provisioning data in files

`iot_nv_set_cloud_prov_data` writes over the files of an earlier provisioning and erases
only the items it has no text for. `iot_nv_erase_prov_data` takes the status away and
leaves the files. The model of the items takes a write for an assignment; here the same
updates go through the files of the POSIX port, where a shorter text leaves the end of a
longer one behind it.
-/

namespace StDevice.NvData

open Decimal Nonvolatile Overlay
open Security.Storage (NvdType Outcome Disk Platform filePath isNv iotNvIoStorage effect touched)

/-- The NV item behind an item of the provisioning data. -/
def Item.nvdType : Item → NvdType
  | .wifiProvStatus => .wifiProvStatus
  | .apSsid => .apSsid
  | .apPass => .apPass
  | .apBssid => .apBssid
  | .apAuthType => .apAuthType
  | .cloudProvStatus => .cloudProvStatus
  | .serverUrl => .serverUrl
  | .serverPort => .serverPort
  | .label => .label

/-- The files of the items. -/
def nvOf (d : Disk) : Nv := fun item => d.files (filePath item.nvdType)

/-- An update as calls of `_iot_nv_write_data` and `_iot_nv_remove_data`, and whether it comes
to its end. -/
def perform (p : Platform) : List (Op Item (List UInt8)) → List Outcome → Disk → Bool × Disk
  | [], _, d => (true, d)
  | .refuse :: _, _, d => (false, d)
  | .write _ _ :: _, [], d => (false, d)
  | .erase _ :: _, [], d => (false, d)
  | .write item data :: ops, o :: outcomes, d =>
      match iotNvIoStorage p (.write item.nvdType data) o d with
      | (.error _, d) => (false, d)
      | (.ok _, d) => perform p ops outcomes d
  | .erase item :: ops, o :: outcomes, d =>
      perform p ops outcomes (iotNvIoStorage p (.remove item.nvdType) o d).2

/-- `iot_nv_set_cloud_prov_data` where no call fails. -/
def setCloudFiles (p : Platform) (c : CloudProvData) (d : Disk) : Disk :=
  (perform p (setCloudOps c) (List.replicate (setCloudOps c).length .good) d).2

/-- One provisioning after the other. -/
def provisionings (p : Platform) (cs : List CloudProvData) (d : Disk) : Disk :=
  cs.foldl (fun d c => setCloudFiles p c d) d

/-- What an operation does to the file of an item. -/
def effectOn (item : Item) : Op Item (List UInt8) → Option (Effect UInt8)
  | .write k data => if k = item then some (.put data) else none
  | .erase k => if k = item then some .remove else none
  | .refuse => none

section Calls

variable {p : Platform} {d : Disk} {item : Item}

theorem isNv_nvdType (item : Item) : isNv item.nvdType = true := by
  cases item <;> rfl

theorem nvdType_inj {item k : Item} (same : item.nvdType = k.nvdType) : item = k := by
  revert same
  cases item <;> cases k <;> decide

theorem filePath_ne {k : Item} (other : k ≠ item) :
    filePath item.nvdType ≠ filePath k.nvdType := by
  intro same
  apply other
  exact (nvdType_inj (Security.Storage.filePath_inj (isNv_nvdType _) (isNv_nvdType _) same)).symm

/-- A write of a text with a common length. -/
theorem nvOf_write {k : Item} {data : List UInt8} (nonempty : data ≠ [])
    (short : data.length < 2 ^ 32) :
    nvOf (iotNvIoStorage p (.write k.nvdType data) .good d).2 item =
      if k = item then some (overwrite data ((nvOf d item).getD [])) else nvOf d item := by
  have nv := isNv_nvdType k
  have found : effect (.write k.nvdType data) .good = some (k.nvdType, .put data) := by
    rw [Security.Storage.effect_write_some ⟨nv, nonempty, rfl, by decide⟩, if_neg (by decide),
      Nat.mod_eq_of_lt short, List.take_length]
    rfl
  rw [nvOf, Security.Storage.iotNvIoStorage_files, found]
  by_cases same : k = item
  · rw [if_pos same, same]
    exact Function.update_self _ _ _
  · rw [if_neg same]
    exact Function.update_of_ne (filePath_ne same) _ _

theorem nvOf_erase {k : Item} :
    nvOf (iotNvIoStorage p (.remove k.nvdType) .good d).2 item =
      if k = item then none else nvOf d item := by
  have found : effect (.remove k.nvdType) .good = some (k.nvdType, .remove) :=
    Security.Storage.effect_remove_some ⟨isNv_nvdType k, rfl, rfl⟩
  rw [nvOf, Security.Storage.iotNvIoStorage_files, found]
  by_cases same : k = item
  · rw [if_pos same, same]
    exact Function.update_self _ _ _
  · rw [if_neg same]
    exact Function.update_of_ne (filePath_ne same) _ _

/-- An update of common texts that nothing stops. -/
theorem perform_good {ops : List (Op Item (List UInt8))}
    (texts : ∀ k data, .write k data ∈ ops → data ≠ [] ∧ data.length < 2 ^ 32)
    (accepted : .refuse ∉ ops) :
    nvOf (perform p ops (List.replicate ops.length .good) d).2 item =
      fileAfter (nvOf d item) (ops.filterMap (effectOn item)) := by
  induction ops generalizing d with
  | nil => rfl
  | cons op ops ih =>
      have others : .refuse ∉ ops := fun mem => accepted (List.mem_cons_of_mem _ mem)
      have later : ∀ k data, .write k data ∈ ops → data ≠ [] ∧ data.length < 2 ^ 32 :=
        fun k data mem => texts k data (List.mem_cons_of_mem _ mem)
      cases op with
      | refuse => exact absurd List.mem_cons_self accepted
      | erase k =>
          rw [List.length_cons, List.replicate_succ, perform, ih later others, nvOf_erase,
            List.filterMap_cons, effectOn]
          by_cases same : k = item
          · rw [if_pos same, if_pos same]
            rfl
          · rw [if_neg same, if_neg same]
      | write k data =>
          obtain ⟨nonempty, short⟩ := texts k data List.mem_cons_self
          have stored := @Security.Storage.write_good p k.nvdType d data (isNv_nvdType k) nonempty
          have after := @nvOf_write p d item k data nonempty short
          rw [List.length_cons, List.replicate_succ, perform]
          generalize iotNvIoStorage p (.write k.nvdType data) .good d = written at stored after
          obtain ⟨e | bytes, d'⟩ := written
          · cases stored
          dsimp only at after ⊢
          rw [ih later others, after, List.filterMap_cons, effectOn]
          by_cases same : k = item
          · rw [if_pos same, if_pos same]
            rfl
          · rw [if_neg same, if_neg same]

end Calls

section Effects

variable {c : CloudProvData}

theorem effectOn_put (item k : Item) (contents : Option (List UInt8)) :
    effectOn item (put k contents) = if k = item then some (.ofContents contents) else none := by
  cases contents with
  | none => rfl
  | some data => rfl

theorem effectOn_write (item k : Item) (data : List UInt8) :
    effectOn item (.write k data) = if k = item then some (.put data) else none := rfl

theorem setCloudOps_eq (storable : c.Storable) :
    setCloudOps c =
      guarded .cloudProvStatus statusNone statusDone (store cloudKeys c.contents) := by
  have accepted := ((storable_iff c).mp storable).1
  have ends := left_replicate (mt (refuse_mem_setCloudOps_iff c).mp accepted)
  rw [setCloudOps, cloudItems_eq ends]

/-- An update leaves one effect on each item of the cloud part. -/
theorem effectOn_setCloudOps (storable : c.Storable) {item : Item} (mem : item ∈ cloudKeys) :
    (setCloudOps c).filterMap (effectOn item) = [.ofContents (c.contents item)] := by
  rw [setCloudOps_eq storable, guarded, store]
  simp only [cloudKeys, List.mem_cons, List.not_mem_nil, or_false] at mem
  rcases mem with rfl | rfl | rfl
  · simp [cloudKeys, effectOn_put, effectOn_write]
  · simp [cloudKeys, effectOn_put, effectOn_write]
  · simp [cloudKeys, effectOn_put, effectOn_write]

theorem effectOn_setCloudOps_status (storable : c.Storable) :
    (setCloudOps c).filterMap (effectOn .cloudProvStatus) = [.put statusNone, .put statusDone] := by
  rw [setCloudOps_eq storable, guarded, store]
  simp [cloudKeys, effectOn_put, effectOn_write]

theorem contents_ne_nil (storable : c.Storable) {item : Item} {text : List UInt8}
    (mem : item ∈ cloudKeys) (contents : c.contents item = some text) : text ≠ [] := by
  simp only [cloudKeys, List.mem_cons, List.not_mem_nil, or_false] at mem
  rcases mem with rfl | rfl | rfl
  · obtain ⟨url, found, rfl⟩ := Option.map_eq_some_iff.mp contents
    exact (storable url (.inl found)).1
  · obtain rfl := Option.some.inj contents
    exact decimal_ne_nil _
  · obtain ⟨label, found, rfl⟩ := Option.map_eq_some_iff.mp contents
    exact (storable label (.inr found)).1

/-- The texts of storable data are common ones. -/
theorem texts_of_storable (storable : c.Storable) {k : Item} {data : List UInt8}
    (mem : .write k data ∈ setCloudOps c) : data ≠ [] ∧ data.length < cloudDataSize := by
  have short := ((storable_iff c).mp storable).2
  rw [setCloudOps_eq storable, guarded, store] at mem
  rcases List.mem_cons.mp mem with first | mem
  · obtain ⟨-, rfl⟩ := Op.write.inj first
    decide
  rcases List.mem_append.mp mem with mem | last
  · obtain ⟨item, key, same⟩ := List.mem_map.mp mem
    cases contents : c.contents item with
    | none =>
        rw [contents] at same
        cases same
    | some text =>
        rw [contents] at same
        obtain ⟨-, rfl⟩ := Op.write.inj same
        refine ⟨contents_ne_nil storable key contents, ?_⟩
        exact cloud_fits short item key text contents
  · obtain ⟨-, rfl⟩ := Op.write.inj (List.mem_singleton.mp last)
    decide

end Effects

section Runs

variable {p : Platform} {d : Disk} {c : CloudProvData} {cs : List CloudProvData}

/-- What the provisionings do to an item. -/
def itemEffects (item : Item) (cs : List CloudProvData) : List (Effect UInt8) :=
  cs.map fun c => .ofContents (c.contents item)

theorem nvOf_setCloudFiles (storable : c.Storable) {item : Item} :
    nvOf (setCloudFiles p c d) item =
      fileAfter (nvOf d item) ((setCloudOps c).filterMap (effectOn item)) := by
  have refused := mt (refuse_mem_setCloudOps_iff c).mp ((storable_iff c).mp storable).1
  apply perform_good _ refused
  intro k data mem
  obtain ⟨nonempty, short⟩ := texts_of_storable storable mem
  refine ⟨nonempty, ?_⟩
  rw [cloudDataSize] at short
  omega

/-- The files of a run of provisionings. -/
theorem nvOf_provisionings (storable : ∀ e ∈ cs, e.Storable) {item : Item}
    (mem : item ∈ cloudKeys) :
    nvOf (provisionings p cs d) item = fileAfter (nvOf d item) (itemEffects item cs) := by
  induction cs generalizing d with
  | nil => rfl
  | cons c cs ih =>
      obtain ⟨here, storable⟩ := List.forall_mem_cons.mp storable
      have run : provisionings p (c :: cs) d = provisionings p cs (setCloudFiles p c d) := rfl
      rw [run, ih storable, nvOf_setCloudFiles here, effectOn_setCloudOps here mem]
      rfl

/-- The status is put back by every provisioning. -/
theorem status_provisionings (storable : ∀ e ∈ cs, e.Storable)
    (start : ((nvOf d .cloudProvStatus).getD []).length ≤ 4) :
    ((nvOf (provisionings p cs d) .cloudProvStatus).getD []).length ≤ 4 ∧
      (cs ≠ [] → nvOf (provisionings p cs d) .cloudProvStatus = some statusDone) := by
  induction cs generalizing d with
  | nil => exact ⟨start, fun absent => absurd rfl absent⟩
  | cons c cs ih =>
      obtain ⟨here, storable⟩ := List.forall_mem_cons.mp storable
      have done : nvOf (setCloudFiles p c d) .cloudProvStatus = some statusDone := by
        rw [nvOf_setCloudFiles here, effectOn_setCloudOps_status here]
        apply congrArg some
        apply overwrite_eq_text_iff.mpr
        change (overwrite statusNone ((nvOf d .cloudProvStatus).getD [])).length ≤ 4
        rw [length_overwrite]
        exact Nat.max_le.mpr ⟨by decide, start⟩
      have short : ((nvOf (setCloudFiles p c d) .cloudProvStatus).getD []).length ≤ 4 := by
        rw [done]
        decide
      obtain ⟨kept, flagged⟩ := @ih (setCloudFiles p c d) storable short
      refine ⟨kept, fun _ => ?_⟩
      by_cases last : cs = []
      · rw [last]
        exact done
      · exact flagged last

/-- The effects of storable data are of common length, and their texts have no end in them. -/
theorem put_mem_itemEffects (storable : ∀ e ∈ cs, e.Storable) {item : Item}
    (mem : item ∈ cloudKeys) {text : List UInt8} (put : .put text ∈ itemEffects item cs) :
    text.length < cloudDataSize ∧ 0 ∉ text ∧
      (item = .serverPort → ∃ e ∈ cs, text = decimal e.brokerPort) := by
  obtain ⟨e, found, same⟩ := List.mem_map.mp put
  cases contents : e.contents item with
  | none =>
      rw [contents] at same
      cases same
  | some data =>
      rw [contents] at same
      obtain rfl := Effect.put.inj same
      have short := cloud_fits ((storable_iff e).mp (storable e found)).2 item mem data contents
      refine ⟨short, ?_⟩
      simp only [cloudKeys, List.mem_cons, List.not_mem_nil, or_false] at mem
      rcases mem with rfl | rfl | rfl
      · obtain ⟨url, -, rfl⟩ := Option.map_eq_some_iff.mp contents
        exact ⟨url.noNul, fun other => by cases other⟩
      · obtain rfl := Option.some.inj contents
        refine ⟨?_, fun _ => ⟨e, found, rfl⟩⟩
        have plain := cstr_decimal e.brokerPort
        rw [← plain]
        exact CString.notMem_cstr _
      · obtain ⟨label, -, rfl⟩ := Option.map_eq_some_iff.mp contents
        exact ⟨label.noNul, fun other => by cases other⟩

end Runs

section ReadingBack

variable {p : Platform} {d : Disk} {c : CloudProvData} {cs : List CloudProvData}

theorem text_of_notMem {file : List UInt8} (plain : 0 ∉ file) : text file = file := by
  apply List.takeWhile_eq_self_iff.mpr
  intro b mem
  apply decide_eq_true
  rintro rfl
  exact plain mem

/-- An item holds what the last provisioning wanted exactly when no longer text lies under it. -/
theorem fileAfter_itemEffects_iff (item : Item) :
    fileAfter none (itemEffects item (cs ++ [c])) = c.contents item ↔
      ∀ text, c.contents item = some text →
        ∀ t ∈ sinceRemoved none (itemEffects item cs), t.length ≤ text.length := by
  rw [itemEffects, List.map_append, List.map_singleton]
  cases wanted : c.contents item with
  | none =>
      rw [fileAfter_append]
      constructor
      · intro _ text impossible
        cases impossible
      · intro _
        rfl
  | some text =>
      rw [show Effect.ofContents (some text) = Effect.put text from rfl, fileAfter_put_iff]
      constructor
      · rintro covered _ ⟨⟩
        exact covered
      · intro covered
        exact covered text rfl

/-- The number of a port file is the port only if nothing is left of a longer one. -/
theorem port_of_atoi (ports : ∀ e ∈ cs ++ [c], 1 ≤ e.brokerPort) {file : List UInt8}
    (found : fileAfter none (itemEffects .serverPort (cs ++ [c])) = some file)
    (same : atoi file = c.brokerPort) : file = decimal c.brokerPort := by
  have positive : ∀ e ∈ cs ++ [c], decimal e.brokerPort = decimalNat e.brokerPort.natAbs := by
    intro e mem
    have port := ports e mem
    rw [decimal, if_neg (by omega)]
  have here : c ∈ cs ++ [c] := List.mem_append_right _ (List.mem_singleton_self c)
  have earlier : ∀ b ∈ (fileAfter none (itemEffects .serverPort cs)).getD [],
      isDigit b = true := by
    apply forall_mem_fileAfter
    · intro b absent
      exact absurd absent List.not_mem_nil
    · intro text mem b inside
      obtain ⟨e, known, eq⟩ := List.mem_map.mp mem
      obtain rfl := Effect.put.inj eq
      rw [positive e (List.mem_append_left _ known)] at inside
      exact decimalNat_digits _ b inside
  rw [itemEffects, List.map_append, List.map_singleton, fileAfter_append] at found
  change some (overwrite (decimal c.brokerPort)
    ((fileAfter none (itemEffects .serverPort cs)).getD [])) = some file at found
  obtain rfl := Option.some.inj found
  rw [overwrite, positive c here] at same ⊢
  generalize left : List.drop _ ((fileAfter none (itemEffects .serverPort cs)).getD []) = tail at *
  have digits : ∀ b ∈ tail, isDigit b = true := by
    intro b mem
    rw [← left] at mem
    exact earlier b (List.mem_of_mem_drop mem)
  by_cases none : tail = []
  · rw [none, List.append_nil]
  have port := ports c here
  have greater := lt_digitsValue_append (show 0 < c.brokerPort.natAbs by omega) digits none
  have all : ∀ b ∈ decimalNat c.brokerPort.natAbs ++ tail, isDigit b = true :=
    List.forall_mem_append.mpr ⟨decimalNat_digits _, digits⟩
  rw [atoi_of_digits all] at same
  omega

end ReadingBack

/-- A provisioning with port 443. -/
def lowPort : CloudProvData :=
  { highPort.cloud none with
    brokerPort := 443
    portFits := ⟨by omega, by omega⟩ }

end StDevice.NvData
