import StDevice.NvData.ProvData

/-!
# Provisioning data, whole or in part

Each part of the provisioning data is an update guarded by its status, so a part that is
read is a part that was written. The two parts have no flag in common, and an erase that
fails is not noticed. The data that are read back after any outcome of the writes and
erases are the old data or the new ones in exactly the remaining cases.
-/

namespace StDevice.NvData

open Decimal Nonvolatile

/-- The provisioning data as they are read back once they are stored. -/
def WifiProvData.read (w : WifiProvData) : WifiRead :=
  let mac := if isEmpty w.macStr then noMac else macOf (w.macStr.toList.take 17)
  { ssid := text (w.ssid.toList.take 32)
    password := text (w.password.toList.take 64)
    macStr := mac.1
    bssid := mac.2
    securityType :=
      if w.securityType < 0 ∨ wifiAuthMax < w.securityType then -1 else w.securityType }

def CloudProvData.read (c : CloudProvData) : CloudRead where
  brokerUrl := c.brokerUrl.map CString.bytes
  brokerPort := c.brokerPort
  label := c.label.map CString.bytes

def ProvData.read (p : ProvData) : WifiRead × CloudRead := (p.wifi.read, p.cloud.read)

/-- The memory after an update reads as an error, as the old data or as the new ones. -/
def Whole (p : ProvData) (outcomes : List Bool) (nv : Nv) : Prop :=
  let after := (iotNvSetProvData p outcomes nv).1
  iotNvGetProvData after = none ∨ iotNvGetProvData after = iotNvGetProvData nv ∨
    iotNvGetProvData after = some p.read

/-- A text too long to be read back. -/
def CloudProvData.Long (c : CloudProvData) : Prop :=
  (∃ url ∈ c.brokerUrl, cloudDataSize ≤ url.strlen) ∨
    ∃ label ∈ c.label, cloudDataSize ≤ label.strlen

/-- Once the wifi part has its status back, the status of the cloud part is taken away. If
that part gets its status back too, no erase failed, or the new data cannot be read. -/
def Careful (p : ProvData) (outcomes : List Bool) : Prop :=
  ∀ rest, left (setWifiOps p.wifi) outcomes = some rest →
    begun rest = true ∧
      ∀ rest', left (setCloudOps p.cloud) rest = some rest' →
        p.cloud.Long ∨
          (stuck (wifiItems p.wifi) outcomes.tail = [] ∧ stuck (cloudItems p.cloud) rest.tail = [])

/-- Memory that earlier calls have left, whatever became of their writes. -/
inductive Reachable : Nv → Prop where
  | blank : Reachable fun _ => none
  | set {nv : Nv} (p : ProvData) (outcomes : List Bool) (reachable : Reachable nv) :
      Reachable (iotNvSetProvData p outcomes nv).1

/-! ## The items of the two parts -/

def wifiKeys : List Item := [.apSsid, .apPass, .apBssid, .apAuthType]

def cloudKeys : List Item := [.serverUrl, .serverPort, .label]

/-- What the wifi part is to leave in its items. -/
def WifiProvData.contents (w : WifiProvData) : Nv
  | .apSsid => if isEmpty w.ssid then none else some (w.ssid.toList.take 32)
  | .apPass => if isEmpty w.password then none else some (w.password.toList.take 64)
  | .apBssid => if isEmpty w.macStr then none else some (w.macStr.toList.take 17)
  | .apAuthType =>
      if w.securityType < 0 ∨ wifiAuthMax < w.securityType then none
      else some (decimal w.securityType)
  | _ => none

/-- What the cloud part is to leave in its items. -/
def CloudProvData.contents (c : CloudProvData) : Nv
  | .serverUrl => c.brokerUrl.map CString.bytes
  | .serverPort => some (decimal c.brokerPort)
  | .label => c.label.map CString.bytes
  | _ => none

theorem iotNvWriteData_of_ne_nil {item : Item} {data : List UInt8} (some : data ≠ []) :
    iotNvWriteData item data = .write item data := if_neg some

private theorem take_ne_nil {n : Nat} (v : Vector UInt8 n) {count : Nat} (positive : 0 < count)
    (long : 0 < n) : v.toList.take count ≠ [] := by
  refine List.ne_nil_of_length_pos ?_
  rw [List.length_take, Vector.length_toList]
  exact Nat.lt_min.mpr ⟨positive, long⟩

theorem wifiItems_eq (w : WifiProvData) : wifiItems w = store wifiKeys w.contents := by
  simp only [wifiItems, iotNvWriteData_of_ne_nil (take_ne_nil _ _ _),
    iotNvWriteData_of_ne_nil (decimal_ne_nil _), wifiKeys, store, List.map_cons, List.map_nil,
    WifiProvData.contents, Nat.zero_lt_succ]
  congr 1
  · split <;> rfl
  congr 1
  · split <;> rfl
  congr 1
  · split <;> rfl
  congr 1
  split <;> rfl

/-- The cloud part comes to its end only if no text is empty. -/
theorem cloudItems_eq {c : CloudProvData} {outcomes rest : List Bool}
    (ends : left (setCloudOps c) outcomes = some rest) :
    cloudItems c = store cloudKeys c.contents := by
  have accepted : Op.refuse ∉ cloudItems c := by
    intro refused
    have refused : Op.refuse ∈ setCloudOps c :=
      List.mem_cons_of_mem _ (List.mem_append_left _ refused)
    rw [left_of_refuse refused] at ends
    exact absurd ends (by simp)
  have text (item : Item) (t : Option CString) (mem : writeOrErase item t ∈ cloudItems c) :
      writeOrErase item t = put item (t.map CString.bytes) := by
    cases t with
    | none => rfl
    | some t =>
        refine if_neg fun empty => ?_
        rw [show writeOrErase item (some t) = .refuse from if_pos empty] at mem
        exact accepted mem
  have url := text .serverUrl c.brokerUrl (by simp [cloudItems])
  have label := text .label c.label (by simp [cloudItems])
  have port : iotNvWriteData .serverPort (decimal c.brokerPort) =
      .write .serverPort (decimal c.brokerPort) := iotNvWriteData_of_ne_nil (decimal_ne_nil _)
  rw [cloudItems, url, label, port]
  rfl

theorem cloudProvStatus_notMem (c : CloudProvData) : .cloudProvStatus ∉ items (cloudItems c) := by
  have write (item : Item) (data : List UInt8) (ops : List (Op Item (List UInt8)))
      (other : .cloudProvStatus ≠ item) (apart : .cloudProvStatus ∉ items ops) :
      .cloudProvStatus ∉ items (iotNvWriteData item data :: ops) := by
    by_cases empty : data = []
    · rw [show iotNvWriteData item data = .refuse from if_pos empty]
      exact apart
    · rw [iotNvWriteData_of_ne_nil empty]
      exact List.not_mem_cons_of_ne_of_not_mem other apart
  have text (item : Item) (t : Option CString) (ops : List (Op Item (List UInt8)))
      (other : .cloudProvStatus ≠ item) (apart : .cloudProvStatus ∉ items ops) :
      .cloudProvStatus ∉ items (writeOrErase item t :: ops) := by
    cases t with
    | none => exact List.not_mem_cons_of_ne_of_not_mem other apart
    | some t => exact write _ _ _ other apart
  exact text _ _ _ (by decide) (write _ _ _ (by decide) (text _ _ _ (by decide) List.not_mem_nil))

/-! ## Reading -/

/-- The item can be read into a buffer of the given size. -/
def Fits (nv : Nv) (size : Nat) (item : Item) : Prop :=
  ∀ data, nv item = some data → data.length < size

theorem readField_eq {α : Type} {nv : Nv} {item : Item} {size : Nat} (fits : Fits nv size item)
    (value : List UInt8 → α) (missing : α) :
    readField nv item size value missing = some ((nv item).elim missing value) := by
  cases contents : nv item with
  | none => simp [readField, iotNvReadData, contents]
  | some data => simp [readField, iotNvReadData, contents, fits data contents]

theorem readField_eq_none {α : Type} {nv : Nv} {item : Item} {size : Nat} {data : List UInt8}
    (contents : nv item = some data) (long : size ≤ data.length)
    (value : List UInt8 → α) (missing : α) : readField nv item size value missing = none := by
  simp [readField, iotNvReadData, contents, Nat.not_lt.mpr long]

/-- What the items of the wifi part say. -/
def wifiOf (nv : Nv) : WifiRead where
  ssid := (nv .apSsid).elim [] fun data => (text data).take 32
  password := (nv .apPass).elim [] fun data => (text data).take 64
  macStr := ((nv .apBssid).elim noMac macOf).1
  bssid := ((nv .apBssid).elim noMac macOf).2
  securityType := (nv .apAuthType).elim (-1) fun data => atoi (text data)

/-- What the items of the cloud part say. -/
def cloudOf (nv : Nv) : CloudRead where
  brokerUrl := (nv .serverUrl).elim none fun data => some (text data)
  brokerPort := (nv .serverPort).elim (-1) fun data => atoi (text data)
  label := (nv .label).elim none fun data => some (text data)

theorem readWifi_eq {nv : Nv} (fits : ∀ item ∈ wifiKeys, Fits nv wifiDataSize item) :
    readWifi nv = some (wifiOf nv) := by
  rw [readWifi, readField_eq (fits _ (by decide)), readField_eq (fits _ (by decide)),
    readField_eq (fits _ (by decide)), readField_eq (fits _ (by decide))]
  rfl

theorem readCloud_eq {nv : Nv} (fits : ∀ item ∈ cloudKeys, Fits nv cloudDataSize item) :
    readCloud nv = some (cloudOf nv) := by
  rw [readCloud, readField_eq (fits _ (by decide)), readField_eq (fits _ (by decide)),
    readField_eq (fits _ (by decide))]
  rfl

theorem readCloud_eq_none {nv : Nv} {item : Item} {data : List UInt8} (mem : item ∈ cloudKeys)
    (contents : nv item = some data) (long : cloudDataSize ≤ data.length) :
    readCloud nv = none := by
  have none {α : Type} := @readField_eq_none α _ _ _ _ contents long
  simp only [cloudKeys, List.mem_cons, List.not_mem_nil, or_false] at mem
  rcases mem with rfl | rfl | rfl
  · simp [readCloud, none]
  · simp [readCloud, none]
  · simp [readCloud, none]

theorem wifiOf_congr {nv nv' : Nv} (same : ∀ item ∈ wifiKeys, nv item = nv' item) :
    wifiOf nv = wifiOf nv' := by
  simp only [wifiOf, same .apSsid (by decide), same .apPass (by decide), same .apBssid (by decide),
    same .apAuthType (by decide)]

theorem cloudOf_congr {nv nv' : Nv} (same : ∀ item ∈ cloudKeys, nv item = nv' item) :
    cloudOf nv = cloudOf nv' := by
  simp only [cloudOf, same .serverUrl (by decide), same .serverPort (by decide),
    same .label (by decide)]

/-! ## What the two parts leave -/

private theorem text_bytes (t : CString) : text t.bytes = t.bytes :=
  List.takeWhile_eq_self_iff.mpr fun _ mem => decide_eq_true fun zero => t.noNul (zero ▸ mem)

private theorem text_take_of_zero {n : Nat} (v : Vector UInt8 (n + 1)) (count : Nat)
    (empty : isEmpty v = true) : text (v.toList.take count) = [] := by
  cases count with
  | zero => rfl
  | succ count =>
      have first : v.toList[0]? = some 0 := by simpa [isEmpty] using empty
      obtain ⟨rest, eq⟩ : ∃ rest, v.toList = 0 :: rest := by
        cases list : v.toList with
        | nil => exact absurd first (by simp [list])
        | cons b rest =>
            rw [list] at first
            exact ⟨rest, by rw [Option.some.inj first]⟩
      rw [eq]
      rfl

private theorem text_take_take (data : List UInt8) (count : Nat) :
    (text (data.take count)).take count = text (data.take count) :=
  List.take_of_length_le
    ((List.takeWhile_sublist _).length_le.trans (List.length_take_le count data))

theorem wifiOf_contents (w : WifiProvData) : wifiOf w.contents = w.read := by
  have ssid : (w.contents .apSsid).elim [] (fun data => (text data).take 32) = w.read.ssid := by
    by_cases empty : isEmpty w.ssid = true
    · simp [WifiProvData.contents, WifiProvData.read, empty, text_take_of_zero]
    · simp only [WifiProvData.contents, WifiProvData.read, if_neg empty, Option.elim_some,
        text_take_take]
  have password :
      (w.contents .apPass).elim [] (fun data => (text data).take 64) = w.read.password := by
    by_cases empty : isEmpty w.password = true
    · simp [WifiProvData.contents, WifiProvData.read, empty, text_take_of_zero]
    · simp only [WifiProvData.contents, WifiProvData.read, if_neg empty, Option.elim_some,
        text_take_take]
  have mac : (w.contents .apBssid).elim noMac macOf = (w.read.macStr, w.read.bssid) := by
    by_cases empty : isEmpty w.macStr = true
    · simp [WifiProvData.contents, WifiProvData.read, empty]
    · simp [WifiProvData.contents, WifiProvData.read, empty]
  have security : (w.contents .apAuthType).elim (-1) (fun data => atoi (text data)) =
      w.read.securityType := by
    by_cases unknown : w.securityType < 0 ∨ wifiAuthMax < w.securityType
    · simp [WifiProvData.contents, WifiProvData.read, unknown]
    · simp [WifiProvData.contents, WifiProvData.read, unknown, text, cstr_decimal, atoi_decimal]
  rw [wifiOf, ssid, password, mac, security]

theorem cloudOf_contents (c : CloudProvData) : cloudOf c.contents = c.read := by
  have field (t : Option CString) :
      (t.map CString.bytes).elim none (fun data => some (text data)) = t.map CString.bytes := by
    cases t with
    | none => rfl
    | some t => exact congrArg some (text_bytes t)
  have port : atoi (text (decimal c.brokerPort)) = c.brokerPort := by
    rw [text, cstr_decimal, atoi_decimal]
  simp only [cloudOf, CloudProvData.contents, CloudProvData.read, field, Option.elim_some, port]

theorem wifi_fits (w : WifiProvData) : ∀ item ∈ wifiKeys, Fits w.contents wifiDataSize item := by
  have taken {n : Nat} (v : Vector UInt8 n) {count : Nat} (short : count < wifiDataSize) :
      (v.toList.take count).length < wifiDataSize := (List.length_take_le _ _).trans_lt short
  intro item mem data contents
  simp only [wifiKeys, List.mem_cons, List.not_mem_nil, or_false] at mem
  rcases mem with rfl | rfl | rfl | rfl
  · obtain ⟨-, eq⟩ := Option.ite_none_left_eq_some.mp contents
    exact Option.some.inj eq ▸ taken _ (by decide)
  · obtain ⟨-, eq⟩ := Option.ite_none_left_eq_some.mp contents
    exact Option.some.inj eq ▸ taken _ (by decide)
  · obtain ⟨-, eq⟩ := Option.ite_none_left_eq_some.mp contents
    exact Option.some.inj eq ▸ taken _ (by decide)
  · obtain ⟨known, eq⟩ := Option.ite_none_left_eq_some.mp contents
    simp only [wifiAuthMax, not_or, Int.not_lt] at known
    have short := length_decimal_le (by omega : -2147483648 ≤ w.securityType) (by omega)
    exact Option.some.inj eq ▸ short.trans_lt (by decide)

theorem cloud_fits {c : CloudProvData} (short : ¬ c.Long) :
    ∀ item ∈ cloudKeys, Fits c.contents cloudDataSize item := by
  intro item mem data contents
  simp only [cloudKeys, List.mem_cons, List.not_mem_nil, or_false] at mem
  rcases mem with rfl | rfl | rfl
  · obtain ⟨url, some, rfl⟩ := Option.map_eq_some_iff.mp contents
    exact Nat.lt_of_not_le fun long => short (.inl ⟨url, some, long⟩)
  · obtain rfl : decimal c.brokerPort = data := Option.some.inj contents
    exact (length_decimal_le c.portFits.1 c.portFits.2).trans_lt (by decide)
  · obtain ⟨label, some, rfl⟩ := Option.map_eq_some_iff.mp contents
    exact Nat.lt_of_not_le fun long => short (.inr ⟨label, some, long⟩)

theorem exists_of_long {c : CloudProvData} (long : c.Long) :
    ∃ item ∈ cloudKeys, ∃ data, c.contents item = some data ∧ cloudDataSize ≤ data.length := by
  rcases long with ⟨url, eq, long⟩ | ⟨label, eq, long⟩
  · exact ⟨.serverUrl, by decide, url.bytes, Option.map_eq_some_iff.mpr ⟨url, eq, rfl⟩, long⟩
  · exact ⟨.label, by decide, label.bytes, Option.map_eq_some_iff.mpr ⟨label, eq, rfl⟩, long⟩

theorem iotNvGetProvData_eq {nv : Nv} (wifiDone : nv .wifiProvStatus = some statusDone)
    (cloudDone : nv .cloudProvStatus = some statusDone)
    (fits : ∀ item ∈ wifiKeys, Fits nv wifiDataSize item) :
    iotNvGetProvData nv = (readCloud nv).map fun cloud => (wifiOf nv, cloud) := by
  have wifi : isDone nv .wifiProvStatus wifiDataSize = true := by
    simp only [isDone, iotNvReadData, wifiDone]
    decide
  have cloud : isDone nv .cloudProvStatus cloudDataSize = true := by
    simp only [isDone, iotNvReadData, cloudDone]
    decide
  rw [iotNvGetProvData, iotNvGetWifiProvData, wifi, if_pos rfl, readWifi_eq fits,
    iotNvGetCloudProvData, cloud, if_pos rfl]
  cases readCloud nv with
  | none => rfl
  | some cloud => rfl

theorem iotNvGetProvData_of_wifi {nv : Nv} (taken : nv .wifiProvStatus = some statusNone) :
    iotNvGetProvData nv = none := by
  have wifi : isDone nv .wifiProvStatus wifiDataSize = false := by
    simp only [isDone, iotNvReadData, taken]
    decide
  rw [iotNvGetProvData, iotNvGetWifiProvData, wifi]
  rfl

theorem iotNvGetProvData_of_cloud {nv : Nv} (taken : nv .cloudProvStatus = some statusNone) :
    iotNvGetProvData nv = none := by
  have cloud : isDone nv .cloudProvStatus cloudDataSize = false := by
    simp only [isDone, iotNvReadData, taken]
    decide
  rw [iotNvGetProvData, iotNvGetCloudProvData, cloud]
  cases iotNvGetWifiProvData nv with
  | none => rfl
  | some wifi => rfl

section Update

variable {p : ProvData} {w : WifiProvData} {c : CloudProvData} {outcomes rest rest' : List Bool}

theorem wifi_left (ends : left (setWifiOps w) outcomes = some rest) (nv : Nv) :
    (run (setWifiOps w) outcomes nv).1 .wifiProvStatus = some statusDone ∧
      ∀ item ∈ wifiKeys, (run (setWifiOps w) outcomes nv).1 item =
        if item ∈ stuck (wifiItems w) outcomes.tail then nv item else w.contents item := by
  rw [setWifiOps, wifiItems_eq] at ends ⊢
  exact run_guarded_store nv ends (by decide) (by decide)

theorem cloud_left (ends : left (setCloudOps c) outcomes = some rest) (nv : Nv) :
    (run (setCloudOps c) outcomes nv).1 .cloudProvStatus = some statusDone ∧
      ∀ item ∈ cloudKeys, (run (setCloudOps c) outcomes nv).1 item =
        if item ∈ stuck (cloudItems c) outcomes.tail then nv item else c.contents item := by
  have accepted := cloudItems_eq ends
  rw [setCloudOps, accepted] at ends ⊢
  exact run_guarded_store nv ends (by decide) (by decide)

/-- The wifi part does not touch the items of the cloud part. -/
theorem wifi_outside (outcomes : List Bool) (nv : Nv) :
    ∀ item ∈ .cloudProvStatus :: cloudKeys,
      (run (setWifiOps w) outcomes nv).1 item = nv item := by
  intro item mem
  refine run_guarded_outside _ _ ?_ ?_
  · revert item
    decide
  · rw [wifiItems_eq, items_store]
    revert item
    decide

/-- The cloud part does not touch the items of the wifi part. -/
theorem cloud_outside (ends : left (setCloudOps c) outcomes = some rest) (nv : Nv) :
    ∀ item ∈ .wifiProvStatus :: wifiKeys,
      (run (setCloudOps c) outcomes nv).1 item = nv item := by
  intro item mem
  refine run_guarded_outside _ _ ?_ ?_
  · revert item
    decide
  · rw [cloudItems_eq ends, items_store]
    revert item
    decide

theorem set_of_left (ends : left (setWifiOps p.wifi) outcomes = some rest) (nv : Nv) :
    iotNvSetProvData p outcomes nv =
      run (setCloudOps p.cloud) rest (run (setWifiOps p.wifi) outcomes nv).1 := by
  have returned := run_snd (setWifiOps p.wifi) outcomes nv
  rw [ends] at returned
  rw [iotNvSetProvData]
  split
  · rename_i eq
    rw [eq] at returned ⊢
    rw [Option.some.inj returned]
  · rename_i eq
    rw [eq] at returned
    exact absurd returned (by simp)

theorem set_of_not_left (stops : left (setWifiOps p.wifi) outcomes = none) (nv : Nv) :
    (iotNvSetProvData p outcomes nv).1 = (run (setWifiOps p.wifi) outcomes nv).1 := by
  have returned := run_snd (setWifiOps p.wifi) outcomes nv
  rw [stops] at returned
  rw [iotNvSetProvData]
  split
  · rename_i eq
    rw [eq] at returned
    exact absurd returned (by simp)
  · rename_i eq
    rw [eq]

/-- What is in memory when both parts came to their end. -/
structure Both (p : ProvData) (outcomes rest : List Bool) (nv after : Nv) : Prop where
  wifiDone : after .wifiProvStatus = some statusDone
  cloudDone : after .cloudProvStatus = some statusDone
  wifi : ∀ item ∈ wifiKeys, after item =
    if item ∈ stuck (wifiItems p.wifi) outcomes.tail then nv item else p.wifi.contents item
  cloud : ∀ item ∈ cloudKeys, after item =
    if item ∈ stuck (cloudItems p.cloud) rest.tail then nv item else p.cloud.contents item

theorem both_of_left (wifiEnds : left (setWifiOps p.wifi) outcomes = some rest)
    (cloudEnds : left (setCloudOps p.cloud) rest = some rest') (nv : Nv) :
    Both p outcomes rest nv (iotNvSetProvData p outcomes nv).1 := by
  obtain ⟨wifiDone, wifi⟩ := wifi_left wifiEnds nv
  obtain ⟨cloudDone, cloud⟩ := cloud_left cloudEnds (run (setWifiOps p.wifi) outcomes nv).1
  have kept := cloud_outside cloudEnds (run (setWifiOps p.wifi) outcomes nv).1
  rw [set_of_left wifiEnds]
  refine ⟨?_, cloudDone, ?_, ?_⟩
  · rw [kept _ List.mem_cons_self, wifiDone]
  · intro item mem
    rw [kept _ (List.mem_cons_of_mem _ mem), wifi item mem]
  · intro item mem
    rw [cloud item mem, wifi_outside _ _ _ (List.mem_cons_of_mem _ mem)]

/-- Without a failed erase the new data are read. -/
theorem Both.read_of_short {nv after : Nv} (both : Both p outcomes rest nv after)
    (short : ¬ p.cloud.Long) (wifiFree : stuck (wifiItems p.wifi) outcomes.tail = [])
    (cloudFree : stuck (cloudItems p.cloud) rest.tail = []) :
    iotNvGetProvData after = some p.read := by
  have wifi : ∀ item ∈ wifiKeys, after item = p.wifi.contents item := by
    intro item mem
    rw [both.wifi item mem, wifiFree, if_neg List.not_mem_nil]
  have cloud : ∀ item ∈ cloudKeys, after item = p.cloud.contents item := by
    intro item mem
    rw [both.cloud item mem, cloudFree, if_neg List.not_mem_nil]
  have wifiFits : ∀ item ∈ wifiKeys, Fits after wifiDataSize item := fun item mem data eq =>
    wifi_fits p.wifi item mem data (wifi item mem ▸ eq)
  have cloudFits : ∀ item ∈ cloudKeys, Fits after cloudDataSize item := fun item mem data eq =>
    cloud_fits short item mem data (cloud item mem ▸ eq)
  rw [iotNvGetProvData_eq both.wifiDone both.cloudDone wifiFits, readCloud_eq cloudFits,
    wifiOf_congr wifi, cloudOf_congr cloud, wifiOf_contents, cloudOf_contents]
  rfl

/-- A text that is too long makes the data unreadable. -/
theorem Both.unreadable_of_long {nv after : Nv} (both : Both p outcomes rest nv after)
    (cloudEnds : left (setCloudOps p.cloud) rest = some rest') (long : p.cloud.Long) :
    iotNvGetProvData after = none := by
  obtain ⟨item, mem, data, wanted, long⟩ := exists_of_long long
  have free : item ∉ stuck (cloudItems p.cloud) rest.tail := by
    rw [cloudItems_eq cloudEnds]
    intro failed
    exact absurd (wanted.symm.trans (eq_none_of_mem_stuck failed)) (by simp)
  have contents : after item = some data := by rw [both.cloud item mem, if_neg free, wanted]
  have cloud : iotNvGetCloudProvData after = none := by
    rw [iotNvGetCloudProvData, readCloud_eq_none mem contents long, ite_self]
  rw [iotNvGetProvData, cloud]
  cases iotNvGetWifiProvData after with
  | none => rfl
  | some wifi => rfl

/-- The careful updates are whole. -/
theorem Careful.whole (careful : Careful p outcomes) (nv : Nv) : Whole p outcomes nv := by
  rw [Whole]
  cases wifiEnds : left (setWifiOps p.wifi) outcomes with
  | none =>
      rw [set_of_not_left wifiEnds]
      cases begins : begun outcomes with
      | false =>
          rw [setWifiOps, run_guarded_of_not_begun _ _ begins]
          exact .inr (.inl rfl)
      | true =>
          refine .inl (iotNvGetProvData_of_wifi (run_guarded_of_begun nv begins wifiEnds ?_))
          rw [wifiItems_eq, items_store]
          decide
  | some rest =>
      obtain ⟨begins, last⟩ := careful rest wifiEnds
      cases cloudEnds : left (setCloudOps p.cloud) rest with
      | none =>
          rw [set_of_left wifiEnds]
          exact .inl (iotNvGetProvData_of_cloud (run_guarded_of_begun _ begins cloudEnds
            (cloudProvStatus_notMem _)))
      | some rest' =>
          have both := both_of_left wifiEnds cloudEnds nv
          by_cases long : p.cloud.Long
          · exact .inl (both.unreadable_of_long cloudEnds long)
          · obtain ⟨wifiFree, cloudFree⟩ := (last rest' cloudEnds).resolve_left long
            exact .inr (.inr (both.read_of_short long wifiFree cloudFree))

end Update

/-! ## The other updates -/

/-- A text of one character. -/
def oneChar (n : Nat) (c : UInt8) : Vector UInt8 (n + 1) :=
  ⟨(c :: List.replicate n 0).toArray, by simp⟩

/-- Data with a value in every field, with one port or another. -/
def other (second : Bool) : ProvData where
  wifi :=
    { ssid := oneChar 32 97
      password := oneChar 64 97
      macStr := ⟨(CString.ascii "00:00:00:00:00:00" ++ [0]).toArray, by decide⟩
      securityType := 0 }
  cloud :=
    { brokerUrl := some ⟨[97], by decide⟩
      brokerPort := if second then 2 else 1
      label := some ⟨[97], by decide⟩
      portFits := by cases second <;> decide }

/-- Memory that holds the other data, but for an update that was cut off at its start. -/
def interrupted (second : Bool) : Nv :=
  (iotNvSetProvData (other second) [true]
    (iotNvSetProvData (other second) (List.replicate 11 true) fun _ => none).1).1

theorem interrupted_reachable (second : Bool) : Reachable (interrupted second) :=
  .set _ _ (.set _ _ .blank)

theorem interrupted_wifi (second : Bool) :
    ∀ item ∈ wifiKeys, interrupted second item = (other second).wifi.contents item := by
  cases second <;> decide

theorem interrupted_cloud (second : Bool) :
    ∀ item ∈ cloudKeys, interrupted second item = (other second).cloud.contents item := by
  cases second <;> decide

theorem interrupted_status (second : Bool) :
    interrupted second .wifiProvStatus = some statusNone ∧
      interrupted second .cloudProvStatus = some statusDone := by
  cases second <;> decide

theorem other_short (second : Bool) : ¬ (other second).cloud.Long := by
  simp [CloudProvData.Long, other, CString.strlen, cloudDataSize]

/-- A field of the other data shows. -/
theorem wifiOf_ne {nv nv' : Nv} {second : Bool} {item : Item} (mem : item ∈ wifiKeys)
    (kept : nv item = (other second).wifi.contents item) (missing : nv' item = none) :
    wifiOf nv ≠ wifiOf nv' := by
  intro same
  simp only [wifiKeys, List.mem_cons, List.not_mem_nil, or_false] at mem
  rcases mem with rfl | rfl | rfl | rfl
  · have field := congrArg WifiRead.ssid same
    simp only [wifiOf, kept, missing] at field
    exact absurd field (by cases second <;> decide)
  · have field := congrArg WifiRead.password same
    simp only [wifiOf, kept, missing] at field
    exact absurd field (by cases second <;> decide)
  · have field := congrArg WifiRead.macStr same
    simp only [wifiOf, kept, missing] at field
    exact absurd field (by cases second <;> decide)
  · have field := congrArg WifiRead.securityType same
    simp only [wifiOf, kept, missing] at field
    exact absurd field (by cases second <;> decide)

theorem cloudOf_ne {nv nv' : Nv} {second : Bool} {item : Item} (mem : item ∈ cloudKeys)
    (kept : nv item = (other second).cloud.contents item) (missing : nv' item = none) :
    cloudOf nv ≠ cloudOf nv' := by
  intro same
  simp only [cloudKeys, List.mem_cons, List.not_mem_nil, or_false] at mem
  rcases mem with rfl | rfl | rfl
  · have field := congrArg CloudRead.brokerUrl same
    simp only [cloudOf, kept, missing] at field
    exact absurd field (by cases second <;> decide)
  · have field := congrArg CloudRead.brokerPort same
    simp only [cloudOf, kept, missing] at field
    exact absurd field (by cases second <;> decide)
  · have field := congrArg CloudRead.label same
    simp only [cloudOf, kept, missing] at field
    exact absurd field (by cases second <;> decide)

/-- Data are read where every item is of some data that can be read. -/
theorem iotNvGetProvData_of_items {nv : Nv} (wifiDone : nv .wifiProvStatus = some statusDone)
    (cloudDone : nv .cloudProvStatus = some statusDone)
    (wifi : ∀ item ∈ wifiKeys, ∃ w : WifiProvData, nv item = w.contents item)
    (cloud : ∀ item ∈ cloudKeys, ∃ c : CloudProvData, ¬ c.Long ∧ nv item = c.contents item) :
    iotNvGetProvData nv = some (wifiOf nv, cloudOf nv) := by
  have wifiFits : ∀ item ∈ wifiKeys, Fits nv wifiDataSize item := by
    intro item mem data eq
    obtain ⟨w, same⟩ := wifi item mem
    exact wifi_fits w item mem data (same ▸ eq)
  have cloudFits : ∀ item ∈ cloudKeys, Fits nv cloudDataSize item := by
    intro item mem data eq
    obtain ⟨c, short, same⟩ := cloud item mem
    exact cloud_fits short item mem data (same ▸ eq)
  rw [iotNvGetProvData_eq wifiDone cloudDone wifiFits, readCloud_eq cloudFits]
  rfl

section Broken

variable {p : ProvData} {outcomes rest rest' : List Bool} {second : Bool}

/-- Data that are neither missing nor the new ones are not what was there before. -/
theorem not_whole_of_ne {data : WifiRead × CloudRead}
    (read : iotNvGetProvData (iotNvSetProvData p outcomes (interrupted second)).1 = some data)
    (different : data ≠ p.read) : ¬ Whole p outcomes (interrupted second) := by
  have before := iotNvGetProvData_of_wifi (interrupted_status second).1
  intro whole
  simp only [Whole, read, before] at whole
  rcases whole with error | old | new
  · exact absurd error (by simp)
  · exact absurd old (by simp)
  · exact different (Option.some.inj new)

/-- New wifi data under their status, and the old cloud data still under theirs. -/
theorem not_whole_of_not_begun (ends : left (setWifiOps p.wifi) outcomes = some rest)
    (stops : begun rest = false) (port : (other second).cloud.brokerPort ≠ p.cloud.brokerPort) :
    ¬ Whole p outcomes (interrupted second) := by
  obtain ⟨wifiDone, wifi⟩ := wifi_left ends (interrupted second)
  have kept := @wifi_outside p.wifi outcomes (interrupted second)
  have cloud : ∀ item ∈ cloudKeys, (run (setWifiOps p.wifi) outcomes (interrupted second)).1 item =
      (other second).cloud.contents item := by
    intro item mem
    rw [kept _ (List.mem_cons_of_mem _ mem), interrupted_cloud _ _ mem]
  have after : (iotNvSetProvData p outcomes (interrupted second)).1 =
      (run (setWifiOps p.wifi) outcomes (interrupted second)).1 := by
    rw [set_of_left ends, setCloudOps, run_guarded_of_not_begun _ _ stops]
  have read : iotNvGetProvData (iotNvSetProvData p outcomes (interrupted second)).1 =
      some (wifiOf (run (setWifiOps p.wifi) outcomes (interrupted second)).1,
        (other second).cloud.read) := by
    rw [after, ← cloudOf_contents, ← cloudOf_congr cloud]
    refine iotNvGetProvData_of_items wifiDone ?_ ?_ ?_
    · rw [kept _ List.mem_cons_self, (interrupted_status second).2]
    · intro item mem
      rw [wifi item mem, interrupted_wifi _ _ mem]
      split
      · exact ⟨_, rfl⟩
      · exact ⟨_, rfl⟩
    · exact fun item mem => ⟨_, other_short second, cloud item mem⟩
  refine not_whole_of_ne read ?_
  exact fun same => port (congrArg (fun data : WifiRead × CloudRead => data.2.brokerPort) same)

/-- An old field among new ones. -/
theorem not_whole_of_stuck (wifiEnds : left (setWifiOps p.wifi) outcomes = some rest)
    (cloudEnds : left (setCloudOps p.cloud) rest = some rest') (short : ¬ p.cloud.Long)
    (failed : stuck (wifiItems p.wifi) outcomes.tail ≠ [] ∨
      stuck (cloudItems p.cloud) rest.tail ≠ []) (second : Bool) :
    ¬ Whole p outcomes (interrupted second) := by
  have both := both_of_left wifiEnds cloudEnds (interrupted second)
  have read : iotNvGetProvData (iotNvSetProvData p outcomes (interrupted second)).1 =
      some (wifiOf (iotNvSetProvData p outcomes (interrupted second)).1,
        cloudOf (iotNvSetProvData p outcomes (interrupted second)).1) := by
    refine iotNvGetProvData_of_items both.wifiDone both.cloudDone ?_ ?_
    · intro item mem
      rw [both.wifi item mem, interrupted_wifi _ _ mem]
      split
      · exact ⟨_, rfl⟩
      · exact ⟨_, rfl⟩
    · intro item mem
      rw [both.cloud item mem, interrupted_cloud _ _ mem]
      split
      · exact ⟨_, other_short second, rfl⟩
      · exact ⟨_, short, rfl⟩
  refine not_whole_of_ne read ?_
  intro same
  rcases failed with failed | failed
  · obtain ⟨item, stuck⟩ := List.exists_mem_of_ne_nil _ failed
    have mem : item ∈ wifiKeys := by
      rw [← items_store wifiKeys p.wifi.contents, ← wifiItems_eq]
      exact stuck_subset _ _ _ stuck
    have kept := both.wifi item mem
    rw [if_pos stuck, interrupted_wifi _ _ mem] at kept
    rw [wifiItems_eq] at stuck
    refine wifiOf_ne mem kept (eq_none_of_mem_stuck stuck) ?_
    rw [wifiOf_contents]
    exact congrArg Prod.fst same
  · obtain ⟨item, stuck⟩ := List.exists_mem_of_ne_nil _ failed
    have mem : item ∈ cloudKeys := by
      rw [← items_store cloudKeys p.cloud.contents, ← cloudItems_eq cloudEnds]
      exact stuck_subset _ _ _ stuck
    have kept := both.cloud item mem
    rw [if_pos stuck, interrupted_cloud _ _ mem] at kept
    rw [cloudItems_eq cloudEnds] at stuck
    refine cloudOf_ne mem kept (eq_none_of_mem_stuck stuck) ?_
    rw [cloudOf_contents]
    exact congrArg Prod.snd same

/-- Some memory that earlier calls left shows every careless update. -/
theorem Careful.of_whole (whole : ∀ nv, Reachable nv → Whole p outcomes nv) :
    Careful p outcomes := by
  intro rest wifiEnds
  have wholly (second : Bool) := whole _ (interrupted_reachable second)
  refine ⟨?_, ?_⟩
  · by_contra stops
    have stops : begun rest = false := by simpa using stops
    have ports : (other (decide (p.cloud.brokerPort = 1))).cloud.brokerPort ≠
        p.cloud.brokerPort := by
      by_cases one : p.cloud.brokerPort = 1
      · simp [other, one]
      · simpa [other, one] using fun same => one same.symm
    exact not_whole_of_not_begun wifiEnds stops ports (wholly _)
  · intro rest' cloudEnds
    by_contra careless
    obtain ⟨short, failed⟩ := not_or.mp careless
    exact not_whole_of_stuck wifiEnds cloudEnds short (not_and_or.mp failed) true (wholly true)

end Broken

/-- The other data with another name of the network. -/
def renamed : ProvData :=
  { other true with
    wifi := { (other true).wifi with ssid := oneChar 32 98 } }

end StDevice.NvData
