import StDevice.Foundation.Hex
import StDevice.NvData.Broker

/-!
# Provisioning data are read back as they were stored

Where every write and erase succeeds, both parts come to their end, whatever was in memory
before: a missing value is erased, the array of a text is stored without its last byte and
read back as text, and a MAC address is stored as the 17 characters it is read from.
-/

namespace StDevice.NvData

open Decimal Nonvolatile

/-! ## MAC addresses -/

/-- Six octets of two hexadecimal digits. -/
structure MacText where
  octets : List (UInt8 × UInt8)
  six : octets.length = 6
  digits : ∀ octet ∈ octets, Hex.IsDigit octet.1 ∧ Hex.IsDigit octet.2

/-- Octets with colons between them. -/
def macChars : List (UInt8 × UInt8) → List UInt8
  | [] => []
  | [(high, low)] => [high, low]
  | (high, low) :: octets => high :: low :: 58 :: macChars octets

/-- The bytes of some octets. -/
def macBytes (octets : List (UInt8 × UInt8)) : List UInt8 :=
  octets.map fun octet => Hex.join (Hex.value octet.1) (Hex.value octet.2)

def MacText.text (m : MacText) : List UInt8 := macChars m.octets

def MacText.addr (m : MacText) : List UInt8 := macBytes m.octets

/-- What the loop of `iot_util_convert_str_mac` takes a digit for. -/
private theorem nibble_eq {c : UInt8} (digit : Hex.IsDigit c) :
    (if isAlpha c then hexLetter c else some (c - 48)) = some (Hex.value c) := by
  unfold Hex.IsDigit at digit
  simp only [isAlpha, hexLetter, Hex.value, Bool.or_eq_true, Bool.and_eq_true, decide_eq_true_eq]
  grind

/-- An octet at the beginning of its group. -/
private theorem loop_octet (m : Nat) (addr rest : List UInt8) {high low : UInt8}
    (first : Hex.IsDigit high) (second : Hex.IsDigit low) :
    convertStrMacLoop (3 * m) m (2 * m + 1) 0 addr (high :: low :: rest) =
      convertStrMacLoop (3 * m + 2) (m + 1) (2 * (m + 1) + 1) 0
        (addr ++ [Hex.join (Hex.value high) (Hex.value low)]) rest := by
  have start : ¬ 3 * m % 3 = 2 := by omega
  have middle : ¬ (3 * m + 1) % 3 = 2 := by omega
  have odd : ¬ (m + 1) * 2 = 2 * m + 1 := by omega
  have even : (m + 1) * 2 = 2 * m + 1 + 1 := by omega
  rw [convertStrMacLoop, if_neg start, nibble_eq first]
  simp only [if_neg odd]
  rw [convertStrMacLoop, if_neg middle, nibble_eq second]
  simp only [if_pos even, UInt8.zero_or]
  rfl

/-- The octets are read one after another. -/
theorem convertStrMacLoop_macChars {octets : List (UInt8 × UInt8)}
    (digits : ∀ octet ∈ octets, Hex.IsDigit octet.1 ∧ Hex.IsDigit octet.2) (m : Nat)
    (addr : List UInt8) :
    convertStrMacLoop (3 * m) m (2 * m + 1) 0 addr (macChars octets) =
      some (addr ++ macBytes octets) := by
  induction octets generalizing m addr with
  | nil => rw [macChars, convertStrMacLoop, macBytes, List.map_nil, List.append_nil]
  | cons octet octets ih =>
      obtain ⟨high, low⟩ := octet
      obtain ⟨first, second⟩ := digits (high, low) List.mem_cons_self
      cases octets with
      | nil =>
          rw [macChars, loop_octet m addr [] first second, convertStrMacLoop]
          rfl
      | cons next octets =>
          have colon : (3 * m + 2) % 3 = 2 := by omega
          rw [macChars, loop_octet m addr _ first second, convertStrMacLoop, if_pos colon,
            if_pos rfl]
          rw [show 3 * m + 2 + 1 = 3 * (m + 1) by omega,
            ih (fun octet inside => digits octet (List.mem_cons_of_mem _ inside)) (m + 1),
            List.append_assoc]
          rfl
          exact fun impossible => absurd impossible (by simp)

theorem length_macChars (octets : List (UInt8 × UInt8)) :
    (macChars octets).length = 3 * octets.length - 1 := by
  induction octets with
  | nil => rfl
  | cons octet octets ih =>
      cases octets with
      | nil => rfl
      | cons next octets =>
          rw [macChars, List.length_cons, List.length_cons, List.length_cons, ih]
          · simp only [List.length_cons]
            omega
          · exact fun impossible => absurd impossible (by simp)

private theorem notMem_macChars {octets : List (UInt8 × UInt8)}
    (digits : ∀ octet ∈ octets, Hex.IsDigit octet.1 ∧ Hex.IsDigit octet.2) :
    0 ∉ macChars octets := by
  have zero : ¬ Hex.IsDigit 0 := by decide
  induction octets with
  | nil => exact List.not_mem_nil
  | cons octet octets ih =>
      obtain ⟨first, second⟩ := digits octet List.mem_cons_self
      have later := ih fun octet inside => digits octet (List.mem_cons_of_mem _ inside)
      have high : (0 : UInt8) ≠ octet.1 := fun same => zero (same ▸ first)
      have low : (0 : UInt8) ≠ octet.2 := fun same => zero (same ▸ second)
      cases octets with
      | nil => simp [macChars, high, low]
      | cons next octets =>
          rw [macChars]
          · simp only [List.mem_cons, not_or]
            exact ⟨high, low, by decide, later⟩
          · exact fun impossible => absurd impossible (by simp)

namespace MacText

theorem length_text (m : MacText) : m.text.length = 17 := by
  rw [text, length_macChars, m.six]

theorem cstr_text (m : MacText) : CString.cstr m.text = m.text := by
  have plain := CString.cstr_append_of_notMem (notMem_macChars m.digits) []
  rwa [List.append_nil, show CString.cstr [] = [] from rfl, List.append_nil] at plain

/-- `iot_util_convert_str_mac` of the text of an address. -/
theorem convert_text (m : MacText) : iotUtilConvertStrMac m.text = some m.addr := by
  have loop := convertStrMacLoop_macChars m.digits 0 []
  rw [iotUtilConvertStrMac, m.cstr_text, if_neg (fun other => other m.length_text)]
  exact loop

theorem macOf_text (m : MacText) : macOf m.text = (m.text, m.addr) := by
  have whole : m.text.take 17 = m.text := List.take_of_length_le (Nat.le_of_eq m.length_text)
  rw [macOf, if_pos (Nat.le_of_eq m.length_text.symm), whole, m.convert_text]

end MacText

/-! ## Texts in arrays -/

/-- The last byte of an array is not stored, and a text that ends in the array does not
need it. -/
private theorem text_take_of_terminated {data : List UInt8} {n : Nat} (size : data.length = n + 1)
    (ends : 0 ∈ data) : text (data.take n) = CString.cstr data := by
  have short : (CString.cstr data).length ≤ n := by
    by_contra long
    have prefixed : CString.cstr data <+: data := List.takeWhile_prefix _
    have whole : CString.cstr data = data :=
      prefixed.eq_of_length (by have := prefixed.length_le; omega)
    exact CString.notMem_cstr data (whole.symm ▸ ends)
  rw [text, CString.cstr, ← List.take_takeWhile]
  exact List.take_of_length_le short

/-- A text of 17 characters in the array of a MAC address. -/
private theorem take_of_cstr {data : List UInt8} {m : MacText}
    (holds : CString.cstr data = m.text) : data.take 17 = m.text := by
  have prefixed : m.text <+: data := holds ▸ List.takeWhile_prefix _
  rw [← m.length_text]
  exact (List.prefix_iff_eq_take.mp prefixed).symm

/-! ## Both parts -/

/-- Data that `iot_nv_set_prov_data` is called with: texts that end in their arrays, no MAC
address or a valid one, and texts of the cloud part that are missing, or not empty and
shorter than the buffer they are read into. -/
structure ProvData.Valid (p : ProvData) : Prop where
  ssid : 0 ∈ p.wifi.ssid.toList
  password : 0 ∈ p.wifi.password.toList
  mac : CString.cstr p.wifi.macStr.toList = [] ∨
    ∃ m : MacText, CString.cstr p.wifi.macStr.toList = m.text
  cloud : p.cloud.Storable

/-- Where nothing fails, both parts come to their end. -/
private theorem ends_of_storable {p : ProvData} (storable : p.cloud.Storable) (n : Nat) :
    left (setWifiOps p.wifi) (List.replicate (11 + n) true) =
        some (List.replicate (5 + n) true) ∧
      left (setCloudOps p.cloud) (List.replicate (5 + n) true) = some (List.replicate n true) := by
  have wifi : Op.refuse ∉ setWifiOps p.wifi := by
    rw [setWifiOps, wifiItems_eq]
    exact refuse_notMem_guarded_store _ _ _ _ _
  have cloud : Op.refuse ∉ setCloudOps p.cloud :=
    mt (refuse_mem_setCloudOps_iff p.cloud).mp ((storable_iff p.cloud).mp storable).1
  constructor
  · have ends := left_replicate_add wifi (5 + n)
    rwa [show (setWifiOps p.wifi).length + (5 + n) = 11 + n from by
      rw [show (setWifiOps p.wifi).length = 6 from rfl]
      omega] at ends
  · exact left_replicate_add cloud n

theorem set_all_success {p : ProvData} (storable : p.cloud.Storable) (nv : Nv) (n : Nat) :
    (iotNvSetProvData p (List.replicate (11 + n) true) nv).2 = some (List.replicate n true) ∧
      iotNvGetProvData (iotNvSetProvData p (List.replicate (11 + n) true) nv).1 =
        some p.read := by
  obtain ⟨wifiEnds, cloudEnds⟩ := ends_of_storable storable n
  constructor
  · rw [set_of_left wifiEnds, run_snd, cloudEnds]
  · refine (both_of_left wifiEnds cloudEnds nv).read_of_short ((storable_iff _).mp storable).2 ?_ ?_
    · rw [List.tail_replicate, stuck_replicate]
    · rw [List.tail_replicate, stuck_replicate]

private theorem isEmpty_iff {n : Nat} (v : Vector UInt8 (n + 1)) :
    isEmpty v = true ↔ CString.cstr v.toList = [] := by
  have cells : v.toList = v[0] :: v.toList.tail := by
    cases list : v.toList with
    | nil => exact absurd (congrArg List.length list) (by simp)
    | cons b rest =>
        have first : v.toList[0]? = some v[0] := by simp
        rw [list] at first
        rw [List.tail_cons, ← Option.some.inj first]
  rw [cells, isEmpty, CString.cstr]
  by_cases nul : v[0] = 0
  · simp [nul]
  · simp [nul]

/-- What is read of the MAC address. -/
private theorem mac_read {w : WifiProvData} {m : MacText}
    (holds : CString.cstr w.macStr.toList = m.text) :
    w.read.macStr = m.text ∧ w.read.bssid = m.addr := by
  have filled : ¬ isEmpty w.macStr = true := by
    rw [isEmpty_iff, holds]
    exact fun empty => absurd (congrArg List.length empty) (by rw [m.length_text]; decide)
  have mac : macOf (w.macStr.toList.take 17) = (m.text, m.addr) := by
    rw [take_of_cstr holds, m.macOf_text]
  simp only [WifiProvData.read, if_neg filled, mac, and_self]

private theorem noMac_read {w : WifiProvData} (empty : CString.cstr w.macStr.toList = []) :
    w.read.macStr = [] ∧ w.read.bssid = List.replicate 6 0 := by
  simp only [WifiProvData.read, if_pos ((isEmpty_iff w.macStr).mpr empty), noMac, and_self]

/-- The text `00:00:00:00:00:00`. -/
def zeroMac : MacText where
  octets := List.replicate 6 (48, 48)
  six := rfl
  digits octet inside := by
    obtain rfl := List.eq_of_mem_replicate inside
    decide

theorem other_valid (second : Bool) : (other second).Valid where
  ssid := by
    change 0 ∈ (oneChar 32 97).toList
    decide
  password := by
    change 0 ∈ (oneChar 64 97).toList
    decide
  mac := .inr ⟨zeroMac, by cases second <;> decide⟩
  cloud := by
    intro t which
    have text : t = ⟨[97], by decide⟩ := by
      obtain url | label := which
      · exact (Option.some.inj url).symm
      · exact (Option.some.inj label).symm
    rw [text]
    exact ⟨by decide, by decide⟩

end StDevice.NvData
