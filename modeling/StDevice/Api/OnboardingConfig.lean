import StDevice.Api.DeviceInfo
import StDevice.Easysetup.Ownership
import StDevice.Security.WebToken

/-!
# Loading the onboarding config

`iot_api_onboarding_config_load` keeps the pointers to its copies in local variables until
nothing can fail any more, and frees them where something does.
-/

namespace StDevice.Api

open Util (IotUuid iotUtilConvertStrUuid)
open Easysetup (Feature)
open Security (PkType)

/-- The members of `onboardingConfig` that are copied. -/
inductive ConfigField where
  | deviceOnboardingId | mnid | setupid | vid | deviceType
  deriving DecidableEq

namespace ConfigField

def name : ConfigField → String
  | deviceOnboardingId => "deviceOnboardingId"
  | mnid => "mnId"
  | setupid => "setupId"
  | vid => "vid"
  | deviceType => "deviceTypeId"

/-- In the order in which they are copied. -/
def all : List ConfigField := [deviceOnboardingId, mnid, setupid, vid, deviceType]

end ConfigField

/-- The fields of `struct iot_devconf_prov_data` that are loaded. -/
structure IotDevconfProvData where
  pointer : ConfigField → Option Nat
  ownershipValidationType : Nat
  pkType : PkType
  ssidVersion : UInt8
  dip : Option Nat

/-- The variables of `iot_api_onboarding_config_load` that `load_out` looks at. -/
structure ConfigLoad extends Copies ConfigField where
  newDip : Option Nat

/-- The conversion of a double to `unsigned char`. The language says nothing about numbers
that do not fit, which become what the compiler makes of them. -/
def toUnsignedChar (compiler : UInt64 → UInt8) (bits : UInt64) : UInt8 :=
  match Double.toInt bits with
  | some n => if 0 ≤ n ∧ n < 256 then UInt8.ofNat n.toNat else compiler bits
  | none => compiler bits

/-- `is_valid_ssid_version`. -/
def isValidSsidVersion (version : UInt8) : Bool := version == 4 || version == 5

/-- `is_valid_onboarding_id_len`, for a build with or without
CONFIG_STDK_IOT_CORE_EASYSETUP_BLE. -/
def isValidOnboardingIdLen (ble : Bool) (len : Nat) (ssidVersion : UInt8) : Bool :=
  ble || decide (len ≤ if ssidVersion = 4 then 13 else 14)

/-- The check of a text before it is copied. -/
def ConfigField.valid (ble : Bool) (ssidVersion : UInt8) (text : List UInt8) : ConfigField → Bool
  | deviceOnboardingId => isValidOnboardingIdLen ble text.length ssidVersion
  | mnid => text ≠ CString.ascii "MNID"
  | deviceType => text ≠ CString.ascii "TYPE"
  | _ => true

/-- The feature that a validation type names. -/
def featureNamed (text : List UInt8) : Option Feature :=
  if text = CString.ascii "JUSTWORKS" then some .justworks
  else if text = CString.ascii "BUTTON" then some .button
  else if text = CString.ascii "PIN" then some .pin
  else if text = CString.ascii "QR" then some .qr
  else if text = CString.ascii "SERIALNUMBER" then some .serialNumber
  else if text = CString.ascii "HASHEDSERIALNUMBER" then some .hashedSerialNumber
  else none

/-- The loop over `ownershipValidationTypes`; items that are no strings are passed over. -/
def ownershipTypes (types : Nat) : List Json → Option Nat
  | [] => some types
  | ovf :: items =>
      match ovf.valuestring with
      | none => ownershipTypes types items
      | some text =>
          match featureNamed (CString.cstr text) with
          | none => none
          | some feature => ownershipTypes (types ||| 1 <<< feature.bit) items

section OnboardingConfig

variable (ble : Bool) (compiler : UInt64 → UInt8) (config : Json) (allocates : ConfigField → Bool)

/-- `ssid_version`. -/
def ssidVersionOf : Option UInt8 :=
  match config.getObjectItem "ssidVersion" with
  | none => some 4
  | some item =>
      let version := toUnsignedChar compiler item.valuedouble
      if isValidSsidVersion version then some version else none

/-- One member that is copied. -/
def copyMember (ssidVersion : UInt8) (s : ConfigLoad) (f : ConfigField) :
    Fallible (LoadError × ConfigLoad) ConfigLoad :=
  match config.getObjectItem f.name with
  | none => .failed (.uninitialized, s)
  | some item =>
      match item.valuestring with
      | none => .stopped
      | some text =>
          if f.valid ble ssidVersion (CString.cstr text) = false then .failed (.uninitialized, s)
          else if allocates f then .done ⟨s.copy f (CString.cstr text), s.newDip⟩
          else .failed (.memAlloc, s)

/-- `ownership_validation_type`. -/
def ownershipValidationTypeOf : Option Nat := do
  let item ← config.getObjectItem "ownershipValidationTypes"
  let types ← ownershipTypes 0 (item.children.map Prod.snd)
  if types = 0 then none else some types

/-- `pk_type`. -/
def pkTypeOf : Fallible LoadError PkType :=
  match config.getObjectItem "identityType" with
  | none => .done .ed25519
  | some item => do
      let text ← .deref item.valuestring
      if CString.cstr text = CString.ascii "ED25519" then .done .ed25519
      else if CString.cstr text = CString.ascii "X509" then .done .eccp256
      else .failed .uninitialized

/-- What `memset` makes of a fresh `struct iot_dip_data`. -/
def zeroDip : IotDipData := ⟨Util.zeroUuid, 0, 0⟩

/-- The fields of `new_dip`. -/
def dipOf (dip : Json) : Fallible LoadError IotDipData := do
  let item ← .orFail (dip.getObjectItem "id") .uninitialized
  let dipId ← .orFail (iotUtilConvertStrUuid item.valuestring (some zeroDip.dipId)) .invalidArgs
  let major ← .orFail (dip.getObjectItem "majorVersion") .uninitialized
  let minor := ((dip.getObjectItem "minorVersion").map Json.valueint).getD 0
  .done ⟨dipId, .ofInt major.valueint, .ofInt minor⟩

/-- The error of a part, with the variables at the `goto`. -/
def atGoto {α : Type} (s : ConfigLoad) : Fallible LoadError α → Fallible (LoadError × ConfigLoad) α
  | .stopped => .stopped
  | .failed err => .failed (err, s)
  | .done value => .done value

/-- The optional profile. -/
def loadDip (mallocDip : Bool) (s : ConfigLoad) : Fallible (LoadError × ConfigLoad) ConfigLoad :=
  match config.getObjectItem "deviceIntegrationProfileKey" with
  | none => .done s
  | some dip =>
      if mallocDip = false then .failed (.memAlloc, s)
      else do
        let addr := s.heap.next
        let s := { s with heap := s.heap.alloc (.dip zeroDip), newDip := some addr }
        let value ← atGoto s (dipOf dip)
        .done { s with heap := s.heap.store addr (.dip value) }

/-- What is freed at `load_out`. -/
def ConfigLoad.loadOut (s : ConfigLoad) : BlockHeap Block :=
  s.heap.freeAll [s.pointer .deviceOnboardingId, s.pointer .mnid, s.pointer .setupid,
    s.pointer .vid, s.pointer .deviceType, s.newDip]

/-- What the loader does with `config` before it assigns anything. -/
def readConfig (mallocDip : Bool) (s : ConfigLoad) :
    Fallible (LoadError × ConfigLoad) (ConfigLoad × UInt8 × Nat × PkType) := do
  let ssidVersion ← atGoto s (.orFail (ssidVersionOf compiler config) .uninitialized)
  let s ← ConfigField.all.foldlM (copyMember ble config allocates ssidVersion) s
  let types ← atGoto s (.orFail (ownershipValidationTypeOf config) .uninitialized)
  let pkType ← atGoto s (pkTypeOf config)
  let s ← loadDip config mallocDip s
  .done (s, ssidVersion, types, pkType)

variable (parse : List UInt8 → Option Json) (mallocData mallocDip : Bool)

/-- `iot_api_onboarding_config_load`. -/
def iotApiOnboardingConfigLoad (onboardingConfig : Option (List UInt8))
    (devconf : Option IotDevconfProvData) (heap : BlockHeap Block) :
    Option (LoadEnd IotDevconfProvData) :=
  match onboardingConfig, devconf with
  | some text, some before =>
      if text = [] then some ⟨some .invalidArgs, devconf, heap⟩
      else if mallocData = false then some ⟨some .memAlloc, devconf, heap⟩
      else
        match configMember parse text "onboardingConfig" with
        | none => some ⟨some .uninitialized, devconf, heap⟩
        | some config =>
            match readConfig ble compiler config allocates mallocDip
                ⟨⟨heap, fun _ => none⟩, none⟩ with
            | .stopped => none
            | .failed (err, s) => some ⟨some err, devconf, s.loadOut⟩
            | .done (s, ssidVersion, types, pkType) =>
                some ⟨none, some
                  { pointer := s.pointer
                    ownershipValidationType := types
                    pkType, ssidVersion
                    dip := if s.newDip.isSome then s.newDip else before.dip }, s.heap⟩
  | _, _ => some ⟨some .invalidArgs, devconf, heap⟩

end OnboardingConfig

/-! ## One member after the other -/

/-- The pointers of the structure. -/
def IotDevconfProvData.Refers (devconf : IotDevconfProvData) (addr : Nat) : Prop :=
  (∃ f, devconf.pointer f = some addr) ∨ devconf.dip = some addr

section AtGoto

variable {α : Type} {s s' : ConfigLoad} {x : Fallible LoadError α} {err : LoadError} {value : α}

theorem atGoto_eq_failed_iff : atGoto s x = .failed (err, s') ↔ x = .failed err ∧ s' = s := by
  cases x with
  | stopped => exact ⟨nofun, nofun⟩
  | done value => exact ⟨nofun, nofun⟩
  | failed other =>
      rw [atGoto, Fallible.failed.injEq, Prod.mk.injEq, Fallible.failed.injEq, @eq_comm _ s]

theorem atGoto_eq_done_iff : atGoto s x = .done value ↔ x = .done value := by
  cases x <;> simp [atGoto]

theorem atGoto_eq_stopped_iff : atGoto s x = .stopped ↔ x = .stopped := by
  cases x <;> simp [atGoto]

end AtGoto

section OnboardingConfig

variable (ble : Bool) (config : Json) (allocates : ConfigField → Bool) (version : UInt8)

/-- Whether a member can be copied. -/
def ConfigField.loads (f : ConfigField) : Bool :=
  match valueOf ConfigField.name config f with
  | none => false
  | some text => f.valid ble version text && allocates f

/-- What a member that cannot be copied does. -/
def ConfigField.ends (f : ConfigField) (s : ConfigLoad) :
    Fallible (LoadError × ConfigLoad) ConfigLoad :=
  match config.getObjectItem f.name with
  | none => .failed (.uninitialized, s)
  | some item =>
      match item.valuestring with
      | none => .stopped
      | some text =>
          if f.valid ble version (CString.cstr text) = false then .failed (.uninitialized, s)
          else .failed (.memAlloc, s)

/-- What a member that can be copied does. -/
def ConfigLoad.next (s : ConfigLoad) (f : ConfigField) : ConfigLoad :=
  ⟨s.toCopies.next (valueOf ConfigField.name config) f, s.newDip⟩

/-- The first member that cannot be copied. -/
def firstUncopied : Option ConfigField :=
  ConfigField.all.find? fun f => !f.loads ble config allocates version

/-- The copies when the loader gets to the first member that cannot be copied, or behind the
last one. -/
def copied (heap : BlockHeap Block) : Copies ConfigField :=
  (ConfigField.all.takeWhile fun f => f.loads ble config allocates version).foldl
    (Copies.next (valueOf ConfigField.name config)) ⟨heap, fun _ => none⟩

variable {ble config allocates version}

theorem copyMember_eq (s : ConfigLoad) (f : ConfigField) :
    copyMember ble config allocates version s f =
      if f.loads ble config allocates version then .done (s.next config f)
      else f.ends ble config version s := by
  rw [copyMember, ConfigField.loads, ConfigField.ends, ConfigLoad.next, Copies.next]
  cases found : config.getObjectItem f.name with
  | none =>
      have nothing : valueOf ConfigField.name config f = none := by
        rw [valueOf, Json.memberText, found]
        rfl
      simp [nothing]
  | some item =>
      have text := @valueOf_eq _ ConfigField.name _ _ _ found
      cases string : item.valuestring with
      | none =>
          rw [string] at text
          simp [string, text]
      | some value =>
          rw [string] at text
          cases valid : f.valid ble version (CString.cstr value) with
          | false => simp [string, text, valid]
          | true => cases allocates f <;> simp [string, text, valid]

theorem config_ends_bind {f : ConfigField} (s : ConfigLoad)
    (k : ConfigLoad → Fallible (LoadError × ConfigLoad) ConfigLoad) :
    (f.ends ble config version s >>= k) = f.ends ble config version s := by
  rw [ConfigField.ends]
  cases config.getObjectItem f.name with
  | none => rfl
  | some item =>
      dsimp only
      cases item.valuestring with
      | none => rfl
      | some text =>
          dsimp only
          split <;> rfl

theorem foldl_configNext (l : List ConfigField) (s : ConfigLoad) :
    l.foldl (ConfigLoad.next config) s =
      ⟨l.foldl (Copies.next (valueOf ConfigField.name config)) s.toCopies, s.newDip⟩ := by
  induction l generalizing s with
  | nil => rfl
  | cons f l ih => exact ih (s.next config f)

theorem copyAll_eq (heap : BlockHeap Block) :
    ConfigField.all.foldlM (copyMember ble config allocates version)
        ⟨⟨heap, fun _ => none⟩, none⟩ =
      match firstUncopied ble config allocates version with
      | none => .done ⟨copied ble config allocates version heap, none⟩
      | some f => f.ends ble config version ⟨copied ble config allocates version heap, none⟩ := by
  rw [Fallible.foldlM_eq copyMember_eq fun f s k _ => config_ends_bind s k, firstUncopied, copied]
  dsimp only
  rw [foldl_configNext]
  cases ConfigField.all.find? fun f => !f.loads ble config allocates version with
  | none => rfl
  | some f => rfl

theorem sound_copied (heap : BlockHeap Block) :
    (copied ble config allocates version heap).Sound heap (valueOf ConfigField.name config)
      (ConfigField.all.takeWhile fun f => f.loads ble config allocates version) := by
  have distinct : (ConfigField.all.takeWhile fun f =>
      f.loads ble config allocates version).Nodup := (List.takeWhile_sublist _).nodup (by decide)
  exact (Copies.Sound.nothing heap _).foldl distinct fun _ _ => List.not_mem_nil

/-- What a member that can be copied has. -/
theorem ConfigField.valueOf_of_loads {f : ConfigField}
    (loads : f.loads ble config allocates version = true) :
    ∃ text, valueOf ConfigField.name config f = some text := by
  rw [ConfigField.loads] at loads
  cases is : valueOf ConfigField.name config f with
  | none =>
      rw [is] at loads
      cases loads
  | some text => exact ⟨text, rfl⟩

theorem ends_eq_stopped_iff {f : ConfigField} {s : ConfigLoad} :
    f.ends ble config version s = .stopped ↔ Mistyped config f.name := by
  rw [ConfigField.ends, Mistyped]
  cases found : config.getObjectItem f.name with
  | none =>
      constructor
      · intro stopped
        cases stopped
      · rintro ⟨mistyped, -⟩
        cases mistyped
  | some item =>
      rw [Json.memberText_eq_of_getObjectItem found]
      cases string : item.valuestring with
      | none => simp [string]
      | some text =>
          simp only [string]
          constructor
          · intro stopped
            split at stopped <;> cases stopped
          · rintro ⟨-, mistyped⟩
            cases mistyped

theorem ends_eq_failed {f : ConfigField} {s s' : ConfigLoad} {err : LoadError}
    (failed : f.ends ble config version s = .failed (err, s')) : s' = s := by
  rw [ConfigField.ends] at failed
  cases found : config.getObjectItem f.name with
  | none =>
      simp only [found] at failed
      cases failed
      rfl
  | some item =>
      simp only [found] at failed
      cases string : item.valuestring with
      | none =>
          simp only [string] at failed
          cases failed
      | some text =>
          simp only [string] at failed
          split at failed <;> cases failed <;> rfl

theorem ends_ne_done {f : ConfigField} {s s' : ConfigLoad} :
    f.ends ble config version s ≠ .done s' := by
  intro done
  have ends := @config_ends_bind ble config version f s fun _ => .stopped
  rw [done] at ends
  cases ends

end OnboardingConfig

section Ownership

/-- The item names the feature. -/
def Names (ovf : Json) (feature : Feature) : Prop :=
  ∃ text, ovf.valuestring = some text ∧ featureNamed (CString.cstr text) = some feature

theorem testBit_or_feature (types : Nat) (feature other : Feature) :
    (types ||| 1 <<< other.bit).testBit feature.bit =
      (types.testBit feature.bit || decide (feature = other)) := by
  rw [Nat.testBit_or]
  congr 1
  cases feature <;> cases other <;> decide

/-- A bit is set for each feature that is named. -/
theorem testBit_ownershipTypes {items : List Json} {types result : Nat}
    (loaded : ownershipTypes types items = some result) (feature : Feature) :
    result.testBit feature.bit = true ↔
      types.testBit feature.bit = true ∨ ∃ ovf ∈ items, Names ovf feature := by
  induction items generalizing types with
  | nil =>
      cases loaded
      simp
  | cons ovf items ih =>
      rw [ownershipTypes] at loaded
      cases string : ovf.valuestring with
      | none =>
          simp only [string] at loaded
          have passed : ¬ Names ovf feature := fun ⟨text, is, _⟩ => by
            rw [string] at is
            cases is
          simp only [ih loaded, List.mem_cons, exists_eq_or_imp, passed, false_or]
      | some text =>
          simp only [string] at loaded
          cases named : featureNamed (CString.cstr text) with
          | none =>
              simp only [named] at loaded
              cases loaded
          | some other =>
              simp only [named] at loaded
              have names : Names ovf feature ↔ feature = other := by
                constructor
                · rintro ⟨text', is, named'⟩
                  rw [string] at is
                  cases is
                  exact Option.some.inj (named'.symm.trans named)
                · rintro rfl
                  exact ⟨text, string, named⟩
              rw [ih loaded, testBit_or_feature, Bool.or_eq_true, decide_eq_true_eq, or_assoc]
              simp only [List.mem_cons, exists_eq_or_imp, names]

end Ownership

section Config

variable {ble : Bool} {compiler : UInt64 → UInt8} {config : Json}
  {allocates : ConfigField → Bool} {mallocDip : Bool} {heap : BlockHeap Block}

/-- The variables behind the copies. -/
structure ConfigLoad.Fresh (start : BlockHeap Block) (s : ConfigLoad) : Prop where
  older : start.Extends s.heap
  fresh : ∀ f addr, s.pointer f = some addr → start.next ≤ addr
  newDip : ∀ addr, s.newDip = some addr → start.next ≤ addr

/-- What was there before is kept at `load_out`. -/
theorem ConfigLoad.Fresh.loadOut {s : ConfigLoad} (fresh : s.Fresh heap) :
    heap.Extends s.loadOut := by
  refine fresh.older.freeAll fun addr inside => ?_
  simp only [List.mem_cons, List.not_mem_nil, or_false] at inside
  obtain is | is | is | is | is | is := inside
  · exact fresh.fresh _ _ is.symm
  · exact fresh.fresh _ _ is.symm
  · exact fresh.fresh _ _ is.symm
  · exact fresh.fresh _ _ is.symm
  · exact fresh.fresh _ _ is.symm
  · exact fresh.newDip _ is.symm

theorem fresh_copied (version : UInt8) (heap : BlockHeap Block) :
    ConfigLoad.Fresh heap ⟨copied ble config allocates version heap, none⟩ where
  older := (sound_copied heap).older
  fresh := (sound_copied heap).fresh
  newDip _ none := nomatch none

/-- What `loadDip` leaves of the copies. -/
theorem loadDip_done {s s' : ConfigLoad} (done : loadDip config mallocDip s = .done s') :
    s.heap.Extends s'.heap ∧ s'.pointer = s.pointer := by
  rw [loadDip] at done
  cases member : config.getObjectItem "deviceIntegrationProfileKey" with
  | none =>
      simp only [member] at done
      cases done
      exact ⟨.refl _, rfl⟩
  | some dip =>
      simp only [member] at done
      cases malloc : mallocDip with
      | false =>
          rw [malloc, if_pos rfl] at done
          cases done
      | true =>
          rw [malloc, if_neg Bool.true_eq_false.mp] at done
          obtain ⟨value, -, done⟩ := Fallible.bind_eq_done_iff.mp done
          cases done
          exact ⟨((BlockHeap.Extends.refl s.heap).alloc _).store (Nat.le_refl _) _, rfl⟩

theorem loadDip_failed {s s' : ConfigLoad} {err : LoadError} (fresh : s.Fresh heap)
    (failed : loadDip config mallocDip s = .failed (err, s')) : s'.Fresh heap := by
  rw [loadDip] at failed
  cases member : config.getObjectItem "deviceIntegrationProfileKey" with
  | none =>
      simp only [member] at failed
      cases failed
  | some dip =>
      simp only [member] at failed
      cases malloc : mallocDip with
      | false =>
          rw [malloc, if_pos rfl] at failed
          cases failed
          exact fresh
      | true =>
          rw [malloc, if_neg Bool.true_eq_false.mp] at failed
          obtain failed | ⟨value, -, failed⟩ := Fallible.bind_eq_failed_iff.mp failed
          · obtain ⟨-, rfl⟩ := atGoto_eq_failed_iff.mp failed
            refine ⟨fresh.older.alloc _, fresh.fresh, fun addr is => ?_⟩
            cases is
            exact fresh.older.next_le
          · cases failed

theorem dipOf_ne_stopped (dip : Json) : dipOf dip ≠ .stopped := by
  simp [dipOf, Fallible.bind_eq_stopped_iff]

theorem loadDip_ne_stopped (s : ConfigLoad) : loadDip config mallocDip s ≠ .stopped := by
  intro stopped
  rw [loadDip] at stopped
  cases member : config.getObjectItem "deviceIntegrationProfileKey" with
  | none =>
      simp only [member] at stopped
      cases stopped
  | some dip =>
      simp only [member] at stopped
      cases malloc : mallocDip with
      | false =>
          rw [malloc, if_pos rfl] at stopped
          cases stopped
      | true =>
          rw [malloc, if_neg Bool.true_eq_false.mp] at stopped
          obtain stopped | ⟨value, -, stopped⟩ := Fallible.bind_eq_stopped_iff.mp stopped
          · exact dipOf_ne_stopped dip (atGoto_eq_stopped_iff.mp stopped)
          · cases stopped

theorem pkTypeOf_eq_stopped_iff : pkTypeOf config = .stopped ↔ Mistyped config "identityType" := by
  rw [pkTypeOf, Mistyped]
  cases found : config.getObjectItem "identityType" with
  | none =>
      constructor
      · intro stopped
        cases stopped
      · rintro ⟨mistyped, -⟩
        cases mistyped
  | some item =>
      rw [Json.memberText_eq_of_getObjectItem found]
      dsimp only
      rw [Fallible.bind_eq_stopped_iff, Fallible.deref_eq_stopped_iff]
      constructor
      · rintro (none | ⟨text, -, stopped⟩)
        · exact ⟨rfl, none⟩
        · split at stopped
          · cases stopped
          · split at stopped <;> cases stopped
      · rintro ⟨-, none⟩
        exact .inl none

/-- The variables of the caller before anything is copied. -/
abbrev ConfigLoad.initial (heap : BlockHeap Block) : ConfigLoad := ⟨⟨heap, fun _ => none⟩, none⟩

theorem readConfig_failed {err : LoadError} {s : ConfigLoad}
    (failed : readConfig ble compiler config allocates mallocDip (.initial heap) =
      .failed (err, s)) : s.Fresh heap := by
  rw [readConfig] at failed
  obtain failed | ⟨version, -, failed⟩ := Fallible.bind_eq_failed_iff.mp failed
  · obtain ⟨-, rfl⟩ := atGoto_eq_failed_iff.mp failed
    exact ⟨.refl heap, fun _ _ none => (nomatch none), fun _ none => (nomatch none)⟩
  · rw [copyAll_eq] at failed
    cases found : firstUncopied ble config allocates version with
    | some f =>
        simp only [found] at failed
        obtain failed | ⟨_, done, -⟩ := Fallible.bind_eq_failed_iff.mp failed
        · rw [ends_eq_failed failed]
          exact fresh_copied version heap
        · exact absurd done ends_ne_done
    | none =>
        simp only [found, Fallible.done_bind] at failed
        obtain failed | ⟨types, -, failed⟩ := Fallible.bind_eq_failed_iff.mp failed
        · obtain ⟨-, rfl⟩ := atGoto_eq_failed_iff.mp failed
          exact fresh_copied version heap
        · obtain failed | ⟨pkType, -, failed⟩ := Fallible.bind_eq_failed_iff.mp failed
          · obtain ⟨-, rfl⟩ := atGoto_eq_failed_iff.mp failed
            exact fresh_copied version heap
          · obtain failed | ⟨_, -, failed⟩ := Fallible.bind_eq_failed_iff.mp failed
            · exact loadDip_failed (fresh_copied version heap) failed
            · cases failed

end Config

section Load

variable (ble : Bool) (compiler : UInt64 → UInt8) (allocates : ConfigField → Bool)
  (parse : List UInt8 → Option Json) (mallocData mallocDip : Bool)
  (onboardingConfig : Option (List UInt8))
  (caller : Caller IotDevconfProvData IotDevconfProvData.Refers)

/-- The call gets to the members of `config`. -/
def ReadsConfig (config : Json) : Prop :=
  ∃ text, onboardingConfig = some text ∧ text ≠ [] ∧ mallocData = true ∧
    caller.out.isSome = true ∧ configMember parse text "onboardingConfig" = some config

/-- The texts are in blocks, a bit is set for every validation type of the list and there is
one, and the key has the type of the text. -/
def ConfigLoaded (devconf : IotDevconfProvData) (heap : BlockHeap Block) : Prop :=
  ∃ text config, onboardingConfig = some text ∧
    configMember parse text "onboardingConfig" = some config ∧
    (∀ f, ∃ value addr, valueOf ConfigField.name config f = some value ∧
      devconf.pointer f = some addr ∧ heap.block addr = some (.text value)) ∧
    (∃ item, config.getObjectItem "ownershipValidationTypes" = some item ∧
      devconf.ownershipValidationType ≠ 0 ∧
      ∀ feature : Feature, devconf.ownershipValidationType.testBit feature.bit = true ↔
        ∃ ovf ∈ item.children.map Prod.snd, Names ovf feature) ∧
    pkTypeOf config = .done devconf.pkType

/-- A member is read as text and is none: the first one that cannot be copied, or, where all
were copied and there are validation types, the one for the type of the key. -/
def ConfigMistyped : Prop :=
  ∃ config version, ReadsConfig parse mallocData onboardingConfig caller config ∧
    ssidVersionOf compiler config = some version ∧
    ((∃ f, firstUncopied ble config allocates version = some f ∧ Mistyped config f.name) ∨
      firstUncopied ble config allocates version = none ∧
        (ownershipValidationTypeOf config).isSome = true ∧ Mistyped config "identityType")

variable {ble compiler allocates parse mallocData mallocDip onboardingConfig caller}
  {config : Json} {heap : BlockHeap Block}

/-- What is known when the loader assigns. -/
theorem readConfig_done {s : ConfigLoad} {version : UInt8} {types : Nat} {pkType : PkType}
    (done : readConfig ble compiler config allocates mallocDip (.initial heap) =
      .done (s, version, types, pkType)) :
    (∀ f, ∃ value addr, valueOf ConfigField.name config f = some value ∧
      s.pointer f = some addr ∧ s.heap.block addr = some (.text value)) ∧
    ownershipValidationTypeOf config = some types ∧ pkTypeOf config = .done pkType := by
  rw [readConfig] at done
  obtain ⟨ssid, -, done⟩ := Fallible.bind_eq_done_iff.mp done
  rw [copyAll_eq] at done
  cases found : firstUncopied ble config allocates ssid with
  | some f =>
      simp only [found] at done
      obtain ⟨_, copied, -⟩ := Fallible.bind_eq_done_iff.mp done
      exact absurd copied ends_ne_done
  | none =>
      simp only [found, Fallible.done_bind] at done
      obtain ⟨types', owned, done⟩ := Fallible.bind_eq_done_iff.mp done
      obtain ⟨pkType', typed, done⟩ := Fallible.bind_eq_done_iff.mp done
      obtain ⟨s', dip, done⟩ := Fallible.bind_eq_done_iff.mp done
      cases done
      refine ⟨fun f => ?_, Fallible.orFail_eq_done_iff.mp (atGoto_eq_done_iff.mp owned),
        atGoto_eq_done_iff.mp typed⟩
      obtain ⟨kept, pointers⟩ := loadDip_done dip
      have inside : f ∈ ConfigField.all := by cases f <;> decide
      have loads : ∀ g ∈ ConfigField.all, g.loads ble config allocates version = true :=
        fun g among => by simpa using List.find?_eq_none.mp found g among
      have reached : f ∈ ConfigField.all.takeWhile fun f =>
          f.loads ble config allocates version := by
        rw [List.takeWhile_eq_self_iff.mpr loads]
        exact inside
      obtain ⟨value, is⟩ := ConfigField.valueOf_of_loads (loads f inside)
      obtain ⟨addr, known, block⟩ := (sound_copied heap).copied f reached value is
      exact ⟨value, addr, is, by rw [pointers]; exact known, kept.block_eq_some block⟩

theorem readConfig_eq_stopped_iff :
    readConfig ble compiler config allocates mallocDip (.initial heap) = .stopped ↔
      ∃ version, ssidVersionOf compiler config = some version ∧
        ((∃ f, firstUncopied ble config allocates version = some f ∧ Mistyped config f.name) ∨
          firstUncopied ble config allocates version = none ∧
            (ownershipValidationTypeOf config).isSome = true ∧
            Mistyped config "identityType") := by
  rw [readConfig, Fallible.bind_eq_stopped_iff, atGoto_eq_stopped_iff]
  simp only [Fallible.orFail_ne_stopped, false_or, atGoto_eq_done_iff, Fallible.orFail_eq_done_iff,
    copyAll_eq]
  refine exists_congr fun version => and_congr_right fun _ => ?_
  cases firstUncopied ble config allocates version with
  | some f =>
      dsimp only
      rw [Fallible.bind_eq_stopped_iff]
      simp only [ends_eq_stopped_iff, ends_ne_done, false_and, exists_false, or_false,
        Option.some.injEq, exists_eq_left', reduceCtorEq]
  | none =>
      simp only [Fallible.done_bind, Fallible.bind_eq_stopped_iff, atGoto_eq_stopped_iff,
        Fallible.orFail_ne_stopped, false_or, atGoto_eq_done_iff, Fallible.orFail_eq_done_iff,
        pkTypeOf_eq_stopped_iff, loadDip_ne_stopped, reduceCtorEq, and_false, exists_false,
        or_false, false_and, true_and, Option.isSome_iff_exists, exists_and_right]

theorem onboardingConfigLoad_of_reads (mallocDip : Bool) (allocates : ConfigField → Bool)
    (reads : ReadsConfig parse mallocData onboardingConfig caller config) :
    ∃ before, caller.out = some before ∧
      iotApiOnboardingConfigLoad ble compiler allocates parse mallocData mallocDip
          onboardingConfig caller.out caller.heap =
        match readConfig ble compiler config allocates mallocDip (.initial caller.heap) with
        | .stopped => none
        | .failed (err, s) => some ⟨some err, caller.out, s.loadOut⟩
        | .done (s, ssidVersion, types, pkType) =>
            some ⟨none, some
              { pointer := s.pointer
                ownershipValidationType := types
                pkType, ssidVersion
                dip := if s.newDip.isSome then s.newDip else before.dip }, s.heap⟩ := by
  obtain ⟨text, given, some, malloc, out, member⟩ := reads
  obtain ⟨before, out⟩ := Option.isSome_iff_exists.mp out
  refine ⟨before, out, ?_⟩
  rw [given, out]
  simp only [iotApiOnboardingConfigLoad, if_neg some, malloc, Bool.true_eq_false, if_false, member]

theorem onboardingConfigLoad_of_not_reads (mallocDip : Bool) (allocates : ConfigField → Bool)
    (never : ∀ config, ¬ ReadsConfig parse mallocData onboardingConfig caller config) :
    ∃ err, iotApiOnboardingConfigLoad ble compiler allocates parse mallocData mallocDip
      onboardingConfig caller.out caller.heap = some ⟨some err, caller.out, caller.heap⟩ := by
  cases given : onboardingConfig with
  | none => exact ⟨_, rfl⟩
  | some text =>
      cases out : caller.out with
      | none => exact ⟨_, rfl⟩
      | some before =>
          rw [iotApiOnboardingConfigLoad]
          by_cases empty : text = []
          · exact ⟨_, if_pos empty⟩
          · rw [if_neg empty]
            cases malloc : mallocData with
            | false => exact ⟨_, rfl⟩
            | true =>
                rw [if_neg Bool.true_eq_false.mp]
                cases member : configMember parse text "onboardingConfig" with
                | none => exact ⟨_, rfl⟩
                | some config =>
                    exact absurd ⟨text, given, empty, malloc, by rw [out]; rfl, member⟩
                      (never config)

theorem onboardingConfig_allOrNothing (mallocDip : Bool) (allocates : ConfigField → Bool) :
    AllOrNothing caller (ConfigLoaded parse onboardingConfig)
      (iotApiOnboardingConfigLoad ble compiler allocates parse mallocData mallocDip
        onboardingConfig caller.out caller.heap) := by
  by_cases reads : ∃ config, ReadsConfig parse mallocData onboardingConfig caller config
  · obtain ⟨config, reads⟩ := reads
    obtain ⟨before, -, returns⟩ :=
      @onboardingConfigLoad_of_reads ble compiler _ _ _ _ _ mallocDip allocates reads
    rw [returns]
    cases read : readConfig ble compiler config allocates mallocDip (.initial caller.heap) with
    | stopped => exact allOrNothing_stopped
    | failed error => exact allOrNothing_failed (readConfig_failed read).loadOut
    | done values =>
        obtain ⟨s, version, types, pkType⟩ := values
        obtain ⟨copies, owned, typed⟩ := readConfig_done read
        obtain ⟨text, given, -, -, -, member⟩ := reads
        intro e same
        cases same
        refine ⟨_, rfl, text, config, given, member, copies, ?_, typed⟩
        obtain ⟨item, found, owned⟩ := Option.bind_eq_some_iff.mp owned
        obtain ⟨types', loaded, nonzero⟩ := Option.bind_eq_some_iff.mp owned
        split at nonzero
        · cases nonzero
        · cases nonzero
          refine ⟨item, found, ‹_›, fun feature => ?_⟩
          rw [testBit_ownershipTypes loaded]
          simp
  · obtain ⟨err, returns⟩ := @onboardingConfigLoad_of_not_reads ble compiler _ _ _ _ mallocDip
      allocates (not_exists.mp reads)
    rw [returns]
    exact allOrNothing_unchanged

theorem onboardingConfig_returns_iff (mallocDip : Bool) (allocates : ConfigField → Bool) :
    (iotApiOnboardingConfigLoad ble compiler allocates parse mallocData mallocDip
      onboardingConfig caller.out caller.heap).isSome = true ↔
      ¬ ConfigMistyped ble compiler allocates parse mallocData onboardingConfig caller := by
  by_cases reads : ∃ config, ReadsConfig parse mallocData onboardingConfig caller config
  · obtain ⟨config, reads⟩ := reads
    obtain ⟨before, -, returns⟩ :=
      @onboardingConfigLoad_of_reads ble compiler _ _ _ _ _ mallocDip allocates reads
    have stops := @readConfig_eq_stopped_iff ble compiler allocates mallocDip config caller.heap
    have unique (config' : Json)
        (reads' : ReadsConfig parse mallocData onboardingConfig caller config') :
        config = config' := by
      obtain ⟨text, given, -, -, -, member⟩ := reads
      obtain ⟨text', given', -, -, -, member'⟩ := reads'
      cases given.symm.trans given'
      exact Option.some.inj (member.symm.trans member')
    have mistyped : ConfigMistyped ble compiler allocates parse mallocData onboardingConfig caller ↔
        readConfig ble compiler config allocates mallocDip (.initial caller.heap) = .stopped := by
      rw [stops]
      constructor
      · rintro ⟨config', version, reads', rest⟩
        cases unique config' reads'
        exact ⟨version, rest⟩
      · rintro ⟨version, rest⟩
        exact ⟨config, version, reads, rest⟩
    rw [returns, mistyped]
    cases readConfig ble compiler config allocates mallocDip (.initial caller.heap) with
    | stopped => exact ⟨fun none => (nomatch none), fun other => absurd rfl other⟩
    | failed error => exact ⟨fun _ => nofun, fun _ => rfl⟩
    | done values => exact ⟨fun _ => nofun, fun _ => rfl⟩
  · have never := not_exists.mp reads
    obtain ⟨err, returns⟩ :=
      @onboardingConfigLoad_of_not_reads ble compiler _ _ _ _ mallocDip allocates never
    rw [returns]
    exact ⟨fun _ ⟨config, _, reads, _⟩ => never config reads, fun _ => rfl⟩

end Load

/-! ## Both loaders -/

end StDevice.Api
