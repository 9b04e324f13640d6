import StDevice.Api.Copies

/-!
# Loading the device info

`iot_api_device_info_load` assigns each pointer as soon as the copy is there. An allocation
that fails behind the copy of the version frees the blocks and leaves the pointers to them in
the structure of the caller.
-/

namespace StDevice.Api

/-- The members of `deviceInfo` that are loaded. -/
inductive InfoField where
  | firmwareVersion | modelNumber | marketingName | manufacturerName | manufacturerCode
  deriving DecidableEq

namespace InfoField

def name : InfoField → String
  | firmwareVersion => "firmwareVersion"
  | modelNumber => "modelNumber"
  | marketingName => "marketingName"
  | manufacturerName => "manufacturerName"
  | manufacturerCode => "manufacturerCode"

/-- In the order in which they are loaded. -/
def all : List InfoField :=
  [firmwareVersion, modelNumber, marketingName, manufacturerName, manufacturerCode]

end InfoField

/-- `struct iot_device_info`, with a pointer for each member. -/
structure IotDeviceInfo where
  pointer : InfoField → Option Nat
  optInfo : UInt8

/-- The variables of `iot_api_device_info_load`. -/
structure InfoLoad extends Copies InfoField where
  info : IotDeviceInfo

section DeviceInfo

variable (profile : Json) (allocates : InfoField → Bool)

/-- A member that is copied and assigned. -/
def InfoLoad.assign (s : InfoLoad) (f : InfoField) (text : List UInt8) : InfoLoad where
  toCopies := s.copy f text
  info :=
    { pointer := Function.update s.info.pointer f (some s.heap.next)
      optInfo := if f = .firmwareVersion then 0 else s.info.optInfo + 1 }

/-- An optional member that is not there. -/
def InfoLoad.clear (s : InfoLoad) (f : InfoField) : InfoLoad :=
  { s with info := { s.info with pointer := Function.update s.info.pointer f none } }

/-- One member; an error comes with the variables at the `goto`. -/
def loadMember (s : InfoLoad) (f : InfoField) : Fallible (LoadError × InfoLoad) InfoLoad :=
  match profile.getObjectItem f.name with
  | none =>
      if f = .firmwareVersion then .failed (.uninitialized, s) else .done (s.clear f)
  | some item =>
      match item.valuestring with
      | none => .stopped
      | some text =>
          if allocates f then .done (s.assign f (CString.cstr text)) else .failed (.memAlloc, s)

/-- What is freed at `load_out`. -/
def InfoLoad.loadOut (s : InfoLoad) : BlockHeap Block :=
  s.heap.freeAll [s.pointer .firmwareVersion, s.pointer .marketingName, s.pointer .modelNumber,
    s.pointer .manufacturerName]

variable (parse : List UInt8 → Option Json) (mallocData : Bool)

/-- `iot_api_device_info_load`. -/
def iotApiDeviceInfoLoad (deviceInfo : Option (List UInt8)) (info : Option IotDeviceInfo)
    (heap : BlockHeap Block) : Option (LoadEnd IotDeviceInfo) :=
  match deviceInfo, info with
  | some text, some before =>
      if text = [] then some ⟨some .invalidArgs, info, heap⟩
      else if mallocData = false then some ⟨some .memAlloc, info, heap⟩
      else
        match configMember parse text "deviceInfo" with
        | none => some ⟨some .uninitialized, info, heap⟩
        | some profile =>
            match InfoField.all.foldlM (loadMember profile allocates)
                ⟨⟨heap, fun _ => none⟩, before⟩ with
            | .stopped => none
            | .failed (err, s) => some ⟨some err, some s.info, s.loadOut⟩
            | .done s => some ⟨none, some s.info, s.heap⟩
  | _, _ => some ⟨some .invalidArgs, info, heap⟩

end DeviceInfo

/-! ## One member after the other -/

def IotDeviceInfo.Refers (info : IotDeviceInfo) (addr : Nat) : Prop :=
  ∃ f, info.pointer f = some addr

section DeviceInfo

variable (profile : Json) (allocates : InfoField → Bool)

/-- Whether a member can be loaded. An optional one may be missing. -/
def InfoField.loads (f : InfoField) : Bool :=
  match profile.getObjectItem f.name with
  | none => f ≠ .firmwareVersion
  | some item => item.valuestring.isSome && allocates f

/-- What a member that can be loaded does to the variables. -/
def InfoLoad.next (s : InfoLoad) (f : InfoField) : InfoLoad :=
  match valueOf InfoField.name profile f with
  | none => s.clear f
  | some text => s.assign f text

/-- What a member that cannot be loaded does. -/
def InfoField.ends (f : InfoField) (s : InfoLoad) : Fallible (LoadError × InfoLoad) InfoLoad :=
  match profile.getObjectItem f.name with
  | none => .failed (.uninitialized, s)
  | some item => if item.valuestring.isSome then .failed (.memAlloc, s) else .stopped

/-- The first member that cannot be loaded. -/
def firstFailure : Option InfoField := InfoField.all.find? fun f => !f.loads profile allocates

/-- The variables when the loader gets to the first member that cannot be loaded, or behind
the last one. -/
def reached (heap : BlockHeap Block) (before : IotDeviceInfo) : InfoLoad :=
  (InfoField.all.takeWhile fun f => f.loads profile allocates).foldl (InfoLoad.next profile)
    ⟨⟨heap, fun _ => none⟩, before⟩

variable {profile allocates} {f : InfoField}

theorem loadMember_eq (s : InfoLoad) (f : InfoField) :
    loadMember profile allocates s f =
      if f.loads profile allocates then .done (s.next profile f) else f.ends profile s := by
  rw [loadMember, InfoField.loads, InfoField.ends, InfoLoad.next]
  cases found : profile.getObjectItem f.name with
  | none =>
      have nothing : valueOf InfoField.name profile f = none := by
        rw [valueOf, Json.memberText, found]
        rfl
      by_cases first : f = .firmwareVersion
      · simp [first]
      · simp [first, nothing]
  | some item =>
      have text := @valueOf_eq _ InfoField.name _ _ _ found
      cases string : item.valuestring with
      | none => simp [string]
      | some value =>
          rw [string] at text
          cases allocates f <;> simp [string, text]

theorem ends_bind (s : InfoLoad) (k : InfoLoad → Fallible (LoadError × InfoLoad) InfoLoad) :
    (f.ends profile s >>= k) = f.ends profile s := by
  rw [InfoField.ends]
  cases profile.getObjectItem f.name with
  | none => rfl
  | some item =>
      dsimp only
      split <;> rfl

theorem loadAll_eq (heap : BlockHeap Block) (before : IotDeviceInfo) :
    InfoField.all.foldlM (loadMember profile allocates) ⟨⟨heap, fun _ => none⟩, before⟩ =
      match firstFailure profile allocates with
      | none => .done (reached profile allocates heap before)
      | some f => f.ends profile (reached profile allocates heap before) := by
  rw [Fallible.foldlM_eq loadMember_eq fun f s k _ => ends_bind s k, firstFailure]
  cases InfoField.all.find? fun f => !f.loads profile allocates with
  | none => rfl
  | some f => rfl

end DeviceInfo

section Reached

variable {profile : Json} {allocates : InfoField → Bool} {f : InfoField}
  {heap start : BlockHeap Block} {before : IotDeviceInfo} {done l : List InfoField} {s : InfoLoad}

theorem toCopies_next (s : InfoLoad) (f : InfoField) :
    (s.next profile f).toCopies = s.toCopies.next (valueOf InfoField.name profile) f := by
  rw [InfoLoad.next, Copies.next]
  cases valueOf InfoField.name profile f with
  | none => rfl
  | some text => rfl

theorem toCopies_foldl (l : List InfoField) (s : InfoLoad) :
    (l.foldl (InfoLoad.next profile) s).toCopies =
      l.foldl (Copies.next (valueOf InfoField.name profile)) s.toCopies := by
  induction l generalizing s with
  | nil => rfl
  | cons f l ih => rw [List.foldl_cons, List.foldl_cons, ih, toCopies_next]

/-- A member is assigned the local pointer. -/
theorem pointer_next (missing : ∀ g, valueOf InfoField.name profile g = none → s.pointer g = none)
    (g : InfoField) (same : g = f ∨ s.info.pointer g = s.pointer g) :
    (s.next profile f).info.pointer g = (s.next profile f).pointer g := by
  rw [InfoLoad.next]
  cases given : valueOf InfoField.name profile f with
  | none =>
      change Function.update s.info.pointer f none g = s.pointer g
      by_cases here : g = f
      · rw [here, Function.update_self, missing f given]
      · rw [Function.update_of_ne here]
        exact same.resolve_left here
  | some text =>
      change Function.update s.info.pointer f _ g = Function.update s.pointer f _ g
      by_cases here : g = f
      · rw [here, Function.update_self, Function.update_self]
      · rw [Function.update_of_ne here, Function.update_of_ne here]
        exact same.resolve_left here

theorem pointer_foldl
    (sound : s.toCopies.Sound start (valueOf InfoField.name profile) done) (distinct : l.Nodup)
    (new : ∀ f ∈ l, f ∉ done) (same : ∀ g ∈ done, s.info.pointer g = s.pointer g) :
    ∀ g ∈ done ++ l, (l.foldl (InfoLoad.next profile) s).info.pointer g =
      (l.foldl (InfoLoad.next profile) s).pointer g := by
  induction l generalizing done s with
  | nil => rwa [List.append_nil]
  | cons f l ih =>
      obtain ⟨first, distinct⟩ := List.nodup_cons.mp distinct
      have next : (s.next profile f).toCopies.Sound start (valueOf InfoField.name profile)
          (done ++ [f]) := by
        rw [toCopies_next]
        exact sound.next (new f List.mem_cons_self)
      rw [← List.singleton_append, ← List.append_assoc]
      refine ih next distinct (fun g inside before => ?_) fun g inside => ?_
      · obtain before | same := List.mem_append.mp before
        · exact new g (List.mem_cons_of_mem _ inside) before
        · exact first (List.mem_singleton.mp same ▸ inside)
      · refine pointer_next sound.missing g ?_
        obtain before | here := List.mem_append.mp inside
        · exact .inr (same g before)
        · exact .inl (List.mem_singleton.mp here)

theorem nodup_loaded (p : InfoField → Bool) : (InfoField.all.takeWhile p).Nodup :=
  (List.takeWhile_sublist p).nodup (by decide)

theorem sound_reached :
    (reached profile allocates heap before).toCopies.Sound heap (valueOf InfoField.name profile)
      (InfoField.all.takeWhile fun f => f.loads profile allocates) := by
  rw [reached, toCopies_foldl]
  exact (Copies.Sound.nothing heap _).foldl (nodup_loaded _) fun _ _ => List.not_mem_nil

theorem pointer_reached
    (loaded : f ∈ InfoField.all.takeWhile fun f => f.loads profile allocates) :
    (reached profile allocates heap before).info.pointer f =
      (reached profile allocates heap before).pointer f :=
  pointer_foldl (Copies.Sound.nothing heap _) (nodup_loaded _) (fun _ _ => List.not_mem_nil)
    (fun _ none => nomatch none) f loaded

theorem all_loaded (none : firstFailure profile allocates = none) (f : InfoField) :
    f ∈ InfoField.all.takeWhile fun f => f.loads profile allocates := by
  have all : InfoField.all.takeWhile (fun f => f.loads profile allocates) = InfoField.all :=
    List.takeWhile_eq_self_iff.mpr fun f inside => by
      simpa using List.find?_eq_none.mp none f inside
  rw [all]
  cases f <;> decide

theorem loads_eq_false (found : firstFailure profile allocates = some f) :
    f.loads profile allocates = false := by
  simpa using List.find?_some found

/-- The version is loaded before another member fails. -/
theorem firmware_loaded (found : firstFailure profile allocates = some f)
    (other : f ≠ .firmwareVersion) :
    .firmwareVersion ∈ InfoField.all.takeWhile fun f => f.loads profile allocates := by
  rw [firstFailure, InfoField.all, List.find?_cons] at found
  rw [InfoField.all, List.takeWhile_cons]
  cases first : InfoField.firmwareVersion.loads profile allocates with
  | true =>
      rw [if_pos rfl]
      exact List.mem_cons_self
  | false =>
      rw [first] at found
      exact absurd (Option.some.inj found).symm other

theorem reached_first (found : firstFailure profile allocates = some .firmwareVersion) :
    reached profile allocates heap before = ⟨⟨heap, fun _ => none⟩, before⟩ := by
  rw [reached, InfoField.all, List.takeWhile_cons, loads_eq_false found]
  rfl

theorem valueOf_of_loads (loads : InfoField.firmwareVersion.loads profile allocates = true) :
    ∃ text, profile.memberText "firmwareVersion" = some text := by
  rw [InfoField.loads] at loads
  cases found : profile.getObjectItem InfoField.firmwareVersion.name with
  | none =>
      rw [found] at loads
      exact absurd rfl (of_decide_eq_true loads)
  | some item =>
      rw [found] at loads
      obtain ⟨string, -⟩ := Bool.and_eq_true_iff.mp loads
      obtain ⟨text, is⟩ := Option.isSome_iff_exists.mp string
      exact ⟨text, (Json.memberText_eq_of_getObjectItem found).trans is⟩

/-- What becomes of a member that cannot be loaded. -/
theorem ends_cases (failing : f.loads profile allocates = false) (s : InfoLoad) :
    (f = .firmwareVersion ∧ profile.memberText f.name = none ∧ ¬ Mistyped profile f.name ∧
        f.ends profile s = .failed (.uninitialized, s)) ∨
      ((profile.memberText f.name).isSome = true ∧ f.ends profile s = .failed (.memAlloc, s)) ∨
      (Mistyped profile f.name ∧ f.ends profile s = .stopped) := by
  rw [InfoField.loads] at failing
  rw [InfoField.ends, Mistyped]
  cases found : profile.getObjectItem f.name with
  | none =>
      rw [found] at failing
      refine .inl ⟨by simpa using failing, ?_, fun there => absurd there.1 (by decide), rfl⟩
      rw [Json.memberText, found]
      rfl
  | some item =>
      have text := Json.memberText_eq_of_getObjectItem found
      rw [text]
      cases string : item.valuestring with
      | none => exact .inr (.inr ⟨⟨rfl, rfl⟩, by simp [string]⟩)
      | some value => exact .inr (.inl ⟨rfl, by simp [string]⟩)

end Reached

section Info

variable (parse : List UInt8 → Option Json) (mallocData : Bool) (allocates : InfoField → Bool)
  (deviceInfo : Option (List UInt8)) (caller : Caller IotDeviceInfo IotDeviceInfo.Refers)

/-- The call gets to the members of `profile`. -/
def ReadsInfo (profile : Json) : Prop :=
  ∃ text, deviceInfo = some text ∧ text ≠ [] ∧ mallocData = true ∧ caller.out.isSome = true ∧
    configMember parse text "deviceInfo" = some profile

/-- The version is in a block, every other member is in one or missing. -/
def InfoLoaded (info : IotDeviceInfo) (heap : BlockHeap Block) : Prop :=
  ∃ text profile, deviceInfo = some text ∧ configMember parse text "deviceInfo" = some profile ∧
    (profile.memberText "firmwareVersion").isSome = true ∧
    ∀ f, match valueOf InfoField.name profile f with
      | none => info.pointer f = none
      | some text => ∃ addr, info.pointer f = some addr ∧ heap.block addr = some (.text text)

/-- A copy fails behind the one of the version. -/
def CopyFailsLate : Prop :=
  ∃ profile f, ReadsInfo parse mallocData deviceInfo caller profile ∧
    firstFailure profile allocates = some f ∧ f ≠ .firmwareVersion ∧
    (profile.memberText f.name).isSome = true

/-- The first member that cannot be loaded is no string. -/
def InfoMistyped : Prop :=
  ∃ profile f, ReadsInfo parse mallocData deviceInfo caller profile ∧
    firstFailure profile allocates = some f ∧ Mistyped profile f.name

variable {parse mallocData allocates deviceInfo caller}

/-- A call that gets to the members ends with them. -/
theorem deviceInfoLoad_of_reads (allocates : InfoField → Bool) {profile : Json}
    (reads : ReadsInfo parse mallocData deviceInfo caller profile) :
    ∃ before, caller.out = some before ∧
      iotApiDeviceInfoLoad allocates parse mallocData deviceInfo caller.out caller.heap =
        match firstFailure profile allocates with
        | none => some ⟨none, some (reached profile allocates caller.heap before).info,
            (reached profile allocates caller.heap before).heap⟩
        | some f =>
            match f.ends profile (reached profile allocates caller.heap before) with
            | .stopped => none
            | .failed (err, s) => some ⟨some err, some s.info, s.loadOut⟩
            | .done s => some ⟨none, some s.info, s.heap⟩ := by
  obtain ⟨text, given, some, malloc, out, member⟩ := reads
  obtain ⟨before, out⟩ := Option.isSome_iff_exists.mp out
  refine ⟨before, out, ?_⟩
  rw [given, out]
  simp only [iotApiDeviceInfoLoad, if_neg some, malloc, Bool.true_eq_false, if_false, member,
    loadAll_eq]
  cases firstFailure profile allocates with
  | none => rfl
  | some f => rfl

theorem deviceInfoLoad_of_not_reads (allocates : InfoField → Bool)
    (never : ∀ profile, ¬ ReadsInfo parse mallocData deviceInfo caller profile) :
    ∃ err, iotApiDeviceInfoLoad allocates parse mallocData deviceInfo caller.out caller.heap =
      some ⟨some err, caller.out, caller.heap⟩ := by
  cases given : deviceInfo with
  | none => exact ⟨_, rfl⟩
  | some text =>
      cases out : caller.out with
      | none => exact ⟨_, rfl⟩
      | some before =>
          rw [iotApiDeviceInfoLoad]
          by_cases empty : text = []
          · exact ⟨_, if_pos empty⟩
          · rw [if_neg empty]
            cases malloc : mallocData with
            | false => exact ⟨_, rfl⟩
            | true =>
                rw [if_neg Bool.true_eq_false.mp]
                cases member : configMember parse text "deviceInfo" with
                | none => exact ⟨_, rfl⟩
                | some profile =>
                    exact absurd ⟨text, given, empty, malloc, by rw [out]; rfl, member⟩
                      (never profile)

/-- The pointers to the copies are in the structure, and the copies are freed. -/
theorem dangles_of_late {profile : Json} {f : InfoField} (heap : BlockHeap Block)
    (before : IotDeviceInfo) (found : firstFailure profile allocates = some f)
    (other : f ≠ .firmwareVersion) :
    ∃ addr, (reached profile allocates heap before).info.pointer .firmwareVersion = some addr ∧
      heap.next ≤ addr ∧
      (reached profile allocates heap before).loadOut.block addr = none := by
  have loaded := firmware_loaded found other
  have sound : (reached profile allocates heap before).toCopies.Sound .. := sound_reached
  obtain ⟨text, value⟩ := valueOf_of_loads (List.mem_takeWhile_imp loaded)
  obtain ⟨addr, is, -⟩ := sound.copied _ loaded (CString.cstr text)
    (by rw [valueOf]; exact congrArg _ value)
  refine ⟨addr, (pointer_reached loaded).trans is, sound.fresh _ _ is, ?_⟩
  exact BlockHeap.block_freeAll_of_mem (is ▸ List.mem_cons_self)

theorem infoLoaded_reached {profile : Json} {before : IotDeviceInfo}
    (reads : ReadsInfo parse mallocData deviceInfo caller profile)
    (none : firstFailure profile allocates = none) :
    InfoLoaded parse deviceInfo (reached profile allocates caller.heap before).info
      (reached profile allocates caller.heap before).heap := by
  obtain ⟨text, given, -, -, -, member⟩ := reads
  have sound : (reached profile allocates caller.heap before).toCopies.Sound .. := sound_reached
  obtain ⟨version, value⟩ := valueOf_of_loads (List.mem_takeWhile_imp (all_loaded none _))
  refine ⟨text, profile, given, member, by rw [value]; rfl, fun f => ?_⟩
  rw [pointer_reached (all_loaded none f)]
  cases is : valueOf InfoField.name profile f with
  | none => exact sound.missing f is
  | some text => exact sound.copied f (all_loaded none f) text is

theorem ReadsInfo.unique {profile profile' : Json}
    (reads : ReadsInfo parse mallocData deviceInfo caller profile)
    (reads' : ReadsInfo parse mallocData deviceInfo caller profile') : profile = profile' := by
  obtain ⟨text, given, -, -, -, member⟩ := reads
  obtain ⟨text', given', -, -, -, member'⟩ := reads'
  cases given.symm.trans given'
  exact Option.some.inj (member.symm.trans member')

/-- Nothing has been assigned when the version fails. -/
theorem allOrNothing_first {profile : Json} {before : IotDeviceInfo} {err : LoadError}
    (out : caller.out = some before)
    (found : firstFailure profile allocates = some .firmwareVersion) :
    AllOrNothing caller (InfoLoaded parse deviceInfo)
      (some ⟨some err, some (reached profile allocates caller.heap before).info,
        (reached profile allocates caller.heap before).loadOut⟩) := by
  have nothing := Copies.Sound.nothing caller.heap (valueOf InfoField.name profile)
  have kept : caller.heap.Extends (caller.heap.freeAll [none, none, none, none]) :=
    nothing.extends_freeAll fun pointer is => ⟨.firmwareVersion, by simpa [eq_comm] using is⟩
  rw [reached_first found]
  change AllOrNothing caller _ (some ⟨some err, some before, _⟩)
  rw [← out]
  exact allOrNothing_failed kept

/-- A structure with a pointer to a copy is not as it was. -/
theorem not_allOrNothing_late {profile : Json} {before : IotDeviceInfo} {f : InfoField}
    {err : LoadError} (out : caller.out = some before)
    (found : firstFailure profile allocates = some f) (other : f ≠ .firmwareVersion) :
    ¬ AllOrNothing caller (InfoLoaded parse deviceInfo)
      (some ⟨some err, some (reached profile allocates caller.heap before).info,
        (reached profile allocates caller.heap before).loadOut⟩) := by
  intro whole
  obtain ⟨addr, is, new, -⟩ := dangles_of_late caller.heap before found other
  have same := (whole _ rfl).1
  rw [out] at same
  rw [Option.some.inj same] at is
  exact absurd (caller.older before addr out ⟨_, is⟩) (Nat.not_lt_of_le new)

theorem deviceInfo_allOrNothing_iff :
    AllOrNothing caller (InfoLoaded parse deviceInfo)
      (iotApiDeviceInfoLoad allocates parse mallocData deviceInfo caller.out caller.heap) ↔
      ¬ CopyFailsLate parse mallocData allocates deviceInfo caller := by
  by_cases reads : ∃ profile, ReadsInfo parse mallocData deviceInfo caller profile
  · obtain ⟨profile, reads⟩ := reads
    obtain ⟨before, out, returns⟩ := deviceInfoLoad_of_reads allocates reads
    rw [returns]
    cases found : firstFailure profile allocates with
    | none =>
        refine ⟨fun _ ⟨_, _, other, late, _⟩ => ?_, fun _ e same => ?_⟩
        · rw [← reads.unique other, found] at late
          cases late
        · cases same
          exact ⟨_, rfl, infoLoaded_reached reads found⟩
    | some f =>
        obtain ⟨rfl, -, -, ends⟩ | ⟨string, ends⟩ | ⟨mistyped, ends⟩ :=
          ends_cases (loads_eq_false found) (reached profile allocates caller.heap before)
        · simp only [ends]
          refine ⟨fun _ ⟨_, _, other, late, later, _⟩ => ?_, fun _ => allOrNothing_first out found⟩
          rw [← reads.unique other, found] at late
          exact later (Option.some.inj late).symm
        · simp only [ends]
          by_cases first : f = .firmwareVersion
          · subst first
            refine ⟨fun _ ⟨_, _, other, late, later, _⟩ => ?_,
              fun _ => allOrNothing_first out found⟩
            rw [← reads.unique other, found] at late
            exact later (Option.some.inj late).symm
          · exact ⟨fun whole => absurd whole (not_allOrNothing_late out found first),
              fun never => absurd ⟨profile, f, reads, found, first, string⟩ never⟩
        · simp only [ends]
          refine ⟨fun _ ⟨_, _, other, late, _, string⟩ => ?_, fun _ => allOrNothing_stopped⟩
          rw [← reads.unique other, found] at late
          cases late
          rw [← reads.unique other, mistyped.2] at string
          cases string
  · have never := not_exists.mp reads
    obtain ⟨err, returns⟩ := deviceInfoLoad_of_not_reads allocates never
    rw [returns]
    exact ⟨fun _ ⟨profile, f, reads, _⟩ => never profile reads, fun _ => allOrNothing_unchanged⟩

theorem deviceInfo_returns_iff :
    (iotApiDeviceInfoLoad allocates parse mallocData deviceInfo caller.out
      caller.heap).isSome = true ↔ ¬ InfoMistyped parse mallocData allocates deviceInfo caller := by
  by_cases reads : ∃ profile, ReadsInfo parse mallocData deviceInfo caller profile
  · obtain ⟨profile, reads⟩ := reads
    obtain ⟨before, out, returns⟩ := deviceInfoLoad_of_reads allocates reads
    rw [returns]
    cases found : firstFailure profile allocates with
    | none =>
        refine ⟨fun _ ⟨_, _, other, late, _⟩ => ?_, fun _ => rfl⟩
        rw [← reads.unique other, found] at late
        cases late
    | some f =>
        obtain ⟨-, missing, typed, ends⟩ | ⟨string, ends⟩ | ⟨mistyped, ends⟩ :=
          ends_cases (loads_eq_false found) (reached profile allocates caller.heap before)
        · simp only [ends]
          refine ⟨fun _ ⟨_, _, other, late, wrong⟩ => ?_, fun _ => rfl⟩
          rw [← reads.unique other, found] at late
          cases late
          exact typed (reads.unique other ▸ wrong)
        · simp only [ends]
          refine ⟨fun _ ⟨_, _, other, late, wrong⟩ => ?_, fun _ => rfl⟩
          rw [← reads.unique other, found] at late
          cases late
          rw [reads.unique other, wrong.2] at string
          cases string
        · simp only [ends]
          exact ⟨fun none => (nomatch none),
            fun never => absurd ⟨profile, f, reads, found, mistyped⟩ never⟩
  · have never := not_exists.mp reads
    obtain ⟨err, returns⟩ := deviceInfoLoad_of_not_reads allocates never
    rw [returns]
    exact ⟨fun _ ⟨profile, f, reads, _⟩ => never profile reads, fun _ => rfl⟩

end Info

/-- A version and a model number. -/
private def sampleInfo : Json :=
  .object [(CString.ascii "deviceInfo", .object [
    (CString.ascii "firmwareVersion", .string [118]),
    (CString.ascii "modelNumber", .string [109])])]

private def sampleInfoText : List UInt8 :=
  CString.ascii "\x7b\"deviceInfo\":\x7b\"firmwareVersion\":\"v\",\"modelNumber\":\"m\"\x7d\x7d"

/-- A structure that was cleared, and an empty heap. -/
private def clearedInfo : Caller IotDeviceInfo IotDeviceInfo.Refers where
  out := some ⟨fun _ => none, 0⟩
  heap := ⟨0, fun _ => none, fun _ _ => rfl⟩
  older _ _ same := by
    rintro ⟨f, is⟩
    cases same
    cases is

end StDevice.Api
