import StDevice.Foundation.CString
import StDevice.Mqtt.Packet

/-!
# The command callbacks of a capability

`st_cap_cmd_set_cb` puts a callback in front of the list of its capability unless the list
has one already; `_iot_process_cmd` looks a received command up in that list. Registration
compares as many characters as the new name has, so that it takes a name for registered
that is only the beginning of one; the lookup compares whole names.

The pointers that are passed are not NULL and the allocations succeed.
-/

namespace StDevice.Capability

variable {κ υ : Type}

/-- `struct iot_cap_cmd_set`, over the callbacks and what they are called with. -/
structure CmdSet (κ υ : Type) where
  cmdType : CString
  cmdCb : κ
  usrData : υ

/-- `struct iot_cap_handle`. -/
structure CapHandle (κ υ : Type) where
  component : CString
  capability : CString
  cmdList : List (CmdSet κ υ)

/-- The loop of `st_cap_cmd_set_cb` over the callbacks that are there. -/
def hasSame (needleStr : CString) : List (CmdSet κ υ) → Bool
  | [] => false
  | command :: next =>
      if CString.strncmp command.cmdType.bytes needleStr.bytes needleStr.strlen = 0 then true
      else hasSame needleStr next

/-- `st_cap_cmd_set_cb`, with `none` for IOT_ERROR_INVALID_ARGS. -/
def stCapCmdSetCb (handle : CapHandle κ υ) (command : CmdSet κ υ) : Option (CapHandle κ υ) :=
  if hasSame command.cmdType handle.cmdList then none
  else some { handle with cmdList := command :: handle.cmdList }

/-- The handle after some calls. -/
def setAll (handle : CapHandle κ υ) (calls : List (CmdSet κ υ)) : CapHandle κ υ :=
  calls.foldl (fun handle command => (stCapCmdSetCb handle command).getD handle) handle

/-- What `_iot_process_cmd` does. -/
inductive Processed (κ υ : Type) where
  /-- "Cannot find handle" -/
  | noHandle
  /-- "Not registed cmd set received" -/
  | noCommand
  /-- the callback of the command is called with the handle and the user data -/
  | called (handle : CapHandle κ υ) (cmdCb : κ) (usrData : υ)

/-- The search for the handle. -/
def findHandle (component capability : CString) :
    List (Option (CapHandle κ υ)) → Option (CapHandle κ υ)
  | [] => none
  | none :: next => findHandle component capability next
  | some handle :: next =>
      if component = handle.component ∧ capability = handle.capability then some handle
      else findHandle component capability next

/-- The search for the command. -/
def findCommand (commandName : CString) : List (CmdSet κ υ) → Option (CmdSet κ υ)
  | [] => none
  | command :: next =>
      if commandName = command.cmdType then some command else findCommand commandName next

/-- `_iot_process_cmd`. -/
def iotProcessCmd (capHandleList : List (Option (CapHandle κ υ)))
    (component capability commandName : CString) : Processed κ υ :=
  match findHandle component capability capHandleList with
  | none => .noHandle
  | some handle =>
      match findCommand commandName handle.cmdList with
      | none => .noCommand
      | some command => .called handle command.cmdCb command.usrData

/-! ## The list of a handle -/

/-- The new name is the beginning of one that is there. -/
theorem hasSame_iff (needleStr : CString) (commands : List (CmdSet κ υ)) :
    hasSame needleStr commands = true ↔
      ∃ command ∈ commands, needleStr.bytes <+: command.cmdType.bytes := by
  induction commands with
  | nil => simp [hasSame]
  | cons command next ih =>
      have compare := CString.strncmp_eq_zero_iff needleStr.noNul command.cmdType.bytes
      rw [hasSame]
      split
      case isTrue same =>
        exact ⟨fun _ => ⟨command, List.mem_cons_self, compare.mp same⟩, fun _ => rfl⟩
      case isFalse differs =>
        rw [ih]
        constructor
        · rintro ⟨found, inside, starts⟩
          exact ⟨found, List.mem_cons_of_mem _ inside, starts⟩
        · rintro ⟨found, inside, starts⟩
          obtain rfl | later := List.mem_cons.mp inside
          · exact absurd (compare.mpr starts) differs
          · exact ⟨found, later, starts⟩

theorem isSome_stCapCmdSetCb (handle : CapHandle κ υ) (command : CmdSet κ υ) :
    (stCapCmdSetCb handle command).isSome = true ↔
      ∀ there ∈ handle.cmdList, ¬ command.cmdType.bytes <+: there.cmdType.bytes := by
  have same := hasSame_iff command.cmdType handle.cmdList
  unfold stCapCmdSetCb
  split
  case isTrue refused =>
    obtain ⟨there, inside, starts⟩ := same.mp refused
    constructor
    · intro impossible
      cases impossible
    · intro free
      exact absurd starts (free there inside)
  case isFalse free =>
    refine ⟨fun _ there inside starts => free (same.mpr ⟨there, inside, starts⟩), fun _ => rfl⟩

@[simp] theorem setAll_nil (handle : CapHandle κ υ) : setAll handle [] = handle :=
  rfl

@[simp] theorem setAll_cons (handle : CapHandle κ υ) (command : CmdSet κ υ)
    (later : List (CmdSet κ υ)) :
    setAll handle (command :: later) =
      setAll ((stCapCmdSetCb handle command).getD handle) later :=
  rfl

/-- The calls that succeed. -/
def accepted (handle : CapHandle κ υ) : List (CmdSet κ υ) → List (CmdSet κ υ)
  | [] => []
  | command :: later =>
      match stCapCmdSetCb handle command with
      | some updated => command :: accepted updated later
      | none => accepted handle later

/-- The handle of `st_cap_handle_init`. -/
def newHandle (component capability : CString) : CapHandle κ υ := ⟨component, capability, []⟩

/-- A call that succeeds puts its callback in front of the list. -/
theorem eq_of_stCapCmdSetCb {handle updated : CapHandle κ υ} {command : CmdSet κ υ}
    (success : stCapCmdSetCb handle command = some updated) :
    updated = { handle with cmdList := command :: handle.cmdList } := by
  unfold stCapCmdSetCb at success
  split at success
  · cases success
  · exact (Option.some.inj success).symm

/-- The list holds the callbacks of the calls that succeeded, the last one in front. -/
theorem setAll_eq (handle : CapHandle κ υ) (calls : List (CmdSet κ υ)) :
    setAll handle calls =
      { handle with cmdList := (accepted handle calls).reverse ++ handle.cmdList } := by
  induction calls generalizing handle with
  | nil => rfl
  | cons command later ih =>
      rw [setAll_cons, accepted]
      cases success : stCapCmdSetCb handle command with
      | none => exact ih handle
      | some updated =>
          simp only [Option.getD_some]
          rw [ih updated, eq_of_stCapCmdSetCb success, List.reverse_cons, List.append_assoc]
          rfl

theorem accepted_append (handle : CapHandle κ υ) (calls later : List (CmdSet κ υ)) :
    accepted handle (calls ++ later) =
      accepted handle calls ++ accepted (setAll handle calls) later := by
  induction calls generalizing handle with
  | nil => rfl
  | cons command calls ih =>
      rw [List.cons_append, accepted, accepted, setAll_cons]
      cases success : stCapCmdSetCb handle command with
      | none => exact ih handle
      | some updated => exact congrArg (command :: ·) (ih updated)

theorem cmdList_setAll_new (component capability : CString) (calls : List (CmdSet κ υ)) :
    (setAll (newHandle component capability) calls).cmdList =
      (accepted (newHandle component capability) calls).reverse := by
  rw [setAll_eq]
  exact List.append_nil _

theorem mem_of_mem_accepted {handle : CapHandle κ υ} {calls : List (CmdSet κ υ)}
    {command : CmdSet κ υ} (inside : command ∈ accepted handle calls) : command ∈ calls := by
  induction calls generalizing handle with
  | nil => exact inside
  | cons first later ih =>
      rw [accepted] at inside
      cases success : stCapCmdSetCb handle first with
      | none =>
          rw [success] at inside
          exact List.mem_cons_of_mem _ (ih inside)
      | some updated =>
          rw [success] at inside
          obtain rfl | among := List.mem_cons.mp inside
          · exact List.mem_cons_self
          · exact List.mem_cons_of_mem _ (ih among)

/-- While a name is registered, no beginning of it is. -/
theorem not_prefix_of_mem_accepted {handle : CapHandle κ υ} {calls : List (CmdSet κ υ)}
    {there command : CmdSet κ υ} (registered : there ∈ handle.cmdList)
    (inside : command ∈ accepted handle calls) :
    ¬ command.cmdType.bytes <+: there.cmdType.bytes := by
  induction calls generalizing handle with
  | nil => cases inside
  | cons first later ih =>
      rw [accepted] at inside
      cases success : stCapCmdSetCb handle first with
      | none =>
          rw [success] at inside
          exact ih registered inside
      | some updated =>
          rw [success] at inside
          obtain rfl | among := List.mem_cons.mp inside
          · exact (isSome_stCapCmdSetCb handle command).mp (by rw [success]; rfl) there registered
          · refine ih ?_ among
            rw [eq_of_stCapCmdSetCb success]
            exact List.mem_cons_of_mem _ registered

/-- No two callbacks are registered under one name. -/
theorem accepted_unique (handle : CapHandle κ υ) (calls : List (CmdSet κ υ)) :
    (accepted handle calls).Pairwise fun earlier later => later.cmdType ≠ earlier.cmdType := by
  induction calls generalizing handle with
  | nil => exact List.Pairwise.nil
  | cons first later ih =>
      rw [accepted]
      cases success : stCapCmdSetCb handle first with
      | none => exact ih handle
      | some updated =>
          refine List.Pairwise.cons (fun command inside same => ?_) (ih updated)
          have registered : first ∈ updated.cmdList := by
            rw [eq_of_stCapCmdSetCb success]
            exact List.mem_cons_self
          exact not_prefix_of_mem_accepted registered inside (same ▸ List.prefix_refl _)

/-! ## The lookup -/

theorem findCommand_eq_none_iff (commandName : CString) (commands : List (CmdSet κ υ)) :
    findCommand commandName commands = none ↔
      ∀ command ∈ commands, command.cmdType ≠ commandName := by
  induction commands with
  | nil => simp [findCommand]
  | cons command next ih =>
      rw [findCommand, List.forall_mem_cons]
      split
      case isTrue same =>
        exact ⟨fun impossible => absurd impossible (by simp), fun free => absurd same.symm free.1⟩
      case isFalse differs =>
        rw [ih]
        exact ⟨fun free => ⟨Ne.symm differs, free⟩, fun free => free.2⟩

/-- Where names are not registered twice, the lookup finds the one callback. -/
theorem findCommand_of_mem {commands : List (CmdSet κ υ)} {command : CmdSet κ υ}
    (unique : commands.Pairwise fun earlier later => earlier.cmdType ≠ later.cmdType)
    (inside : command ∈ commands) : findCommand command.cmdType commands = some command := by
  induction commands with
  | nil => cases inside
  | cons first next ih =>
      rw [findCommand]
      obtain rfl | later := List.mem_cons.mp inside
      · rw [if_pos rfl]
      · have differs := (List.pairwise_cons.mp unique).1 command later
        rw [if_neg (Ne.symm differs), ih (List.pairwise_cons.mp unique).2 later]

theorem findHandle_append {component capability : CString}
    {front : List (Option (CapHandle κ υ))} {handle : CapHandle κ υ}
    (other : findHandle component capability front = none)
    (matching : handle.component = component ∧ handle.capability = capability)
    (rest : List (Option (CapHandle κ υ))) :
    findHandle component capability (front ++ some handle :: rest) = some handle := by
  induction front with
  | nil =>
      rw [List.nil_append, findHandle, if_pos ⟨matching.1.symm, matching.2.symm⟩]
  | cons first front ih =>
      cases first with
      | none => exact ih other
      | some before =>
          rw [findHandle] at other
          split at other
          case isTrue => cases other
          case isFalse differs =>
            rw [List.cons_append, findHandle, if_neg differs, ih other]

/-! ## Registration and dispatch together -/

/-- What an application relies on for its calls on a new capability. -/
structure Faithful (component capability : CString) (calls : List (CmdSet κ υ)) : Prop where
  /-- A call succeeds exactly where its name is not registered yet. -/
  exactly_once : ∀ before command after, calls = before ++ command :: after →
    ((stCapCmdSetCb (setAll (newHandle component capability) before) command).isSome = true ↔
      ∀ there ∈ accepted (newHandle component capability) before,
        there.cmdType ≠ command.cmdType)
  /-- The registered names do not depend on the order of the calls. -/
  unordered : ∀ other, other.Perm calls → ∀ name,
    (∃ command ∈ accepted (newHandle component capability) other, command.cmdType = name) ↔
      ∃ command ∈ accepted (newHandle component capability) calls, command.cmdType = name
  /-- A received command calls the callback of its name, and no other one. -/
  dispatched : ∀ front rest, findHandle component capability front = none → ∀ name,
    let handle := setAll (newHandle component capability) calls
    let processed := iotProcessCmd (front ++ some handle :: rest) component capability name
    (∀ command ∈ accepted (newHandle component capability) calls, command.cmdType = name →
      processed = .called handle command.cmdCb command.usrData) ∧
    ((∀ command ∈ accepted (newHandle component capability) calls, command.cmdType ≠ name) →
      processed = .noCommand)

/-- No name is a proper beginning of another one. -/
def PrefixFree (calls : List (CmdSet κ υ)) : Prop :=
  ∀ first ∈ calls, ∀ second ∈ calls,
    first.cmdType.bytes <+: second.cmdType.bytes → first.cmdType = second.cmdType

theorem PrefixFree.perm {calls other : List (CmdSet κ υ)} (free : PrefixFree calls)
    (reordered : other.Perm calls) : PrefixFree other :=
  fun first inside second among =>
    free first (reordered.mem_iff.mp inside) second (reordered.mem_iff.mp among)

section New

variable (component capability : CString)

theorem isSome_after_calls (calls : List (CmdSet κ υ)) (command : CmdSet κ υ) :
    (stCapCmdSetCb (setAll (newHandle component capability) calls) command).isSome = true ↔
      ∀ there ∈ accepted (newHandle component capability) calls,
        ¬ command.cmdType.bytes <+: there.cmdType.bytes := by
  rw [isSome_stCapCmdSetCb, cmdList_setAll_new]
  simp only [List.mem_reverse]

/-- A call leaves its name registered where no name is a beginning of another one. -/
theorem registered_of_prefixFree {calls : List (CmdSet κ υ)} (free : PrefixFree calls)
    {command : CmdSet κ υ} (inside : command ∈ calls) :
    ∃ there ∈ accepted (newHandle component capability) calls,
      there.cmdType = command.cmdType := by
  obtain ⟨before, after, rfl⟩ := List.append_of_mem inside
  rw [accepted_append]
  by_cases success :
      (stCapCmdSetCb (setAll (newHandle component capability) before) command).isSome = true
  · obtain ⟨updated, result⟩ := Option.isSome_iff_exists.mp success
    refine ⟨command, List.mem_append_right _ ?_, rfl⟩
    rw [accepted, result]
    exact List.mem_cons_self
  · rw [isSome_after_calls] at success
    simp only [not_forall, not_not] at success
    obtain ⟨there, registered, starts⟩ := success
    have called : there ∈ before ++ command :: after :=
      List.mem_append_left _ (mem_of_mem_accepted registered)
    exact ⟨there, List.mem_append_left _ registered, (free command inside there called starts).symm⟩

theorem registered_iff_of_prefixFree {calls : List (CmdSet κ υ)} (free : PrefixFree calls)
    (name : CString) :
    (∃ command ∈ accepted (newHandle component capability) calls, command.cmdType = name) ↔
      ∃ command ∈ calls, command.cmdType = name := by
  constructor
  · rintro ⟨command, inside, named⟩
    exact ⟨command, mem_of_mem_accepted inside, named⟩
  · rintro ⟨command, inside, rfl⟩
    exact registered_of_prefixFree component capability free inside

/-- The first call on a new capability succeeds. -/
theorem accepted_new_cons (first : CmdSet κ υ) (later : List (CmdSet κ υ)) :
    accepted (newHandle component capability) (first :: later) =
      first :: accepted ⟨component, capability, [first]⟩ later :=
  rfl

theorem dispatched_new (calls : List (CmdSet κ υ)) (front rest : List (Option (CapHandle κ υ)))
    (other : findHandle component capability front = none) (name : CString) :
    let handle := setAll (newHandle component capability) calls
    let processed := iotProcessCmd (front ++ some handle :: rest) component capability name
    (∀ command ∈ accepted (newHandle component capability) calls, command.cmdType = name →
      processed = .called handle command.cmdCb command.usrData) ∧
    ((∀ command ∈ accepted (newHandle component capability) calls, command.cmdType ≠ name) →
      processed = .noCommand) := by
  have commands := cmdList_setAll_new component capability calls
  have unique : (setAll (newHandle component capability) calls).cmdList.Pairwise
      fun earlier later => earlier.cmdType ≠ later.cmdType := by
    rw [commands]
    exact List.pairwise_reverse.mpr (accepted_unique _ calls)
  have matching : (setAll (newHandle component capability) calls).component = component ∧
      (setAll (newHandle component capability) calls).capability = capability := by
    rw [setAll_eq]
    exact ⟨rfl, rfl⟩
  have found := findHandle_append other matching rest
  constructor
  · rintro command inside rfl
    have registered : command ∈ (setAll (newHandle component capability) calls).cmdList := by
      rw [commands]
      exact List.mem_reverse.mpr inside
    simp only [iotProcessCmd, found, findCommand_of_mem unique registered]
  · intro free
    have missing : findCommand name (setAll (newHandle component capability) calls).cmdList =
        none := by
      rw [findCommand_eq_none_iff, commands]
      exact fun command inside => free command (List.mem_reverse.mp inside)
    simp only [iotProcessCmd, found, missing]

/-- Registration and dispatch do what the application relies on exactly where no name is a
proper beginning of another one. -/
theorem callbacks_faithful_iff (calls : List (CmdSet κ υ)) :
    Faithful component capability calls ↔ PrefixFree calls := by
  constructor
  · intro faithful first inside second among starts
    by_contra differs
    obtain ⟨before, after, split⟩ := List.append_of_mem inside
    obtain ⟨before', after', split'⟩ := List.append_of_mem among
    -- With `first` in front its name is registered; behind `second` it never is.
    have inFront := faithful.unordered (first :: (before ++ after))
      (split ▸ List.perm_middle.symm) first.cmdType
    have behind := faithful.unordered (second :: (before' ++ after'))
      (split' ▸ List.perm_middle.symm) first.cmdType
    rw [accepted_new_cons] at inFront behind
    obtain ⟨command, registered, named⟩ :=
      behind.mpr (inFront.mp ⟨first, List.mem_cons_self, rfl⟩)
    obtain rfl | later := List.mem_cons.mp registered
    · exact differs named.symm
    · refine not_prefix_of_mem_accepted List.mem_cons_self later ?_
      rw [named]
      exact starts
  · intro free
    refine ⟨?_, ?_, dispatched_new component capability calls⟩
    · rintro before command after rfl
      rw [isSome_after_calls]
      constructor
      · intro unstarted there registered same
        exact unstarted there registered (same ▸ List.prefix_refl _)
      · intro unnamed there registered starts
        have called : there ∈ before ++ command :: after :=
          List.mem_append_left _ (mem_of_mem_accepted registered)
        exact unnamed there registered (free command (by simp) there called starts).symm
    · intro other reordered name
      rw [registered_iff_of_prefixFree component capability free,
        registered_iff_of_prefixFree component capability (free.perm reordered)]
      simp only [reordered.mem_iff]

end New

/-- A capability with the commands `setLevelFast` and `setLevel`: the second call is refused,
although no callback is registered under its name. -/
theorem setLevel_refused :
    let fast : CmdSet Nat Unit := ⟨⟨CString.ascii "setLevelFast", by decide⟩, 0, ()⟩
    let level : CmdSet Nat Unit := ⟨⟨CString.ascii "setLevel", by decide⟩, 1, ()⟩
    let main : CString := ⟨CString.ascii "main", by decide⟩
    let dimmer : CString := ⟨CString.ascii "switchLevel", by decide⟩
    (stCapCmdSetCb (setAll (newHandle main dimmer) [fast]) level).isSome = false ∧
      ¬ Faithful main dimmer [fast, level] := by
  intro fast level main dimmer
  have refused : (stCapCmdSetCb (setAll (newHandle main dimmer) [fast]) level).isSome = false := rfl
  refine ⟨refused, fun faithful => ?_⟩
  have unnamed : ∀ there ∈ accepted (newHandle main dimmer) [fast],
      there.cmdType ≠ level.cmdType := by
    rw [accepted_new_cons]
    intro there inside
    obtain rfl : there = fast := by simpa [accepted] using inside
    exact fun same => absurd (congrArg (fun name => name.bytes.length) same) (by decide)
  have success := (faithful.exactly_once [fast] level [] rfl).mpr unnamed
  exact absurd success (by rw [refused]; decide)

end StDevice.Capability
