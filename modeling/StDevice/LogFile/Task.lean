import StDevice.Foundation.Run
import StDevice.LogFile.Manager
import StDevice.LogFile.Ram

/-!
# Storing while the log task runs

In the build with `FLASH_WITH_RAM` the buffer is shared between the threads that log and the
task that moves its contents to flash. Whoever asks for a sync clears the flag `enable`, so
that nothing is stored any more, and sets a bit of the event group; the task takes the bit,
writes the buffer, empties it and sets the flag again. While a file is open the task leaves
the buffer alone.

Calls are atomic. The task is interleaved with them step by step: it takes the bit, looks
whether a file is open, reads the count, writes the data, updates the header, and clears the
buffer. Flash operations succeed, and the flash is the list of the bytes written to it;
`manager_refines` says that this is what the steps do to the flash area. The task has reached
its loop when the first event happens.
-/

namespace StDevice.LogFile

/-- Where `_iot_log_file_task` stands. After `started` it is inside the manager; the number
is `log_buf_size`. -/
inductive TaskPoint where
  | waiting
  | woken
  | started
  | counted (logBufSize : Nat)
  | written (logBufSize : Nat)
  | updated
  deriving DecidableEq, Repr

/-- The count has been read and the buffer has not been cleared yet. -/
def TaskPoint.HasCount : TaskPoint → Prop
  | .counted _ | .written _ | .updated => True
  | _ => False

instance (point : TaskPoint) : Decidable point.HasCount :=
  match point with
  | .waiting | .woken | .started => inferInstanceAs (Decidable False)
  | .counted _ | .written _ | .updated => inferInstanceAs (Decidable True)

/-- How `iot_log_file_open` ends. -/
inductive Opening where
  | noMemory | noLog | opened
  deriving DecidableEq, Repr

/-- What happens next. -/
inductive Event where
  | store (logData : List UInt8)
  | sync
  | openFile (result : Opening)
  | closeFile
  | task
  deriving DecidableEq, Repr

/-- The context, the task, the number of open files, the bytes written to flash, and the
bytes for which `iot_log_file_store` returned a count. -/
structure Logger (size : Nat) where
  ctx : Ctx size
  point : TaskPoint
  files : Nat
  flash : List UInt8
  accepted : List UInt8
  deriving DecidableEq, Repr

section Steps

variable {size : Nat}

/-- A new logger. -/
def initialLogger (size : Nat) : Logger size := ⟨iotLogFileInit size, .waiting, 0, [], []⟩

/-- One step of `_iot_log_file_task`. It waits as long as the bit is clear. -/
def iotLogFileTask (s : Logger size) : Option (Logger size) :=
  match s.point with
  | .waiting =>
      if s.ctx.syncReq then
        some { s with ctx := { s.ctx with syncReq := false }, point := .woken }
      else none
  | .woken => some { s with point := if s.ctx.fileOpened = false then .started else .waiting }
  | .started => some { s with point := .counted s.ctx.logBuf.cnt }
  | .counted n =>
      some { s with flash := s.flash ++ s.ctx.logBuf.buf.toList.take n, point := .written n }
  | .written _ => some { s with point := .updated }
  | .updated => some { s with ctx := iotLogFileClearBuf s.ctx, point := .waiting }

/-- A call of `iot_log_file_store`. -/
def Logger.store (s : Logger size) (logData : List UInt8) : Logger size :=
  let (ret, ctx) := iotLogFileStore .flashWithRam s.ctx logData
  { s with ctx := ctx, accepted := if ret = -1 then s.accepted else s.accepted ++ logData }

/-- One event. A file can only be closed when one is open. -/
def Logger.step (s : Logger size) : Event → Option (Logger size)
  | .store logData => some (s.store logData)
  | .sync => some { s with ctx := iotLogFileSync s.ctx }
  | .openFile .noMemory => some s
  | .openFile .noLog => some { s with ctx := iotLogFileOpenState false s.ctx }
  | .openFile .opened =>
      some { s with ctx := iotLogFileOpenState true s.ctx, files := s.files + 1 }
  | .closeFile =>
      if s.files = 0 then none
      else some { s with
        ctx := iotLogFileClose .flashWithRam s.ctx
        files := s.files - 1 }
  | .task => iotLogFileTask s

/-- The relation of the steps. -/
def steps (s : Logger size) (e : Event) (t : Logger size) : Prop := s.step e = some t

end Steps

/-- The manager, when nothing comes in between, is the last four steps of the task, and what
they append to the list of bytes is what the manager appends to the flash area. -/
theorem manager_refines {F : Type} {cfg : FlashConfig} {drv : FlashDriver F}
    {cell : F → Nat → UInt8} (lawful : drv.Lawful cfg cell) {log : FlashLog F}
    (room : log.fileBuf.length = 2 * cfg.sectorSize) {s : Logger cfg.ramBufSize}
    (started : s.point = .started) (area : Area cfg (cell log.flash) s.flash)
    (inside : s.ctx.logBuf.cnt ≤ cfg.ramBufSize) :
    ∃ log' t, iotLogFileManager cfg drv log s.ctx = some (log', t.ctx) ∧
      Run.Steps steps s [.task, .task, .task, .task] t ∧ t.point = .waiting ∧
      Area cfg (cell log'.flash) t.flash := by
  obtain ⟨log', run, -, header, pos, logged⟩ := manager_eq lawful room area inside
  obtain ⟨ctx, point, files, flash, accepted⟩ := s
  obtain rfl : point = .started := started
  exact ⟨log', _, run, .cons rfl (.cons rfl (.cons rfl (.cons rfl (.nil _)))), rfl,
    .inr ⟨header, pos, logged⟩⟩

/-! ## What is stored -/

section Storing

variable {size : Nat} {b : LogBuf size}

/-- A character that fits is stored behind the others. -/
theorem storeChar_of_lt (c : UInt8) (room : b.cnt < size) :
    (iotLogFileStoreChar b c).cnt = b.cnt + 1 ∧
      (iotLogFileStoreChar b c).overridden = b.overridden ∧
      (iotLogFileStoreChar b c).pending = b.pending ++ [c] := by
  have result : iotLogFileStoreChar b c =
      { b with cnt := b.cnt + 1, buf := b.buf.setIfInBounds b.cnt c } := by
    rw [iotLogFileStoreChar, if_neg (by omega)]
  rw [result]
  refine ⟨rfl, rfl, ?_⟩
  unfold LogBuf.pending
  dsimp only
  have length : b.cnt < b.buf.toList.length := by
    rw [Vector.length_toList]
    exact room
  apply List.ext_getElem?
  intro k
  by_cases before : k < b.cnt
  · rw [List.getElem?_take_of_lt (by omega), List.getElem?_append_left (by simp; omega),
      List.getElem?_take_of_lt before]
    simp [Nat.ne_of_gt before]
  · by_cases here : k = b.cnt
    · subst here
      simp [room, Nat.min_eq_left (Nat.le_of_lt room)]
    · rw [List.getElem?_eq_none, List.getElem?_eq_none]
      · simp
        omega
      · simp
        omega

/-- Characters that fit are stored behind the others. -/
theorem storeChars_of_le {logData : List UInt8} (room : b.cnt + logData.length ≤ size) :
    (logData.foldl iotLogFileStoreChar b).cnt = b.cnt + logData.length ∧
      (logData.foldl iotLogFileStoreChar b).overridden = b.overridden ∧
      (logData.foldl iotLogFileStoreChar b).pending = b.pending ++ logData := by
  induction logData generalizing b with
  | nil => exact ⟨rfl, rfl, (List.append_nil _).symm⟩
  | cons c logData ih =>
      rw [List.length_cons] at room
      obtain ⟨cnt, overridden, pending⟩ := storeChar_of_lt (b := b) c (by omega)
      obtain ⟨cnt', overridden', pending'⟩ := ih (b := iotLogFileStoreChar b c) (by omega)
      rw [List.foldl_cons]
      refine ⟨?_, overridden'.trans overridden, ?_⟩
      · rw [cnt', cnt, List.length_cons]
        omega
      · rw [pending', pending, List.append_assoc]
        rfl

/-- What a call of `iot_log_file_store` does: nothing, or it stores the data and asks for a
sync when there is no room for another string. -/
theorem Logger.store_cases (s : Logger size) (logData : List UInt8) :
    s.store logData = s ∨
      s.ctx.logBuf.enable = true ∧ logData.length < maxStringSize ∧
        ∃ ctx : Ctx size, s.store logData =
            { s with ctx := ctx, accepted := s.accepted ++ logData } ∧
          (ctx.logBuf.cnt = (logData.foldl iotLogFileStoreChar s.ctx.logBuf).cnt ∧
            ctx.logBuf.buf = (logData.foldl iotLogFileStoreChar s.ctx.logBuf).buf ∧
            ctx.logBuf.overridden =
              (logData.foldl iotLogFileStoreChar s.ctx.logBuf).overridden) ∧
          ctx.fileOpened = s.ctx.fileOpened ∧
          (ctx.logBuf.enable = false ∧ ctx.syncReq = true ∨
            ctx.logBuf.enable = true ∧ ctx.logBuf.cnt + maxStringSize ≤ size) := by
  have limit : maxStringSize = 128 := rfl
  have counts : ¬ (logData.length : Int) = -1 := by omega
  by_cases disabled : s.ctx.logBuf.enable = false
  · left
    rw [Logger.store, iotLogFileStore, if_pos disabled]
    rfl
  by_cases long : logData.length ≥ maxStringSize
  · left
    rw [Logger.store, iotLogFileStore, if_neg disabled, if_pos long]
    rfl
  have enabled : s.ctx.logBuf.enable = true := by
    cases known : s.ctx.logBuf.enable with
    | true => rfl
    | false => exact absurd known disabled
  refine .inr ⟨enabled, Nat.not_le.mp long, ?_⟩
  rw [Logger.store, iotLogFileStore, if_neg disabled, if_neg long]
  dsimp only
  by_cases full : iotLogFileBufFreeSize
      { s.ctx with logBuf := logData.foldl iotLogFileStoreChar s.ctx.logBuf } <
        maxStringSize * marginCnt
  · rw [if_pos full]
    dsimp only
    rw [if_neg counts]
    exact ⟨_, rfl, ⟨rfl, rfl, rfl⟩, rfl, .inl ⟨rfl, rfl⟩⟩
  · have free : maxStringSize ≤ size - (logData.foldl iotLogFileStoreChar s.ctx.logBuf).cnt :=
      Nat.not_lt.mp full
    rw [if_neg full]
    dsimp only
    rw [if_neg counts]
    refine ⟨_, rfl, ⟨rfl, rfl, rfl⟩, rfl, .inr ⟨?_, by dsimp only; omega⟩⟩
    exact (foldl_storeChar_enable _ _).trans enabled

end Storing

/-! ## No accepted byte is lost -/

/-- Every accepted byte is on flash or below `cnt` in the buffer, and the buffer has not
wrapped. -/
structure Kept {size : Nat} (s : Logger size) : Prop where
  unwrapped : s.ctx.logBuf.overridden = false
  inside : s.ctx.logBuf.cnt ≤ size
  found : ∃ front, front <+: s.flash ∧ s.accepted = front ++ s.ctx.logBuf.pending

/-- Nothing is accepted between the moment the task reads the count and the moment it clears
the buffer. -/
def Exclusive {size : Nat} (s : Logger size) : Event → Prop
  | .store logData => s.ctx.logBuf.enable = true → logData.length < maxStringSize →
      s.point.HasCount → logData = []
  | _ => True

/-- The buffer has been written and not been cleared yet. -/
def TaskPoint.HasWritten : TaskPoint → Prop
  | .written _ | .updated => True
  | _ => False

/-- Where the accepted bytes are at each point of the task. -/
structure Custody {size : Nat} (s : Logger size) : Prop where
  unwrapped : s.ctx.logBuf.overridden = false
  inside : s.ctx.logBuf.cnt ≤ size
  room : s.ctx.logBuf.enable = true →
    s.ctx.logBuf.cnt = 0 ∨ s.ctx.logBuf.cnt + maxStringSize ≤ size
  count : ∀ n, s.point = .counted n → n = s.ctx.logBuf.cnt
  before : ¬ s.point.HasWritten → s.accepted = s.flash ++ s.ctx.logBuf.pending
  after : s.point.HasWritten → s.accepted = s.flash ∧ s.ctx.logBuf.pending <:+ s.flash

section Custody

variable {size : Nat} {s t : Logger size}

theorem custody_initial (size : Nat) : Custody (initialLogger size) :=
  ⟨rfl, Nat.zero_le _, fun _ => .inl rfl, nofun, fun _ => rfl, fun impossible => impossible.elim⟩

namespace Custody

theorem kept (custody : Custody s) : Kept s := by
  refine ⟨custody.unwrapped, custody.inside, ?_⟩
  by_cases written : s.point.HasWritten
  · obtain ⟨all, front, split⟩ := custody.after written
    exact ⟨front, ⟨_, split⟩, by rw [all, split]⟩
  · exact ⟨s.flash, List.prefix_refl _, custody.before written⟩

/-- Only the flags of the context change. -/
theorem of_flags (custody : Custody s) (ctx : Ctx size)
    (same : ctx.logBuf.cnt = s.ctx.logBuf.cnt ∧ ctx.logBuf.buf = s.ctx.logBuf.buf ∧
      ctx.logBuf.overridden = s.ctx.logBuf.overridden)
    (enable : ctx.logBuf.enable = true → s.ctx.logBuf.enable = true) (files : Nat) :
    Custody { s with ctx := ctx, files := files } := by
  obtain ⟨cnt, buf, overridden⟩ := same
  have pending : ctx.logBuf.pending = s.ctx.logBuf.pending := by
    rw [LogBuf.pending, cnt, buf]
    rfl
  refine ⟨overridden.trans custody.unwrapped, ?_, ?_, ?_, ?_, ?_⟩
  · rw [cnt]
    exact custody.inside
  · intro enabled
    rw [cnt]
    exact custody.room (enable enabled)
  · intro n point
    rw [cnt]
    exact custody.count n point
  · rw [pending]
    exact custody.before
  · rw [pending]
    exact custody.after

/-- Data that fits is stored at a point where the task has not read the count. -/
theorem store_data (custody : Custody s) {logData : List UInt8}
    (enabled : s.ctx.logBuf.enable = true) (short : logData.length < maxStringSize)
    (enough : maxStringSize ≤ size + 1) (exclusive : s.point.HasCount → logData = [])
    {ctx : Ctx size}
    (same : ctx.logBuf.cnt = (logData.foldl iotLogFileStoreChar s.ctx.logBuf).cnt ∧
      ctx.logBuf.buf = (logData.foldl iotLogFileStoreChar s.ctx.logBuf).buf ∧
      ctx.logBuf.overridden = (logData.foldl iotLogFileStoreChar s.ctx.logBuf).overridden)
    (enable : ctx.logBuf.enable = true → ctx.logBuf.cnt + maxStringSize ≤ size) :
    Custody { s with ctx := ctx, accepted := s.accepted ++ logData } := by
  have limit : maxStringSize = 128 := rfl
  have fits : s.ctx.logBuf.cnt + logData.length ≤ size := by
    rcases custody.room enabled with empty | free
    · omega
    · omega
  obtain ⟨cnt, overridden, pending⟩ := storeChars_of_le fits
  obtain ⟨cnt', buf', overridden'⟩ := same
  have pending' : ctx.logBuf.pending = s.ctx.logBuf.pending ++ logData := by
    rw [← pending, LogBuf.pending, cnt', buf']
    rfl
  refine ⟨?_, ?_, fun on => .inr (enable on), ?_, ?_, ?_⟩
  · exact overridden'.trans (overridden.trans custody.unwrapped)
  · dsimp only
    omega
  · intro n point
    have counted : s.point = .counted n := point
    obtain rfl := exclusive (by rw [counted]; trivial)
    dsimp only
    rw [cnt', cnt]
    exact custody.count n counted
  · intro unwritten
    dsimp only
    rw [pending', ← List.append_assoc, custody.before unwritten]
  · intro written
    obtain rfl := exclusive (by
      cases point : s.point with
      | written n => trivial
      | updated => trivial
      | waiting => rw [point] at written; exact written.elim
      | woken => rw [point] at written; exact written.elim
      | started => rw [point] at written; exact written.elim
      | counted n => rw [point] at written; exact written.elim)
    dsimp only
    rw [pending', List.append_nil, List.append_nil]
    exact custody.after written

theorem store (custody : Custody s) {logData : List UInt8} (enough : maxStringSize ≤ size + 1)
    (exclusive : Exclusive s (.store logData)) : Custody (s.store logData) := by
  obtain same | ⟨enabled, short, ctx, result, same, -, ⟨off, -⟩ | ⟨-, free⟩⟩ :=
    s.store_cases logData
  · rw [same]
    exact custody
  · rw [result]
    exact custody.store_data enabled short enough (exclusive enabled short) same
      fun on => absurd (off.symm.trans on) Bool.false_ne_true
  · rw [result]
    exact custody.store_data enabled short enough (exclusive enabled short) same fun _ => free

theorem task (custody : Custody s) (next : iotLogFileTask s = some t) : Custody t := by
  obtain ⟨ctx, point, files, flash, accepted⟩ := s
  obtain ⟨unwrapped, inside, room, count, before, after⟩ := custody
  unfold iotLogFileTask at next
  cases point with
  | waiting =>
      dsimp only at next
      split at next
      · obtain rfl := Option.some.inj next
        refine ⟨unwrapped, inside, room, ?_, fun _ => before not_false, fun other => other.elim⟩
        intro n point
        cases point
      · cases next
  | woken =>
      obtain rfl := Option.some.inj next
      refine ⟨unwrapped, inside, room, ?_, ?_, ?_⟩
      · intro n point
        dsimp only at point
        split at point
        · cases point
        · cases point
      · intro _
        exact before not_false
      · intro written
        dsimp only at written
        split at written
        · exact written.elim
        · exact written.elim
  | started =>
      obtain rfl := Option.some.inj next
      refine ⟨unwrapped, inside, room, ?_, fun _ => before not_false, fun other => other.elim⟩
      intro n point
      exact (TaskPoint.counted.inj point).symm
  | counted n =>
      obtain rfl := Option.some.inj next
      have same : n = ctx.logBuf.cnt := count n rfl
      have all : accepted = flash ++ ctx.logBuf.buf.toList.take n := by
        rw [same]
        exact before not_false
      refine ⟨unwrapped, inside, room, ?_, fun other => absurd trivial other, fun _ => ⟨all, ?_⟩⟩
      · intro n point
        cases point
      · dsimp only
        rw [same]
        exact List.suffix_append _ _
  | written n =>
      obtain rfl := Option.some.inj next
      refine ⟨unwrapped, inside, room, ?_, fun other => absurd trivial other,
        fun _ => after trivial⟩
      intro n point
      cases point
  | updated =>
      obtain rfl := Option.some.inj next
      obtain ⟨all, -⟩ := after trivial
      have cleared : (iotLogFileClearBuf ctx).logBuf.cnt = 0 ∧
          (iotLogFileClearBuf ctx).logBuf.overridden = false := by
        unfold iotLogFileClearBuf
        dsimp only
        split
        · exact ⟨rfl, rfl⟩
        · exact ⟨rfl, rfl⟩
      have empty : (iotLogFileClearBuf ctx).logBuf.pending = [] := by
        rw [LogBuf.pending, cleared.1, List.take_zero]
      refine ⟨cleared.2, ?_, fun _ => .inl cleared.1, ?_, fun _ => ?_, fun other => other.elim⟩
      · dsimp only
        rw [cleared.1]
        exact Nat.zero_le _
      · intro n point
        cases point
      · dsimp only
        rw [empty, List.append_nil]
        exact all

/-- One event keeps the bytes. -/
theorem step (custody : Custody s) {e : Event} (enough : maxStringSize ≤ size + 1)
    (exclusive : Exclusive s e) (next : s.step e = some t) : Custody t := by
  cases e with
  | store logData =>
      obtain rfl := Option.some.inj next
      exact custody.store enough exclusive
  | sync =>
      obtain rfl := Option.some.inj next
      exact custody.of_flags (iotLogFileSync s.ctx) ⟨rfl, rfl, rfl⟩
        (fun on => absurd on Bool.false_ne_true) s.files
  | openFile result =>
      cases result with
      | noMemory =>
          obtain rfl := Option.some.inj next
          exact custody
      | noLog =>
          obtain rfl := Option.some.inj next
          exact custody.of_flags (iotLogFileOpenState false s.ctx) ⟨rfl, rfl, rfl⟩ id s.files
      | opened =>
          obtain rfl := Option.some.inj next
          exact custody.of_flags (iotLogFileOpenState true s.ctx) ⟨rfl, rfl, rfl⟩ id (s.files + 1)
  | closeFile =>
      dsimp only [Logger.step] at next
      split at next
      · cases next
      · obtain rfl := Option.some.inj next
        exact custody.of_flags (iotLogFileOpenState false s.ctx) ⟨rfl, rfl, rfl⟩ id (s.files - 1)
  | task => exact custody.task next

end Custody

end Custody

/-- In every run in which nothing is accepted between the moment the task reads the count and
the moment it clears the buffer, no accepted byte is ever lost. -/
theorem kept_of_exclusive {size : Nat} (enough : maxStringSize ≤ size + 1) {events : List Event}
    {s : Logger size} (run : Run.Steps steps (initialLogger size) events s)
    (exclusive : Run.Along steps Exclusive (initialLogger size) events) : Kept s := by
  have custody : Custody s := run.invariant_along
    (fun s e t custody here next => custody.step enough here next) exclusive
    (custody_initial size)
  exact custody.kept

/-- A run without a sync: one string is stored and found in the buffer. -/
theorem kept_of_exclusive_single :
    ∃ s : Logger 128, Run.Steps steps (initialLogger 128) [.store [7]] s ∧ Kept s := by
  obtain ⟨s, run⟩ : ∃ s, Run.Steps steps (initialLogger 128) [.store [7]] s :=
    ⟨_, .cons rfl (.nil _)⟩
  exact ⟨s, run, kept_of_exclusive (by decide) run
    ⟨fun _ _ counted => counted.elim, fun _ _ => trivial⟩⟩

/-- The events of a run in which a second sync is asked for while the task is at work. The
task then runs once more with the buffer enabled. -/
def lossyEvents : List Event :=
  [.sync, .task, .task, .sync, .task, .task, .task, .task,
    .task, .task, .task, .store [7], .task, .task, .task]

/-- The byte that was accepted is neither in the buffer nor on flash. -/
theorem not_kept_lossyEvents :
    ∃ s : Logger 1024, Run.Steps steps (initialLogger 1024) lossyEvents s ∧ ¬ Kept s := by
  obtain ⟨s, run, accepted, flash, pending⟩ : ∃ s : Logger 1024,
      Run.Steps steps (initialLogger 1024) lossyEvents s ∧ s.accepted = [7] ∧ s.flash = [] ∧
        s.ctx.logBuf.cnt = 0 := by
    refine ⟨_, .cons rfl <| .cons rfl <| .cons rfl <| .cons rfl <| .cons rfl <| .cons rfl <|
      .cons rfl <| .cons rfl <| .cons rfl <| .cons rfl <| .cons rfl <| .cons rfl <| .cons rfl <|
      .cons rfl <| .cons rfl <| .nil _, rfl, rfl, rfl⟩
  refine ⟨s, run, fun kept => ?_⟩
  obtain ⟨front, written, all⟩ := kept.found
  rw [flash, List.prefix_nil] at written
  rw [accepted, written, LogBuf.pending, pending] at all
  cases all

/-! ## Logging is taken up again -/

/-- Someone is going to enable the buffer: a request is pending, the task is at work, or a
file is open. -/
def Responsible {size : Nat} (s : Logger size) : Prop :=
  s.ctx.logBuf.enable = false → s.ctx.syncReq = true ∨ s.point ≠ .waiting ∨ 0 < s.files

/-- The task does not find a file open when it looks, unless the buffer is enabled or another
request is pending. -/
def Undisturbed {size : Nat} (s : Logger size) : Event → Prop
  | .task => s.point = .woken ∨ s.point = .updated → s.ctx.fileOpened = true →
      s.ctx.logBuf.enable = true ∨ s.ctx.syncReq = true
  | _ => True

/-- What holds in such runs: a disabled buffer has a request or the task at work, and the flag
is only set while a file is open. -/
structure Attended {size : Nat} (s : Logger size) : Prop where
  request : s.ctx.logBuf.enable = false → s.ctx.syncReq = true ∨ s.point ≠ .waiting
  opened : s.ctx.fileOpened = true → 0 < s.files

section Attended

variable {size : Nat} {s t : Logger size}

theorem attended_initial (size : Nat) : Attended (initialLogger size) :=
  ⟨nofun, nofun⟩

namespace Attended

theorem store (attended : Attended s) (logData : List UInt8) : Attended (s.store logData) := by
  obtain same | ⟨-, -, ctx, result, -, files, ⟨-, request⟩ | ⟨on, -⟩⟩ := s.store_cases logData
  · rw [same]
    exact attended
  · rw [result]
    exact ⟨fun _ => .inl request, fun opened => attended.opened (files.symm.trans opened)⟩
  · rw [result]
    exact ⟨fun off => absurd (off.symm.trans on) Bool.false_ne_true,
      fun opened => attended.opened (files.symm.trans opened)⟩

theorem task (attended : Attended s) (undisturbed : Undisturbed s .task)
    (next : iotLogFileTask s = some t) : Attended t := by
  obtain ⟨ctx, point, files, flash, accepted⟩ := s
  obtain ⟨request, opened⟩ := attended
  unfold iotLogFileTask at next
  cases point with
  | waiting =>
      dsimp only at next
      split at next
      · obtain rfl := Option.some.inj next
        exact ⟨fun _ => .inr nofun, opened⟩
      · cases next
  | woken =>
      obtain rfl := Option.some.inj next
      refine ⟨fun off => ?_, opened⟩
      by_cases closed : ctx.fileOpened = false
      · right
        dsimp only
        rw [if_pos closed]
        nofun
      · left
        have found : ctx.fileOpened = true := Bool.not_eq_false _ ▸ closed
        rcases undisturbed (.inl rfl) found with on | again
        · exact absurd (off.symm.trans on) Bool.false_ne_true
        · exact again
  | started =>
      obtain rfl := Option.some.inj next
      exact ⟨fun _ => .inr nofun, opened⟩
  | counted n =>
      obtain rfl := Option.some.inj next
      exact ⟨fun _ => .inr nofun, opened⟩
  | written n =>
      obtain rfl := Option.some.inj next
      exact ⟨fun _ => .inr nofun, opened⟩
  | updated =>
      obtain rfl := Option.some.inj next
      by_cases closed : ctx.fileOpened = false
      · have cleared : iotLogFileClearBuf ctx = iotLogFileEnable true
            { ctx with logBuf := { ctx.logBuf with cnt := 0, overridden := false } } :=
          if_pos closed
        refine ⟨fun off => ?_, ?_⟩
        · dsimp only at off
          rw [cleared] at off
          cases off
        · dsimp only
          rw [cleared]
          exact opened
      · have found : ctx.fileOpened = true := Bool.not_eq_false _ ▸ closed
        have cleared : iotLogFileClearBuf ctx =
            { ctx with logBuf := { ctx.logBuf with cnt := 0, overridden := false } } :=
          if_neg closed
        refine ⟨fun off => .inl ?_, ?_⟩
        · dsimp only at off ⊢
          rw [cleared] at off ⊢
          rcases undisturbed (.inr rfl) found with on | again
          · exact absurd (off.symm.trans on) Bool.false_ne_true
          · exact again
        · dsimp only
          rw [cleared]
          exact opened

/-- One event leaves someone responsible. -/
theorem step (attended : Attended s) {e : Event} (undisturbed : Undisturbed s e)
    (next : s.step e = some t) : Attended t := by
  cases e with
  | store logData =>
      obtain rfl := Option.some.inj next
      exact attended.store logData
  | sync =>
      obtain rfl := Option.some.inj next
      exact ⟨fun _ => .inl rfl, attended.opened⟩
  | openFile result =>
      cases result with
      | noMemory =>
          obtain rfl := Option.some.inj next
          exact attended
      | noLog =>
          obtain rfl := Option.some.inj next
          exact ⟨attended.request, nofun⟩
      | opened =>
          obtain rfl := Option.some.inj next
          exact ⟨attended.request, fun _ => Nat.succ_pos _⟩
  | closeFile =>
      dsimp only [Logger.step] at next
      split at next
      · cases next
      · obtain rfl := Option.some.inj next
        exact ⟨attended.request, nofun⟩
  | task => exact attended.task undisturbed next

end Attended

/-- The task alone brings the logger from any point of the manager to where the buffer is
enabled, when no file is open. -/
theorem exists_enabled (closed : s.ctx.fileOpened = false) (working : s.point ≠ .waiting) :
    ∃ n t, Run.Steps steps s (List.replicate n .task) t ∧ t.ctx.logBuf.enable = true := by
  obtain ⟨ctx, point, files, flash, accepted⟩ := s
  have cleared : (iotLogFileClearBuf ctx).logBuf.enable = true := by
    unfold iotLogFileClearBuf
    rw [if_pos closed]
    rfl
  have entered : (if ctx.fileOpened = false then TaskPoint.started else .waiting) = .started :=
    if_pos closed
  cases point with
  | waiting => exact absurd rfl working
  | woken =>
      have enters : steps ⟨ctx, .woken, files, flash, accepted⟩ .task
          ⟨ctx, .started, files, flash, accepted⟩ := by
        show some _ = some _
        rw [entered]
      exact ⟨5, _, .cons enters (.cons rfl (.cons rfl (.cons rfl (.cons rfl (.nil _))))),
        cleared⟩
  | started => exact ⟨4, _, .cons rfl (.cons rfl (.cons rfl (.cons rfl (.nil _)))), cleared⟩
  | counted n => exact ⟨3, _, .cons rfl (.cons rfl (.cons rfl (.nil _))), cleared⟩
  | written n => exact ⟨2, _, .cons rfl (.cons rfl (.nil _)), cleared⟩
  | updated => exact ⟨1, _, .cons rfl (.nil _), cleared⟩

theorem Attended.exists_enabled (attended : Attended s) (none : s.files = 0) :
    ∃ n t, Run.Steps steps s (List.replicate n .task) t ∧ t.ctx.logBuf.enable = true := by
  have closed : s.ctx.fileOpened = false := by
    cases known : s.ctx.fileOpened with
    | false => rfl
    | true => exact absurd (attended.opened known) (by omega)
  cases enabled : s.ctx.logBuf.enable with
  | true => exact ⟨0, s, .nil s, enabled⟩
  | false =>
      by_cases working : s.point = .waiting
      · have request : s.ctx.syncReq = true :=
          (attended.request enabled).resolve_right (not_not.mpr working)
        have wakes : s.step .task =
            some { s with ctx := { s.ctx with syncReq := false }, point := .woken } := by
          dsimp only [Logger.step, iotLogFileTask]
          rw [working]
          exact if_pos request
        obtain ⟨n, t, run, on⟩ := LogFile.exists_enabled
          (s := { s with ctx := { s.ctx with syncReq := false }, point := .woken }) closed nofun
        exact ⟨n + 1, t, .cons wakes run, on⟩
      · exact LogFile.exists_enabled closed working

end Attended

/-- In every run in which the task never finds a file open, a disabled buffer always has
someone responsible, and without an open file the task alone enables it again. -/
theorem responsible_of_undisturbed {size : Nat} {events : List Event} {s : Logger size}
    (run : Run.Steps steps (initialLogger size) events s)
    (undisturbed : Run.Along steps Undisturbed (initialLogger size) events) :
    Responsible s ∧ (s.files = 0 →
      ∃ n t, Run.Steps steps s (List.replicate n .task) t ∧ t.ctx.logBuf.enable = true) := by
  have attended : Attended s := run.invariant_along
    (fun s e t attended here next => attended.step here next) undisturbed
    (attended_initial size)
  refine ⟨fun off => ?_, attended.exists_enabled⟩
  rcases attended.request off with request | working
  · exact .inl request
  · exact .inr (.inl working)

/-- A request is made and no file is ever open. -/
theorem responsible_of_undisturbed_sync :
    ∃ s : Logger 128, Run.Steps steps (initialLogger 128) [.sync] s ∧ Responsible s ∧
      (s.files = 0 → ∃ n t, Run.Steps steps s (List.replicate n .task) t ∧
        t.ctx.logBuf.enable = true) := by
  obtain ⟨s, run⟩ : ∃ s, Run.Steps steps (initialLogger 128) [.sync] s :=
    ⟨_, .cons rfl (.nil _)⟩
  exact ⟨s, run, responsible_of_undisturbed run ⟨trivial, fun _ _ => trivial⟩⟩

/-- A sync is asked for while a file is open. The task drops the request, and closing the file
does not enable the buffer. -/
theorem not_responsible_open :
    ∃ s : Logger 1024, Run.Steps steps (initialLogger 1024)
      [.openFile .opened, .sync, .task, .task, .closeFile] s ∧ ¬ Responsible s := by
  obtain ⟨s, run, off, request, point, files⟩ : ∃ s : Logger 1024,
      Run.Steps steps (initialLogger 1024)
        [.openFile .opened, .sync, .task, .task, .closeFile] s ∧
      s.ctx.logBuf.enable = false ∧ s.ctx.syncReq = false ∧ s.point = .waiting ∧
        s.files = 0 :=
    ⟨_, .cons rfl <| .cons rfl <| .cons rfl <| .cons rfl <| .cons rfl <| .nil _,
      rfl, rfl, rfl, rfl⟩
  refine ⟨s, run, fun responsible => ?_⟩
  rcases responsible off with pending | working | opened
  · exact absurd (request.symm.trans pending) Bool.false_ne_true
  · exact working point
  · omega

end StDevice.LogFile
