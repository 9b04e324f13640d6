import Mathlib.Data.Fintype.Basic
import StDevice.Foundation.Run

/-!
# Event groups on POSIX

An event group has eight events. Each has a pipe, so that a thread can wait for several of
them with `select`, and a bit in `event_status`. Setting an event writes to its pipe and
waiting for it reads from its pipe; the bit is changed by these calls and by a call that
clears it.

The purpose of a group is a set of events: setting adds to it, clearing and waiting with
`clear_on_exit` remove from it, and a wait is over when one of its events is in the set. The
calls are atomic, and reads from and writes to the pipes succeed.
-/

namespace StDevice.Os

/-- `unsigned char`, as a set of bits. -/
abbrev Bits := BitVec 8

/-- `eventgroup_t`, with the number of bytes in each pipe for its descriptors. -/
structure EventGroup where
  pipe : Fin 8 → Nat
  eventStatus : Bits

/-- The `id` of an event. -/
def eventId (i : Fin 8) : Bits := 1#8 <<< i.val

/-- `group[i].id == (group[i].id & bits)`. -/
def named (bits : Bits) (i : Fin 8) : Bool := eventId i == (eventId i &&& bits)

/-- `iot_os_eventgroup_create`. -/
def iotOsEventgroupCreate : EventGroup := ⟨fun _ => 0, 0⟩

/-- The loops of the group functions: for each chosen event, `transfer` is what happens to
its pipe, and its id is added to `bits`. -/
def eachEvent (chosen : Fin 8 → Bool) (transfer : Nat → Nat) (events : List (Fin 8))
    (acc : (Fin 8 → Nat) × Bits) : (Fin 8 → Nat) × Bits :=
  events.foldl (fun acc i =>
    if chosen i then (Function.update acc.1 i (transfer (acc.1 i)), acc.2 ||| eventId i)
    else acc) acc

/-- `iot_os_eventgroup_set_bits`: the three bytes of `"Set"` are written for every event that
is not set already. -/
def iotOsEventgroupSetBits (g : EventGroup) (bitsToSet : Bits) : EventGroup :=
  let (pipe, bits) := eachEvent (fun i => !named g.eventStatus i && named bitsToSet i)
    (· + 3) (List.finRange 8) (g.pipe, 0)
  ⟨pipe, g.eventStatus ||| bits⟩

/-- `iot_os_eventgroup_clear_bits`. -/
def iotOsEventgroupClearBits (g : EventGroup) (bitsToClear : Bits) : EventGroup :=
  { g with eventStatus := g.eventStatus &&& ~~~bitsToClear }

/-- `select` finds something to read for one of the awaited events. -/
def selects (g : EventGroup) (bitsToWaitFor : Bits) : Bool :=
  (List.finRange 8).any fun i => named bitsToWaitFor i && decide (0 < g.pipe i)

/-- What `iot_os_eventgroup_wait_bits` returns, and whether it timed out. -/
structure Waited where
  timedOut : Bool
  ret : Bits
  deriving DecidableEq

/-- `iot_os_eventgroup_wait_bits`: up to three bytes are read from every pipe that `select`
has found readable. -/
def iotOsEventgroupWaitBits (g : EventGroup) (bitsToWaitFor : Bits) (clearOnExit : Bool) :
    EventGroup × Waited :=
  if selects g bitsToWaitFor then
    let (pipe, bits) :=
      eachEvent (fun i => named bitsToWaitFor i && decide (0 < g.pipe i)) (· - 3)
        (List.finRange 8) (g.pipe, 0)
    (⟨pipe, if clearOnExit then g.eventStatus &&& ~~~bits else g.eventStatus⟩,
      ⟨false, g.eventStatus⟩)
  else (g, ⟨true, g.eventStatus⟩)

/-! ## What each function does to one event -/

section Events

variable {chosen : Fin 8 → Bool} {transfer : Nat → Nat}

/-- The bit of one event. -/
def bitOf (bits : Bits) (i : Fin 8) : Bool := bits.getLsbD i

@[simp] theorem bitOf_zero (i : Fin 8) : bitOf 0#8 i = false := BitVec.getLsbD_zero

@[simp] theorem bitOf_or (a b : Bits) (i : Fin 8) : bitOf (a ||| b) i = (bitOf a i || bitOf b i) :=
  BitVec.getLsbD_or

@[simp] theorem bitOf_and_not (a b : Bits) (i : Fin 8) :
    bitOf (a &&& ~~~b) i = (bitOf a i && !bitOf b i) := by
  unfold bitOf
  rw [BitVec.getLsbD_and, BitVec.getLsbD_not, decide_eq_true i.isLt, Bool.true_and]

@[simp] theorem bitOf_eventId (i j : Fin 8) : bitOf (eventId i) j = decide (i = j) := by
  revert i j
  decide

@[simp] theorem named_eq (bits : Bits) (i : Fin 8) : named bits i = bitOf bits i := by
  have masked : eventId i &&& bits = if bitOf bits i then eventId i else 0#8 := by
    unfold eventId bitOf
    rw [← BitVec.twoPow_eq, BitVec.and_comm, BitVec.and_twoPow]
  have nonzero : ∀ j, eventId j ≠ 0#8 := by decide
  unfold named
  rw [masked]
  cases bitOf bits i with
  | true => simp
  | false => simpa using nonzero i

/-- The pipes after the loop. -/
theorem eachEvent_pipe {events : List (Fin 8)} (once : events.Nodup)
    (acc : (Fin 8 → Nat) × Bits) (i : Fin 8) :
    (eachEvent chosen transfer events acc).1 i =
      if i ∈ events ∧ chosen i = true then transfer (acc.1 i) else acc.1 i := by
  induction events generalizing acc with
  | nil => simp [eachEvent]
  | cons j events ih =>
      obtain ⟨fresh, once⟩ := List.nodup_cons.mp once
      have unfolded : eachEvent chosen transfer (j :: events) acc =
          eachEvent chosen transfer events (if chosen j then
            (Function.update acc.1 j (transfer (acc.1 j)), acc.2 ||| eventId j) else acc) := rfl
      rw [unfolded, ih once]
      by_cases same : i = j
      · subst same
        rw [if_neg fun both => fresh both.1]
        cases taken : chosen i with
        | true => simp
        | false => simp
      · cases taken : chosen j with
        | true => simp [same]
        | false => simp [same]

/-- The bits after the loop. -/
theorem eachEvent_bits (events : List (Fin 8)) (acc : (Fin 8 → Nat) × Bits) (i : Fin 8) :
    bitOf (eachEvent chosen transfer events acc).2 i =
      (bitOf acc.2 i || (decide (i ∈ events) && chosen i)) := by
  induction events generalizing acc with
  | nil => simp [eachEvent]
  | cons j events ih =>
      have unfolded : eachEvent chosen transfer (j :: events) acc =
          eachEvent chosen transfer events (if chosen j then
            (Function.update acc.1 j (transfer (acc.1 j)), acc.2 ||| eventId j) else acc) := rfl
      rw [unfolded, ih]
      by_cases same : i = j
      · subst same
        cases taken : chosen i with
        | true => simp
        | false => simp
      · cases taken : chosen j with
        | true => simp [same, Ne.symm same]
        | false => simp [same]

end Events

section Functions

variable (g : EventGroup) (bits : Bits) (i : Fin 8)

theorem setBits_pipe : (iotOsEventgroupSetBits g bits).pipe i =
    if bitOf g.eventStatus i = false ∧ bitOf bits i = true then g.pipe i + 3
    else g.pipe i := by
  unfold iotOsEventgroupSetBits
  dsimp only
  rw [eachEvent_pipe (List.nodup_finRange 8)]
  simp

theorem setBits_status : bitOf (iotOsEventgroupSetBits g bits).eventStatus i =
    (bitOf g.eventStatus i || bitOf bits i) := by
  unfold iotOsEventgroupSetBits
  dsimp only
  rw [bitOf_or, eachEvent_bits]
  cases known : bitOf g.eventStatus i with
  | true => simp
  | false => simp [known]

theorem clearBits_status : bitOf (iotOsEventgroupClearBits g bits).eventStatus i =
    (bitOf g.eventStatus i && !bitOf bits i) := by
  simp [iotOsEventgroupClearBits]

theorem selects_iff : selects g bits = true ↔ ∃ i : Fin 8, bitOf bits i = true ∧ 0 < g.pipe i := by
  simp [selects]

/-- A wait reads from the readable pipes of its events, whether it wakes or not. -/
theorem waitBits_pipe (clearOnExit : Bool) :
    (iotOsEventgroupWaitBits g bits clearOnExit).1.pipe i =
      if bitOf bits i = true then g.pipe i - 3 else g.pipe i := by
  unfold iotOsEventgroupWaitBits
  by_cases wakes : selects g bits = true
  · rw [if_pos wakes]
    dsimp only
    rw [eachEvent_pipe (List.nodup_finRange 8)]
    by_cases awaited : bitOf bits i = true
    · by_cases readable : 0 < g.pipe i
      · simp [awaited, readable]
      · simp [awaited, Nat.eq_zero_of_not_pos readable]
    · simp [awaited]
  · rw [if_neg wakes]
    by_cases awaited : bitOf bits i = true
    · have empty : ¬ 0 < g.pipe i := fun readable =>
        wakes ((selects_iff g bits).mpr ⟨i, awaited, readable⟩)
      rw [if_pos awaited]
      dsimp only
      omega
    · rw [if_neg awaited]

theorem waitBits_status (clearOnExit : Bool) :
    bitOf (iotOsEventgroupWaitBits g bits clearOnExit).1.eventStatus i =
      (bitOf g.eventStatus i &&
        !(clearOnExit && bitOf bits i && decide (0 < g.pipe i))) := by
  unfold iotOsEventgroupWaitBits
  by_cases wakes : selects g bits = true
  · rw [if_pos wakes]
    dsimp only
    cases clearOnExit with
    | false => simp
    | true =>
        rw [if_pos rfl, bitOf_and_not, eachEvent_bits]
        simp
  · rw [if_neg wakes]
    dsimp only
    by_cases awaited : bitOf bits i = true
    · have empty : ¬ 0 < g.pipe i := fun readable =>
        wakes ((selects_iff g bits).mpr ⟨i, awaited, readable⟩)
      simp [empty]
    · simp [awaited]

theorem waitBits_timedOut (clearOnExit : Bool) :
    (iotOsEventgroupWaitBits g bits clearOnExit).2.timedOut = !selects g bits := by
  unfold iotOsEventgroupWaitBits
  by_cases wakes : selects g bits = true
  · rw [if_pos wakes, wakes]
    rfl
  · rw [if_neg wakes, Bool.eq_false_iff.mpr wakes]
    rfl

end Functions

/-! ## The set of events -/

/-- One call. -/
inductive Call where
  | setBits (bits : Bits)
  | clearBits (bits : Bits)
  | waitBits (bits : Bits) (clearOnExit : Bool)
  deriving DecidableEq

/-- The events that a mask names. -/
def eventsOf (bits : Bits) : Finset (Fin 8) := Finset.univ.filter fun i => bitOf bits i = true

@[simp] theorem mem_eventsOf {bits : Bits} {i : Fin 8} :
    i ∈ eventsOf bits ↔ bitOf bits i = true := by
  simp [eventsOf]

/-- The set of events after a call. -/
def Call.update (events : Finset (Fin 8)) : Call → Finset (Fin 8)
  | .setBits bits => events ∪ eventsOf bits
  | .clearBits bits => events \ eventsOf bits
  | .waitBits bits clearOnExit => if clearOnExit then events \ eventsOf bits else events

/-- The group after a call. -/
def Call.run (g : EventGroup) : Call → EventGroup
  | .setBits bits => iotOsEventgroupSetBits g bits
  | .clearBits bits => iotOsEventgroupClearBits g bits
  | .waitBits bits clearOnExit => (iotOsEventgroupWaitBits g bits clearOnExit).1

/-- A group, and the set of events that it stands for. -/
structure Tracked where
  group : EventGroup
  events : Finset (Fin 8)

def Tracked.next (s : Tracked) (call : Call) : Tracked :=
  ⟨call.run s.group, call.update s.events⟩

/-- A new group stands for the empty set. -/
def tracked : Tracked := ⟨iotOsEventgroupCreate, ∅⟩

/-- The pipe of an event is readable if and only if its bit is set. -/
def InStep (g : EventGroup) : Prop := ∀ i, 0 < g.pipe i ↔ bitOf g.eventStatus i = true

/-- A wait times out if and only if none of its events is in the set. -/
def Wakes (s : Tracked) : Call → Prop
  | .waitBits bits clearOnExit =>
      (iotOsEventgroupWaitBits s.group bits clearOnExit).2.timedOut = false ↔
        ∃ i ∈ s.events, i ∈ eventsOf bits
  | _ => True

/-- Along the calls, the pipes and the status stay in step and every wait wakes as it should. -/
def Refines : Tracked → List Call → Prop
  | s, [] => InStep s.group
  | s, call :: calls => InStep s.group ∧ Wakes s call ∧ Refines (s.next call) calls

/-- The calls that leave pipe and status in step: nothing that is set is cleared, or awaited
without being cleared. -/
def Careful (s : Tracked) : Call → Prop
  | .setBits _ => True
  | .clearBits bits => ∀ i ∈ s.events, i ∉ eventsOf bits
  | .waitBits bits clearOnExit => clearOnExit = true ∨ ∀ i ∈ s.events, i ∉ eventsOf bits

/-- The group represents the set: an event is in it if and only if its bit is set and its
pipe has the three bytes of one call. -/
structure Represents (s : Tracked) : Prop where
  pipe : ∀ i, s.group.pipe i = if i ∈ s.events then 3 else 0
  status : ∀ i, bitOf s.group.eventStatus i = true ↔ i ∈ s.events

section Refinement

variable {s : Tracked} {call : Call}

theorem represents_tracked : Represents tracked :=
  ⟨fun _ => rfl, fun i =>
    iff_of_false (by simp [tracked, iotOsEventgroupCreate]) (by simp [tracked])⟩

namespace Represents

theorem inStep (represents : Represents s) : InStep s.group := by
  intro i
  rw [represents.pipe, represents.status]
  by_cases member : i ∈ s.events
  · simp [member]
  · simp [member]

theorem wakes (represents : Represents s) (call : Call) : Wakes s call := by
  cases call with
  | setBits bits => trivial
  | clearBits bits => trivial
  | waitBits bits clearOnExit =>
      show _ = false ↔ _
      rw [waitBits_timedOut, Bool.not_eq_false', selects_iff]
      constructor
      · rintro ⟨i, awaited, readable⟩
        rw [represents.inStep i, represents.status] at readable
        exact ⟨i, readable, mem_eventsOf.mpr awaited⟩
      · rintro ⟨i, member, awaited⟩
        refine ⟨i, mem_eventsOf.mp awaited, ?_⟩
        rw [represents.inStep i, represents.status]
        exact member

/-- A careful call keeps the representation. -/
theorem next (represents : Represents s) (careful : Careful s call) :
    Represents (s.next call) := by
  cases call with
  | setBits bits =>
      refine ⟨fun i => ?_, fun i => ?_⟩
      · have known := represents.status i
        show (iotOsEventgroupSetBits s.group bits).pipe i =
          if i ∈ s.events ∪ eventsOf bits then 3 else 0
        rw [setBits_pipe, represents.pipe]
        by_cases member : i ∈ s.events
        · simp [member, known]
        · have unset : bitOf s.group.eventStatus i = false :=
            Bool.eq_false_iff.mpr fun set => member (known.mp set)
          simp [member, unset]
      · show bitOf (iotOsEventgroupSetBits s.group bits).eventStatus i = true ↔
          i ∈ s.events ∪ eventsOf bits
        rw [setBits_status, Bool.or_eq_true, represents.status, Finset.mem_union, mem_eventsOf]
  | clearBits bits =>
      refine ⟨fun i => ?_, fun i => ?_⟩
      · have apart := careful i
        show s.group.pipe i = if i ∈ s.events \ eventsOf bits then 3 else 0
        rw [represents.pipe]
        by_cases member : i ∈ s.events
        · rw [if_pos member, if_pos (Finset.mem_sdiff.mpr ⟨member, apart member⟩)]
        · rw [if_neg member, if_neg fun other => member (Finset.mem_sdiff.mp other).1]
      · show bitOf (iotOsEventgroupClearBits s.group bits).eventStatus i = true ↔
          i ∈ s.events \ eventsOf bits
        rw [clearBits_status, Bool.and_eq_true, represents.status, Finset.mem_sdiff, mem_eventsOf]
        simp
  | waitBits bits clearOnExit =>
      refine ⟨fun i => ?_, fun i => ?_⟩
      · show (iotOsEventgroupWaitBits s.group bits clearOnExit).1.pipe i =
          if i ∈ (if clearOnExit then s.events \ eventsOf bits else s.events) then 3 else 0
        rw [waitBits_pipe, represents.pipe]
        rcases careful with rfl | apart
        · by_cases member : i ∈ s.events
          · by_cases awaited : bitOf bits i = true
            · simp [member, awaited]
            · simp [member, awaited]
          · simp [member]
        · by_cases member : i ∈ s.events
          · have unawaited : ¬ bitOf bits i = true := fun awaited =>
              apart i member (mem_eventsOf.mpr awaited)
            cases clearOnExit with
            | true => simp [member, unawaited]
            | false => simp [member, unawaited]
          · cases clearOnExit with
            | true => simp [member]
            | false => simp [member]
      · show bitOf (iotOsEventgroupWaitBits s.group bits clearOnExit).1.eventStatus i = true ↔
          i ∈ (if clearOnExit then s.events \ eventsOf bits else s.events)
        rw [waitBits_status, represents.pipe, Bool.and_eq_true, represents.status]
        cases clearOnExit with
        | false => simp
        | true =>
            by_cases member : i ∈ s.events
            · simp [member]
            · simp [member]

/-- Any other call leaves an event whose pipe and bit disagree. -/
theorem careful_of_inStep (represents : Represents s) (after : InStep (s.next call).group) :
    Careful s call := by
  cases call with
  | setBits bits => trivial
  | clearBits bits =>
      intro i member cleared
      have readable : 0 < s.group.pipe i := by
        rw [represents.pipe, if_pos member]
        decide
      have still := (after i).mp readable
      change bitOf (iotOsEventgroupClearBits s.group bits).eventStatus i = true at still
      rw [clearBits_status, mem_eventsOf.mp cleared] at still
      simp at still
  | waitBits bits clearOnExit =>
      cases clearOnExit with
      | true => exact .inl rfl
      | false =>
          refine .inr fun i member awaited => ?_
          have set : bitOf (iotOsEventgroupWaitBits s.group bits false).1.eventStatus i = true := by
            rw [waitBits_status]
            simpa using (represents.status i).mpr member
          have readable := (after i).mpr set
          change 0 < (iotOsEventgroupWaitBits s.group bits false).1.pipe i at readable
          rw [waitBits_pipe, if_pos (mem_eventsOf.mp awaited), represents.pipe,
            if_pos member] at readable
          exact absurd readable (by decide)

end Represents

end Refinement

/-- A new group refines its set of events along the calls exactly when no call clears an
event that is set, or waits for one without clearing it. -/
theorem refines_iff_careful (calls : List Call) :
    Refines tracked calls ↔
      Run.Along (fun s call t => t = Tracked.next s call) Careful tracked calls := by
  have general : ∀ (calls : List Call) {s : Tracked}, Represents s →
      (Refines s calls ↔ Run.Along (fun s call t => t = Tracked.next s call) Careful s calls) := by
    intro calls
    induction calls with
    | nil =>
        intro s represents
        exact iff_of_true represents.inStep trivial
    | cons call calls ih =>
        intro s represents
        constructor
        · rintro ⟨-, -, later⟩
          have after : InStep (s.next call).group := by
            cases calls with
            | nil => exact later
            | cons other calls => exact later.1
          have careful := represents.careful_of_inStep after
          refine ⟨careful, ?_⟩
          rintro t rfl
          exact (ih (represents.next careful)).mp later
        · rintro ⟨careful, later⟩
          exact ⟨represents.inStep, represents.wakes call,
            (ih (represents.next careful)).mpr (later _ rfl)⟩
  exact general calls represents_tracked

/-- An event that is set and cleared still wakes a wait. -/
theorem not_refines_clear : ¬ Refines tracked [.setBits 1, .clearBits 1, .waitBits 1 true] := by
  rintro ⟨-, -, -, -, -, wakes, -⟩
  have absent := wakes.mp (by decide)
  obtain ⟨i, member, -⟩ := absent
  revert member
  revert i
  decide

end StDevice.Os
