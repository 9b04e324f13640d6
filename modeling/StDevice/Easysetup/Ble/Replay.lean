import StDevice.Easysetup.Ble.Reassembly

/-!
# Repeated and replayed messages over BLE

`es_msg_assemble` accepts a message with a greater transaction id only, and drops
a message with the command number of an unanswered one. The comparison of command
numbers is made on the first segment and kept in a local variable, so it is gone
when a later segment completes the message.

A session records what the peer observed: the transaction ids dispatched since
the last reset and the command it has no response to. The records never influence
the code.
-/

namespace StDevice.Easysetup.Ble

open Run

/-- The segment opens a chunk: it is the first segment of a message, or of the
next chunk of a message whose array exists already. -/
def Accepts (buf : List UInt8) (s : MsgState) : Prop :=
  buf.length ≠ 0 ∧ s.state = .idle ∧ ¬ Refused (.ofBytes buf) s

instance (buf : List UInt8) (s : MsgState) : Decidable (Accepts buf s) :=
  inferInstanceAs (Decidable (_ ∧ _ ∧ _))

structure Session where
  msg : MsgState
  /-- transaction ids dispatched since the last reset, the latest first -/
  dispatched : List UInt8
  /-- command number of the last accepted message, until a response is sent -/
  unanswered : Option UInt8
  /-- the last accepted message has the command number of one then unanswered -/
  repeats : Bool
  /-- such a message was dispatched -/
  replayed : Bool

namespace Session

def initial : Session := ⟨.initial, [], none, false, false⟩

inductive Event where
  /-- `es_msg_assemble` on one segment -/
  | segment (env : AssembleEnv) (buf : List UInt8)
  /-- `es_msg_disassemble` on a response -/
  | response (env : DisassembleEnv) (buf : List UInt8) (dataContinued : UInt8) (cmd : Int)
  /-- `es_reset_transferdata` -/
  | resetTransferdata

/-- Whether the message in progress repeats a command, after the segment. -/
def repeatsAfter (s : Session) (buf : List UInt8) : Bool :=
  if Accepts buf s.msg ∧ s.msg.data = none then
    decide (s.unanswered = some (TransforData.ofBytes buf).cmdNum)
  else s.repeats

/-- The unanswered command, after the segment. Every chunk of a message carries
its command number. -/
def unansweredAfter (s : Session) (buf : List UInt8) : Option UInt8 :=
  if Accepts buf s.msg then
    if s.msg.data = none then some (TransforData.ofBytes buf).cmdNum
    else s.unanswered.map fun _ => (TransforData.ofBytes buf).cmdNum
  else s.unanswered

/-- The session after a segment that turned `msg_state` into `msg`. -/
def received (s : Session) (buf : List UInt8) (msg : MsgState) (out : AssembleOutput) :
    Session where
  msg := msg
  dispatched :=
    if out.dispatch.isSome then (TransforData.ofBytes buf).transactionId :: s.dispatched
    else s.dispatched
  unanswered := s.unansweredAfter buf
  repeats := s.repeatsAfter buf
  replayed := s.replayed || (out.dispatch.isSome && s.repeatsAfter buf)

/-- The session after a response: it answers the last message when all of its
indications were sent. -/
def responded (s : Session) (msg : MsgState) (result : DisassembleResult)
    (sent : List (List UInt8)) : Session :=
  { s with
    msg := msg
    unanswered := if result = .none ∧ sent ≠ [] then none else s.unanswered }

/-- One call; a call that leaves a buffer or never returns has no next state. -/
inductive Step (s : Session) : Event → Session → Prop where
  | segment {env : AssembleEnv} {buf : List UInt8} {msg : MsgState} {out : AssembleOutput}
      (assembled : esMsgAssemble env buf s.msg = .ok (msg, out)) :
      Step s (.segment env buf) (s.received buf msg out)
  | response {env : DisassembleEnv} {buf : List UInt8} {dataContinued : UInt8} {cmd : Int}
      {msg : MsgState} {result : DisassembleResult} {sent : List (List UInt8)}
      (sends : esMsgDisassemble env buf dataContinued cmd s.msg = some (msg, result, sent)) :
      Step s (.response env buf dataContinued cmd) (s.responded msg result sent)
  | resetTransferdata :
      Step s .resetTransferdata { s with msg := s.msg.esResetTransferdata, dispatched := [] }

/-- Dispatched transaction ids increase, and no message repeating an unanswered
command was dispatched. -/
def Protected (s : Session) : Prop :=
  s.dispatched.Pairwise (· > ·) ∧ s.replayed = false

/-- The conditions on a segment under which the protection works: memory is
available; a message that repeats an unanswered command has a command number other
than zero and is complete with its first segment; transaction id zero is not used
again once something was dispatched. -/
structure SegmentRegular (s : Session) (env : AssembleEnv) (buf : List UInt8) : Prop where
  array : env.arrayMalloc = true
  buffer : env.bufferMalloc ≠ none
  short : Accepts buf s.msg → s.msg.data = none →
    s.unanswered = some (TransforData.ofBytes buf).cmdNum →
    (TransforData.ofBytes buf).cmdNum ≠ 0 ∧ (TransforData.ofBytes buf).continued = 0 ∧
      (TransforData.ofBytes buf).size ≤ (env.bspMtu - headerLenInMtu).toNat ∧
      (TransforData.ofBytes buf).size = (TransforData.ofBytes buf).segmentLen
  identified : Accepts buf s.msg → s.dispatched ≠ [] →
    (TransforData.ofBytes buf).transactionId ≠ 0

/-- A response must in addition not fail on the way. -/
def Regular (s : Session) : Event → Prop
  | .segment env buf => s.SegmentRegular env buf
  | .response env _ _ _ => ∀ n, env.sendIndication n = true
  | .resetTransferdata => True

/-- What holds between the calls of a regular run. -/
structure Invariant (s : Session) : Prop where
  coherent : Coherent s.msg
  recorded : ∀ cmd, s.unanswered = some cmd → s.msg.cmdNum = cmd
  increasing : s.dispatched.Pairwise (· > ·)
  latest : ∀ id ∈ s.dispatched, id ≤ s.msg.transactionId
  newer : s.msg.state = .assemble → ∀ id ∈ s.dispatched, id < s.msg.transactionId
  unique : s.msg.state = .assemble ∨ s.msg.data ≠ none → s.repeats = false
  safe : s.replayed = false

theorem Invariant.initial : Session.initial.Invariant where
  coherent := Coherent.initial
  recorded := by simp [Session.initial]
  increasing := List.Pairwise.nil
  latest := by simp [Session.initial]
  newer := by simp [Session.initial]
  unique := fun _ => rfl
  safe := rfl

/-- A segment that is not accepted leaves the records about messages alone. -/
theorem unaccepted {s : Session} {buf : List UInt8} (refused : ¬ Accepts buf s.msg) :
    s.unansweredAfter buf = s.unanswered ∧ s.repeatsAfter buf = s.repeats :=
  ⟨if_neg refused, if_neg fun accepted => refused accepted.1⟩

/-- A segment that neither opens a message nor continues one. -/
private theorem Invariant.dropped {s : Session} {buf : List UInt8} {out : AssembleOutput}
    (inv : s.Invariant) (silent : out.dispatch = none) (refused : ¬ Accepts buf s.msg) :
    (s.received buf s.msg.reset out).Invariant := by
  obtain ⟨unanswered, repeats⟩ := unaccepted refused
  have same : (s.received buf s.msg.reset out).dispatched = s.dispatched := by
    simp [received, silent]
  constructor
  · exact .reset s.msg
  · intro cmd pending
    exact inv.recorded cmd (unanswered.symm.trans pending)
  · exact same ▸ inv.increasing
  · exact same ▸ inv.latest
  · intro assembling
    exact absurd assembling (by simp [received])
  · intro progress
    simp [received] at progress
  · simpa [received, silent] using inv.safe

/-- A segment that was copied: its transaction id is newer than every dispatched
one, and a message that repeats a command neither stays in progress nor is
dispatched. -/
private theorem Invariant.copied {s : Session} {buf : List UInt8} {msg : MsgState}
    {out : AssembleOutput} (inv : s.Invariant) (coherent : Coherent msg)
    (identifier : msg.transactionId = (TransforData.ofBytes buf).transactionId)
    (newer : ∀ id ∈ s.dispatched, id < (TransforData.ofBytes buf).transactionId)
    (recorded : ∀ cmd, s.unansweredAfter buf = some cmd → msg.cmdNum = cmd)
    (unique : msg.state = .assemble ∨ msg.data ≠ none → s.repeatsAfter buf = false)
    (single : out.dispatch.isSome = true → s.repeatsAfter buf = false)
    (closed : out.dispatch.isSome = true → msg.state ≠ .assemble) :
    (s.received buf msg out).Invariant := by
  cases dispatch : out.dispatch.isSome with
  | false =>
      have same : (s.received buf msg out).dispatched = s.dispatched := by
        simp [received, dispatch]
      refine ⟨coherent, recorded, same ▸ inv.increasing, ?_, ?_, unique, ?_⟩
      · intro id earlier
        rw [same] at earlier
        exact identifier ▸ UInt8.le_of_lt (newer id earlier)
      · intro _ id earlier
        rw [same] at earlier
        exact identifier ▸ newer id earlier
      · simpa [received, dispatch] using inv.safe
  | true =>
      have longer : (s.received buf msg out).dispatched =
          (TransforData.ofBytes buf).transactionId :: s.dispatched := by
        simp [received, dispatch]
      refine ⟨coherent, recorded, ?_, ?_, ?_, unique, ?_⟩
      · rw [longer]
        exact .cons newer inv.increasing
      · intro id earlier
        rw [longer, List.mem_cons] at earlier
        show id ≤ msg.transactionId
        rcases earlier with rfl | earlier
        · exact identifier ▸ UInt8.le_refl _
        · exact identifier ▸ UInt8.le_of_lt (newer id earlier)
      · intro assembling
        exact absurd assembling (closed dispatch)
      · simp [received, dispatch, single dispatch, inv.safe]

/-- A later segment of the message in progress. -/
private theorem Invariant.later {s : Session} {buf : List UInt8} {chunk chunk' : SecurityBuffer}
    (inv : s.Invariant)
    (coherent : Coherent (finishSegment false (advance (.ofBytes buf) chunk chunk' s.msg)).1)
    (assembling : s.msg.state = .assemble) (continues : Continues (.ofBytes buf) s.msg) :
    (s.received buf (finishSegment false (advance (.ofBytes buf) chunk chunk' s.msg)).1
      (finishSegment false (advance (.ofBytes buf) chunk chunk' s.msg)).2).Invariant := by
  have refused : ¬ Accepts buf s.msg := by
    rintro ⟨-, idle, -⟩
    exact absurd (assembling.symm.trans idle) (by decide)
  obtain ⟨unanswered, repeats⟩ := unaccepted refused
  have unique : s.repeatsAfter buf = false := repeats.trans (inv.unique (.inl assembling))
  obtain ⟨-, -, same⟩ := continues
  apply inv.copied coherent
  · rw [finishSegment_transactionId]
    exact same.symm
  · intro id earlier
    rw [same]
    exact inv.newer assembling id earlier
  · intro cmd pending
    rw [finishSegment_cmdNum]
    exact inv.recorded cmd (unanswered.symm.trans pending)
  · intro _
    exact unique
  · intro _
    exact unique
  · intro dispatch still
    obtain ⟨completed, last, -⟩ := (finishSegment_dispatch_iff _ _).mp dispatch
    exact finishSegment_progress _ _ (.inl still) ⟨completed, last⟩

/-- An accepted transaction id is greater than every dispatched one. -/
private theorem Invariant.newer_of_accepts {s : Session} {buf : List UInt8} (inv : s.Invariant)
    (accepted : ¬ Refused (.ofBytes buf) s.msg)
    (identified : s.dispatched ≠ [] → (TransforData.ofBytes buf).transactionId ≠ 0) :
    ∀ id ∈ s.dispatched, id < (TransforData.ofBytes buf).transactionId := by
  intro id earlier
  have latest := inv.latest id earlier
  have nonzero := identified (List.ne_nil_of_mem earlier)
  simp only [Refused, not_or, not_and, not_not] at accepted
  obtain ⟨-, greater⟩ := accepted
  simp only [UInt8.le_iff_toNat_le, UInt8.lt_iff_toNat_lt, ← UInt8.toNat_inj, ne_eq,
    UInt8.toNat_zero] at *
  omega

/-- The first segment of a message or chunk. -/
private theorem Invariant.first {s : Session} {env : AssembleEnv} {buf : List UInt8}
    {s₁ : MsgState} {chunk : SecurityBuffer} {dup : Bool} (inv : s.Invariant)
    (coherent : Coherent
      (finishSegment dup (afterFirst (.ofBytes buf) chunk (openChunk (.ofBytes buf) s₁))).1)
    (regular : s.SegmentRegular env buf) (accepts : Accepts buf s.msg)
    (array : allocData env (.ofBytes buf) s.msg = some s₁)
    (duplicated : dup =
      decide (s.msg.cmdNum ≠ 0 ∧ s.msg.cmdNum = (TransforData.ofBytes buf).cmdNum)) :
    Invariant (s.received buf
      (finishSegment dup (afterFirst (.ofBytes buf) chunk (openChunk (.ofBytes buf) s₁))).1
      (finishSegment dup (afterFirst (.ofBytes buf) chunk (openChunk (.ofBytes buf) s₁))).2) := by
  -- A repeated command is complete at once, and then the local flag still stands.
  have once : s.repeatsAfter buf = true →
      dup = true ∧ (TransforData.ofBytes buf).continued = 0 ∧
      (afterFirst (.ofBytes buf) chunk (openChunk (.ofBytes buf) s₁)).msgIsCompleted = true := by
    intro repeats
    rw [repeatsAfter] at repeats
    split at repeats
    case isTrue opens =>
      have unanswered := of_decide_eq_true repeats
      obtain ⟨nonzero, last, small, whole⟩ := regular.short accepts opens.2 unanswered
      have same := inv.recorded _ unanswered
      refine ⟨?_, last, ?_⟩
      · rw [duplicated, same]
        simp [nonzero]
      · have pending : s₁.msgIsCompleted = false ∧ s₁.mtu = env.bspMtu - headerLenInMtu := by
          simp only [allocData, opens.2, regular.array, if_true, Option.some.injEq] at array
          rw [← array]
          exact ⟨inv.coherent.completed, rfl⟩
        refine (afterFirst_completed_iff _ _ (openChunk _ s₁) pending.1).mpr ⟨?_, whole⟩
        show _ ≤ s₁.mtu.toNat
        rwa [pending.2]
    case isFalse other =>
      have present : s.msg.data ≠ none := fun absent => other ⟨accepts, absent⟩
      exact absurd (repeats.symm.trans (inv.unique (.inr present))) (by decide)
  have continued : (afterFirst (.ofBytes buf) chunk (openChunk (.ofBytes buf) s₁)).dataContinued =
      (TransforData.ofBytes buf).continued := afterFirst_dataContinued _ _ _
  apply inv.copied coherent
  · rw [finishSegment_transactionId, afterFirst_transactionId]
    rfl
  · exact inv.newer_of_accepts accepts.2.2 (regular.identified accepts)
  · intro cmd pending
    rw [finishSegment_cmdNum, afterFirst_cmdNum]
    show (TransforData.ofBytes buf).cmdNum = cmd
    rw [unansweredAfter, if_pos accepts] at pending
    split at pending
    · exact Option.some.inj pending
    · obtain ⟨-, -, same⟩ := Option.map_eq_some_iff.mp pending
      exact same
  · intro progress
    rw [← Bool.not_eq_true]
    intro repeats
    obtain ⟨-, last, completed⟩ := once repeats
    exact finishSegment_progress _ _ progress ⟨completed, continued.trans last⟩
  · intro dispatch
    rw [← Bool.not_eq_true]
    intro repeats
    obtain ⟨-, -, fresh⟩ := (finishSegment_dispatch_iff _ _).mp dispatch
    exact absurd ((once repeats).1.symm.trans fresh) (by decide)
  · intro dispatch still
    obtain ⟨completed, last, -⟩ := (finishSegment_dispatch_iff _ _).mp dispatch
    exact finishSegment_progress _ _ (.inl still) ⟨completed, last⟩

theorem Invariant.segment {s : Session} {env : AssembleEnv} {buf : List UInt8} {msg : MsgState}
    {out : AssembleOutput} (inv : s.Invariant) (regular : s.SegmentRegular env buf)
    (assembled : esMsgAssemble env buf s.msg = .ok (msg, out)) :
    (s.received buf msg out).Invariant := by
  have coherent := inv.coherent.esMsgAssemble assembled
  cases esMsgAssemble_cases assembled with
  | ignored empty =>
      have refused : ¬ Accepts buf s.msg := fun accepts => accepts.1 empty
      obtain ⟨unanswered, repeats⟩ := unaccepted refused
      refine ⟨inv.coherent, ?_, inv.increasing, inv.latest, inv.newer, ?_, ?_⟩
      · intro cmd pending
        exact inv.recorded cmd (unanswered.symm.trans pending)
      · intro progress
        exact repeats.trans (inv.unique progress)
      · simpa [received] using inv.safe
  | dropped out silent unallocated =>
      refine inv.dropped silent ?_
      rintro ⟨-, idle, accepted⟩
      have missing := unallocated idle accepted
      rw [allocData, regular.array] at missing
      split at missing <;> exact absurd missing (by simp)
  | later assembling continues => exact inv.later coherent assembling continues
  | exhausted idle accepted array memory =>
      exact absurd (SecurityBuffer.alloc_eq_none_iff.mp memory).1 regular.buffer
  | first received idle accepted array inside duplicated =>
      exact inv.first coherent regular ⟨received, idle, accepted⟩ array duplicated

/-- The loop reports success when every indication is taken. -/
private theorem disassembleLoop_sent {env : DisassembleEnv}
    (sends : ∀ n, env.sendIndication n = true) {mtu : UInt32} {buf : List UInt8}
    {dataContinued cmdNum transactionId : UInt8} {fuel round sentLen : Nat} {opCode : UInt8}
    {sent : List (List UInt8) × Bool}
    (result : disassembleLoop env mtu buf dataContinued cmdNum transactionId fuel round sentLen
      opCode = some sent) :
    sent.2 = true ∧ (sentLen < buf.length → sent.1 ≠ []) := by
  induction fuel generalizing round sentLen opCode sent with
  | zero =>
      rw [disassembleLoop] at result
      split at result
      case isTrue => exact absurd result (by simp)
      case isFalse finished =>
        obtain rfl := Option.some.inj result
        exact ⟨rfl, fun more => absurd more finished⟩
  | succ fuel ih =>
      rw [disassembleLoop] at result
      split at result
      case isTrue =>
        simp only [sends, if_true] at result
        obtain ⟨rest, continues, rfl⟩ := Option.map_eq_some_iff.mp result
        exact ⟨(ih continues).1, fun _ => List.cons_ne_nil _ _⟩
      case isFalse finished =>
        obtain rfl := Option.some.inj result
        exact ⟨rfl, fun more => absurd more finished⟩

theorem Invariant.response {s : Session} {env : DisassembleEnv} {buf : List UInt8}
    {dataContinued : UInt8} {cmd : Int} {msg : MsgState} {result : DisassembleResult}
    {sent : List (List UInt8)} (inv : s.Invariant) (taken : ∀ n, env.sendIndication n = true)
    (sends : esMsgDisassemble env buf dataContinued cmd s.msg = some (msg, result, sent)) :
    (s.responded msg result sent).Invariant := by
  rw [esMsgDisassemble] at sends
  rcases disassembleBegin_cases env buf.length cmd s.msg with
    ⟨mtu, early, begun⟩ | ⟨filled, idle, mtu, begun⟩
  · simp only [begun, Option.some.injEq, Prod.mk.injEq] at sends
    obtain ⟨rfl, rfl, rfl⟩ := sends
    have same : (s.responded { s.msg with mtu := mtu } early []).unanswered = s.unanswered := by
      simp [responded]
    refine ⟨⟨inv.coherent.completed, inv.coherent.current⟩, ?_, inv.increasing, inv.latest,
      inv.newer, inv.unique, inv.safe⟩
    rw [same]
    exact inv.recorded
  · simp only [begun] at sends
    obtain ⟨all, loop, same⟩ := Option.map_eq_some_iff.mp sends
    obtain ⟨success, nonempty⟩ := disassembleLoop_sent taken loop
    simp only [success, if_true, Prod.mk.injEq] at same
    obtain ⟨rfl, rfl, rfl⟩ := same
    have answered : ∀ msg, (s.responded msg .none all.1).unanswered = none := by
      intro msg
      simp [responded, nonempty (Nat.pos_of_ne_zero filled)]
    refine ⟨⟨inv.coherent.completed, ?_⟩, ?_, inv.increasing, inv.latest, ?_, ?_, inv.safe⟩
    · intro assembling
      exact absurd assembling (by simp [responded, disassembleEnd])
    · intro cmd pending
      rw [answered] at pending
      exact absurd pending (by simp)
    · intro assembling
      exact absurd assembling (by simp [responded, disassembleEnd])
    · rintro (assembling | present)
      · exact absurd assembling (by simp [responded, disassembleEnd])
      · exact inv.unique (.inr present)

theorem Invariant.resetTransferdata {s : Session} (inv : s.Invariant) :
    { s with msg := s.msg.esResetTransferdata, dispatched := [] : Session }.Invariant where
  coherent := .reset _
  recorded := inv.recorded
  increasing := .nil
  latest := by simp
  newer := by simp
  unique := by simp [MsgState.esResetTransferdata]
  safe := inv.safe

theorem Invariant.step {s t : Session} {e : Event} (inv : s.Invariant) (regular : s.Regular e)
    (transition : s.Step e t) : t.Invariant := by
  cases transition with
  | segment assembled => exact inv.segment regular assembled
  | response sends => exact inv.response regular sends
  | resetTransferdata => exact inv.resetTransferdata

end Session

/-- In every run of regular segments and responses, between two resets the
dispatched transaction ids increase, and no message that repeats an unanswered
command is dispatched. -/
theorem protected_of_regular (events : List Session.Event) (t : Session)
    (run : Steps Session.Step .initial events t)
    (regular : Along Session.Step Session.Regular .initial events) : t.Protected := by
  have inv : t.Invariant := run.invariant_along
    (fun _ _ _ inv regular transition => inv.step regular transition) regular
    Session.Invariant.initial
  exact ⟨inv.increasing, inv.safe⟩

/-- A port with memory and an MTU of 23 bytes. -/
def samplePort : AssembleEnv := ⟨23, true, some fun _ => 0⟩

/-- Command 1 in one segment, and again with the next transaction id. -/
def repeatedOnce : List Session.Event :=
  [.segment samplePort [0, 1, 1, 1, 0, 0, 0, 1, 0, 97],
    .segment samplePort [0, 1, 2, 1, 0, 0, 0, 1, 0, 97]]

/-- The repetition is dropped. -/
theorem repeatedOnce_protected :
    ∃ t, Steps Session.Step .initial repeatedOnce t ∧ t.dispatched = [1] ∧ t.Protected := by
  refine ⟨_, .cons (.segment rfl) (.cons (.segment rfl) (.nil _)), rfl, ?_⟩
  apply protected_of_regular repeatedOnce _ (.cons (.segment rfl) (.cons (.segment rfl) (.nil _)))
  refine ⟨⟨rfl, by simp [samplePort], ?_, ?_⟩, ?_⟩
  · intro _ _ _
    decide
  · intro _ _
    decide
  · intro t _
    refine ⟨⟨rfl, by simp [samplePort], ?_, ?_⟩, fun _ _ => trivial⟩
    · intro _ _ _
      decide
    · intro _ _
      decide

/-- Command 1 in one segment, and again cut into two. -/
def repeatedInTwo : List Session.Event :=
  [.segment samplePort [0, 1, 1, 1, 0, 0, 0, 1, 0, 97],
    .segment samplePort [0, 1, 2, 2, 0, 0, 0, 1, 0, 97],
    .segment samplePort [1, 1, 2, 1, 0, 0, 0, 1, 0, 98]]

/-- The repetition is dispatched, although no response was sent. -/
theorem repeatedInTwo_replayed :
    ∃ t, Steps Session.Step .initial repeatedInTwo t ∧ t.dispatched = [2, 1] ∧
      t.unanswered = some 1 ∧ ¬ t.Protected := by
  refine ⟨_, .cons (.segment rfl) (.cons (.segment rfl) (.cons (.segment rfl) (.nil _))),
    rfl, rfl, ?_⟩
  rintro ⟨-, safe⟩
  exact absurd safe (by decide)

end StDevice.Easysetup.Ble
