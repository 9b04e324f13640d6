import Mathlib.Algebra.Ring.Nat
import StDevice.Foundation.Buffer

/-!
# Segmented messages over BLE

`es_msg_assemble` collects the segments the peer writes and `es_msg_disassemble`
cuts a response into indications. Both work on one static `msg_state`, whose
counters have eight bits and are filled from the received bytes.

Every memory access the code makes on peer-controlled indices is a checked
operation here, and a failed check is a `Fault`. The results of the allocator and
of the BLE port are inputs of each call, an allocated buffer having arbitrary
contents.
-/

namespace StDevice.Easysetup.Ble

/-- `HEADER_LEN_IN_MTU`. -/
def headerLenInMtu : UInt32 := 12

/-- Offset of `segment_data` in the packed `struct transfor_data`. -/
def segmentDataOffset : Nat := 9

/-- The accesses that can leave their buffer. -/
inductive Fault where
  /-- a read past the received bytes -/
  | segmentRead
  /-- an index past the array of chunks -/
  | dataIndex
  /-- a copy past the end of a reassembly buffer -/
  | bufferWrite
  /-- a write past the end of `rx_buffer` -/
  | rxWrite
  deriving DecidableEq, Repr

/-- `iot_security_buffer_t`. A null pointer goes with length zero, and a buffer
has as many cells as its length says. -/
@[ext]
structure SecurityBuffer where
  p : Option (List UInt8)
  len : Nat
  sized : (p.getD []).length = len
  deriving DecidableEq

namespace SecurityBuffer

/-- An entry of the array after `memset`. -/
def zero : SecurityBuffer := ⟨none, 0, rfl⟩

/-- `malloc(size)` together with the check after it: a null pointer is an error
unless the size is zero. `fresh` is what the new memory happens to contain. -/
def alloc (malloc : Option (Nat → UInt8)) (size : Nat) : Option SecurityBuffer :=
  match malloc, size with
  | some fresh, size => some ⟨some ((List.range size).map fresh), size, by simp⟩
  | none, 0 => some ⟨none, 0, rfl⟩
  | none, _ + 1 => none

/-- `memcpy(p + offset, src, src_len)`. -/
def store (b : SecurityBuffer) (offset : Nat) (src : List UInt8) : Option SecurityBuffer :=
  match writes : Buffer.write (b.p.getD []) offset src with
  | none => none
  | some bytes =>
      some ⟨b.p.map fun _ => bytes, b.len, by
        have size := Buffer.length_of_write writes
        rw [b.sized] at size
        cases null : b.p with
        | none =>
            have := b.sized
            simp_all
        | some _ => simpa using size⟩

theorem store_some_iff {b : SecurityBuffer} {offset : Nat} {src : List UInt8} :
    (∃ b', b.store offset src = some b') ↔ offset + src.length ≤ b.len := by
  rw [← b.sized, ← Buffer.exists_write_iff]
  unfold store
  split
  case h_1 writes => simp [writes]
  case h_2 bytes writes => simp [writes]

theorem store_len {b b' : SecurityBuffer} {offset : Nat} {src : List UInt8}
    (stores : b.store offset src = some b') : b'.len = b.len := by
  unfold store at stores
  split at stores
  · exact absurd stores (by simp)
  · obtain rfl := Option.some.inj stores
    rfl

/-- A copy into an allocated buffer changes its cells and nothing else. -/
theorem store_p {b b' : SecurityBuffer} {offset : Nat} {src cells : List UInt8}
    (stores : b.store offset src = some b') (allocated : b.p = some cells) :
    ∃ bytes, Buffer.write cells offset src = some bytes ∧ b'.p = some bytes := by
  unfold store at stores
  split at stores
  · exact absurd stores (by simp)
  · rename_i bytes writes
    obtain rfl := Option.some.inj stores
    refine ⟨bytes, ?_, ?_⟩
    · rw [allocated] at writes
      exact writes
    · simp [allocated]

theorem alloc_eq_none_iff {malloc : Option (Nat → UInt8)} {size : Nat} :
    alloc malloc size = none ↔ malloc = none ∧ size ≠ 0 := by
  cases malloc with
  | none => cases size <;> simp [alloc]
  | some fresh => simp [alloc]

theorem alloc_null_iff {malloc : Option (Nat → UInt8)} {size : Nat} {b : SecurityBuffer}
    (allocated : alloc malloc size = some b) : b.p = none ↔ malloc = none := by
  unfold alloc at allocated
  split at allocated
  · obtain rfl := Option.some.inj allocated
    simp
  · obtain rfl := Option.some.inj allocated
    simp
  · exact absurd allocated (by simp)

theorem alloc_len {malloc : Option (Nat → UInt8)} {size : Nat} {b : SecurityBuffer}
    (allocated : alloc malloc size = some b) : b.len = size := by
  unfold alloc at allocated
  split at allocated
  · obtain rfl := Option.some.inj allocated
    rfl
  · obtain rfl := Option.some.inj allocated
    rfl
  · exact absurd allocated (by simp)

end SecurityBuffer

/-- `enum msg_state_e`. -/
inductive MsgStateE where
  | idle | assemble | disassemble
  deriving DecidableEq, Repr

/-- `struct msg_state_t`. The array of chunks has `data_count` entries. -/
structure MsgState where
  state : MsgStateE
  msgIsCompleted : Bool
  mtu : UInt32
  opCode : UInt8
  cmdNum : UInt8
  transactionId : UInt8
  totalSize : UInt32
  dataContinued : UInt8
  dataCount : UInt8
  data : Option (List SecurityBuffer)
  dataIdx : UInt8
  counted : ∀ chunks, data = some chunks → chunks.length = dataCount.toNat

namespace MsgState

/-- The static initializer. -/
def initial : MsgState where
  state := .idle
  msgIsCompleted := false
  mtu := 0
  opCode := 0
  cmdNum := 0
  transactionId := 0
  totalSize := 0
  dataContinued := 0
  dataCount := 0
  data := none
  dataIdx := 0
  counted := by simp

/-- `_es_msg_state_reset`. The command number and the transaction id survive. -/
def reset (s : MsgState) : MsgState where
  state := .idle
  msgIsCompleted := false
  mtu := 0
  opCode := 0
  cmdNum := s.cmdNum
  transactionId := s.transactionId
  totalSize := 0
  dataContinued := 0
  dataCount := 0
  data := none
  dataIdx := 0
  counted := by simp

@[simp] theorem reset_state (s : MsgState) : s.reset.state = .idle := rfl
@[simp] theorem reset_data (s : MsgState) : s.reset.data = none := rfl
@[simp] theorem reset_cmdNum (s : MsgState) : s.reset.cmdNum = s.cmdNum := rfl
@[simp] theorem reset_transactionId (s : MsgState) :
    s.reset.transactionId = s.transactionId := rfl
@[simp] theorem reset_msgIsCompleted (s : MsgState) : s.reset.msgIsCompleted = false := rfl

/-- `es_reset_transferdata`. -/
def esResetTransferdata (s : MsgState) : MsgState :=
  { s with transactionId := 0 }.reset

/-- The array of chunks; a null array has no entries. -/
def chunks (s : MsgState) : List SecurityBuffer := s.data.getD []

/-- Replace the current entry of the array. -/
def setChunk (s : MsgState) (b : SecurityBuffer) : MsgState :=
  { s with
    data := s.data.map fun chunks => chunks.set s.dataIdx.toNat b
    counted := by
      intro chunks replaced
      obtain ⟨before, present, rfl⟩ := Option.map_eq_some_iff.mp replaced
      rw [List.length_set]
      exact s.counted before present }

end MsgState

/-- The fields of `struct transfor_data` read from the received bytes. The three
size bytes are the total size in a first segment and the offset in a later one;
bytes past the end count as zero here and every use is guarded. -/
structure TransforData where
  opCode : UInt8
  cmdNum : UInt8
  transactionId : UInt8
  size : Nat
  continued : UInt8
  segmentLen : Nat
  deriving DecidableEq, Repr

def TransforData.ofBytes (buf : List UInt8) : TransforData where
  opCode := buf.getD 0 0
  cmdNum := buf.getD 1 0
  transactionId := buf.getD 2 0
  size := (buf.getD 3 0).toNat + (buf.getD 4 0).toNat * 2 ^ 8 + (buf.getD 5 0).toNat * 2 ^ 16
  continued := buf.getD 6 0
  segmentLen := (buf.getD 7 0).toNat + (buf.getD 8 0).toNat * 2 ^ 8

/-- What the allocator and the BLE port answer during one call of
`es_msg_assemble`. -/
structure AssembleEnv where
  bspMtu : UInt32
  arrayMalloc : Bool
  bufferMalloc : Option (Nat → UInt8)

/-- The arguments of a call of `es_msg_dispatch`. -/
structure Dispatch where
  buf : List SecurityBuffer
  bufCount : UInt8
  cmdNum : UInt8
  deriving DecidableEq

/-- What a call of `es_msg_assemble` does besides changing the state: its return
value, whether it logs an error, and the dispatch it makes. -/
structure AssembleOutput where
  ret : Bool
  error : Bool
  dispatch : Option Dispatch
  deriving DecidableEq

namespace AssembleOutput

def rejected : AssembleOutput := ⟨false, true, none⟩
def aborted : AssembleOutput := ⟨true, true, none⟩
def quiet : AssembleOutput := ⟨true, false, none⟩

end AssembleOutput

/-- The end of `es_msg_assemble`: a completed chunk waits for the next one, a
completed message is dispatched and forgotten. -/
def finishSegment (duplicatedCmd : Bool) (s : MsgState) : MsgState × AssembleOutput :=
  if s.msgIsCompleted then
    if s.dataContinued ≠ 0 then
      ({ s with state := .idle, msgIsCompleted := false }, .quiet)
    else if duplicatedCmd then
      (s.reset, .quiet)
    else
      (s.reset, ⟨true, false, some ⟨s.chunks, s.dataCount, s.cmdNum⟩⟩)
  else (s, .quiet)

theorem finishSegment_pending {dup : Bool} {s : MsgState} (pending : s.msgIsCompleted = false) :
    finishSegment dup s = (s, .quiet) := by
  rw [finishSegment, if_neg (by simp [pending])]

theorem finishSegment_last {s : MsgState} (completed : s.msgIsCompleted = true)
    (last : s.dataContinued = 0) :
    finishSegment false s =
      (s.reset, ⟨true, false, some ⟨s.chunks, s.dataCount, s.cmdNum⟩⟩) := by
  rw [finishSegment, if_pos completed, if_neg (by simp [last]), if_neg (by decide)]

section finishSegment

variable (dup : Bool) (s : MsgState)

@[simp] theorem finishSegment_cmdNum : (finishSegment dup s).1.cmdNum = s.cmdNum := by
  unfold finishSegment
  repeat' split
  all_goals rfl

@[simp] theorem finishSegment_transactionId :
    (finishSegment dup s).1.transactionId = s.transactionId := by
  unfold finishSegment
  repeat' split
  all_goals rfl

theorem finishSegment_dispatch_iff :
    (finishSegment dup s).2.dispatch.isSome ↔
      s.msgIsCompleted = true ∧ s.dataContinued = 0 ∧ dup = false := by
  unfold finishSegment
  split
  case isFalse pending => simp [pending, AssembleOutput.quiet]
  case isTrue completed =>
    split
    case isTrue more => simp [more, AssembleOutput.quiet]
    case isFalse last =>
      have ended : s.dataContinued = 0 := by simpa using last
      cases dup <;> simp [completed, ended, AssembleOutput.quiet]

/-- Only a message that is not complete yet stays in progress. -/
theorem finishSegment_progress
    (progress : (finishSegment dup s).1.state = .assemble ∨ (finishSegment dup s).1.data ≠ none) :
    ¬ (s.msgIsCompleted = true ∧ s.dataContinued = 0) := by
  rintro ⟨completed, last⟩
  have reset : (finishSegment dup s).1 = s.reset := by
    rw [finishSegment, if_pos completed, if_neg (by simp [last])]
    split <;> rfl
  rw [reset] at progress
  simp at progress

end finishSegment

/-- The segment follows the one before it. The sum is computed as an `int`, so it
does not wrap. -/
def Continues (data : TransforData) (s : MsgState) : Prop :=
  data.opCode.toNat = s.opCode.toNat + 1 ∧ data.cmdNum = s.cmdNum ∧
    data.transactionId = s.transactionId

instance (data : TransforData) (s : MsgState) : Decidable (Continues data s) :=
  inferInstanceAs (Decidable (_ ∧ _ ∧ _))

/-- The state after a later segment turned the current `chunk` into `chunk'`. -/
def advance (data : TransforData) (chunk chunk' : SecurityBuffer) (s : MsgState) : MsgState :=
  { s.setChunk chunk' with
    opCode := data.opCode
    msgIsCompleted := s.msgIsCompleted || decide (chunk.len ≤ data.size + data.segmentLen) }

/-- The copy of a later segment into the buffer of the current chunk. -/
def storeNext (buf : List UInt8) (data : TransforData) (s : MsgState) : Except Fault MsgState :=
  match s.chunks[s.dataIdx.toNat]? with
  | none => .error .dataIndex
  | some chunk =>
      match Buffer.read buf segmentDataOffset data.segmentLen with
      | none => .error .segmentRead
      | some segment =>
          match chunk.store data.size segment with
          | none => .error .bufferWrite
          | some chunk' => .ok (advance data chunk chunk' s)

theorem storeNext_ok_iff {buf : List UInt8} {data : TransforData} {s s' : MsgState} :
    storeNext buf data s = .ok s' ↔ ∃ chunk segment chunk',
      s.chunks[s.dataIdx.toNat]? = some chunk ∧
      Buffer.read buf segmentDataOffset data.segmentLen = some segment ∧
      chunk.store data.size segment = some chunk' ∧ s' = advance data chunk chunk' s := by
  unfold storeNext
  constructor
  · intro stored
    split at stored
    · exact absurd stored (by simp)
    · rename_i chunk current
      split at stored
      · exact absurd stored (by simp)
      · rename_i segment reads
        split at stored
        · exact absurd stored (by simp)
        · rename_i chunk' stores
          exact ⟨chunk, segment, chunk', current, reads, stores, (Except.ok.inj stored).symm⟩
  · rintro ⟨chunk, segment, chunk', current, reads, stores, rfl⟩
    simp only [current, reads, stores]

/-- A first segment is turned away. -/
def Refused (data : TransforData) (s : MsgState) : Prop :=
  data.opCode ≠ 0 ∨ data.transactionId ≤ s.transactionId ∧ s.transactionId ≠ 0

instance (data : TransforData) (s : MsgState) : Decidable (Refused data s) :=
  inferInstanceAs (Decidable (_ ∨ _ ∧ _))

/-- The array of chunks is allocated with the first chunk of a message. -/
def allocData (env : AssembleEnv) (data : TransforData) (s : MsgState) : Option MsgState :=
  match s.data with
  | some _ => some s
  | none =>
      if env.arrayMalloc then
        some { s with
          mtu := env.bspMtu - headerLenInMtu
          dataCount := data.continued + 1
          data := some (List.replicate (data.continued + 1).toNat .zero)
          counted := by
            intro chunks allocated
            obtain rfl := Option.some.inj allocated
            exact List.length_replicate }
      else none

/-- The header fields stored for a first segment. -/
def openChunk (data : TransforData) (s : MsgState) : MsgState :=
  { s with
    opCode := data.opCode
    cmdNum := data.cmdNum
    transactionId := data.transactionId
    dataContinued := data.continued
    dataIdx := s.dataCount - data.continued - 1 }

/-- The copy of a first segment into its new buffer. A null buffer is skipped, but
the segment length is read all the same. -/
def storeFirst (buf : List UInt8) (data : TransforData) (chunk : SecurityBuffer) :
    Except Fault SecurityBuffer :=
  match chunk.p with
  | none => if segmentDataOffset ≤ buf.length then .ok chunk else .error .segmentRead
  | some _ =>
      match Buffer.read buf segmentDataOffset data.segmentLen with
      | none => .error .segmentRead
      | some segment =>
          match chunk.store 0 segment with
          | none => .error .bufferWrite
          | some chunk' => .ok chunk'

theorem storeFirst_ok_iff {buf : List UInt8} {data : TransforData} {chunk chunk' : SecurityBuffer} :
    storeFirst buf data chunk = .ok chunk' ↔
      chunk.p = none ∧ segmentDataOffset ≤ buf.length ∧ chunk' = chunk ∨
      chunk.p ≠ none ∧ ∃ segment, Buffer.read buf segmentDataOffset data.segmentLen = some segment ∧
        chunk.store 0 segment = some chunk' := by
  unfold storeFirst
  cases null : chunk.p with
  | none =>
      simp only [true_and, ne_eq, not_true_eq_false, false_and, or_false]
      split
      case isTrue received => simp [received, eq_comm]
      case isFalse short => simp [short]
  | some cells =>
      simp only [reduceCtorEq, false_and, ne_eq, not_false_eq_true, true_and, false_or]
      cases Buffer.read buf segmentDataOffset data.segmentLen with
      | none => simp
      | some segment =>
          simp only [Option.some.injEq, exists_eq_left']
          cases chunk.store 0 segment with
          | none => simp
          | some stored => simp

/-- The state after the first segment was copied into `chunk`: the chunk is
complete, or more segments are expected. -/
def afterFirst (data : TransforData) (chunk : SecurityBuffer) (s : MsgState) : MsgState :=
  let s₁ := { s.setChunk chunk with totalSize := s.totalSize + UInt32.ofNat data.size }
  if data.size ≤ s.mtu.toNat ∧ data.size = data.segmentLen then { s₁ with msgIsCompleted := true }
  else { s₁ with state := .assemble }

section afterFirst

variable (data : TransforData) (chunk : SecurityBuffer) (s : MsgState)

@[simp] theorem afterFirst_data : (afterFirst data chunk s).data = (s.setChunk chunk).data := by
  rw [afterFirst]
  split <;> rfl

@[simp] theorem afterFirst_dataCount : (afterFirst data chunk s).dataCount = s.dataCount := by
  rw [afterFirst]
  split <;> rfl

@[simp] theorem afterFirst_dataIdx : (afterFirst data chunk s).dataIdx = s.dataIdx := by
  rw [afterFirst]
  split <;> rfl

@[simp] theorem afterFirst_dataContinued :
    (afterFirst data chunk s).dataContinued = s.dataContinued := by
  rw [afterFirst]
  split <;> rfl

@[simp] theorem afterFirst_opCode : (afterFirst data chunk s).opCode = s.opCode := by
  rw [afterFirst]
  split <;> rfl

@[simp] theorem afterFirst_cmdNum : (afterFirst data chunk s).cmdNum = s.cmdNum := by
  rw [afterFirst]
  split <;> rfl

@[simp] theorem afterFirst_transactionId :
    (afterFirst data chunk s).transactionId = s.transactionId := by
  rw [afterFirst]
  split <;> rfl

/-- The chunk is complete when the segment holds all of it. -/
theorem afterFirst_completed_iff (pending : s.msgIsCompleted = false) :
    (afterFirst data chunk s).msgIsCompleted = true ↔
      data.size ≤ s.mtu.toNat ∧ data.size = data.segmentLen := by
  rw [afterFirst]
  split
  case isTrue whole => exact iff_of_true rfl whole
  case isFalse partly =>
    refine iff_of_false ?_ partly
    show ¬ s.msgIsCompleted = true
    rw [pending]
    decide

end afterFirst

/-- The branch of `MSG_STATE_IDLE` after its check. -/
def assembleFirst (env : AssembleEnv) (buf : List UInt8) (data : TransforData) (s : MsgState) :
    Except Fault (MsgState × AssembleOutput) :=
  match allocData env data s with
  | none => .ok (s.reset, .rejected)
  | some s₁ =>
      let duplicatedCmd := decide (s.cmdNum ≠ 0 ∧ s.cmdNum = data.cmdNum)
      let s₂ := openChunk data s₁
      if s₂.dataIdx.toNat < s₂.chunks.length then
        match SecurityBuffer.alloc env.bufferMalloc data.size with
        | none => .ok (s₂.reset, .rejected)
        | some chunk =>
            match storeFirst buf data chunk with
            | .error fault => .error fault
            | .ok chunk' => .ok (finishSegment duplicatedCmd (afterFirst data chunk' s₂))
      else .error .dataIndex

theorem assembleFirst_ok_iff {env : AssembleEnv} {buf : List UInt8} {data : TransforData}
    {s : MsgState} {r : MsgState × AssembleOutput} :
    assembleFirst env buf data s = .ok r ↔
      allocData env data s = none ∧ r = (s.reset, .rejected) ∨
      ∃ s₁, allocData env data s = some s₁ ∧
        (openChunk data s₁).dataIdx.toNat < (openChunk data s₁).chunks.length ∧
        (SecurityBuffer.alloc env.bufferMalloc data.size = none ∧
            r = ((openChunk data s₁).reset, .rejected) ∨
          ∃ chunk chunk', SecurityBuffer.alloc env.bufferMalloc data.size = some chunk ∧
            storeFirst buf data chunk = .ok chunk' ∧
            r = finishSegment (decide (s.cmdNum ≠ 0 ∧ s.cmdNum = data.cmdNum))
              (afterFirst data chunk' (openChunk data s₁))) := by
  unfold assembleFirst
  cases allocData env data s with
  | none => simp [eq_comm]
  | some s₁ =>
      simp only [reduceCtorEq, false_and, false_or, Option.some.injEq, exists_eq_left']
      split
      case isFalse outside => simp [outside]
      case isTrue inside =>
        simp only [inside, true_and]
        cases SecurityBuffer.alloc env.bufferMalloc data.size with
        | none => simp [eq_comm]
        | some chunk =>
            simp only [reduceCtorEq, false_and, false_or, Option.some.injEq]
            cases stored : storeFirst buf data chunk with
            | error fault => simp [stored]
            | ok chunk' => simp [stored, eq_comm]

/-- The log line at the top reads the first seven bytes of every segment. -/
def headerBytes : Nat := 7

def esMsgAssemble (env : AssembleEnv) (buf : List UInt8) (s : MsgState) :
    Except Fault (MsgState × AssembleOutput) :=
  if buf.length = 0 then .ok (s, ⟨false, false, none⟩)
  else if buf.length < headerBytes then .error .segmentRead
  else
    let data := TransforData.ofBytes buf
    match s.state with
    | .assemble =>
        if Continues data s then
          match storeNext buf data s with
          | .error fault => .error fault
          | .ok s' => .ok (finishSegment false s')
        else .ok (s.reset, .aborted)
    | .disassemble => .ok (s.reset, .quiet)
    | .idle =>
        if Refused data s then .ok (s.reset, .rejected)
        else assembleFirst env buf data s

/-- Everything a call of `es_msg_assemble` that stays in bounds can do. -/
inductive Assembled (env : AssembleEnv) (buf : List UInt8) (s : MsgState) :
    MsgState → AssembleOutput → Prop where
  | ignored (empty : buf.length = 0) : Assembled env buf s s ⟨false, false, none⟩
  | dropped (out : AssembleOutput) (silent : out.dispatch = none)
      (unaccepted : s.state = .idle → ¬ Refused (.ofBytes buf) s →
        allocData env (.ofBytes buf) s = none) : Assembled env buf s s.reset out
  | later {chunk chunk' : SecurityBuffer} {segment : List UInt8}
      (assembling : s.state = .assemble) (continues : Continues (.ofBytes buf) s)
      (current : s.chunks[s.dataIdx.toNat]? = some chunk)
      (stores : chunk.store (TransforData.ofBytes buf).size segment = some chunk') :
      Assembled env buf s (finishSegment false (advance (.ofBytes buf) chunk chunk' s)).1
        (finishSegment false (advance (.ofBytes buf) chunk chunk' s)).2
  | exhausted {s₁ : MsgState} (idle : s.state = .idle) (accepted : ¬ Refused (.ofBytes buf) s)
      (array : allocData env (.ofBytes buf) s = some s₁)
      (memory : SecurityBuffer.alloc env.bufferMalloc (TransforData.ofBytes buf).size = none) :
      Assembled env buf s (openChunk (.ofBytes buf) s₁).reset .rejected
  | first {s₁ : MsgState} {chunk : SecurityBuffer} {dup : Bool} (received : buf.length ≠ 0)
      (idle : s.state = .idle) (accepted : ¬ Refused (.ofBytes buf) s)
      (array : allocData env (.ofBytes buf) s = some s₁)
      (inside : (openChunk (.ofBytes buf) s₁).dataIdx.toNat <
        (openChunk (.ofBytes buf) s₁).chunks.length)
      (duplicated : dup =
        decide (s.cmdNum ≠ 0 ∧ s.cmdNum = (TransforData.ofBytes buf).cmdNum)) :
      Assembled env buf s
        (finishSegment dup (afterFirst (.ofBytes buf) chunk (openChunk (.ofBytes buf) s₁))).1
        (finishSegment dup (afterFirst (.ofBytes buf) chunk (openChunk (.ofBytes buf) s₁))).2

theorem esMsgAssemble_cases {env : AssembleEnv} {buf : List UInt8} {s s' : MsgState}
    {out : AssembleOutput} (assembled : esMsgAssemble env buf s = .ok (s', out)) :
    Assembled env buf s s' out := by
  unfold esMsgAssemble at assembled
  split at assembled
  case isTrue empty =>
    obtain ⟨rfl, rfl⟩ := Prod.mk.inj (Except.ok.inj assembled)
    exact .ignored empty
  case isFalse received =>
    split at assembled
    case isTrue => exact absurd assembled (by simp)
    case isFalse =>
      cases state : s.state with
      | disassemble =>
          simp only [state, Except.ok.injEq, Prod.mk.injEq] at assembled
          obtain ⟨rfl, rfl⟩ := assembled
          exact .dropped _ rfl (by simp [state])
      | assemble =>
          simp only [state] at assembled
          split at assembled
          case isFalse =>
            obtain ⟨rfl, rfl⟩ := Prod.mk.inj (Except.ok.inj assembled)
            exact .dropped _ rfl (by simp [state])
          case isTrue continues =>
            split at assembled
            case h_1 => exact absurd assembled (by simp)
            case h_2 s₁ stored =>
              obtain ⟨chunk, segment, chunk', current, -, stores, rfl⟩ := storeNext_ok_iff.mp stored
              obtain ⟨rfl, rfl⟩ := Prod.ext_iff.mp (Except.ok.inj assembled)
              exact .later state continues current stores
      | idle =>
          simp only [state] at assembled
          split at assembled
          case isTrue refused =>
            obtain ⟨rfl, rfl⟩ := Prod.mk.inj (Except.ok.inj assembled)
            exact .dropped _ rfl (fun _ accepted => absurd refused accepted)
          case isFalse accepted =>
            rcases assembleFirst_ok_iff.mp assembled with
              ⟨unallocated, result⟩ |
                ⟨s₁, array, inside, ⟨memory, result⟩ | ⟨chunk, chunk', -, -, result⟩⟩
            · obtain ⟨rfl, rfl⟩ := Prod.mk.inj result
              exact .dropped _ rfl (fun _ _ => unallocated)
            · obtain ⟨rfl, rfl⟩ := Prod.mk.inj result
              exact .exhausted state accepted array memory
            · obtain ⟨rfl, rfl⟩ := Prod.ext_iff.mp result
              exact .first received state accepted array inside rfl

/-- `IOT_EASYSETUP_BLE_STEP_SETUPCOMPLETE_RESPONSE`. -/
def setupcompleteResponse : Int := 12

/-- The results of `es_msg_disassemble`: `IOT_ERROR_NONE`, `IOT_ERROR_BAD_REQ`,
`IOT_ERROR_MEM_ALLOC` and `IOT_ERROR_CONN_BLE_INDICATION_FAIL`. -/
inductive DisassembleResult where
  | none | badReq | memAlloc | indicationFail
  deriving DecidableEq, Repr

/-- What the port answers during one call of `es_msg_disassemble`: the `n`-th
indication is sent when `sendIndication n` holds. -/
structure DisassembleEnv where
  bspMtu : UInt32
  malloc : Bool
  sendIndication : Nat → Bool

/-- The part of `es_msg_disassemble` before its loop. An early return gives the
result it returns. -/
def disassembleBegin (env : DisassembleEnv) (len : Nat) (cmd : Int) (s : MsgState) :
    MsgState × Option DisassembleResult :=
  if len = 0 then (s, some .badReq)
  else if cmd - 1 ≠ setupcompleteResponse ∧ cmd ≠ s.cmdNum.toNat then (s, some .none)
  else if s.state ≠ .idle then (s, some .badReq)
  else
    let s₁ := { s with mtu := env.bspMtu - headerLenInMtu }
    if env.malloc then ({ s₁ with state := .disassemble }, none) else (s₁, some .memAlloc)

/-- An early return changes at most the MTU; otherwise the state was idle. -/
theorem disassembleBegin_cases (env : DisassembleEnv) (len : Nat) (cmd : Int) (s : MsgState) :
    (∃ mtu result, disassembleBegin env len cmd s = ({ s with mtu := mtu }, some result)) ∨
    (len ≠ 0 ∧ s.state = .idle ∧ ∃ mtu,
      disassembleBegin env len cmd s = ({ s with mtu := mtu, state := .disassemble }, none)) := by
  unfold disassembleBegin
  split
  case isTrue => exact .inl ⟨s.mtu, .badReq, rfl⟩
  case isFalse filled =>
    split
    case isTrue => exact .inl ⟨s.mtu, .none, rfl⟩
    case isFalse =>
      split
      case isTrue => exact .inl ⟨s.mtu, .badReq, rfl⟩
      case isFalse idle =>
        split
        case isTrue => exact .inr ⟨filled, by simpa using idle, _, rfl⟩
        case isFalse => exact .inl ⟨_, .memAlloc, rfl⟩

/-- The part of `es_msg_disassemble` after its loop. -/
def disassembleEnd (s : MsgState) : MsgState :=
  { s with state := .idle, cmdNum := 0 }

/-- The bytes of one indication: the packed header filled in for `op_code`, then
the segment. -/
def indication (mtu : UInt32) (buf : List UInt8) (dataContinued cmdNum transactionId opCode : UInt8)
    (sentLen segmentLen : Nat) : List UInt8 :=
  let size := if opCode = 0 then buf.length else sentLen
  let continued :=
    if opCode = 0 then dataContinued else UInt8.ofNat (buf.length / mtu.toNat) - opCode
  [opCode, cmdNum, transactionId,
    UInt8.ofNat size, UInt8.ofNat (size / 2 ^ 8), UInt8.ofNat (size / 2 ^ 16), continued,
    UInt8.ofNat segmentLen, UInt8.ofNat (segmentLen / 2 ^ 8)] ++
    (buf.drop sentLen).take segmentLen

/-- The loop of `es_msg_disassemble`, giving the indications it sends and whether
all of them were taken. `round` counts the iterations, of which `fuel` bounds the
number; `none` means the loop is still running then. -/
def disassembleLoop (env : DisassembleEnv) (mtu : UInt32) (buf : List UInt8)
    (dataContinued cmdNum transactionId : UInt8) :
    (fuel round sentLen : Nat) → UInt8 → Option (List (List UInt8) × Bool)
  | fuel, round, sentLen, opCode =>
      if sentLen < buf.length then
        match fuel with
        | 0 => none
        | fuel + 1 =>
            -- `segment_len` has sixteen bits, the sum thirty-two
            let segmentLen :=
              (if (sentLen + mtu.toNat) % 2 ^ 32 ≤ buf.length then mtu.toNat
                else buf.length - sentLen) % 2 ^ 16
            if env.sendIndication round then
              (disassembleLoop env mtu buf dataContinued cmdNum transactionId fuel (round + 1)
                ((sentLen + segmentLen) % 2 ^ 32) (opCode + 1)).map fun rest =>
                  (indication mtu buf dataContinued cmdNum transactionId opCode sentLen
                    segmentLen :: rest.1, rest.2)
            else some ([], false)
      else some ([], true)

/-- `es_msg_disassemble` with the indications it sends. An iteration that sends no
byte would repeat forever, so a returning call takes at most `len` of them. -/
def esMsgDisassemble (env : DisassembleEnv) (buf : List UInt8) (dataContinued : UInt8) (cmd : Int)
    (s : MsgState) : Option (MsgState × DisassembleResult × List (List UInt8)) :=
  match disassembleBegin env buf.length cmd s with
  | (s₁, some result) => some (s₁, result, [])
  | (s₁, none) =>
      (disassembleLoop env s₁.mtu buf dataContinued s₁.cmdNum s₁.transactionId buf.length 0 0 0).map
        fun sent => (disassembleEnd s₁, if sent.2 then .none else .indicationFail, sent.1)

end StDevice.Easysetup.Ble
