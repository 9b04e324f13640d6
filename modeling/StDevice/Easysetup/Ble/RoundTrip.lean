import StDevice.Easysetup.Ble.Message

/-!
# A response cut into indications and put together again

The sender's loop numbers the indications with the eight bits of `op_code`; the
receiver accepts a segment when its number is one more than the last, computed
without wrapping. The two agree on the first 256 segments of a message and on no
later one.

The proof follows the receiver segment by segment: after segment `k` it holds the
bytes of the payload up to the end of that segment.
-/

namespace StDevice.Easysetup.Ble

/-- A call of `es_msg_disassemble` that sends a payload: the sender is idle, the
command is the one being answered, and sizes are those the header can express. -/
structure Transfer where
  payload : List UInt8
  bspMtu : UInt32
  cmd : Int
  sender : MsgState
  nonempty : 1 ≤ payload.length
  short : payload.length ≤ 0x00ffffff - 16
  mtuPositive : headerLenInMtu < bspMtu
  mtuFits : (bspMtu - headerLenInMtu).toNat < 2 ^ 16
  idle : sender.state = .idle
  answers : cmd - 1 = setupcompleteResponse ∨ cmd = sender.cmdNum.toNat
  identified : sender.transactionId ≠ 0

/-- Hand the segments to `es_msg_assemble` one after the other, collecting what
each call does. -/
def feed (env : AssembleEnv) :
    MsgState → List (List UInt8) → Except Fault (MsgState × List AssembleOutput)
  | s, [] => .ok (s, [])
  | s, segment :: segments =>
      match esMsgAssemble env segment s with
      | .error fault => .error fault
      | .ok (s', out) => (feed env s' segments).map fun rest => (rest.1, out :: rest.2)

theorem feed_append {env : AssembleEnv} {s s₁ : MsgState} {front back : List (List UInt8)}
    {outs : List AssembleOutput} (fed : feed env s front = .ok (s₁, outs)) :
    feed env s (front ++ back) =
      (feed env s₁ back).map fun rest => (rest.1, outs ++ rest.2) := by
  induction front generalizing s outs with
  | nil =>
      obtain ⟨rfl, rfl⟩ := Prod.mk.inj (Except.ok.inj fed)
      simp only [List.nil_append]
      cases feed env s back <;> rfl
  | cons segment front ih =>
      simp only [feed, List.cons_append] at fed ⊢
      cases assembled : esMsgAssemble env segment s with
      | error fault => simp [assembled] at fed
      | ok result =>
          obtain ⟨s', out⟩ := result
          simp only [assembled] at fed ⊢
          cases rest : feed env s' front with
          | error fault => simp [rest, Except.map] at fed
          | ok fedRest =>
              simp only [rest, Except.map, Except.ok.injEq, Prod.mk.injEq] at fed
              obtain ⟨rfl, rfl⟩ := fed
              rw [ih rest]
              cases feed env fedRest.1 back <;> rfl

namespace Transfer

variable (t : Transfer)

def mtu : UInt32 := t.bspMtu - headerLenInMtu

/-- Payload bytes in a full segment. -/
def segmentSize : Nat := t.mtu.toNat

/-- Number of indications the payload is cut into. -/
def segmentCount : Nat := (t.payload.length + t.segmentSize - 1) / t.segmentSize

/-- Payload bytes in segment `k`. -/
def segmentLen (k : Nat) : Nat := min t.segmentSize (t.payload.length - k * t.segmentSize)

/-- The `k`-th indication. -/
def segment (k : Nat) : List UInt8 :=
  indication t.mtu t.payload 0 t.sender.cmdNum t.sender.transactionId (UInt8.ofNat k)
    (k * t.segmentSize) (t.segmentLen k)

/-- The port of the sender: memory is available and every indication is taken. -/
def senderEnv : DisassembleEnv := ⟨t.bspMtu, true, fun _ => true⟩

/-- The port of the receiver: the same MTU, memory with arbitrary contents. -/
def receiverEnv (fresh : Nat → UInt8) : AssembleEnv := ⟨t.bspMtu, true, some fresh⟩

/-- What the last call of `es_msg_assemble` should do: dispatch one buffer with
the payload, without an error. -/
def delivered : AssembleOutput :=
  ⟨true, false, some ⟨[⟨some t.payload, t.payload.length, rfl⟩], 1, t.sender.cmdNum⟩⟩

/-- The payload is sent, and a fresh receiver dispatches it exactly once, after
the last indication and with no error before. -/
def RoundTrips (fresh : Nat → UInt8) : Prop :=
  ∃ s sent r,
    esMsgDisassemble t.senderEnv t.payload 0 t.cmd t.sender = some (s, .none, sent) ∧
    feed (t.receiverEnv fresh) .initial sent =
      .ok (r, List.replicate (sent.length - 1) .quiet ++ [t.delivered])

theorem segmentSize_pos : 0 < t.segmentSize := by
  have large := UInt32.lt_iff_toNat_lt.mp t.mtuPositive
  rw [segmentSize, mtu,
    UInt32.toNat_sub_of_le _ _ (UInt32.le_iff_toNat_le.mpr (Nat.le_of_lt large))]
  omega

theorem segmentSize_lt : t.segmentSize < 2 ^ 16 := t.mtuFits

theorem length_lt : t.payload.length < 2 ^ 24 := by
  have := t.short
  omega

/-- Segment `k` exists exactly when some payload is left before it. -/
theorem lt_segmentCount_iff {k : Nat} :
    k < t.segmentCount ↔ k * t.segmentSize < t.payload.length := by
  have positive := t.segmentSize_pos
  rw [segmentCount, Nat.lt_iff_add_one_le, Nat.le_div_iff_mul_le positive, Nat.succ_mul]
  omega

theorem segmentCount_pos : 0 < t.segmentCount := by
  have := t.nonempty
  rw [lt_segmentCount_iff]
  omega

/-- The sender's loop from its `k`-th iteration on. -/
theorem disassembleLoop_eq (fuel k : Nat) (enough : t.payload.length ≤ fuel + k * t.segmentSize) :
    disassembleLoop t.senderEnv t.mtu t.payload 0 t.sender.cmdNum t.sender.transactionId fuel k
        (min (k * t.segmentSize) t.payload.length) (UInt8.ofNat k) =
      some ((List.range' k (t.segmentCount - k)).map t.segment, true) := by
  induction fuel generalizing k with
  | zero =>
      have done : ¬ k < t.segmentCount := by
        rw [lt_segmentCount_iff]
        omega
      rw [disassembleLoop, Nat.min_eq_right (by omega), if_neg (Nat.lt_irrefl _)]
      rw [show t.segmentCount - k = 0 by omega]
      rfl
  | succ fuel ih =>
      have positive := t.segmentSize_pos
      rw [disassembleLoop]
      by_cases more : k < t.segmentCount
      · have left := t.lt_segmentCount_iff.mp more
        have small := t.segmentSize_lt
        have bounded := t.length_lt
        have size : (if (k * t.segmentSize + t.mtu.toNat) % 2 ^ 32 ≤ t.payload.length
            then t.mtu.toNat else t.payload.length - k * t.segmentSize) % 2 ^ 16 =
            t.segmentLen k := by
          have same : t.mtu.toNat = t.segmentSize := rfl
          rw [same, segmentLen]
          split
          · omega
          · omega
        have sum : (k * t.segmentSize + t.segmentLen k) % 2 ^ 32 =
            min ((k + 1) * t.segmentSize) t.payload.length := by
          rw [segmentLen, Nat.succ_mul]
          omega
        have rest := ih (k + 1) (by rw [Nat.succ_mul]; omega)
        rw [Nat.min_eq_left (Nat.le_of_lt left), if_pos left]
        simp only [size, sum, senderEnv, if_true]
        rw [show UInt8.ofNat k + 1 = UInt8.ofNat (k + 1) by simp]
        simp only [senderEnv] at rest
        rw [rest, show t.segmentCount - k = (t.segmentCount - (k + 1)) + 1 by omega,
          List.range'_succ]
        rfl
      · have done := mt t.lt_segmentCount_iff.mpr more
        rw [Nat.min_eq_right (by omega), if_neg (Nat.lt_irrefl _)]
        rw [show t.segmentCount - k = 0 by omega]
        rfl

theorem esMsgDisassemble_eq :
    esMsgDisassemble t.senderEnv t.payload 0 t.cmd t.sender =
      some (disassembleEnd { t.sender with mtu := t.mtu, state := .disassemble }, .none,
        (List.range t.segmentCount).map t.segment) := by
  have started : disassembleBegin t.senderEnv t.payload.length t.cmd t.sender =
      ({ t.sender with mtu := t.mtu, state := .disassemble }, none) := by
    have filled : t.payload.length ≠ 0 := Nat.ne_of_gt t.nonempty
    have current : ¬ (t.cmd - 1 ≠ setupcompleteResponse ∧ t.cmd ≠ t.sender.cmdNum.toNat) := by
      rintro ⟨other, outdated⟩
      exact t.answers.elim other outdated
    simp only [disassembleBegin, if_neg filled, if_neg current, t.idle, ne_eq, not_true_eq_false,
      if_false, senderEnv, if_true]
    rfl
  have loop := t.disassembleLoop_eq t.payload.length 0 (by omega)
  rw [Nat.zero_mul, Nat.zero_min, Nat.sub_zero, ← List.range_eq_range'] at loop
  rw [esMsgDisassemble, started]
  show Option.map _ (disassembleLoop t.senderEnv t.mtu t.payload 0 t.sender.cmdNum
    t.sender.transactionId t.payload.length 0 0 (UInt8.ofNat 0)) = _
  rw [loop]
  rfl

/-- The header the receiver reads back from segment `k`. -/
theorem ofBytes_segment (k : Nat) (present : k < t.segmentCount) :
    TransforData.ofBytes (t.segment k) =
      { opCode := UInt8.ofNat k
        cmdNum := t.sender.cmdNum
        transactionId := t.sender.transactionId
        size := if UInt8.ofNat k = 0 then t.payload.length else k * t.segmentSize
        continued :=
          if UInt8.ofNat k = 0 then 0
          else UInt8.ofNat (t.payload.length / t.mtu.toNat) - UInt8.ofNat k
        segmentLen := t.segmentLen k } := by
  have left := t.lt_segmentCount_iff.mp present
  have bounded := t.length_lt
  have small := t.segmentSize_lt
  have size : (if UInt8.ofNat k = 0 then t.payload.length else k * t.segmentSize) < 2 ^ 24 := by
    split <;> omega
  have len : t.segmentLen k < 2 ^ 16 := by
    rw [segmentLen]
    omega
  simp only [TransforData.ofBytes, segment, indication, List.cons_append, List.getD_cons_zero,
    List.getD_cons_succ, UInt8.toNat_ofNat', TransforData.mk.injEq, true_and]
  constructor
  · omega
  · omega

theorem segmentLen_le (k : Nat) : t.segmentLen k ≤ t.payload.length - k * t.segmentSize :=
  Nat.min_le_right _ _

/-- The payload bytes of segment `k`. -/
def slice (k : Nat) : List UInt8 := (t.payload.drop (k * t.segmentSize)).take (t.segmentLen k)

theorem slice_length (k : Nat) : (t.slice k).length = t.segmentLen k := by
  have := t.segmentLen_le k
  rw [slice, List.length_take, List.length_drop]
  omega

theorem read_segment (k : Nat) :
    Buffer.read (t.segment k) segmentDataOffset (t.segmentLen k) = some (t.slice k) := by
  have read := Buffer.read_append ((t.segment k).take segmentDataOffset) (t.slice k)
  rw [t.slice_length] at read
  exact read

theorem headerBytes_le (k : Nat) : headerBytes ≤ (t.segment k).length := by
  simp only [segment, indication, List.length_append, List.length_cons, headerBytes]
  omega

/-- The bytes of the payload up to the end of segment `k`. -/
theorem take_slice (k : Nat) :
    t.payload.take (k * t.segmentSize) ++ t.slice k =
      t.payload.take (k * t.segmentSize + t.segmentLen k) := by
  rw [slice, List.take_add]

/-- The receiver's buffer holds the first `stored` bytes of the payload. -/
structure Holds (stored : Nat) (b : SecurityBuffer) : Prop where
  len : b.len = t.payload.length
  cells : ∃ cells, b.p = some cells ∧ cells.take stored = t.payload.take stored

variable {t}

/-- The copy of the next slice extends what the buffer holds. -/
theorem Holds.store {k : Nat} {b : SecurityBuffer} (present : k < t.segmentCount)
    (holds : t.Holds (k * t.segmentSize) b) :
    ∃ b', b.store (k * t.segmentSize) (t.slice k) = some b' ∧
      t.Holds (k * t.segmentSize + t.segmentLen k) b' := by
  have left := t.lt_segmentCount_iff.mp present
  have short := t.segmentLen_le k
  obtain ⟨cells, allocated, same⟩ := holds.cells
  have room : k * t.segmentSize + (t.slice k).length ≤ b.len := by
    rw [t.slice_length, holds.len]
    omega
  obtain ⟨b', stores⟩ := SecurityBuffer.store_some_iff.mpr room
  obtain ⟨bytes, writes, stored⟩ := SecurityBuffer.store_p stores allocated
  refine ⟨b', stores, (SecurityBuffer.store_len stores).trans holds.len, bytes, stored, ?_⟩
  have copied := Buffer.take_of_write writes
  rw [t.slice_length, same, t.take_slice] at copied
  exact copied

/-- A buffer that holds all of the payload is the payload. -/
theorem Holds.eq {stored : Nat} {b : SecurityBuffer} (holds : t.Holds stored b)
    (all : t.payload.length ≤ stored) : b = ⟨some t.payload, t.payload.length, rfl⟩ := by
  obtain ⟨cells, allocated, same⟩ := holds.cells
  have size : cells.length = t.payload.length := by
    have sized := b.sized
    rwa [allocated, holds.len] at sized
  rw [List.take_of_length_le (by omega), List.take_of_length_le all] at same
  subst same
  exact SecurityBuffer.ext allocated holds.len

variable (t)

/-- The receiver after segment `k`, when more segments are to come. -/
structure Receiving (k : Nat) (s : MsgState) : Prop where
  state : s.state = .assemble
  pending : s.msgIsCompleted = false
  opCode : s.opCode.toNat = k
  cmdNum : s.cmdNum = t.sender.cmdNum
  transactionId : s.transactionId = t.sender.transactionId
  continued : s.dataContinued = 0
  count : s.dataCount = 1
  index : s.dataIdx = 0
  chunk : ∃ b, s.data = some [b] ∧ t.Holds ((k + 1) * t.segmentSize) b

/-- The header of the first segment. -/
def firstHeader : TransforData :=
  ⟨0, t.sender.cmdNum, t.sender.transactionId, t.payload.length, 0, t.segmentLen 0⟩

theorem ofBytes_first : TransforData.ofBytes (t.segment 0) = t.firstHeader :=
  t.ofBytes_segment 0 t.segmentCount_pos

/-- The receiver with the array of one empty chunk it allocates. -/
def emptyArray : MsgState :=
  { MsgState.initial with
    mtu := t.mtu
    dataCount := 1
    data := some [.zero]
    counted := by
      intro chunks allocated
      obtain rfl := Option.some.inj allocated
      rfl }

theorem allocData_initial (fresh : Nat → UInt8) :
    allocData (t.receiverEnv fresh) t.firstHeader .initial = some t.emptyArray := rfl

theorem opened_dataIdx : (openChunk t.firstHeader t.emptyArray).dataIdx = 0 := by
  show (1 - 0 - 1 : UInt8) = 0
  decide

theorem opened_data (chunk : SecurityBuffer) :
    ((openChunk t.firstHeader t.emptyArray).setChunk chunk).data = some [chunk] := by
  show some ([SecurityBuffer.zero].set (openChunk t.firstHeader t.emptyArray).dataIdx.toNat
    chunk) = _
  rw [opened_dataIdx]
  rfl

/-- The first segment is the whole payload exactly when it is the only one. -/
theorem whole_iff :
    t.firstHeader.size ≤ (openChunk t.firstHeader t.emptyArray).mtu.toNat ∧
      t.firstHeader.size = t.firstHeader.segmentLen ↔ t.segmentCount = 1 := by
  have positive := t.segmentCount_pos
  have single : ¬ 1 < t.segmentCount ↔ ¬ 1 * t.segmentSize < t.payload.length :=
    not_congr t.lt_segmentCount_iff
  show t.payload.length ≤ t.segmentSize ∧ t.payload.length = min t.segmentSize _ ↔ _
  omega

/-- A first segment reaches the copy into the only chunk. -/
theorem esMsgAssemble_first (fresh : Nat → UInt8) :
    ∃ chunk, t.Holds (t.segmentLen 0) chunk ∧
      esMsgAssemble (t.receiverEnv fresh) (t.segment 0) .initial =
        .ok (finishSegment false
          (afterFirst t.firstHeader chunk (openChunk t.firstHeader t.emptyArray))) := by
  have header := t.headerBytes_le 0
  have nonempty : (t.segment 0).length ≠ 0 := by
    rw [headerBytes] at header
    omega
  obtain ⟨chunk, memory, empty⟩ : ∃ chunk,
      SecurityBuffer.alloc (t.receiverEnv fresh).bufferMalloc t.payload.length = some chunk ∧
        t.Holds (0 * t.segmentSize) chunk := by
    refine ⟨_, rfl, rfl, _, rfl, ?_⟩
    simp
  obtain ⟨chunk', stores, holds⟩ := empty.store t.segmentCount_pos
  rw [Nat.zero_mul] at stores holds
  rw [Nat.zero_add] at holds
  have copied : storeFirst (t.segment 0) t.firstHeader chunk = .ok chunk' := by
    obtain ⟨cells, allocated, -⟩ := empty.cells
    refine storeFirst_ok_iff.mpr (.inr ⟨?_, t.slice 0, t.read_segment 0, stores⟩)
    simp [allocated]
  have accepted : ¬ Refused t.firstHeader .initial := by
    simp [Refused, firstHeader, MsgState.initial]
  have inside : (openChunk t.firstHeader t.emptyArray).dataIdx.toNat <
      (openChunk t.firstHeader t.emptyArray).chunks.length := by
    rw [opened_dataIdx]
    exact Nat.zero_lt_one
  refine ⟨chunk', holds, ?_⟩
  rw [esMsgAssemble, if_neg nonempty, if_neg (Nat.not_lt.mpr header), t.ofBytes_first]
  show (if Refused t.firstHeader .initial then _ else _) = _
  rw [if_neg accepted]
  exact assembleFirst_ok_iff.mpr (.inr ⟨t.emptyArray, t.allocData_initial fresh, inside,
    .inr ⟨chunk, chunk', memory, copied, rfl⟩⟩)

/-- A payload of one segment is dispatched at once. -/
theorem esMsgAssemble_only (fresh : Nat → UInt8) (only : t.segmentCount = 1) :
    ∃ r, esMsgAssemble (t.receiverEnv fresh) (t.segment 0) .initial = .ok (r, t.delivered) := by
  obtain ⟨chunk, holds, assembled⟩ := t.esMsgAssemble_first fresh
  have whole := t.whole_iff.mpr only
  obtain rfl := holds.eq (Nat.le_of_eq whole.2)
  rw [finishSegment_last ((afterFirst_completed_iff _ _ _ rfl).mpr whole)
    (afterFirst_dataContinued _ _ _)] at assembled
  rw [MsgState.chunks, afterFirst_data, opened_data, afterFirst_dataCount, afterFirst_cmdNum]
    at assembled
  exact ⟨_, assembled⟩

/-- The first of several segments leaves the receiver waiting for the next. -/
theorem receiving_first (fresh : Nat → UInt8) (more : 1 < t.segmentCount) :
    ∃ r, esMsgAssemble (t.receiverEnv fresh) (t.segment 0) .initial = .ok (r, .quiet) ∧
      t.Receiving 0 r := by
  obtain ⟨chunk, holds, assembled⟩ := t.esMsgAssemble_first fresh
  have partly := mt t.whole_iff.mp (Nat.ne_of_gt more)
  have full : t.segmentLen 0 = (0 + 1) * t.segmentSize := by
    have left := t.lt_segmentCount_iff.mp more
    rw [segmentLen]
    omega
  rw [full] at holds
  rw [finishSegment_pending (by
    rw [← Bool.not_eq_true, afterFirst_completed_iff _ _ _ rfl]
    exact partly)] at assembled
  refine ⟨_, assembled, ?_⟩
  rw [afterFirst, if_neg partly]
  exact ⟨rfl, rfl, rfl, rfl, rfl, rfl, rfl, t.opened_dataIdx, chunk, t.opened_data chunk, holds⟩

variable {t}

/-- A later segment with a number below 256 is copied behind the ones before. -/
theorem Receiving.assemble {k : Nat} {s : MsgState} (receiving : t.Receiving k s)
    (present : k + 1 < t.segmentCount) (numbered : k + 1 < 256) (env : AssembleEnv) :
    ∃ chunk chunk', s.data = some [chunk] ∧ chunk.len = t.payload.length ∧
      t.Holds ((k + 1) * t.segmentSize + t.segmentLen (k + 1)) chunk' ∧
      esMsgAssemble env (t.segment (k + 1)) s = .ok (finishSegment false
        (advance (TransforData.ofBytes (t.segment (k + 1))) chunk chunk' s)) := by
  obtain ⟨chunk, array, holds⟩ := receiving.chunk
  obtain ⟨chunk', stores, extended⟩ := holds.store present
  have header := t.headerBytes_le (k + 1)
  have nonempty : (t.segment (k + 1)).length ≠ 0 := by
    rw [headerBytes] at header
    omega
  have number : (UInt8.ofNat (k + 1)).toNat = k + 1 := UInt8.toNat_ofNat_of_lt' numbered
  have later : UInt8.ofNat (k + 1) ≠ 0 := by
    intro zero
    have := congrArg UInt8.toNat zero
    rw [number] at this
    exact absurd this (by simp)
  have data := t.ofBytes_segment (k + 1) present
  have continues : Continues (TransforData.ofBytes (t.segment (k + 1))) s := by
    rw [data]
    refine ⟨?_, receiving.cmdNum.symm, receiving.transactionId.symm⟩
    rw [number, receiving.opCode]
  have current : s.chunks[s.dataIdx.toNat]? = some chunk := by
    rw [MsgState.chunks, array, receiving.index]
    rfl
  have stored : storeNext (t.segment (k + 1)) (TransforData.ofBytes (t.segment (k + 1))) s =
      .ok (advance (TransforData.ofBytes (t.segment (k + 1))) chunk chunk' s) := by
    refine storeNext_ok_iff.mpr ⟨chunk, t.slice (k + 1), chunk', current, ?_, ?_, rfl⟩
    · rw [data]
      exact t.read_segment (k + 1)
    · rw [data]
      simpa only [if_neg later] using stores
  refine ⟨chunk, chunk', array, holds.len, extended, ?_⟩
  rw [esMsgAssemble, if_neg nonempty, if_neg (Nat.not_lt.mpr header)]
  simp only [receiving.state, if_pos continues, stored]

/-- Whether a later segment completes the message. -/
theorem advance_completed_iff {k : Nat} {s : MsgState} {chunk chunk' : SecurityBuffer}
    (receiving : t.Receiving k s) (present : k + 1 < t.segmentCount) (numbered : k + 1 < 256)
    (length : chunk.len = t.payload.length) :
    (advance (TransforData.ofBytes (t.segment (k + 1))) chunk chunk' s).msgIsCompleted = true ↔
      t.payload.length ≤ (k + 1) * t.segmentSize + t.segmentLen (k + 1) := by
  have later : UInt8.ofNat (k + 1) ≠ 0 := by
    intro zero
    have number := congrArg UInt8.toNat zero
    rw [UInt8.toNat_ofNat_of_lt' numbered] at number
    exact absurd number (by simp)
  rw [advance, t.ofBytes_segment (k + 1) present]
  simp only [receiving.pending, Bool.false_or, decide_eq_true_eq, length, if_neg later]

theorem advance_data {k : Nat} {s : MsgState} {data : TransforData}
    {chunk chunk' : SecurityBuffer} (receiving : t.Receiving k s) (array : s.data = some [chunk]) :
    (advance data chunk chunk' s).data = some [chunk'] := by
  show (s.data.map fun chunks => chunks.set s.dataIdx.toNat chunk') = _
  rw [array, receiving.index]
  rfl

/-- Another segment that is not the last one. -/
theorem Receiving.next {k : Nat} {s : MsgState} (receiving : t.Receiving k s)
    (more : k + 2 < t.segmentCount) (numbered : k + 1 < 256) (env : AssembleEnv) :
    ∃ s', esMsgAssemble env (t.segment (k + 1)) s = .ok (s', .quiet) ∧ t.Receiving (k + 1) s' := by
  have present : k + 1 < t.segmentCount := by omega
  obtain ⟨chunk, chunk', array, length, holds, assembled⟩ :=
    receiving.assemble present numbered env
  have left := t.lt_segmentCount_iff.mp more
  rw [show k + 2 = (k + 1) + 1 by rfl, Nat.succ_mul] at left
  have full : t.segmentLen (k + 1) = t.segmentSize := by
    rw [segmentLen]
    omega
  have pending : (advance (TransforData.ofBytes (t.segment (k + 1))) chunk chunk' s).msgIsCompleted
      = false := by
    rw [← Bool.not_eq_true, advance_completed_iff receiving present numbered length]
    omega
  rw [finishSegment_pending pending] at assembled
  refine ⟨_, assembled, receiving.state, pending, ?_, receiving.cmdNum, receiving.transactionId,
    receiving.continued, receiving.count, receiving.index, chunk', advance_data receiving array, ?_⟩
  · show (TransforData.ofBytes (t.segment (k + 1))).opCode.toNat = k + 1
    rw [t.ofBytes_segment (k + 1) present]
    exact UInt8.toNat_ofNat_of_lt' numbered
  · rw [full, ← Nat.succ_mul] at holds
    exact holds

/-- The last segment dispatches the payload. -/
theorem Receiving.last {k : Nat} {s : MsgState} (receiving : t.Receiving k s)
    (final : k + 2 = t.segmentCount) (numbered : k + 1 < 256) (env : AssembleEnv) :
    ∃ s', esMsgAssemble env (t.segment (k + 1)) s = .ok (s', t.delivered) := by
  have present : k + 1 < t.segmentCount := by omega
  obtain ⟨chunk, chunk', array, length, holds, assembled⟩ :=
    receiving.assemble present numbered env
  have left := t.lt_segmentCount_iff.mp present
  have past : ¬ (k + 1 + 1) * t.segmentSize < t.payload.length := by
    rw [← lt_segmentCount_iff]
    omega
  rw [Nat.succ_mul] at past
  have all : t.payload.length ≤ (k + 1) * t.segmentSize + t.segmentLen (k + 1) := by
    rw [segmentLen]
    omega
  obtain rfl := holds.eq all
  rw [finishSegment_last ((advance_completed_iff receiving present numbered length).mpr all)
    receiving.continued] at assembled
  rw [MsgState.chunks, advance_data receiving array] at assembled
  have count : ∀ data chunk chunk', (advance data chunk chunk' s).dataCount = 1 :=
    fun _ _ _ => receiving.count
  have command : ∀ data chunk chunk', (advance data chunk chunk' s).cmdNum = t.sender.cmdNum :=
    fun _ _ _ => receiving.cmdNum
  rw [count, command] at assembled
  exact ⟨_, assembled⟩

/-- Segment 256 carries the number zero again and is taken for an error. -/
theorem Receiving.wrapped {s : MsgState} (receiving : t.Receiving 255 s)
    (present : 256 < t.segmentCount) (env : AssembleEnv) :
    esMsgAssemble env (t.segment 256) s = .ok (s.reset, .aborted) := by
  have header := t.headerBytes_le 256
  have nonempty : (t.segment 256).length ≠ 0 := by
    rw [headerBytes] at header
    omega
  have other : ¬ Continues (TransforData.ofBytes (t.segment 256)) s := by
    rintro ⟨number, -⟩
    rw [t.ofBytes_segment 256 present, receiving.opCode] at number
    have wrong : (UInt8.ofNat 256).toNat = 255 + 1 := number
    exact absurd wrong (by decide)
  rw [esMsgAssemble, if_neg nonempty, if_neg (Nat.not_lt.mpr header)]
  simp only [receiving.state, if_neg other]

/-- The receiver over a stretch of segments none of which is the last. -/
theorem Receiving.feed {k : Nat} {s : MsgState} (receiving : t.Receiving k s) (count : Nat)
    (more : k + count + 1 < t.segmentCount) (numbered : k + count < 256) (env : AssembleEnv) :
    ∃ s', feed env s ((List.range' (k + 1) count).map t.segment) =
        .ok (s', List.replicate count .quiet) ∧ t.Receiving (k + count) s' := by
  induction count generalizing k s with
  | zero => exact ⟨s, rfl, receiving⟩
  | succ count ih =>
      obtain ⟨s₁, assembled, advanced⟩ :=
        receiving.next (by omega) (by omega) env
      obtain ⟨s₂, fed, final⟩ := ih advanced (by omega) (by omega)
      refine ⟨s₂, ?_, ?_⟩
      · rw [List.range'_succ, List.map_cons, Ble.feed, assembled]
        simp only [fed, Except.map]
        rfl
      · rwa [show k + (count + 1) = k + 1 + count by omega]

variable (t)

/-- The receiver after the first `count + 1` segments of a longer message. -/
theorem feed_front (fresh : Nat → UInt8) (count : Nat) (more : count + 1 < t.segmentCount)
    (numbered : count < 256) :
    ∃ s, feed (t.receiverEnv fresh) .initial ((List.range (count + 1)).map t.segment) =
        .ok (s, List.replicate (count + 1) .quiet) ∧ t.Receiving count s := by
  obtain ⟨r, assembled, receiving⟩ := t.receiving_first fresh (by omega)
  obtain ⟨s, fed, reached⟩ :=
    receiving.feed count (by omega) (by omega) (t.receiverEnv fresh)
  rw [Nat.zero_add] at fed reached
  refine ⟨s, ?_, reached⟩
  rw [List.range_eq_range', List.range'_succ, List.map_cons, feed, assembled]
  simp only [Nat.zero_add, fed, Except.map]
  rfl

/-- With at most 256 segments the payload arrives. -/
theorem feed_all (fresh : Nat → UInt8) (numbered : t.segmentCount ≤ 256) :
    ∃ s, feed (t.receiverEnv fresh) .initial ((List.range t.segmentCount).map t.segment) =
        .ok (s, List.replicate (t.segmentCount - 1) .quiet ++ [t.delivered]) := by
  have positive := t.segmentCount_pos
  obtain only | several : t.segmentCount = 1 ∨ 2 ≤ t.segmentCount := by omega
  · obtain ⟨r, assembled⟩ := t.esMsgAssemble_only fresh only
    rw [only, List.range_one, List.map_singleton, feed, assembled]
    exact ⟨r, rfl⟩
  · obtain ⟨count, total⟩ : ∃ count, t.segmentCount = count + 2 :=
      ⟨t.segmentCount - 2, by omega⟩
    obtain ⟨s, fed, receiving⟩ := t.feed_front fresh count (by omega) (by omega)
    obtain ⟨s', assembled⟩ := receiving.last total.symm (by omega) (t.receiverEnv fresh)
    refine ⟨s', ?_⟩
    rw [total, List.range_succ, List.map_append, feed_append fed, List.map_singleton, feed,
      assembled]
    rfl

/-- With more segments the receiver reports an error before the last one. -/
theorem feed_wrapped (fresh : Nat → UInt8) (wrapped : 256 < t.segmentCount) (r : MsgState)
    (outs : List AssembleOutput)
    (fed : feed (t.receiverEnv fresh) .initial ((List.range t.segmentCount).map t.segment) =
      .ok (r, outs)) : AssembleOutput.aborted ∈ outs := by
  obtain ⟨s, front, receiving⟩ := t.feed_front fresh 255 wrapped (by omega)
  have split : ∀ i n, i ≤ n → List.range n = List.range i ++ List.range' i (n - i) := by
    intro i n inside
    have joined := List.range'_append_1 (s := 0) (m := i) (n := n - i)
    rw [Nat.zero_add, Nat.add_sub_cancel' inside] at joined
    rw [List.range_eq_range', List.range_eq_range', joined]
  rw [split 256 _ (Nat.le_of_lt wrapped), List.map_append, feed_append front,
    show t.segmentCount - 256 = (t.segmentCount - 257) + 1 by omega, List.range'_succ,
    List.map_cons, feed, receiving.wrapped wrapped] at fed
  cases rest : feed (t.receiverEnv fresh) s.reset
      ((List.range' (256 + 1) (t.segmentCount - 257)).map t.segment) with
  | error fault =>
      simp only [rest, Except.map] at fed
      exact absurd fed (by simp)
  | ok final =>
      simp only [rest, Except.map, Except.ok.injEq, Prod.mk.injEq] at fed
      obtain ⟨-, rfl⟩ := fed
      exact List.mem_append_right _ List.mem_cons_self

theorem not_roundTrips_of_wrapped (fresh : Nat → UInt8) (wrapped : 256 < t.segmentCount) :
    ¬ t.RoundTrips fresh := by
  rintro ⟨s, sent, r, sends, fed⟩
  rw [t.esMsgDisassemble_eq] at sends
  obtain ⟨-, -, rfl⟩ := Option.some.inj sends |> Prod.mk.inj |> And.imp_right Prod.mk.inj
  have aborted := t.feed_wrapped fresh wrapped r _ fed
  rw [List.mem_append, List.mem_replicate, List.mem_singleton] at aborted
  rcases aborted with ⟨-, quiet⟩ | delivered
  · exact absurd quiet (by decide)
  · exact absurd (congrArg AssembleOutput.error delivered)
      (by simp [AssembleOutput.aborted, Transfer.delivered])

end Transfer

/-- A payload survives the way through `es_msg_disassemble` and `es_msg_assemble`
exactly when it needs no more than the 256 segments `op_code` can number. -/
theorem roundTrips_iff (t : Transfer) (fresh : Nat → UInt8) :
    t.RoundTrips fresh ↔ t.payload.length ≤ 256 * t.segmentSize := by
  have limit : t.payload.length ≤ 256 * t.segmentSize ↔ t.segmentCount ≤ 256 := by
    rw [← Nat.not_lt, ← Nat.not_lt, t.lt_segmentCount_iff]
  rw [limit]
  constructor
  · intro arrives
    by_contra wrapped
    exact t.not_roundTrips_of_wrapped fresh (Nat.lt_of_not_le wrapped) arrives
  · intro numbered
    obtain ⟨r, fed⟩ := t.feed_all fresh numbered
    refine ⟨_, _, r, t.esMsgDisassemble_eq, ?_⟩
    rw [List.length_map, List.length_range]
    exact fed

/-- A response of 257 bytes over an MTU that leaves one byte for each segment. -/
def longTransfer : Transfer where
  payload := List.replicate 257 0
  bspMtu := 13
  cmd := 1
  sender := { MsgState.initial with cmdNum := 1, transactionId := 1 }
  nonempty := by
    rw [List.length_replicate]
    decide
  short := by
    rw [List.length_replicate]
    decide
  mtuPositive := by decide
  mtuFits := by decide
  idle := rfl
  answers := .inr rfl
  identified := by decide

/-- Its last segment is numbered zero again, and nothing is dispatched. -/
theorem longTransfer_not_roundTrips : ¬ longTransfer.RoundTrips fun _ => 0 := by
  apply Transfer.not_roundTrips_of_wrapped
  rw [Transfer.lt_segmentCount_iff]
  show 256 * (13 - 12 : UInt32).toNat < (List.replicate 257 0).length
  rw [List.length_replicate]
  decide

end StDevice.Easysetup.Ble
