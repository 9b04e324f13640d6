import StDevice.Foundation.Run
import StDevice.Easysetup.Ble.Message

/-!
# Memory bounds of BLE reassembly

The system is `msg_state` together with the static buffer the easysetup task
reads. Segments arrive in any order and with any bytes, between them the peer may
disconnect, the task may pick up a message, and a response may begin or end.

A run exists exactly as long as no access leaves its buffer. The theorem says
which segments and states these are.
-/

namespace StDevice.Easysetup.Ble

open Run

/-- `RX_BUFFER_MAX`. -/
def rxBufferMax : Nat := 512

/-- The static variables of the easysetup task. -/
structure BleTask where
  checkProcess : Bool
  writeCallbackLen : Nat
  writeCmdNum : UInt8
  rxBuffer : List UInt8
  size : rxBuffer.length = rxBufferMax

namespace BleTask

def initial : BleTask where
  checkProcess := false
  writeCallbackLen := 0
  writeCmdNum := 0
  rxBuffer := List.replicate rxBufferMax 0
  size := List.length_replicate

/-- A copy into `rx_buffer`. -/
def store (t : BleTask) (offset : Nat) (src : List UInt8) : Except Fault BleTask :=
  match writes : Buffer.write t.rxBuffer offset src with
  | none => .error .rxWrite
  | some bytes => .ok { t with
      rxBuffer := bytes
      size := (Buffer.length_of_write writes).trans t.size }

theorem store_ok_iff {t : BleTask} {offset : Nat} {src : List UInt8} :
    (∃ t', t.store offset src = .ok t') ↔ offset + src.length ≤ rxBufferMax := by
  rw [← t.size, ← Buffer.exists_write_iff]
  unfold store
  split
  case h_1 writes => simp [writes]
  case h_2 bytes writes => simp [writes]

end BleTask

/-- `es_msg_dispatch`: only the first buffer is copied. -/
def esMsgDispatch (d : Dispatch) (t : BleTask) : Except Fault BleTask :=
  match d.buf with
  | [] => .error .dataIndex
  | first :: _ =>
      { t with
        checkProcess := true
        writeCmdNum := d.cmdNum
        writeCallbackLen := first.len }.store 0 (first.p.getD [])

/-- `_es_process_accepted_connection` up to the call of the message handler: the
length stored with the message indexes the byte it terminates. -/
def esProcessAcceptedConnection (t : BleTask) : Except Fault BleTask :=
  if t.checkProcess then { t with checkProcess := false }.store t.writeCallbackLen [0]
  else .ok t

/-- The state shared by the BLE stack and the easysetup task. -/
structure System where
  msg : MsgState
  task : BleTask

def System.initial : System := ⟨.initial, .initial⟩

inductive Event where
  /-- `es_msg_assemble` on received bytes -/
  | segment (env : AssembleEnv) (buf : List UInt8)
  /-- `es_reset_transferdata` -/
  | resetTransferdata
  /-- `es_msg_disassemble` up to its loop -/
  | disassembleBegin (env : DisassembleEnv) (len : Nat) (cmd : Int)
  /-- `es_msg_disassemble` after its loop -/
  | disassembleEnd
  /-- `_es_process_accepted_connection` -/
  | process

/-- A received segment, with the dispatch it may lead to. -/
def System.receive (env : AssembleEnv) (buf : List UInt8) (s : System) : Except Fault System :=
  match esMsgAssemble env buf s.msg with
  | .error fault => .error fault
  | .ok (msg, out) =>
      match out.dispatch with
      | none => .ok { s with msg := msg }
      | some d =>
          match esMsgDispatch d s.task with
          | .error fault => .error fault
          | .ok task => .ok ⟨msg, task⟩

def System.next (s : System) : Event → Except Fault System
  | .segment env buf => s.receive env buf
  | .resetTransferdata => .ok { s with msg := s.msg.esResetTransferdata }
  | .disassembleBegin env len cmd => .ok { s with msg := (disassembleBegin env len cmd s.msg).1 }
  | .disassembleEnd => .ok { s with msg := disassembleEnd s.msg }
  | .process =>
      match esProcessAcceptedConnection s.task with
      | .error fault => .error fault
      | .ok task => .ok { s with task := task }

def System.step (s : System) (e : Event) (t : System) : Prop := s.next e = .ok t

/-- Length of the first chunk, which is the one dispatched. -/
def MsgState.firstLen (s : MsgState) : Nat := (s.chunks.headD .zero).len

/-- Number of entries of the array a first segment works on: a new message
allocates one more than the segment announces, in eight bits. -/
def chunkCount (data : TransforData) (s : MsgState) : Nat :=
  match s.data with
  | none => (data.continued + 1).toNat
  | some _ => s.dataCount.toNat

/-- The MTU a first segment is compared with. -/
def chunkMtu (env : AssembleEnv) (s : MsgState) : UInt32 :=
  match s.data with
  | none => env.bspMtu - headerLenInMtu
  | some _ => s.mtu

/-- A later segment lies in the received bytes, its copy in the buffer of the
chunk, and the message it completes in `rx_buffer`. -/
def LaterInBounds (buf : List UInt8) (data : TransforData) (s : MsgState) : Prop :=
  ∀ chunk, s.chunks[s.dataIdx.toNat]? = some chunk →
    segmentDataOffset + data.segmentLen ≤ buf.length ∧
    data.size + data.segmentLen ≤ chunk.len ∧
    (s.dataContinued = 0 → chunk.len ≤ data.size + data.segmentLen → s.firstLen ≤ rxBufferMax)

/-- The same for a first segment, whose chunk must also be one of those the
message announced. -/
def FirstInBounds (env : AssembleEnv) (buf : List UInt8) (data : TransforData) (s : MsgState) :
    Prop :=
  data.continued.toNat < chunkCount data s ∧
  (env.bufferMalloc ≠ none →
    segmentDataOffset + data.segmentLen ≤ buf.length ∧ data.segmentLen ≤ data.size) ∧
  (data.size = 0 → segmentDataOffset ≤ buf.length) ∧
  (env.bufferMalloc ≠ none ∨ data.size = 0 → data.continued = 0 →
    data.size ≤ (chunkMtu env s).toNat → data.size = data.segmentLen →
    ¬ (s.cmdNum ≠ 0 ∧ s.cmdNum = data.cmdNum) →
    (if chunkCount data s = 1 then data.size else s.firstLen) ≤ rxBufferMax)

/-- The segment is as long as the fields that are read from it, and what it makes
the code copy fits. -/
def SegmentInBounds (env : AssembleEnv) (buf : List UInt8) (s : MsgState) : Prop :=
  buf.length = 0 ∨ headerBytes ≤ buf.length ∧
    match s.state with
    | .assemble => Continues (.ofBytes buf) s → LaterInBounds buf (.ofBytes buf) s
    | .disassemble => True
    | .idle =>
        ¬ Refused (.ofBytes buf) s → s.data ≠ none ∨ env.arrayMalloc = true →
          FirstInBounds env buf (.ofBytes buf) s

/-- The condition on the state before an event under which it stays in bounds. A
message picked up by the task needs one byte of room for its terminator. -/
def InBounds (s : System) : Event → Prop
  | .segment env buf => SegmentInBounds env buf s.msg
  | .process => s.task.checkProcess = true → s.task.writeCallbackLen < rxBufferMax
  | _ => True

/-- Between two calls no completed message is left over, and while a message is
being assembled its current chunk exists. -/
structure Coherent (s : MsgState) : Prop where
  completed : s.msgIsCompleted = false
  current : s.state = .assemble → s.dataIdx.toNat < s.chunks.length

/-- A call of `es_msg_assemble` succeeds and what it dispatches fits `rx_buffer`. -/
def Fits (result : Except Fault (MsgState × AssembleOutput)) : Prop :=
  ∃ s out, result = .ok (s, out) ∧
    ∀ d, out.dispatch = some d → ∃ first rest, d.buf = first :: rest ∧ first.len ≤ rxBufferMax

private theorem fits_error (fault : Fault) : ¬ Fits (.error fault) := by
  rintro ⟨s, out, impossible, -⟩
  exact absurd impossible (by simp)

private theorem fits_ok_iff {s : MsgState} {out : AssembleOutput} :
    Fits (.ok (s, out)) ↔
      ∀ d, out.dispatch = some d →
        ∃ first rest, d.buf = first :: rest ∧ first.len ≤ rxBufferMax := by
  constructor
  · rintro ⟨s', out', same, fits⟩
    obtain ⟨rfl, rfl⟩ := Prod.mk.inj (Except.ok.inj same)
    exact fits
  · intro fits
    exact ⟨s, out, rfl, fits⟩

private theorem fits_silent {s : MsgState} {out : AssembleOutput} (silent : out.dispatch = none) :
    Fits (.ok (s, out)) := by
  rw [fits_ok_iff]
  intro d dispatched
  exact absurd (silent.symm.trans dispatched) (by simp)

theorem esMsgDispatch_ok_iff {d : Dispatch} {t : BleTask} :
    (∃ t', esMsgDispatch d t = .ok t') ↔
      ∃ first rest, d.buf = first :: rest ∧ first.len ≤ rxBufferMax := by
  unfold esMsgDispatch
  split
  case h_1 empty => simp [empty]
  case h_2 first rest chunks =>
    rw [BleTask.store_ok_iff, first.sized, Nat.zero_add]
    simp [chunks]

theorem System.receive_ok_iff {env : AssembleEnv} {buf : List UInt8} {s : System} :
    (∃ t, s.receive env buf = .ok t) ↔ Fits (esMsgAssemble env buf s.msg) := by
  unfold System.receive
  cases assembled : esMsgAssemble env buf s.msg with
  | error fault => simpa using fits_error fault
  | ok result =>
      obtain ⟨msg, out⟩ := result
      rw [fits_ok_iff]
      cases dispatched : out.dispatch with
      | none => simp [dispatched]
      | some d =>
          simp only [dispatched, Option.some.injEq, forall_eq']
          rw [← esMsgDispatch_ok_iff (t := s.task)]
          cases esMsgDispatch d s.task with
          | error fault => simp
          | ok task => simp

/-- The dispatch at the end of a segment fits exactly when the first chunk does. -/
private theorem finishSegment_fits_iff {dup : Bool} {s : MsgState} (filled : s.chunks ≠ []) :
    Fits (.ok (finishSegment dup s)) ↔
      (s.msgIsCompleted = true → s.dataContinued = 0 → dup = false → s.firstLen ≤ rxBufferMax) := by
  unfold finishSegment
  split
  case isFalse pending =>
    exact iff_of_true (fits_silent rfl) (fun completed => absurd completed pending)
  case isTrue completed =>
    split
    case isTrue more =>
      exact iff_of_true (fits_silent rfl) (fun _ last => absurd last more)
    case isFalse last =>
      split
      case isTrue duplicated =>
        refine iff_of_true (fits_silent rfl) (fun _ _ fresh => ?_)
        exact absurd (duplicated.symm.trans fresh) (by decide)
      case isFalse fresh =>
        rw [fits_ok_iff]
        obtain ⟨first, rest, chunks⟩ := List.exists_cons_of_ne_nil filled
        have once : dup = false := by simpa using fresh
        have ended : s.dataContinued = 0 := by simpa using last
        simp [MsgState.firstLen, chunks, completed, ended, once]

namespace MsgState

theorem setChunk_chunks (s : MsgState) (b : SecurityBuffer) :
    (s.setChunk b).chunks = s.chunks.set s.dataIdx.toNat b := by
  show (s.data.map fun chunks => chunks.set s.dataIdx.toNat b).getD [] =
    (s.data.getD []).set s.dataIdx.toNat b
  cases s.data with
  | none => rfl
  | some chunks => rfl

/-- Replacing the current entry changes the first length only when it is the first. -/
theorem setChunk_firstLen {s : MsgState} {b : SecurityBuffer}
    (inside : s.dataIdx.toNat < s.chunks.length) :
    (s.setChunk b).firstLen = if s.dataIdx.toNat = 0 then b.len else s.firstLen := by
  unfold firstLen
  rw [setChunk_chunks]
  obtain ⟨first, rest, chunks⟩ := List.exists_cons_of_ne_nil (List.length_pos_iff.mp
    (Nat.lt_of_le_of_lt (Nat.zero_le _) inside))
  rw [chunks]
  cases s.dataIdx.toNat with
  | zero => simp
  | succ n => simp

end MsgState

/-- In bounds for a later segment, given the chunk it belongs to. -/
private theorem storeNext_fits_iff {buf : List UInt8} {data : TransforData} {s : MsgState}
    (coherent : Coherent s) (assembling : s.state = .assemble) :
    (∃ s', storeNext buf data s = .ok s' ∧ Fits (.ok (finishSegment false s'))) ↔
      LaterInBounds buf data s := by
  have inside := coherent.current assembling
  have finish : ∀ chunk chunk' segment, s.chunks[s.dataIdx.toNat]? = some chunk →
      chunk.store data.size segment = some chunk' →
      (Fits (.ok (finishSegment false (advance data chunk chunk' s))) ↔
        (s.dataContinued = 0 → chunk.len ≤ data.size + data.segmentLen →
          s.firstLen ≤ rxBufferMax)) := by
    intro chunk chunk' segment current stores
    have first : (advance data chunk chunk' s).firstLen = s.firstLen := by
      refine (MsgState.setChunk_firstLen inside).trans ?_
      split
      case isTrue zero =>
        rw [zero] at current
        rw [SecurityBuffer.store_len stores, MsgState.firstLen, List.headD_eq_head?_getD,
          List.head?_eq_getElem?, current, Option.getD_some]
      case isFalse => rfl
    have filled : (advance data chunk chunk' s).chunks ≠ [] := by
      rw [← List.length_pos_iff]
      refine Nat.lt_of_lt_of_eq (Nat.lt_of_le_of_lt (Nat.zero_le _) inside) ?_
      exact (List.length_set.symm.trans (congrArg List.length (s.setChunk_chunks chunk').symm))
    rw [finishSegment_fits_iff filled, first]
    simp only [advance, MsgState.setChunk, coherent.completed, Bool.false_or, decide_eq_true_eq,
      forall_const]
    exact ⟨fun bound ended complete => bound complete ended,
      fun bound complete ended => bound ended complete⟩
  constructor
  · rintro ⟨s', stored, fits⟩ chunk current
    obtain ⟨chunk₀, segment, chunk', current₀, reads, stores, rfl⟩ := storeNext_ok_iff.mp stored
    obtain rfl := Option.some.inj (current.symm.trans current₀)
    refine ⟨Buffer.exists_read_iff.mp ⟨segment, reads⟩, ?_,
      (finish _ _ _ current stores).mp fits⟩
    have room := SecurityBuffer.store_some_iff.mp ⟨chunk', stores⟩
    rwa [Buffer.length_of_read reads] at room
  · intro bounds
    obtain ⟨received, room, dispatch⟩ := bounds _ (List.getElem?_eq_getElem inside)
    obtain ⟨segment, reads⟩ := Buffer.exists_read_iff.mpr received
    rw [← Buffer.length_of_read reads] at room
    obtain ⟨chunk', stores⟩ := SecurityBuffer.store_some_iff.mpr room
    have current := List.getElem?_eq_getElem inside
    exact ⟨_, storeNext_ok_iff.mpr ⟨_, segment, chunk', current, reads, stores, rfl⟩,
      (finish _ _ _ current stores).mpr dispatch⟩

/-- The array a first segment works on, allocated or kept. -/
private theorem allocData_some {env : AssembleEnv} {data : TransforData} {s s₁ : MsgState}
    (allocated : allocData env data s = some s₁) :
    s₁.dataCount.toNat = chunkCount data s ∧ s₁.chunks.length = chunkCount data s ∧
      s₁.mtu = chunkMtu env s ∧ s₁.firstLen = s.firstLen ∧
      s₁.msgIsCompleted = s.msgIsCompleted := by
  unfold allocData at allocated
  unfold chunkCount chunkMtu
  split at allocated
  case h_1 chunks present =>
    obtain rfl := Option.some.inj allocated
    simp [MsgState.chunks, present, s.counted chunks present]
  case h_2 absent =>
    split at allocated
    case isFalse => exact absurd allocated (by simp)
    case isTrue =>
      obtain rfl := Option.some.inj allocated
      simp only [absent, MsgState.chunks, MsgState.firstLen, Option.getD_some, Option.getD_none,
        List.length_replicate, true_and, and_true]
      cases (data.continued + 1).toNat <;> rfl

private theorem allocData_eq_none_iff {env : AssembleEnv} {data : TransforData} {s : MsgState} :
    allocData env data s = none ↔ ¬ (s.data ≠ none ∨ env.arrayMalloc = true) := by
  unfold allocData
  cases s.data with
  | none => cases env.arrayMalloc <;> simp
  | some chunks => simp

/-- The eight-bit index of a chunk is inside an array of `count` entries exactly
when fewer than `count` chunks are announced to follow. -/
private theorem chunkIndex_lt_iff (count continued : UInt8) :
    (count - continued - 1).toNat < count.toNat ↔ continued.toNat < count.toNat := by
  have := count.toNat_lt
  have := continued.toNat_lt
  simp only [UInt8.toNat_sub, UInt8.reduceToNat]
  omega

private theorem chunkIndex_eq_zero_iff {count continued : UInt8}
    (inside : continued.toNat < count.toNat) :
    (count - continued - 1).toNat = 0 ↔ count.toNat = continued.toNat + 1 := by
  have := count.toNat_lt
  simp only [UInt8.toNat_sub, UInt8.reduceToNat]
  omega

private theorem storeFirst_ok_iff_bounds {malloc : Option (Nat → UInt8)} {buf : List UInt8}
    {data : TransforData} {chunk : SecurityBuffer}
    (allocated : SecurityBuffer.alloc malloc data.size = some chunk) :
    (∃ chunk', storeFirst buf data chunk = .ok chunk') ↔
      (malloc ≠ none →
        segmentDataOffset + data.segmentLen ≤ buf.length ∧ data.segmentLen ≤ data.size) ∧
      (data.size = 0 → segmentDataOffset ≤ buf.length) := by
  have null := SecurityBuffer.alloc_null_iff allocated
  have length := SecurityBuffer.alloc_len allocated
  simp only [storeFirst_ok_iff, ne_eq, null]
  by_cases given : malloc = none
  · have empty : data.size = 0 := by
      by_contra filled
      have refused := SecurityBuffer.alloc_eq_none_iff.mpr ⟨given, filled⟩
      exact absurd (refused.symm.trans allocated) (by simp)
    simp [given, empty]
  · simp only [given, false_and, not_false_eq_true, true_and, false_or, forall_const]
    constructor
    · rintro ⟨chunk', segment, reads, stores⟩
      have received := Buffer.exists_read_iff.mp ⟨segment, reads⟩
      have room := SecurityBuffer.store_some_iff.mp ⟨chunk', stores⟩
      rw [Buffer.length_of_read reads, length] at room
      refine ⟨⟨received, by omega⟩, ?_⟩
      intro _
      omega
    · rintro ⟨⟨received, room⟩, -⟩
      obtain ⟨segment, reads⟩ := Buffer.exists_read_iff.mpr received
      have fits : 0 + segment.length ≤ chunk.len := by
        rw [Buffer.length_of_read reads, length]
        omega
      obtain ⟨chunk', stores⟩ := SecurityBuffer.store_some_iff.mpr fits
      exact ⟨chunk', segment, reads, stores⟩

private theorem storeFirst_len {buf : List UInt8} {data : TransforData}
    {chunk chunk' : SecurityBuffer} (stored : storeFirst buf data chunk = .ok chunk') :
    chunk'.len = chunk.len := by
  obtain ⟨-, -, rfl⟩ | ⟨-, segment, -, stores⟩ := storeFirst_ok_iff.mp stored
  · rfl
  · exact SecurityBuffer.store_len stores

/-- The dispatch after a first segment, in the terms of the state before it. -/
private theorem afterFirst_fits_iff {env : AssembleEnv} {data : TransforData} {s s₁ : MsgState}
    {chunk : SecurityBuffer} (dup : Bool) (coherent : Coherent s)
    (allocated : allocData env data s = some s₁) (length : chunk.len = data.size)
    (inside : data.continued.toNat < chunkCount data s) :
    Fits (.ok (finishSegment dup (afterFirst data chunk (openChunk data s₁)))) ↔
      (data.continued = 0 → data.size ≤ (chunkMtu env s).toNat → data.size = data.segmentLen →
        dup = false → (if chunkCount data s = 1 then data.size else s.firstLen) ≤ rxBufferMax) := by
  obtain ⟨count, array, mtu, first, completed⟩ := allocData_some allocated
  have index : (openChunk data s₁).dataIdx.toNat < (openChunk data s₁).chunks.length := by
    refine Nat.lt_of_lt_of_eq ((chunkIndex_lt_iff s₁.dataCount data.continued).mpr ?_)
      (count.trans array.symm)
    rwa [count]
  have chunks : (afterFirst data chunk (openChunk data s₁)).chunks =
      ((openChunk data s₁).setChunk chunk).chunks := by
    rw [MsgState.chunks, afterFirst_data]
    rfl
  have filled : (afterFirst data chunk (openChunk data s₁)).chunks ≠ [] := by
    rw [chunks, MsgState.setChunk_chunks, ← List.length_pos_iff, List.length_set]
    exact Nat.lt_of_le_of_lt (Nat.zero_le _) index
  have complete : (afterFirst data chunk (openChunk data s₁)).msgIsCompleted = true ↔
      data.size ≤ (chunkMtu env s).toNat ∧ data.size = data.segmentLen := by
    rw [← mtu]
    exact afterFirst_completed_iff data chunk (openChunk data s₁)
      (completed.trans coherent.completed)
  have continued : (afterFirst data chunk (openChunk data s₁)).dataContinued = data.continued :=
    afterFirst_dataContinued data chunk (openChunk data s₁)
  have dispatched : data.continued = 0 →
      (afterFirst data chunk (openChunk data s₁)).firstLen =
        if chunkCount data s = 1 then data.size else s.firstLen := by
    intro last
    have single : (openChunk data s₁).dataIdx.toNat = 0 ↔ chunkCount data s = 1 := by
      rw [← count]
      refine (chunkIndex_eq_zero_iff (by rwa [count])).trans ?_
      rw [last]
      exact Iff.rfl
    rw [MsgState.firstLen, chunks]
    refine (MsgState.setChunk_firstLen index).trans ?_
    simp only [single, length]
    congr 1
  rw [finishSegment_fits_iff filled, complete, continued]
  constructor
  · intro bound last small whole fresh
    rw [← dispatched last]
    exact bound ⟨small, whole⟩ last fresh
  · rintro bound ⟨small, whole⟩ last fresh
    rw [dispatched last]
    exact bound last small whole fresh

private theorem assembleFirst_fits_iff {env : AssembleEnv} {buf : List UInt8}
    {data : TransforData} {s : MsgState} (coherent : Coherent s) :
    Fits (assembleFirst env buf data s) ↔
      (s.data ≠ none ∨ env.arrayMalloc = true → FirstInBounds env buf data s) := by
  cases allocated : allocData env data s with
  | none =>
      have refused := allocData_eq_none_iff.mp allocated
      rw [assembleFirst_ok_iff.mpr (.inl ⟨allocated, rfl⟩)]
      exact iff_of_true (fits_silent rfl) (fun given => absurd given refused)
  | some s₁ =>
      obtain ⟨count, array, -⟩ := allocData_some allocated
      have index : (openChunk data s₁).dataIdx.toNat < (openChunk data s₁).chunks.length ↔
          data.continued.toNat < chunkCount data s := by
        rw [← count, ← chunkIndex_lt_iff, count, ← array]
        exact Iff.rfl
      have given : s.data ≠ none ∨ env.arrayMalloc = true := by
        by_contra refused
        exact absurd (allocated.symm.trans (allocData_eq_none_iff.mpr refused)) (by simp)
      simp only [given, forall_const, FirstInBounds]
      by_cases inside : data.continued.toNat < chunkCount data s
      · simp only [inside, true_and]
        cases memory : SecurityBuffer.alloc env.bufferMalloc data.size with
        | none =>
            obtain ⟨null, filled⟩ := SecurityBuffer.alloc_eq_none_iff.mp memory
            rw [assembleFirst_ok_iff.mpr
              (.inr ⟨s₁, allocated, index.mpr inside, .inl ⟨memory, rfl⟩⟩)]
            exact iff_of_true (fits_silent rfl) (by simp [null, filled])
        | some chunk =>
            have whole : env.bufferMalloc ≠ none ∨ data.size = 0 := by
              by_contra refused
              rw [not_or, not_not] at refused
              have failed := SecurityBuffer.alloc_eq_none_iff.mpr refused
              exact absurd (memory.symm.trans failed) (by simp)
            rw [← and_assoc, ← storeFirst_ok_iff_bounds memory]
            simp only [whole, forall_const]
            have finish := fun chunk' (stored : storeFirst buf data chunk = .ok chunk') =>
              afterFirst_fits_iff (decide (s.cmdNum ≠ 0 ∧ s.cmdNum = data.cmdNum)) coherent
                allocated ((storeFirst_len stored).trans (SecurityBuffer.alloc_len memory)) inside
            simp only [decide_eq_false_iff_not] at finish
            constructor
            · rintro ⟨s', out, succeeds, fits⟩
              rcases assembleFirst_ok_iff.mp succeeds with ⟨failed, -⟩ | ⟨s₂, again, -, rest⟩
              · exact absurd (allocated.symm.trans failed) (by simp)
              · obtain rfl := Option.some.inj (allocated.symm.trans again)
                rcases rest with ⟨failed, -⟩ | ⟨chunk₀, chunk', memory₀, stored, result⟩
                · exact absurd (memory.symm.trans failed) (by simp)
                · obtain rfl := Option.some.inj (memory.symm.trans memory₀)
                  refine ⟨⟨chunk', stored⟩, (finish chunk' stored).mp ?_⟩
                  rw [← result]
                  exact ⟨s', out, rfl, fits⟩
            · rintro ⟨⟨chunk', stored⟩, bound⟩
              rw [assembleFirst_ok_iff.mpr (.inr ⟨s₁, allocated, index.mpr inside,
                .inr ⟨chunk, chunk', memory, stored, rfl⟩⟩)]
              exact (finish chunk' stored).mpr bound
      · refine iff_of_false ?_ (fun bounds => inside bounds.1)
        rintro ⟨s', out, succeeds, -⟩
        rcases assembleFirst_ok_iff.mp succeeds with ⟨failed, -⟩ | ⟨s₂, again, below, -⟩
        · exact absurd (allocated.symm.trans failed) (by simp)
        · obtain rfl := Option.some.inj (allocated.symm.trans again)
          exact inside (index.mp below)

/-- A segment is handled without leaving a buffer exactly when it is in bounds. -/
theorem esMsgAssemble_fits_iff {env : AssembleEnv} {buf : List UInt8} {s : MsgState}
    (coherent : Coherent s) :
    Fits (esMsgAssemble env buf s) ↔ SegmentInBounds env buf s := by
  unfold esMsgAssemble SegmentInBounds
  split
  case isTrue empty => exact iff_of_true (fits_silent rfl) (.inl empty)
  case isFalse received =>
    simp only [received, false_or]
    split
    case isTrue short =>
      exact iff_of_false (fits_error _) (fun bounds => absurd bounds.1 (by omega))
    case isFalse long =>
      have header : headerBytes ≤ buf.length := by omega
      simp only [header, true_and]
      cases state : s.state with
      | disassemble => exact iff_of_true (fits_silent rfl) trivial
      | idle =>
          simp only
          split
          case isTrue refused =>
            exact iff_of_true (fits_silent rfl) (fun accepted => absurd refused accepted)
          case isFalse accepted =>
            simp only [accepted, not_false_eq_true, forall_const]
            exact assembleFirst_fits_iff coherent
      | assemble =>
          simp only
          split
          case isFalse other =>
            exact iff_of_true (fits_silent rfl) (fun continues => absurd continues other)
          case isTrue continues =>
            simp only [continues, forall_const]
            rw [← storeNext_fits_iff coherent state]
            cases storeNext buf (.ofBytes buf) s with
            | error fault => simpa using fits_error fault
            | ok s' => simp

namespace Coherent

theorem initial : Coherent .initial :=
  ⟨rfl, fun assembling => absurd assembling (by decide)⟩

theorem reset (s : MsgState) : Coherent s.reset :=
  ⟨rfl, fun assembling => absurd assembling (by simp)⟩

/-- The end of a segment leaves no completed message behind. -/
private theorem finishSegment {dup : Bool} {s : MsgState}
    (current : s.state = .assemble → s.dataIdx.toNat < s.chunks.length) :
    Coherent (finishSegment dup s).1 := by
  unfold Ble.finishSegment
  split
  case isFalse pending => exact ⟨by simpa using pending, current⟩
  case isTrue =>
    split
    case isTrue => exact ⟨rfl, fun assembling => absurd assembling (by simp)⟩
    case isFalse =>
      split
      · exact reset s
      · exact reset s

theorem esMsgAssemble {env : AssembleEnv} {buf : List UInt8} {s s' : MsgState}
    {out : AssembleOutput} (coherent : Coherent s)
    (assembled : esMsgAssemble env buf s = .ok (s', out)) : Coherent s' := by
  cases esMsgAssemble_cases assembled with
  | ignored => exact coherent
  | dropped => exact reset s
  | exhausted => exact reset _
  | @later chunk chunk' segment assembling =>
      refine finishSegment ?_
      intro _
      have inside := coherent.current assembling
      rwa [← List.length_set (a := chunk'), ← MsgState.setChunk_chunks] at inside
  | @first s₁ chunk dup received idle accepted array inside =>
      refine finishSegment ?_
      intro _
      rw [← List.length_set (a := chunk), ← MsgState.setChunk_chunks] at inside
      unfold afterFirst
      split <;> exact inside

end Coherent

/-- The invariant of the system, kept by every event. -/
theorem System.coherent_of_step {s t : System} {e : Event} (coherent : Coherent s.msg)
    (transition : s.step e t) : Coherent t.msg := by
  unfold System.step System.next at transition
  cases e with
  | segment env buf =>
      simp only [System.receive] at transition
      split at transition
      case h_1 => exact absurd transition (by simp)
      case h_2 msg out assembled =>
        have kept := coherent.esMsgAssemble assembled
        split at transition
        case h_1 =>
          obtain rfl := Except.ok.inj transition
          exact kept
        case h_2 =>
          split at transition
          · exact absurd transition (by simp)
          · obtain rfl := Except.ok.inj transition
            exact kept
  | resetTransferdata =>
      obtain rfl := Except.ok.inj transition
      exact .reset _
  | disassembleBegin env len cmd =>
      obtain rfl := Except.ok.inj transition
      rcases disassembleBegin_cases env len cmd s.msg with
        ⟨mtu, result, early⟩ | ⟨-, -, mtu, begun⟩
      · rw [early]
        exact ⟨coherent.completed, coherent.current⟩
      · rw [begun]
        exact ⟨coherent.completed, fun assembling => absurd assembling (by simp)⟩
  | disassembleEnd =>
      obtain rfl := Except.ok.inj transition
      exact ⟨coherent.completed, fun assembling => absurd assembling (by simp [disassembleEnd])⟩
  | process =>
      simp only at transition
      split at transition
      · exact absurd transition (by simp)
      · obtain rfl := Except.ok.inj transition
        exact coherent

/-- An event can be handled exactly when it is in bounds. -/
theorem System.step_enabled_iff {s : System} (coherent : Coherent s.msg) (e : Event) :
    (∃ t, s.step e t) ↔ InBounds s e := by
  cases e with
  | segment env buf =>
      exact System.receive_ok_iff.trans (esMsgAssemble_fits_iff coherent)
  | resetTransferdata => exact iff_of_true ⟨_, rfl⟩ trivial
  | disassembleBegin env len cmd => exact iff_of_true ⟨_, rfl⟩ trivial
  | disassembleEnd => exact iff_of_true ⟨_, rfl⟩ trivial
  | process =>
      simp only [System.step, System.next, InBounds, esProcessAcceptedConnection]
      cases pending : s.task.checkProcess with
      | false => simp
      | true =>
          have room : (∃ t', BleTask.store { s.task with checkProcess := false }
              s.task.writeCallbackLen [0] = .ok t') ↔
                s.task.writeCallbackLen + [(0 : UInt8)].length ≤ rxBufferMax :=
            BleTask.store_ok_iff
          simp only [if_true, forall_const]
          rw [Nat.lt_iff_add_one_le]
          refine Iff.trans ?_ room
          cases BleTask.store { s.task with checkProcess := false } s.task.writeCallbackLen [0] with
          | error fault => simp
          | ok task => simp

/-- Reassembly stays inside the received bytes, the array of chunks, the
reassembly buffers and `rx_buffer` exactly in the runs all of whose segments and
pick-ups are in bounds for the state they meet. -/
theorem runs_iff_inBounds (events : List Event) :
    (∃ t, Steps System.step .initial events t) ↔
      Along System.step InBounds .initial events := by
  refine exists_steps_iff_along (I := fun s => Coherent s.msg) ?_ ?_ ?_ Coherent.initial events
  · intro s e coherent
    exact s.step_enabled_iff coherent e
  · intro s e t t' first second
    exact Except.ok.inj (first.symm.trans second)
  · intro s e t coherent transition
    exact System.coherent_of_step coherent transition

/-- A segment of a single byte makes the code read the rest of the header behind
the received bytes. -/
theorem short_segment_faults :
    ¬ ∃ t, Steps System.step .initial [.segment ⟨23, true, some fun _ => 0⟩ [0]] t := by
  rintro ⟨t, run⟩
  cases run with
  | cons transition rest => exact absurd transition (by simp [System.step, System.next,
      System.receive, esMsgAssemble, headerBytes])

end StDevice.Easysetup.Ble
