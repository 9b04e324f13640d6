import StDevice.DumpLog.Dump

/-!
# What a log dump contains

Whatever the pieces are, the output is the encoding of all bytes so far but the last one or
two, which stand at the start of the scratch buffer (`Contains`). Each call of
`_iot_dump_copy_memory` for the header, for the state and for a piece of the log keeps this.

Two things go wrong. The zeros behind the last bytes are not encoded: the call that is to
do it copies from the place where the bytes left stand. And a log that has wrapped is read
from another place than its last bytes, unless its size divides the range of an
`unsigned int`.
-/

namespace StDevice.DumpLog

open LogFile

variable {d : Dump} {data block : List UInt8} {outputLogSize destSize : Nat} {src : Src}

/-! ## One copy -/

theorem base64Encode_eq {bytes : List UInt8} (nonempty : bytes ≠ [])
    (groups : bytes.length % 3 = 0) (room : bytes.length / 3 * 4 < destSize) :
    iotSecurityBase64Encode bytes destSize = some (Base64.encode bytes) := by
  rw [iotSecurityBase64Encode, if_neg, if_neg]
  · rw [if_neg (by omega)]
    omega
  · exact not_or.mpr ⟨nonempty, by omega⟩

private theorem read_eq {bytes : List UInt8} {offset len : Nat}
    (inside : offset + len ≤ bytes.length) :
    Buffer.read bytes offset len = some ((bytes.drop offset).take len) := if_pos inside

private theorem exists_write {buf bytes : List UInt8} {offset : Nat}
    (inside : offset + bytes.length ≤ buf.length) :
    ∃ buf', Buffer.write buf offset bytes = some buf' ∧ buf'.length = buf.length ∧
      buf'.take (offset + bytes.length) = buf.take offset ++ bytes := by
  obtain ⟨buf', written⟩ := Buffer.exists_write_iff.mpr inside
  exact ⟨buf', written, Buffer.length_of_write written, Buffer.take_of_write written⟩

/-- Steps 2 and 3 take what is left of the source. -/
theorem convertGroups_eq {buf : List UInt8} {preCopyLen count : Nat}
    (long : preCopyLen + count ≤ (src.bytes buf).length) (room : count / 3 * 4 < destSize)
    (scratch : 2 ≤ buf.length) :
    ∃ buf', convertGroups buf destSize src preCopyLen count =
        some (Base64.encode (((src.bytes buf).drop preCopyLen).take (count / 3 * 3)), buf',
          count % 3) ∧
      buf'.length = buf.length ∧
      buf'.take (count % 3) =
        ((src.bytes buf).drop (preCopyLen + count / 3 * 3)).take (count % 3) := by
  have rest := @read_eq (src.bytes buf) (preCopyLen + count / 3 * 3) (count % 3) (by omega)
  have restLength : (((src.bytes buf).drop (preCopyLen + count / 3 * 3)).take
      (count % 3)).length = count % 3 := by
    rw [List.length_take, List.length_drop]
    omega
  obtain ⟨buf', written, size, kept⟩ := @exists_write buf
    (((src.bytes buf).drop (preCopyLen + count / 3 * 3)).take (count % 3)) 0 (by omega)
  rw [restLength, List.take_zero, List.nil_append, Nat.zero_add] at kept
  have text : encodeGroups (src.bytes buf) preCopyLen (count / 3 * 3) destSize =
      some (Base64.encode (((src.bytes buf).drop preCopyLen).take (count / 3 * 3))) := by
    by_cases positive : count / 3 * 3 > 0
    · have mainLength : (((src.bytes buf).drop preCopyLen).take (count / 3 * 3)).length =
          count / 3 * 3 := by
        rw [List.length_take, List.length_drop]
        omega
      rw [encodeGroups, if_pos positive, read_eq (by omega)]
      refine base64Encode_eq ?_ (by omega) (by omega)
      exact List.ne_nil_of_length_pos (by omega)
    · have none : count / 3 * 3 = 0 := by omega
      rw [encodeGroups, if_neg positive, none]
      rfl
  refine ⟨buf', ?_, size, kept⟩
  simp only [convertGroups, getLargestMultiple, text, rest, written, Option.bind_eq_bind,
    Option.bind_some, Option.pure_def]

/-- Step 1 when bytes are left. -/
theorem fillGroup_eq {carry : List UInt8} (short : carry.length < 3) (nonempty : carry ≠ [])
    (remain : d.remainNumber = carry.length) (kept : d.tempBuf.take carry.length = carry)
    (scratch : 3 ≤ d.tempBuf.length) (long : 3 - carry.length ≤ (src.bytes d.tempBuf).length)
    (room : 4 < destSize) :
    ∃ buf, fillGroup d destSize src =
        some (Base64.encode (carry ++ (src.bytes d.tempBuf).take (3 - carry.length)),
          3 - carry.length, buf) ∧ buf.length = d.tempBuf.length := by
  have positive : 0 < carry.length := List.length_pos_iff.mpr nonempty
  have taken := @read_eq (src.bytes d.tempBuf) 0 (3 - carry.length) (by omega)
  have takenLength : ((src.bytes d.tempBuf).take (3 - carry.length)).length =
      3 - carry.length := by
    rw [List.length_take]
    omega
  obtain ⟨buf, written, size, group⟩ := @exists_write d.tempBuf
    ((src.bytes d.tempBuf).take (3 - carry.length)) carry.length (by omega)
  rw [takenLength, kept, show carry.length + (3 - carry.length) = 3 by omega] at group
  have three := @read_eq buf 0 3 (by omega)
  rw [List.drop_zero, group] at three
  obtain ⟨buf', cleared, size', -⟩ := @exists_write buf [0, 0, 0] 0 (by simp; omega)
  have text := @base64Encode_eq destSize
    (carry ++ (src.bytes d.tempBuf).take (3 - carry.length))
    (fun none => nonempty (List.append_eq_nil_iff.mp none).1)
    (by rw [List.length_append]; omega) (by rw [List.length_append]; omega)
  refine ⟨buf', ?_, by omega⟩
  rw [List.drop_zero] at taken
  rw [fillGroup, remain, if_pos positive]
  simp only [taken, written, three, text, cleared, Option.bind_eq_bind, Option.bind_some,
    Option.pure_def]

/-- Without bytes left, the groups of the source are converted. -/
theorem copy_whole {n : Nat} (free : d.remainNumber = 0) (scratch : d.tempBuf.length = bufferSize)
    (positive : 0 < n) (long : n ≤ (src.bytes d.tempBuf).length)
    (room : d.out.length + b64EncodeLen n ≤ outputLogSize) :
    ∃ d', iotDumpCopyMemory true outputLogSize src n d = some d' ∧
      d'.tempBuf.length = bufferSize ∧
      d'.out = d.out ++ Base64.encode ((src.bytes d.tempBuf).take (n / 3 * 3)) ∧
      d'.remainNumber = n % 3 ∧
      d'.tempBuf.take (n % 3) = ((src.bytes d.tempBuf).drop (n / 3 * 3)).take (n % 3) := by
  rw [b64EncodeLen] at room
  have fill : fillGroup d (outputLogSize - d.out.length) src = some ([], 0, d.tempBuf) := by
    rw [fillGroup, if_neg (by omega)]
    rfl
  obtain ⟨buf, convert, size, kept⟩ := @convertGroups_eq (outputLogSize - d.out.length) src
    d.tempBuf 0 n (by omega) (by omega) (by rw [scratch]; decide)
  rw [Nat.zero_add] at kept
  rw [List.drop_zero] at convert
  refine ⟨⟨_, buf, n % 3⟩, ?_, size.trans scratch, rfl, rfl, kept⟩
  have fits : ¬ n > outputLogSize - d.out.length := by omega
  rw [iotDumpCopyMemory, if_neg (by omega), if_pos rfl, fill]
  simp only [Option.bind_eq_bind, Option.bind_some, List.length_nil, Nat.sub_zero, if_neg fits,
    convert, List.nil_append, Option.pure_def]

/-- With bytes left, the first bytes of the block complete their group. -/
theorem copy_block {carry : List UInt8} (short : carry.length < 3) (nonempty : carry ≠ [])
    (remain : d.remainNumber = carry.length) (kept : d.tempBuf.take carry.length = carry)
    (scratch : d.tempBuf.length = bufferSize) (long : 3 - carry.length ≤ block.length)
    (room : d.out.length + b64EncodeLen (carry.length + block.length) ≤ outputLogSize) :
    ∃ d', iotDumpCopyMemory true outputLogSize (.block block) block.length d = some d' ∧
      d'.tempBuf.length = bufferSize ∧
      d'.out = d.out ++ (Base64.encode (carry ++ block.take (3 - carry.length)) ++
        Base64.encode ((block.drop (3 - carry.length)).take
          ((block.length - (3 - carry.length)) / 3 * 3))) ∧
      d'.remainNumber = (block.length - (3 - carry.length)) % 3 ∧
      d'.tempBuf.take ((block.length - (3 - carry.length)) % 3) =
        (block.drop (3 - carry.length + (block.length - (3 - carry.length)) / 3 * 3)).take
          ((block.length - (3 - carry.length)) % 3) := by
  rw [b64EncodeLen] at room
  have positive : 0 < carry.length := List.length_pos_iff.mpr nonempty
  obtain ⟨buf, fill, size⟩ := @fillGroup_eq d (outputLogSize - d.out.length) (.block block) carry
    short nonempty remain kept (by rw [scratch]; decide) long (by omega)
  have group : (Base64.encode (carry ++ block.take (3 - carry.length))).length = 4 := by
    rw [Base64.length_encode, List.length_append, List.length_take]
    omega
  obtain ⟨buf', convert, size', kept'⟩ := @convertGroups_eq (outputLogSize - d.out.length - 4)
    (.block block) buf (3 - carry.length) (block.length - (3 - carry.length))
    (show _ ≤ block.length by omega) (by omega) (by rw [size, scratch]; decide)
  refine ⟨⟨_, buf', _⟩, ?_, by rw [size', size, scratch], rfl, rfl, kept'⟩
  have fits : ¬ block.length > outputLogSize - d.out.length := by omega
  rw [iotDumpCopyMemory, if_neg (by omega), if_pos rfl, fill]
  simp only [Option.bind_eq_bind, Option.bind_some, Src.bytes, group, if_neg fits] at convert ⊢
  simp only [convert, Option.bind_some, Option.pure_def]

/-- A copy without conversion. -/
theorem copy_plain {n : Nat} (positive : 0 < n) (long : n ≤ (src.bytes d.tempBuf).length)
    (room : d.out.length + n ≤ outputLogSize) :
    iotDumpCopyMemory false outputLogSize src n d =
      some { d with out := d.out ++ (src.bytes d.tempBuf).take n } := by
  rw [iotDumpCopyMemory, if_neg (by omega), if_neg Bool.false_ne_true, if_neg (by omega),
    read_eq (by omega)]
  rfl

/-! ## What has been copied -/

theorem outputSize_mono (base64 : Bool) {m n : Nat} (le : m ≤ n) :
    outputSize base64 m ≤ outputSize base64 n := by
  cases base64 with
  | false => exact le
  | true =>
      simp only [outputSize, if_true, b64EncodeLen]
      omega

/-- The groups are in the output and the rest is in the scratch buffer. -/
structure Carries (front carry : List UInt8) (d : Dump) : Prop where
  groups : front.length % 3 = 0
  short : carry.length < 3
  out : d.out = Base64.encode front
  remain : d.remainNumber = carry.length
  kept : d.tempBuf.take carry.length = carry

/-- The bytes that have been copied so far. -/
def Contains (base64 : Bool) (data : List UInt8) (d : Dump) : Prop :=
  d.tempBuf.length = bufferSize ∧
    if base64 then ∃ front carry, data = front ++ carry ∧ Carries front carry d
    else d.out = data ∧ d.remainNumber = 0

private theorem take_split {bytes : List UInt8} {n : Nat} :
    bytes.take (n / 3 * 3) ++ (bytes.drop (n / 3 * 3)).take (n % 3) = bytes.take n := by
  rw [← List.take_add]
  congr 1
  omega

/-- Groups in the output and new bytes in the source. -/
theorem contains_of_whole {front : List UInt8} {n : Nat} (groups : front.length % 3 = 0)
    (out : d.out = Base64.encode front) (free : d.remainNumber = 0)
    (scratch : d.tempBuf.length = bufferSize) (positive : 0 < n)
    (long : n ≤ (src.bytes d.tempBuf).length)
    (room : b64EncodeLen (front.length + n) ≤ outputLogSize) :
    ∃ d', iotDumpCopyMemory true outputLogSize src n d = some d' ∧
      Contains true (front ++ (src.bytes d.tempBuf).take n) d' := by
  have length : d.out.length = front.length / 3 * 4 := by
    rw [out, Base64.length_encode]
    omega
  obtain ⟨d', copied, size, output, remain, kept⟩ := @copy_whole d outputLogSize src n free scratch
    positive long (by rw [b64EncodeLen] at room ⊢; omega)
  have mainLength : ((src.bytes d.tempBuf).take (n / 3 * 3)).length = n / 3 * 3 := by
    rw [List.length_take]
    omega
  have restLength : (((src.bytes d.tempBuf).drop (n / 3 * 3)).take (n % 3)).length = n % 3 := by
    rw [List.length_take, List.length_drop]
    omega
  refine ⟨d', copied, size, front ++ (src.bytes d.tempBuf).take (n / 3 * 3),
    ((src.bytes d.tempBuf).drop (n / 3 * 3)).take (n % 3), ?_, ?_⟩
  · rw [List.append_assoc, take_split]
  · refine ⟨?_, ?_, ?_, ?_, ?_⟩
    · rw [List.length_append]
      omega
    · omega
    · rw [output, out, Base64.encode_append groups]
    · rw [remain, restLength]
    · rw [restLength, kept]

/-- A block behind bytes that are left. -/
theorem contains_of_carry {front carry : List UInt8} (carries : Carries front carry d)
    (nonempty : carry ≠ []) (scratch : d.tempBuf.length = bufferSize)
    (long : 3 ≤ block.length)
    (room : b64EncodeLen (front.length + carry.length + block.length) ≤ outputLogSize) :
    ∃ d', iotDumpCopyMemory true outputLogSize (.block block) block.length d = some d' ∧
      Contains true (front ++ carry ++ block) d' := by
  have groups := carries.groups
  have short := carries.short
  have positive : 0 < carry.length := List.length_pos_iff.mpr nonempty
  have length : d.out.length = front.length / 3 * 4 := by
    rw [carries.out, Base64.length_encode]
    omega
  obtain ⟨pre, preEq⟩ : ∃ pre, pre = 3 - carry.length := ⟨_, rfl⟩
  obtain ⟨d', copied, size, output, remain, kept⟩ := @copy_block d block outputLogSize carry short
    nonempty carries.remain carries.kept scratch (by omega)
    (by rw [b64EncodeLen] at room ⊢; omega)
  rw [← preEq] at output remain kept
  obtain ⟨count, countEq⟩ : ∃ count, count = block.length - pre := ⟨_, rfl⟩
  rw [← countEq] at output remain kept
  rw [← List.drop_drop] at kept
  have group : (front ++ (carry ++ block.take pre)).length % 3 = 0 := by
    rw [List.length_append, List.length_append, List.length_take]
    omega
  have mainLength : ((block.drop pre).take (count / 3 * 3)).length = count / 3 * 3 := by
    rw [List.length_take, List.length_drop]
    omega
  have restLength : (((block.drop pre).drop (count / 3 * 3)).take (count % 3)).length =
      count % 3 := by
    rw [List.length_take, List.length_drop, List.length_drop]
    omega
  have all : (block.drop pre).take count = block.drop pre :=
    List.take_of_length_le (by rw [List.length_drop]; omega)
  refine ⟨d', copied, size, front ++ (carry ++ block.take pre) ++
    (block.drop pre).take (count / 3 * 3), ((block.drop pre).drop (count / 3 * 3)).take (count % 3),
    ?_, ?_⟩
  · rw [List.append_assoc _ (List.take _ _), take_split, all]
    simp only [List.append_assoc, List.take_append_drop]
  · refine ⟨?_, ?_, ?_, ?_, ?_⟩
    · rw [List.length_append]
      omega
    · omega
    · rw [output, carries.out, Base64.encode_append group, Base64.encode_append groups,
        List.append_assoc]
    · rw [remain, restLength]
    · rw [restLength, kept]

/-- A block is appended. -/
theorem Contains.append_block {base64 : Bool} (contains : Contains base64 data d)
    (long : 3 ≤ block.length)
    (room : outputSize base64 (data.length + block.length) ≤ outputLogSize) :
    ∃ d', iotDumpCopyMemory base64 outputLogSize (.block block) block.length d = some d' ∧
      Contains base64 (data ++ block) d' := by
  cases base64 with
  | false =>
      obtain ⟨scratch, rfl, free⟩ := contains
      refine ⟨_, copy_plain (by omega) (Nat.le_refl block.length) room, scratch, ?_, free⟩
      rw [Src.bytes, List.take_length]
  | true =>
      obtain ⟨scratch, front, carry, rfl, carries⟩ := contains
      rw [outputSize, if_pos rfl, List.length_append] at room
      by_cases empty : carry = []
      · subst empty
        obtain ⟨d', copied, contains⟩ := @contains_of_whole d outputLogSize (.block block) front
          block.length carries.groups carries.out carries.remain scratch (by omega)
          (Nat.le_refl block.length) room
        refine ⟨d', copied, ?_⟩
        rw [Src.bytes, List.take_length] at contains
        rw [List.append_nil]
        exact contains
      · exact contains_of_carry carries empty scratch long room

/-- A piece of the log is appended. It is read behind the bytes left. -/
theorem Contains.append_piece {base64 : Bool} (contains : Contains base64 data d)
    {piece : List UInt8} (nonempty : piece ≠ []) (fits : d.remainNumber + piece.length ≤ bufferSize)
    (room : outputSize base64 (data.length + piece.length) ≤ outputLogSize) :
    ∃ tempBuf d', Buffer.write d.tempBuf d.remainNumber piece = some tempBuf ∧
      iotDumpCopyMemory base64 outputLogSize .tempBuf (piece.length + d.remainNumber)
        { d with tempBuf, remainNumber := 0 } = some d' ∧
      Contains base64 (data ++ piece) d' := by
  have positive : 0 < piece.length := List.length_pos_iff.mpr nonempty
  have scratch := contains.1
  obtain ⟨tempBuf, written, size, start⟩ := @exists_write d.tempBuf piece d.remainNumber (by omega)
  cases base64 with
  | false =>
      obtain ⟨-, rfl, free⟩ := contains
      rw [free, List.take_zero, List.nil_append, Nat.zero_add] at start
      refine ⟨tempBuf, _, written, copy_plain (by omega) ?_ ?_, size.trans scratch, ?_, rfl⟩
      · exact show _ ≤ tempBuf.length by omega
      · rw [free]
        exact room
      · rw [Src.bytes, free, Nat.add_zero, start]
  | true =>
      obtain ⟨-, front, carry, rfl, carries⟩ := contains
      rw [outputSize, if_pos rfl, List.length_append] at room
      have remain := carries.remain
      rw [remain, carries.kept, Nat.add_comm, ← remain] at start
      obtain ⟨d', copied, contains⟩ := @contains_of_whole { d with tempBuf, remainNumber := 0 }
        outputLogSize .tempBuf front (piece.length + d.remainNumber) carries.groups carries.out rfl
        (size.trans scratch) (by omega) (show _ ≤ tempBuf.length by omega)
        (by rw [remain]; convert room using 2; omega)
      refine ⟨tempBuf, d', written, copied, ?_⟩
      rw [Src.bytes, start, ← List.append_assoc] at contains
      exact contains

theorem Contains.remain_lt {base64 : Bool} (contains : Contains base64 data d) :
    d.remainNumber < 3 := by
  cases base64 with
  | false => exact contains.2.2.symm ▸ Nat.zero_lt_succ 2
  | true =>
      obtain ⟨-, front, carry, -, carries⟩ := contains
      exact carries.remain.symm ▸ carries.short

/-- The loop appends the bytes from the place of the handle on. -/
theorem Contains.append_log {base64 : Bool} {readBytes : Nat → Nat → Option (List UInt8)}
    {handle : Handle} {cell : Nat → UInt8} {offset : Nat}
    (readable : Readable readBytes handle.startAddr handle.logSize cell)
    (here : handle.curAddr = handle.startAddr + offset) (inside : offset ≤ handle.logSize)
    {rounds count : Nat} (enough : count ≤ rounds) (total : count ≤ handle.logSize)
    (contains : Contains base64 data d)
    (room : outputSize base64 (data.length + count) ≤ outputLogSize) :
    ∃ d', copyLog readBytes base64 outputLogSize rounds handle count d = some d' ∧
      Contains base64 (data ++ Ring.window cell handle.logSize offset count) d' := by
  induction rounds generalizing handle offset count data d with
  | zero =>
      obtain rfl : count = 0 := by omega
      refine ⟨d, rfl, ?_⟩
      rw [show Ring.window cell handle.logSize offset 0 = [] from rfl, List.append_nil]
      exact contains
  | succ rounds ih =>
      cases count with
      | zero =>
          refine ⟨d, rfl, ?_⟩
          rw [show Ring.window cell handle.logSize offset 0 = [] from rfl, List.append_nil]
          exact contains
      | succ count =>
          have left := contains.remain_lt
          -- The size of this piece, and what it leaves for the other rounds.
          obtain ⟨n, nEq⟩ : ∃ n, n = if bufferSize - d.remainNumber > count + 1 then count + 1
            else bufferSize - d.remainNumber := ⟨_, rfl⟩
          have positive : 0 < n ∧ n ≤ count + 1 ∧ d.remainNumber + n ≤ bufferSize := by
            rw [nEq, bufferSize]
            split <;> omega
          obtain ⟨rest, restEq⟩ : ∃ rest, count + 1 = n + rest := ⟨count + 1 - n, by omega⟩
          have read := read_eq_window readable here inside (show n ≤ handle.logSize by omega)
          have length := Ring.window_length cell handle.logSize offset n
          have grown : data.length + n ≤ data.length + (count + 1) := by omega
          obtain ⟨tempBuf, d', written, copied, contains⟩ := @Contains.append_piece d data
            outputLogSize base64 contains (Ring.window cell handle.logSize offset n)
            (List.ne_nil_of_length_pos (by omega)) (by omega)
            (by rw [length]; exact Nat.le_trans (outputSize_mono base64 grown) room)
          rw [length] at copied
          have place : Ring.advance handle.logSize offset n ≤ handle.logSize := by
            rw [Ring.advance]
            split <;> omega
          obtain ⟨d'', others, contains⟩ := @ih d' _
            { handle with curAddr := handle.startAddr + Ring.advance handle.logSize offset n }
            _ readable rfl place rest (by omega) (show rest ≤ handle.logSize by omega) contains
            (by rw [List.length_append, length, Nat.add_assoc, ← restEq]; exact room)
          refine ⟨d'', ?_, ?_⟩
          · rw [copyLog, ← nEq, read]
            simp only [Option.bind_eq_bind, Option.bind_some, written, copied, length, restEq,
              Nat.add_sub_cancel_left, others]
          · rw [restEq, Ring.window_add inside (by omega), ← List.append_assoc]
            exact contains

/-! ## The end of the dump -/

/-- What is encoded behind the last bytes: the copy that is to add zeros takes the bytes left
themselves. -/
def padding (data : List UInt8) : List UInt8 :=
  ((data.drop (data.length / 3 * 3)) ++ [0, 0]).take ((3 - data.length % 3) % 3)

theorem length_padding (data : List UInt8) :
    (padding data).length = (3 - data.length % 3) % 3 := by
  rw [padding, List.length_take, List.length_append, List.length_drop]
  simp only [List.length_cons, List.length_nil]
  omega

/-- Without conversion nothing is left at the end. -/
theorem padGroup_plain (contains : Contains false data d) :
    padGroup false outputLogSize d = some d := by
  rw [padGroup, if_neg (by simp [contains.2.2])]

theorem padGroup_eq (contains : Contains true data d)
    (room : b64EncodeLen data.length ≤ outputLogSize) :
    ∃ d', padGroup true outputLogSize d = some d' ∧
      d'.out = Base64.encode (data ++ padding data) := by
  obtain ⟨scratch, front, carry, rfl, carries⟩ := contains
  have groups := carries.groups
  have short := carries.short
  have remain := carries.remain
  have length : d.out.length = front.length / 3 * 4 := by
    rw [carries.out, Base64.length_encode]
    omega
  have left : (front ++ carry).drop ((front ++ carry).length / 3 * 3) = carry := by
    rw [List.length_append, show (front.length + carry.length) / 3 * 3 = front.length by omega,
      List.drop_left]
  rw [b64EncodeLen, List.length_append] at room
  by_cases empty : carry = []
  · subst empty
    refine ⟨d, ?_, ?_⟩
    · rw [padGroup, if_neg (by rw [remain]; simp)]
    · rw [padding, left, List.append_nil, groups, carries.out]
      simp
  · have positive : 0 < carry.length := List.length_pos_iff.mpr empty
    obtain ⟨tempBuf, written, size, start⟩ := @exists_write d.tempBuf
      (List.replicate (3 - d.remainNumber) 0) d.remainNumber
      (by rw [List.length_replicate, scratch, bufferSize]; omega)
    rw [List.length_replicate, remain, carries.kept] at start
    have three : carry.length + (3 - carry.length) = 3 := by omega
    rw [three] at start
    have kept : tempBuf.take carry.length = carry := by
      have both := congrArg (List.take carry.length) start
      rwa [List.take_take, Nat.min_eq_left (by omega), List.take_left] at both
    -- The source of this copy is the scratch buffer itself, from its start on.
    have source : tempBuf.take (3 - carry.length) = (carry ++ [0, 0]).take (3 - carry.length) := by
      have both := congrArg (List.take (3 - carry.length)) start
      rw [List.take_take, Nat.min_eq_left (by omega)] at both
      rw [both]
      rcases (by omega : carry.length = 1 ∨ carry.length = 2) with one | two
      · rw [one]
        rfl
      · rw [two, List.take_append_of_le_length (by omega), List.take_append_of_le_length (by omega)]
    obtain ⟨buf, fill, size'⟩ := @fillGroup_eq { d with tempBuf } (outputLogSize - d.out.length)
      .tempBuf carry short empty remain kept (show 3 ≤ tempBuf.length by rw [size, scratch]; decide)
      (show _ ≤ tempBuf.length by rw [size, scratch, bufferSize]; omega) (by omega)
    rw [Src.bytes, source, remain] at fill
    have group : (carry ++ (carry ++ [0, 0]).take (3 - carry.length)).length = 3 := by
      rw [List.length_append, List.length_take, List.length_append]
      simp only [List.length_cons, List.length_nil]
      omega
    have size' : buf.length = bufferSize := (size'.trans size).trans scratch
    obtain ⟨buf', convert, -, -⟩ := @convertGroups_eq (outputLogSize - d.out.length - 4) .tempBuf
      buf (3 - carry.length) 0 (show _ ≤ buf.length by rw [size', bufferSize]; omega) (by omega)
      (by rw [size']; decide)
    have convert : convertGroups buf (outputLogSize - d.out.length - 4) .tempBuf
      (3 - carry.length) 0 = some ([], buf', 0) := convert
    have fits : ¬ 3 - carry.length > outputLogSize - d.out.length := by omega
    refine ⟨⟨d.out ++ Base64.encode (carry ++ (carry ++ [0, 0]).take (3 - carry.length)), buf', 0⟩,
      ?_, ?_⟩
    · rw [padGroup, if_pos (by omega), written, remain]
      simp only [Option.bind_eq_bind, Option.bind_some]
      rw [iotDumpCopyMemory, if_neg (by dsimp only; omega), if_pos rfl]
      simp only [fill, Option.bind_eq_bind, Option.bind_some, Base64.length_encode, group,
        if_neg fits, Nat.sub_self, Nat.reduceAdd, Nat.reduceDiv, Nat.reduceMul, convert,
        Option.pure_def, List.append_nil]
    · have filled : (3 - (front ++ carry).length % 3) % 3 = 3 - carry.length := by
        rw [List.length_append]
        omega
      rw [padding, left, filled, List.append_assoc, Base64.encode_append groups, carries.out]

end StDevice.DumpLog
