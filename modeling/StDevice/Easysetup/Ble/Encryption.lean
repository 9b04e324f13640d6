import Mathlib.Data.List.Forall2
import StDevice.Foundation.CString
import StDevice.Security.Cipher
import StDevice.Easysetup.Ble.Message
import StDevice.Easysetup.Ble.Onboarding

/-!
# Encrypted messages over BLE

`_iot_easysetup_ble_msg_encrypt` cuts a response into pieces that fit the three bytes of the
header with their padding, and encrypts each of them. The number of pieces is the quotient
plus one, so that a response of a whole number of pieces gets an empty one at the end, which
the cipher refuses.

The pieces are then handed to `es_msg_disassemble` one after the other. This function clears
the command it was called for, and returns without an error when it is called for another
one.
-/

namespace StDevice.Easysetup.Ble

open StDevice.Security StDevice.Security.Cipher
open Onboarding (Step)

/-- `payload_size_limit`. -/
def payloadSizeLimit : Nat := 0x00ffffff - 16

/-- The commands whose response is not encrypted. -/
def plainResponse : Step → Bool
  | .deviceinfo | .logGetDump => true
  | _ => false

inductive EncryptError where
  | invalidArgs | memAlloc
  | cipher (err : Cipher.Error)
  deriving DecidableEq, Repr

/-- What the calls come back with: the library for each piece, and the memory for the array
and the pieces. -/
structure EncryptPort where
  cipher : Nat → Cipher.Port
  mallocArray : Bool
  mallocPiece : Nat → Bool

/-- The bytes of one piece. The products have the 32 bits of `payload_size_limit`. -/
def pieceOf (payload : List UInt8) (payloadLen idx : Nat) : Fallible EncryptError (List UInt8) :=
  let offset := idx * payloadSizeLimit % 2 ^ 32
  let len :=
    if (idx + 1) * payloadSizeLimit % 2 ^ 32 < payloadLen then payloadSizeLimit
    else payloadLen - offset
  if offset + len ≤ payload.length then .done ((payload.drop offset).take len) else .stopped

/-- The body of the loop for a response that is not encrypted. The check behind the allocation
looks at another pointer, so that the copy goes to NULL when there is no memory. -/
def copyPiece (port : EncryptPort) (idx : Nat) (piece : List UInt8) :
    Fallible EncryptError Buffer :=
  if port.mallocPiece idx = false ∧ piece ≠ [] then .stopped else .done ⟨piece, piece.length⟩

/-- The body of the loop for a response that is encrypted. -/
def encryptPiece (port : EncryptPort) (context : SecurityContext) (idx : Nat)
    (piece : List UInt8) : Fallible EncryptError Buffer :=
  match iotSecurityCipherAesEncrypt (port.cipher idx) context piece with
  | .stopped => .stopped
  | .failed err => .failed (.cipher err)
  | .done buffer => .done buffer

/-- `_iot_easysetup_ble_msg_encrypt`, given the memory at `payload`. -/
def msgEncrypt (port : EncryptPort) (context : SecurityContext) (cmd : Step)
    (payload : List UInt8) (payloadLen : Nat) : Fallible EncryptError (List Buffer) :=
  if context.cipherParams.isNone then .failed .invalidArgs
  else do
    let payloadLen := if payloadLen = 0 then (CString.cstr payload).length else payloadLen
    let bufLen := payloadLen / payloadSizeLimit + 1
    .require port.mallocArray .memAlloc
    Fallible.collect bufLen 0 fun idx => pieceOf payload payloadLen idx >>= fun piece =>
      if plainResponse cmd = true then copyPiece port idx piece
      else encryptPiece port context idx piece

/-- The errors of `_iot_easysetup_ble_msg_decrypt`. -/
inductive DecryptError where
  | internalServerError | memAlloc | aes256Decryption
  deriving DecidableEq, Repr

/-- `_iot_easysetup_ble_msg_decrypt`: the bytes at `out_msg`. -/
def msgDecrypt (port : Cipher.Port) (malloc : Bool) (context : SecurityContext) (cmd : Step)
    (encryptMsg : List UInt8) : Fallible DecryptError (List UInt8) :=
  if cmd.plain = true then .done encryptMsg
  else if context.cipherParams.isNone ∨ encryptMsg = [] then .failed .internalServerError
  else do
    .require malloc .memAlloc
    let plainBuf ← (iotSecurityCipherAesDecrypt port context encryptMsg).withError
      .aes256Decryption
    pure plainBuf.cells

/-- The end of `iot_easysetup_ble_msg_handler`: the indications that each piece is sent in.
The number of pieces that follow goes into a byte. -/
def sendPieces (env : Nat → DisassembleEnv) (cmd : Int) :
    List (List UInt8) → MsgState → Option (MsgState × List (List (List UInt8)))
  | [], s => some (s, [])
  | piece :: pieces, s => do
      let (s₁, _, sent) ←
        esMsgDisassemble (env pieces.length) piece (UInt8.ofNat pieces.length) cmd s
      let (s₂, more) ← sendPieces env cmd pieces s₁
      pure (s₂, sent :: more)

/-! ## Pieces -/

/-- The pieces of a response: as many as fit, and what is left. -/
def pieces (data : List UInt8) : List (List UInt8) :=
  (List.range' 0 (data.length / payloadSizeLimit + 1)).map fun idx =>
    (data.drop (idx * payloadSizeLimit)).take payloadSizeLimit

theorem flatten_range' (size count : Nat) (data : List UInt8) :
    ((List.range' 0 count).map fun idx => (data.drop (idx * size)).take size).flatten =
      data.take (count * size) := by
  induction count with
  | zero => rw [Nat.zero_mul, List.take_zero, List.range'_zero, List.map_nil, List.flatten_nil]
  | succ count ih =>
      rw [List.range'_1_concat, List.map_append, List.flatten_append, ih, Nat.zero_add,
        List.map_singleton, List.flatten_singleton, Nat.add_mul, Nat.one_mul, List.take_add]

theorem flatten_pieces (data : List UInt8) : (pieces data).flatten = data := by
  rw [pieces, flatten_range', List.take_of_length_le]
  rw [payloadSizeLimit]
  omega

/-- The response in its memory: what `payload_len` says, or the text if it says nothing. -/
def responseOf (payload : List UInt8) (payloadLen : Nat) : List UInt8 :=
  payload.take (if payloadLen = 0 then (CString.cstr payload).length else payloadLen)

section Encrypting

variable {port : EncryptPort} {context : SecurityContext} {cmd : Step}
variable {payload key iv : List UInt8} {payloadLen idx : Nat}

/-- The products do not wrap for a response of less than four gigabytes. -/
theorem pieceOf_eq (short : payloadLen < 256 * payloadSizeLimit)
    (inside : payloadLen ≤ payload.length) (numbered : idx ≤ payloadLen / payloadSizeLimit) :
    pieceOf payload payloadLen idx =
      .done (((payload.take payloadLen).drop (idx * payloadSizeLimit)).take payloadSizeLimit) := by
  have limit : payloadSizeLimit = 16777199 := rfl
  rw [limit] at short numbered ⊢
  have before : idx * 16777199 ≤ payloadLen := by omega
  have next : (idx + 1) * 16777199 = idx * 16777199 + 16777199 := Nat.succ_mul idx 16777199
  have offset : idx * 16777199 % 2 ^ 32 = idx * 16777199 := Nat.mod_eq_of_lt (by omega)
  have following : (idx + 1) * 16777199 % 2 ^ 32 = (idx + 1) * 16777199 :=
    Nat.mod_eq_of_lt (by omega)
  have len : (if (idx + 1) * 16777199 < payloadLen then 16777199
      else payloadLen - idx * 16777199) = min 16777199 (payloadLen - idx * 16777199) := by
    by_cases more : (idx + 1) * 16777199 < payloadLen
    · rw [if_pos more, Nat.min_eq_left (by omega)]
    · rw [if_neg more, Nat.min_eq_right (by omega)]
  have fits : idx * 16777199 + min 16777199 (payloadLen - idx * 16777199) ≤ payload.length := by
    have least := Nat.min_le_right 16777199 (payloadLen - idx * 16777199)
    calc idx * 16777199 + min 16777199 (payloadLen - idx * 16777199)
        ≤ idx * 16777199 + (payloadLen - idx * 16777199) := Nat.add_le_add_left least _
      _ = payloadLen := Nat.add_sub_of_le before
      _ ≤ payload.length := inside
  rw [pieceOf, limit, offset, following, len, if_pos fits, List.drop_take, List.take_take]

theorem pieceOf_last (short : payloadLen < 256 * payloadSizeLimit)
    (inside : payloadLen ≤ payload.length) (whole : payloadLen % payloadSizeLimit = 0) :
    pieceOf payload payloadLen (payloadLen / payloadSizeLimit) = .done [] := by
  rw [pieceOf_eq short inside (Nat.le_refl _), Nat.div_mul_cancel (Nat.dvd_of_mod_eq_zero whole),
    List.drop_of_length_le (List.length_take_le ..), List.take_nil]

/-- Every call succeeds, and the library has one cipher. -/
structure EncryptPort.Succeeds (port : EncryptPort) (key : List UInt8)
    (aes : Equiv.Perm (BlockCipher.Block blockSize)) : Prop where
  works : ∀ idx, (port.cipher idx).works = true
  aligns : ∀ idx, (port.cipher idx).alignSetup = true
  cipher : ∀ idx, (port.cipher idx).aes256 key = aes
  array : port.mallocArray = true
  pieces : ∀ idx, port.mallocPiece idx = true

variable {aes : Equiv.Perm (BlockCipher.Block blockSize)}

/-- The encryption of one piece. -/
def sealed (aes : Equiv.Perm (BlockCipher.Block blockSize)) (iv piece : List UInt8) : Buffer :=
  let message := BlockCipher.encrypt aes (firstBlock iv) piece
  ⟨message, message.length⟩

theorem encryptPiece_eq {piece : List UInt8} (succeeds : port.Succeeds key aes)
    (holds : context.Holds true key iv) (given : piece ≠ []) :
    encryptPiece port context idx piece = .done (sealed aes iv piece) := by
  have encrypts := iotSecurityCipherAesEncrypt_eq (succeeds.works idx) holds given
  rw [if_pos (succeeds.aligns idx), sealing, succeeds.cipher idx] at encrypts
  rw [encryptPiece, encrypts, sealed]

theorem encryptPiece_nil (holds : context.Holds true key iv) :
    encryptPiece port context idx [] = .failed (.cipher .invalidArgs) := by
  obtain ⟨encrypts, decrypts, entry, -⟩ := holds.backend
  rw [encryptPiece, iotSecurityCipherAesEncrypt, iotSecurityCipherAes, entry]
  rfl

/-- A response is encrypted piece by piece, unless the last one is empty. -/
theorem msgEncrypt_eq (succeeds : port.Succeeds key aes) (holds : context.Holds true key iv)
    (encrypted : plainResponse cmd = false) (inside : payloadLen ≤ payload.length)
    (short : (responseOf payload payloadLen).length < 256 * payloadSizeLimit) :
    msgEncrypt port context cmd payload payloadLen =
      if (responseOf payload payloadLen).length % payloadSizeLimit = 0 then
        .failed (.cipher .invalidArgs)
      else .done ((pieces (responseOf payload payloadLen)).map (sealed aes iv)) := by
  have given : context.cipherParams.isNone = false := by rw [holds.params]; rfl
  have enough : (if payloadLen = 0 then (CString.cstr payload).length else payloadLen) ≤
      payload.length := by
    split
    · rw [CString.cstr]
      exact (List.takeWhile_sublist _).length_le
    · exact inside
  have size : (responseOf payload payloadLen).length =
      if payloadLen = 0 then (CString.cstr payload).length else payloadLen := by
    rw [responseOf, List.length_take, Nat.min_eq_left enough]
  simp only [msgEncrypt, given, Bool.false_eq_true, if_false, succeeds.array, Fallible.require,
    if_true, Fallible.done_bind, encrypted, pieces]
  rw [size] at short ⊢
  rw [responseOf]
  generalize (if payloadLen = 0 then (CString.cstr payload).length else payloadLen) = len at *
  have each (idx : Nat) (numbered : idx ≤ len / payloadSizeLimit)
      (more : idx * payloadSizeLimit < len) :
      (pieceOf payload len idx >>= fun piece => encryptPiece port context idx piece) =
        .done (sealed aes iv (((payload.take len).drop (idx * payloadSizeLimit)).take
          payloadSizeLimit)) := by
    rw [pieceOf_eq short enough numbered, Fallible.done_bind]
    apply encryptPiece_eq succeeds holds
    apply List.ne_nil_of_length_pos
    rw [List.length_take, List.length_drop, List.length_take, Nat.min_eq_left enough,
      payloadSizeLimit] at *
    omega
  split
  case isTrue whole =>
    apply Fallible.collect_eq_failed (g := fun idx => sealed aes iv
      (((payload.take len).drop (idx * payloadSizeLimit)).take payloadSizeLimit))
    · intro idx low high
      apply each idx
      · omega
      · rw [payloadSizeLimit] at *
        omega
    · rw [Nat.zero_add, pieceOf_last short enough whole, Fallible.done_bind]
      exact encryptPiece_nil holds
  case isFalse rest =>
    rw [List.map_map]
    apply Fallible.collect_eq_done
    intro idx low high
    apply each idx
    · omega
    · rw [payloadSizeLimit] at *
      omega

end Encrypting

/-! ## Reading the pieces -/

/-- A peer with the key reads the response from the pieces. -/
def ReadAs (receiver : Cipher.Port) (incoming : SecurityContext) (buffers : List Buffer)
    (data : List UInt8) : Prop :=
  ∃ plains : List (List UInt8), plains.flatten = data ∧
    List.Forall₂ (fun buffer plain =>
      iotSecurityCipherAesDecrypt receiver incoming buffer.cells = .done (opened plain))
      buffers plains

/-- A padded piece fits the three bytes of its length. -/
theorem length_sealed (aes : Equiv.Perm (BlockCipher.Block blockSize)) {piece : List UInt8}
    (iv : List UInt8) (fits : piece.length ≤ payloadSizeLimit) :
    (sealed aes iv piece).len < 2 ^ 24 := by
  rw [sealed]
  dsimp only
  rw [BlockCipher.length_encrypt, blockSize, payloadSizeLimit] at *
  omega

def plainEncryptPort : EncryptPort := ⟨fun _ => plainPort, true, fun _ => true⟩

theorem plainEncryptPort_succeeds (key : List UInt8) :
    plainEncryptPort.Succeeds key (plainPort.aes256 key) where
  works _ := rfl
  aligns _ := rfl
  cipher _ := rfl
  array := rfl
  pieces _ := rfl

/-- A call that sends anything clears the command. -/
theorem cmdNum_of_sent {env : DisassembleEnv} {piece : List UInt8} {continued : UInt8} {cmd : Int}
    {s t : MsgState} {result : DisassembleResult} {sent : List (List UInt8)}
    (returns : esMsgDisassemble env piece continued cmd s = some (t, result, sent))
    (some_sent : sent ≠ []) : t.cmdNum = 0 := by
  rw [esMsgDisassemble] at returns
  split at returns
  case h_1 =>
    obtain ⟨-, -, rfl⟩ := Option.some.inj returns
    exact absurd rfl some_sent
  case h_2 =>
    obtain ⟨loop, -, same⟩ := Option.map_eq_some_iff.mp returns
    rw [← (Prod.mk.inj same).1]
    rfl

/-- Without its command a call does nothing. -/
theorem esMsgDisassemble_cleared {env : DisassembleEnv} {piece : List UInt8} {continued : UInt8}
    {cmd : Int} {s : MsgState} (cleared : s.cmdNum = 0) (other : cmd - 1 ≠ setupcompleteResponse)
    (numbered : cmd ≠ 0) :
    ∃ result, esMsgDisassemble env piece continued cmd s = some (s, result, []) := by
  rw [esMsgDisassemble, disassembleBegin]
  by_cases empty : piece.length = 0
  · rw [if_pos empty]
    exact ⟨_, rfl⟩
  · have different : cmd ≠ s.cmdNum.toNat := by
      rw [cleared]
      exact numbered
    rw [if_neg empty, if_pos ⟨other, different⟩]
    exact ⟨_, rfl⟩

/-- The indications of the pieces that were sent at all. -/
def sentPieces (sent : List (List (List UInt8))) : List (List (List UInt8)) :=
  sent.filter fun indications => indications ≠ []

section Sending

variable {env : Nat → DisassembleEnv} {cmd : Int} {s t : MsgState}
variable {sent : List (List (List UInt8))}

/-- A response is sent piece by piece. -/
theorem sendPieces_cons {piece : List UInt8} {ps : List (List UInt8)}
    (returns : sendPieces env cmd (piece :: ps) s = some (t, sent)) :
    ∃ s₁ result indications more,
      esMsgDisassemble (env ps.length) piece (UInt8.ofNat ps.length) cmd s =
        some (s₁, result, indications) ∧
      sendPieces env cmd ps s₁ = some (t, more) ∧ sent = indications :: more := by
  rw [sendPieces] at returns
  obtain ⟨⟨s₁, result, indications⟩, first, returns⟩ := Option.bind_eq_some_iff.mp returns
  obtain ⟨⟨t', more⟩, rest, same⟩ := Option.bind_eq_some_iff.mp returns
  obtain ⟨rfl, rfl⟩ := Prod.mk.inj (Option.some.inj same)
  exact ⟨s₁, result, indications, more, first, rest, rfl⟩

/-- Behind a piece that was sent none is. -/
theorem sentPieces_of_cleared {ps : List (List UInt8)} (cleared : s.cmdNum = 0)
    (other : cmd - 1 ≠ setupcompleteResponse) (numbered : cmd ≠ 0)
    (returns : sendPieces env cmd ps s = some (t, sent)) : sentPieces sent = [] := by
  induction ps generalizing t sent with
  | nil =>
      obtain ⟨-, rfl⟩ := Prod.mk.inj (Option.some.inj returns)
      rfl
  | cons piece ps ih =>
      obtain ⟨s₁, result, indications, more, first, rest, rfl⟩ := sendPieces_cons returns
      obtain ⟨result', nothing⟩ :=
        @esMsgDisassemble_cleared (env ps.length) piece (UInt8.ofNat ps.length) cmd s cleared
          other numbered
      obtain ⟨rfl, same⟩ := Prod.mk.inj (Option.some.inj (first.symm.trans nothing))
      obtain ⟨-, rfl⟩ := Prod.mk.inj same
      rw [sentPieces, List.filter_cons_of_neg (by simp)]
      exact ih rest

end Sending

/-- A sender that waits to answer the third command, over a port that takes everything. -/
def answering : MsgState := { MsgState.initial with cmdNum := 3, transactionId := 7 }

end StDevice.Easysetup.Ble
