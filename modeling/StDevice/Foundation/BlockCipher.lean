import Mathlib.Algebra.Ring.Nat
import Mathlib.Data.List.GetD
import Mathlib.Data.List.OfFn
import Mathlib.Logic.Equiv.Defs

/-!
# Messages under a block cipher

A block cipher is a permutation of the blocks. Cipher block chaining makes of it a
permutation of the sequences of blocks, and the padding of PKCS 7 an injection of the texts
into the sequences that are not empty. Both are undone from the ciphertext alone, so the
texts that can be decrypted are the encryptions, each of one plaintext
(`decrypt_eq_some_iff`).
-/

namespace BlockCipher

/-- A block of bytes. -/
abbrev Block (n : Nat) := Fin n → UInt8

variable {n : Nat}

/-! ## Blocks of a text -/

/-- The first blocks of a text. -/
def blocks (n : Nat) : Nat → List UInt8 → List (Block n)
  | 0, _ => []
  | count + 1, text => (fun i => text.getD i 0) :: blocks n count (text.drop n)

def bytes (bs : List (Block n)) : List UInt8 := bs.flatMap List.ofFn

@[simp] theorem bytes_nil : bytes ([] : List (Block n)) = [] := rfl

@[simp] theorem bytes_cons (b : Block n) (bs : List (Block n)) :
    bytes (b :: bs) = List.ofFn b ++ bytes bs := rfl

theorem length_bytes (bs : List (Block n)) : (bytes bs).length = bs.length * n := by
  induction bs with
  | nil => rw [bytes_nil, List.length_nil, List.length_nil, Nat.zero_mul]
  | cons b bs ih =>
      rw [bytes_cons, List.length_append, List.length_ofFn, ih, List.length_cons, Nat.add_mul,
        Nat.one_mul, Nat.add_comm]

theorem length_blocks (count : Nat) (text : List UInt8) :
    (blocks n count text).length = count := by
  induction count generalizing text with
  | zero => rfl
  | succ count ih => rw [blocks, List.length_cons, ih]

theorem ofFn_getD {text : List UInt8} (long : n ≤ text.length) :
    List.ofFn (fun i : Fin n => text.getD i 0) = text.take n := by
  apply List.ext_getElem
  · rw [List.length_ofFn, List.length_take, Nat.min_eq_left long]
  · intro i first second
    rw [List.length_ofFn] at first
    rw [List.getElem_ofFn, List.getElem_take, List.getD_eq_getElem _ _ (by omega)]

theorem bytes_blocks {count : Nat} {text : List UInt8} (whole : text.length = count * n) :
    bytes (blocks n count text) = text := by
  induction count generalizing text with
  | zero =>
      rw [Nat.zero_mul] at whole
      rw [List.length_eq_zero_iff.mp whole]
      rfl
  | succ count ih =>
      have size : text.length = count * n + n := by rw [whole, Nat.add_mul, Nat.one_mul]
      have rest : (text.drop n).length = count * n := by
        rw [List.length_drop, size, Nat.add_sub_cancel]
      rw [blocks, bytes_cons, ofFn_getD (by omega), ih rest, List.take_append_drop]

theorem blocks_bytes (bs : List (Block n)) : blocks n bs.length (bytes bs) = bs := by
  induction bs with
  | nil => rfl
  | cons b bs ih =>
      have behind : (List.ofFn b ++ bytes bs).drop n = bytes bs := by
        apply List.drop_left'
        exact List.length_ofFn
      rw [List.length_cons, bytes_cons, blocks, behind, ih]
      congr 1
      funext i
      have inside : (i : Nat) < (List.ofFn b).length := by
        rw [List.length_ofFn]
        exact i.isLt
      rw [List.getD_append _ _ _ _ inside, List.getD_eq_getElem _ _ inside, List.getElem_ofFn]

/-! ## Chaining -/

def mix (p q : Block n) : Block n := fun i => p i ^^^ q i

theorem mix_mix (p q : Block n) : mix (mix p q) q = p := by
  funext i
  rw [mix, mix, UInt8.xor_assoc, UInt8.xor_self, UInt8.xor_zero]

variable (cipher : Equiv.Perm (Block n))

/-- Each block is mixed with the encryption of the block before it. -/
def encryptBlocks (iv : Block n) : List (Block n) → List (Block n)
  | [] => []
  | plain :: rest => cipher (mix plain iv) :: encryptBlocks (cipher (mix plain iv)) rest

def decryptBlocks (iv : Block n) : List (Block n) → List (Block n)
  | [] => []
  | coded :: rest => mix (cipher.symm coded) iv :: decryptBlocks coded rest

theorem decryptBlocks_encryptBlocks (iv : Block n) (bs : List (Block n)) :
    decryptBlocks cipher iv (encryptBlocks cipher iv bs) = bs := by
  induction bs generalizing iv with
  | nil => rfl
  | cons plain rest ih =>
      rw [encryptBlocks, decryptBlocks, Equiv.symm_apply_apply, mix_mix, ih]

theorem encryptBlocks_decryptBlocks (iv : Block n) (bs : List (Block n)) :
    encryptBlocks cipher iv (decryptBlocks cipher iv bs) = bs := by
  induction bs generalizing iv with
  | nil => rfl
  | cons coded rest ih =>
      rw [decryptBlocks, encryptBlocks, mix_mix, Equiv.apply_symm_apply, ih]

theorem length_encryptBlocks (iv : Block n) (bs : List (Block n)) :
    (encryptBlocks cipher iv bs).length = bs.length := by
  induction bs generalizing iv with
  | nil => rfl
  | cons plain rest ih => rw [encryptBlocks, List.length_cons, ih, List.length_cons]

theorem length_decryptBlocks (iv : Block n) (bs : List (Block n)) :
    (decryptBlocks cipher iv bs).length = bs.length := by
  induction bs generalizing iv with
  | nil => rfl
  | cons coded rest ih => rw [decryptBlocks, List.length_cons, ih, List.length_cons]

/-! ## Padding -/

/-- At least one byte is added, and at most a block. -/
def padLen (n size : Nat) : Nat := n - size % n

def pad (n : Nat) (text : List UInt8) : List UInt8 :=
  text ++ List.replicate (padLen n text.length) (UInt8.ofNat (padLen n text.length))

/-- The last byte says how many bytes are padding, and all of them have its value. -/
def unpad (n : Nat) (text : List UInt8) : Option (List UInt8) :=
  let last := text.getLastD 0
  if last = 0 ∨ n < last.toNat ∨
      text.drop (text.length - last.toNat) ≠ List.replicate last.toNat last then none
  else some (text.take (text.length - last.toNat))

theorem padLen_pos (positive : 0 < n) (size : Nat) : 0 < padLen n size :=
  Nat.sub_pos_of_lt (Nat.mod_lt _ positive)

theorem padLen_le (n size : Nat) : padLen n size ≤ n := Nat.sub_le _ _

theorem add_padLen (positive : 0 < n) (size : Nat) :
    size + padLen n size = (size / n + 1) * n := by
  have below := Nat.mod_lt size positive
  have parts := Nat.div_add_mod' size n
  rw [padLen, Nat.add_mul, Nat.one_mul]
  omega

theorem length_pad (positive : 0 < n) (text : List UInt8) :
    (pad n text).length = (text.length / n + 1) * n := by
  rw [pad, List.length_append, List.length_replicate, add_padLen positive]

theorem toNat_padLen (small : n < 256) (size : Nat) :
    (UInt8.ofNat (padLen n size)).toNat = padLen n size := by
  rw [UInt8.toNat_ofNat']
  exact Nat.mod_eq_of_lt (Nat.lt_of_le_of_lt (padLen_le n size) small)

/-- The padding added is the padding removed. -/
theorem unpad_pad (positive : 0 < n) (small : n < 256) (text : List UInt8) :
    unpad n (pad n text) = some text := by
  have added := padLen_pos positive text.length
  have value := toNat_padLen small text.length
  have last : (pad n text).getLastD 0 = UInt8.ofNat (padLen n text.length) := by
    obtain ⟨k, more⟩ := Nat.exists_eq_succ_of_ne_zero (Nat.ne_of_gt added)
    rw [pad, more, List.replicate_succ', ← List.append_assoc, List.getLastD_concat]
  have front : (pad n text).length - padLen n text.length = text.length := by
    rw [pad, List.length_append, List.length_replicate, Nat.add_sub_cancel]
  simp only [unpad, last, value, front]
  rw [if_neg, pad, List.take_left]
  rintro (zero | long | other)
  · rw [zero] at value
    exact Nat.ne_of_gt added value.symm
  · exact Nat.not_lt.mpr (padLen_le n _) long
  · apply other
    rw [pad, List.drop_left]

/-- Of the texts made of whole blocks, the padded ones pass the check. -/
theorem pad_of_unpad {text plain : List UInt8} (whole : n ∣ text.length)
    (accepted : unpad n text = some plain) : text = pad n plain := by
  simp only [unpad] at accepted
  generalize text.getLastD 0 = last at accepted
  split at accepted
  case isTrue => cases accepted
  case isFalse passed =>
    obtain ⟨nonzero, passed⟩ := not_or.mp passed
    obtain ⟨short, same⟩ := not_or.mp passed
    have positive : 0 < last.toNat := by
      apply Nat.pos_of_ne_zero
      intro zero
      exact nonzero (UInt8.toNat_inj.mp zero)
    have same := not_not.mp same
    have fits : last.toNat ≤ text.length := by
      have counted := congrArg List.length same
      rw [List.length_drop, List.length_replicate] at counted
      omega
    have size : plain.length + last.toNat = text.length := by
      rw [← Option.some.inj accepted, List.length_take]
      omega
    have added : padLen n plain.length = last.toNat := by
      obtain ⟨count, whole⟩ := whole
      have remainder : plain.length % n = n - last.toNat ∨
          last.toNat = n ∧ plain.length % n = 0 := by
        rcases Nat.lt_or_eq_of_le (Nat.not_lt.mp short) with less | equal
        · refine .inl ?_
          obtain ⟨before, rfl⟩ := Nat.exists_eq_succ_of_ne_zero (n := count) (by
            rintro rfl
            omega)
          have split : plain.length = (n - last.toNat) + n * before := by
            rw [Nat.mul_succ] at whole
            omega
          rw [split, Nat.add_mul_mod_self_left, Nat.mod_eq_of_lt (by omega)]
        · refine .inr ⟨equal, ?_⟩
          rw [whole, equal] at size
          exact (Nat.dvd_iff_mod_eq_zero ..).mp
            ((Nat.dvd_add_left (Nat.dvd_refl n)).mp ⟨count, size⟩)
      rw [padLen]
      omega
    rw [pad, added, UInt8.ofNat_toNat, ← same, ← Option.some.inj accepted,
      List.take_append_drop]

/-! ## Messages -/

/-- The encryption of a text. -/
def encrypt (iv : Block n) (text : List UInt8) : List UInt8 :=
  bytes (encryptBlocks cipher iv (blocks n (text.length / n + 1) (pad n text)))

/-- The decryption of a text. At least one block is expected, and no part of one. -/
def decrypt (iv : Block n) (text : List UInt8) : Option (List UInt8) :=
  if text = [] ∨ text.length % n ≠ 0 then none
  else unpad n (bytes (decryptBlocks cipher iv (blocks n (text.length / n) text)))

theorem length_encrypt (iv : Block n) (text : List UInt8) :
    (encrypt cipher iv text).length = (text.length / n + 1) * n := by
  rw [encrypt, length_bytes, length_encryptBlocks, length_blocks]

theorem encrypt_ne_nil (positive : 0 < n) (iv : Block n) (text : List UInt8) :
    encrypt cipher iv text ≠ [] := by
  apply List.ne_nil_of_length_pos
  rw [length_encrypt]
  exact Nat.mul_pos (Nat.succ_pos _) positive

theorem decrypt_encrypt (positive : 0 < n) (small : n < 256) (iv : Block n)
    (text : List UInt8) : decrypt cipher iv (encrypt cipher iv text) = some text := by
  have size := length_encrypt cipher iv text
  have padded : bytes (blocks n (text.length / n + 1) (pad n text)) = pad n text :=
    bytes_blocks (length_pad positive text)
  have coded : blocks n (text.length / n + 1) (encrypt cipher iv text) =
      encryptBlocks cipher iv (blocks n (text.length / n + 1) (pad n text)) := by
    have again := blocks_bytes (encryptBlocks cipher iv
      (blocks n (text.length / n + 1) (pad n text)))
    rwa [length_encryptBlocks, length_blocks] at again
  rw [decrypt, if_neg, size, Nat.mul_div_cancel _ positive, coded,
    decryptBlocks_encryptBlocks, padded, unpad_pad positive small]
  rintro (empty | part)
  · exact encrypt_ne_nil cipher positive iv text empty
  · apply part
    rw [size, Nat.mul_mod_left]

/-- What can be decrypted is an encryption. -/
theorem encrypt_of_decrypt (positive : 0 < n) {iv : Block n} {text plain : List UInt8}
    (decrypted : decrypt cipher iv text = some plain) : text = encrypt cipher iv plain := by
  rw [decrypt] at decrypted
  split at decrypted
  case isTrue => cases decrypted
  case isFalse passed =>
    have whole : text.length = text.length / n * n :=
      (Nat.div_mul_cancel (Nat.dvd_of_mod_eq_zero
        (not_not.mp (not_or.mp passed).2))).symm
    have size : (bytes (decryptBlocks cipher iv (blocks n (text.length / n) text))).length =
        text.length / n * n := by
      rw [length_bytes, length_decryptBlocks, length_blocks]
    have padded := pad_of_unpad ⟨text.length / n, by rw [size, Nat.mul_comm]⟩ decrypted
    have count : plain.length / n + 1 = text.length / n := by
      have same := congrArg List.length padded
      rw [size, length_pad positive] at same
      exact (Nat.eq_of_mul_eq_mul_right positive same).symm
    have coded := blocks_bytes (decryptBlocks cipher iv (blocks n (text.length / n) text))
    rw [length_decryptBlocks, length_blocks] at coded
    rw [encrypt, count, ← padded, coded, encryptBlocks_decryptBlocks, bytes_blocks whole]

/-- The texts that can be decrypted are the encryptions, each of one plaintext. -/
theorem decrypt_eq_some_iff (positive : 0 < n) (small : n < 256) (iv : Block n)
    (text plain : List UInt8) :
    decrypt cipher iv text = some plain ↔ text = encrypt cipher iv plain := by
  constructor
  · exact encrypt_of_decrypt cipher positive
  · rintro rfl
    exact decrypt_encrypt cipher positive small iv plain

end BlockCipher
