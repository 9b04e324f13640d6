import StDevice.Foundation.Buffer
import StDevice.Foundation.Fallible

/-!
# Text that is printed piece by piece into a buffer

Each piece is placed behind the one before it, whether there was room for that one or not:
`snprintf` cuts a text to the size it is given, and the position moves on by the length of
the whole text. The room that is left is a difference of unsigned numbers, which is large
again where the position has passed the end.

A program is looked at twice: as the pieces that it prints, and as the accesses to the
buffer. Where the accesses go is a matter of the lengths of the pieces alone.
-/

namespace Printing

/-- A program that writes outputs, with no ending while it runs. -/
structure Writing (ω ε α : Type) where
  outputs : List ω
  ending : Option (Fallible ε α)

namespace Writing

variable {ω ε α β : Type}

instance : Monad (Writing ω ε) where
  pure value := ⟨[], some (.done value)⟩
  bind x f :=
    match x.ending with
    | some (.done value) => ⟨x.outputs ++ (f value).outputs, (f value).ending⟩
    | some (.failed err) => ⟨x.outputs, some (.failed err)⟩
    | some .stopped => ⟨x.outputs, some .stopped⟩
    | none => ⟨x.outputs, none⟩

/-- A computation that writes nothing. -/
def lift (result : Fallible ε α) : Writing ω ε α := ⟨[], some result⟩

def fail (err : ε) : Writing ω ε α := ⟨[], some (.failed err)⟩

/-- An operation the language gives no meaning to. -/
def stop : Writing ω ε α := ⟨[], some .stopped⟩

def running : Writing ω ε α := ⟨[], none⟩

def emit (output : ω) : Writing ω ε Unit := ⟨[output], some (.done ())⟩

section Bind

variable {x : Writing ω ε α} {f : α → Writing ω ε β}

theorem bind_of_done {value : α} (ends : x.ending = some (.done value)) :
    x >>= f = ⟨x.outputs ++ (f value).outputs, (f value).ending⟩ := by
  simp only [Bind.bind, ends]

theorem bind_of_failed {err : ε} (ends : x.ending = some (.failed err)) :
    x >>= f = ⟨x.outputs, some (.failed err)⟩ := by
  simp only [Bind.bind, ends]

theorem bind_of_stopped (ends : x.ending = some .stopped) :
    x >>= f = ⟨x.outputs, some .stopped⟩ := by
  simp only [Bind.bind, ends]

theorem bind_of_running (ends : x.ending = none) : x >>= f = ⟨x.outputs, none⟩ := by
  simp only [Bind.bind, ends]

theorem bind_assoc {γ : Type} (g : β → Writing ω ε γ) :
    x >>= f >>= g = x >>= fun value => f value >>= g := by
  obtain ⟨outputs, ending⟩ := x
  match ending with
  | none => rfl
  | some .stopped => rfl
  | some (.failed err) => rfl
  | some (.done value) =>
      cases ends : (f value).ending with
      | none => simp [Bind.bind, ends]
      | some r =>
          cases r with
          | stopped => simp [Bind.bind, ends]
          | failed err => simp [Bind.bind, ends]
          | done value => simp [Bind.bind, ends]

/-- The parts of a program that returns. -/
theorem bind_returns {result : β} (ends : (x >>= f).ending = some (.done result)) :
    ∃ value, x.ending = some (.done value) ∧ (f value).ending = some (.done result) ∧
      (x >>= f).outputs = x.outputs ++ (f value).outputs := by
  cases e : x.ending with
  | none =>
      rw [bind_of_running e] at ends
      cases ends
  | some r =>
      cases r with
      | stopped =>
          rw [bind_of_stopped e] at ends
          cases ends
      | failed err =>
          rw [bind_of_failed e] at ends
          cases ends
      | done value =>
          rw [bind_of_done e] at ends ⊢
          exact ⟨value, rfl, ends, rfl⟩

end Bind

end Writing

/-- What a program prints: one character, or a text under `snprintf`. -/
inductive Piece where
  | char (c : UInt8)
  | text (bytes : List UInt8)
  deriving DecidableEq

namespace Piece

def bytes : Piece → List UInt8
  | char c => [c]
  | text bytes => bytes

/-- What must still be inside the buffer where the piece begins. A text may begin at the end. -/
def need : Piece → Nat
  | char _ => 1
  | text _ => 0

theorem need_le (piece : Piece) : piece.need ≤ piece.bytes.length ∨ piece.need = 0 := by
  cases piece with
  | char c => exact .inl (Nat.le_refl _)
  | text bytes => exact .inr rfl

end Piece

/-- The text of all pieces. -/
def textOf (pieces : List Piece) : List UInt8 := pieces.flatMap Piece.bytes

/-- How far the pieces reach before the last, and with it if that is a character. -/
def reach : List Piece → Nat
  | [] => 0
  | [piece] => piece.need
  | piece :: next :: pieces => piece.bytes.length + reach (next :: pieces)

/-- An access to the buffer: a byte that is stored, or a call of `snprintf`. -/
inductive Access where
  | store (offset : Nat) (c : UInt8)
  | snprintf (offset : Nat) (size : UInt64) (text : List UInt8)
  deriving DecidableEq

namespace Access

/-- The access stays inside a buffer of this size, and `snprintf` is told no more than the
space that is left. -/
def InBounds (total : Nat) : Access → Prop
  | store offset _ => offset < total
  | snprintf offset size _ => offset ≤ total ∧ size.toNat ≤ total - offset

/-- What the access does to the buffer. `snprintf` writes nothing if the size is zero, and
ends what it writes with a zero byte else. -/
def perform (buf : List UInt8) : Access → Option (List UInt8)
  | store offset c => Buffer.write buf offset [c]
  | snprintf offset size text =>
      if size = 0 then some buf
      else Buffer.write buf offset (text.take (size.toNat - 1) ++ [0])

end Access

/-- The accesses for pieces that are printed from an offset on into a buffer of length `len`. -/
def layout (len : UInt64) (offset : Nat) : List Piece → List Access
  | [] => []
  | .char c :: pieces => .store offset c :: layout len (offset + 1) pieces
  | .text bytes :: pieces =>
      .snprintf offset (len - .ofNat offset) bytes :: layout len (offset + bytes.length) pieces

section Layout

variable {len : UInt64} {offset : Nat} {piece : Piece} {pieces : List Piece}

@[simp] theorem textOf_nil : textOf [] = [] := rfl

@[simp] theorem textOf_cons : textOf (piece :: pieces) = piece.bytes ++ textOf pieces := rfl

@[simp] theorem textOf_append (front : List Piece) :
    textOf (front ++ pieces) = textOf front ++ textOf pieces := List.flatMap_append

theorem layout_append (front : List Piece) :
    layout len offset (front ++ pieces) =
      layout len offset front ++ layout len (offset + (textOf front).length) pieces := by
  induction front generalizing offset with
  | nil => rfl
  | cons piece front ih =>
      rw [textOf_cons, List.length_append, ← Nat.add_assoc]
      cases piece with
      | char c => exact congrArg _ ih
      | text bytes => exact congrArg _ ih

/-- The size that is left at an offset inside the buffer. -/
theorem toNat_left (inside : offset ≤ len.toNat) :
    (len - .ofNat offset).toNat = len.toNat - offset := by
  have bound := len.toNat_lt
  rw [UInt64.toNat_sub, UInt64.toNat_ofNat']
  omega

/-- The size that is left for a part of the buffer, some way into it. -/
theorem left_left (len : UInt64) (out c : Nat) :
    len - .ofNat out - .ofNat c = len - .ofNat (out + c) := by
  rw [UInt64.sub_eq_iff_eq_add, UInt64.sub_eq_iff_eq_add, UInt64.add_assoc, UInt64.ofNat_add,
    UInt64.add_comm (.ofNat c), UInt64.sub_add_cancel]

theorem snprintf_inBounds_iff {text : List UInt8} :
    (Access.snprintf offset (len - .ofNat offset) text).InBounds len.toNat ↔
      offset ≤ len.toNat :=
  ⟨fun inside => inside.1, fun inside => ⟨inside, Nat.le_of_eq (toNat_left inside)⟩⟩

/-- All accesses stay inside if the last does. -/
theorem layout_inBounds_iff :
    (∀ access ∈ layout len offset pieces, access.InBounds len.toNat) ↔
      pieces = [] ∨ offset + reach pieces ≤ len.toNat := by
  induction pieces generalizing offset with
  | nil => simp [layout]
  | cons piece pieces ih =>
      have first : (∀ access ∈ layout len offset (piece :: pieces), access.InBounds len.toNat) ↔
          offset + piece.need ≤ len.toNat ∧
            ∀ access ∈ layout len (offset + piece.bytes.length) pieces,
              access.InBounds len.toNat := by
        cases piece with
        | char c => exact List.forall_mem_cons
        | text bytes => exact List.forall_mem_cons.trans (and_congr_left' snprintf_inBounds_iff)
      rw [first, ih]
      cases pieces with
      | nil => simp [reach]
      | cons next pieces =>
          have enough := piece.need_le
          simp only [reach, reduceCtorEq, false_or]
          omega

/-- Pieces for which there is room, with a byte to spare, are written one after another into
a buffer that is still empty. -/
theorem perform_layout {before : List UInt8} {room : Nat}
    (size : len.toNat = before.length + room) (fits : (textOf pieces).length < room) :
    (layout len before.length pieces).foldlM Access.perform (before ++ List.replicate room 0) =
      some (before ++ textOf pieces ++
        List.replicate (room - (textOf pieces).length) 0) := by
  induction pieces generalizing before room with
  | nil => simp [layout]
  | cons piece pieces ih =>
      rw [textOf_cons, List.length_append] at fits
      -- the first piece lands in the zeros and leaves zeros behind it
      have step (access : Access) (rest : List Access)
          (stored : access.perform (before ++ List.replicate room 0) =
            some (before ++ piece.bytes ++ List.replicate (room - piece.bytes.length) 0))
          (others : rest = layout len (before ++ piece.bytes).length pieces) :
          (access :: rest).foldlM Access.perform (before ++ List.replicate room 0) =
            some (before ++ textOf (piece :: pieces) ++
              List.replicate (room - (textOf (piece :: pieces)).length) 0) := by
        have shorter := @ih (before ++ piece.bytes) (room - piece.bytes.length)
          (by rw [List.length_append, size]; omega) (by omega)
        rw [textOf_cons, List.length_append, ← Nat.sub_sub, ← List.append_assoc, List.foldlM_cons,
          stored, others]
        exact shorter
      have zeros (n : Nat) : (before ++ List.replicate room (0 : UInt8)).drop (before.length + n) =
          List.replicate (room - n) 0 := by
        rw [← List.drop_drop, List.drop_left, List.drop_replicate]
      cases piece with
      | char c =>
          refine step _ _ (Buffer.write_eq_some_iff.mpr ⟨?_, ?_⟩) ?_
          · rw [List.length_append, List.length_replicate]
            refine Nat.add_le_add_left ?_ _
            simp only [Piece.bytes, List.length_singleton] at fits ⊢
            omega
          · rw [List.take_left, zeros]
            rfl
          · rw [List.length_append]
            rfl
      | text bytes =>
          simp only [Piece.bytes] at fits
          have left : (len - .ofNat before.length).toNat = room := by
            rw [toNat_left (by omega), size, Nat.add_sub_cancel_left]
          refine step _ _ ?_ ?_
          · rw [Access.perform, if_neg fun none => ?_, left, List.take_of_length_le (by omega)]
            · refine Buffer.write_eq_some_iff.mpr ⟨?_, ?_⟩
              · simp only [List.length_append, List.length_replicate, List.length_singleton]
                omega
              · rw [List.take_left, List.length_append, zeros, Piece.bytes]
                have last : List.replicate (room - bytes.length) (0 : UInt8) =
                    [0] ++ List.replicate (room - (bytes.length + [(0 : UInt8)].length)) 0 := by
                  rw [List.length_singleton, ← Nat.sub_sub]
                  obtain ⟨more, rfl⟩ : ∃ more, room = bytes.length + (more + 1) :=
                    ⟨room - bytes.length - 1, by omega⟩
                  rw [Nat.add_sub_cancel_left, Nat.add_sub_cancel]
                  rfl
                rw [last]
                simp only [List.append_assoc]
            · rw [none] at left
              exact absurd left (by rw [UInt64.toNat_zero]; omega)
          · rw [List.length_append]
            rfl

end Layout

/-! ## Programs and their accesses -/

section Programs

variable {ε α β : Type}

/-- `snprintf` into a buffer. The result is the length of the whole text. -/
def snprintf (offset : Nat) (size : UInt64) (text : List UInt8) : Writing Access ε Nat :=
  ⟨[.snprintf offset size text], some (.done text.length)⟩

def store (offset : Nat) (c : UInt8) : Writing Access ε Unit := .emit (.store offset c)

def print (text : List UInt8) : Writing Piece ε Unit := .emit (.text text)

def putChar (c : UInt8) : Writing Piece ε Unit := .emit (.char c)

@[simp] theorem textOf_lift (result : Fallible ε α) :
    textOf (.lift result : Writing Piece ε α).outputs = [] := rfl

@[simp] theorem textOf_print (text : List UInt8) :
    textOf (print text : Writing Piece ε Unit).outputs = text := List.append_nil text

/-- The accesses of `x` are those of the pieces of `p` from the offset on. It returns its
position, which was `start`, moved on by the length of the text. -/
def Placed (len : UInt64) (offset start : Nat) (x : Writing Access ε (α × Nat))
    (p : Writing Piece ε α) : Prop :=
  x.outputs = layout len offset p.outputs ∧
    x.ending = p.ending.map fun ends =>
      ends >>= fun value => .done (value, start + (textOf p.outputs).length)

namespace Placed

variable {len : UInt64} {offset start : Nat} {x : Writing Access ε (α × Nat)}
  {p : Writing Piece ε α}

theorem pure (value : α) :
    Placed len offset start (pure (value, start) : Writing Access ε (α × Nat)) (pure value) :=
  ⟨rfl, rfl⟩

theorem fail (err : ε) :
    Placed len offset start (.fail err : Writing Access ε (α × Nat)) (.fail err) := ⟨rfl, rfl⟩

theorem stop : Placed len offset start (.stop : Writing Access ε (α × Nat)) .stop := ⟨rfl, rfl⟩

theorem running : Placed len offset start (.running : Writing Access ε (α × Nat)) .running :=
  ⟨rfl, rfl⟩

/-- What follows goes on behind the text of the first part. It may count from another
position. -/
theorem bind {start' : Nat} {f : α × Nat → Writing Access ε (β × Nat)}
    {g : α → Writing Piece ε β} (first : Placed len offset start x p)
    (next : ∀ value n,
      Placed len (offset + n) (start' + n) (f (value, start + n)) (g value)) :
    Placed len offset start' (x >>= f) (p >>= g) := by
  obtain ⟨accesses, ends⟩ := first
  cases e : p.ending with
  | none =>
      rw [e] at ends
      rw [Writing.bind_of_running e, Writing.bind_of_running ends]
      exact ⟨accesses, rfl⟩
  | some r =>
      rw [e] at ends
      cases r with
      | stopped =>
          rw [Writing.bind_of_stopped e, Writing.bind_of_stopped ends]
          exact ⟨accesses, rfl⟩
      | failed err =>
          rw [Writing.bind_of_failed e, Writing.bind_of_failed ends]
          exact ⟨accesses, rfl⟩
      | done value =>
          rw [Writing.bind_of_done e, Writing.bind_of_done ends]
          obtain ⟨others, after⟩ := next value (textOf p.outputs).length
          refine ⟨?_, ?_⟩
          · rw [accesses, others, layout_append]
          · rw [after, textOf_append, List.length_append, Nat.add_assoc]

/-- A call that returns how much it printed. -/
theorem call {f : α × Nat → Writing Access ε (β × Nat)} {g : α → Writing Piece ε β}
    (first : Placed len offset 0 x p)
    (next : ∀ value n, Placed len (offset + n) (start + n) (f (value, n)) (g value)) :
    Placed len offset start (x >>= f) (p >>= g) := by
  refine first.bind fun value n => ?_
  rw [Nat.zero_add]
  exact next value n

section Steps

variable {f : β → Writing Access ε (α × Nat)} {g : β → Writing Piece ε α}

theorem lift {result : Fallible ε β}
    (next : ∀ value, result = .done value → Placed len offset start (f value) (g value)) :
    Placed len offset start (.lift result >>= f) (.lift result >>= g) := by
  cases result with
  | stopped => exact stop
  | failed err => exact fail err
  | done value => exact next value rfl

theorem snprintf {size : UInt64} {text : List UInt8} {f : Nat → Writing Access ε (α × Nat)}
    {p : Writing Piece ε α} (left : size = len - .ofNat offset)
    (next : Placed len (offset + text.length) (start + text.length) (f text.length) p) :
    Placed len offset start (Printing.snprintf offset size text >>= f)
      (print text >>= fun _ => p) := by
  obtain ⟨accesses, ends⟩ := next
  refine ⟨?_, ends.trans ?_⟩
  · rw [left]
    exact congrArg _ accesses
  · show _ = p.ending.map fun ends => ends >>= fun value =>
      .done (value, start + (textOf (.text text :: p.outputs)).length)
    rw [textOf_cons, List.length_append, ← Nat.add_assoc]
    rfl

/-- A computation at the end. -/
theorem lift_last {result : Fallible ε α} :
    Placed len offset start (.lift result >>= fun value => Pure.pure (value, start))
      (.lift result) := by
  cases result with
  | stopped => exact stop
  | failed err => exact fail err
  | done value => exact pure value

theorem store {c : UInt8} {f : Unit → Writing Access ε (α × Nat)} {p : Writing Piece ε α}
    (next : Placed len (offset + 1) (start + 1) (f ()) p) :
    Placed len offset start (Printing.store offset c >>= f) (putChar c >>= fun _ => p) := by
  obtain ⟨accesses, ends⟩ := next
  refine ⟨congrArg _ accesses, ends.trans ?_⟩
  show _ = p.ending.map fun ends => ends >>= fun value =>
    .done (value, start + (textOf (.char c :: p.outputs)).length)
  rw [textOf_cons, List.length_append, ← Nat.add_assoc]
  rfl

end Steps

end Placed

end Programs

end Printing
