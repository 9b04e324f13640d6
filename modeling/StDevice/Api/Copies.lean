import StDevice.Api.MiscInfo
import StDevice.Foundation.BlockHeap

/-!
# Copies of the members of a document

The loaders of the configuration copy members of a JSON text into blocks of their own and put
pointers to these into the structure of the caller. `Copies` has the local pointers of a
loader, and `AllOrNothing` says what a caller may expect.

A member that is read as text and is none is read through NULL, and the call has no result.
The copy of the text and the document are not part of the heap: no pointer to them is kept.
-/

namespace StDevice.Api

/-- What a block holds. -/
inductive Block where
  | text (value : List UInt8)
  | dip (value : IotDipData)

inductive LoadError where
  | invalidArgs | memAlloc | uninitialized
  deriving DecidableEq

/-- How a call ends: `err` is `none` for IOT_ERROR_NONE. -/
structure LoadEnd (S : Type) where
  err : Option LoadError
  out : Option S
  heap : BlockHeap Block

/-- The heap and the local pointers to the texts that were copied. -/
structure Copies (F : Type) where
  heap : BlockHeap Block
  pointer : F → Option Nat

/-- `iot_os_malloc` and `strncpy` into a local pointer. -/
def Copies.copy {F : Type} [DecidableEq F] (c : Copies F) (f : F) (text : List UInt8) :
    Copies F where
  heap := c.heap.alloc (.text text)
  pointer := Function.update c.pointer f (some c.heap.next)

/-- The document of a text, with the member that has the data. -/
def configMember (parse : List UInt8 → Option Json) (text : List UInt8) (name : String) :
    Option Json :=
  (parse (CString.cstr text)).bind fun root => root.getObjectItem name

/-! ## Copies -/

section Copies

variable {F : Type} {start : BlockHeap Block} {value : F → Option (List UInt8)} {done : List F}
  {c : Copies F}

/-- The members that were reached have been copied into blocks of their own. -/
structure Copies.Sound (start : BlockHeap Block) (value : F → Option (List UInt8))
    (done : List F) (c : Copies F) : Prop where
  older : start.Extends c.heap
  fresh : ∀ f addr, c.pointer f = some addr → start.next ≤ addr
  copied : ∀ f ∈ done, ∀ text, value f = some text →
    ∃ addr, c.pointer f = some addr ∧ c.heap.block addr = some (.text text)
  missing : ∀ f, value f = none → c.pointer f = none
  ahead : ∀ f ∉ done, c.pointer f = none

theorem Copies.Sound.nothing (heap : BlockHeap Block) (value : F → Option (List UInt8)) :
    Copies.Sound heap value [] ⟨heap, fun _ => none⟩ where
  older := .refl heap
  fresh _ _ none := nomatch none
  copied _ inside := nomatch inside
  missing _ _ := rfl
  ahead _ _ := rfl

/-- What was there before is kept when the copies are freed. -/
theorem Copies.Sound.extends_freeAll (sound : c.Sound start value done)
    {pointers : List (Option Nat)} (among : ∀ pointer ∈ pointers, ∃ f, c.pointer f = pointer) :
    start.Extends (c.heap.freeAll pointers) := by
  refine sound.older.freeAll fun addr inside => ?_
  obtain ⟨f, is⟩ := among _ inside
  exact sound.fresh f addr is

variable [DecidableEq F] {f : F}

/-- A member that is copied if it has a text. -/
def Copies.next (value : F → Option (List UInt8)) (c : Copies F) (f : F) : Copies F :=
  match value f with
  | none => c
  | some text => c.copy f text

namespace Copies.Sound

/-- One more member. -/
theorem next (sound : Copies.Sound start value done c) (new : f ∉ done) :
    Copies.Sound start value (done ++ [f]) (c.next value f) := by
  rw [Copies.next]
  cases given : value f with
  | none =>
      refine ⟨sound.older, sound.fresh, fun g inside text is => ?_, sound.missing, fun g out => ?_⟩
      · obtain before | here := List.mem_append.mp inside
        · exact sound.copied g before text is
        · rw [List.mem_singleton.mp here, given] at is
          cases is
      · exact sound.ahead g fun before => out (List.mem_append_left _ before)
  | some text =>
      have pointer (g : F) : (c.copy f text).pointer g =
          if g = f then some c.heap.next else c.pointer g := Function.update_apply ..
      refine ⟨sound.older.alloc _, fun g addr is => ?_, fun g inside other is => ?_,
        fun g none => ?_, fun g out => ?_⟩
      · rw [pointer] at is
        split at is
        · cases is
          exact sound.older.next_le
        · exact sound.fresh g addr is
      · by_cases same : g = f
        · subst same
          cases given.symm.trans is
          exact ⟨c.heap.next, (pointer g).trans (if_pos rfl), c.heap.block_alloc_next _⟩
        · obtain before | here := List.mem_append.mp inside
          · obtain ⟨addr, known, block⟩ := sound.copied g before other is
            exact ⟨addr, ((pointer g).trans (if_neg same)).trans known,
              ((BlockHeap.Extends.refl c.heap).alloc _).block_eq_some block⟩
          · exact absurd (List.mem_singleton.mp here) same
      · rw [pointer, if_neg]
        · exact sound.missing g none
        · rintro rfl
          cases given.symm.trans none
      · rw [pointer, if_neg]
        · exact sound.ahead g fun before => out (List.mem_append_left _ before)
        · rintro rfl
          exact out (List.mem_append_right _ List.mem_cons_self)

/-- Members that were not reached before. -/
theorem foldl {l : List F} (sound : Copies.Sound start value done c) (distinct : l.Nodup)
    (new : ∀ f ∈ l, f ∉ done) :
    Copies.Sound start value (done ++ l) (l.foldl (Copies.next value) c) := by
  induction l generalizing done c with
  | nil => rwa [List.append_nil]
  | cons f l ih =>
      obtain ⟨first, distinct⟩ := List.nodup_cons.mp distinct
      have here := sound.next (new f List.mem_cons_self)
      rw [← List.singleton_append, ← List.append_assoc]
      refine ih here distinct fun g inside before => ?_
      obtain before | same := List.mem_append.mp before
      · exact new g (List.mem_cons_of_mem _ inside) before
      · exact first (List.mem_singleton.mp same ▸ inside)

end Copies.Sound

end Copies

/-! ## All or nothing -/

/-- A caller with its structure, whose pointers are older than the call. -/
structure Caller (S : Type) (refers : S → Nat → Prop) where
  out : Option S
  heap : BlockHeap Block
  older : ∀ s addr, out = some s → refers s addr → addr < heap.next

/-- An error leaves the structure as it was and does not free what it points to. Where the
call succeeds, the members have been loaded. -/
def AllOrNothing {S : Type} {refers : S → Nat → Prop} (caller : Caller S refers)
    (loaded : S → BlockHeap Block → Prop) (result : Option (LoadEnd S)) : Prop :=
  ∀ e, result = some e →
    match e.err with
    | some _ => e.out = caller.out ∧ ∀ s addr, e.out = some s → refers s addr →
        e.heap.block addr = caller.heap.block addr
    | none => ∃ s, e.out = some s ∧ loaded s e.heap

section AllOrNothing

variable {S : Type} {refers : S → Nat → Prop} {caller : Caller S refers}
  {loaded : S → BlockHeap Block → Prop} {err : LoadError} {heap : BlockHeap Block}

theorem allOrNothing_failed (kept : caller.heap.Extends heap) :
    AllOrNothing caller loaded (some ⟨some err, caller.out, heap⟩) := by
  rintro e same
  cases same
  exact ⟨rfl, fun s addr given is => kept.kept addr (caller.older s addr given is)⟩

theorem allOrNothing_unchanged :
    AllOrNothing caller loaded (some ⟨some err, caller.out, caller.heap⟩) :=
  allOrNothing_failed (.refl caller.heap)

theorem allOrNothing_stopped : AllOrNothing caller loaded none := nofun

end AllOrNothing

/-- The texts of members. -/
def valueOf {F : Type} (name : F → String) (json : Json) (f : F) : Option (List UInt8) :=
  (json.memberText (name f)).map CString.cstr

theorem valueOf_eq {F : Type} {name : F → String} {json item : Json} {f : F}
    (found : json.getObjectItem (name f) = some item) :
    valueOf name json f = item.valuestring.map CString.cstr := by
  rw [valueOf, Json.memberText_eq_of_getObjectItem found]

/-- A member that is there and is no string. -/
def Mistyped (json : Json) (name : String) : Prop :=
  (json.getObjectItem name).isSome = true ∧ json.memberText name = none

end StDevice.Api
