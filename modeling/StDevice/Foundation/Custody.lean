import Mathlib.Data.List.Perm.Basic
import Mathlib.Logic.Function.Basic

/-!
# Custody of shared items

Items with a content are handed around between places: queues, and threads that
took one out of a queue. A seat is an item at a place, the place given by its role.
The seats are sound if no item has two of them, every seated item is alive, and its
content fits the role. A step of a program moves, adds or drops a seat; the lemmas
below say what it must show for that.

Some items are opened and must be accounted for: each is held or closed, and only
once.
-/

namespace Custody

/-- An item at a place. -/
structure Seat (α ρ : Type*) where
  item : α
  role : ρ
  deriving DecidableEq

variable {α ρ σ : Type*}

/-- The items that have a seat. -/
def items (seats : List (Seat α ρ)) : List α := seats.map Seat.item

theorem items_perm {seats seats' : List (Seat α ρ)} (perm : seats.Perm seats') :
    (items seats).Perm (items seats') :=
  perm.map Seat.item

structure Sound (fits : ρ → σ → Prop) (content : α → σ) (live : α → Prop)
    (seats : List (Seat α ρ)) : Prop where
  distinct : (items seats).Nodup
  alive : ∀ seat ∈ seats, live seat.item
  fit : ∀ seat ∈ seats, fits seat.role (content seat.item)

namespace Sound

variable {fits : ρ → σ → Prop} {content : α → σ} {live live' : α → Prop}
  {seats seats' : List (Seat α ρ)} {a : α} {r r' : ρ}

theorem perm (sound : Sound fits content live seats) (perm : seats.Perm seats') :
    Sound fits content live seats' where
  distinct := (items_perm perm).nodup_iff.mp sound.distinct
  alive := fun seat mem => sound.alive seat (perm.mem_iff.mpr mem)
  fit := fun seat mem => sound.fit seat (perm.mem_iff.mpr mem)

/-- An item with a seat has no other. -/
theorem notMem (sound : Sound fits content live (⟨a, r⟩ :: seats)) : a ∉ items seats :=
  (List.nodup_cons.mp sound.distinct).1

/-- Give a seat up; everything else stays alive. -/
theorem drop (sound : Sound fits content live (⟨a, r⟩ :: seats))
    (stays : ∀ b, b ≠ a → live b → live' b) : Sound fits content live' seats where
  distinct := (List.nodup_cons.mp sound.distinct).2
  alive := by
    intro seat mem
    refine stays _ ?_ (sound.alive seat (List.mem_cons_of_mem _ mem))
    rintro rfl
    exact sound.notMem (List.mem_map_of_mem mem)
  fit := fun seat mem => sound.fit seat (List.mem_cons_of_mem _ mem)

/-- What the seat of an item says about its content. -/
theorem fit_of_mem (sound : Sound fits content live seats) (seated : a ∈ items seats) :
    ∃ role, fits role (content a) := by
  obtain ⟨seat, mem, rfl⟩ := List.mem_map.mp seated
  exact ⟨seat.role, sound.fit seat mem⟩

variable [DecidableEq α] {x : σ}

/-- The content of an item without a seat does not matter. -/
theorem update (sound : Sound fits content live seats) (unseated : a ∉ items seats) :
    Sound fits (Function.update content a x) live seats where
  distinct := sound.distinct
  alive := sound.alive
  fit := by
    intro seat mem
    have other : seat.item ≠ a := by
      rintro rfl
      exact unseated (List.mem_map_of_mem mem)
    rw [Function.update_of_ne other]
    exact sound.fit seat mem

/-- Seat an item that has no seat. -/
theorem put (sound : Sound fits content live seats) (unseated : a ∉ items seats) (alive : live a)
    (fit : fits r x) :
    Sound fits (Function.update content a x) live (⟨a, r⟩ :: seats) where
  distinct := List.nodup_cons.mpr ⟨unseated, sound.distinct⟩
  alive := by
    intro seat mem
    rcases List.mem_cons.mp mem with rfl | mem
    · exact alive
    · exact sound.alive seat mem
  fit := by
    intro seat mem
    rcases List.mem_cons.mp mem with rfl | mem
    · simpa using fit
    · exact (sound.update unseated).fit seat mem

/-- Move an item to another role, with a new content. -/
theorem move (sound : Sound fits content live (⟨a, r⟩ :: seats)) (fit : fits r' x) :
    Sound fits (Function.update content a x) live (⟨a, r'⟩ :: seats) :=
  (sound.drop fun _ _ alive => alive).put sound.notMem
    (sound.alive _ List.mem_cons_self) fit

/-- Seat a new item. -/
theorem create (sound : Sound fits content live seats) (fresh : ¬ live a)
    (stays : ∀ b, live b → live' b) (alive : live' a) (fit : fits r x) :
    Sound fits (Function.update content a x) live' (⟨a, r⟩ :: seats) := by
  have unseated : a ∉ items seats := by
    intro seated
    obtain ⟨seat, mem, rfl⟩ := List.mem_map.mp seated
    exact fresh (sound.alive seat mem)
  exact Sound.put ⟨sound.distinct, fun seat mem => stays _ (sound.alive seat mem), sound.fit⟩
    unseated alive fit

end Sound

/-- Every opened item is held or closed, and only once. -/
def Accounted (opened held closed : List α) [DecidableEq α] : Prop :=
  ∀ a ∈ opened, held.count a + closed.count a = 1

namespace Accounted

variable [DecidableEq α] {opened held held' closed : List α} {a : α}

theorem perm (accounted : Accounted opened held closed) (perm : held.Perm held') :
    Accounted opened held' closed := by
  intro b mem
  rw [← perm.count_eq]
  exact accounted b mem

/-- Hold an item that was not opened. -/
theorem hold (accounted : Accounted opened held closed) (other : a ∉ opened) :
    Accounted opened (a :: held) closed := by
  intro b mem
  have different : a ≠ b := by
    rintro rfl
    exact other mem
  rw [List.count_cons_of_ne different]
  exact accounted b mem

/-- Let an item go that was not opened. -/
theorem drop (accounted : Accounted opened (a :: held) closed) (other : a ∉ opened) :
    Accounted opened held closed := by
  intro b mem
  have different : a ≠ b := by
    rintro rfl
    exact other mem
  rw [← List.count_cons_of_ne different]
  exact accounted b mem

/-- Close a held item. -/
theorem close (accounted : Accounted opened (a :: held) closed) :
    Accounted opened held (a :: closed) := by
  intro b mem
  have balance := accounted b mem
  rw [List.count_cons] at balance ⊢
  omega

/-- Open an item that is held once. -/
theorem opens (accounted : Accounted opened held closed) (once : held.count a = 1)
    (unclosed : a ∉ closed) : Accounted (a :: opened) held closed := by
  intro b mem
  rcases List.mem_cons.mp mem with rfl | mem
  · rw [once, List.count_eq_zero_of_not_mem unclosed]
  · exact accounted b mem

/-- The order in which items were closed does not matter. -/
theorem perm_closed {closed' : List α} (accounted : Accounted opened held closed)
    (perm : closed.Perm closed') : Accounted opened held closed' := by
  intro b mem
  rw [← perm.count_eq]
  exact accounted b mem

end Accounted

end Custody
