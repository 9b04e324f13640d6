import Mathlib.Data.List.Basic
import Mathlib.Logic.Function.Basic

/-!
# Updates of a nonvolatile store

An update is a list of operations on the items of a store: writes, and erases whose
result nobody looks at. Each operation is atomic. It may fail, and then leaves the
store as it was; a failed write ends the update, a failed erase does not. The
outcomes are given in advance. Where they end, the power is cut.

A guarded update writes a flag before and after its body. A reader who trusts the
data under the final flag only sees the update whole or not at all, but for the
erases that failed.
-/

namespace Nonvolatile

inductive Op (κ β : Type*) where
  | write (item : κ) (data : β)
  | erase (item : κ)
  /-- a write that is turned down before the store is touched -/
  | refuse

variable {κ β : Type*} [DecidableEq κ] {ops more : List (Op κ β)} {outcomes rest : List Bool}
  {s : κ → Option β} {item flag : κ} {no yes : β}

/-- The store after an update and, if the update came to its end, the outcomes left. -/
def run : List (Op κ β) → List Bool → (κ → Option β) → (κ → Option β) × Option (List Bool)
  | [], outcomes, s => (s, some outcomes)
  | .refuse :: _, _, s => (s, none)
  | .write _ _ :: _, [], s => (s, none)
  | .erase _ :: _, [], s => (s, none)
  | .write item data :: ops, ok :: outcomes, s =>
      if ok then run ops outcomes (Function.update s item (some data)) else (s, none)
  | .erase item :: ops, ok :: outcomes, s =>
      run ops outcomes (if ok then Function.update s item none else s)

/-- The outcomes left when an update comes to its end. -/
def left : List (Op κ β) → List Bool → Option (List Bool)
  | [], outcomes => some outcomes
  | .refuse :: _, _ => none
  | .write _ _ :: _, [] => none
  | .erase _ :: _, [] => none
  | .write _ _ :: ops, ok :: outcomes => if ok then left ops outcomes else none
  | .erase _ :: ops, _ :: outcomes => left ops outcomes

/-- The items whose erase failed. -/
def stuck : List (Op κ β) → List Bool → List κ
  | .erase item :: ops, ok :: outcomes =>
      if ok then stuck ops outcomes else item :: stuck ops outcomes
  | .write _ _ :: ops, _ :: outcomes => stuck ops outcomes
  | _, _ => []

/-- The items an update is about. -/
def items : List (Op κ β) → List κ
  | [] => []
  | .write item _ :: ops | .erase item :: ops => item :: items ops
  | .refuse :: ops => items ops

/-- What an update is to leave in an item. -/
def planned : List (Op κ β) → κ → Option β
  | [], _ => none
  | .write item data :: ops, k => if k = item then some data else planned ops k
  | .erase item :: ops, k => if k = item then none else planned ops k
  | .refuse :: ops, k => planned ops k

omit [DecidableEq κ] in
theorem stuck_subset (ops : List (Op κ β)) (outcomes : List Bool) :
    ∀ item ∈ stuck ops outcomes, item ∈ items ops := by
  induction ops generalizing outcomes with
  | nil => simp [stuck]
  | cons op ops ih =>
      cases op with
      | refuse => simp [stuck]
      | write item data =>
          cases outcomes with
          | nil => simp [stuck]
          | cons ok outcomes =>
              exact fun other mem => List.mem_cons_of_mem _ (ih outcomes other mem)
      | erase item =>
          cases outcomes with
          | nil => simp [stuck]
          | cons ok outcomes =>
              intro other mem
              cases ok with
              | true => exact List.mem_cons_of_mem _ (ih outcomes other mem)
              | false =>
                  rcases List.mem_cons.mp mem with rfl | mem
                  · exact List.mem_cons_self
                  · exact List.mem_cons_of_mem _ (ih outcomes other mem)

@[simp] theorem run_write_done (item : κ) (data : β) (ops : List (Op κ β)) (outcomes : List Bool)
    (s : κ → Option β) : run (.write item data :: ops) (true :: outcomes) s =
      run ops outcomes (Function.update s item (some data)) := rfl

@[simp] theorem run_write_failed (item : κ) (data : β) (ops : List (Op κ β))
    (outcomes : List Bool) (s : κ → Option β) :
    run (.write item data :: ops) (false :: outcomes) s = (s, none) := rfl

@[simp] theorem run_erase_done (item : κ) (ops : List (Op κ β)) (outcomes : List Bool)
    (s : κ → Option β) : run (.erase item :: ops) (true :: outcomes) s =
      run ops outcomes (Function.update s item none) := rfl

@[simp] theorem run_erase_failed (item : κ) (ops : List (Op κ β)) (outcomes : List Bool)
    (s : κ → Option β) : run (.erase item :: ops) (false :: outcomes) s = run ops outcomes s := rfl

theorem run_snd (ops : List (Op κ β)) (outcomes : List Bool) (s : κ → Option β) :
    (run ops outcomes s).2 = left ops outcomes := by
  induction ops generalizing outcomes s with
  | nil => rfl
  | cons op ops ih =>
      cases op with
      | refuse => rfl
      | write item data =>
          cases outcomes with
          | nil => rfl
          | cons ok outcomes =>
              cases ok with
              | false => rfl
              | true => exact ih outcomes _
      | erase item =>
          cases outcomes with
          | nil => rfl
          | cons ok outcomes => exact ih outcomes _

/-- An update leaves the items alone that it is not about. -/
theorem run_outside (ops : List (Op κ β)) (outcomes : List Bool) (s : κ → Option β)
    (outside : item ∉ items ops) : (run ops outcomes s).1 item = s item := by
  induction ops generalizing outcomes s with
  | nil => rfl
  | cons op ops ih =>
      cases op with
      | refuse => rfl
      | write other data =>
          obtain ⟨different, outside⟩ := not_or.mp (List.mem_cons.not.mp outside)
          cases outcomes with
          | nil => rfl
          | cons ok outcomes =>
              cases ok with
              | false => rfl
              | true => rw [run_write_done, ih _ _ outside, Function.update_of_ne different]
      | erase other =>
          obtain ⟨different, outside⟩ := not_or.mp (List.mem_cons.not.mp outside)
          cases outcomes with
          | nil => rfl
          | cons ok outcomes =>
              cases ok with
              | false => rw [run_erase_failed, ih _ _ outside]
              | true => rw [run_erase_done, ih _ _ outside, Function.update_of_ne different]

/-- Two updates, one after the other. -/
theorem run_append (ops more : List (Op κ β)) (outcomes : List Bool) (s : κ → Option β) :
    run (ops ++ more) outcomes s =
      match left ops outcomes with
      | some rest => run more rest (run ops outcomes s).1
      | none => ((run ops outcomes s).1, none) := by
  induction ops generalizing outcomes s with
  | nil => rfl
  | cons op ops ih =>
      cases op with
      | refuse => rfl
      | write item data =>
          cases outcomes with
          | nil => rfl
          | cons ok outcomes =>
              cases ok with
              | false => rfl
              | true => exact ih outcomes _
      | erase item =>
          cases outcomes with
          | nil => rfl
          | cons ok outcomes => exact ih outcomes _

/-- An update of different items that comes to its end leaves what it planned, except where
an erase failed. -/
theorem run_of_left (distinct : (items ops).Nodup) (ends : left ops outcomes = some rest)
    (s : κ → Option β) (item : κ) :
    (run ops outcomes s).1 item =
      if item ∈ items ops ∧ item ∉ stuck ops outcomes then planned ops item else s item := by
  induction ops generalizing outcomes s with
  | nil => simp [run, items]
  | cons op ops ih =>
      cases op with
      | refuse => exact absurd ends (by simp [left])
      | write other data =>
          obtain ⟨once, distinct⟩ := List.nodup_cons.mp distinct
          cases outcomes with
          | nil => exact absurd ends (by simp [left])
          | cons ok outcomes =>
              cases ok with
              | false => exact absurd ends (by simp [left])
              | true =>
                  rw [run_write_done]
                  by_cases same : item = other
                  · subst same
                    have free : item ∉ stuck ops outcomes := fun mem =>
                      once (stuck_subset ops outcomes item mem)
                    rw [run_outside _ _ _ once, Function.update_self,
                      if_pos ⟨List.mem_cons_self, free⟩, planned, if_pos rfl]
                  · rw [ih distinct ends, Function.update_of_ne same]
                    simp only [items, stuck, planned, List.mem_cons, same, false_or, if_false]
      | erase other =>
          obtain ⟨once, distinct⟩ := List.nodup_cons.mp distinct
          cases outcomes with
          | nil => exact absurd ends (by simp [left])
          | cons ok outcomes =>
              have free : other ∉ stuck ops outcomes := fun mem =>
                once (stuck_subset ops outcomes other mem)
              by_cases same : item = other
              · subst same
                cases ok with
                | false => simp [run_outside _ _ _ once, stuck]
                | true => simp [run_outside _ _ _ once, stuck, items, planned, free]
              · cases ok with
                | false =>
                    rw [run_erase_failed, ih distinct ends]
                    simp [items, stuck, planned, same]
                | true =>
                    rw [run_erase_done, ih distinct ends, Function.update_of_ne same]
                    simp [items, stuck, planned, same]

/-- A body between two writes of a flag. -/
def guarded (flag : κ) (no yes : β) (body : List (Op κ β)) : List (Op κ β) :=
  .write flag no :: (body ++ [.write flag yes])

/-- The first operation is executed. -/
def begun (outcomes : List Bool) : Bool := outcomes.head? == some true

/-- Nothing happens when the flag is not taken away. -/
theorem run_guarded_of_not_begun (body : List (Op κ β)) (s : κ → Option β)
    (stops : begun outcomes = false) : run (guarded flag no yes body) outcomes s = (s, none) := by
  cases outcomes with
  | nil => rfl
  | cons ok outcomes =>
      cases ok with
      | false => rfl
      | true => exact absurd stops (by simp [begun])

private theorem left_append (ops more : List (Op κ β)) (outcomes : List Bool) :
    left (ops ++ more) outcomes = (left ops outcomes).bind (left more) := by
  have both := congrArg Prod.snd (run_append ops more outcomes fun _ => none)
  rw [run_snd] at both
  rw [both]
  cases left ops outcomes with
  | none => rfl
  | some rest => exact run_snd more rest _

/-- Without the last write the flag stays away. -/
theorem run_guarded_of_begun {body : List (Op κ β)} (s : κ → Option β)
    (begins : begun outcomes = true) (stops : left (guarded flag no yes body) outcomes = none)
    (apart : flag ∉ items body) : (run (guarded flag no yes body) outcomes s).1 flag = some no := by
  obtain ⟨outcomes, rfl⟩ : ∃ more, outcomes = true :: more := by
    cases outcomes with
    | nil => exact absurd begins (by simp [begun])
    | cons ok outcomes =>
        obtain rfl : ok = true := by simpa [begun] using begins
        exact ⟨outcomes, rfl⟩
  have stops : left (body ++ [.write flag yes]) outcomes = none := stops
  have flagged (s' : κ → Option β) (kept : s' flag = some no) :
      (run (body ++ [.write flag yes]) outcomes s').1 flag = some no := by
    rw [run_append]
    rw [left_append] at stops
    cases ends : left body outcomes with
    | none =>
        dsimp only
        rw [run_outside _ _ _ apart, kept]
    | some rest =>
        rw [ends, Option.bind_some] at stops
        dsimp only
        cases rest with
        | nil => exact (run_outside _ _ _ apart).trans kept
        | cons ok rest =>
            cases ok with
            | false => exact (run_outside _ _ _ apart).trans kept
            | true => exact absurd stops (by simp [left])
  exact flagged _ (Function.update_self _ _ _)

/-- With the last write the flag is there, and the body was executed. -/
theorem run_guarded_of_left {body : List (Op κ β)} (s : κ → Option β)
    (ends : left (guarded flag no yes body) outcomes = some rest)
    (distinct : (items body).Nodup) :
    (run (guarded flag no yes body) outcomes s).1 flag = some yes ∧
      ∀ item ≠ flag, (run (guarded flag no yes body) outcomes s).1 item =
        if item ∈ items body ∧ item ∉ stuck body outcomes.tail then planned body item
        else s item := by
  cases outcomes with
  | nil => exact absurd ends (by simp [guarded, left])
  | cons ok outcomes =>
      cases ok with
      | false => exact absurd ends (by simp [guarded, left])
      | true =>
          have ends : left (body ++ [.write flag yes]) outcomes = some rest := ends
          rw [left_append] at ends
          obtain ⟨after, bodyEnds, ends⟩ := Option.bind_eq_some_iff.mp ends
          have split : run (guarded flag no yes body) (true :: outcomes) s =
              run [.write flag yes] after
                (run body outcomes (Function.update s flag (some no))).1 := by
            rw [guarded, run_write_done, run_append, bodyEnds]
          rw [split]
          cases after with
          | nil => exact absurd ends (by simp [left])
          | cons ok after =>
              cases ok with
              | false => exact absurd ends (by simp [left])
              | true =>
                  refine ⟨Function.update_self _ _ _, ?_⟩
                  intro item other
                  rw [run_write_done]
                  refine (Function.update_of_ne other _ _).trans ?_
                  rw [run_of_left distinct bodyEnds, Function.update_of_ne other]
                  rfl

/-- The operation that puts the contents wanted into an item. -/
def put (item : κ) : Option β → Op κ β
  | none => .erase item
  | some data => .write item data

def store (keys : List κ) (contents : κ → Option β) : List (Op κ β) :=
  keys.map fun item => put item (contents item)

section Store

variable {keys : List κ} {contents : κ → Option β}

omit [DecidableEq κ] in
@[simp] theorem items_store (keys : List κ) (contents : κ → Option β) :
    items (store keys contents) = keys := by
  induction keys with
  | nil => rfl
  | cons k keys ih =>
      have cons : items (store (k :: keys) contents) = k :: items (store keys contents) := by
        rw [store, List.map_cons]
        cases contents k with
        | none => rfl
        | some data => rfl
      rw [cons, ih]

theorem planned_store (mem : item ∈ keys) : planned (store keys contents) item = contents item := by
  induction keys with
  | nil => exact absurd mem List.not_mem_nil
  | cons k keys ih =>
      have cons : planned (store (k :: keys) contents) item =
          if item = k then contents k else planned (store keys contents) item := by
        rw [store, List.map_cons]
        cases contents k with
        | none => rfl
        | some data => rfl
      rw [cons]
      by_cases same : item = k
      · rw [if_pos same, same]
      · rw [if_neg same]
        exact ih ((List.mem_cons.mp mem).resolve_left same)

omit [DecidableEq κ] in
/-- Only an item that is to be erased can be stuck. -/
theorem eq_none_of_mem_stuck (mem : item ∈ stuck (store keys contents) outcomes) :
    contents item = none := by
  induction keys generalizing outcomes with
  | nil => exact absurd mem (by simp [store, stuck])
  | cons k keys ih =>
      rw [store, List.map_cons] at mem
      cases outcomes with
      | nil =>
          cases wanted : contents k with
          | none => exact absurd mem (by simp [wanted, put, stuck])
          | some data => exact absurd mem (by simp [wanted, put, stuck])
      | cons ok outcomes =>
          cases wanted : contents k with
          | some data =>
              rw [wanted] at mem
              exact ih mem
          | none =>
              rw [wanted] at mem
              cases ok with
              | true => exact ih mem
              | false =>
                  rcases List.mem_cons.mp mem with rfl | mem
                  · exact wanted
                  · exact ih mem

end Store

omit [DecidableEq κ] in
/-- A refused write ends the update, whatever happens before. -/
theorem left_of_refuse (refused : Op.refuse ∈ ops) (outcomes : List Bool) :
    left ops outcomes = none := by
  induction ops generalizing outcomes with
  | nil => exact absurd refused List.not_mem_nil
  | cons op ops ih =>
      cases op with
      | refuse => rfl
      | write item data =>
          have refused := (List.mem_cons.mp refused).resolve_left (by simp)
          cases outcomes with
          | nil => rfl
          | cons ok outcomes =>
              cases ok with
              | false => rfl
              | true => exact ih refused outcomes
      | erase item =>
          have refused := (List.mem_cons.mp refused).resolve_left (by simp)
          cases outcomes with
          | nil => rfl
          | cons ok outcomes => exact ih refused outcomes

omit [DecidableEq κ] in
theorem refuse_notMem_guarded_store (flag : κ) (no yes : β) (keys : List κ)
    (contents : κ → Option β) : Op.refuse ∉ guarded flag no yes (store keys contents) := by
  simp only [guarded, store, List.mem_cons, List.mem_append, List.mem_map, List.not_mem_nil,
    reduceCtorEq, false_or, or_false]
  rintro ⟨item, -, refused⟩
  cases stored : contents item with
  | none => exact absurd refused (by simp [put, stored])
  | some data => exact absurd refused (by simp [put, stored])

omit [DecidableEq κ] in
/-- Where everything succeeds, an update without refused writes comes to its end. -/
theorem left_replicate_add (accepted : Op.refuse ∉ ops) (n : Nat) :
    left ops (List.replicate (ops.length + n) true) = some (List.replicate n true) := by
  induction ops with
  | nil => rw [List.length_nil, Nat.zero_add, left]
  | cons op ops ih =>
      have others : Op.refuse ∉ ops := fun mem => accepted (List.mem_cons_of_mem _ mem)
      have outcomes : List.replicate ((op :: ops).length + n) true =
          true :: List.replicate (ops.length + n) true := by
        rw [List.length_cons, Nat.add_right_comm, List.replicate_succ]
      rw [outcomes]
      cases op with
      | refuse => exact absurd List.mem_cons_self accepted
      | write item data => exact ih others
      | erase item => exact ih others

omit [DecidableEq κ] in
theorem left_replicate (accepted : Op.refuse ∉ ops) :
    left ops (List.replicate ops.length true) = some [] :=
  left_replicate_add accepted 0

omit [DecidableEq κ] in
theorem stuck_replicate (ops : List (Op κ β)) (n : Nat) :
    stuck ops (List.replicate n true) = [] := by
  induction ops generalizing n with
  | nil => rfl
  | cons op ops ih =>
      cases n with
      | zero => cases op <;> rfl
      | succ n =>
          cases op with
          | refuse => rfl
          | write item data => exact ih n
          | erase item => exact ih n

/-- A guarded update leaves the items alone that are neither its flag nor its body's. -/
theorem run_guarded_outside {body : List (Op κ β)} (outcomes : List Bool) (s : κ → Option β)
    (other : item ≠ flag) (outside : item ∉ items body) :
    (run (guarded flag no yes body) outcomes s).1 item = s item := by
  have append (ops : List (Op κ β)) (outside : item ∉ items ops) :
      item ∉ items (ops ++ [.write flag yes]) := by
    induction ops with
    | nil => exact List.not_mem_cons_of_ne_of_not_mem other List.not_mem_nil
    | cons op ops ih =>
        cases op with
        | refuse => exact ih outside
        | write k data =>
            obtain ⟨different, outside⟩ := not_or.mp (List.mem_cons.not.mp outside)
            exact List.not_mem_cons_of_ne_of_not_mem different (ih outside)
        | erase k =>
            obtain ⟨different, outside⟩ := not_or.mp (List.mem_cons.not.mp outside)
            exact List.not_mem_cons_of_ne_of_not_mem different (ih outside)
  exact run_outside _ _ _ (List.not_mem_cons_of_ne_of_not_mem other (append body outside))

/-- What a guarded update leaves that came to its end. -/
theorem run_guarded_store {keys : List κ} {contents : κ → Option β} (s : κ → Option β)
    (ends : left (guarded flag no yes (store keys contents)) outcomes = some rest)
    (distinct : keys.Nodup) (apart : flag ∉ keys) :
    (run (guarded flag no yes (store keys contents)) outcomes s).1 flag = some yes ∧
      ∀ item ∈ keys, (run (guarded flag no yes (store keys contents)) outcomes s).1 item =
        if item ∈ stuck (store keys contents) outcomes.tail then s item else contents item := by
  obtain ⟨done, after⟩ := run_guarded_of_left s ends (by rwa [items_store])
  refine ⟨done, ?_⟩
  intro item mem
  have other : item ≠ flag := fun same => apart (same ▸ mem)
  rw [after item other, items_store, planned_store mem]
  by_cases failed : item ∈ stuck (store keys contents) outcomes.tail
  · rw [if_pos failed, if_neg fun both => both.2 failed]
  · rw [if_neg failed, if_pos ⟨mem, failed⟩]

end Nonvolatile
