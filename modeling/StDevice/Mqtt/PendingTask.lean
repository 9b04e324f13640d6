import StDevice.Main.LinkedQueue

/-!
# Deleting a client's pending work

When a client is destroyed, `_iot_mqtt_delete_pending_task` walks over the work queue and
unlinks the items the client owns. It distinguishes a queue of one item, the first item, and
any other; in the last case it leaves the tail of the queue as it is.
-/

namespace StDevice.Mqtt

open LinkedList Main Main.LinkedQueue

variable {H P : Type} [DecidableEq P]

/-- The item belongs to the client. -/
def owns (client : P) (work : Work H P) : Bool := work.ownerId == some client

/-- The loop of `_iot_mqtt_delete_pending_task`, with `queue_data_iter` and
`queue_data_prev`. It has no result if it follows a pointer to memory that is not allocated,
or needs more rounds than allowed. -/
def deletePendingLoop (client : P) :
    (rounds : Nat) → LinkedQueue (Work H P) → (iter prev : Option Nat) →
      Option (LinkedQueue (Work H P))
  | _, q, none, _ => some q
  | 0, _, some _, _ => none
  | rounds + 1, q, some iter, prev =>
      match q.heap iter with
      | none => none
      | some item =>
          if owns client item.data then
            if q.head = q.tail then
              deletePendingLoop client rounds ⟨Function.update q.heap iter none, none, none⟩ none
                prev
            else if some iter = q.head then
              deletePendingLoop client rounds
                { q with heap := Function.update q.heap iter none, head := item.next } item.next
                prev
            else
              match prev with
              | none => none
              | some p =>
                  match q.heap p with
                  | none => none
                  | some before =>
                      let heap := Function.update
                        (Function.update q.heap p (some { before with next := item.next })) iter
                        none
                      match heap p with
                      | none => none
                      | some before =>
                          deletePendingLoop client rounds { q with heap } before.next prev
          else deletePendingLoop client rounds q item.next (some iter)

/-- `_iot_mqtt_delete_pending_task`. -/
def iotMqttDeletePendingTask (client : P) (rounds : Nat) (q : LinkedQueue (Work H P))
    (locks : Bool) : Option (LinkedQueue (Work H P)) :=
  if locks then deletePendingLoop client rounds q q.head none else some q

/-- The cells the client does not own. -/
def others (client : P) (cells : List (Nat × Work H P)) : List (Nat × Work H P) :=
  cells.filter fun c => !owns client c.2

variable {client : P} {q q' : LinkedQueue (Work H P)} {kept rest cells : List (Nat × Work H P)}
  {p : Nat} {x : Work H P}

@[simp] theorem others_nil : others client ([] : List (Nat × Work H P)) = [] := rfl

theorem others_cons_of_owns (mine : owns client x = true) :
    others client ((p, x) :: rest) = others client rest :=
  List.filter_cons_of_neg (by simp [mine])

theorem others_cons_of_not_owns (foreign : owns client x = false) :
    others client ((p, x) :: rest) = (p, x) :: others client rest :=
  List.filter_cons_of_pos (by simp [foreign])

theorem contents_others (client : P) (cells : List (Nat × Work H P)) :
    contents (others client cells) = (contents cells).filter fun w => !owns client w := by
  rw [contents, contents, List.filter_map]
  rfl

/-- What the loop leaves: the other cells are linked, and the tail is the old one unless
nothing is left. -/
structure Deleted (client : P) (cells : List (Nat × Work H P)) (q : LinkedQueue (Work H P)) :
    Prop where
  linked : Linked q.heap q.head (others client cells) none
  tail : q.tail = if others client cells = [] then none else (addresses cells).getLast?

/-- Where the loop is: the cells before `queue_data_iter` are kept and not the client's. -/
structure Walk (client : P) (kept rest : List (Nat × Work H P)) (q : LinkedQueue (Work H P))
    (prev : Option Nat) : Prop where
  holds : q.Holds (kept ++ rest)
  foreign : others client kept = kept
  prev : kept ≠ [] → prev = (addresses kept).getLast?

theorem others_append (client : P) (front back : List (Nat × Work H P)) :
    others client (front ++ back) = others client front ++ others client back :=
  List.filter_append ..

variable {prev : Option Nat}

/-- An item of somebody else is passed over. -/
theorem Walk.pass (walk : Walk client kept ((p, x) :: rest) q prev)
    (foreign : owns client x = false) (rounds : Nat) :
    deletePendingLoop client (rounds + 1) q (some p) prev =
        deletePendingLoop client rounds q (addresses rest).head? (some p) ∧
      Walk client (kept ++ [(p, x)]) rest q (some p) := by
  refine ⟨?_, ?_, ?_, ?_⟩
  · rw [deletePendingLoop, walk.holds.node]
    simp [foreign]
  · rw [List.append_assoc]
    exact walk.holds
  · rw [others_append, walk.foreign, others_cons_of_not_owns foreign, others_nil]
  · intro
    rw [addresses_append]
    exact List.getLast?_concat.symm

/-- The only item of the queue is deleted, and the queue is empty. -/
theorem Walk.delete_only (walk : Walk client [] [(p, x)] q prev) (mine : owns client x = true)
    (rounds : Nat) :
    deletePendingLoop client (rounds + 1) q (some p) prev =
      some ⟨Function.update q.heap p none, none, none⟩ := by
  have same : q.head = q.tail := by
    rw [walk.holds.head_eq, walk.holds.tail]
    rfl
  rw [deletePendingLoop, walk.holds.node]
  simp only [mine, if_true, if_pos same]
  cases rounds <;> rfl

/-- The first item of the queue is deleted, and the head moves on. -/
theorem Walk.delete_first (walk : Walk client [] ((p, x) :: rest) q prev)
    (mine : owns client x = true) (more : rest ≠ []) (rounds : Nat) :
    ∃ q', deletePendingLoop client (rounds + 1) q (some p) prev =
        deletePendingLoop client rounds q' (addresses rest).head? prev ∧
      Walk client [] rest q' prev := by
  obtain ⟨distinct, -, outside⟩ := walk.holds.apart
  obtain ⟨-, next, -, linked⟩ := walk.holds.linked
  have head : q.head = some p := walk.holds.head_eq
  have tail : q.tail = (addresses rest).getLast? :=
    walk.holds.tail.trans (getLast?_addresses_append [(p, x)] more)
  have several : q.head ≠ q.tail := by
    rw [head, tail]
    intro same
    exact outside (List.mem_of_getLast? same.symm)
  refine ⟨{ q with heap := Function.update q.heap p none, head := (addresses rest).head? }, ?_,
    ⟨?_, distinct, tail⟩, rfl, fun none => absurd rfl none⟩
  · rw [deletePendingLoop, walk.holds.node]
    simp only [mine, if_true, if_neg several, if_pos head.symm]
  · show Linked _ (addresses rest).head? rest none
    rw [← linked.start_eq]
    exact linked.update outside _

/-- Any other item of the queue is unlinked; the tail stays. -/
theorem Walk.delete_later {front : List (Nat × Work H P)} {b : Nat} {y : Work H P}
    (walk : Walk client (front ++ [(b, y)]) ((p, x) :: rest) q prev)
    (mine : owns client x = true) (rounds : Nat) :
    ∃ q', deletePendingLoop client (rounds + 1) q (some p) prev =
        deletePendingLoop client rounds q' (addresses rest).head? prev ∧
      Linked q'.heap q'.head (front ++ [(b, y)] ++ rest) none ∧ q'.tail = q.tail := by
  obtain ⟨distinct, before, after⟩ := walk.holds.apart
  have earlier : prev = some b := by
    rw [walk.prev (by simp), addresses_append]
    exact List.getLast?_concat
  have source : q.heap b = some ⟨y, some p⟩ := by
    have holds := walk.holds
    rw [List.append_assoc] at holds
    exact holds.node
  obtain ⟨h, -, t, last, head, tail, apart⟩ :=
    walk.holds.ends (List.append_ne_nil_of_right_ne_nil _ (List.cons_ne_nil _ _))
      (List.cons_ne_nil _ _)
  have first : some p ≠ q.head := by
    rw [head]
    intro same
    exact apart (Option.some.inj same ▸ List.mem_cons_self)
  have several : q.head ≠ q.tail := by
    rw [head, tail]
    intro same
    exact apart (Option.some.inj same ▸ last)
  have other : b ≠ p := by
    rintro rfl
    exact before (by simp [addresses])
  refine ⟨⟨Function.update
    (Function.update q.heap b (some ⟨y, (addresses rest).head?⟩)) p none, q.head, q.tail⟩, ?_,
    walk.holds.unlink none, rfl⟩
  have kept : Function.update (Function.update q.heap b (some ⟨y, (addresses rest).head?⟩)) p
      none b = some ⟨y, (addresses rest).head?⟩ :=
    (Function.update_of_ne other _ _).trans (Function.update_self _ _ _)
  rw [deletePendingLoop, walk.holds.node]
  simp only [mine, if_true, if_neg several, if_neg first, earlier, source, kept]

/-- Deleting a cell and then the rest deletes all, when there is a rest. -/
theorem Deleted.cons (deleted : Deleted client (kept ++ rest) q) (mine : owns client x = true)
    (more : rest ≠ []) : Deleted client (kept ++ (p, x) :: rest) q := by
  have left : others client (kept ++ (p, x) :: rest) = others client (kept ++ rest) := by
    rw [others_append, others_append, others_cons_of_owns mine]
  have last : (addresses (kept ++ (p, x) :: rest)).getLast? =
      (addresses (kept ++ rest)).getLast? := by
    rw [getLast?_addresses_append _ (List.cons_ne_nil _ _), getLast?_addresses_append _ more]
    exact getLast?_addresses_append [(p, x)] more
  constructor
  · rw [left]
    exact deleted.linked
  · rw [left, last]
    exact deleted.tail

/-- The loop comes to its end, and what it leaves is right up to the tail. -/
theorem Walk.deleted {rounds : Nat} (walk : Walk client kept rest q prev)
    (enough : rest.length ≤ rounds) :
    ∃ q', deletePendingLoop client rounds q (addresses rest).head? prev = some q' ∧
      Deleted client (kept ++ rest) q' := by
  induction rest generalizing kept q prev rounds with
  | nil =>
      refine ⟨q, by cases rounds <;> rfl, ?_, ?_⟩
      · rw [others_append, walk.foreign]
        exact walk.holds.linked
      · rw [others_append, walk.foreign, others_nil, List.append_nil, walk.holds.tail,
          List.append_nil]
        split
        case isTrue none => rw [none]; rfl
        case isFalse => rfl
  | cons c rest ih =>
      obtain ⟨p, x⟩ := c
      cases rounds with
      | zero => exact absurd enough (Nat.not_succ_le_zero _)
      | succ rounds =>
          have enough : rest.length ≤ rounds := Nat.le_of_succ_le_succ enough
          show ∃ q', deletePendingLoop client (rounds + 1) q (some p) prev = some q' ∧ _
          cases mine : owns client x with
          | false =>
              obtain ⟨round, walk⟩ := walk.pass mine rounds
              obtain ⟨q', run, deleted⟩ := ih walk enough
              rw [List.append_assoc] at deleted
              exact ⟨q', round.trans run, deleted⟩
          | true =>
              have less := @others_cons_of_owns H P _ client rest p x mine
              rcases List.eq_nil_or_concat kept with rfl | ⟨front, ⟨b, y⟩, rfl⟩
              · by_cases more : rest = []
                · subst more
                  refine ⟨_, walk.delete_only mine rounds, ?_, ?_⟩
                  · rw [List.nil_append, less]
                    rfl
                  · rw [List.nil_append, less]
                    rfl
                · obtain ⟨q₁, round, walk⟩ := walk.delete_first mine more rounds
                  obtain ⟨q', run, deleted⟩ := ih walk enough
                  exact ⟨q', round.trans run, deleted.cons mine more⟩
              · rw [List.concat_eq_append] at *
                obtain ⟨q₁, round, linked, tail⟩ := walk.delete_later mine rounds
                rw [walk.holds.tail] at tail
                by_cases more : rest = []
                · -- the last item was deleted: its address stays in the tail
                  subst more
                  refine ⟨q₁, round.trans (by cases rounds <;> rfl), ?_, ?_⟩
                  · rw [others_append, walk.foreign, less]
                    exact linked
                  · rw [others_append, walk.foreign, less, others_nil, List.append_nil,
                      if_neg (by simp), tail]
                · have walk : Walk client (front ++ [(b, y)]) rest q₁ prev := by
                    refine ⟨⟨linked, walk.holds.apart.1, ?_⟩, walk.foreign, walk.prev⟩
                    rw [tail, getLast?_addresses_append _ more,
                      getLast?_addresses_append _ (List.cons_ne_nil _ _)]
                    exact getLast?_addresses_append [(p, x)] more
                  obtain ⟨q', run, deleted⟩ := ih walk enough
                  exact ⟨q', round.trans run, deleted.cons mine more⟩

/-- The tail is right again if nothing was left or the last item was not the client's. -/
def TailKept (client : P) (works : List (Work H P)) : Prop :=
  (∀ w ∈ works, owns client w = true) ∨ ∀ w ∈ works.getLast?, owns client w = false

/-- The items the client does not own. -/
def remaining (client : P) (works : List (Work H P)) : List (Work H P) :=
  works.filter fun w => !owns client w

theorem Deleted.holds_iff (deleted : Deleted client cells q) (distinct : (addresses cells).Nodup) :
    q.Holds (others client cells) ↔ TailKept client (contents cells) := by
  have apart : (addresses (others client cells)).Nodup :=
    distinct.sublist (List.filter_sublist.map Prod.fst)
  have all : others client cells = [] ↔ ∀ w ∈ contents cells, owns client w = true := by
    simp only [others, contents, List.filter_eq_nil_iff, List.forall_mem_map, Bool.not_eq_true',
      Bool.not_eq_false]
  have tail := deleted.tail
  by_cases none : others client cells = []
  · rw [if_pos none] at tail
    refine ⟨fun _ => .inl (all.mp none), fun _ => ⟨deleted.linked, apart, ?_⟩⟩
    rw [tail, none]
    rfl
  · rw [if_neg none] at tail
    rcases List.eq_nil_or_concat cells with rfl | ⟨front, ⟨p, x⟩, rfl⟩
    · exact absurd rfl none
    · rw [List.concat_eq_append] at *
      have last : (addresses (front ++ [(p, x)])).getLast? = some p :=
        getLast?_addresses_append front (List.cons_ne_nil _ _)
      have kept : TailKept client (contents (front ++ [(p, x)])) ↔ owns client x = false := by
        rw [TailKept, or_iff_right (mt all.mpr none), contents_append]
        simp [contents]
      rw [kept]
      cases mine : owns client x with
      | false =>
          refine ⟨fun _ => rfl, fun _ => ⟨deleted.linked, apart, ?_⟩⟩
          rw [tail, last, others_append, others_cons_of_not_owns mine,
            getLast?_addresses_append _ (List.cons_ne_nil _ _)]
          rfl
      | true =>
          refine ⟨fun holds => ?_, fun foreign => absurd foreign (by simp)⟩
          have stale : p ∈ addresses (others client front) := by
            have found := holds.tail
            rw [tail, last, others_append, others_cons_of_owns mine, others_nil,
              List.append_nil] at found
            exact List.mem_of_getLast? found.symm
          have before : p ∈ addresses front :=
            (List.filter_sublist.map Prod.fst).subset stale
          rw [addresses_append, List.nodup_append] at distinct
          exact absurd rfl (distinct.2.2 p before p (List.mem_singleton_self _))

/-- After the deletion the queue stands for the remaining items. -/
theorem Deleted.represents_iff (deleted : Deleted client cells q)
    (distinct : (addresses cells).Nodup) :
    q.Represents (remaining client (contents cells)) ↔ TailKept client (contents cells) := by
  rw [← deleted.holds_iff distinct]
  constructor
  · rintro ⟨cells', holds, -⟩
    rw [← deleted.linked.unique holds.linked]
    exact holds
  · intro holds
    exact ⟨_, holds, contents_others client cells⟩

/-- Whether the client's items are deleted right: the queue stands for the others, and from
then on behaves like the list of them. -/
def DeletesRight (client : P) (q : LinkedQueue (Work H P)) (works : List (Work H P))
    (rounds : Nat) (locks : Bool) : Prop :=
  ∃ q', iotMqttDeletePendingTask client rounds q locks = some q' ∧
    q'.Represents (remaining client works) ∧ q'.BehavesAs (remaining client works)

/-- Under the lock, the deletion is right if the tail is. -/
theorem deletesRight_of_holds {rounds : Nat} (holds : q.Holds cells)
    (enough : cells.length ≤ rounds) :
    DeletesRight client q (contents cells) rounds true ↔ TailKept client (contents cells) := by
  have walk : Walk client [] cells q none := ⟨holds, rfl, fun none => absurd rfl none⟩
  obtain ⟨q', run, deleted⟩ := walk.deleted enough
  rw [← holds.head_eq] at run
  rw [List.nil_append] at deleted
  rw [← Deleted.represents_iff deleted holds.distinct]
  constructor
  · rintro ⟨q₁, run₁, represents, -⟩
    have same : some q₁ = some q' := run₁.symm.trans run
    rw [← Option.some.inj same]
    exact represents
  · intro represents
    exact ⟨q', run, represents, represents.behavesAs⟩

theorem remaining_eq_self_iff (client : P) (works : List (Work H P)) :
    remaining client works = works ↔ ∀ w ∈ works, owns client w = false := by
  simp [remaining]

/-- The pending work of a client is deleted right if and only if the last item is not the
client's, or all items are. If the lock fails, nothing is deleted. -/
theorem deletesRight_iff (client : P) (q : LinkedQueue (Work H P)) (works : List (Work H P))
    (represents : q.Represents works) (rounds : Nat) (enough : works.length ≤ rounds)
    (locks : Bool) :
    DeletesRight client q works rounds locks ↔
      if locks then TailKept client works else ∀ w ∈ works, owns client w = false := by
  cases locks with
  | true =>
      obtain ⟨cells, holds, rfl⟩ := represents
      exact deletesRight_of_holds holds (by simpa [contents] using enough)
  | false =>
      rw [if_neg Bool.false_ne_true, ← remaining_eq_self_iff]
      constructor
      · rintro ⟨q', run, kept, -⟩
        obtain rfl : q = q' := Option.some.inj run
        exact kept.unique represents
      · intro same
        refine ⟨q, rfl, ?_⟩
        rw [same]
        exact ⟨represents, represents.behavesAs⟩

/-- Two items: one of the application, then one of client 7. -/
def twoItems : LinkedQueue (Work Nat Nat) where
  heap := fun p =>
    if p = 1 then some ⟨⟨0, 0, none⟩, some 2⟩ else if p = 2 then some ⟨⟨0, 7, some 7⟩, none⟩
    else none
  head := some 1
  tail := some 2

theorem twoItems_holds : twoItems.Holds [(1, ⟨0, 0, none⟩), (2, ⟨0, 7, some 7⟩)] :=
  ⟨⟨rfl, some 2, rfl, rfl, none, rfl, rfl⟩, by decide, rfl⟩

theorem deletesRight_iff_twoItems :
    DeletesRight 8 twoItems [⟨0, 0, none⟩, ⟨0, 7, some 7⟩] 2 true :=
  (deletesRight_iff 8 twoItems _ ⟨_, twoItems_holds, rfl⟩ 2 (by decide) true).mpr
    (.inr (by simp [contents, owns]))

/-- The last item is deleted, and the tail still points to it. -/
theorem not_deletesRight_twoItems :
    twoItems.Represents [⟨0, 0, none⟩, ⟨0, 7, some 7⟩] ∧
      ¬ DeletesRight 7 twoItems [⟨0, 0, none⟩, ⟨0, 7, some 7⟩] 2 true := by
  refine ⟨⟨_, twoItems_holds, rfl⟩, fun right => ?_⟩
  have kept := (deletesRight_of_holds twoItems_holds (by decide)).mp right
  revert kept
  simp [TailKept, owns, contents]

end StDevice.Mqtt
