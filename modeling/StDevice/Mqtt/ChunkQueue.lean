import StDevice.Main.LinkedQueue
import StDevice.Mqtt.Client

/-!
# The queues of chunks

The client's queues link the chunks themselves: a chunk has a pointer to the next one, and a
queue has pointers to its first and its last. The functions distinguish queues of no chunk, of
one and of more, and the first chunk of a queue from the others. A function that follows a
pointer to memory that is not allocated has no result.

They are compared with lists: a chunk is pushed behind the last, and what is popped is the
first chunk, or the first that is wanted.
-/

namespace StDevice.Mqtt

open LinkedList Main Main.LinkedQueue

/-- What the queues see of `iot_mqtt_packet_chunk_t`: its type and id, and the timer that
`expiry_time` points to, if there is one. -/
structure PacketChunk where
  packetType : Int
  packetId : UInt32
  expiryTime : Option Nat
  deriving DecidableEq

/-- `iot_mqtt_packet_chunk_queue_t` and the memory of the chunks. -/
abbrev ChunkQueue := LinkedQueue PacketChunk

/-- `_iot_mqtt_queue_init`. -/
def iotMqttQueueInit (heap : Heap PacketChunk) : ChunkQueue := ⟨heap, none, none⟩

/-- `_iot_mqtt_queue_push`, where `locks` is the outcome of `iot_os_mutex_lock`. -/
def iotMqttQueuePush (q : ChunkQueue) (chunk : Nat) (locks : Bool) : Option (Int × ChunkQueue) :=
  if locks then
    match q.head, q.tail with
    | some _, some t =>
        match q.heap t with
        | none => none
        | some last =>
            some (0, { q with
              heap := Function.update q.heap t (some { last with next := some chunk })
              tail := some chunk })
    | _, _ => some (0, { q with head := some chunk, tail := some chunk })
  else some (-1, q)

/-- The first chunk of more than one. -/
def popHead (q : ChunkQueue) (h : Nat) : Option (Option Nat × ChunkQueue) :=
  match q.heap h with
  | none => none
  | some chunk =>
      some (some h, { q with
        heap := Function.update q.heap h (some { chunk with next := none })
        head := chunk.next })

/-- `_iot_mqtt_queue_pop`. -/
def iotMqttQueuePop (q : ChunkQueue) (locks : Bool) : Option (Option Nat × ChunkQueue) :=
  if locks then
    match q.head, q.tail with
    | some h, some t =>
        if h = t then some (some h, { q with head := none, tail := none }) else popHead q h
    | _, _ => some (none, q)
  else some (none, q)

/-- The loop over the chunks behind the first, with `iterator`. It has no result if it needs
more rounds than allowed. -/
def popLoop (wanted : PacketChunk → Bool) :
    (rounds : Nat) → ChunkQueue → (iterator : Nat) → Option (Option Nat × ChunkQueue)
  | 0, _, _ => none
  | rounds + 1, q, iterator =>
      match q.heap iterator with
      | none => none
      | some before =>
          match before.next with
          | none => some (none, q)
          | some c =>
              match q.heap c with
              | none => none
              | some chunk =>
                  if wanted chunk.data then
                    some (some c, { q with
                      heap := Function.update
                        (Function.update q.heap iterator (some { before with next := chunk.next }))
                        c (some { chunk with next := none })
                      tail := if some c = q.tail then some iterator else q.tail })
                  else popLoop wanted rounds q c

/-- The first wanted chunk of a queue. -/
def popFirst (wanted : PacketChunk → Bool) (rounds : Nat) (q : ChunkQueue) (locks : Bool) :
    Option (Option Nat × ChunkQueue) :=
  if locks then
    match q.head, q.tail with
    | some h, some t =>
        match q.heap h with
        | none => none
        | some chunk =>
            if h = t then
              if wanted chunk.data then some (some h, { q with head := none, tail := none })
              else some (none, q)
            else if wanted chunk.data then popHead q h
            else popLoop wanted rounds q h
    | _, _ => some (none, q)
  else some (none, q)

def hasPacketTypeAndId (type : Int) (id : UInt32) (chunk : PacketChunk) : Bool :=
  chunk.packetType == type && chunk.packetId == id

/-- The chunk has a timer, and `iot_os_timer_is_active` denies that it is active. -/
def hasExpired (active : Nat → Bool) (chunk : PacketChunk) : Bool :=
  chunk.expiryTime.any fun timer => !active timer

/-- `_iot_mqtt_queue_pop_by_type_and_id`. -/
def iotMqttQueuePopByTypeAndId (rounds : Nat) (q : ChunkQueue) (type : Int) (id : UInt32)
    (locks : Bool) : Option (Option Nat × ChunkQueue) :=
  popFirst (hasPacketTypeAndId type id) rounds q locks

/-- `_iot_mqtt_queue_pop_by_expiry`, with the timers that are active while it runs. -/
def iotMqttQueuePopByExpiry (rounds : Nat) (q : ChunkQueue) (active : Nat → Bool)
    (locks : Bool) : Option (Option Nat × ChunkQueue) :=
  popFirst (hasExpired active) rounds q locks

namespace ChunkQueue

/-- A call on a queue. Between the calls the rest of the program changes the memory. -/
inductive Call where
  | push (chunk : Nat) (data : PacketChunk) (locks : Bool)
  | pop (locks : Bool)
  | popByTypeAndId (type : Int) (id : UInt32) (locks : Bool)
  | popByExpiry (active : Nat → Bool) (locks : Bool)
  | elsewhere (heap : Heap PacketChunk)

/-- What a call returns: a status or a chunk. -/
inductive Answer where
  | status (code : Int)
  | chunk (popped : Option Nat)
  | none
  deriving DecidableEq

def call (rounds : Nat) (q : ChunkQueue) : Call → Option (Answer × ChunkQueue)
  | .push chunk _ locks => (iotMqttQueuePush q chunk locks).map (Prod.map .status id)
  | .pop locks => (iotMqttQueuePop q locks).map (Prod.map .chunk id)
  | .popByTypeAndId type number locks =>
      (iotMqttQueuePopByTypeAndId rounds q type number locks).map (Prod.map .chunk id)
  | .popByExpiry active locks =>
      (iotMqttQueuePopByExpiry rounds q active locks).map (Prod.map .chunk id)
  | .elsewhere heap => some (.none, { q with heap })

/-- A chunk that is pushed is in no queue and leads nowhere, and the rest of the program
leaves the chunks of the queue alone. -/
def Allows (q : ChunkQueue) (chunks : List (Nat × PacketChunk)) : Call → Prop
  | .push chunk data _ => q.heap chunk = some ⟨data, none⟩ ∧ chunk ∉ addresses chunks
  | .elsewhere heap => ∀ chunk ∈ addresses chunks, heap chunk = q.heap chunk
  | _ => True

/-- The first wanted chunk of a list, and the others. -/
def listPop (wanted : PacketChunk → Bool) (chunks : List (Nat × PacketChunk)) :
    Option Nat × List (Nat × PacketChunk) :=
  ((chunks.find? fun c => wanted c.2).map Prod.fst, chunks.eraseP fun c => wanted c.2)

/-- The same call on a list. -/
def listCall (chunks : List (Nat × PacketChunk)) : Call → Answer × List (Nat × PacketChunk)
  | .push chunk data locks =>
      if locks then (.status 0, chunks ++ [(chunk, data)]) else (.status (-1), chunks)
  | .pop locks =>
      if locks then (.chunk (chunks.head?.map Prod.fst), chunks.tail) else (.chunk none, chunks)
  | .popByTypeAndId type number locks =>
      if locks then (listPop (hasPacketTypeAndId type number) chunks).map .chunk id
      else (.chunk none, chunks)
  | .popByExpiry active locks =>
      if locks then (listPop (hasExpired active) chunks).map .chunk id else (.chunk none, chunks)
  | .elsewhere _ => (.none, chunks)

variable {q : ChunkQueue} {chunks front rest : List (Nat × PacketChunk)} {c h : Nat}
  {x : PacketChunk} {wanted : PacketChunk → Bool} {rounds : Nat}

theorem listPop_cons_of_wanted (want : wanted x = true) :
    listPop wanted ((c, x) :: rest) = (some c, rest) := by
  rw [listPop, List.find?_cons, List.eraseP_cons, want]
  rfl

theorem listPop_cons_of_unwanted (want : wanted x = false) :
    listPop wanted ((c, x) :: rest) =
      ((listPop wanted rest).1, (c, x) :: (listPop wanted rest).2) := by
  rw [listPop, List.find?_cons, List.eraseP_cons, want]
  rfl

/-- What is left after a pop: the other chunks, and the popped one leads nowhere. -/
structure Popped (popped : Option Nat) (rest : List (Nat × PacketChunk)) (q : ChunkQueue) :
    Prop where
  holds : q.Holds rest
  next : ∀ c ∈ popped, ∃ x, q.heap c = some ⟨x, none⟩

theorem holds_init (heap : Heap PacketChunk) : (iotMqttQueueInit heap).Holds [] :=
  ⟨rfl, List.nodup_nil, rfl⟩

theorem push_holds (holds : q.Holds chunks) (node : q.heap c = some ⟨x, none⟩)
    (outside : c ∉ addresses chunks) :
    ∃ q', iotMqttQueuePush q c true = some (0, q') ∧ q'.Holds (chunks ++ [(c, x)]) := by
  rcases List.eq_nil_or_concat chunks with rfl | ⟨front, ⟨t, y⟩, rfl⟩
  · have head : q.head = none := holds.linked
    refine ⟨_, by rw [iotMqttQueuePush, head]; rfl, ?_, List.nodup_singleton c, rfl⟩
    exact ⟨rfl, none, node, rfl⟩
  · rw [List.concat_eq_append] at *
    obtain ⟨h, head⟩ : ∃ h, q.head = some h := by
      rw [holds.head_eq]
      cases front with
      | nil => exact ⟨t, rfl⟩
      | cons c front => exact ⟨c.1, rfl⟩
    have last : q.heap t = some ⟨y, none⟩ := holds.node
    refine ⟨_, by simp only [iotMqttQueuePush, head, holds.tail_of_last, last, if_true]; rfl, ?_⟩
    have whole := holds.concat outside node
    rwa [head] at whole

theorem popped_none (holds : q.Holds chunks) : Popped none chunks q :=
  ⟨holds, fun _ mem => by cases mem⟩

/-- The only chunk of a queue. -/
theorem popped_only (holds : q.Holds [(h, x)]) :
    q.head = some h ∧ q.tail = some h ∧ q.heap h = some ⟨x, none⟩ ∧
      Popped (some h) [] { q with head := none, tail := none } := by
  have node : q.heap h = some ⟨x, none⟩ := @Holds.node _ q [] [] h x holds
  refine ⟨holds.head_eq, holds.tail, node, ⟨rfl, List.nodup_nil, rfl⟩, fun c mem => ?_⟩
  rw [← Option.some.inj mem]
  exact ⟨x, node⟩

/-- The first chunk of a queue that has more. -/
theorem popHead_popped (holds : q.Holds ((h, x) :: rest)) (more : rest ≠ []) :
    ∃ t, q.head = some h ∧ q.tail = some t ∧ h ≠ t ∧ ∃ next, q.heap h = some ⟨x, next⟩ ∧
      ∃ q', popHead q h = some (some h, q') ∧ Popped (some h) rest q' := by
  obtain ⟨head, next, node, linked⟩ := holds.linked
  obtain ⟨outside, distinct⟩ := List.nodup_cons.mp holds.distinct
  have tail : q.tail = (addresses rest).getLast? :=
    holds.tail.trans (getLast?_addresses_append [(h, x)] more)
  obtain ⟨t, last⟩ : ∃ t, (addresses rest).getLast? = some t :=
    Option.ne_none_iff_exists'.mp fun none =>
      more (addresses_eq_nil_iff.mp (List.getLast?_eq_none_iff.mp none))
  have other : h ≠ t := by
    rintro rfl
    exact outside (List.mem_of_getLast? last)
  refine ⟨t, head, tail.trans last, other, next, node, _, by rw [popHead, node], ?_, ?_⟩
  · exact ⟨linked.update outside _, distinct, tail⟩
  · intro c mem
    rw [← Option.some.inj mem]
    exact ⟨x, Function.update_self _ _ _⟩

theorem pop_popped (holds : q.Holds chunks) :
    ∃ q', iotMqttQueuePop q true = some (chunks.head?.map Prod.fst, q') ∧
      Popped (chunks.head?.map Prod.fst) chunks.tail q' := by
  cases chunks with
  | nil =>
      have head : q.head = none := holds.linked
      exact ⟨q, by rw [iotMqttQueuePop, if_pos rfl, head]; rfl, popped_none holds⟩
  | cons first rest =>
      obtain ⟨h, x⟩ := first
      by_cases only : rest = []
      · subst only
        obtain ⟨head, tail, -, popped⟩ := popped_only holds
        exact ⟨_, by simp only [iotMqttQueuePop, head, tail, if_true]; rfl, popped⟩
      · obtain ⟨t, head, tail, other, -, -, q', pop, popped⟩ := popHead_popped holds only
        refine ⟨q', ?_, popped⟩
        simp only [iotMqttQueuePop, head, tail, if_true, if_neg other]
        exact pop

/-- The tail after the chunk behind `b` was popped. -/
theorem tail_after {b : Nat} {y : PacketChunk}
    (holds : q.Holds (front ++ [(b, y)] ++ (c, x) :: rest)) :
    (if some c = q.tail then some b else q.tail) =
      (addresses (front ++ [(b, y)] ++ rest)).getLast? := by
  obtain ⟨-, -, outside⟩ := holds.apart
  cases rest with
  | nil =>
      rw [if_pos holds.tail_of_last.symm, List.append_nil, addresses_append]
      exact List.getLast?_concat.symm
  | cons d rest =>
      have tail : q.tail = (addresses (d :: rest)).getLast? := by
        rw [holds.tail, getLast?_addresses_append _ (List.cons_ne_nil _ _)]
        exact getLast?_addresses_append [(c, x)] (List.cons_ne_nil _ _)
      have other : some c ≠ q.tail := by
        rw [tail]
        intro same
        exact outside (List.mem_of_getLast? same.symm)
      rw [if_neg other, tail, getLast?_addresses_append _ (List.cons_ne_nil _ _)]

/-- The loop finds the first wanted chunk behind the one it starts from. -/
theorem popLoop_popped {b : Nat} {y : PacketChunk} (holds : q.Holds (front ++ (b, y) :: rest))
    (enough : rest.length < rounds) :
    ∃ q', popLoop wanted rounds q b = some ((listPop wanted rest).1, q') ∧
      Popped (listPop wanted rest).1 (front ++ (b, y) :: (listPop wanted rest).2) q' := by
  induction rest generalizing front b y rounds with
  | nil =>
      obtain ⟨rounds, rfl⟩ := Nat.exists_eq_add_of_lt enough
      refine ⟨q, ?_, popped_none holds⟩
      rw [popLoop, holds.node]
      rfl
  | cons d rest ih =>
      obtain ⟨c, x⟩ := d
      obtain ⟨rounds, rfl⟩ : ∃ n, rounds = n + 1 := ⟨rounds - 1, by omega⟩
      have here := holds.node
      rw [List.append_cons] at holds
      have next := holds.node
      rw [popLoop, here, addresses_cons, List.head?_cons]
      dsimp only
      rw [next]
      dsimp only
      cases want : wanted x with
      | true =>
          rw [if_pos rfl, listPop_cons_of_wanted want, List.append_cons]
          refine ⟨_, rfl, ⟨holds.unlink _, holds.apart.1, tail_after holds⟩, fun c' mem => ?_⟩
          rw [← Option.some.inj mem]
          exact ⟨x, Function.update_self _ _ _⟩
      | false =>
          rw [if_neg Bool.false_ne_true, listPop_cons_of_unwanted want, List.append_cons]
          exact ih holds (Nat.lt_of_succ_lt_succ enough)

/-- The first wanted chunk is popped from wherever it is. -/
theorem popFirst_popped (holds : q.Holds chunks) (enough : chunks.length ≤ rounds) :
    ∃ q', popFirst wanted rounds q true = some ((listPop wanted chunks).1, q') ∧
      Popped (listPop wanted chunks).1 (listPop wanted chunks).2 q' := by
  cases chunks with
  | nil =>
      have head : q.head = none := holds.linked
      exact ⟨q, by rw [popFirst, if_pos rfl, head]; rfl, popped_none holds⟩
  | cons first rest =>
      obtain ⟨h, x⟩ := first
      by_cases only : rest = []
      · subst only
        obtain ⟨head, tail, node, popped⟩ := popped_only holds
        simp only [popFirst, head, tail, node, if_true]
        cases want : wanted x with
        | true =>
            rw [listPop_cons_of_wanted want]
            exact ⟨_, rfl, popped⟩
        | false =>
            rw [listPop_cons_of_unwanted want]
            exact ⟨q, rfl, popped_none holds⟩
      · obtain ⟨t, head, tail, other, next, node, q', pop, popped⟩ := popHead_popped holds only
        simp only [popFirst, head, tail, node, if_true, if_neg other]
        cases want : wanted x with
        | true =>
            rw [listPop_cons_of_wanted want]
            exact ⟨q', pop, popped⟩
        | false =>
            rw [listPop_cons_of_unwanted want]
            exact @popLoop_popped q [] rest wanted rounds h x holds enough

/-! ## Sequences of calls -/

/-- The queue stands for the list: the chunks are linked in their order, from the head to the
tail. -/
structure Stands (q : ChunkQueue) (chunks : List (Nat × PacketChunk)) : Prop where
  linked : Linked q.heap q.head chunks none
  empty : q.head = none ↔ q.tail = none
  tail : q.tail = (addresses chunks).getLast?
  last : ∀ t ∈ q.tail, ∃ x, q.heap t = some ⟨x, none⟩

/-- A chunk that was returned leads nowhere. -/
def Unlinked (q : ChunkQueue) : Answer → Prop
  | .chunk (some c) => ∃ x, q.heap c = some ⟨x, none⟩
  | _ => True

/-- Every call is allowed where it is made. -/
def Legal (rounds : Nat) (q : ChunkQueue) (chunks : List (Nat × PacketChunk)) :
    List Call → Prop
  | [] => True
  | c :: calls => Allows q chunks c ∧ ∀ answer q', call rounds q c = some (answer, q') →
      Legal rounds q' (listCall chunks c).2 calls

/-- Call by call, the queue answers as the list does and stands for it. -/
def Refines (rounds : Nat) (q : ChunkQueue) (chunks : List (Nat × PacketChunk)) :
    List Call → Prop
  | [] => Stands q chunks
  | c :: calls => Stands q chunks ∧ ∃ q', call rounds q c = some ((listCall chunks c).1, q') ∧
      Unlinked q' (listCall chunks c).1 ∧ Refines rounds q' (listCall chunks c).2 calls

theorem stands_of_holds (holds : q.Holds chunks) : Stands q chunks := by
  refine ⟨holds.linked, ?_, holds.tail, ?_⟩
  · rw [holds.head_eq, holds.tail, List.head?_eq_none_iff, List.getLast?_eq_none_iff]
  · rcases List.eq_nil_or_concat chunks with rfl | ⟨front, ⟨t, x⟩, rfl⟩
    · intro t mem
      rw [holds.tail] at mem
      cases mem
    · rw [List.concat_eq_append] at holds
      intro t' mem
      rw [holds.tail_of_last] at mem
      rw [← Option.some.inj mem]
      exact ⟨x, holds.node⟩

theorem unlinked_of_popped {popped : Option Nat} (left : Popped popped rest q) :
    Unlinked q (.chunk popped) := by
  cases popped with
  | none => trivial
  | some c => exact left.next c rfl

/-- One call does to the queue what it does to the list. -/
theorem call_holds {e : Call} (holds : q.Holds chunks) (allowed : Allows q chunks e)
    (enough : chunks.length ≤ rounds) :
    ∃ q', call rounds q e = some ((listCall chunks e).1, q') ∧
      Unlinked q' (listCall chunks e).1 ∧ q'.Holds (listCall chunks e).2 := by
  cases e with
  | push c x locks =>
      cases locks with
      | false => exact ⟨q, rfl, trivial, holds⟩
      | true =>
          obtain ⟨q', pushed, after⟩ := push_holds holds allowed.1 allowed.2
          exact ⟨q', by rw [call, pushed]; rfl, trivial, after⟩
  | pop locks =>
      cases locks with
      | false => exact ⟨q, rfl, trivial, holds⟩
      | true =>
          obtain ⟨q', pop, popped⟩ := pop_popped holds
          exact ⟨q', by rw [call, pop]; rfl, unlinked_of_popped popped, popped.holds⟩
  | popByTypeAndId type number locks =>
      cases locks with
      | false => exact ⟨q, rfl, trivial, holds⟩
      | true =>
          obtain ⟨q', pop, popped⟩ := popFirst_popped holds enough
          exact ⟨q', by rw [call, iotMqttQueuePopByTypeAndId, pop]; rfl,
            unlinked_of_popped popped, popped.holds⟩
  | popByExpiry active locks =>
      cases locks with
      | false => exact ⟨q, rfl, trivial, holds⟩
      | true =>
          obtain ⟨q', pop, popped⟩ := popFirst_popped holds enough
          exact ⟨q', by rw [call, iotMqttQueuePopByExpiry, pop]; rfl,
            unlinked_of_popped popped, popped.holds⟩
  | elsewhere heap =>
      exact ⟨_, rfl, trivial, holds.linked.frame allowed, holds.distinct, holds.tail⟩

theorem length_listCall_le (chunks : List (Nat × PacketChunk)) (e : Call) :
    (listCall chunks e).2.length ≤ chunks.length + 1 := by
  have popped (wanted : PacketChunk → Bool) :
      (listPop wanted chunks).2.length ≤ chunks.length + 1 :=
    (List.length_eraseP_le).trans (Nat.le_succ _)
  cases e with
  | push c x locks =>
      cases locks with
      | false => exact Nat.le_succ _
      | true => exact Nat.le_of_eq List.length_append
  | pop locks =>
      cases locks with
      | false => exact Nat.le_succ _
      | true => exact (Nat.le_of_eq List.length_tail).trans (by omega)
  | popByTypeAndId type number locks =>
      cases locks with
      | false => exact Nat.le_succ _
      | true => exact popped _
  | popByExpiry active locks =>
      cases locks with
      | false => exact Nat.le_succ _
      | true => exact popped _
  | elsewhere heap => exact Nat.le_succ _

/-- Whatever is called, the queue goes on like the list it stands for. -/
theorem refines_of_holds {calls : List Call} (holds : q.Holds chunks)
    (legal : Legal rounds q chunks calls) (enough : chunks.length + calls.length ≤ rounds) :
    Refines rounds q chunks calls := by
  induction calls generalizing q chunks with
  | nil => exact stands_of_holds holds
  | cons e calls ih =>
      obtain ⟨allowed, later⟩ := legal
      rw [List.length_cons] at enough
      have inside : chunks.length ≤ rounds := by omega
      obtain ⟨q', answered, unlinked, after⟩ := call_holds holds allowed inside
      have length := length_listCall_le chunks e
      exact ⟨stands_of_holds holds, q', answered, unlinked,
        ih after (later _ q' answered) (by omega)⟩

/-- From its initialization on a queue is a list: chunks are pushed at the end, and popped from
the front or where the first is that is wanted. -/
theorem queue_refines (heap : Heap PacketChunk) {calls : List Call}
    (legal : Legal rounds (iotMqttQueueInit heap) [] calls) (enough : calls.length ≤ rounds) :
    Refines rounds (iotMqttQueueInit heap) [] calls := by
  refine refines_of_holds (holds_init heap) legal ?_
  rwa [List.length_nil, Nat.zero_add]

/-- The last of two chunks is popped by its id, and pushed again behind the other. -/
theorem queue_refines_repush :
    let chunk (number : UInt32) : PacketChunk := ⟨3, number, none⟩
    let heap : Heap PacketChunk := fun p => some ⟨chunk (.ofNat p), none⟩
    let calls : List Call := [.push 0 (chunk 0) true, .push 1 (chunk 1) true,
      .popByTypeAndId 3 1 true, .push 1 (chunk 1) true, .pop true]
    Refines 5 (iotMqttQueueInit heap) [] calls := by
  intro chunk heap calls
  refine queue_refines heap ⟨⟨rfl, List.not_mem_nil⟩, ?_⟩ (Nat.le_refl 5)
  rintro _ _ ⟨⟩
  refine ⟨⟨rfl, by decide⟩, ?_⟩
  rintro _ _ ⟨⟩
  refine ⟨trivial, ?_⟩
  rintro _ _ ⟨⟩
  refine ⟨⟨rfl, by decide⟩, ?_⟩
  rintro _ _ ⟨⟩
  refine ⟨trivial, ?_⟩
  rintro _ _ ⟨⟩
  trivial

/-- The client's queues of chunk numbers pop the same chunks. -/
theorem popBy_addresses {data : Nat → PacketChunk} (same : ∀ c ∈ chunks, data c.1 = c.2) :
    popBy (fun c => wanted (data c)) (addresses chunks) =
      (listPop wanted chunks).1.map fun c => (c, addresses (listPop wanted chunks).2) := by
  induction chunks with
  | nil => rfl
  | cons c chunks ih =>
      obtain ⟨c, x⟩ := c
      have here : data c = x := same _ List.mem_cons_self
      rw [addresses_cons, popBy, here, ih fun c mem => same c (List.mem_cons_of_mem _ mem)]
      cases want : wanted x with
      | true =>
          rw [listPop_cons_of_wanted want]
          rfl
      | false =>
          rw [listPop_cons_of_unwanted want]
          cases (listPop wanted chunks).1 with
          | none => rfl
          | some d => rfl

end ChunkQueue

end StDevice.Mqtt
