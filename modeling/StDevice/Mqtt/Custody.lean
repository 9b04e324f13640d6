import Mathlib.Data.List.Nodup
import StDevice.Mqtt.Ledger

/-!
# Where the chunks are

`Holds` says, of a state and of what a thread has in its hands in the middle of a
step, that no chunk is in two places, that every placed chunk is there and looks as
its place says, and that the books are in order. There is one lemma for each
operation the client is made of.
-/

namespace StDevice.Mqtt

open Custody

/-- What a development looks at: `extra` facts about placed chunks, whether no placed
chunk is freed by its owner, and whether every accepted message is accounted for. -/
structure Watch where
  extra : Role → Chunk → Prop
  careful : Prop
  strict : Prop

/-- The chunk exists, and was not freed by a cycle nor, if one is `careful`, by its
owner. -/
def Client.Present (careful : Prop) (s : Client) (c : Nat) : Prop :=
  c < s.created ∧ ∀ free ∈ s.frees, free.chunk = c → free.haveOwner = true ∧ ¬ careful

/-- What is kept through a step, while a thread has `hand` in its hands. -/
structure Holds (w : Watch) (s : Client) (hand : List (Seat Nat Role)) : Prop where
  custody : Sound (fun r x => r.Fits x ∧ w.extra r x) s.chunk (s.Present w.careful)
    (hand ++ s.seats)
  ledger : Ledger s.chunk s.created s.waiting s.frees
  tally : Tally w.strict s.chunk s.created (items (hand ++ s.seats)) s.accepted
    (s.acknowledged ++ s.reported) s.inbound s.answered s.delivered

/-- A free leaves the other chunks there. -/
theorem Client.Present.destroy {careful : Prop} {s : Client} {c d : Nat} {agent : Agent}
    (present : s.Present careful d) (other : d ≠ c) : (s.destroy c agent).Present careful d := by
  refine ⟨present.1, ?_⟩
  intro free freed same
  rcases List.mem_cons.mp freed with rfl | freed
  · exact absurd same.symm other
  · exact present.2 free freed same

theorem Client.count_seats (s : Client) (seat : Seat Nat Role) :
    s.seats.count seat = (s.writePendingQueue.map (⟨·, .writeQueue⟩)).count seat +
      (s.ackPendingQueue.map (⟨·, .ackQueue⟩)).count seat +
      (s.userEventCallbackQueue.map (⟨·, .userQueue⟩)).count seat +
      (s.jobs.flatMap Job.seats).count seat := by
  unfold Client.seats
  rw [List.count_append, List.count_append, List.count_append]

namespace Holds

variable {w : Watch} {s : Client}
  {hand : List (Seat Nat Role)} {c : Nat} {r r' : Role} {x : Chunk}

/-- What a chunk in hand looks like. -/
theorem fit (holds : Holds w s (⟨c, r⟩ :: hand)) :
    r.Fits (s.chunk c) ∧ w.extra r (s.chunk c) :=
  holds.custody.fit ⟨c, r⟩ List.mem_cons_self

theorem present (holds : Holds w s (⟨c, r⟩ :: hand)) : s.Present w.careful c :=
  holds.custody.alive ⟨c, r⟩ List.mem_cons_self

/-- A placed chunk without owner was not freed. -/
theorem unfreed (holds : Holds w s (⟨c, r⟩ :: hand)) (unowned : (s.chunk c).haveOwner = false) :
    ∀ free ∈ s.frees, free.chunk ≠ c := by
  rintro free freed rfl
  have owned := (holds.present.2 free freed rfl).1
  have recorded := (holds.ledger.permitted free freed).recorded
  rw [owned, unowned] at recorded
  exact absurd recorded (by simp)

/-- The chunk of an accepted message looks like one. -/
theorem unaccepted (holds : Holds w s hand) (other : ¬ (s.chunk c).Message) :
    c ∉ s.accepted := by
  intro mem
  exact other (holds.tally.message c mem).2

/-- Move chunks between the hands and the places; nothing else changes. -/
private theorem transfer {t : Client} {hand' : List (Seat Nat Role)}
    (holds : Holds w s hand) (chunk : t.chunk = s.chunk)
    (present : t.Present w.careful = s.Present w.careful)
    (ledger : Ledger t.chunk t.created t.waiting t.frees)
    (tally : Tally w.strict t.chunk t.created (items (hand ++ s.seats)) t.accepted
      (t.acknowledged ++ t.reported) t.inbound t.answered t.delivered)
    (count : ∀ seat, hand.count seat + s.seats.count seat =
      hand'.count seat + t.seats.count seat) : Holds w t hand' := by
  have perm : (hand ++ s.seats).Perm (hand' ++ t.seats) := by
    refine List.perm_iff_count.mpr fun seat => ?_
    rw [List.count_append, List.count_append]
    exact count seat
  refine ⟨?_, ledger, tally.perm (items_perm perm)⟩
  rw [chunk, present]
  exact holds.custody.perm perm

theorem takeJob {j : Job} (holds : Holds w s hand) (mem : j ∈ s.jobs) :
    Holds w { s with jobs := s.jobs.erase j } (j.seats ++ hand) := by
  refine holds.transfer rfl rfl holds.ledger holds.tally fun seat => ?_
  have taken := ((List.perm_cons_erase mem).flatMap_right Job.seats).count_eq seat
  rw [List.flatMap_cons, List.count_append] at taken
  simp only [Client.count_seats, List.count_append]
  omega

theorem putJob {j : Job} (holds : Holds w s (j.seats ++ hand)) :
    Holds w { s with jobs := j :: s.jobs } hand := by
  refine holds.transfer rfl rfl holds.ledger holds.tally fun seat => ?_
  simp only [Client.count_seats, List.count_append, List.flatMap_cons]
  omega

theorem pushWrite (holds : Holds w s (⟨c, .writeQueue⟩ :: hand)) :
    Holds w (s.pushWrite c) hand := by
  refine holds.transfer rfl rfl holds.ledger holds.tally fun seat => ?_
  simp only [Client.count_seats, Client.pushWrite, List.map_append, List.map_singleton,
    List.count_append, List.count_cons, List.count_nil]
  omega

theorem pushAck (holds : Holds w s (⟨c, .ackQueue⟩ :: hand)) :
    Holds w (s.pushAck c) hand := by
  refine holds.transfer rfl rfl holds.ledger holds.tally fun seat => ?_
  simp only [Client.count_seats, Client.pushAck, List.map_append, List.map_singleton,
    List.count_append, List.count_cons, List.count_nil]
  omega

theorem pushUser (holds : Holds w s (⟨c, .userQueue⟩ :: hand)) :
    Holds w (s.pushUser c) hand := by
  refine holds.transfer rfl rfl holds.ledger holds.tally fun seat => ?_
  simp only [Client.count_seats, Client.pushUser, List.map_append, List.map_singleton,
    List.count_append, List.count_cons, List.count_nil]
  omega

theorem popWrite {queue : List Nat} (holds : Holds w s hand)
    (pops : s.writePendingQueue.Perm (c :: queue)) :
    Holds w { s with writePendingQueue := queue } (⟨c, .writeQueue⟩ :: hand) := by
  refine holds.transfer rfl rfl holds.ledger holds.tally fun seat => ?_
  have popped := (pops.map (⟨·, Role.writeQueue⟩ : Nat → Seat Nat Role)).count_eq seat
  simp only [Client.count_seats, List.map_cons, List.count_cons] at popped ⊢
  omega

theorem popAck {queue : List Nat} (holds : Holds w s hand)
    (pops : s.ackPendingQueue.Perm (c :: queue)) :
    Holds w { s with ackPendingQueue := queue } (⟨c, .ackQueue⟩ :: hand) := by
  refine holds.transfer rfl rfl holds.ledger holds.tally fun seat => ?_
  have popped := (pops.map (⟨·, Role.ackQueue⟩ : Nat → Seat Nat Role)).count_eq seat
  simp only [Client.count_seats, List.map_cons, List.count_cons] at popped ⊢
  omega

theorem popUser {queue : List Nat} (holds : Holds w s hand)
    (pops : s.userEventCallbackQueue.Perm (c :: queue)) :
    Holds w { s with userEventCallbackQueue := queue } (⟨c, .userQueue⟩ :: hand) := by
  refine holds.transfer rfl rfl holds.ledger holds.tally fun seat => ?_
  have popped := (pops.map (⟨·, Role.userQueue⟩ : Nat → Seat Nat Role)).count_eq seat
  simp only [Client.count_seats, List.map_cons, List.count_cons] at popped ⊢
  omega

/-- Let a chunk go that is no message. -/
theorem forget (holds : Holds w s (⟨c, r⟩ :: hand)) (other : w.strict → c ∉ s.accepted)
    (noMessage : ¬ (s.chunk c).Inbound) : Holds w s hand :=
  ⟨holds.custody.drop fun _ _ alive => alive, holds.ledger, holds.tally.drop other noMessage⟩

/-- Take a chunk in hand for another place. -/
theorem recast (holds : Holds w s (⟨c, r⟩ :: hand)) (fit : r'.Fits (s.chunk c))
    (more : w.extra r' (s.chunk c)) : Holds w s (⟨c, r'⟩ :: hand) := by
  refine ⟨?_, holds.ledger, holds.tally⟩
  have moved : Sound (fun r x => r.Fits x ∧ w.extra r x)
      (Function.update s.chunk c (s.chunk c)) (s.Present w.careful)
      (⟨c, r'⟩ :: (hand ++ s.seats)) := holds.custody.move ⟨fit, more⟩
  rwa [Function.update_eq_self] at moved

/-- Change a chunk in hand. -/
theorem store (holds : Holds w s (⟨c, r⟩ :: hand)) (becomes : (s.chunk c).Becomes x)
    (fit : r'.Fits x) (more : w.extra r' x) : Holds w (s.store c x) (⟨c, r'⟩ :: hand) :=
  ⟨holds.custody.move ⟨fit, more⟩, holds.ledger.store becomes, holds.tally.store becomes⟩

/-- Change a chunk that is nowhere. -/
theorem storeOutside (holds : Holds w s hand) (outside : c ∉ items (hand ++ s.seats))
    (becomes : (s.chunk c).Becomes x) : Holds w (s.store c x) hand :=
  ⟨holds.custody.update outside, holds.ledger.store becomes, holds.tally.store becomes⟩

/-- Change a chunk that is nowhere and take it in hand. -/
theorem storeTaken (holds : Holds w s hand) (outside : c ∉ items (hand ++ s.seats))
    (present : s.Present w.careful c) (owned : (s.chunk c).haveOwner = true)
    (becomes : (s.chunk c).Becomes x) (fit : r.Fits x) (more : w.extra r x) :
    Holds w (s.store c x) (⟨c, r⟩ :: hand) := by
  have other := holds.unaccepted (Chunk.not_message_of_owned owned)
  refine ⟨holds.custody.put outside present ⟨fit, more⟩, holds.ledger.store becomes,
    (holds.tally.store becomes).hold other ?_⟩
  rw [Function.update_self]
  exact Chunk.not_inbound_of_owned (becomes.owner.trans owned)

/-- Change a chunk in hand for the last time and leave it to its owner. -/
theorem settle (holds : Holds w s (⟨c, r⟩ :: hand))
    (owned : (s.chunk c).haveOwner = true) (becomes : (s.chunk c).Becomes x) :
    Holds w (s.store c x) hand := by
  have left := holds.forget (fun _ => holds.unaccepted (Chunk.not_message_of_owned owned))
    (Chunk.not_inbound_of_owned owned)
  exact left.storeOutside holds.custody.notMem becomes

/-- Free a chunk in hand that is no message. -/
theorem destroy (holds : Holds w s (⟨c, r⟩ :: hand)) (unowned : (s.chunk c).haveOwner = false)
    (other : w.strict → c ∉ s.accepted) (noMessage : ¬ (s.chunk c).Inbound) :
    Holds w (s.destroy c .cycle) hand :=
  ⟨holds.custody.drop fun _ other present => present.destroy other,
    holds.ledger.free holds.present.1 (holds.unfreed unowned) unowned,
    holds.tally.drop other noMessage⟩

/-- Change a chunk in hand that is no message, and free it. -/
theorem destroyStored (holds : Holds w s (⟨c, r⟩ :: hand)) (becomes : (s.chunk c).Becomes x)
    (unowned : (s.chunk c).haveOwner = false) (other : w.strict → c ∉ s.accepted)
    (noMessage : ¬ x.Inbound) : Holds w ((s.store c x).destroy c .cycle) hand := by
  have dropped : Sound (fun r x => r.Fits x ∧ w.extra r x) s.chunk
      (((s.store c x).destroy c .cycle).Present w.careful) (hand ++ s.seats) :=
    holds.custody.drop fun _ other present =>
      Client.Present.destroy (s := s.store c x) present other
  refine ⟨dropped.update holds.custody.notMem, ?_, (holds.tally.store becomes).drop other ?_⟩
  · refine (holds.ledger.store becomes).free holds.present.1 (holds.unfreed unowned) ?_
    rw [Function.update_self, becomes.owner, unowned]
  · rwa [Function.update_self]

/-- Seat a new chunk. -/
private theorem custody_create (holds : Holds w s hand) (fit : r.Fits x) (more : w.extra r x) :
    Sound (fun r x => r.Fits x ∧ w.extra r x) (s.create x).chunk
      ((s.create x).Present w.careful) (⟨s.created, r⟩ :: (hand ++ s.seats)) := by
  refine holds.custody.create ?_ ?_ ?_ ⟨fit, more⟩
  · rintro ⟨before, -⟩
    exact Nat.lt_irrefl _ before
  · rintro d ⟨before, unfreed⟩
    exact ⟨Nat.lt_succ_of_lt before, unfreed⟩
  · refine ⟨Nat.lt_succ_self _, ?_⟩
    intro free freed same
    exact absurd same (Nat.ne_of_lt (holds.ledger.permitted free freed).before)

/-- Create a chunk. -/
theorem create (holds : Holds w s hand) (ownable : x.Ownable) (fit : r.Fits x)
    (more : w.extra r x) (other : ¬ x.Inbound) :
    Holds w (s.create x) (⟨s.created, r⟩ :: hand) :=
  ⟨holds.custody_create fit more, holds.ledger.create ownable, holds.tally.create other⟩

/-- Create the chunk of a PUBLISH received without the DUP bit. -/
theorem arrive (holds : Holds w s hand) (ownable : x.Ownable) (fit : r.Fits x)
    (more : w.extra r x) (arrived : x.Inbound) :
    Holds w { s.create x with inbound := s.created :: s.inbound } (⟨s.created, r⟩ :: hand) := by
  have seated := holds.custody_create fit more
  exact ⟨seated, holds.ledger.create ownable, holds.tally.arrive arrived seated.notMem⟩

/-- The end of a waiting call. If one is careful, its chunk is nowhere. -/
theorem leave (holds : Holds w s hand) (mem : c ∈ s.waiting)
    (outside : w.careful → c ∉ items (hand ++ s.seats)) : Holds w (s.leave c) hand := by
  refine ⟨⟨holds.custody.distinct, ?_, holds.custody.fit⟩, holds.ledger.leave mem, holds.tally⟩
  intro seat placed
  have present := holds.custody.alive seat placed
  refine ⟨present.1, ?_⟩
  intro free freed same
  rcases List.mem_cons.mp freed with rfl | freed
  · refine ⟨(holds.ledger.waited c mem).2.1, fun careful => outside careful ?_⟩
    obtain rfl : c = seat.item := same
    exact List.mem_map_of_mem placed
  · exact present.2 free freed same

/-- A call waits for the chunk it has just created. -/
theorem wait (holds : Holds w s hand) (last : s.created = c + 1)
    (unfreed : ∀ free ∈ s.frees, free.chunk ≠ c) (owned : (s.chunk c).haveOwner = true)
    (notPing : c ≠ Client.pingPacket) (alone : c ∉ s.waiting) :
    Holds w { s with waiting := c :: s.waiting } hand :=
  ⟨holds.custody, holds.ledger.wait (by omega) unfreed owned notPing alone, holds.tally⟩

/-- A placed chunk is accepted as a message. -/
theorem accept (holds : Holds w s hand) (last : s.created = c + 1)
    (placed : c ∈ items (hand ++ s.seats)) (message : (s.chunk c).Message)
    (unsettled : c ∉ s.acknowledged ++ s.reported) :
    Holds w { s with accepted := c :: s.accepted } hand :=
  ⟨holds.custody, holds.ledger,
    holds.tally.accept (by omega) message
      (List.count_eq_one_of_mem holds.custody.distinct placed) unsettled⟩

end Holds

end StDevice.Mqtt
