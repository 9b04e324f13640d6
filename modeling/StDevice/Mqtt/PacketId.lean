import StDevice.Mqtt.Frame

/-!
# The packet ids in flight

Three functions draw packet ids from one counter that wraps at MAX_PACKET_ID.
`_iot_mqtt_push_publish_packet` does it under the lock of the client.
`st_mqtt_subscribe` and `st_mqtt_unsubscribe` take no lock: they advance the counter
in one assignment and read it in another, and a draw of another thread between the
two gives both packets the same id.

A draw is therefore three steps here, up to the push of the packet, where the model of
the client takes it in one. In every run in which no draw begins while a call is between
its two assignments, the ids of two packets differ as long as fewer than MAX_PACKET_ID
ids are drawn while one of them is held.
-/

namespace StDevice.Mqtt

open Custody Run

/-- The packets with an id of the client's own: those of QoS 1 and QoS 2 messages, and
those of the two calls. Received packets carry ids of the broker. -/
def Chunk.Numbered (x : Chunk) : Prop :=
  x.chunkState ≠ .readCompleted ∧
    ((x.packetType = some .publish ∨ x.packetType = some .pubrel) ∧ (x.qos = 1 ∨ x.qos = 2) ∨
      x.packetType = some .subscribe ∨ x.packetType = some .unsubscribe)

/-- `st_mqtt_subscribe` and `st_mqtt_unsubscribe` after the packet id was read, up to
`_iot_mqtt_wait_for`. -/
def Client.pushRequest (s : Client) (q : Request) (packetId : Nat) : Client :=
  let packet : Chunk :=
    { packetType := some q.packetType, packetId, haveOwner := true, chunkState := .writePending }
  { (s.create packet).pushWrite s.created with waiting := s.created :: s.waiting }

/-- A call that has read its packet id, and how many ids had been drawn by then. -/
structure Taken where
  request : Request
  packetId : Nat
  stamp : Nat
  deriving DecidableEq

/-- The client and the calls in the middle of a draw. -/
structure Numbering where
  client : Client
  /-- the calls that have advanced `next_packetid` and not read it yet -/
  advanced : List Request
  /-- the calls that have read it and not pushed their packet yet -/
  taken : List Taken
  /-- how many ids were drawn -/
  drawn : Nat
  /-- how many had been drawn when the chunk got its id -/
  stamp : Nat → Nat

inductive Numbering.Event where
  | client (e : Mqtt.Event)
  /-- `c->next_packetid = …` -/
  | advance (q : Request)
  /-- `sub_packet->packet_id = c->next_packetid` -/
  | take (q : Request)
  | push (call : Taken)

namespace Numbering

def initial : Numbering := ⟨.initial, [], [], 0, fun _ => 0⟩

/-- The events of the client that are one step here too. -/
def whole : Mqtt.Event → Bool
  | .request q => !q.numbered
  | _ => true

/-- `_iot_mqtt_push_publish_packet` draws an id. -/
def numbers : Mqtt.Event → Bool
  | .publish _ qos => Client.numbered qos
  | _ => false

def step (s : Numbering) : Event → Option Numbering
  | .client e =>
      if whole e then
        (s.client.step e).map fun client =>
          if numbers e then
            { s with
              client
              drawn := s.drawn + 1
              stamp := Function.update s.stamp s.client.created (s.drawn + 1) }
          else { s with client }
      else none
  | .advance q =>
      if q.numbered then
        some { s with
          client := { s.client with nextPacketid := Client.nextId s.client.nextPacketid }
          advanced := q :: s.advanced
          drawn := s.drawn + 1 }
      else none
  | .take q =>
      if q ∈ s.advanced then
        some { s with
          advanced := s.advanced.erase q
          taken := ⟨q, s.client.nextPacketid, s.drawn⟩ :: s.taken }
      else none
  | .push call =>
      if call ∈ s.taken then
        some { s with
          client := s.client.pushRequest call.request call.packetId
          taken := s.taken.erase call
          stamp := Function.update s.stamp s.client.created call.stamp }
      else none

def Transition (s : Numbering) (e : Event) (t : Numbering) : Prop := s.step e = some t

/-- The three steps of a draw, taken at once, are the request of the client. -/
theorem request_of_draw (s : Numbering) {q : Request} (numbered : q.numbered = true) :
    ∃ t, Steps Transition s
        [.advance q, .take q,
          .push ⟨q, Client.nextId s.client.nextPacketid, s.drawn + 1⟩] t ∧
      t.client = s.client.request q := by
  refine ⟨_, .cons (if_pos numbered) <| .cons (if_pos List.mem_cons_self) <|
    .cons (if_pos List.mem_cons_self) <| .nil _, ?_⟩
  simp [Client.request, Client.pushRequest, Client.requestPacket, numbered, Client.create,
    Client.pushWrite]

/-- The event begins to draw an id. -/
def draws : Event → Bool
  | .client e => numbers e
  | .advance _ => true
  | _ => false

/-- No draw begins while a call is between its two assignments. -/
def Orderly (s : Numbering) (e : Event) : Prop := draws e = true → s.advanced = []

end Numbering

/-- The id that is drawn with the given number. -/
def ident (drawn : Nat) : Nat := drawn % maxPacketId + 1

theorem nextId_ident (n : Nat) : Client.nextId (ident n) = ident (n + 1) := by
  unfold Client.nextId ident maxPacketId
  split <;> omega

theorem ident_bounds (n : Nat) : 1 ≤ ident n ∧ ident n ≤ maxPacketId := by
  unfold ident maxPacketId
  omega

/-- The counter comes back to an id after MAX_PACKET_ID draws. -/
theorem ident_ne {m n : Nat} (later : m < n) (near : n - m < maxPacketId) : ident m ≠ ident n := by
  unfold ident
  unfold maxPacketId at near ⊢
  omega

namespace Client

variable {s t : Client} {e : Event} {c : Nat}

/-- A packet with an id had it before. -/
private theorem numbered_of_moves {x y : Chunk} (moves : x.Moves y) (numbered : y.Numbered) :
    x.Numbered := by
  cases moves with
  | same => exact numbered
  | state n state sent => exact ⟨sent, numbered.2⟩
  | recycled pending type =>
      refine ⟨by simp [pending], ?_⟩
      rcases type with publish | pubrec
      · have qos : x.qos = 1 ∨ x.qos = 2 := by
          simpa [Chunk.Numbered, recycled, recycledType, publish] using numbered
        exact .inl ⟨.inl publish, qos⟩
      · simp [Chunk.Numbered, recycled, recycledType, pubrec] at numbered

/-- Only a message gets an id when it is created. -/
private theorem numbers_of_creates {x : Chunk} (creates : s.Creates e x) (numbered : x.Numbered)
    (whole : Numbering.whole e = true) :
    Numbering.numbers e = true ∧ x.packetId = nextId s.nextPacketid := by
  cases e with
  | publish isSync qos =>
      obtain rfl : x = _ := creates
      have drawn : Client.numbered qos = true := by
        simpa [Chunk.Numbered, publishPacket, Client.numbered] using numbered
      exact ⟨drawn, by simp [publishPacket, drawn]⟩
  | request q =>
      obtain rfl : x = _ := creates
      cases q <;> simp [Chunk.Numbered, requestPacket, Request.packetType, Numbering.whole,
        Request.numbered] at numbered whole
  | disconnected =>
      obtain rfl : x = _ := creates
      simp [Chunk.Numbered] at numbered
  | read packet =>
      obtain rfl : x = _ := creates
      simp [Chunk.Numbered, received] at numbered
  | postRead r =>
      obtain rfl : x = _ := creates
      unfold Chunk.Numbered answerPacket answerType at numbered
      split at numbered
      · simp at numbered
      · split at numbered <;> simp at numbered
  | _ => exact creates.elim

/-- Where the packet ids after a step come from. -/
theorem Transition.numbered (transition : s.Transition e t) (holds : Holds .places s [])
    (whole : Numbering.whole e = true) (below : c < t.created) (numbered : (t.chunk c).Numbered) :
    (c < s.created ∧ (s.chunk c).Numbered ∧ (t.chunk c).packetId = (s.chunk c).packetId) ∨
      c = s.created ∧ Numbering.numbers e = true ∧
        (t.chunk c).packetId = nextId s.nextPacketid := by
  rcases transition.creates below with old | ⟨new, creates⟩
  · have moves := transition.moves holds old
    exact .inl ⟨old, numbered_of_moves moves numbered, moves.packetId⟩
  · exact .inr ⟨new, numbers_of_creates creates numbered whole⟩

/-- What a step does to the counter. -/
theorem Transition.counter (transition : s.Transition e t) (whole : Numbering.whole e = true) :
    t.nextPacketid =
      if Numbering.numbers e then nextId s.nextPacketid else s.nextPacketid := by
  by_cases quiet : mayCreate e = false
  case pos =>
    have plain : Numbering.numbers e = false := by
      cases e with
      | publish isSync qos => exact absurd quiet (by simp [mayCreate])
      | _ => rfl
    rw [(transition.quiet quiet).nextPacketid, plain]
    rfl
  cases transition.stepped with
  | publish isSync qos => rfl
  | request q =>
      have plain : q.numbered = false := by simpa [Numbering.whole] using whole
      simp [request, plain, Numbering.numbers, pushWrite, create]
  | disconnected => rfl
  | read packet => rfl
  | @postRead r job => exact nextPacketid_postRead { s with jobs := s.jobs.erase (.received r) } r
  | _ => exact absurd rfl quiet

end Client

namespace Numbering

variable {s t : Numbering} {e : Event}

/-- The chunk has an id of the client's own. -/
def Carries (s : Numbering) (c : Nat) : Prop :=
  c < s.client.created ∧ (s.client.chunk c).Numbered

/-- An id with this number is in use. -/
def Stamped (s : Numbering) (m : Nat) : Prop :=
  (∃ c, s.Carries c ∧ s.stamp c = m) ∨ ∃ call ∈ s.taken, call.stamp = m

/-- The ids in use are those drawn with different numbers, and the call that has advanced
the counter is the only one that will read it. -/
structure Counted (s : Numbering) : Prop where
  holds : Holds .places s.client []
  counter : s.client.nextPacketid = ident s.drawn
  chunks : ∀ c, s.Carries c → (s.client.chunk c).packetId = ident (s.stamp c)
  calls : ∀ call ∈ s.taken, call.packetId = ident call.stamp
  bound : ∀ m, s.Stamped m → m ≤ s.drawn
  one : s.advanced.length ≤ 1
  fresh : s.advanced ≠ [] → ¬ s.Stamped s.drawn
  distinct : ∀ c d, s.Carries c → s.Carries d → s.stamp c = s.stamp d → c = d
  apart : ∀ call ∈ s.taken, ∀ c, s.Carries c → s.stamp c ≠ call.stamp
  single : (s.taken.map Taken.stamp).Nodup

theorem Counted.initial : Counted Numbering.initial := by
  have none (c : Nat) : ¬ Numbering.initial.Carries c := by
    rintro ⟨below, numbered⟩
    obtain rfl : c = Client.pingPacket := Nat.lt_one_iff.mp below
    simp [Chunk.Numbered, Numbering.initial, Client.initial] at numbered
  refine ⟨Holds.initial, rfl, fun c carries => (none c carries).elim, by simp [Numbering.initial],
    ?_, by simp [Numbering.initial], by simp [Numbering.initial],
    fun c _ carries => (none c carries).elim, by simp [Numbering.initial],
    by simp [Numbering.initial]⟩
  rintro m (⟨c, carries, -⟩ | ⟨call, mem, -⟩)
  · exact (none c carries).elim
  · simp [Numbering.initial] at mem

namespace Counted

/-- A call advances the counter. -/
theorem advance (h : s.Counted) {q : Request} (ready : s.advanced = [])
    (transition : s.Transition (.advance q) t) : t.Counted := by
  simp only [Transition, step] at transition
  split at transition
  case isFalse => exact absurd transition (by simp)
  obtain rfl := Option.some.inj transition
  refine ⟨⟨h.holds.custody, h.holds.ledger, h.holds.tally⟩, ?_, h.chunks, h.calls, ?_, ?_, ?_,
    h.distinct, h.apart, h.single⟩
  · dsimp only
    rw [h.counter, nextId_ident]
  · intro m stamped
    exact Nat.le_succ_of_le (h.bound m stamped)
  · simp [ready]
  · intro _ stamped
    have := h.bound (s.drawn + 1) stamped
    omega

/-- A call reads the counter. -/
theorem take (h : s.Counted) {q : Request} (transition : s.Transition (.take q) t) :
    t.Counted := by
  simp only [Transition, step] at transition
  split at transition
  case isFalse => exact absurd transition (by simp)
  case isTrue mem =>
  obtain rfl := Option.some.inj transition
  have fresh := h.fresh (List.ne_nil_of_mem mem)
  have left : s.advanced.erase q = [] := by
    refine List.eq_nil_of_length_eq_zero ?_
    have := h.one
    rw [List.length_erase_of_mem mem]
    omega
  refine ⟨h.holds, h.counter, h.chunks, ?_, ?_, by simp [left], by simp [left], h.distinct, ?_, ?_⟩
  · intro call member
    rcases List.mem_cons.mp member with rfl | member
    · exact h.counter
    · exact h.calls call member
  · rintro m (carried | ⟨call, member, rfl⟩)
    · exact h.bound m (.inl carried)
    · rcases List.mem_cons.mp member with rfl | member
      · exact Nat.le_refl _
      · exact h.bound _ (.inr ⟨call, member, rfl⟩)
  · intro call member c carries
    rcases List.mem_cons.mp member with rfl | member
    · exact fun same => fresh (.inl ⟨c, carries, same⟩)
    · exact h.apart call member c carries
  · refine List.nodup_cons.mpr ⟨fun used => ?_, h.single⟩
    obtain ⟨call, member, same⟩ := List.mem_map.mp used
    exact fresh (.inr ⟨call, member, same⟩)

/-- The chunks of a state after a step in which the newest may have got the id with number
`m`, and the others keep theirs. -/
private theorem assign (h : s.Counted) (m : Nat) (holds : Holds .places t.client [])
    (counter : t.client.nextPacketid = ident t.drawn) (drawn : s.drawn ≤ t.drawn)
    (advanced : t.advanced = s.advanced) (steady : s.advanced ≠ [] → t.drawn = s.drawn)
    (calls : t.taken.Sublist s.taken)
    (carried : ∀ c, t.Carries c →
      (s.Carries c ∧ t.stamp c = s.stamp c ∧
        (t.client.chunk c).packetId = (s.client.chunk c).packetId) ∨
      c = s.client.created ∧ t.stamp c = m ∧ (t.client.chunk c).packetId = ident m)
    (new : t.Carries s.client.created → m ≤ t.drawn ∧ (s.advanced ≠ [] → m ≠ t.drawn) ∧
      (∀ c, s.Carries c → s.stamp c ≠ m) ∧ ∀ call ∈ t.taken, call.stamp ≠ m) : t.Counted where
  holds := holds
  counter := counter
  chunks := by
    intro c carries
    rcases carried c carries with ⟨before, stamp, id⟩ | ⟨-, stamp, id⟩
    · rw [id, stamp]
      exact h.chunks c before
    · rw [id, stamp]
  calls := fun call mem => h.calls call (calls.subset mem)
  bound := by
    rintro n (⟨c, carries, rfl⟩ | ⟨call, mem, rfl⟩)
    · rcases carried c carries with ⟨before, stamp, -⟩ | ⟨rfl, stamp, -⟩
      · rw [stamp]
        exact (h.bound _ (.inl ⟨c, before, rfl⟩)).trans drawn
      · rw [stamp]
        exact (new carries).1
    · exact (h.bound _ (.inr ⟨call, calls.subset mem, rfl⟩)).trans drawn
  one := advanced ▸ h.one
  fresh := by
    rw [advanced]
    intro pending
    have before := h.fresh pending
    rw [← steady pending] at before
    rintro (⟨c, carries, last⟩ | ⟨call, mem, last⟩)
    · rcases carried c carries with ⟨old, stamp, -⟩ | ⟨rfl, stamp, -⟩
      · exact before (.inl ⟨c, old, stamp.symm.trans last⟩)
      · exact (new carries).2.1 pending (stamp.symm.trans last)
    · exact before (.inr ⟨call, calls.subset mem, last⟩)
  distinct := by
    intro c d carriesC carriesD same
    rcases carried c carriesC with ⟨oldC, stampC, -⟩ | ⟨rfl, stampC, -⟩ <;>
      rcases carried d carriesD with ⟨oldD, stampD, -⟩ | ⟨rfl, stampD, -⟩
    · exact h.distinct c d oldC oldD (stampC.symm.trans (same.trans stampD))
    · exact absurd (stampC.symm.trans (same.trans stampD)) ((new carriesD).2.2.1 c oldC)
    · exact absurd (stampD.symm.trans (same.symm.trans stampC)) ((new carriesC).2.2.1 d oldD)
    · rfl
  apart := by
    intro call mem c carries
    rcases carried c carries with ⟨before, stamp, -⟩ | ⟨rfl, stamp, -⟩
    · rw [stamp]
      exact h.apart call (calls.subset mem) c before
    · rw [stamp]
      exact ((new carries).2.2.2 call mem).symm
  single := h.single.sublist (calls.map Taken.stamp)

/-- Other calls have read ids with other numbers. -/
private theorem stamp_ne_of_erase (h : s.Counted) {call other : Taken} (mem : call ∈ s.taken)
    (left : other ∈ s.taken.erase call) : other.stamp ≠ call.stamp := by
  have perm := (List.perm_cons_erase mem).map Taken.stamp
  have apart := (List.nodup_cons.mp (perm.nodup_iff.mp h.single)).1
  intro same
  exact apart (same ▸ List.mem_map_of_mem left)

/-- A call pushes its packet. -/
theorem push (h : s.Counted) {call : Taken} (transition : s.Transition (.push call) t) :
    t.Counted := by
  simp only [Transition, step] at transition
  split at transition
  case isFalse => exact absurd transition (by simp)
  case isTrue mem =>
  obtain rfl := Option.some.inj transition
  have ownable (q : Request) (id : Nat) : Chunk.Ownable
      (Chunk.mk (some q.packetType) id 0 true .writePending 0 false 0) := by
    cases q <;> simp [Chunk.Ownable, Request.packetType]
  have pushed := h.holds.pushAndWait rfl (ownable call.request call.packetId) rfl trivial
  refine h.assign call.stamp ⟨pushed.custody, pushed.ledger, pushed.tally⟩ h.counter
    (Nat.le_refl _) rfl (fun _ => rfl) List.erase_sublist ?_ fun _ => ?_
  · intro c carries
    rcases Nat.lt_succ_iff_lt_or_eq.mp carries.1 with old | rfl
    · have same : (s.client.pushRequest call.request call.packetId).chunk c = s.client.chunk c :=
        Function.update_of_ne (Nat.ne_of_lt old) _ _
      exact .inl ⟨⟨old, same ▸ carries.2⟩, Function.update_of_ne (Nat.ne_of_lt old) _ _,
        congrArg Chunk.packetId same⟩
    · refine .inr ⟨rfl, Function.update_self _ _ _, ?_⟩
      rw [← h.calls call mem]
      simp [Client.pushRequest, Client.create, Client.pushWrite]
  · refine ⟨h.bound _ (.inr ⟨call, mem, rfl⟩), fun pending last => ?_,
      fun c carries => h.apart call mem c carries,
      fun other left => h.stamp_ne_of_erase mem left⟩
    exact h.fresh pending (.inr ⟨call, mem, last⟩)

/-- A step of the client that is one step here. -/
theorem client (h : s.Counted) {e : Mqtt.Event} (orderly : s.Orderly (.client e))
    (transition : s.Transition (.client e) t) : t.Counted := by
  simp only [Transition, step] at transition
  split at transition
  case isFalse => exact absurd transition (by simp)
  case isTrue whole =>
  obtain ⟨client, steps, rfl⟩ := Option.map_eq_some_iff.mp transition
  have transition : s.client.Transition e client := steps
  have holds : Holds .places client [] := h.holds.places (.cons transition (.nil client))
  have counter := transition.counter whole
  have unused (c : Nat) (carries : s.Carries c) : s.stamp c ≠ s.drawn + 1 := by
    have := h.bound _ (.inl ⟨c, carries, rfl⟩)
    omega
  by_cases numbers : numbers e = true
  · have ready : s.advanced = [] := orderly numbers
    rw [if_pos numbers]
    refine h.assign (s.drawn + 1) holds ?_ (Nat.le_succ _) rfl
      (fun pending => absurd ready pending) (List.Sublist.refl _) ?_ fun _ => ?_
    · dsimp only
      rw [counter, if_pos numbers, h.counter, nextId_ident]
    · rintro c ⟨below, numbered⟩
      rcases transition.numbered h.holds whole below numbered with ⟨old, before, id⟩ | ⟨rfl, -, id⟩
      · exact .inl ⟨⟨old, before⟩, Function.update_of_ne (Nat.ne_of_lt old) _ _, id⟩
      · refine .inr ⟨rfl, Function.update_self _ _ _, ?_⟩
        dsimp only
        rw [id, h.counter, nextId_ident]
    · refine ⟨Nat.le_refl _, fun pending => absurd ready pending, unused, ?_⟩
      intro call mem
      have := h.bound _ (.inr ⟨call, mem, rfl⟩)
      omega
  · have old {c : Nat} (below : c < client.created) (numbered : (client.chunk c).Numbered) :
        s.Carries c ∧ (client.chunk c).packetId = (s.client.chunk c).packetId := by
      rcases transition.numbered h.holds whole below numbered with ⟨old, before, id⟩ | ⟨-, drawn, -⟩
      · exact ⟨⟨old, before⟩, id⟩
      · exact absurd drawn numbers
    rw [if_neg numbers]
    refine h.assign (s.drawn + 1) holds ?_ (Nat.le_refl _) rfl (fun _ => rfl)
      (List.Sublist.refl _) ?_ ?_
    · dsimp only
      rw [counter, if_neg numbers, h.counter]
    · rintro c ⟨below, numbered⟩
      obtain ⟨before, id⟩ := old below numbered
      exact .inl ⟨before, rfl, id⟩
    · rintro ⟨below, numbered⟩
      exact absurd (old below numbered).1.1 (Nat.lt_irrefl _)

theorem step (h : s.Counted) (orderly : s.Orderly e) (transition : s.Transition e t) :
    t.Counted := by
  cases e with
  | client e => exact h.client orderly transition
  | advance q => exact h.advance (orderly rfl) transition
  | take q => exact h.take transition
  | push call => exact h.push transition

end Counted

/-- The packets the client holds with an id of its own. -/
def Outstanding (s : Numbering) (c : Nat) : Prop :=
  c ∈ s.client.held ∧ (s.client.chunk c).Numbered

theorem Counted.carries (h : s.Counted) {c : Nat} (outstanding : s.Outstanding c) :
    s.Carries c := by
  obtain ⟨seat, mem, rfl⟩ := List.mem_map.mp outstanding.1
  exact ⟨(h.holds.custody.alive seat mem).1, outstanding.2⟩

/-- Where no draw begins while a call is between its two assignments, the ids of the packets
in flight are valid, and they differ as long as fewer than MAX_PACKET_ID ids are drawn
while a packet is held. -/
theorem distinct_of_orderly {events : List Event} (run : Steps Transition initial events s)
    (orderly : Along Transition Orderly initial events)
    (few : ∀ c, s.Outstanding c → s.drawn - s.stamp c < maxPacketId) :
    (∀ c, s.Outstanding c → 1 ≤ (s.client.chunk c).packetId ∧
      (s.client.chunk c).packetId ≤ maxPacketId) ∧
    ∀ c d, s.Outstanding c → s.Outstanding d → c ≠ d →
      (s.client.chunk c).packetId ≠ (s.client.chunk d).packetId := by
  have counted : s.Counted :=
    run.invariant_along (fun _ _ _ h orderly transition => h.step orderly transition) orderly
      Counted.initial
  have later {c d : Nat} (outC : s.Outstanding c) (outD : s.Outstanding d)
      (earlier : s.stamp c < s.stamp d) :
      (s.client.chunk c).packetId ≠ (s.client.chunk d).packetId := by
    have latest := counted.bound _ (.inl ⟨d, counted.carries outD, rfl⟩)
    have near := few c outC
    rw [counted.chunks c (counted.carries outC), counted.chunks d (counted.carries outD)]
    exact ident_ne earlier (by omega)
  constructor
  · intro c outstanding
    rw [counted.chunks c (counted.carries outstanding)]
    exact ident_bounds _
  · intro c d outC outD different
    have apart : s.stamp c ≠ s.stamp d := fun same =>
      different (counted.distinct c d (counted.carries outC) (counted.carries outD) same)
    rcases Nat.lt_or_gt_of_ne apart with earlier | earlier
    · exact later outC outD earlier
    · exact (later outD outC earlier).symm

/-- One more event in front of an orderly run. -/
private theorem cons_orderly {u : Numbering} {events : List Event} (transition : s.Transition e t)
    (here : s.Orderly e)
    (rest : Steps Transition t events u ∧ Along Transition Orderly t events) :
    Steps Transition s (e :: events) u ∧ Along Transition Orderly s (e :: events) :=
  cons_along transition (fun _ other => Option.some.inj (other.symm.trans transition)) here rest

/-- A message is published, and then a call subscribes. -/
def oneAfterTheOther : List Event :=
  [.client (.publish false 1), .advance .subscribe, .take .subscribe, .push ⟨.subscribe, 3, 2⟩]

theorem distinct_of_orderly_sequential : ∃ s, Steps Transition initial oneAfterTheOther s ∧
    s.Outstanding 1 ∧ s.Outstanding 2 ∧
    (s.client.chunk 1).packetId ≠ (s.client.chunk 2).packetId := by
  obtain ⟨s, ⟨run, orderly⟩, drawn, published, subscribed⟩ : ∃ s,
      (Steps Transition initial oneAfterTheOther s ∧
        Along Transition Orderly initial oneAfterTheOther) ∧
      s.drawn = 2 ∧ s.Outstanding 1 ∧ s.Outstanding 2 := by
    refine ⟨_, cons_orderly rfl (fun _ => rfl) <| cons_orderly rfl (fun _ => rfl) <|
      cons_orderly rfl (fun draws => absurd draws (by decide)) <|
      cons_orderly rfl (fun draws => absurd draws (by decide)) <| nil_along _, rfl, ?_, ?_⟩
    · exact ⟨by decide, by decide, .inl ⟨.inl rfl, .inl rfl⟩⟩
    · exact ⟨by decide, by decide, .inr (.inl rfl)⟩
  refine ⟨s, run, published, subscribed, ?_⟩
  refine (distinct_of_orderly run orderly ?_).2 1 2 published subscribed (by decide)
  intro c _
  rw [drawn]
  exact Nat.lt_of_le_of_lt (Nat.sub_le _ _) (by decide)

/-- A message is published while a call that subscribes is between its two assignments. -/
def inBetween : List Event :=
  [.advance .subscribe, .client (.publish false 1), .take .subscribe, .push ⟨.subscribe, 3, 2⟩]

/-- Both packets get the id 3, with two ids drawn. -/
theorem not_distinct_inBetween : ∃ s, Steps Transition initial inBetween s ∧
    (∀ c, s.Outstanding c → s.drawn - s.stamp c < maxPacketId) ∧
    s.Outstanding 1 ∧ s.Outstanding 2 ∧
    (s.client.chunk 1).packetId = (s.client.chunk 2).packetId := by
  obtain ⟨s, run, drawn, published, subscribed, same⟩ : ∃ s,
      Steps Transition initial inBetween s ∧ s.drawn = 2 ∧ s.Outstanding 1 ∧ s.Outstanding 2 ∧
      (s.client.chunk 1).packetId = (s.client.chunk 2).packetId := by
    refine ⟨_, .cons rfl <| .cons rfl <| .cons rfl <| .cons rfl <| .nil _, rfl, ?_, ?_, rfl⟩
    · exact ⟨by decide, by decide, .inl ⟨.inl rfl, .inl rfl⟩⟩
    · exact ⟨by decide, by decide, .inr (.inl rfl)⟩
  refine ⟨s, run, ?_, published, subscribed, same⟩
  intro c _
  rw [drawn]
  exact Nat.lt_of_le_of_lt (Nat.sub_le _ _) (by decide)

end Numbering

end StDevice.Mqtt
