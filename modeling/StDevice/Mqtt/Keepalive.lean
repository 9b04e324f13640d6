import StDevice.Mqtt.Frame

/-!
# The keep-alive of the client

One chunk, created with the client, is sent for every PINGREQ. When a keep-alive
timer has run out, `_iot_mqtt_check_alive` pushes the chunk if its last exchange is
over, and reports a ping timeout if the chunk timed out. In any other state it takes
the ping to be on its way and does nothing.

A failed write leaves the chunk in no queue with the state WRITE_FAIL, which nothing
ever changes: from then on the check does nothing, also after the next
`st_mqtt_connect`. In every run in which each write of the ping succeeds, the ping is
on its way or idle, and the cycles of a connected client can always bring it to where
the check sends or reports it.
-/

namespace StDevice.Mqtt

open Custody Run

namespace Client

/-- The ping waits to be written or acknowledged, is in the writer's hands, or is in a
state `_iot_mqtt_check_alive` acts on. -/
def Operational (s : Client) : Prop :=
  pingPacket ∈ s.writePendingQueue ∨ pingPacket ∈ s.ackPendingQueue ∨
    .writing pingPacket ∈ s.jobs ∨
    (s.chunk pingPacket).chunkState ∈ [ChunkState.init, .acknowledged, .timeout]

/-- A thread has taken the ping out of `ack_pending_queue`, because it was acknowledged
or has expired, and has not stored that yet. -/
def Settling (s : Client) : Prop :=
  .expired pingPacket ∈ s.jobs ∨ ∃ ack r, .acknowledging ack r pingPacket ∈ s.jobs

/-- `_iot_mqtt_check_alive` sends a PINGREQ. -/
def SendsPing (s : Client) : Prop :=
  s.checkAlive.writePendingQueue = s.writePendingQueue ++ [pingPacket]

/-- `_iot_mqtt_check_alive` returns E_ST_MQTT_PING_TIMEOUT. -/
def ReportsTimeout (s : Client) : Prop := (s.chunk pingPacket).chunkState = .timeout

end Client

/-- The client and its connection. -/
structure Session where
  client : Client
  isconnected : Bool

inductive Session.Event where
  /-- `_iot_mqtt_connect_net`, with the result of `port_net_connect` -/
  | connectNet (connected : Bool)
  /-- `_iot_mqtt_close_net` -/
  | closeNet
  | client (e : Mqtt.Event)

namespace Session

def initial : Session := ⟨.initial, false⟩

/-- Nothing is written or read without a connection; the check and the transfer are
under one lock. -/
def allows (isconnected : Bool) : Mqtt.Event → Bool
  | .writeEnd _ written => !written || isconnected
  | .read _ => isconnected
  | _ => true

def step (s : Session) : Event → Option Session
  | .connectNet connected => some { s with isconnected := connected || s.isconnected }
  | .closeNet => some { s with isconnected := false }
  | .client e =>
      if allows s.isconnected e then (s.client.step e).map fun t => { s with client := t }
      else none

def Transition (s : Session) (e : Event) (t : Session) : Prop := s.step e = some t

/-- A client event is a step of the client, and leaves the connection. -/
theorem transition_client {s t : Session} {e : Mqtt.Event} :
    s.Transition (.client e) t ↔
      allows s.isconnected e = true ∧ s.client.Transition e t.client ∧
        t.isconnected = s.isconnected := by
  obtain ⟨client, isconnected⟩ := s
  obtain ⟨client', isconnected'⟩ := t
  simp only [Transition, step, Client.Transition]
  split
  case isTrue allowed =>
    simp only [Option.map_eq_some_iff, Session.mk.injEq, allowed, true_and]
    constructor
    · rintro ⟨u, steps, rfl, same⟩
      exact ⟨steps, same.symm⟩
    · rintro ⟨steps, same⟩
      exact ⟨client', steps, rfl, same.symm⟩
  case isFalse refused =>
    constructor
    · intro absurd_
      cases absurd_
    · rintro ⟨allowed, -⟩
      exact absurd allowed refused

end Session

/-- The state of the ping is one `_iot_mqtt_check_alive` acts on. -/
def Chunk.Idle (x : Chunk) : Prop := x.chunkState ∈ [ChunkState.init, .acknowledged, .timeout]

/-- Chunks are where they belong, and no other packet with an owner is a PINGREQ. -/
structure Client.Ordered (s : Client) : Prop where
  holds : Holds .places s []
  type : (s.chunk pingPacket).packetType = some .pingreq
  only : ∀ c < s.created, c ≠ pingPacket → (s.chunk c).haveOwner = true →
    (s.chunk c).packetType ≠ some .pingreq

/-- The ping is held or idle. -/
structure Client.Tended (s : Client) : Prop extends s.Ordered where
  tended : pingPacket ∈ s.held ∨ (s.chunk pingPacket).Idle

/-- The ping is held by nobody after a failed write. -/
structure Client.Dead (s : Client) : Prop extends s.Ordered where
  unheld : pingPacket ∉ s.held
  failed : (s.chunk pingPacket).chunkState = .writeFail

namespace Client

variable {s t : Client} {e : Event}

theorem Ordered.initial : Client.initial.Ordered := by
  refine ⟨Holds.initial, rfl, ?_⟩
  intro c below notPing
  exact absurd (Nat.lt_one_iff.mp below) notPing

theorem Tended.initial : Client.initial.Tended :=
  ⟨.initial, .inr (by simp [Chunk.Idle, Client.initial])⟩

namespace Ordered

theorem owned (ordered : s.Ordered) : (s.chunk pingPacket).haveOwner = true :=
  ordered.holds.ledger.ping.2

theorem old (ordered : s.Ordered) : pingPacket < s.created := ordered.holds.ledger.ping.1

/-- No packet becomes a PINGREQ. -/
private theorem pingreq_of_moves {x y : Chunk} (moves : x.Moves y)
    (becomes : y.packetType = some .pingreq) : x.packetType = some .pingreq := by
  cases moves with
  | same => exact becomes
  | state => exact becomes
  | recycled _ type =>
      rcases type with type | type <;> simp [recycled, recycledType, type] at becomes

/-- The client creates no PINGREQ with an owner. -/
private theorem notPingreq_of_creates {x : Chunk} (creates : s.Creates e x)
    (owned : x.haveOwner = true) : x.packetType ≠ some .pingreq := by
  cases e with
  | publish isSync qos =>
      obtain rfl : x = _ := creates
      simp [publishPacket]
  | request q =>
      obtain rfl : x = _ := creates
      cases q <;> simp [requestPacket, Request.packetType]
  | disconnected =>
      obtain rfl : x = _ := creates
      simp
  | read packet =>
      obtain rfl : x = _ := creates
      exact absurd owned (by simp [received])
  | postRead r =>
      obtain rfl : x = _ := creates
      exact absurd owned (by simp [answerPacket])
  | _ => exact creates.elim

theorem step (ordered : s.Ordered) (transition : s.Transition e t) : t.Ordered := by
  have held : Holds .places t [] := ordered.holds.places (.cons transition (.nil t))
  refine ⟨held, ?_, ?_⟩
  · have moves := transition.moves ordered.holds ordered.old
    rw [moves.packetType_of_ne (by simp [ordered.type]) (by simp [ordered.type])]
    exact ordered.type
  · intro c below notPing owned becomes
    rcases transition.creates below with old | ⟨-, creates⟩
    · have moves := transition.moves ordered.holds old
      exact ordered.only c old notPing (moves.haveOwner.symm.trans owned)
        (pingreq_of_moves moves becomes)
    · exact notPingreq_of_creates creates owned becomes

/-- A call that gives up never takes the ping out of a queue. -/
theorem not_abandons (ordered : s.Ordered) {c : Nat} (waits : c ∈ s.waiting) {seen : ChunkState}
    {queue : List Nat} : s.abandons c seen ≠ some (pingPacket, queue) := by
  intro pops
  obtain ⟨⟨below, -⟩, owned, notPing⟩ := ordered.holds.ledger.waited c waits
  have found : s.like c pingPacket = true := by
    cases seen with
    | writePending => exact (popBy_perm pops).2
    | ackPending => exact (popBy_perm pops).2
    | _ => exact absurd pops (by simp [abandons])
  have same : (s.chunk pingPacket).packetType = (s.chunk c).packetType :=
    eq_of_beq (Bool.and_eq_true_iff.mp found).1
  exact ordered.only c below notPing owned (same.symm.trans ordered.type)

/-- What a thread that has the ping knows of it. -/
theorem fits_of_job (ordered : s.Ordered) {job : Job} {role : Role} (mem : job ∈ s.jobs)
    (seated : ⟨pingPacket, role⟩ ∈ job.seats) : role.Fits (s.chunk pingPacket) := by
  have placed : ⟨pingPacket, role⟩ ∈ s.seats :=
    List.mem_append_right _ (List.mem_flatMap.mpr ⟨job, mem, seated⟩)
  exact (ordered.holds.custody.fit _ placed).1

/-- The ping is never reported to the user. -/
theorem not_reported (ordered : s.Ordered) : pingPacket ∉ s.userEventCallbackQueue := by
  intro queued
  have seated : (⟨pingPacket, .userQueue⟩ : Seat Nat Role) ∈ s.seats :=
    List.mem_append_left _ (List.mem_append_right _ (List.mem_map_of_mem queued))
  have fit := (ordered.holds.custody.fit _ seated).1
  have unowned : (s.chunk pingPacket).haveOwner = false := fit.1
  rw [ordered.owned] at unowned
  exact Bool.noConfusion unowned

/-- The ping has an owner, so no thread has received it or reports it. -/
theorem not_unowned (ordered : s.Ordered) {job : Job} {role : Role} (mem : job ∈ s.jobs)
    (seated : ⟨pingPacket, role⟩ ∈ job.seats)
    (unowned : role.Fits (s.chunk pingPacket) → (s.chunk pingPacket).haveOwner = false) :
    False := by
  have free := unowned (ordered.fits_of_job mem seated)
  rw [ordered.owned] at free
  exact Bool.noConfusion free

end Ordered

theorem postWrite_ping (s : Client) (type : (s.chunk pingPacket).packetType = some .pingreq) :
    s.postWrite pingPacket = s.awaitAck pingPacket := by
  unfold postWrite
  rw [type]

theorem held_of_pushWrite (s : Client) (c : Nat) : c ∈ (s.pushWrite c).held :=
  mem_held.mpr (.inl (List.mem_append_right _ List.mem_cons_self))

theorem held_of_pushAck (s : Client) (c : Nat) : c ∈ (s.pushAck c).held :=
  mem_held.mpr (.inr (.inl (List.mem_append_right _ List.mem_cons_self)))

/-- The last retry of an owned chunk times out; the others are queued again. -/
private theorem retry_tended (owned : (s.chunk pingPacket).haveOwner = true) :
    pingPacket ∈ (s.retry pingPacket).held ∨ ((s.retry pingPacket).chunk pingPacket).Idle := by
  have gives {x : Chunk} (timeout : x.chunkState = .timeout) :
      ((s.giveUp pingPacket x).chunk pingPacket).Idle := by
    simp [giveUp, owned, Chunk.Idle, store, timeout]
  unfold retry
  split
  · exact .inr (gives rfl)
  · split
    · exact .inl (held_of_pushWrite _ _)
    · exact .inr (gives rfl)

private theorem checkAlive_tended
    (tended : pingPacket ∈ s.held ∨ (s.chunk pingPacket).Idle) :
    pingPacket ∈ s.checkAlive.held ∨ (s.checkAlive.chunk pingPacket).Idle := by
  unfold checkAlive
  split
  · exact .inl (held_of_pushWrite _ _)
  · exact .inl (held_of_pushWrite _ _)
  · exact .inr (by simp [Chunk.Idle, setState, store])
  · exact tended

/-- A step that is no failed write of the ping keeps it held or idle. -/
theorem Tended.step (h : s.Tended) (transition : s.Transition e t)
    (written : e ≠ .writeEnd pingPacket false) : t.Tended := by
  refine ⟨h.toOrdered.step transition, ?_⟩
  by_cases handled : s.Handles e pingPacket
  case neg =>
    have unmoved := transition.unmoved h.old handled
    rw [unmoved.chunk, unmoved.held]
    exact h.tended
  cases transition.stepped with
  | poll failed waits sees =>
      obtain ⟨-, queue, pops⟩ := handled
      exact absurd pops (h.not_abandons waits)
  | @written c job =>
      obtain rfl : pingPacket = c := handled
      have awaits := postWrite_ping { s with jobs := s.jobs.erase (.writing pingPacket) } h.type
      rw [awaits]
      exact .inl (held_of_pushAck _ _)
  | @notWritten c job =>
      obtain rfl : pingPacket = c := handled
      exact absurd rfl written
  | @postRead r job =>
      obtain rfl : pingPacket = r := handled
      exact (h.not_unowned job List.mem_cons_self fun fit => fit.1).elim
  | @acknowledge ack r c job =>
      rcases handled with rfl | rfl
      · have second : (⟨pingPacket, .matched⟩ : Seat Nat Role) ∈
            Job.seats (.acknowledging ack pingPacket c) := by simp [Job.seats]
        exact (h.not_unowned job second fun fit => fit.1).elim
      · right
        simp [acknowledge, h.owned, Chunk.Idle, setState, store, destroy]
  | @deliver r job =>
      obtain rfl : pingPacket = r := handled
      exact (h.not_unowned job List.mem_cons_self fun fit => fit.1).elim
  | @recycle c job =>
      obtain rfl : pingPacket = c := handled
      exact .inl (held_of_pushWrite _ _)
  | @retry c job =>
      obtain rfl : pingPacket = c := handled
      exact retry_tended h.owned
  | @report c job =>
      obtain rfl : pingPacket = c := handled
      exact (h.not_unowned job List.mem_cons_self fun fit => fit.1).elim
  | checkAlive => exact checkAlive_tended h.tended
  | _ => exact handled.elim

/-- A dead ping stays dead, whatever happens. -/
theorem Dead.step (h : s.Dead) (transition : s.Transition e t) : t.Dead := by
  have ordered := h.toOrdered.step transition
  by_cases handled : s.Handles e pingPacket
  case neg =>
    have unmoved := transition.unmoved h.old handled
    exact ⟨ordered, fun held => h.unheld (unmoved.held.mp held),
      by rw [unmoved.chunk, h.failed]⟩
  rcases transition.held_of_handles handled with held | rfl
  · exact absurd held h.unheld
  · have nothing : s.checkAlive = s := by
      unfold checkAlive
      rw [h.failed]
    obtain rfl : s = t := nothing.symm.trans (Option.some.inj transition)
    exact h

/-- With a dead ping the check does nothing. -/
theorem Dead.silent (h : s.Dead) : ¬ s.SendsPing ∧ ¬ s.ReportsTimeout := by
  unfold SendsPing ReportsTimeout checkAlive
  rw [h.failed]
  simp

theorem Dead.not_operational (h : s.Dead) : ¬ s.Operational ∧ ¬ s.Settling := by
  have noJob {job : Job} (mem : job ∈ s.jobs) : pingPacket ∉ items job.seats := fun seated =>
    h.unheld (mem_held.mpr (.inr (.inr (.inr ⟨job, mem, seated⟩))))
  constructor
  · rintro (queued | queued | mem | idle)
    · exact h.unheld (mem_held.mpr (.inl queued))
    · exact h.unheld (mem_held.mpr (.inr (.inl queued)))
    · exact noJob mem (by simp [items, Job.seats])
    · simp [h.failed] at idle
  · rintro (mem | ⟨ack, r, mem⟩)
    · exact noJob mem (by simp [items, Job.seats])
    · exact noJob mem (by simp [items, Job.seats])

/-- Where a held ping is. -/
theorem Tended.operational (h : s.Tended) : s.Operational ∨ s.Settling := by
  rcases h.tended with held | idle
  case inr => exact .inl (.inr (.inr (.inr idle)))
  obtain queued | queued | queued | ⟨job, mem, seated⟩ := mem_held.mp held
  · exact .inl (.inl queued)
  · exact .inl (.inr (.inl queued))
  · exact (h.not_reported queued).elim
  · obtain ⟨⟨c, role⟩, seated, rfl⟩ := List.mem_map.mp seated
    cases job with
    | writing c =>
        obtain ⟨rfl, -⟩ := Seat.mk.inj (List.mem_singleton.mp seated)
        exact .inl (.inr (.inr (.inl mem)))
    | expired c =>
        obtain ⟨rfl, -⟩ := Seat.mk.inj (List.mem_singleton.mp seated)
        exact .inr (.inl mem)
    | acknowledging ack r c =>
        rcases List.mem_cons.mp seated with same | second
        · obtain ⟨rfl, -⟩ := Seat.mk.inj same
          exact .inr (.inr ⟨ack, r, mem⟩)
        · obtain ⟨rfl, rfl⟩ := Seat.mk.inj (List.mem_singleton.mp second)
          exact (h.not_unowned mem seated fun fit => fit.1).elim
    | recycling c =>
        obtain ⟨rfl, rfl⟩ := Seat.mk.inj (List.mem_singleton.mp seated)
        have fit := (h.fits_of_job mem seated).2
        simp [h.type] at fit
    | received c =>
        obtain ⟨rfl, rfl⟩ := Seat.mk.inj (List.mem_singleton.mp seated)
        exact (h.not_unowned mem seated fun fit => fit.1).elim
    | delivering c =>
        obtain ⟨rfl, rfl⟩ := Seat.mk.inj (List.mem_singleton.mp seated)
        exact (h.not_unowned mem seated fun fit => fit.1).elim
    | reporting c =>
        obtain ⟨rfl, rfl⟩ := Seat.mk.inj (List.mem_singleton.mp seated)
        exact (h.not_unowned mem seated fun fit => fit.1).elim

end Client

/-- The events by which cycles bring a packet on: it is written, and acknowledged or
expired. -/
def Event.Serves : Event → Prop
  | .writePop | .writeEnd _ true | .acknowledge _ _ _ | .expire _ | .retry _ => True
  | _ => False

/-- A thread that has taken the ping out of `ack_pending_queue` stores what became of
it. -/
def Event.Settles : Event → Prop
  | .retry c | .acknowledge _ _ c => c = Client.pingPacket
  | _ => False

namespace Client

/-- The cycles of the client can take it from `s` to `t`. -/
def Leads (s t : Client) : Prop :=
  ∃ events, Steps Transition s events t ∧ ∀ e ∈ events, e.Serves

namespace Leads

variable {s t u : Client} {e : Event}

theorem refl (s : Client) : Leads s s := ⟨[], .nil s, by simp⟩

theorem single (transition : s.Transition e t) (serves : e.Serves) : Leads s t :=
  ⟨[e], .cons transition (.nil t), by simpa using serves⟩

theorem trans (first : Leads s t) (second : Leads t u) : Leads s u := by
  obtain ⟨events, run, serve⟩ := first
  obtain ⟨more, run', serve'⟩ := second
  refine ⟨events ++ more, run.append run', ?_⟩
  intro e mem
  rcases List.mem_append.mp mem with mem | mem
  · exact serve e mem
  · exact serve' e mem

end Leads

variable {s t : Client} {e : Event}

theorem Tended.serve (h : s.Tended) (transition : s.Transition e t) (serves : e.Serves) :
    t.Tended := by
  refine h.step transition ?_
  rintro rfl
  exact serves

theorem transition_writeEnd {c : Nat} (mem : .writing c ∈ s.jobs) :
    s.Transition (.writeEnd c true)
      ({ s with jobs := s.jobs.erase (.writing c) }.postWrite c) :=
  if_pos mem

theorem transition_acknowledge {ack : MsgType} {r c : Nat} (mem : .acknowledging ack r c ∈ s.jobs) :
    s.Transition (.acknowledge ack r c)
      ({ s with jobs := s.jobs.erase (.acknowledging ack r c) }.acknowledge ack r c) :=
  if_pos mem

theorem transition_retry {c : Nat} (mem : .expired c ∈ s.jobs) :
    s.Transition (.retry c) ({ s with jobs := s.jobs.erase (.expired c) }.retry c) :=
  if_pos mem

theorem writePendingQueue_postWrite (s : Client) (c : Nat) :
    (s.postWrite c).writePendingQueue = s.writePendingQueue := by
  unfold postWrite
  split
  case h_7 =>
    split
    · split <;> rfl
    · rfl
  case h_8 => split <;> rfl
  all_goals rfl

/-- The writer takes the first packet. -/
private theorem transition_writePop {c : Nat} {queue : List Nat}
    (first : s.writePendingQueue = c :: queue) :
    s.Transition .writePop
      { s with writePendingQueue := queue, jobs := .writing c :: s.jobs } := by
  simp only [Transition, step, first]

/-- The packets before the ping are written, and the writer takes the ping. -/
theorem Tended.leads_writing (h : s.Tended) {before after : List Nat}
    (queued : s.writePendingQueue = before ++ pingPacket :: after) :
    ∃ t, s.Leads t ∧ t.Tended ∧ .writing pingPacket ∈ t.jobs ∧
      t.chunk pingPacket = s.chunk pingPacket := by
  induction before generalizing s with
  | nil =>
      have pops := transition_writePop queued
      exact ⟨_, .single pops trivial, h.serve pops trivial, List.mem_cons_self, rfl⟩
  | cons c before ih =>
      have pops := transition_writePop queued
      by_cases ping : c = pingPacket
      · subst ping
        exact ⟨_, .single pops trivial, h.serve pops trivial, List.mem_cons_self, rfl⟩
      have writes : .writing c ∈ ({ s with
          writePendingQueue := before ++ pingPacket :: after
          jobs := .writing c :: s.jobs } : Client).jobs := List.mem_cons_self
      have ends := transition_writeEnd writes
      have served := (h.serve pops trivial).serve ends trivial
      have unmoved := ends.unmoved (h.serve pops trivial).old (Ne.symm ping)
      obtain ⟨t, leads, tended, writes, same⟩ := ih served (writePendingQueue_postWrite _ c)
      refine ⟨t, ?_, tended, writes, same.trans unmoved.chunk⟩
      exact ((Leads.single pops trivial).trans (.single ends trivial)).trans leads

/-- The ping is written. -/
theorem Tended.leads_written (h : s.Tended) (writes : .writing pingPacket ∈ s.jobs) :
    ∃ t, s.Leads t ∧ t.Tended ∧ pingPacket ∈ t.ackPendingQueue ∧
      (t.chunk pingPacket).retryCount = (s.chunk pingPacket).retryCount := by
  have ends := transition_writeEnd writes
  refine ⟨_, .single ends trivial, h.serve ends trivial, ?_⟩
  have awaits := postWrite_ping { s with jobs := s.jobs.erase (.writing pingPacket) } h.type
  rw [awaits]
  simp [awaitAck, setState, store, pushAck]

theorem exists_popBy {c : Nat} {queue : List Nat} (mem : c ∈ queue) :
    ∃ rest, popBy (· == c) queue = some (c, rest) := by
  induction queue with
  | nil => exact absurd mem (by simp)
  | cons d queue ih =>
      unfold popBy
      by_cases same : d = c
      · subst same
        exact ⟨queue, by simp⟩
      · obtain ⟨rest, pops⟩ := ih ((List.mem_cons.mp mem).resolve_left (Ne.symm same))
        exact ⟨d :: rest, by simp [same, pops]⟩

/-- The ping expires. -/
theorem Tended.leads_expired (h : s.Tended) (awaits : pingPacket ∈ s.ackPendingQueue) :
    ∃ t, s.Leads t ∧ t.Tended ∧ .expired pingPacket ∈ t.jobs ∧
      t.chunk pingPacket = s.chunk pingPacket := by
  obtain ⟨rest, pops⟩ := exists_popBy awaits
  have expires : s.Transition (.expire (· == pingPacket))
      { s with ackPendingQueue := rest, jobs := .expired pingPacket :: s.jobs } := by
    show (popBy _ _).map _ = _
    rw [pops]
    rfl
  exact ⟨_, .single expires trivial, h.serve expires trivial, List.mem_cons_self, rfl⟩

/-- A ping that is on its way expires or becomes idle. -/
theorem Tended.leads_settling (h : s.Tended) :
    ∃ t, s.Leads t ∧ t.Tended ∧
      (t.chunk pingPacket).retryCount = (s.chunk pingPacket).retryCount ∧
      (.expired pingPacket ∈ t.jobs ∨ (t.chunk pingPacket).Idle) := by
  have acked {s : Client} (h : s.Tended) (awaits : pingPacket ∈ s.ackPendingQueue) :
      ∃ t, s.Leads t ∧ t.Tended ∧
        (t.chunk pingPacket).retryCount = (s.chunk pingPacket).retryCount ∧
        (.expired pingPacket ∈ t.jobs ∨ (t.chunk pingPacket).Idle) := by
    obtain ⟨t, leads, tended, expires, same⟩ := h.leads_expired awaits
    exact ⟨t, leads, tended, by rw [same], .inl expires⟩
  have written {s : Client} (h : s.Tended) (writes : .writing pingPacket ∈ s.jobs) :
      ∃ t, s.Leads t ∧ t.Tended ∧
        (t.chunk pingPacket).retryCount = (s.chunk pingPacket).retryCount ∧
        (.expired pingPacket ∈ t.jobs ∨ (t.chunk pingPacket).Idle) := by
    obtain ⟨t, leads, tended, awaits, same⟩ := h.leads_written writes
    obtain ⟨u, more, tended', count, ends⟩ := acked tended awaits
    exact ⟨u, leads.trans more, tended', count.trans same, ends⟩
  obtain (queued | awaits | writes | idle) | expires | ⟨ack, r, mem⟩ := h.operational
  · obtain ⟨before, after, split⟩ := List.append_of_mem queued
    obtain ⟨t, leads, tended, writes, same⟩ := h.leads_writing split
    obtain ⟨u, more, tended', count, ends⟩ := written tended writes
    exact ⟨u, leads.trans more, tended', count.trans (by rw [same]), ends⟩
  · exact acked h awaits
  · exact written h writes
  · exact ⟨s, .refl s, h, rfl, .inr idle⟩
  · exact ⟨s, .refl s, h, rfl, .inl expires⟩
  · have ends := transition_acknowledge mem
    refine ⟨_, .single ends trivial, h.serve ends trivial, ?_⟩
    simp [acknowledge, h.owned, Chunk.Idle, setState, store, destroy]

theorem retry_ping (s : Client) (type : (s.chunk pingPacket).packetType = some .pingreq)
    (owned : (s.chunk pingPacket).haveOwner = true) :
    ((s.retry pingPacket).chunk pingPacket).retryCount = (s.chunk pingPacket).retryCount + 1 ∧
      ((s.chunk pingPacket).retryCount + 1 < mqttPublishRetry ∨
        ((s.retry pingPacket).chunk pingPacket).Idle) := by
  unfold retry
  rw [type]
  dsimp only
  split
  case isTrue more => exact ⟨by simp [pushWrite, store, retried], .inl more⟩
  case isFalse => simp [giveUp, owned, store, retried, Chunk.Idle]

/-- The cycles bring the ping to an end of its exchange. -/
theorem Tended.leads_idle (h : s.Tended) : ∃ t, s.Leads t ∧ (t.chunk pingPacket).Idle := by
  -- Each round through the queues counts a retry, and the last one times out.
  obtain ⟨left, enough⟩ : ∃ left, mqttPublishRetry ≤ (s.chunk pingPacket).retryCount + left :=
    ⟨mqttPublishRetry, by omega⟩
  induction left generalizing s with
  | zero =>
      obtain ⟨t, leads, tended, count, expires | idle⟩ := h.leads_settling
      · have retries := transition_retry expires
        obtain ⟨-, more | idle⟩ := retry_ping { t with jobs := t.jobs.erase (.expired pingPacket) }
          tended.type tended.owned
        · dsimp only at more
          omega
        · exact ⟨_, leads.trans (.single retries trivial), idle⟩
      · exact ⟨t, leads, idle⟩
  | succ left ih =>
      obtain ⟨t, leads, tended, count, expires | idle⟩ := h.leads_settling
      · have retries := transition_retry expires
        obtain ⟨counted, -⟩ := retry_ping { t with jobs := t.jobs.erase (.expired pingPacket) }
          tended.type tended.owned
        dsimp only at counted
        obtain ⟨u, more, idle⟩ := ih (tended.serve retries trivial) (by omega)
        exact ⟨u, (leads.trans (.single retries trivial)).trans more, idle⟩
      · exact ⟨t, leads, idle⟩

/-- An idle ping is sent or reported. -/
theorem checks_of_idle (idle : (s.chunk pingPacket).Idle) : s.SendsPing ∨ s.ReportsTimeout := by
  simp only [Chunk.Idle, List.mem_cons, List.not_mem_nil, or_false] at idle
  unfold SendsPing ReportsTimeout checkAlive
  rcases idle with idle | idle | idle
  · simp [idle, pushWrite, store]
  · simp [idle, pushWrite, store]
  · exact .inr idle

/-- The thread that has taken the ping out of its queue goes on. -/
theorem Tended.settles (h : s.Tended) (settling : s.Settling) :
    ∃ e t, e.Settles ∧ s.Transition e t ∧ t.Operational := by
  rcases settling with expires | ⟨ack, r, mem⟩
  · refine ⟨.retry pingPacket, _, rfl, transition_retry expires, ?_⟩
    unfold retry
    rw [h.type]
    dsimp only
    split
    · exact .inl (List.mem_append_right _ List.mem_cons_self)
    · refine .inr (.inr (.inr ?_))
      simp [giveUp, h.owned, store, retried]
  · refine ⟨.acknowledge ack r pingPacket, _, rfl, transition_acknowledge mem, ?_⟩
    refine .inr (.inr (.inr ?_))
    simp [acknowledge, h.owned, setState, store, destroy]

theorem writeFailed_owned (s : Client) {c : Nat} (owned : (s.chunk c).haveOwner = true) :
    s.writeFailed c = s.setState c .writeFail :=
  if_pos owned

/-- A failed write of the ping is its end. -/
theorem Ordered.dead (h : s.Ordered) (transition : s.Transition (.writeEnd pingPacket false) t) :
    t.Dead := by
  have ordered := h.step transition
  cases transition.stepped with
  | notWritten job =>
  have taken := h.holds.takeJob job
  have elsewhere :
      pingPacket ∉ ({ s with jobs := s.jobs.erase (.writing pingPacket) } : Client).held :=
    taken.custody.notMem
  have failed := writeFailed_owned { s with jobs := s.jobs.erase (.writing pingPacket) } h.owned
  rw [failed] at ordered ⊢
  exact ⟨ordered, elsewhere, by simp [setState, store]⟩

end Client

namespace Session

variable {s t : Session} {events : List Event}

/-- What is kept by the steps of the client is kept by those of the session. -/
private theorem keep_client {I : Client → Prop} {e : Event}
    (keep : ∀ e' u, e = .client e' → I s.client → s.client.Transition e' u → I u)
    (start : I s.client) (transition : s.Transition e t) : I t.client := by
  cases e with
  | connectNet connected =>
      obtain rfl := Option.some.inj transition
      exact start
  | closeNet =>
      obtain rfl := Option.some.inj transition
      exact start
  | client e => exact keep e _ rfl start (transition_client.mp transition).2.1

theorem ordered_of_steps (run : Steps Transition s events t) (start : s.client.Ordered) :
    t.client.Ordered :=
  run.invariant (I := fun s => s.client.Ordered)
    (fun _ _ _ h transition => keep_client (fun _ _ _ h step => h.step step) h transition) start

theorem dead_of_steps (run : Steps Transition s events t) (start : s.client.Dead) :
    t.client.Dead :=
  run.invariant (I := fun s => s.client.Dead)
    (fun _ _ _ h transition => keep_client (fun _ _ _ h step => h.step step) h transition) start

theorem tended_of_written (run : Steps Transition initial events s)
    (written : ∀ e ∈ events, e ≠ .client (.writeEnd Client.pingPacket false)) :
    s.client.Tended := by
  refine run.invariant_along (I := fun s => s.client.Tended) ?_
    (along_of_forall written) Client.Tended.initial
  intro s e t h other transition
  refine keep_client (fun e' u same h step => h.step step ?_) h transition
  rintro rfl
  exact other same

/-- What the cycles can do, they can do with a connection. -/
theorem steps_of_serves {s t : Client} {events : List Mqtt.Event}
    (run : Steps Client.Transition s events t) (serve : ∀ e ∈ events, e.Serves) :
    Steps Transition ⟨s, true⟩ (events.map .client) ⟨t, true⟩ := by
  induction run with
  | nil s => exact .nil _
  | @cons s t u e events transition rest ih =>
      have allowed : allows true e = true := by
        cases e with
        | writeEnd c written => simp [allows]
        | _ => rfl
      have first : Transition ⟨s, true⟩ (.client e) ⟨t, true⟩ :=
        transition_client.mpr ⟨allowed, transition, rfl⟩
      exact .cons first (ih fun other mem => serve other (List.mem_cons_of_mem _ mem))

/-- The client connects and sends a ping, which is taken out of the queue. -/
def connectAndPing : List Event :=
  [.connectNet true, .client (.request .connect), .client .writePop, .client (.writeEnd 1 true),
    .client (.read { packetType := some .connack }), .client (.postRead 2),
    .client (.acknowledge .connack 2 1), .client (.poll 1 .acknowledged false),
    .client .checkAlive, .client .writePop]

/-- The connection breaks, and the client connects again. -/
def reconnect : List Event :=
  [.closeNet, .client .disconnected, .client .userPop, .client (.report 3), .connectNet true,
    .client (.request .connect), .client .writePop, .client (.writeEnd 4 true),
    .client (.read { packetType := some .connack }), .client (.postRead 5),
    .client (.acknowledge .connack 5 4), .client (.poll 4 .acknowledged false)]

end Session

end StDevice.Mqtt
