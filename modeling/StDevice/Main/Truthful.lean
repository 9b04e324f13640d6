import StDevice.Main.Calls

/-!
# What a connection attempt leaves behind

The callers of `iot_es_connect` move the state machine on when it returns
`IOT_ERROR_NONE`, and try again otherwise. They rely on a client that is really there in
the first case, and on a context as before in the second.

Which of the two an attempt meets is decided by the first of its calls that fails.
-/

namespace StDevice.Main

namespace Context

/-- The calls whose failure is not handled: the return variable is not set, a topic of
the context is left changed, or memory that was never allocated is freed. -/
def Mishandled (s : Context) (type : ConnType) : Call → Prop
  | .mnid | .userId | .create | .healthTopic => True
  | .eventTopic => s.mqttEventTopic ≠ none
  | .topicfilter => type = .registration
  | _ => False

/-- The first of the calls that fails, if any, is one whose failure is handled. -/
def Handled (s : Context) (type : ConnType) (calls : Calls) : Prop :=
  ∀ call, type.calls.find? (s.fails calls) = some call → ¬ s.Mishandled type call

/-- A client created since `s` that still exists. -/
def NewClient (s t : Context) (c : Nat) : Prop :=
  s.created ≤ c ∧ c < t.created ∧ (t.client c).destroyed = false

/-- A connection of the type that was opened since `s` is in place. -/
def Opened (s t : Context) : ConnType → Prop
  | .communication =>
      ∃ c, NewClient s t c ∧ t.evtMqttcli = some c ∧ t.signInStatus = .success ∧
        (t.client c).subscribed = [.notification, .command] ∧ t.mqttEventTopic ≠ none ∧
        t.mqttHealthTopic ≠ none
  | .registration =>
      ∃ c, NewClient s t c ∧ t.regMqttcli = some c ∧ t.signUpStatus = .success ∧
        (t.client c).registered = true

/-- The client handles and the topics are as before. -/
structure SameHandles (s t : Context) : Prop where
  evt : t.evtMqttcli = s.evtMqttcli
  reg : t.regMqttcli = s.regMqttcli
  topics : SameTopics s t

/-- An outcome is truthful and atomic: success means that the connection is in place, and
an error that no new client is left and the handles and topics are as before. -/
def Truthful (s : Context) (type : ConnType) : Outcome → Prop
  | .returned .none t => Opened s t type
  | .returned _ t => (∀ c, ¬ NewClient s t c) ∧ SameHandles s t
  | .rebooted => True
  | .undefined => False

variable {s t : Context} {type : ConnType} {calls : Calls}

theorem Ended.no_newClient (h : Ended s t) (c : Nat) : ¬ NewClient s t c := by
  rintro ⟨low, high, alive⟩
  rw [h.gone c low high] at alive
  cases alive

/-- An attempt that leaves no connection is truthful exactly when it reports an error and
the topics are as before. -/
theorem truthful_ended {error : IotError} (h : Ended s t) :
    Truthful s type (.returned error t) ↔ error ≠ .none ∧ SameTopics s t := by
  cases error with
  | none =>
      refine iff_of_false ?_ (by simp)
      intro opened
      cases type with
      | communication =>
          obtain ⟨c, new, -⟩ := opened
          exact h.no_newClient c new
      | registration =>
          obtain ⟨c, new, -⟩ := opened
          exact h.no_newClient c new
  | _ =>
      constructor
      · rintro ⟨-, same⟩
        exact ⟨by simp, same.topics⟩
      · rintro ⟨-, topics⟩
        exact ⟨h.no_newClient, h.evt, h.reg, topics⟩

/-- After a handled failure the topics are as before and the error is set, and after
another they are not. -/
theorem handled_iff {call : Call} (topics : TopicsAfter s t call)
    (returns : ¬ (call = .topicfilter ∧ type = .registration)) :
    (call.setsError = true ∧ SameTopics s t) ↔ ¬ s.Mishandled type call := by
  cases call with
  | mnid | userId | create => simp [Call.setsError, Mishandled]
  | rateLimit | serialNumber | token | connect | responseTimer | secondTopicfilter | subscribe
  | response | registration =>
      exact iff_of_true ⟨rfl, topics⟩ (by simp [Mishandled])
  | topicfilter =>
      have other : type ≠ .registration := fun same => returns ⟨rfl, same⟩
      exact iff_of_true ⟨rfl, topics⟩ (by simp [Mishandled, other])
  | eventTopic =>
      simp only [Call.setsError, Mishandled, SameTopics, topics.1, topics.2, true_and, and_true,
        ne_eq, not_not]
      exact eq_comm
  | healthTopic =>
      refine iff_of_false ?_ (by simp [Mishandled])
      rintro ⟨-, same⟩
      exact topics same.1

theorem newClient_created (h : Attempt s t) : NewClient s t s.created :=
  ⟨Nat.le_refl _, h.created ▸ Nat.lt_succ_self s.created, h.alive⟩

/-- When no call fails, the connection is in place. -/
theorem truthful_success (s : Context) (type : ConnType) (calls : Calls)
    (passes : ∀ call ∈ type.calls, s.fails calls call = false) :
    Truthful s type (s.exit type calls none) := by
  have new := newClient_created (Attempt.answered s type calls)
  have status := status_answered s type calls
  have success : finalAnswer .waiting calls.yields = .success := by
    have passed : s.fails calls .response = false := by
      cases type with
      | _ => exact passes .response (by simp [ConnType.calls])
    simpa [fails] using passed
  rw [success] at status
  cases type with
  | communication =>
      refine ⟨s.created, new, rfl, status, ?_, Option.some_ne_none _, Option.some_ne_none _⟩
      have kept := Kept.awaitResponse .communication s.created
        ((s.opened .communication).subscribe s.created [.notification, .command]) calls.yields
      refine kept.subscribed.trans ?_
      simp [Context.subscribe, setClient]
  | registration =>
      refine ⟨s.created, ⟨new.1, new.2.1, ?_⟩, rfl, status, ?_⟩
      · simpa [succeeded, setClient] using new.2.2
      · simp [succeeded, setClient]

/-- An attempt is truthful and atomic exactly when the first of its calls that fails, if
any, is one whose failure is handled. -/
theorem truthful_iff_handled (s : Context) (type : ConnType) (calls : Calls) :
    Truthful s type (s.esConnect type calls) ↔ s.Handled type calls := by
  rw [esConnect_eq]
  cases first : type.calls.find? (s.fails calls) with
  | none =>
      have passes : ∀ call ∈ type.calls, s.fails calls call = false := by
        simpa [List.find?_eq_none] using first
      refine iff_of_true (truthful_success s type calls passes) ?_
      intro call some
      rw [first] at some
      cases some
  | some call =>
      have failed := List.find?_some first
      have handled : s.Handled type calls ↔ ¬ s.Mishandled type call := by
        simp [Handled, first]
      rw [handled]
      obtain ⟨-, ⟨rfl, rebooted⟩ | ⟨rfl, rfl, undefined⟩⟩ |
        ⟨error, t, -, sets, returned, ended, topics, -⟩ := exit_some type failed
      · rw [rebooted]
        exact iff_of_true trivial (by simp [Mishandled])
      · rw [undefined]
        exact iff_of_false (fun truthful => truthful) (by simp [Mishandled])
      · rw [returned, truthful_ended ended, sets]
        refine handled_iff topics ?_
        rintro ⟨rfl, rfl⟩
        cases returned

/-- A sign-in whose client cannot be created returns `IOT_ERROR_NONE` with no client. -/
theorem uncreatedClient_not_truthful :
    ¬ Truthful { initial false true (fun _ => true) with settings.updated := true } .communication
      ({ initial false true (fun _ => true) with settings.updated := true }.esConnect
        .communication { create := false }) := by
  rintro ⟨c, -, handle, -⟩
  cases handle

end Context

end StDevice.Main
