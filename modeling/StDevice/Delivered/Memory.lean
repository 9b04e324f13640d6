import Mathlib.Data.List.Infix
import StDevice.Delivered.Callback

/-!
# A message in memory

The topic and the payload of a message lie in one packet. Behind the topic come the two
bytes of the packet identifier, unless the QoS is 0, and then the payload; behind the
payload comes whatever the heap holds. The same message can stand in memory in many ways,
and a callback that depends on the message only cannot tell them apart.

A comparison of the topic with a prefix is settled when the topic holds the whole prefix or
a byte that differs from it, and also when no identifier and no byte behind the payload
can complete it.
-/

namespace StDevice.Delivered

open CString

/-- How a message stands in memory: the identifier behind the topic, and what follows the
payload. Somewhere there is a NUL, where reading a text ends. -/
structure Placement where
  packetId : List UInt8
  after : List UInt8
  sized : packetId = [] ∨ packetId.length = 2
  terminated : 0 ∈ after

namespace Placement

/-- What the callback gets. -/
def msg (a : Placement) (topic payload : List UInt8) : Msg where
  topic := topic ++ (a.packetId ++ (payload ++ a.after))
  payload := payload ++ a.after
  payloadlen := payload.length

/-- No identifier. -/
def bare (after : List UInt8) (terminated : 0 ∈ after) : Placement :=
  ⟨[], after, .inl rfl, terminated⟩

/-- An identifier of two bytes. -/
def withId (high low : UInt8) (after : List UInt8) (terminated : 0 ∈ after) : Placement :=
  ⟨[high, low], after, .inr rfl, terminated⟩

end Placement

/-- One of the two texts starts with the other. -/
def Compatible (a b : List UInt8) : Prop := a <+: b ∨ b <+: a

instance (a b : List UInt8) : Decidable (Compatible a b) :=
  inferInstanceAs (Decidable (_ ∨ _))

/-- The payload, alone or behind two bytes, can be the start of a text that completes
`rest`. -/
def Completable (rest payload : List UInt8) : Prop :=
  Compatible rest payload ∨ Compatible (rest.drop 2) payload

instance (rest payload : List UInt8) : Decidable (Completable rest payload) :=
  inferInstanceAs (Decidable (_ ∨ _))

/-- The topic differs from the text in one of its bytes, or ends inside the text and cannot
be completed. -/
def Refused (text topic payload : List UInt8) : Prop :=
  ¬ text <+: topic ∧ (topic <+: text → ¬ Completable (text.drop topic.length) payload)

instance (text topic payload : List UInt8) : Decidable (Refused text topic payload) :=
  inferInstanceAs (Decidable (_ ∧ _))

section Compare

variable {text topic payload rest : List UInt8}

theorem compatible_of_starts {after : List UInt8} (starts : rest <+: payload ++ after) :
    Compatible rest payload :=
  List.prefix_or_prefix_of_prefix starts (List.prefix_append payload after)

/-- What is compatible with the payload is completed by some bytes behind it. -/
theorem Compatible.exists_after (compatible : Compatible rest payload) :
    ∃ after, 0 ∈ after ∧ rest <+: payload ++ after := by
  obtain starts | ⟨missing, rfl⟩ := compatible
  · exact ⟨[0], List.mem_singleton_self 0, starts.trans (List.prefix_append payload [0])⟩
  · refine ⟨missing ++ [0], List.mem_append_right missing (List.mem_singleton_self 0), ?_⟩
    rw [← List.append_assoc]
    exact List.prefix_append _ _

/-- The placements that complete a text. -/
theorem exists_placement_iff :
    (∃ a : Placement, rest <+: a.packetId ++ (payload ++ a.after)) ↔ Completable rest payload := by
  constructor
  · rintro ⟨a, starts⟩
    obtain none | two := a.sized
    · rw [none, List.nil_append] at starts
      exact .inl (compatible_of_starts starts)
    · right
      have behind := starts.drop 2
      rw [← two, List.drop_left, two] at behind
      exact compatible_of_starts behind
  · rintro (compatible | compatible)
    · obtain ⟨after, terminated, starts⟩ := compatible.exists_after
      exact ⟨.bare after terminated, starts⟩
    · obtain ⟨after, terminated, starts⟩ := compatible.exists_after
      -- the identifier is the first two bytes of the text, filled up where it is shorter
      match rest, starts with
      | [], _ => exact ⟨.bare after terminated, List.nil_prefix⟩
      | [high], _ => exact ⟨.withId high 0 after terminated, by simp [Placement.withId]⟩
      | high :: low :: rest, starts =>
          refine ⟨.withId high low after terminated, ?_⟩
          exact (List.prefix_cons_inj high).mpr ((List.prefix_cons_inj low).mpr starts)

/-- A topic that is a part of the text is completed by what follows. -/
theorem prefix_append_iff {behind : List UInt8} (inside : topic <+: text) :
    text <+: topic ++ behind ↔ text.drop topic.length <+: behind := by
  obtain ⟨missing, rfl⟩ := inside
  rw [List.drop_left, List.prefix_append_right_inj]

/-- The comparison fails in every placement. -/
theorem refused_iff : Refused text topic payload ↔
    ∀ a : Placement, ¬ text <+: (a.msg topic payload).topic := by
  constructor
  · rintro ⟨differs, short⟩ a starts
    obtain whole | inside := List.prefix_or_prefix_of_prefix starts (List.prefix_append topic _)
    · exact differs whole
    · exact short inside (exists_placement_iff.mp ⟨a, (prefix_append_iff inside).mp starts⟩)
  · intro never
    refine ⟨fun whole => ?_, fun inside completable => ?_⟩
    · exact never (.bare [0] (List.mem_singleton_self 0))
        (whole.trans (List.prefix_append topic _))
    · obtain ⟨a, starts⟩ := exists_placement_iff.mpr completable
      exact never a ((prefix_append_iff inside).mpr starts)

/-- A comparison that succeeds on the topic succeeds in every placement. -/
theorem Placement.starts (a : Placement) (payload : List UInt8) (whole : text <+: topic) :
    text <+: (a.msg topic payload).topic :=
  whole.trans (List.prefix_append topic _)

/-- A comparison that succeeds in every placement succeeds on the topic. -/
theorem prefix_of_starts (plain : 0 ∉ text)
    (always : ∀ a : Placement, text <+: (a.msg topic payload).topic) : text <+: topic := by
  have starts := always (.withId 0 0 [0] (List.mem_singleton_self 0))
  obtain whole | inside := List.prefix_or_prefix_of_prefix starts (List.prefix_append topic _)
  · exact whole
  · -- the first byte of the identifier would have to be a byte of the text
    obtain ⟨missing, rfl⟩ := inside
    have behind := (prefix_append_iff (List.prefix_append topic missing)).mp starts
    rw [List.drop_left] at behind
    cases missing with
    | nil => simp
    | cons b missing =>
        have nul : b = 0 := (List.cons_prefix_cons.mp behind).1
        refine absurd ?_ plain
        rw [nul]
        simp

end Compare

end StDevice.Delivered
