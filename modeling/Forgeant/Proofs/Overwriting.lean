import Forgeant.Decoding

namespace Forgeant.Target

/-- Nothing that the target holds outlives the decoding of `j`. -/
def Replaced (j : Json) : Target → Prop
  | .conversation conv =>
    conv.messages = [] ∧ (j.contains (str "system_prompt") ∨ conv.systemPrompt = none)
  | _ => True

/-- Decoding `j` adds nothing to the target. -/
def AddsNothing (j : Json) : Target → Prop
  | .conversation _ => j.index (str "messages") = .ok (.array [])
  | _ => True

variable {j : Json} {target after : Target}

theorem fromJsonTo_eq_get (h : ∀ conv, target ≠ .conversation conv) :
    target.fromJsonTo j = target.get j := by
  cases target with
  | textBlock block => rfl
  | toolUseBlock block => rfl
  | toolResultBlock block => rfl
  | contentBlock block => rfl
  | message msg =>
    simp only [get, fresh, fromJsonTo, Message.fromJsonTo_eq]
  | conversation conv => exact absurd rfl (h conv)

theorem fromJsonTo_fresh (h : target.fromJsonTo j = .ok after) : after.fresh = target.fresh := by
  cases target <;>
  · obtain ⟨_, _, hafter⟩ := Except.bind_ok.mp h
    cases hafter
    rfl

theorem fromJsonTo_ne_conversation (hne : ∀ conv, target ≠ .conversation conv)
    (h : target.fromJsonTo j = .ok after) : ∀ conv, after ≠ .conversation conv := by
  rintro conv rfl
  have hfresh := fromJsonTo_fresh h
  cases target with
  | conversation other => exact hne other rfl
  | _ => cases hfresh

theorem conversation_ok {conv : Conversation}
    (h : fromJsonTo j (.conversation conv) = .ok after) :
    ∃ decoded, Conversation.fromJson j = .ok decoded ∧
      after = .conversation (conv.filledWith decoded) := by
  obtain ⟨filled, hfilled, hafter⟩ := Except.bind_ok.mp h
  rw [Conversation.fromJsonTo_eq] at hfilled
  obtain ⟨decoded, hdecoded, heq⟩ := Except.bind_ok.mp hfilled
  cases heq
  cases hafter
  exact ⟨decoded, hdecoded, rfl⟩

theorem fromJsonTo_conversation {decoded : Conversation}
    (h : Conversation.fromJson j = .ok decoded) (conv : Conversation) :
    fromJsonTo j (.conversation conv) = .ok (.conversation (conv.filledWith decoded)) := by
  simp only [fromJsonTo, Conversation.fromJsonTo_eq, h]
  rfl

theorem contains_prompt {decoded : Conversation} (h : Conversation.fromJson j = .ok decoded) :
    j.contains (str "system_prompt") = decoded.systemPrompt.isSome := by
  have hprompt := (Conversation.fromJson_ok.mp h).1
  cases hd : decoded.systemPrompt with
  | some prompt =>
    rw [hd] at hprompt
    exact Json.contains_of_index hprompt
  | none =>
    rw [hd] at hprompt
    exact hprompt

theorem index_messages_nil {decoded : Conversation} (h : Conversation.fromJson j = .ok decoded) :
    j.index (str "messages") = .ok (.array []) ↔ decoded.messages = [] := by
  obtain ⟨_, elems, helems, hmessages⟩ := Conversation.fromJson_ok.mp h
  rw [helems]
  rw [Except.mapM_ok] at hmessages
  constructor
  · intro hnil
    cases hnil
    exact List.forall₂_nil_left_iff.mp hmessages
  · intro hnil
    rw [hnil] at hmessages
    rw [List.forall₂_nil_right_iff.mp hmessages]

/-- Decoding leaves what `j` alone says, except that a conversation keeps its
messages, and its prompt where `j` has none. -/
theorem fromJsonTo_overwrites (h : target.fromJsonTo j = .ok after) :
    (target.get j = .ok after ↔ target.Replaced j) ∧
    (after.fromJsonTo j = .ok after ↔ target.AddsNothing j) := by
  by_cases hconv : ∃ conv, target = .conversation conv
  · obtain ⟨conv, rfl⟩ := hconv
    obtain ⟨decoded, hdecoded, rfl⟩ := conversation_ok h
    constructor
    · simp only [get, fresh, fromJsonTo_conversation hdecoded, Conversation.default_filledWith,
        Except.ok.injEq, conversation.injEq, Replaced, contains_prompt hdecoded]
      rw [eq_comm, Conversation.filledWith_eq_iff]
    · simp only [fromJsonTo_conversation hdecoded, Except.ok.injEq, conversation.injEq, AddsNothing,
        index_messages_nil hdecoded]
      exact Conversation.filledWith_twice_iff
  · have hne : ∀ conv, target ≠ .conversation conv := fun conv heq => hconv ⟨conv, heq⟩
    have hget : target.get j = .ok after := (fromJsonTo_eq_get hne).symm.trans h
    have htwice : after.fromJsonTo j = .ok after := by
      rw [fromJsonTo_eq_get (fromJsonTo_ne_conversation hne h), get, fromJsonTo_fresh h]
      exact hget
    cases target with
    | conversation conv => exact absurd rfl (hne conv)
    | _ => exact ⟨iff_of_true hget trivial, iff_of_true htwice trivial⟩

def oneMessage : Conversation where
  systemPrompt := some (str "Be brief.")
  messages := [.ofText .user (str "hi")]

def noMessage : Json := .object [(str "messages", .array [])]

theorem fromJsonTo_overwrites_noMessage :
    (get noMessage (.conversation oneMessage) = .ok (.conversation oneMessage) ↔
      Replaced noMessage (.conversation oneMessage)) ∧
    (fromJsonTo noMessage (.conversation oneMessage) = .ok (.conversation oneMessage) ↔
      AddsNothing noMessage (.conversation oneMessage)) := by
  have hkept : fromJsonTo noMessage (.conversation oneMessage) =
      .ok (.conversation oneMessage) := rfl
  exact fromJsonTo_overwrites hkept

/-- The greeting is still there, and so is the prompt. -/
theorem not_fromJsonTo_overwrites : ¬ ∀ (j : Json) (target after : Target),
    target.fromJsonTo j = .ok after →
      target.get j = .ok after ∧ after.fromJsonTo j = .ok after := by
  intro h
  have hget := (h noMessage (.conversation oneMessage) (.conversation oneMessage) rfl).1
  have hfresh : get noMessage (.conversation oneMessage) = .ok (.conversation default) := rfl
  rw [hfresh] at hget
  cases hget

end Forgeant.Target
