import Forgeant.Agent

namespace Forgeant

/-- Messages after which the assistant is to speak: the user's first, and then
turns of the assistant, each with the answers to its calls or, if it has none,
a next message of the user. -/
inductive Open : List Message → Prop
  | prompt (text : Str) : Open [.ofText .user text]
  | tools {ms : List Message} (h : Open ms) {turn : Message} (assistant : turn.role = .assistant)
      (asks : turn.toolUses ≠ []) {results : List ToolResultBlock}
      (answers : results.map ToolResultBlock.toolUseId = turn.toolUses.map ToolUseBlock.id) :
      Open (ms ++ [turn, ⟨.tool, results.map .toolResult⟩])
  | reply {ms : List Message} (h : Open ms) {turn : Message} (assistant : turn.role = .assistant)
      (final : turn.toolUses = []) (text : Str) : Open (ms ++ [turn, .ofText .user text])

/-- Messages that end with a turn of the assistant that asks for no tool. -/
def Closed (ms : List Message) : Prop :=
  ∃ pre turn, ms = pre ++ [turn] ∧ Open pre ∧ turn.role = .assistant ∧ turn.toolUses = []

theorem Closed.reply {ms : List Message} (h : Closed ms) (text : Str) :
    Open (ms ++ [.ofText .user text]) := by
  obtain ⟨pre, turn, rfl, hopen, assistant, final⟩ := h
  rw [List.append_assoc]
  exact hopen.reply assistant final text

variable {σ : Type} [Platform]

/-- A chain of runs on one provider. The first starts from a prompt, and each
later one from the conversation that the one before it returned and one more
text of the user. The agent may have got other tools and options in between. -/
inductive Chain (provider : LlmProvider σ) (s : Session σ) :
    Except AgentRunError Conversation → Session σ → Prop
  | run {agent : Agent σ} (h : agent.provider = provider) (prompt : Str)
      (overrides : RunOverrides) :
      Chain provider s ((agent.run prompt overrides s).1.map AgentResult.conversation)
        (agent.run prompt overrides s).2
  | runAs {T : Type} {agent : Agent σ} (h : agent.provider = provider) (output : OutputType T)
      (prompt : Str) (overrides : RunOverrides) :
      Chain provider s ((agent.runAs output prompt overrides s).1.map AgentResult.conversation)
        (agent.runAs output prompt overrides s).2
  | runConversation {c : Conversation} {t : Session σ} (before : Chain provider s (.ok c) t)
      {agent : Agent σ} (h : agent.provider = provider) (text : Str) (overrides : RunOverrides) :
      Chain provider s
        ((agent.runConversation (c.add (.ofText .user text)) overrides t).1.map
          AgentResult.conversation)
        (agent.runConversation (c.add (.ofText .user text)) overrides t).2
  | runConversationAs {T : Type} {c : Conversation} {t : Session σ}
      (before : Chain provider s (.ok c) t) {agent : Agent σ} (h : agent.provider = provider)
      (output : OutputType T) (text : Str) (overrides : RunOverrides) :
      Chain provider s
        ((agent.runConversationAs output (c.add (.ofText .user text)) overrides t).1.map
          AgentResult.conversation)
        (agent.runConversationAs output (c.add (.ofText .user text)) overrides t).2

end Forgeant
