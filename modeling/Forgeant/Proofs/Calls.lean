import Forgeant.Replay
import Forgeant.Proofs.RetryLoop

namespace Forgeant.Proofs.Calls

variable {σ T : Type} [Platform]

/-- The call made the events of these attempts, from this conversation on, and
left their messages in it. -/
structure Made (agent : Agent σ) (request : ChatRequest) (c : Conversation) (s : Session σ)
    (as : Attempts) (r : Except AgentRunError (AgentResult T) × Session σ) : Prop where
  extends_ : Extends agent.provider agent.registry s (as.events request c) r.2
  conversation : reported AgentResult.conversation AgentRunError.conversation r.1 =
    c.extend as.messages

theorem executeText_made (agent : Agent σ) (c : Conversation) (overrides : RunOverrides)
    (s : Session σ) :
    ∃ as : Attempts, as.failed = [] ∧
      Made agent (agent.request none) c s as (agent.executeText c overrides s) := by
  obtain ⟨segment, t, _, hloop, hextends⟩ := ReactLoop.executeLoop_spec agent c overrides none s
  have hleft := Transcript.outcome_conversation segment c (agent.maxIterations overrides)
  refine ⟨⟨[], segment⟩, rfl, ?_, ?_⟩
  · rw [Attempts.events, Attempts.before_nil, Agent.executeText, hloop]
    cases segment.outcome c (agent.maxIterations overrides) with
    | error e => exact hextends
    | ok loop => exact hextends
  · rw [Agent.executeText, hloop]
    cases houtcome : segment.outcome c (agent.maxIterations overrides) with
    | error e =>
      rw [houtcome] at hleft
      exact hleft
    | ok loop =>
      rw [houtcome] at hleft
      exact hleft

theorem executeStructured_made (agent : Agent σ) (output : OutputType T) (c : Conversation)
    (overrides : RunOverrides) (s : Session σ) :
    ∃ as : Attempts, Attempts.Rejected output c as.failed ∧
      Made agent (agent.request (some output.schema)) c s as
        (agent.executeStructured output c overrides s) := by
  obtain ⟨as, t, hallowed, hloop, hextends⟩ :=
    RetryLoop.retryLoop_spec agent output {} (Int.zero_le_ofNat 2) c overrides s
  refine ⟨as, hallowed.rejected, ?_, ?_⟩
  · rw [Agent.executeStructured, hloop]
    exact hextends
  · rw [Agent.executeStructured, hloop]
    exact RetryLoop.outcome_conversation as output {} _ c

/-- The texts of the failed attempts were rejected by the call, each with the
error that the attempt ends with. -/
def Rejected (call : Call T) (c : Conversation) (failed : List FailedAttempt) : Prop :=
  ∀ pre a post, failed = pre ++ a :: post →
    call.Rejects (extractLastText ((Attempts.before c pre).extend a.segment.messages)) a.error

theorem rejected_nil (call : Call T) (c : Conversation) : Rejected call c [] := by
  intro pre a post hsplit
  simp at hsplit

theorem call_made (agent : Agent σ) (call : Call T) (s : Session σ) :
    ∃ as : Attempts, Rejected call (agent.start call) as.failed ∧
      Made agent (agent.request call.outputSchema) (agent.start call) s as (agent.call call s) := by
  cases call with
  | run prompt overrides =>
    obtain ⟨as, hfailed, hmade⟩ := executeText_made agent (agent.promptConversation prompt overrides)
      overrides s
    exact ⟨as, hfailed ▸ rejected_nil _ _, hmade⟩
  | runConversation conversation overrides =>
    obtain ⟨as, hfailed, hmade⟩ := executeText_made agent
      (agent.applySystemPrompt conversation overrides) overrides s
    exact ⟨as, hfailed ▸ rejected_nil _ _, hmade⟩
  | runAs output prompt overrides => exact executeStructured_made agent output _ overrides s
  | runConversationAs output conversation overrides =>
    exact executeStructured_made agent output _ overrides s

end Forgeant.Proofs.Calls
