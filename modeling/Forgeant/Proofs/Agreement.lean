import Forgeant.Proofs.FinalTurn
import Forgeant.Structured

namespace Forgeant.Proofs.Agreement
open ReactLoop FinalTurn

section

variable {σ T : Type} [Platform] {agent : Agent σ}

/-- The two ways to a typed answer end alike. A provider error is told of with
the same message and conversation. -/
def Agree : Except AgentRunError (AgentResult T) → Except AgentRunError (AgentResult T) → Prop
  | .ok a, .ok b => a = b
  | .error a, .error b =>
    a.kind = .structuredParse ∧ a = b ∨
      a.kind = .providerError ∧ b.kind = .providerError ∧ a.message = b.message ∧
        a.conversation = b.conversation
  | _, _ => False

omit [Platform] in
theorem request_without_tools (hreg : agent.registry.tools_ = []) (schema : Option Json) :
    agent.request schema = { outputSchema := schema } := by
  simp [Agent.request, ToolRegistry.tools, hreg]

/-- Without tool calls the loop is one chat call. -/
theorem executeLoop_once (contract : agent.provider.RepliesWithText) (c : Conversation)
    {overrides : RunOverrides} (hcap : 1 ≤ agent.maxIterations overrides) (schema : Option Json)
    (session : Session σ) :
    ∃ (o : Except StdException LlmResponse) (t : Session σ),
      session.chat agent.provider c (agent.request schema) = (o, t) ∧
      ((∃ e, o = .error e ∧ agent.executeLoop c overrides schema session = (.error
          { kind := .providerError, message := e.what, conversation := c, usage := 0,
            iterations := 1, finishReason := str "error" }, t)) ∨
      (∃ response, o = .ok response ∧ response.message.role = .assistant ∧
        response.message.texts ≠ [] ∧ agent.executeLoop c overrides schema session = (.ok
          { conversation := c.add response.message, totalUsage := response.usage,
            iterations := 1, finishReason := response.finishReason }, t))) := by
  rcases hc : session.chat agent.provider c (agent.request schema) with ⟨o, t⟩
  refine ⟨o, t, rfl, ?_⟩
  obtain ⟨n, hn⟩ : ∃ n, (agent.maxIterations overrides).toNat = n + 1 :=
    ⟨(agent.maxIterations overrides).toNat - 1, by omega⟩
  simp only [Agent.executeLoop, hn]
  cases o with
  | error e =>
    left
    refine ⟨e, rfl, Loop.run_leave n ?_⟩
    simp only [Agent.iterate, hc]
    rfl
  | ok response =>
    right
    have hreply : agent.provider.chat c (agent.request schema) session.world =
        (.ok response, t.world) := by
      simp only [Session.chat, Prod.mk.injEq] at hc
      rw [← hc.2, ← hc.1]
    obtain ⟨hrole, htexts, htools⟩ := contract _ _ _ _ _ hreply
    have hnone : hasToolUse response.message = false := by
      rw [Bool.eq_false_iff]
      intro h
      exact (hasToolUse_iff _).mp h htools
    refine ⟨response, rfl, hrole, htexts, Loop.run_leave n ?_⟩
    simp only [Agent.iterate, hc, hnone, zero_add]
    rfl

/-- Both ways decode the first text of the reply. -/
theorem extract_agrees {response : LlmResponse} (hrole : response.message.role = .assistant)
    (htexts : response.message.texts ≠ []) (c : Conversation) (output : OutputType T) :
    output.decode (extractLastText (c.add response.message)) =
      (extractJsonFromResponse response >>= output.get) := by
  obtain ⟨text, texts, ht⟩ := List.exists_cons_of_ne_nil htexts
  have hfirst : response.message.content.findSome? ContentBlock.text? = some text := by
    have := List.head?_filterMap (f := ContentBlock.text?) (l := response.message.content)
    rw [← this, ← Message.texts, ht, List.head?_cons]
  have hlast := extractLastText_snoc c [] hrole
  rw [List.nil_append, ht] at hlast
  rw [Conversation.add_eq_extend, hlast]
  simp [extractJsonFromResponse, hfirst, OutputType.decode]

/-- What the two retry loops hand on agrees, the nested one having counted one
iteration for each attempt. -/
def Together (k : Nat) (s s' : RetryState σ) : Prop :=
  s.working = s'.working ∧ s.accumulated = s'.accumulated ∧ s.totalIterations = k ∧
    s.lastFinishReason = s'.lastFinishReason ∧ s.lastError = s'.lastError ∧
    s.session = s'.session

def EndTogether (p p' : Except AgentRunError (AgentResult T) × Session σ) : Prop :=
  p.2 = p'.2 ∧ Agree p.1 p'.1

/-- Attempts that start together end alike, or go round again together. -/
theorem attempt_together (contract : agent.provider.RepliesWithText)
    (hreg : agent.registry.tools_ = []) {overrides : RunOverrides}
    (hcap : 1 ≤ agent.maxIterations overrides) (output : OutputType T) (cfg : StructuredConfig)
    (k : Nat) {s s' : RetryState σ} (h : Together k s s') :
    Loop.Step.Related (Together (k + 1)) EndTogether (agent.attempt output overrides cfg k s)
      (structuredAttempt agent.provider output cfg k s') := by
  obtain ⟨working, accumulated, total, reason, error, session⟩ := s
  obtain ⟨working', accumulated', total', reason', error', session'⟩ := s'
  obtain ⟨rfl, rfl, rfl, rfl, rfl, rfl⟩ := h
  simp only at *
  obtain ⟨o, t, hchat, hloop⟩ :=
    executeLoop_once contract working hcap (some output.schema) session
  rw [request_without_tools hreg] at hchat
  rcases hloop with ⟨e, rfl, hl⟩ | ⟨response, rfl, hrole, htexts, hl⟩
  · simp only [Agent.attempt, hl, structuredAttempt, hchat]
    exact ⟨rfl, .inr ⟨rfl, rfl, rfl, rfl⟩⟩
  · have hextract := extract_agrees hrole htexts working output
    simp only [Agent.attempt, hl, structuredAttempt, hchat]
    rw [← hextract]
    cases output.decode (extractLastText (working.add response.message)) with
    | ok value => exact ⟨rfl, rfl⟩
    | error e => exact ⟨rfl, rfl, by simp, rfl, rfl, rfl⟩

/-- Without tools, `Agent::run<T>` and `structured<T>` make the same chat calls
and end alike. -/
theorem runConversationAs_structured (agent : Agent σ)
    (contract : agent.provider.RepliesWithText) (hreg : agent.registry.tools_ = [])
    (overrides : RunOverrides) (hcap : 1 ≤ agent.maxIterations overrides) (c : Conversation)
    (hprompt : c.systemPrompt.isSome ∨
      overrides.systemPrompt = none ∧ agent.options.systemPrompt = [])
    (output : OutputType T) (session : Session σ) :
    let (r, t) := agent.runConversationAs output c overrides session
    let (r', t') := structured agent.provider output c {} session
    t = t' ∧ Agree r r' := by
  have hstart : agent.applySystemPrompt c overrides = c := by
    unfold Agent.applySystemPrompt
    rcases hprompt with h | ⟨ho, ha⟩
    · rw [if_pos h]
    · simp [ho, ha]
  rw [Agent.runConversationAs, hstart]
  have hbegin : Together 0 ({ working := c, session := session } : RetryState σ)
      { working := c, session := session } := ⟨rfl, rfl, rfl, rfl, rfl, rfl⟩
  suffices h : EndTogether (agent.executeStructured output c overrides session)
      (structured agent.provider output c {} session) from h
  apply Loop.run_simulation Together EndTogether _ 0 0 hbegin
  · intro k _ s s' h
    rw [Nat.zero_add]
    exact attempt_together contract hreg hcap output {} k h
  · intro s s' h
    obtain ⟨hworking, husage, hiter, hreason, herror, hsession⟩ := h
    refine ⟨hsession, .inl ⟨rfl, ?_⟩⟩
    rw [hworking, husage, hiter, hreason, herror]
    rfl

end

def talker : Agent (List Str) :=
  { provider := .talking, registry := { tools_ := [], unique := List.nodup_nil } }

def wholeNumberOutput : OutputType Int := { schema := .null, get := Json.getInt }

def question : Conversation := { messages := [.ofText .user (str "What is 2 + 3?")] }

/-- Both give up on the prose and take the number of the second reply. -/
theorem runConversationAs_structured_talker :
    letI := Platform.reference
    let (r, t) := talker.runConversationAs wholeNumberOutput question {}
      ⟨[str "five", str "5"], []⟩
    let (r', t') := structured talker.provider wholeNumberOutput question {}
      ⟨[str "five", str "5"], []⟩
    t = t' ∧ Agree r r' := by
  let platform := Platform.reference
  exact runConversationAs_structured talker LlmProvider.talking_repliesWithText rfl {} (by decide)
    question (.inr ⟨rfl, rfl⟩) wholeNumberOutput ⟨[str "five", str "5"], []⟩

end Forgeant.Proofs.Agreement
