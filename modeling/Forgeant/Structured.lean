import Forgeant.Agent

namespace Forgeant

variable {σ T : Type} [Platform]

def extractJsonFromResponse (response : LlmResponse) : Except StdException Json :=
  match response.message.content.findSome? ContentBlock.text? with
  | some text => Json.parse text
  | none => .error (.runtimeError (str "structured output response contains no text content"))

/-- The body of the loop of `structured<T>`. -/
def structuredAttempt (provider : LlmProvider σ) (output : OutputType T) (config : StructuredConfig)
    (attempt : Nat) (s : RetryState σ) :
    Loop.Step (RetryState σ) (Except AgentRunError (AgentResult T) × Session σ) :=
  match s.session.chat provider s.working { outputSchema := some output.schema } with
  | (.error e, session) =>
    .leave (.error
      { kind := .providerError, message := e.what, conversation := s.working,
        usage := s.accumulated, iterations := attempt + 1, finishReason := str "error" }, session)
  | (.ok response, session) =>
    let accumulated := s.accumulated + response.usage
    let working := s.working.add response.message
    match extractJsonFromResponse response >>= output.get with
    | .ok value =>
      .leave (.ok
        { output := value, conversation := working, totalUsage := accumulated,
          iterations := attempt + 1, finishReason := response.finishReason }, session)
    | .error e =>
      .again
        { working :=
            if attempt < config.maxRetries then working.add (correctiveMessage e.what)
            else working
          accumulated := accumulated, lastFinishReason := response.finishReason,
          lastError := e.what, session := session }

/-- Everything one attempt of `structured<T>` can do after its chat call. -/
theorem structuredAttempt_cases (provider : LlmProvider σ) (output : OutputType T)
    (config : StructuredConfig) (i : Nat) (s : RetryState σ) :
    ∃ (o : Except StdException LlmResponse) (t : Session σ),
      s.session.chat provider s.working { outputSchema := some output.schema } = (o, t) ∧
      ((∃ e, o = .error e ∧ structuredAttempt provider output config i s = .leave (.error
          { kind := .providerError, message := e.what, conversation := s.working,
            usage := s.accumulated, iterations := i + 1, finishReason := str "error" }, t)) ∨
      (∃ response value, o = .ok response ∧
        (extractJsonFromResponse response >>= output.get) = .ok value ∧
        structuredAttempt provider output config i s = .leave (.ok
          { output := value, conversation := s.working.add response.message,
            totalUsage := s.accumulated + response.usage, iterations := i + 1,
            finishReason := response.finishReason }, t)) ∨
      (∃ response e, o = .ok response ∧
        (extractJsonFromResponse response >>= output.get) = .error e ∧
        structuredAttempt provider output config i s = .again
          { working :=
              if i < config.maxRetries then
                (s.working.add response.message).add (correctiveMessage e.what)
              else s.working.add response.message
            accumulated := s.accumulated + response.usage,
            lastFinishReason := response.finishReason, lastError := e.what, session := t })) := by
  rcases hc : s.session.chat provider s.working { outputSchema := some output.schema } with ⟨o, t⟩
  refine ⟨o, t, rfl, ?_⟩
  unfold structuredAttempt
  cases o with
  | error e => exact .inl ⟨e, rfl, by simp only [hc]⟩
  | ok response =>
    right
    cases hd : extractJsonFromResponse response >>= output.get with
    | ok value => exact .inl ⟨response, value, rfl, hd, by simp only [hc, hd]⟩
    | error e => exact .inr ⟨response, e, rfl, hd, by simp only [hc, hd]⟩

def structured (provider : LlmProvider σ) (output : OutputType T) (working : Conversation)
    (config : StructuredConfig) (session : Session σ) :
    Except AgentRunError (AgentResult T) × Session σ :=
  Loop.run (structuredAttempt provider output config)
    (fun s => (.error
      { kind := .structuredParse, message := structuredParseMessage config s.lastError,
        conversation := s.working, usage := s.accumulated, iterations := config.maxRetries + 1,
        finishReason := s.lastFinishReason }, s.session))
    (config.maxRetries + 1).toNat 0 { working := working, session := session }

end Forgeant
