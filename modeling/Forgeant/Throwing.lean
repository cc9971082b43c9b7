import Forgeant.Provider.Anthropic
import Forgeant.Provider.OpenAi
import Forgeant.Agent

namespace Forgeant

/-- How a computation can fail to return. -/
inductive Fault where
  | std (e : StdException)
  | run (e : AgentRunError)
  | undefined

/-- The `what()` of what a `catch (const std::exception&)` catches. An
`AgentRunError` is a `std::runtime_error`; nothing catches undefined behaviour. -/
def Fault.caught [Platform] : Fault → Option Str
  | .std e => some e.what
  | .run e => some e.message.cstr
  | .undefined => none

/-- A computation in the world `σ`. -/
structure Effect (σ α : Type) where
  run : σ → Except Fault α × σ

namespace Effect

variable {σ α β : Type}

instance : Monad (Effect σ) where
  pure a := ⟨fun w => (.ok a, w)⟩
  bind x f := ⟨fun w =>
    match x.run w with
    | (.ok a, v) => (f a).run v
    | (.error fault, v) => (.error fault, v)⟩

def throw (fault : Fault) : Effect σ α := ⟨fun w => (.error fault, w)⟩

/-- A computation that leaves the world alone. -/
def lift (x : Except Fault α) : Effect σ α := ⟨fun w => (x, w)⟩

/-- A call that may throw a `std::exception` and nothing else. -/
def call (f : σ → Except StdException α × σ) : Effect σ α :=
  ⟨fun w => ((f w).1.mapError .std, (f w).2)⟩

/-- `try { x } catch (const std::exception& e) { handler(e.what()) }`. -/
def catchStd [Platform] (x : Effect σ α) (handler : Str → Effect σ α) : Effect σ α := ⟨fun w =>
  match x.run w with
  | (.ok a, v) => (.ok a, v)
  | (.error fault, v) =>
    match fault.caught with
    | some what => (handler what).run v
    | none => (.error fault, v)⟩

section

variable {x : Effect σ α} {w v : σ} {a : α} {fault : Fault}

theorem run_bind_ok (h : x.run w = (.ok a, v)) (f : α → Effect σ β) :
    (x >>= f).run w = (f a).run v := by
  simp only [bind, h]

theorem run_bind_error (h : x.run w = (.error fault, v)) (f : α → Effect σ β) :
    (x >>= f).run w = (.error fault, v) := by
  simp only [bind, h]

variable [Platform] {handler : Str → Effect σ α}

theorem run_catchStd_ok (h : x.run w = (.ok a, v)) : (x.catchStd handler).run w = (.ok a, v) := by
  simp only [catchStd, h]

theorem run_catchStd_std {e : StdException} (h : x.run w = (.error (.std e), v)) :
    (x.catchStd handler).run w = (handler e.what).run v := by
  simp only [catchStd, h, Fault.caught]

end

end Effect

/-- `j[i]` on a const `Json`, wherever `i` points. -/
def Json.indexUnchecked (j : Json) (i : Nat) : Except Fault Json :=
  match j with
  | .array elems =>
    match elems[i]? with
    | some e => .ok e
    | none => .error .undefined
  | _ => .error (.std .badVariantAccess)

namespace Throwing

/-- What throws nothing but a `std::exception`. -/
def std {α : Type} (x : Except StdException α) : Except Fault α := x.mapError .std

/-- `!json.contains("choices") || json["choices"].empty()`. -/
def choicesMissing (json : Json) : Except Fault Bool :=
  if !json.contains (str "choices") then return true
  else do
    let choices ← std (json.index (str "choices"))
    return choices.empty

/-- `json["choices"][0]` behind its test. -/
def firstChoice (json : Json) : Except Fault Json := do
  if ← choicesMissing json then .error (.std OpenAiProvider.choicesError)
  else
    let choices ← std (json.index (str "choices"))
    choices.indexUnchecked 0

section

variable {σ : Type} [Platform]

/-- `OpenAiProvider::deserialize_response`. -/
def deserializeOpenAi (json : Json) : Except Fault LlmResponse := do
  let model ← std (json.value Json.getString (str "model") [])
  let usage ← std (deserializeUsage (str "prompt_tokens") (str "completion_tokens") json)
  let choice ← firstChoice json
  let finishReason ← std (choice.value Json.getString (str "finish_reason") [])
  let msg ← std (choice.index (str "message"))
  let toolUses ← std (OpenAiProvider.deserializeToolCalls msg)
  let text ← std (OpenAiProvider.deserializeText msg)
  return { message := ⟨.assistant, toolUses ++ text⟩, finishReason, usage, model }

/-- `AnthropicProvider::deserialize_response`, which accesses nothing unchecked. -/
def deserializeAnthropic (json : Json) : Except Fault LlmResponse :=
  std (AnthropicProvider.deserializeResponse json)

/-- `chat` of either provider. -/
def chat (client : HttpClient σ) (api endpointUrl : Str) (authHeaders : HttpHeaders)
    (requestBody : Except StdException Json) (deserialize : Json → Except Fault LlmResponse) :
    Effect σ LlmResponse := do
  let requestBody ← .lift (std requestBody)
  let response ← .call (client.post endpointUrl authHeaders requestBody.dump)
  if response.statusCode < 200 ∨ 300 ≤ response.statusCode then
    .throw (.std (.runtimeError (apiErrorMessage api response)))
  else
    let json ← .lift (std (Json.parse response.body))
    .lift (deserialize json)

def chatOpenAi (provider : OpenAiProvider σ) (c : Conversation) (request : ChatRequest) :
    Effect σ LlmResponse :=
  chat provider.client (str "OpenAI") provider.endpointUrl provider.authHeaders
    (provider.serializeRequest c request) deserializeOpenAi

def chatAnthropic (provider : AnthropicProvider σ) (c : Conversation) (request : ChatRequest) :
    Effect σ LlmResponse :=
  chat provider.client (str "Anthropic") provider.endpointUrl provider.authHeaders
    (provider.serializeRequest c request) deserializeAnthropic

/-- One pass of the loop of `dispatch_tools` over a call. -/
def dispatchTool (registry : ToolRegistry σ) (toolCall : ToolUseBlock) : Effect σ ContentBlock :=
  .catchStd
    (do
      let output ← .call (registry.execute toolCall.name toolCall.input)
      return .toolResult { toolUseId := toolCall.id, content := output.dump })
    (fun what => return .toolResult { toolUseId := toolCall.id, content := what, isError := true })

def dispatchTools (registry : ToolRegistry σ) : List ContentBlock → Effect σ (List ContentBlock)
  | [] => return []
  | .toolUse toolCall :: blocks => do
    let result ← dispatchTool registry toolCall
    let results ← dispatchTools registry blocks
    return result :: results
  | _ :: blocks => dispatchTools registry blocks

variable (agent : Agent σ) (chat : Conversation → ChatRequest → Effect σ LlmResponse)

/-- The loop of `execute_loop` with its last so many iterations to go. -/
def iterations (outputSchema : Option Json) (maxIterations : Int) :
    Nat → Nat → Conversation → Usage → Effect σ LoopResult
  | 0, _, working, accumulated =>
    .throw (.run
      { kind := .maxIterations,
        message := str "max_iterations reached without a terminal response",
        conversation := working, usage := accumulated, iterations := maxIterations,
        finishReason := str "max_iterations" })
  | n + 1, iteration, working, accumulated => do
    let response ← (chat working (agent.request outputSchema)).catchStd (fun what =>
      .throw (.run
        { kind := .providerError, message := what, conversation := working, usage := accumulated,
          iterations := iteration + 1, finishReason := str "error" }))
    let accumulated := accumulated + response.usage
    let working := working.add response.message
    if !hasToolUse response.message then
      return { conversation := working, totalUsage := accumulated, iterations := iteration + 1,
               finishReason := response.finishReason }
    else
      let toolResults ← dispatchTools agent.registry response.message.content
      iterations outputSchema maxIterations n (iteration + 1) (working.add ⟨.tool, toolResults⟩)
        accumulated

def executeLoop (working : Conversation) (overrides : RunOverrides) (outputSchema : Option Json) :
    Effect σ LoopResult :=
  let maxIterations := agent.maxIterations overrides
  iterations agent chat outputSchema maxIterations maxIterations.toNat 0 working 0

variable {T : Type}

/-- `execute<std::string>`. -/
def executeText (working : Conversation) (overrides : RunOverrides) :
    Effect σ (AgentResult Str) := do
  let loop ← executeLoop agent chat working overrides none
  return { output := extractLastText loop.conversation, conversation := loop.conversation,
           totalUsage := loop.totalUsage, iterations := loop.iterations,
           finishReason := loop.finishReason }

/-- The retry loop of `execute<T>` with its last so many attempts to go. -/
def attempts (output : OutputType T) (overrides : RunOverrides) (cfg : StructuredConfig) :
    Nat → Nat → Conversation → Usage → Int → Str → Str → Effect σ (AgentResult T)
  | 0, _, working, accumulated, totalIterations, lastFinishReason, lastError =>
    .throw (.run
      { kind := .structuredParse, message := structuredParseMessage cfg lastError,
        conversation := working, usage := accumulated, iterations := totalIterations,
        finishReason := lastFinishReason })
  | n + 1, attempt, working, accumulated, totalIterations, _, _ => do
    let loop ← executeLoop agent chat working overrides (some output.schema)
    let accumulated := accumulated + loop.totalUsage
    let totalIterations := totalIterations + loop.iterations
    let text := extractLastText loop.conversation
    -- the `try` returns from the function, so what it catches goes on as a value
    let tried : Except Str T ← .catchStd
      (do
        let json ← .lift (std (Json.parse text))
        let value ← .lift (std (output.get json))
        return .ok value)
      (fun what => return .error what)
    match tried with
    | .ok value =>
      return { output := value, conversation := loop.conversation, totalUsage := accumulated,
               iterations := totalIterations, finishReason := loop.finishReason }
    | .error lastError =>
      attempts output overrides cfg n (attempt + 1)
        (if attempt < cfg.maxRetries then loop.conversation.add (correctiveMessage lastError)
          else loop.conversation)
        accumulated totalIterations loop.finishReason lastError

/-- `execute<T>` for any other `T`. -/
def executeStructured (output : OutputType T) (working : Conversation) (overrides : RunOverrides) :
    Effect σ (AgentResult T) :=
  let cfg : StructuredConfig := {}
  attempts agent chat output overrides cfg (cfg.maxRetries + 1).toNat 0 working 0 0 [] []

def run (prompt : Str) (overrides : RunOverrides) : Effect σ (AgentResult Str) :=
  executeText agent chat (agent.promptConversation prompt overrides) overrides

def runConversation (conversation : Conversation) (overrides : RunOverrides) :
    Effect σ (AgentResult Str) :=
  executeText agent chat (agent.applySystemPrompt conversation overrides) overrides

def runAs (output : OutputType T) (prompt : Str) (overrides : RunOverrides) :
    Effect σ (AgentResult T) :=
  executeStructured agent chat output (agent.promptConversation prompt overrides) overrides

def runConversationAs (output : OutputType T) (conversation : Conversation)
    (overrides : RunOverrides) : Effect σ (AgentResult T) :=
  executeStructured agent chat output (agent.applySystemPrompt conversation overrides) overrides

end

end Throwing

end Forgeant
