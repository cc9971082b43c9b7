import Forgeant.Library.Loop
import Forgeant.Session

namespace Forgeant

/-- Of `AgentOptions`, the fields an agent keeps for its runs. -/
structure AgentOptions where
  systemPrompt : Str := []
  maxIterations : Int := 10

structure RunOverrides where
  systemPrompt : Option Str := none
  maxIterations : Option Int := none

structure StructuredConfig where
  maxRetries : Int := 2

structure AgentResult (T : Type) where
  output : T
  conversation : Conversation
  totalUsage : Usage
  iterations : Int
  finishReason : Str

inductive AgentRunError.Kind where
  | providerError
  | maxIterations
  | structuredParse
  deriving DecidableEq

structure AgentRunError where
  kind : AgentRunError.Kind
  message : Str
  conversation : Conversation
  usage : Usage
  iterations : Int
  finishReason : Str

structure LoopResult where
  conversation : Conversation
  totalUsage : Usage
  iterations : Int
  finishReason : Str

structure Agent (σ : Type) where
  provider : LlmProvider σ
  registry : ToolRegistry σ := {}
  options : AgentOptions := {}

def Agent.addTool {σ : Type} (agent : Agent σ) (tool : Tool σ) : Agent σ :=
  { agent with registry := agent.registry.add tool }

/-- A type `T` of structured outputs: `ParamSchema<T>::schema()` and
`Json::get<T>()`. -/
structure OutputType (T : Type) where
  schema : Json
  get : Json → Except StdException T

variable {σ : Type} [Platform]

/-- The block that `dispatch_tools` appends for one call, after
`registry.execute` returned or threw. -/
def toolResult (call : ToolUseBlock) : Except StdException Json → ToolResultBlock
  | .ok output => { toolUseId := call.id, content := output.dump }
  | .error e => { toolUseId := call.id, content := e.what, isError := true }

/-- One pass of the loop of `dispatch_tools`. -/
def dispatchBlock (registry : ToolRegistry σ) (acc : List ContentBlock × Session σ)
    (block : ContentBlock) : List ContentBlock × Session σ :=
  match block with
  | .toolUse call =>
    let (outcome, session) := acc.2.execute registry call.name call.input
    (acc.1 ++ [.toolResult (toolResult call outcome)], session)
  | _ => acc

def dispatchTools (registry : ToolRegistry σ) (message : Message) (session : Session σ) :
    List ContentBlock × Session σ :=
  message.content.foldl (dispatchBlock registry) ([], session)

def hasToolUse (message : Message) : Bool :=
  message.content.any (fun block => match block with | .toolUse _ => true | _ => false)

/-- `extract_last_text`: of the assistant messages from the last to the first,
the first text block of the first that has one. -/
def extractLastText (conv : Conversation) : Str :=
  ((conv.messages.reverse.findSome? (fun msg =>
    if msg.role ≠ .assistant then none
    else msg.content.findSome? ContentBlock.text?))).getD []

/-- The locals of `execute_loop` that one iteration hands to the next. -/
structure LoopState (σ : Type) where
  working : Conversation
  accumulated : Usage
  session : Session σ

namespace Agent

variable (agent : Agent σ)

def applySystemPrompt (working : Conversation) (overrides : RunOverrides) : Conversation :=
  if working.systemPrompt.isSome then working
  else match overrides.systemPrompt with
    | some prompt => working.setSystemPrompt prompt
    | none =>
      if agent.options.systemPrompt ≠ [] then working.setSystemPrompt agent.options.systemPrompt
      else working

omit [Platform] in
@[simp] theorem applySystemPrompt_messages (c : Conversation) (overrides : RunOverrides) :
    (agent.applySystemPrompt c overrides).messages = c.messages := by
  unfold applySystemPrompt
  split
  · rfl
  · split
    · rfl
    · split <;> rfl

/-- The request of every chat call of an `execute_loop`. -/
def request (outputSchema : Option Json) : ChatRequest :=
  { tools := agent.registry.tools, outputSchema := outputSchema }

/-- The body of the loop of `execute_loop`. -/
def iterate (outputSchema : Option Json) (iteration : Nat) (s : LoopState σ) :
    Loop.Step (LoopState σ) (Except AgentRunError LoopResult × Session σ) :=
  match s.session.chat agent.provider s.working (agent.request outputSchema) with
  | (.error e, session) =>
    .leave (.error
      { kind := .providerError, message := e.what, conversation := s.working,
        usage := s.accumulated, iterations := iteration + 1, finishReason := str "error" },
      session)
  | (.ok response, session) =>
    let accumulated := s.accumulated + response.usage
    let working := s.working.add response.message
    if !hasToolUse response.message then
      .leave (.ok
        { conversation := working, totalUsage := accumulated, iterations := iteration + 1,
          finishReason := response.finishReason }, session)
    else
      let (toolResults, session) := dispatchTools agent.registry response.message session
      .again ⟨working.add ⟨.tool, toolResults⟩, accumulated, session⟩

def maxIterations (overrides : RunOverrides) : Int :=
  overrides.maxIterations.getD agent.options.maxIterations

def executeLoop (working : Conversation) (overrides : RunOverrides) (outputSchema : Option Json)
    (session : Session σ) : Except AgentRunError LoopResult × Session σ :=
  let maxIterations := agent.maxIterations overrides
  Loop.run (agent.iterate outputSchema)
    (fun s => (.error
      { kind := .maxIterations,
        message := str "max_iterations reached without a terminal response",
        conversation := s.working, usage := s.accumulated, iterations := maxIterations,
        finishReason := str "max_iterations" }, s.session))
    maxIterations.toNat 0 ⟨working, 0, session⟩

end Agent

/-- The user turn added after a text that did not parse or decode. -/
def correctiveMessage (lastError : Str) : Message :=
  .ofText .user (str "Your response did not match the required schema: " ++ lastError ++
    str ". Please respond with valid JSON matching the schema.")

/-- The error thrown once every attempt has failed. -/
def structuredParseMessage (cfg : StructuredConfig) (lastError : Str) : Str :=
  str "structured output failed after " ++ Str.ofInt (cfg.maxRetries + 1) ++ str " attempts: " ++
    lastError

/-- `json.get<T>()` on the parsed text, inside one `try`. -/
def OutputType.decode {T : Type} (output : OutputType T) (text : Str) : Except StdException T :=
  Json.parse text >>= output.get

/-- The locals of the retry loops that one attempt hands to the next. -/
structure RetryState (σ : Type) where
  working : Conversation
  accumulated : Usage := 0
  totalIterations : Int := 0
  lastFinishReason : Str := []
  lastError : Str := []
  session : Session σ

namespace Agent

variable (agent : Agent σ) {T : Type}

/-- `execute<std::string>`. -/
def executeText (working : Conversation) (overrides : RunOverrides) (session : Session σ) :
    Except AgentRunError (AgentResult Str) × Session σ :=
  match agent.executeLoop working overrides none session with
  | (.error e, session) => (.error e, session)
  | (.ok loop, session) =>
    (.ok
      { output := extractLastText loop.conversation, conversation := loop.conversation,
        totalUsage := loop.totalUsage, iterations := loop.iterations,
        finishReason := loop.finishReason }, session)

/-- The body of the retry loop of `execute<T>`. The inner loop's error is not
caught, so it leaves as it is. -/
def attempt (output : OutputType T) (overrides : RunOverrides) (cfg : StructuredConfig)
    (attempt : Nat) (s : RetryState σ) :
    Loop.Step (RetryState σ) (Except AgentRunError (AgentResult T) × Session σ) :=
  match agent.executeLoop s.working overrides (some output.schema) s.session with
  | (.error e, session) => .leave (.error e, session)
  | (.ok loop, session) =>
    let accumulated := s.accumulated + loop.totalUsage
    let totalIterations := s.totalIterations + loop.iterations
    match output.decode (extractLastText loop.conversation) with
    | .ok value =>
      .leave (.ok
        { output := value, conversation := loop.conversation, totalUsage := accumulated,
          iterations := totalIterations, finishReason := loop.finishReason }, session)
    | .error e =>
      .again
        { working :=
            if attempt < cfg.maxRetries then loop.conversation.add (correctiveMessage e.what)
            else loop.conversation
          accumulated := accumulated, totalIterations := totalIterations,
          lastFinishReason := loop.finishReason, lastError := e.what, session := session }

def retryLoop (output : OutputType T) (cfg : StructuredConfig) (working : Conversation)
    (overrides : RunOverrides) (session : Session σ) :
    Except AgentRunError (AgentResult T) × Session σ :=
  Loop.run (agent.attempt output overrides cfg)
    (fun s => (.error
      { kind := .structuredParse, message := structuredParseMessage cfg s.lastError,
        conversation := s.working, usage := s.accumulated, iterations := s.totalIterations,
        finishReason := s.lastFinishReason }, s.session))
    (cfg.maxRetries + 1).toNat 0 { working := working, session := session }

/-- `execute<T>` for any other `T`. -/
def executeStructured (output : OutputType T) (working : Conversation) (overrides : RunOverrides)
    (session : Session σ) : Except AgentRunError (AgentResult T) × Session σ :=
  agent.retryLoop output {} working overrides session

/-- The conversation that `run(prompt)` starts from. -/
def promptConversation (prompt : Str) (overrides : RunOverrides) : Conversation :=
  (agent.applySystemPrompt {} overrides).add (.ofText .user prompt)

/-- `run<std::string>(prompt, overrides)`. -/
def run (prompt : Str) (overrides : RunOverrides) (session : Session σ) :
    Except AgentRunError (AgentResult Str) × Session σ :=
  agent.executeText (agent.promptConversation prompt overrides) overrides session

/-- `run<std::string>(conversation, overrides)`. -/
def runConversation (conversation : Conversation) (overrides : RunOverrides)
    (session : Session σ) : Except AgentRunError (AgentResult Str) × Session σ :=
  agent.executeText (agent.applySystemPrompt conversation overrides) overrides session

/-- `run<T>(prompt, overrides)`. -/
def runAs (output : OutputType T) (prompt : Str) (overrides : RunOverrides)
    (session : Session σ) : Except AgentRunError (AgentResult T) × Session σ :=
  agent.executeStructured output (agent.promptConversation prompt overrides) overrides session

/-- `run<T>(conversation, overrides)`. -/
def runConversationAs (output : OutputType T) (conversation : Conversation)
    (overrides : RunOverrides) (session : Session σ) :
    Except AgentRunError (AgentResult T) × Session σ :=
  agent.executeStructured output (agent.applySystemPrompt conversation overrides) overrides session

end Agent

end Forgeant
