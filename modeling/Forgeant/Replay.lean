import Forgeant.Agent
import Forgeant.Provider.Http

namespace Forgeant

/-- A top-level call of an agent. -/
inductive Call : Type → Type 1
  | run (prompt : Str) (overrides : RunOverrides) : Call Str
  | runConversation (conversation : Conversation) (overrides : RunOverrides) : Call Str
  | runAs {T : Type} (output : OutputType T) (prompt : Str) (overrides : RunOverrides) : Call T
  | runConversationAs {T : Type} (output : OutputType T) (conversation : Conversation)
      (overrides : RunOverrides) : Call T

/-- The output schema that the chat calls of a call carry. -/
def Call.outputSchema {T : Type} : Call T → Option Json
  | .run _ _ | .runConversation _ _ => none
  | .runAs output _ _ | .runConversationAs output _ _ => some output.schema

def Agent.call {σ T : Type} [Platform] (agent : Agent σ) :
    Call T → Session σ → Except AgentRunError (AgentResult T) × Session σ
  | .run prompt overrides => agent.run prompt overrides
  | .runConversation conversation overrides => agent.runConversation conversation overrides
  | .runAs output prompt overrides => agent.runAs output prompt overrides
  | .runConversationAs output conversation overrides =>
    agent.runConversationAs output conversation overrides

/-- The conversation that a call starts from. -/
def Agent.start {σ T : Type} (agent : Agent σ) : Call T → Conversation
  | .run prompt overrides | .runAs _ prompt overrides => agent.promptConversation prompt overrides
  | .runConversation conversation overrides | .runConversationAs _ conversation overrides =>
    agent.applySystemPrompt conversation overrides

/-- The output type of the call rejects the text with this error. -/
def Call.Rejects {T : Type} [Platform] (text : Str) (e : StdException) : Call T → Prop
  | .run _ _ | .runConversation _ _ => False
  | .runAs output _ _ | .runConversationAs output _ _ => output.decode text = .error e

/-- Two agents that differ in where they get their answers from. -/
structure Twins {σ σ' : Type} (agent : Agent σ) (agent' : Agent σ') : Prop where
  options : agent.options = agent'.options
  tools : agent.registry.tools = agent'.registry.tools

/-- Two computations of such agents: the second does what the first did, in any
world that gives the answers the first got. -/
def Replayable {σ σ' α : Type} (agent : Agent σ) (agent' : Agent σ')
    (f : Session σ → α × Session σ) (f' : Session σ' → α × Session σ') : Prop :=
  ∀ s, ∃ es, Extends agent.provider agent.registry s es (f s).2 ∧
    ∀ s' v, Replays agent'.provider agent'.registry s'.world es v →
      f' s' = ((f s).1, ⟨v, s'.trace ++ es⟩)

/-- The same client in a world with a part for the tools. -/
def HttpClient.beside {ν : Type} (client : HttpClient ν) (τ : Type) : HttpClient (ν × τ) where
  post url headers body w :=
    let (outcome, n) := client.post url headers body w.1
    (outcome, (n, w.2))

def Tool.beside {τ : Type} (tool : Tool τ) (ν : Type) : Tool (ν × τ) where
  name := tool.name
  description := tool.description
  parameters := tool.parameters
  execute args w :=
    let (outcome, t) := tool.execute args w.2
    (outcome, (w.1, t))

/-- The registry with every tool put into another world. -/
def ToolRegistry.mapTools {σ σ' : Type} (registry : ToolRegistry σ) (f : Tool σ → Tool σ') :
    ToolRegistry σ' where
  tools_ := registry.tools_.map (fun p => (p.1, f p.2))
  unique := by
    rw [List.map_map]
    exact registry.unique

def ToolRegistry.beside {τ : Type} (registry : ToolRegistry τ) (ν : Type) :
    ToolRegistry (ν × τ) :=
  registry.mapTools (fun tool => tool.beside ν)

structure Exchange where
  url : Str
  headers : HttpHeaders
  body : Str
  outcome : Except StdException HttpResponse

/-- The client, with a log of its exchanges. -/
def HttpClient.recording {ν : Type} (client : HttpClient ν) : HttpClient (ν × List Exchange) where
  post url headers body w :=
    let (outcome, n) := client.post url headers body w.1
    (outcome, (n, w.2 ++ [{ url, headers, body, outcome }]))

/-- A client that answers from a log. -/
def HttpClient.playback : HttpClient (List Exchange) where
  post _ _ _ log :=
    match log with
    | [] => (.error (.runtimeError (str "no more responses")), [])
    | exchange :: log => (exchange.outcome, log)

/-- What a built-in provider settles once its configuration is given. -/
structure Wire where
  api : Str
  url : Str
  headers : HttpHeaders
  body : Conversation → ChatRequest → Except StdException Json
  decode : Json → Except StdException LlmResponse

/-- The provider on a client. -/
def Wire.over {ν : Type} [Platform] (wire : Wire) (client : HttpClient ν) : LlmProvider ν where
  chat c request :=
    client.chat wire.api wire.url wire.headers (wire.body c request) wire.decode

/-- The agent on a client, with tools that leave the network alone. -/
def Wire.agent {ν τ : Type} [Platform] (wire : Wire) (client : HttpClient ν)
    (registry : ToolRegistry τ) (options : AgentOptions) : Agent (ν × τ) where
  provider := wire.over (client.beside τ)
  registry := registry.beside ν
  options := options

/-- What follows a chat call's answer. -/
def Wire.read [Platform] (wire : Wire) (outcome : Except StdException HttpResponse) :
    Except StdException LlmResponse :=
  match outcome with
  | .error e => .error e
  | .ok response =>
    if response.statusCode < 200 ∨ 300 ≤ response.statusCode then
      .error (.runtimeError (apiErrorMessage wire.api response))
    else Json.parse response.body >>= wire.decode

/-- The request that a chat call posts, if there is one. -/
def Wire.request [Platform] (wire : Wire) : Event → Option (Str × HttpHeaders × Str)
  | .chat c request _ =>
    match wire.body c request with
    | .ok body => some (wire.url, wire.headers, body.dump)
    | .error _ => none
  | .execute _ _ _ => none

def Exchange.request (exchange : Exchange) : Str × HttpHeaders × Str :=
  (exchange.url, exchange.headers, exchange.body)

end Forgeant
