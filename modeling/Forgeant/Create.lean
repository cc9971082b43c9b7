import Forgeant.CurlHttpClient
import Forgeant.Provider.Anthropic
import Forgeant.Provider.OpenAi
import Forgeant.Replay

namespace Forgeant

/-- `AgentOptions` with the fields for the provider. -/
structure CreateOptions extends AgentOptions where
  apiKey : Str := []
  model : Str := []
  baseUrl : Str := []
  maxTokens : Option Int32 := none
  temperature : Option Double := none

def CreateOptions.providerConfig (options : CreateOptions) : ProviderConfig where
  apiKey := options.apiKey
  model := options.model
  baseUrl := options.baseUrl
  maxTokens := options.maxTokens
  temperature := options.temperature

/-- What ends a run in the model where the source has no behaviour. -/
def undefinedError : StdException := .other (str "undefined behaviour")

/-- A tool that works on the program's own state. -/
def Tool.inProgram {τ : Type} (tool : Tool τ) (ν : Type) : Tool (Option (CurlWorld ν τ)) where
  name := tool.name
  description := tool.description
  parameters := tool.parameters
  execute args w :=
    match w with
    | none => (.error undefinedError, none)
    | some w =>
      let (outcome, user) := tool.execute args w.user
      (outcome, some { w with user := user })

/-- The client as the providers see it. Once something undefined has happened,
nothing is known of the world. -/
def CurlHttpClient.httpClient {ν τ : Type} (curl : Curl ν) (client : CurlHttpClient) :
    HttpClient (Option (CurlWorld ν τ)) where
  post url headers body w :=
    match w.map (client.post curl url headers body).run with
    | some (.ok response, v) => (.ok response.toHttpResponse, some v)
    | some (.error (.std e), v) => (.error e, some v)
    | _ => (.error undefinedError, none)

variable {ν τ : Type} [Platform]

/-- The provider of that name. -/
def Agent.createProvider {σ : Type} (client : HttpClient σ) (name : Str) (config : ProviderConfig) :
    Except StdException (LlmProvider σ) :=
  if name = str "anthropic" then .ok (AnthropicProvider.make client config).chat
  else if name = str "openai" then .ok (OpenAiProvider.make client config).chat
  else if name = str "ollama" then
    .ok (OpenAiProvider.make client (config.orBaseUrl (str "http://localhost:11434"))).chat
  else .error (.invalidArgument (str "unknown provider: " ++ name))

/-- `Agent::create`: the agent with the client it owns. -/
def Agent.create (curl : Curl ν) (name : Str) (options : CreateOptions) :
    CurlEffect ν τ (CurlHttpClient × Agent (Option (CurlWorld ν τ))) := do
  let http ← CurlHttpClient.construct curl {}
  match createProvider (http.httpClient curl) name options.providerConfig with
  | .ok provider => return (http, { provider := provider, options := options.toAgentOptions })
  | .error e =>
    http.release
    .throw (.std e)

/-- A call of some result type, and what came of it. -/
structure AnyCall where
  {T : Type}
  call : Call T

structure Report where
  {T : Type}
  outcome : Except AgentRunError (AgentResult T)
  trace : List Event

/-- Calls one after the other. -/
def Agent.calls {σ : Type} (agent : Agent σ) : List AnyCall → σ → List Report × σ
  | [], w => ([], w)
  | c :: cs, w =>
    let (outcome, session) := agent.call c.call ⟨w, []⟩
    let (reports, v) := agent.calls cs session.world
    (⟨outcome, session.trace⟩ :: reports, v)

theorem Agent.calls_cons {σ : Type} (agent : Agent σ) (c : AnyCall) (cs : List AnyCall) (w : σ) :
    agent.calls (c :: cs) w =
      (⟨(agent.call c.call ⟨w, []⟩).1, (agent.call c.call ⟨w, []⟩).2.trace⟩ ::
          (agent.calls cs (agent.call c.call ⟨w, []⟩).2.world).1,
        (agent.calls cs (agent.call c.call ⟨w, []⟩).2.world).2) := rfl

/-- An agent from its creation to its destruction. -/
def Agent.lifetime (curl : Curl ν) (name : Str) (options : CreateOptions) (tools : List (Tool τ))
    (cs : List AnyCall) (w : CurlWorld ν τ) : Except Fault (List Report) × CurlWorld ν τ :=
  match (Agent.create curl name options).run w with
  | (.error fault, v) => (.error fault, v)
  | (.ok (http, agent), v) =>
    match ((tools.map (fun tool => tool.inProgram ν)).foldl Agent.addTool agent).calls cs
      (some v) with
    | (_, none) => (.error .undefined, v)
    | (reports, some u) =>
      match http.release.run u with
      | (.ok _, u) => (.ok reports, u)
      | (.error fault, u) => (.error fault, u)

def AnthropicProvider.wire {σ : Type} (provider : AnthropicProvider σ) : Wire where
  api := str "Anthropic"
  url := provider.endpointUrl
  headers := provider.authHeaders
  body := provider.serializeRequest
  decode := deserializeResponse

def OpenAiProvider.wire {σ : Type} (provider : OpenAiProvider σ) : Wire where
  api := str "OpenAI"
  url := provider.endpointUrl
  headers := provider.authHeaders
  body := provider.serializeRequest
  decode := deserializeResponse

/-- What the provider of that name settles, whatever its client. -/
def Wire.named (name : Str) (config : ProviderConfig) : Except StdException Wire :=
  if name = str "anthropic" then .ok (AnthropicProvider.make .playback config).wire
  else if name = str "openai" then .ok (OpenAiProvider.make .playback config).wire
  else if name = str "ollama" then
    .ok (OpenAiProvider.make .playback (config.orBaseUrl (str "http://localhost:11434"))).wire
  else .error (.invalidArgument (str "unknown provider: " ++ name))

/-- The network as a client: a post is a transfer. -/
def Curl.network (curl : Curl ν) (script : EasyRequest → ν → Script ν) : HttpClient ν where
  post url headers body n :=
    let transfer := script (CurlHttpClient.sent {} url headers body) n
    if transfer.code = CURLE_OK then
      (.ok (CurlHttpClient.received transfer).toHttpResponse, transfer.network)
    else
      (.error (.runtimeError (str "HTTP request failed: " ++ curl.strerror transfer.code)),
        transfer.network)

/-- The agent's calls on the network. -/
def Wire.calls (wire : Wire) (client : HttpClient ν) (tools : List (Tool τ))
    (options : AgentOptions) (cs : List AnyCall) (w : ν × τ) : List Report × (ν × τ) :=
  (wire.agent client (tools.foldl ToolRegistry.add {}) options).calls cs w

/-- What the lifetime of an agent amounts to. -/
def Agent.lifetimeOn (curl : Curl ν) (script : EasyRequest → ν → Script ν) (name : Str)
    (options : CreateOptions) (tools : List (Tool τ)) (cs : List AnyCall) (n : ν) (t : τ) :
    Except StdException (List Report) × (ν × τ) :=
  match curl.easyInit n with
  | (false, n) => (.error (.runtimeError (str "failed to initialize curl handle")), (n, t))
  | (true, n) =>
    match Wire.named name options.providerConfig with
    | .error e => (.error e, (n, t))
    | .ok wire =>
      let (reports, w) :=
        wire.calls (curl.network script) tools options.toAgentOptions cs (n, t)
      (.ok reports, w)

namespace CreateOptions

variable (options : CreateOptions) (name : Str)

/-- An empty base URL stands for the provider's own. -/
def locatedAt : Str :=
  if options.baseUrl ≠ [] then options.baseUrl
  else if name = str "anthropic" then str "https://api.anthropic.com"
  else if name = str "ollama" then str "http://localhost:11434"
  else str "https://api.openai.com"

def endpointUrl : Str :=
  options.locatedAt name ++
    (if name = str "anthropic" then str "/v1/messages" else str "/v1/chat/completions")

def authHeaders : HttpHeaders :=
  if name = str "anthropic" then
    [(str "x-api-key", options.apiKey), (str "anthropic-version", str "2023-06-01"),
      (str "content-type", str "application/json")]
  else
    [(str "Authorization", str "Bearer " ++ options.apiKey),
      (str "content-type", str "application/json")]

/-- Only Anthropic is always told a limit. -/
def tokenLimit : Option Int32 :=
  if name = str "anthropic" then some (options.maxTokens.getD 1024) else options.maxTokens

/-- A request that says what the options say. -/
structure Settle (request : Str × HttpHeaders × Str) : Prop where
  url : request.1 = options.endpointUrl name
  headers : request.2.1 = options.authHeaders name
  body : ∃ members, request.2.2 = (Json.object members).dump ∧
    Assoc.find? (str "model") members = some (.string options.model) ∧
    Assoc.find? (str "max_tokens") members =
      (options.tokenLimit name).map (fun n => .integer n.toInt64) ∧
    Assoc.find? (str "temperature") members = options.temperature.map .number

end CreateOptions

/-- The requests of these reports fit into a string. -/
def Wire.Sendable (wire : Wire) (reports : List Report) : Prop :=
  ∀ report ∈ reports, ∀ event ∈ report.trace, ∀ request, wire.request event = some request →
    request.2.2.length < 2 ^ 63

end Forgeant
