import Forgeant.Provider.Http

namespace Forgeant

structure AnthropicProvider (σ : Type) where
  client : HttpClient σ
  config : ProviderConfig
  located : config.baseUrl ≠ []

namespace AnthropicProvider

def defaultBaseUrl : Str := str "https://api.anthropic.com"

def apiVersion : Str := str "2023-06-01"

/-- The constructor. -/
def make {σ : Type} (client : HttpClient σ) (config : ProviderConfig) : AnthropicProvider σ where
  client := client
  config := config.orBaseUrl defaultBaseUrl
  located := config.orBaseUrl_ne_nil (by decide)

def serializeTool (tool : ToolView) : Json :=
  .objectOf [(str "name", .string tool.name), (str "description", .string tool.description),
    (str "input_schema", tool.parameters)]

/-- A tool message is sent as one of the user. -/
def wireRole (role : Role) : Json :=
  if role = .tool then .string (str "user") else role.toJson

/-- The body of the loop of `serialize_request` over the messages. -/
def serializeMessage (msg : Message) : Json :=
  .object (Assoc.set (str "content") (.array (msg.content.map ContentBlock.toJson))
    (Assoc.set (str "role") (wireRole msg.role) []))

def outputConfig (schema : Json) : Json :=
  .object (Assoc.set (str "format")
    (.object (Assoc.set (str "schema") schema
      (Assoc.set (str "type") (.string (str "json_schema")) []))) [])

variable {σ : Type}

def serializeRequest (provider : AnthropicProvider σ) (conversation : Conversation)
    (request : ChatRequest) : Except StdException Json := do
  let schema ← request.outputSchema.mapM closedSchema
  let body := Assoc.set (str "model") (.string provider.config.model) []
  let body := Assoc.set (str "max_tokens")
    (.integer (provider.config.maxTokens.getD 1024).toInt64) body
  let body := Assoc.setSome (str "system") (conversation.systemPrompt.map .string) body
  let body := Assoc.setSome (str "temperature") (provider.config.temperature.map .number) body
  let body := Assoc.set (str "messages")
    (.array (conversation.messages.map serializeMessage)) body
  let body :=
    if !request.tools.isEmpty then
      Assoc.set (str "tools") (.array (request.tools.map serializeTool)) body
    else body
  return .object (Assoc.setSome (str "output_config") (schema.map outputConfig) body)

theorem serializeRequest_messages {provider : AnthropicProvider σ} {c : Conversation}
    {request : ChatRequest} {body : Json} (h : provider.serializeRequest c request = .ok body) :
    body.index (str "messages") = .ok (.array (c.messages.map serializeMessage)) := by
  unfold serializeRequest at h
  cases hs : request.outputSchema.mapM closedSchema with
  | error e => simp [hs] at h
  | ok schema =>
    simp only [hs] at h
    cases h
    exact index_messages (by decide) (by decide) _ _ _ _ _

/-- The block of a response that one of the two known types stands for. -/
def deserializeBlock (block : Json) : Except StdException (Option ContentBlock) := do
  let type ← block.value Json.getString (str "type") []
  if type = str "text" then
    let text ← block.value Json.getString (str "text") []
    return some (.text ⟨text⟩)
  else if type = str "tool_use" then
    let id ← block.value Json.getString (str "id") []
    let name ← block.value Json.getString (str "name") []
    let input ← block.value .ok (str "input") (.object [])
    return some (.toolUse { id, name, input })
  else return none

section

variable {block : Json}

theorem deserializeBlock_text (h : block.value Json.getString (str "type") [] = .ok (str "text")) :
    deserializeBlock block = do
      let text ← block.value Json.getString (str "text") []
      return some (.text ⟨text⟩) := by
  unfold deserializeBlock
  rw [h]
  rfl

theorem deserializeBlock_toolUse
    (h : block.value Json.getString (str "type") [] = .ok (str "tool_use")) :
    deserializeBlock block = do
      let id ← block.value Json.getString (str "id") []
      let name ← block.value Json.getString (str "name") []
      let input ← block.value .ok (str "input") (.object [])
      return some (.toolUse { id, name, input }) := by
  unfold deserializeBlock
  rw [h]
  rfl

theorem deserializeBlock_other {type : Str}
    (h : block.value Json.getString (str "type") [] = .ok type) (htext : type ≠ str "text")
    (huse : type ≠ str "tool_use") : deserializeBlock block = .ok none := by
  unfold deserializeBlock
  rw [h]
  change (if type = str "text" then _ else if type = str "tool_use" then _ else _) = _
  rw [if_neg htext, if_neg huse]
  rfl

end

def deserializeContent (json : Json) : Except StdException (List ContentBlock) :=
  if json.contains (str "content") then do
    let content ← json.index (str "content")
    let blocks ← (← content.elements).mapM deserializeBlock
    return blocks.filterMap id
  else return []

theorem deserializeContent_of_index {json : Json} {blocks : List Json}
    (h : json.index (str "content") = .ok (.array blocks)) :
    deserializeContent json =
      (blocks.mapM deserializeBlock).map (fun parsed => parsed.filterMap id) := by
  unfold deserializeContent
  rw [if_pos (Json.contains_of_index h), h]
  change (do let parsed ← blocks.mapM deserializeBlock; return parsed.filterMap id) = _
  cases blocks.mapM deserializeBlock <;> rfl

theorem deserializeContent_ok {json : Json} {content : List ContentBlock} :
    deserializeContent json = .ok content ↔
      (json.contains (str "content") = false ∧ content = []) ∨
      ∃ blocks parsed, json.index (str "content") = .ok (.array blocks) ∧
        blocks.mapM deserializeBlock = .ok parsed ∧ content = parsed.filterMap id := by
  constructor
  · intro h
    cases hc : json.contains (str "content") with
    | false =>
      unfold deserializeContent at h
      rw [hc] at h
      cases h
      exact .inl ⟨rfl, rfl⟩
    | true =>
      unfold deserializeContent at h
      rw [if_pos hc] at h
      obtain ⟨v, hv, h⟩ := Except.bind_ok.mp h
      obtain ⟨blocks, hblocks, h⟩ := Except.bind_ok.mp h
      obtain ⟨parsed, hparsed, heq⟩ := Except.bind_ok.mp h
      cases heq
      rw [Json.elements_ok.mp hblocks] at hv
      exact .inr ⟨blocks, parsed, hv, hparsed, rfl⟩
  · intro h
    rcases h with ⟨hc, rfl⟩ | ⟨blocks, parsed, hblocks, hparsed, rfl⟩
    · unfold deserializeContent
      rw [hc]
      rfl
    · rw [deserializeContent_of_index hblocks, hparsed]
      rfl

/-- A block is read as a text or a tool use, if it is read as anything. -/
theorem deserializeBlock_cases {block : Json} {o : Option ContentBlock}
    (h : deserializeBlock block = .ok o) :
    o = none ∨ (∃ b, o = some (.text b)) ∨ ∃ b, o = some (.toolUse b) := by
  obtain ⟨type, _, h⟩ := Except.bind_ok.mp h
  split at h
  · obtain ⟨text, _, h⟩ := Except.bind_ok.mp h
    cases h
    exact .inr (.inl ⟨_, rfl⟩)
  · split at h
    · obtain ⟨id, _, h⟩ := Except.bind_ok.mp h
      obtain ⟨name, _, h⟩ := Except.bind_ok.mp h
      obtain ⟨input, _, h⟩ := Except.bind_ok.mp h
      cases h
      exact .inr (.inr ⟨_, rfl⟩)
    · cases h
      exact .inl rfl

def deserializeResponse (json : Json) : Except StdException LlmResponse := do
  let model ← json.value Json.getString (str "model") []
  let finishReason ← json.value Json.getString (str "stop_reason") []
  let usage ← deserializeUsage (str "input_tokens") (str "output_tokens") json
  let content ← deserializeContent json
  return { message := ⟨.assistant, content⟩, finishReason, usage, model }

/-- What an accepted response is made of. -/
structure Accepted (json : Json) (response : LlmResponse) : Prop where
  model : json.value Json.getString (str "model") [] = .ok response.model
  finishReason : json.value Json.getString (str "stop_reason") [] = .ok response.finishReason
  usage : deserializeUsage (str "input_tokens") (str "output_tokens") json = .ok response.usage
  content : deserializeContent json = .ok response.message.content
  role : response.message.role = .assistant

theorem deserializeResponse_ok {json : Json} {response : LlmResponse} :
    deserializeResponse json = .ok response ↔ Accepted json response := by
  unfold deserializeResponse
  simp only [Except.bind_ok, Except.pure_ok]
  constructor
  · intro ⟨_, hmodel, _, hfinish, _, husage, content, hcontent, heq⟩
    subst heq
    exact ⟨hmodel, hfinish, husage, hcontent, rfl⟩
  · intro h
    refine ⟨_, h.model, _, h.finishReason, _, h.usage, _, h.content, ?_⟩
    rw [← h.role]

/-- What is decoded is an assistant message. -/
theorem deserializeResponse_role {json : Json} {response : LlmResponse}
    (h : deserializeResponse json = .ok response) : response.message.role = .assistant :=
  (deserializeResponse_ok.mp h).role

def endpointUrl (provider : AnthropicProvider σ) : Str :=
  provider.config.baseUrl ++ str "/v1/messages"

def authHeaders (provider : AnthropicProvider σ) : HttpHeaders :=
  [(str "x-api-key", provider.config.apiKey), (str "anthropic-version", apiVersion),
    (str "content-type", str "application/json")]

def chat [Platform] (provider : AnthropicProvider σ) : LlmProvider σ where
  chat conversation request :=
    provider.client.chat (str "Anthropic") provider.endpointUrl provider.authHeaders
      (provider.serializeRequest conversation request) deserializeResponse

theorem chat_repliesAsAssistant [Platform] (provider : AnthropicProvider σ) :
    provider.chat.RepliesAsAssistant := by
  intro c request w response v h
  obtain ⟨json, hjson⟩ := HttpClient.chat_decoded h
  exact deserializeResponse_role hjson

end AnthropicProvider

end Forgeant
