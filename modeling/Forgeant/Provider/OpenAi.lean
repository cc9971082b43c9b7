import Forgeant.Provider.Http

namespace Forgeant

structure OpenAiProvider (σ : Type) where
  client : HttpClient σ
  config : ProviderConfig
  located : config.baseUrl ≠ []

namespace OpenAiProvider

def defaultBaseUrl : Str := str "https://api.openai.com"

/-- The constructor. -/
def make {σ : Type} (client : HttpClient σ) (config : ProviderConfig) : OpenAiProvider σ where
  client := client
  config := config.orBaseUrl defaultBaseUrl
  located := config.orBaseUrl_ne_nil (by decide)

def serializeTool (tool : ToolView) : Json :=
  .objectOf [(str "type", .string (str "function")),
    (str "function", .objectOf [(str "name", .string tool.name),
      (str "description", .string tool.description), (str "parameters", tool.parameters)])]

def toolResultMessage (result : ToolResultBlock) : Json :=
  .object (Assoc.set (str "content") (.string result.content)
    (Assoc.set (str "tool_call_id") (.string result.toolUseId)
      (Assoc.set (str "role") (.string (str "tool")) [])))

/-- What is pushed to the messages for a tool message. -/
def serializeToolResultMessages (msg : Message) : List Json :=
  msg.toolResults.map toolResultMessage

variable {σ : Type} [Platform]

def toolCall (tool : ToolUseBlock) : Json :=
  .objectOf [(str "id", .string tool.id), (str "type", .string (str "function")),
    (str "function", .objectOf [(str "name", .string tool.name),
      (str "arguments", .string tool.input.dump)])]

/-- One pass of the loop of `serialize_message`, over `text_content` and
`tool_calls`. -/
def serializeBlock (acc : Str × List Json) : ContentBlock → Str × List Json
  | .text block => (block.text, acc.2)
  | .toolUse tool => (acc.1, acc.2 ++ [toolCall tool])
  | .toolResult _ => acc

def serializeMessage (msg : Message) : Json :=
  let (textContent, toolCalls) := msg.content.foldl serializeBlock ([], [])
  let msgJson := Assoc.set (str "role") msg.role.toJson []
  if !toolCalls.isEmpty then
    .object (Assoc.set (str "content") (if textContent.isEmpty then .null else .string textContent)
      (Assoc.set (str "tool_calls") (.array toolCalls) msgJson))
  else .object (Assoc.set (str "content") (.string textContent) msgJson)

/-- The text that the loop of `serialize_message` ends with. -/
def lastText (m : Message) : Str := m.texts.getLast?.getD []

theorem foldl_serializeBlock (blocks : List ContentBlock) (text : Str) (calls : List Json) :
    blocks.foldl serializeBlock (text, calls) =
      ((blocks.filterMap ContentBlock.text?).getLast?.getD text,
        calls ++ (blocks.filterMap ContentBlock.toolUse?).map toolCall) := by
  induction blocks generalizing text calls with
  | nil => simp
  | cons block blocks ih =>
    cases block with
    | text b =>
      simp [serializeBlock, ih, List.filterMap_cons, ContentBlock.text?, ContentBlock.toolUse?,
        List.getLast?_cons]
    | toolUse u =>
      simp [serializeBlock, ih, List.filterMap_cons, ContentBlock.text?, ContentBlock.toolUse?]
    | toolResult r =>
      simp [serializeBlock, ih, List.filterMap_cons, ContentBlock.text?, ContentBlock.toolUse?]

theorem serializeMessage_fields (m : Message) :
    (serializeMessage m).index (str "role") = .ok m.role.toJson ∧
    (serializeMessage m).index (str "content") =
      .ok (if m.toolUses ≠ [] ∧ lastText m = [] then .null else .string (lastText m)) ∧
    (serializeMessage m).value Json.elements (str "tool_calls") [] =
      .ok (m.toolUses.map toolCall) := by
  have hfold := foldl_serializeBlock m.content [] []
  rw [List.nil_append, ← Message.texts, ← Message.toolUses, ← lastText] at hfold
  unfold serializeMessage
  rw [hfold]
  cases hu : m.toolUses with
  | nil => exact ⟨rfl, by simp; rfl, rfl⟩
  | cons u us =>
    cases ht : lastText m with
    | nil => exact ⟨rfl, by simp; rfl, rfl⟩
    | cons b bs => exact ⟨rfl, by simp; rfl, rfl⟩

/-- What one message of the conversation adds to `messages`. -/
def wireMessages (msg : Message) : List Json :=
  if msg.role = .tool then serializeToolResultMessages msg else [serializeMessage msg]

def systemMessage (prompt : Str) : Json :=
  .objectOf [(str "role", .string (str "system")), (str "content", .string prompt)]

/-- The `messages` of a request. -/
def serializeMessages (conversation : Conversation) : List Json :=
  (conversation.systemPrompt.map systemMessage).toList ++
    conversation.messages.flatMap wireMessages

def responseFormat (schema : Json) : Json :=
  .object (Assoc.set (str "json_schema")
    (.object (Assoc.set (str "schema") schema
      (Assoc.ofList [(str "name", .string (str "response")), (str "strict", .boolean true)])))
    (Assoc.ofList [(str "type", .string (str "json_schema"))]))

def serializeRequest (provider : OpenAiProvider σ) (conversation : Conversation)
    (request : ChatRequest) : Except StdException Json := do
  let schema ← request.outputSchema.mapM closedSchema
  let body := Assoc.set (str "model") (.string provider.config.model) []
  let body := Assoc.setSome (str "max_tokens")
    (provider.config.maxTokens.map (fun n => .integer n.toInt64)) body
  let body := Assoc.setSome (str "temperature") (provider.config.temperature.map .number) body
  let body := Assoc.set (str "messages") (.array (serializeMessages conversation)) body
  let body :=
    if !request.tools.isEmpty then
      Assoc.set (str "tools") (.array (request.tools.map serializeTool)) body
    else body
  return .object (Assoc.setSome (str "response_format") (schema.map responseFormat) body)

theorem serializeRequest_messages {provider : OpenAiProvider σ} {c : Conversation}
    {request : ChatRequest} {body : Json} (h : provider.serializeRequest c request = .ok body) :
    body.index (str "messages") = .ok (.array (serializeMessages c)) := by
  unfold serializeRequest at h
  cases hs : request.outputSchema.mapM closedSchema with
  | error e => simp [hs] at h
  | ok schema =>
    simp only [hs] at h
    cases h
    exact index_messages (by decide) (by decide) _ _ _ _ _

def choicesError : StdException := .runtimeError (str "OpenAI response missing choices")

/-- `json["choices"][0]`, once there is one. -/
def firstChoice (json : Json) : Except StdException Json :=
  if json.contains (str "choices") then do
    let choices ← json.index (str "choices")
    if h : choices.empty then .error choicesError
    else choices.indexAt 0 (Json.length_pos_of_not_empty h)
  else .error choicesError

omit [Platform] in
theorem firstChoice_ok {json choice : Json} :
    firstChoice json = .ok choice ↔
      ∃ rest, json.index (str "choices") = .ok (.array (choice :: rest)) := by
  unfold firstChoice
  cases hc : json.contains (str "choices") with
  | false =>
    apply iff_of_false
    · simp
    · rintro ⟨rest, h⟩
      rw [Json.contains_of_index h] at hc
      cases hc
  | true =>
    rw [if_pos rfl, Except.bind_ok]
    constructor
    · rintro ⟨choices, hindex, h⟩
      cases choices with
      | array elems =>
        cases elems with
        | nil => cases h
        | cons e es =>
          cases h
          exact ⟨es, hindex⟩
      | null => cases h
      | object members =>
        split at h
        · cases h
        · cases h
      | _ => cases h
    · rintro ⟨rest, h⟩
      exact ⟨_, h, rfl⟩

/-- The arguments of a call: the parsed text, or the text itself under `_raw`. -/
def deserializeArguments (func : Json) : Except StdException Json :=
  if func.contains (str "arguments") then do
    match ← func.index (str "arguments") with
    | .string text =>
      match Json.parse text with
      | .ok args => return args
      | .error _ => return .objectOf [(str "_raw", .string text)]
    | _ => return .object []
  else return .object []

theorem deserializeArguments_of_parse {func args : Json} {text : Str}
    (h : func.index (str "arguments") = .ok (.string text)) (hparse : Json.parse text = .ok args) :
    deserializeArguments func = .ok args := by
  unfold deserializeArguments
  rw [if_pos (Json.contains_of_index h), h]
  simp only [bind, Except.bind, hparse]
  rfl

def deserializeToolCall (tc : Json) : Except StdException ContentBlock := do
  let func ← tc.index (str "function")
  let args ← deserializeArguments func
  let id ← tc.value Json.getString (str "id") []
  let name ← func.value Json.getString (str "name") []
  return .toolUse { id, name, input := args }

theorem deserializeToolCall_ok {tc : Json} {block : ContentBlock} :
    deserializeToolCall tc = .ok block ↔
      ∃ func args id name, tc.index (str "function") = .ok func ∧
        deserializeArguments func = .ok args ∧ tc.value Json.getString (str "id") [] = .ok id ∧
        func.value Json.getString (str "name") [] = .ok name ∧
        block = .toolUse { id, name, input := args } := by
  unfold deserializeToolCall
  simp only [Except.bind_ok, Except.pure_ok]
  constructor
  · intro ⟨func, hfunc, args, hargs, id, hid, name, hname, heq⟩
    exact ⟨func, args, id, name, hfunc, hargs, hid, hname, heq.symm⟩
  · intro ⟨func, args, id, name, hfunc, hargs, hid, hname, heq⟩
    exact ⟨func, hfunc, args, hargs, id, hid, name, hname, heq.symm⟩

/-- Reading a list of tool calls gives tool uses. -/
theorem toolUses_of_mapM {calls : List Json} {blocks : List ContentBlock}
    (h : calls.mapM deserializeToolCall = .ok blocks) :
    ∃ uses : List ToolUseBlock, blocks = uses.map .toolUse ∧
      List.Forall₂ (fun call use => deserializeToolCall call = .ok (.toolUse use)) calls uses := by
  have hall := Except.mapM_ok.mp h
  clear h
  induction hall with
  | nil => exact ⟨[], rfl, .nil⟩
  | cons hcall _ ih =>
    obtain ⟨uses, rfl, huses⟩ := ih
    obtain ⟨_, args, id, name, _, _, _, _, rfl⟩ := deserializeToolCall_ok.mp hcall
    exact ⟨⟨id, name, args⟩ :: uses, rfl, .cons hcall huses⟩

def deserializeToolCalls (msg : Json) : Except StdException (List ContentBlock) :=
  if msg.contains (str "tool_calls") then do
    let toolCalls ← msg.index (str "tool_calls")
    (← toolCalls.elements).mapM deserializeToolCall
  else return []

/-- The text block of a message whose content is a non-empty string. -/
def deserializeText (msg : Json) : Except StdException (List ContentBlock) :=
  if msg.contains (str "content") then do
    match ← msg.index (str "content") with
    | .string text => return if text.isEmpty then [] else [.text ⟨text⟩]
    | _ => return []
  else return []

section

variable {msg : Json}

theorem deserializeToolCalls_of_index {calls : List Json}
    (h : msg.index (str "tool_calls") = .ok (.array calls)) :
    deserializeToolCalls msg = calls.mapM deserializeToolCall := by
  unfold deserializeToolCalls
  rw [if_pos (Json.contains_of_index h), h]
  rfl

theorem deserializeToolCalls_of_missing (h : msg.contains (str "tool_calls") = false) :
    deserializeToolCalls msg = .ok [] := by
  unfold deserializeToolCalls
  rw [h]
  rfl

theorem deserializeToolCalls_ok {blocks : List ContentBlock} :
    deserializeToolCalls msg = .ok blocks ↔
      (msg.contains (str "tool_calls") = false ∧ blocks = []) ∨
      ∃ calls, msg.index (str "tool_calls") = .ok (.array calls) ∧
        calls.mapM deserializeToolCall = .ok blocks := by
  constructor
  · intro h
    cases hc : msg.contains (str "tool_calls") with
    | false =>
      rw [deserializeToolCalls_of_missing hc] at h
      cases h
      exact .inl ⟨rfl, rfl⟩
    | true =>
      unfold deserializeToolCalls at h
      rw [if_pos hc] at h
      obtain ⟨v, hv, h⟩ := Except.bind_ok.mp h
      obtain ⟨calls, hcalls, hblocks⟩ := Except.bind_ok.mp h
      rw [Json.elements_ok.mp hcalls] at hv
      exact .inr ⟨calls, hv, hblocks⟩
  · intro h
    rcases h with ⟨hc, rfl⟩ | ⟨calls, hcalls, hblocks⟩
    · exact deserializeToolCalls_of_missing hc
    · rw [deserializeToolCalls_of_index hcalls]
      exact hblocks

/-- The tool uses that a message holds, call by call. -/
theorem deserializeToolCalls_uses {blocks : List ContentBlock}
    (h : deserializeToolCalls msg = .ok blocks) :
    ∃ (calls : List Json) (uses : List ToolUseBlock), blocks = uses.map .toolUse ∧
      (msg.contains (str "tool_calls") = false ∧ calls = [] ∨
        msg.index (str "tool_calls") = .ok (.array calls)) ∧
      List.Forall₂ (fun call use => deserializeToolCall call = .ok (.toolUse use)) calls uses := by
  rcases deserializeToolCalls_ok.mp h with ⟨hmissing, rfl⟩ | ⟨calls, hcalls, hblocks⟩
  · exact ⟨[], [], rfl, .inl ⟨hmissing, rfl⟩, .nil⟩
  · obtain ⟨uses, rfl, huses⟩ := toolUses_of_mapM hblocks
    exact ⟨calls, uses, rfl, .inr hcalls, huses⟩

/-- The content of a message where it is a text. -/
def contentText (msg : Json) : Str :=
  match msg.index (str "content") with
  | .ok (.string text) => text
  | _ => []

def textBlocks (text : Str) : List ContentBlock := if text.isEmpty then [] else [.text ⟨text⟩]

omit [Platform] in
theorem deserializeText_eq (msg : Json) :
    deserializeText msg = .ok (textBlocks (contentText msg)) := by
  unfold deserializeText contentText
  cases hc : msg.contains (str "content") with
  | false =>
    cases hi : msg.index (str "content") with
    | error e => rfl
    | ok v =>
      rw [Json.contains_of_index hi] at hc
      cases hc
  | true =>
    obtain ⟨v, hv⟩ := Json.index_of_contains hc
    rw [hv]
    cases v <;> rfl

end

def deserializeResponse (json : Json) : Except StdException LlmResponse := do
  let model ← json.value Json.getString (str "model") []
  let usage ← deserializeUsage (str "prompt_tokens") (str "completion_tokens") json
  let choice ← firstChoice json
  let finishReason ← choice.value Json.getString (str "finish_reason") []
  let msg ← choice.index (str "message")
  let toolUses ← deserializeToolCalls msg
  let text ← deserializeText msg
  return { message := ⟨.assistant, toolUses ++ text⟩, finishReason, usage, model }

/-- What an accepted response is made of. -/
structure Accepted (json : Json) (response : LlmResponse) (choice msg : Json)
    (uses texts : List ContentBlock) : Prop where
  model : json.value Json.getString (str "model") [] = .ok response.model
  usage : deserializeUsage (str "prompt_tokens") (str "completion_tokens") json =
    .ok response.usage
  first : firstChoice json = .ok choice
  finishReason : choice.value Json.getString (str "finish_reason") [] = .ok response.finishReason
  message : choice.index (str "message") = .ok msg
  toolCalls : deserializeToolCalls msg = .ok uses
  text : deserializeText msg = .ok texts
  content : response.message = ⟨.assistant, uses ++ texts⟩

/-- The blocks of an accepted response: its tool uses, and behind them its text. -/
theorem Accepted.content_eq {json choice msg : Json} {response : LlmResponse}
    {blocks texts : List ContentBlock} (h : Accepted json response choice msg blocks texts) :
    response.message.content = blocks ++ textBlocks (contentText msg) := by
  have htexts := h.text
  rw [deserializeText_eq] at htexts
  cases htexts
  rw [h.content]

theorem deserializeResponse_ok {json : Json} {response : LlmResponse} :
    deserializeResponse json = .ok response ↔
      ∃ choice msg uses texts, Accepted json response choice msg uses texts := by
  unfold deserializeResponse
  simp only [Except.bind_ok, Except.pure_ok]
  constructor
  · intro ⟨_, hmodel, _, husage, choice, hfirst, _, hfinish, msg, hmsg, uses, hcalls, texts,
      htexts, heq⟩
    subst heq
    exact ⟨choice, msg, uses, texts, hmodel, husage, hfirst, hfinish, hmsg, hcalls, htexts, rfl⟩
  · intro ⟨choice, msg, uses, texts, h⟩
    refine ⟨_, h.model, _, h.usage, choice, h.first, _, h.finishReason, msg, h.message, uses,
      h.toolCalls, texts, h.text, ?_⟩
    rw [← h.content]

/-- What is decoded is an assistant message. -/
theorem deserializeResponse_role {json : Json} {response : LlmResponse}
    (h : deserializeResponse json = .ok response) : response.message.role = .assistant := by
  obtain ⟨_, _, _, _, h⟩ := deserializeResponse_ok.mp h
  rw [h.content]

def endpointUrl (provider : OpenAiProvider σ) : Str :=
  provider.config.baseUrl ++ str "/v1/chat/completions"

def authHeaders (provider : OpenAiProvider σ) : HttpHeaders :=
  [(str "Authorization", str "Bearer " ++ provider.config.apiKey),
    (str "content-type", str "application/json")]

def chat (provider : OpenAiProvider σ) : LlmProvider σ where
  chat conversation request :=
    provider.client.chat (str "OpenAI") provider.endpointUrl provider.authHeaders
      (provider.serializeRequest conversation request) deserializeResponse

theorem chat_repliesAsAssistant (provider : OpenAiProvider σ) :
    provider.chat.RepliesAsAssistant := by
  intro c request w response v h
  obtain ⟨json, hjson⟩ := HttpClient.chat_decoded h
  exact deserializeResponse_role hjson

end OpenAiProvider

end Forgeant
