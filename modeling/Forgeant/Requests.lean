import Forgeant.Provider.Anthropic
import Forgeant.Provider.OpenAi

namespace Forgeant

structure Sent (μ : Type) where
  model : Str
  maxTokens : Option Int32
  systemPrompt : Option Str
  temperature : Option Double
  messages : List μ
  tools : List ToolView
  schema : Option Json

/-- How a provider writes the parts of a request. -/
structure Encoding (μ : Type) where
  message : μ → Json
  tool : ToolView → Json
  schemaKey : Str
  schema : Json → Json

namespace Encoding

variable {μ : Type}

def keys : List Str :=
  [str "model", str "max_tokens", str "system", str "temperature", str "messages", str "tools"]

/-- What of a request is written under which key, if anything is. -/
def fields (encoding : Encoding μ) (sent : Sent μ) : List (Str × Option Json) :=
  [(str "model", some (.string sent.model)),
    (str "max_tokens", sent.maxTokens.map (fun n => .integer n.toInt64)),
    (str "system", sent.systemPrompt.map .string),
    (str "temperature", sent.temperature.map .number),
    (str "messages", some (.array (sent.messages.map encoding.message))),
    (str "tools",
      if !sent.tools.isEmpty then some (.array (sent.tools.map encoding.tool)) else none),
    (encoding.schemaKey, sent.schema.map encoding.schema)]

def body (encoding : Encoding μ) (sent : Sent μ) : Json :=
  .object (Assoc.setAll (encoding.fields sent) [])

structure Faithful (encoding : Encoding μ) : Prop where
  message : encoding.message.Injective
  tool : encoding.tool.Injective
  schema : encoding.schema.Injective
  fresh : encoding.schemaKey ∉ keys

end Encoding

/-- Anthropic is sent the blocks of each message and whether the assistant
wrote it. -/
structure SentMessage where
  role : Role
  content : List ContentBlock
  spoken : role ≠ .tool

def Message.sent (m : Message) : SentMessage :=
  if h : m.role = .tool then ⟨.user, m.content, nofun⟩ else ⟨m.role, m.content, h⟩

namespace AnthropicProvider

def encoding : Encoding SentMessage where
  message m := serializeMessage ⟨m.role, m.content⟩
  tool := serializeTool
  schemaKey := str "output_config"
  schema := outputConfig

variable {σ : Type}

def sent (provider : AnthropicProvider σ) (c : Conversation) (request : ChatRequest) :
    Except StdException (Sent SentMessage) := do
  let schema ← request.outputSchema.mapM closedSchema
  return {
    model := provider.config.model
    maxTokens := some (provider.config.maxTokens.getD 1024)
    systemPrompt := c.systemPrompt
    temperature := provider.config.temperature
    messages := c.messages.map Message.sent
    tools := request.tools
    schema }

end AnthropicProvider

/-- A tool call as it is sent, its input as a text. -/
structure SaidCall where
  id : Str
  name : Str
  arguments : Str

/-- What takes one wire message. How a text is split into blocks, how texts and
calls interleave and `is_error` are forgotten. -/
inductive Said where
  | turn (role : Role) (spoken : role ≠ .tool) (text : Str) (calls : List SaidCall)
  | result (id content : Str)

/-- Tool results stand in tool messages, which hold nothing else. -/
def Message.Placed (m : Message) : Prop :=
  if m.role = .tool then ∀ b ∈ m.content, ∃ r, b = .toolResult r else m.toolResults = []

/-- No text block but the last has a text. -/
def Message.OneText (m : Message) : Prop := ∀ t ∈ m.texts.dropLast, t = []

def Conversation.Placed (c : Conversation) : Prop := ∀ m ∈ c.messages, m.Placed

def Conversation.OneText (c : Conversation) : Prop := ∀ m ∈ c.messages, m.role ≠ .tool → m.OneText

section

variable [Platform]

def ToolUseBlock.said (u : ToolUseBlock) : SaidCall := ⟨u.id, u.name, u.input.dump⟩

def Message.said (m : Message) : List Said :=
  if h : m.role = .tool then m.toolResults.map (fun r => .result r.toolUseId r.content)
  else [.turn m.role h m.texts.flatten (m.toolUses.map ToolUseBlock.said)]

def Conversation.said (c : Conversation) : List Said := c.messages.flatMap Message.said

end

def SaidCall.wire (call : SaidCall) : Json :=
  .objectOf [(str "id", .string call.id), (str "type", .string (str "function")),
    (str "function", .objectOf [(str "name", .string call.name),
      (str "arguments", .string call.arguments)])]

def Said.wire : Said → Json
  | .turn role _ text [] =>
    .object (Assoc.set (str "content") (.string text) (Assoc.set (str "role") role.toJson []))
  | .turn role _ text (call :: calls) =>
    .object (Assoc.set (str "content") (if text.isEmpty then .null else .string text)
      (Assoc.set (str "tool_calls") (.array ((call :: calls).map SaidCall.wire))
        (Assoc.set (str "role") role.toJson [])))
  | .result id content => OpenAiProvider.toolResultMessage ⟨id, content, false⟩

namespace OpenAiProvider

variable {σ : Type} [Platform]

def encoding : Encoding Said where
  message := Said.wire
  tool := serializeTool
  schemaKey := str "response_format"
  schema := responseFormat

/-- A message as it is sent: of its texts only the last. -/
def heard (m : Message) : List Said :=
  if h : m.role = .tool then m.toolResults.map (fun r => .result r.toolUseId r.content)
  else [.turn m.role h (lastText m) (m.toolUses.map ToolUseBlock.said)]

/-- The system prompt is sent as a message of role system would be. -/
def prompted (c : Conversation) : List Said :=
  (c.systemPrompt.map (fun prompt => Said.turn .system nofun prompt [])).toList

def sent (provider : OpenAiProvider σ) (c : Conversation) (request : ChatRequest) :
    Except StdException (Sent Said) := do
  let schema ← request.outputSchema.mapM closedSchema
  return {
    model := provider.config.model
    maxTokens := provider.config.maxTokens
    systemPrompt := none
    temperature := provider.config.temperature
    messages := prompted c ++ c.messages.flatMap heard
    tools := request.tools
    schema }

end OpenAiProvider

end Forgeant
