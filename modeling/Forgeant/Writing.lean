import Forgeant.Conversion
import Forgeant.Schema
import Forgeant.Throwing

namespace Forgeant

namespace Effect

variable {σ : Type}

/-- `j = v`. -/
def put (v : Json) : Effect Json Unit := ⟨fun _ => (.ok (), v)⟩

/-- A statement on `j[key]`, with a `j` that is not const: it leaves `j` changed also
where it throws. -/
def member (key : Str) (x : Effect Json Unit) : Effect Json Unit := ⟨fun j =>
  match j with
  | .null => ((x.run .null).1, .object (Assoc.set key (x.run .null).2 []))
  | .object members =>
    let child := (Assoc.find? key members).getD .null
    ((x.run child).1, .object (Assoc.set key (x.run child).2 members))
  | j => (.error (.std .badVariantAccess), j)⟩

/-- `j.push_back(v)`. -/
def pushBack (v : Json) : Effect Json Unit := ⟨fun j =>
  match j with
  | .null => (.ok (), .array [v])
  | .array elems => (.ok (), .array (elems ++ [v]))
  | j => (.error (.std .badVariantAccess), j)⟩

/-- `j.contains(key)`. -/
def contains (key : Str) : Effect Json Bool := ⟨fun j => (.ok (j.contains key), j)⟩

/-- A variable of its own, from its first value to its last. -/
def fresh (first : Json) (x : Effect Json Unit) : Effect σ Json := ⟨fun w =>
  match x.run first with
  | (.ok _, j) => (.ok j, w)
  | (.error fault, _) => (.error fault, w)⟩

/-- `if (o) { f(*o); }`. -/
def ifSome {α : Type} (o : Option α) (f : α → Effect σ Unit) : Effect σ Unit :=
  match o with
  | some a => f a
  | none => return ()

/-- `if (c) { x }`. -/
def ifTrue (c : Bool) (x : Effect σ Unit) : Effect σ Unit := if c then x else return ()

end Effect

open Effect Throwing

def Message.write (msg : Message) : Effect Json Unit := do
  put (.object [])
  member (str "role") (put msg.role.toJson)
  let contentArr ← fresh (.array []) (forM msg.content (fun block => do
    let blockJson ← fresh .null (put block.toJson)
    pushBack blockJson))
  member (str "content") (put contentArr)

def Conversation.write (conv : Conversation) : Effect Json Unit := do
  put (.objectOf [(str "messages", .array [])])
  ifSome conv.systemPrompt (fun prompt => member (str "system_prompt") (put (.string prompt)))
  forM conv.messages (fun msg => do
    let msgJson ← fresh .null msg.write
    member (str "messages") (pushBack msgJson))

/-- `schema_copy`, as both providers send it. -/
def schemaCopy {σ : Type} (schema : Json) : Effect σ Json :=
  fresh schema (do
    let type ← .lift (std (schema.value Json.getString (str "type") []))
    if type = str "object" then member (str "additionalProperties") (put (.boolean false)))

namespace AnthropicProvider

/-- `msg_json`, in the loop over the messages. -/
def writeMessage (msg : Message) : Effect Json Unit := do
  if msg.role = .tool then member (str "role") (put (.string (str "user")))
  else member (str "role") (put msg.role.toJson)
  member (str "content") (put (.array []))
  forM msg.content (fun block => do
    let blockJson ← fresh .null (put block.toJson)
    member (str "content") (pushBack blockJson))

def writeOutputConfig (schema : Json) : Effect Json Unit := do
  member (str "output_config") (member (str "format")
    (member (str "type") (put (.string (str "json_schema")))))
  member (str "output_config") (member (str "format") (member (str "schema") (put schema)))

/-- `body`. The reference to its messages stands for the entry that it was
bound to, which no later statement replaces. -/
def writeRequest {σ : Type} (provider : AnthropicProvider σ) (conversation : Conversation)
    (request : ChatRequest) : Effect Json Unit := do
  member (str "model") (put (.string provider.config.model))
  member (str "max_tokens") (put (.integer (provider.config.maxTokens.getD 1024).toInt64))
  ifSome conversation.systemPrompt (fun prompt => member (str "system") (put (.string prompt)))
  ifSome provider.config.temperature (fun temperature =>
    member (str "temperature") (put (.number temperature)))
  member (str "messages") (put (.array []))
  forM conversation.messages (fun msg => do
    let msgJson ← fresh .null (writeMessage msg)
    member (str "messages") (pushBack msgJson))
  ifTrue (!request.tools.isEmpty) (do
    member (str "tools") (put (.array []))
    forM request.tools (fun tool => member (str "tools") (pushBack (serializeTool tool))))
  ifSome request.outputSchema (fun schema => do
    let schema ← schemaCopy schema
    writeOutputConfig schema)

end AnthropicProvider

namespace OpenAiProvider

/-- `tool_msg`. -/
def writeToolResult (result : ToolResultBlock) : Effect Json Unit := do
  member (str "role") (put (.string (str "tool")))
  member (str "tool_call_id") (put (.string result.toolUseId))
  member (str "content") (put (.string result.content))

/-- `serialize_tool_result_messages`, on the messages. -/
def writeToolResultMessages (msg : Message) : Effect Json Unit :=
  forM msg.content (fun block => do
    if let .toolResult result := block then
      let toolMsg ← fresh .null (writeToolResult result)
      pushBack toolMsg)

def writeResponseFormat (schema : Json) : Effect Json Unit := do
  member (str "response_format") (put (.objectOf [(str "type", .string (str "json_schema")),
    (str "json_schema", .objectOf [(str "name", .string (str "response")),
      (str "strict", .boolean true)])]))
  member (str "response_format") (member (str "json_schema") (member (str "schema") (put schema)))

variable [Platform]

/-- One pass of the loop of `serialize_message`. -/
def writeBlock {σ : Type} (acc : Str × Json) : ContentBlock → Effect σ (Str × Json)
  | .text block => return (block.text, acc.2)
  | .toolUse tool => do
    let toolCalls ← fresh acc.2 (pushBack (toolCall tool))
    return (acc.1, toolCalls)
  | .toolResult _ => return acc

/-- `serialize_message`. -/
def writeMessage (msg : Message) : Effect Json Unit := do
  member (str "role") (put msg.role.toJson)
  let (textContent, toolCalls) ← msg.content.foldlM writeBlock ([], .array [])
  if !toolCalls.empty then
    member (str "tool_calls") (put toolCalls)
    member (str "content") (put (if textContent.isEmpty then .null else .string textContent))
  else member (str "content") (put (.string textContent))

/-- `body`. -/
def writeRequest {σ : Type} (provider : OpenAiProvider σ) (conversation : Conversation)
    (request : ChatRequest) : Effect Json Unit := do
  member (str "model") (put (.string provider.config.model))
  ifSome provider.config.maxTokens (fun maxTokens =>
    member (str "max_tokens") (put (.integer maxTokens.toInt64)))
  ifSome provider.config.temperature (fun temperature =>
    member (str "temperature") (put (.number temperature)))
  member (str "messages") (put (.array []))
  ifSome conversation.systemPrompt (fun prompt =>
    member (str "messages") (pushBack (systemMessage prompt)))
  forM conversation.messages (fun msg => do
    if msg.role = .tool then member (str "messages") (writeToolResultMessages msg)
    else
      let msgJson ← fresh .null (writeMessage msg)
      member (str "messages") (pushBack msgJson))
  ifTrue (!request.tools.isEmpty) (do
    member (str "tools") (put (.array []))
    forM request.tools (fun tool => member (str "tools") (pushBack (serializeTool tool))))
  ifSome request.outputSchema (fun schema => do
    let schema ← schemaCopy schema
    writeResponseFormat schema)

end OpenAiProvider

/-- A statement on `j[k₁]...[kₙ]`. -/
def Effect.through (path : List Str) (x : Effect Json Unit) : Effect Json Unit :=
  path.foldr member x

/-- `j[k₁]...[kₙ] = value`. -/
structure Assignment where
  path : List Str
  value : Json

def Assignment.write (a : Assignment) : Effect Json Unit := through a.path (put a.value)

def Assignment.place (a : Assignment) : Path := a.path.map .key

/-- One of the two positions is the other or lies below it. -/
def Path.Overlap (p q : Path) : Prop := p <+: q ∨ q <+: p

/-- Above the end of the chain stands a value that is neither null nor an object. -/
def Assignment.Blocked (a : Assignment) (j : Json) : Prop :=
  ∃ above key below v, a.path = above ++ key :: below ∧ j.node? (above.map .key) = some v ∧
    v ≠ .null ∧ ∀ members, v ≠ .object members

end Forgeant
