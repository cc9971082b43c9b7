import Forgeant.Json.Value

namespace Forgeant

inductive Role where
  | system
  | user
  | assistant
  | tool
  deriving DecidableEq

structure TextBlock where
  text : Str

structure ToolUseBlock where
  id : Str
  name : Str
  input : Json

structure ToolResultBlock where
  toolUseId : Str
  content : Str
  isError : Bool := false

inductive ContentBlock where
  | text (block : TextBlock)
  | toolUse (block : ToolUseBlock)
  | toolResult (block : ToolResultBlock)

structure Message where
  role : Role
  content : List ContentBlock

/-- `Message(role, text)`: a message of a single text block. -/
def Message.ofText (role : Role) (text : Str) : Message := ⟨role, [.text ⟨text⟩]⟩

structure Conversation where
  systemPrompt : Option Str := none
  messages : List Message := []

def Conversation.setSystemPrompt (c : Conversation) (prompt : Str) : Conversation :=
  { c with systemPrompt := some prompt }

def Conversation.add (c : Conversation) (message : Message) : Conversation :=
  { c with messages := c.messages ++ [message] }

@[simp] theorem Conversation.add_messages (c : Conversation) (m : Message) :
    (c.add m).messages = c.messages ++ [m] := rfl

@[simp] theorem Conversation.add_systemPrompt (c : Conversation) (m : Message) :
    (c.add m).systemPrompt = c.systemPrompt := rfl

/-- The conversation after further messages. -/
def Conversation.extend (c : Conversation) (ms : List Message) : Conversation :=
  { c with messages := c.messages ++ ms }

@[simp] theorem Conversation.extend_messages (c : Conversation) (ms : List Message) :
    (c.extend ms).messages = c.messages ++ ms := rfl

@[simp] theorem Conversation.extend_systemPrompt (c : Conversation) (ms : List Message) :
    (c.extend ms).systemPrompt = c.systemPrompt := rfl

@[simp] theorem Conversation.extend_nil (c : Conversation) : c.extend [] = c := by
  simp [Conversation.extend]

@[simp] theorem Conversation.extend_extend (c : Conversation) (ms ns : List Message) :
    (c.extend ms).extend ns = c.extend (ms ++ ns) := by
  simp [Conversation.extend]

theorem Conversation.add_eq_extend (c : Conversation) (m : Message) : c.add m = c.extend [m] := rfl

def ContentBlock.text? : ContentBlock → Option Str
  | .text b => some b.text
  | _ => none

def ContentBlock.toolUse? : ContentBlock → Option ToolUseBlock
  | .toolUse b => some b
  | _ => none

def ContentBlock.toolResult? : ContentBlock → Option ToolResultBlock
  | .toolResult b => some b
  | _ => none

def Message.texts (m : Message) : List Str := m.content.filterMap ContentBlock.text?

def Message.toolUses (m : Message) : List ToolUseBlock := m.content.filterMap ContentBlock.toolUse?

def Message.toolResults (m : Message) : List ToolResultBlock :=
  m.content.filterMap ContentBlock.toolResult?

def Role.toJson : Role → Json
  | .system => .string (str "system")
  | .user => .string (str "user")
  | .assistant => .string (str "assistant")
  | .tool => .string (str "tool")

def TextBlock.toJson (b : TextBlock) : Json :=
  .objectOf [(str "type", .string (str "text")), (str "text", .string b.text)]

def ToolUseBlock.toJson (b : ToolUseBlock) : Json :=
  .objectOf [(str "type", .string (str "tool_use")), (str "id", .string b.id),
    (str "name", .string b.name), (str "input", b.input)]

def ToolResultBlock.toJson (b : ToolResultBlock) : Json :=
  .objectOf [(str "type", .string (str "tool_result")), (str "tool_use_id", .string b.toolUseId),
    (str "content", .string b.content), (str "is_error", .boolean b.isError)]

def ContentBlock.toJson : ContentBlock → Json
  | .text b => b.toJson
  | .toolUse b => b.toJson
  | .toolResult b => b.toJson

/-- The counters are `int`s; their sums are taken to fit. -/
@[ext] structure Usage where
  inputTokens : Int := 0
  outputTokens : Int := 0
  deriving DecidableEq

namespace Usage

instance : Zero Usage := ⟨{}⟩

/-- The two `+=` lines that accumulate a response's usage. -/
instance : Add Usage := ⟨fun a b =>
  { inputTokens := a.inputTokens + b.inputTokens, outputTokens := a.outputTokens + b.outputTokens }⟩

@[simp] theorem zero_inputTokens : (0 : Usage).inputTokens = 0 := rfl
@[simp] theorem zero_outputTokens : (0 : Usage).outputTokens = 0 := rfl
@[simp] theorem add_inputTokens (a b : Usage) :
    (a + b).inputTokens = a.inputTokens + b.inputTokens := rfl
@[simp] theorem add_outputTokens (a b : Usage) :
    (a + b).outputTokens = a.outputTokens + b.outputTokens := rfl

instance : AddCommMonoid Usage where
  add_assoc a b c := by ext <;> simp [Int.add_assoc]
  zero_add a := by ext <;> simp
  add_zero a := by ext <;> simp
  add_comm a b := by ext <;> simp [Int.add_comm]
  nsmul := nsmulRec

end Usage

structure LlmResponse where
  message : Message := .ofText .assistant []
  finishReason : Str := []
  usage : Usage := {}
  model : Str := []

end Forgeant
