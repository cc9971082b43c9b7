import Forgeant.Json.Reading
import Forgeant.Provider.Anthropic
import Forgeant.Provider.OpenAi
import Forgeant.Agent

namespace Forgeant

def Message.others (m : Message) : List ContentBlock :=
  m.content.filter (fun block => block.text?.isNone)

/-- Where among the blocks of a message its texts stand does not count. -/
structure Message.Alike (m m' : Message) : Prop where
  role : m.role = m'.role
  texts : m.texts = m'.texts
  others : m.others = m'.others

theorem Message.Alike.refl (m : Message) : m.Alike m := ⟨rfl, rfl, rfl⟩

theorem Message.Alike.toolUses {m m' : Message} (h : m.Alike m') : m.toolUses = m'.toolUses := by
  have hothers (m : Message) : m.toolUses = m.others.filterMap ContentBlock.toolUse? := by
    unfold Message.toolUses Message.others
    induction m.content with
    | nil => rfl
    | cons block blocks ih =>
      cases block <;>
        simp [ih, List.filterMap_cons, ContentBlock.toolUse?, ContentBlock.text?]
  rw [hothers, hothers, h.others]

/-- A call; its arguments are a value that `Json::parse` can produce. -/
structure ToolCall [Platform] where
  id : Str
  name : Str
  arguments : Json
  parsed : ∃ text, Json.parse text = .ok arguments

structure ModelTurn [Platform] where
  text : Str := []
  calls : List ToolCall := []
  inputTokens : Int32 := 0
  outputTokens : Int32 := 0

/-- What comes back for one request: a turn, or an HTTP failure. -/
inductive Reply [Platform] where
  | turn (turn : ModelTurn)
  | failure

section

variable [Platform]

/-- The arguments of the turn have a text, which no infinity has. -/
def Reply.Finite : Reply → Prop
  | .turn sent => ∀ call ∈ sent.calls, call.arguments.Finite
  | .failure => True

def ToolCall.toolUse (call : ToolCall) : ToolUseBlock := ⟨call.id, call.name, call.arguments⟩

/-- The message that a turn is, with its text in front. -/
def ModelTurn.message (turn : ModelTurn) : Message :=
  ⟨.assistant, OpenAiProvider.textBlocks turn.text ++
    turn.calls.map (fun call => .toolUse call.toolUse)⟩

def ModelTurn.usage (turn : ModelTurn) : Usage :=
  { inputTokens := turn.inputTokens.toInt, outputTokens := turn.outputTokens.toInt }

def HasString (key : Str) (json : Json) : Prop := ∃ s, json.index key = .ok (.string s)

/-- The token counts of the turn, under the format's names for them. -/
def HasUsage (inputKey outputKey : Str) (turn : ModelTurn) (json : Json) : Prop :=
  ∃ usage, json.index (str "usage") = .ok usage ∧
    usage.index inputKey = .ok (.integer turn.inputTokens.toInt64) ∧
    usage.index outputKey = .ok (.integer turn.outputTokens.toInt64)

namespace AnthropicProvider

def textContent (text : Str) : List Json :=
  if text = [] then []
  else [.objectOf [(str "type", .string (str "text")), (str "text", .string text)]]

def toolUseContent (call : ToolCall) : Json :=
  .objectOf [(str "type", .string (str "tool_use")), (str "id", .string call.id),
    (str "name", .string call.name), (str "input", call.arguments)]

/-- A response in the format of the Messages API that holds the turn. -/
structure Encodes (turn : ModelTurn) (json : Json) : Prop where
  model : HasString (str "model") json
  stopReason : HasString (str "stop_reason") json
  content : json.index (str "content") =
    .ok (.array (textContent turn.text ++ turn.calls.map toolUseContent))
  usage : HasUsage (str "input_tokens") (str "output_tokens") turn json

end AnthropicProvider

namespace OpenAiProvider

def toolCallContent (call : ToolCall) : Json :=
  .objectOf [(str "id", .string call.id), (str "type", .string (str "function")),
    (str "function", .objectOf [(str "name", .string call.name),
      (str "arguments", .string call.arguments.dump)])]

/-- The message of a choice. Where there are no calls, `tool_calls` may be missing. -/
structure EncodesMessage (turn : ModelTurn) (msg : Json) : Prop where
  content : msg.index (str "content") = .ok (if turn.text = [] then .null else .string turn.text)
  toolCalls : msg.value Json.elements (str "tool_calls") [] =
    .ok (turn.calls.map toolCallContent)

/-- A response in the format of the Chat Completions API that holds the turn. -/
structure Encodes (turn : ModelTurn) (json : Json) : Prop where
  model : HasString (str "model") json
  message : ∃ choice rest msg, json.index (str "choices") = .ok (.array (choice :: rest)) ∧
    HasString (str "finish_reason") choice ∧ choice.index (str "message") = .ok msg ∧
    EncodesMessage turn msg
  usage : HasUsage (str "prompt_tokens") (str "completion_tokens") turn json

end OpenAiProvider

/-- What a client may return for a reply: a body that is read as an encoding of
the turn, and for a failure an exception or a status code that is no success. -/
def Reply.CarriedBy (encodes : ModelTurn → Json → Prop) :
    Reply → Except StdException HttpResponse → Prop
  | .turn sent, .ok response =>
    (200 ≤ response.statusCode ∧ response.statusCode < 300) ∧
      ∃ json, Json.parse response.body = .ok json ∧ encodes sent json
  | .turn _, .error _ => False
  | .failure, .ok response => response.statusCode < 200 ∨ 300 ≤ response.statusCode
  | .failure, .error _ => True

/-- What `chat` may come to on a reply. -/
def Reply.Gives : Reply → Except StdException LlmResponse → Prop
  | .turn sent, .ok response =>
    response.message.Alike sent.message ∧ response.usage = sent.usage
  | .failure, .error _ => True
  | _, _ => False

/-- What is left of the replies to come. -/
abbrev Unplayed (replies : List Reply) := { rest : List Reply // rest <:+ replies }

namespace Unplayed

variable {replies : List Reply}

/-- The next reply, a failure when there is none left. -/
def next (rest : Unplayed replies) : Reply := rest.1.headD .failure

def after (rest : Unplayed replies) : Unplayed replies :=
  ⟨rest.1.tail, (List.tail_suffix _).trans rest.2⟩

theorem next_cases (rest : Unplayed replies) : rest.next ∈ replies ∨ rest.next = .failure := by
  obtain ⟨rest, hrest⟩ := rest
  cases rest with
  | nil => exact .inr rfl
  | cons reply rest => exact .inl (hrest.subset List.mem_cons_self)

end Unplayed

/-- The client plays the replies back one by one and leaves the rest of the
world alone. -/
structure HttpClient.Plays {τ : Type} {replies : List Reply}
    (client : HttpClient (Unplayed replies × τ)) (encodes : ModelTurn → Json → Prop) : Prop where
  carried : ∀ url headers body (rest : Unplayed replies) (w : τ),
    rest.next.CarriedBy encodes (client.post url headers body (rest, w)).1
  world : ∀ url headers body (rest : Unplayed replies) (w : τ),
    (client.post url headers body (rest, w)).2 = (rest.after, w)

end

structure Conversation.Alike (c c' : Conversation) : Prop where
  systemPrompt : c.systemPrompt = c'.systemPrompt
  messages : List.Forall₂ Message.Alike c.messages c'.messages

theorem Conversation.Alike.refl (c : Conversation) : c.Alike c :=
  ⟨rfl, List.forall₂_same.mpr (fun m _ => .refl m)⟩

theorem Conversation.Alike.add {c c' : Conversation} {m m' : Message} (h : c.Alike c')
    (hm : m.Alike m') : (c.add m).Alike (c'.add m') :=
  ⟨h.systemPrompt, List.rel_append h.messages (.cons hm .nil)⟩

structure LlmResponse.Alike (r r' : LlmResponse) : Prop where
  message : r.message.Alike r'.message
  usage : r.usage = r'.usage

def ChatAlike : Except StdException LlmResponse → Except StdException LlmResponse → Prop :=
  Except.Rel (fun _ _ => True) LlmResponse.Alike

/-- The same call: of the provider on alike conversations, or of a tool on the
same input, with the same outcome. -/
inductive Event.Alike : Event → Event → Prop
  | chat {c c' : Conversation} (h : c.Alike c') (request : ChatRequest)
      {o o' : Except StdException LlmResponse} (ho : ChatAlike o o') :
      Alike (.chat c request o) (.chat c' request o')
  | execute (name : Str) (input : Json) (outcome : Except StdException Json) :
      Alike (.execute name input outcome) (.execute name input outcome)

structure Session.Alike {σ : Type} (s s' : Session σ) : Prop where
  world : s.world = s'.world
  trace : List.Forall₂ Event.Alike s.trace s'.trace

structure LoopResult.Alike (r r' : LoopResult) : Prop where
  conversation : r.conversation.Alike r'.conversation
  totalUsage : r.totalUsage = r'.totalUsage
  iterations : r.iterations = r'.iterations

structure AgentResult.Alike {T : Type} (r r' : AgentResult T) : Prop where
  output : r.output = r'.output
  conversation : r.conversation.Alike r'.conversation
  totalUsage : r.totalUsage = r'.totalUsage
  iterations : r.iterations = r'.iterations

structure AgentRunError.Alike (e e' : AgentRunError) : Prop where
  kind : e.kind = e'.kind
  message : e.kind ≠ .providerError → e.message = e'.message
  conversation : e.conversation.Alike e'.conversation
  usage : e.usage = e'.usage
  iterations : e.iterations = e'.iterations

/-- Two runs make the same calls and end alike. -/
structure EndAlike {σ α : Type} (returned : α → α → Prop)
    (p p' : Except AgentRunError α × Session σ) : Prop where
  outcome : Except.Rel AgentRunError.Alike returned p.1 p'.1
  session : p.2.Alike p'.2

/-- Two providers that reply alike to alike conversations. -/
def LlmProvider.Alike {σ : Type} (provider provider' : LlmProvider σ) : Prop :=
  ∀ c c' request w, Conversation.Alike c c' →
    ChatAlike (provider.chat c request w).1 (provider'.chat c' request w).1 ∧
      (provider.chat c request w).2 = (provider'.chat c' request w).2

end Forgeant
