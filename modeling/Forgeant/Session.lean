import Forgeant.Json.Text
import Forgeant.Types

namespace Forgeant

structure ToolView where
  name : Str
  description : Str
  parameters : Json

structure ChatRequest where
  tools : List ToolView := []
  outputSchema : Option Json := none

/-- A provider may keep state anywhere outside the agent, so a call takes and
returns the world `σ` it runs in. -/
structure LlmProvider (σ : Type) where
  chat : Conversation → ChatRequest → σ → Except StdException LlmResponse × σ

/-- The contract of `LlmProvider::chat`: the reply is an assistant message. -/
def LlmProvider.RepliesAsAssistant {σ : Type} (provider : LlmProvider σ) : Prop :=
  ∀ c request w response v, provider.chat c request w = (.ok response, v) →
    response.message.role = .assistant

/-- The contract of a provider that is given no tools: an assistant message
with some text and no tool call. -/
def LlmProvider.RepliesWithText {σ : Type} (provider : LlmProvider σ) : Prop :=
  ∀ c request w response v, provider.chat c request w = (.ok response, v) →
    response.message.role = .assistant ∧ response.message.texts ≠ [] ∧
      response.message.toolUses = []

/-- A provider that plays back outcomes, the replies as assistant messages. -/
def LlmProvider.scripted : LlmProvider (List (Except StdException LlmResponse)) where
  chat _ _ script :=
    match script with
    | [] => (.error (.runtimeError (str "no more responses")), [])
    | .error e :: script => (.error e, script)
    | .ok r :: script => (.ok { r with message := ⟨.assistant, r.message.content⟩ }, script)

theorem LlmProvider.scripted_repliesAsAssistant : scripted.RepliesAsAssistant := by
  intro c request w response v h
  cases w with
  | nil => simp [scripted] at h
  | cons outcome script =>
    cases outcome with
    | error e => simp [scripted] at h
    | ok r =>
      simp only [scripted, Prod.mk.injEq, Except.ok.injEq] at h
      rw [← h.1]

/-- A provider that plays back texts until it has none left. -/
def LlmProvider.talking : LlmProvider (List Str) where
  chat _ _ texts :=
    match texts with
    | [] => (.error (.runtimeError (str "no more responses")), [])
    | text :: texts => (.ok { message := .ofText .assistant text }, texts)

theorem LlmProvider.talking_repliesWithText : talking.RepliesWithText := by
  intro c request w response v h
  cases w with
  | nil => simp [talking] at h
  | cons text texts =>
    simp only [talking, Prod.mk.injEq, Except.ok.injEq] at h
    rw [← h.1]
    exact ⟨rfl, by simp [Message.texts, Message.ofText, ContentBlock.text?], rfl⟩

structure Tool (σ : Type) where
  name : Str
  description : Str
  parameters : Json
  execute : Json → σ → Except StdException Json × σ

def Tool.view {σ : Type} (tool : Tool σ) : ToolView where
  name := tool.name
  description := tool.description
  parameters := tool.parameters

/-- `tools_` is an unordered map; the list stands for its iteration order. -/
structure ToolRegistry (σ : Type) where
  tools_ : List (Str × Tool σ) := []
  unique : (tools_.map Prod.fst).Nodup := by simp

namespace ToolRegistry

variable {σ : Type}

def find? (registry : ToolRegistry σ) (name : Str) : Option (Tool σ) :=
  (registry.tools_.find? (fun p => p.1 == name)).map Prod.snd

/-- `emplace`: a tool whose name is taken is not added. -/
def add (registry : ToolRegistry σ) (tool : Tool σ) : ToolRegistry σ :=
  if h : tool.name ∈ registry.tools_.map Prod.fst then registry
  else
    { tools_ := registry.tools_ ++ [(tool.name, tool)]
      unique := by
        rw [List.map_append]
        exact List.nodup_append.mpr ⟨registry.unique, by simp, by
          intro a ha b hb hab
          simp only [List.map_cons, List.map_nil, List.mem_singleton] at hb
          exact h (hb ▸ hab ▸ ha)⟩ }

def get (registry : ToolRegistry σ) (name : Str) : Except StdException (Tool σ) :=
  match registry.find? name with
  | some tool => .ok tool
  | none => .error (.runtimeError (str "unknown tool: " ++ name))

def has (registry : ToolRegistry σ) (name : Str) : Bool := (registry.find? name).isSome

def execute (registry : ToolRegistry σ) (name : Str) (args : Json) (world : σ) :
    Except StdException Json × σ :=
  match registry.get name with
  | .ok tool => tool.execute args world
  | .error e => (.error e, world)

def tools (registry : ToolRegistry σ) : List ToolView :=
  registry.tools_.map (fun p =>
    { name := p.2.name, description := p.2.description, parameters := p.2.parameters })

def size (registry : ToolRegistry σ) : Nat := registry.tools_.length

end ToolRegistry

/-- A call of a run, as an observer sees it. The trace is not state of the
program. -/
inductive Event where
  | chat (conversation : Conversation) (request : ChatRequest)
      (outcome : Except StdException LlmResponse)
  | execute (name : Str) (input : Json) (outcome : Except StdException Json)

/-- What the chat calls of a trace came back with, in order. -/
def chatOutcomes (es : List Event) : List (Except StdException LlmResponse) :=
  es.filterMap (fun e => match e with | .chat _ _ outcome => some outcome | _ => none)

theorem chatOutcomes_append (es fs : List Event) :
    chatOutcomes (es ++ fs) = chatOutcomes es ++ chatOutcomes fs :=
  List.filterMap_append

structure Session (σ : Type) where
  world : σ
  trace : List Event := []

namespace Session

variable {σ : Type}

/-- The calls made since an earlier point of the same run. -/
def since (t s : Session σ) : List Event := t.trace.drop s.trace.length

def chat (session : Session σ) (provider : LlmProvider σ) (conversation : Conversation)
    (request : ChatRequest) : Except StdException LlmResponse × Session σ :=
  let (outcome, world) := provider.chat conversation request session.world
  (outcome, ⟨world, session.trace ++ [.chat conversation request outcome]⟩)

def execute (session : Session σ) (registry : ToolRegistry σ) (name : Str) (input : Json) :
    Except StdException Json × Session σ :=
  let (outcome, world) := registry.execute name input session.world
  (outcome, ⟨world, session.trace ++ [.execute name input outcome]⟩)

end Session

/-- The events are what the provider and the registry do, in this order, from
the first world to the last. -/
inductive Replays {σ : Type} (provider : LlmProvider σ) (registry : ToolRegistry σ) :
    σ → List Event → σ → Prop
  | nil (w : σ) : Replays provider registry w [] w
  | chat {w v u : σ} {es : List Event} {c : Conversation} {request : ChatRequest}
      {outcome : Except StdException LlmResponse}
      (h : provider.chat c request w = (outcome, v)) (rest : Replays provider registry v es u) :
      Replays provider registry w (.chat c request outcome :: es) u
  | execute {w v u : σ} {es : List Event} {name : Str} {input : Json}
      {outcome : Except StdException Json}
      (h : registry.execute name input w = (outcome, v)) (rest : Replays provider registry v es u) :
      Replays provider registry w (.execute name input outcome :: es) u

/-- From `s` to `t` exactly the calls `es` were made. -/
structure Extends {σ : Type} (provider : LlmProvider σ) (registry : ToolRegistry σ)
    (s : Session σ) (es : List Event) (t : Session σ) : Prop where
  trace : t.trace = s.trace ++ es
  replays : Replays provider registry s.world es t.world

variable {σ : Type} {provider : LlmProvider σ} {registry : ToolRegistry σ}

theorem Replays.append {w v u : σ} {es fs : List Event}
    (h : Replays provider registry w es v) (h' : Replays provider registry v fs u) :
    Replays provider registry w (es ++ fs) u := by
  induction h with
  | nil => exact h'
  | chat hc _ ih => exact .chat hc (ih h')
  | execute he _ ih => exact .execute he (ih h')

theorem Replays.chat_mem {w v : σ} {es : List Event} (h : Replays provider registry w es v)
    {c : Conversation} {request : ChatRequest} {outcome : Except StdException LlmResponse}
    (he : .chat c request outcome ∈ es) :
    ∃ u x, provider.chat c request u = (outcome, x) := by
  induction h with
  | nil => simp at he
  | chat hc _ ih =>
    rcases List.mem_cons.mp he with heq | he
    · cases heq
      exact ⟨_, _, hc⟩
    · exact ih he
  | execute _ _ ih =>
    rcases List.mem_cons.mp he with heq | he
    · cases heq
    · exact ih he

theorem Extends.refl (s : Session σ) : Extends provider registry s [] s :=
  ⟨by simp, .nil _⟩

theorem Extends.trans {s t u : Session σ} {es fs : List Event}
    (h : Extends provider registry s es t) (h' : Extends provider registry t fs u) :
    Extends provider registry s (es ++ fs) u :=
  ⟨by rw [h'.trace, h.trace, List.append_assoc], h.replays.append h'.replays⟩

theorem Extends.since {s t : Session σ} {es : List Event} (h : Extends provider registry s es t) :
    t.since s = es := by
  rw [Session.since, h.trace, List.drop_left]

theorem Session.chat_extends {s t : Session σ} {c : Conversation} {request : ChatRequest}
    {outcome : Except StdException LlmResponse} (h : s.chat provider c request = (outcome, t)) :
    Extends provider registry s [.chat c request outcome] t := by
  simp only [Session.chat, Prod.mk.injEq] at h
  obtain ⟨rfl, rfl⟩ := h
  exact ⟨rfl, .chat rfl (.nil _)⟩

theorem Session.execute_extends {s t : Session σ} {name : Str} {input : Json}
    {outcome : Except StdException Json} (h : s.execute registry name input = (outcome, t)) :
    Extends provider registry s [.execute name input outcome] t := by
  simp only [Session.execute, Prod.mk.injEq] at h
  obtain ⟨rfl, rfl⟩ := h
  exact ⟨rfl, .execute rfl (.nil _)⟩

end Forgeant
