import Forgeant.Proofs.Calls
import Forgeant.Proofs.Registry

namespace Forgeant.Proofs.Tools
open Registry

/-- Every chat call is handed this request. -/
def Asks (request : ChatRequest) (es : List Event) : Prop :=
  ∀ c r outcome, .chat c r outcome ∈ es → r = request

section

variable {request : ChatRequest} {es fs : List Event}

theorem asks_nil : Asks request [] := by
  intro c r outcome h
  cases h

theorem asks_append (h : Asks request es) (h' : Asks request fs) : Asks request (es ++ fs) := by
  intro c r outcome hmem
  rcases List.mem_append.mp hmem with hmem | hmem
  · exact h c r outcome hmem
  · exact h' c r outcome hmem

theorem asks_chat (c : Conversation) (outcome : Except StdException LlmResponse)
    (h : Asks request es) : Asks request (.chat c request outcome :: es) := by
  intro c' r outcome' hmem
  rcases List.mem_cons.mp hmem with heq | hmem
  · cases heq
    rfl
  · exact h c' r outcome' hmem

theorem asks_executions (calls : List ToolUseBlock) (outcomes : List (Except StdException Json)) :
    Asks request (executions calls outcomes) := by
  intro c r outcome hmem
  rw [executions, ← List.map_uncurry_zip_eq_zipWith, List.mem_map] at hmem
  obtain ⟨_, _, hevent⟩ := hmem
  cases hevent

theorem asks_threaded {α : Type} {messages : α → List Message}
    {events : Conversation → α → List Event} (h : ∀ c a, Asks request (events c a))
    (c : Conversation) (as : List α) : Asks request (threaded messages events c as) := by
  intro c' r outcome hmem
  obtain ⟨pre, a, post, _, hmem⟩ := mem_threaded.mp hmem
  exact h _ a c' r outcome hmem

variable [Platform]

theorem asks_segment (request : ChatRequest) (c : Conversation) (s : Segment) :
    Asks request (s.events request c) := by
  apply asks_append
  · exact asks_threaded (fun c r => asks_chat c _ (asks_executions _ _)) c s.rounds
  · cases s.ending with
    | answered response final => exact asks_chat _ _ asks_nil
    | failed e => exact asks_chat _ _ asks_nil
    | capped => exact asks_nil

theorem asks_attempts (request : ChatRequest) (c : Conversation) (as : Attempts) :
    Asks request (as.events request c) :=
  asks_append (asks_threaded (fun c a => asks_segment request c a.segment) c as.failed)
    (asks_segment request _ as.last)

end

variable {σ T : Type}

/-- Every chat call of a call offers the same tools and asks for the same output. -/
theorem call_asks [Platform] (agent : Agent σ) (c : Call T) (s : Session σ) :
    ∃ es, Extends agent.provider agent.registry s es (agent.call c s).2 ∧
      Asks (agent.request c.outputSchema) es := by
  obtain ⟨as, _, hmade⟩ := Calls.call_made agent c s
  exact ⟨_, hmade.extends_, asks_attempts _ _ as⟩

/-- A chat call offers just the first tool of each name and asks for this
output; a tool call runs the first tool of its name, or is told that there is
none. -/
def Honours (added : List (Tool σ)) (schema : Option Json) : Event → Prop
  | .chat _ request _ =>
    request.outputSchema = schema ∧ (request.tools.map ToolView.name).Nodup ∧
      ∀ view, view ∈ request.tools ↔
        ∃ tool, firstNamed added view.name = some tool ∧ view = tool.view
  | .execute name input outcome => ∃ w v,
    (match firstNamed added name with
      | some tool => tool.execute input w
      | none => (.error (.runtimeError (str "unknown tool: " ++ name)), w)) = (outcome, v)

theorem execute_mem {provider : LlmProvider σ} {registry : ToolRegistry σ} {w v : σ}
    {es : List Event} (h : Replays provider registry w es v) {name : Str} {input : Json}
    {outcome : Except StdException Json} (he : .execute name input outcome ∈ es) :
    ∃ u x, registry.execute name input u = (outcome, x) := by
  induction h with
  | nil => cases he
  | chat _ _ ih =>
    rcases List.mem_cons.mp he with heq | he
    · cases heq
    · exact ih he
  | execute hexecute _ ih =>
    rcases List.mem_cons.mp he with heq | he
    · cases heq
      exact ⟨_, _, hexecute⟩
    · exact ih he

/-- However tools were added to an agent, names repeated or not, every call of it
offers and runs the first tool that was added under each name. -/
theorem call_honours [Platform] (provider : LlmProvider σ) (options : AgentOptions)
    (added : List (Tool σ)) (c : Call T) (s : Session σ) :
    ∃ es, ((added.foldl Agent.addTool { provider := provider, options := options }).call c
        s).2.trace = s.trace ++ es ∧
      ∀ event ∈ es, Honours added c.outputSchema event := by
  rw [addTools_eq]
  obtain ⟨es, hextends, hasks⟩ := call_asks
    (Agent.mk provider (added.foldl ToolRegistry.add {}) options) c s
  refine ⟨es, hextends.trace, ?_⟩
  intro event hevent
  cases event with
  | chat conversation request outcome =>
    rw [hasks conversation request outcome hevent]
    exact ⟨rfl, tools_addAll added⟩
  | execute name input outcome =>
    obtain ⟨w, v, hexecute⟩ := execute_mem hextends.replays hevent
    refine ⟨w, v, ?_⟩
    rw [← hexecute, ToolRegistry.execute, get_addAll]
    cases firstNamed added name with
    | none => rfl
    | some tool => rfl

end Forgeant.Proofs.Tools
