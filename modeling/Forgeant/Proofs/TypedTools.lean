import Forgeant.Conformance
import Forgeant.Proofs.Conformance

namespace Forgeant.Proofs.TypedTools
open Registry

variable {σ T : Type}

theorem firstNamed_typed (added : List (TypedTool σ)) (name : Str) :
    firstNamed (added.map TypedTool.tool) name = (firstTyped added name).map TypedTool.tool := by
  rw [firstNamed, firstTyped, List.find?_map]
  rfl

/-- Everything the execution of a tool that `make_tool` made can do. -/
theorem execute_typed {tool : TypedTool σ} {input : Json} {w v : σ}
    {outcome : Except StdException Json} (h : tool.tool.execute input w = (outcome, v)) :
    tool.Ran input w outcome v ∨
      ∃ e, tool.params.get input = .error e ∧ outcome = .error e ∧ v = w := by
  cases hread : tool.params.get input with
  | error e =>
    rw [TypedTool.tool, makeTool_error hread] at h
    cases h
    exact .inr ⟨e, rfl, rfl, rfl⟩
  | ok p =>
    rw [TypedTool.tool, makeTool_ok hread] at h
    cases h
    exact .inl ⟨p, _, hread, rfl, rfl⟩

theorem execute_addAll {added : List (Tool σ)} {name : Str} {input : Json} {w v : σ}
    {outcome : Except StdException Json}
    (h : (added.foldl ToolRegistry.add {}).execute name input w = (outcome, v)) :
    (∃ tool, firstNamed added name = some tool ∧ tool.execute input w = (outcome, v)) ∨
      firstNamed added name = none ∧ v = w ∧
        outcome = .error (.runtimeError (str "unknown tool: " ++ name)) := by
  rw [ToolRegistry.execute, get_addAll] at h
  cases hfound : firstNamed added name with
  | none =>
    rw [hfound] at h
    cases h
    exact .inr ⟨rfl, rfl, rfl⟩
  | some tool =>
    rw [hfound] at h
    exact .inl ⟨tool, rfl, h⟩

/-- What is offered of typed tools: the first of each name, under the schema of
its parameters. -/
theorem offers_typed (added : List (TypedTool σ)) (view : ToolView) :
    view ∈ ((added.map TypedTool.tool).foldl ToolRegistry.add {}).tools ↔
      ∃ tool, firstTyped added view.name = some tool ∧
        view = ⟨tool.name, tool.description, tool.params.schema⟩ := by
  rw [(tools_addAll (added.map TypedTool.tool)).2 view, firstNamed_typed]
  simp only [Option.map_eq_some_iff]
  constructor
  · rintro ⟨_, ⟨tool, hfound, rfl⟩, hview⟩
    exact ⟨tool, hfound, hview⟩
  · rintro ⟨tool, hfound, hview⟩
    exact ⟨_, ⟨tool, hfound, rfl⟩, hview⟩

section

variable {provider : LlmProvider σ} {added : List (TypedTool σ)} {w v : σ} {es : List Event}

theorem handles_of_replays
    (h : Replays provider ((added.map TypedTool.tool).foldl ToolRegistry.add {}) w es v) :
    Handles provider added w es v := by
  induction h with
  | nil w => exact .nil w
  | chat hchat _ ih => exact .chat hchat ih
  | execute hexecute _ ih =>
    rcases execute_addAll hexecute with ⟨tool, hfound, htool⟩ | ⟨hmissing, rfl, rfl⟩
    · rw [firstNamed_typed, Option.map_eq_some_iff] at hfound
      obtain ⟨typed, hfound, rfl⟩ := hfound
      rcases execute_typed htool with hran | ⟨e, hunread, rfl, rfl⟩
      · exact .ran hfound hran ih
      · exact .unread hfound hunread ih
    · rw [firstNamed_typed, Option.map_eq_none_iff] at hmissing
      exact .unknown hmissing ih

/-- Where the inputs of all executions are read, each ran a function. -/
theorem handles_ran (h : Handles provider added w es v)
    (hread : ∀ name input outcome, .execute name input outcome ∈ es →
      ∃ tool p, firstTyped added name = some tool ∧ tool.params.get input = .ok p)
    {name : Str} {input : Json} {outcome : Except StdException Json}
    (hmem : .execute name input outcome ∈ es) :
    ∃ tool u x, firstTyped added name = some tool ∧ tool.Ran input u outcome x := by
  induction h with
  | nil => cases hmem
  | chat _ _ ih =>
    rcases List.mem_cons.mp hmem with heq | hmem
    · cases heq
    · exact ih (fun _ _ _ he => hread _ _ _ (List.mem_cons_of_mem _ he)) hmem
  | ran found ran _ ih =>
    rcases List.mem_cons.mp hmem with heq | hmem
    · cases heq
      exact ⟨_, _, _, found, ran⟩
    · exact ih (fun _ _ _ he => hread _ _ _ (List.mem_cons_of_mem _ he)) hmem
  | unread found unread _ ih =>
    rcases List.mem_cons.mp hmem with heq | hmem
    · cases heq
      obtain ⟨tool, p, hfound, hp⟩ := hread _ _ _ List.mem_cons_self
      cases found.symm.trans hfound
      cases unread.symm.trans hp
    · exact ih (fun _ _ _ he => hread _ _ _ (List.mem_cons_of_mem _ he)) hmem
  | unknown missing _ ih =>
    rcases List.mem_cons.mp hmem with heq | hmem
    · cases heq
      obtain ⟨tool, p, hfound, hp⟩ := hread _ _ _ List.mem_cons_self
      cases missing.symm.trans hfound
    · exact ih (fun _ _ _ he => hread _ _ _ (List.mem_cons_of_mem _ he)) hmem

end

/-- A tool is executed because a reply used it. -/
def Asked (request : ChatRequest) (es : List Event) : Prop :=
  ∀ name input outcome, .execute name input outcome ∈ es →
    ∃ d response use, .chat d request (.ok response) ∈ es ∧ use ∈ response.message.toolUses ∧
      use.name = name ∧ use.input = input

theorem asked_append {request : ChatRequest} {es fs : List Event} (h : Asked request es)
    (h' : Asked request fs) : Asked request (es ++ fs) := by
  intro name input outcome hmem
  rcases List.mem_append.mp hmem with hmem | hmem
  · obtain ⟨d, response, use, hchat, huse⟩ := h name input outcome hmem
    exact ⟨d, response, use, List.mem_append_left fs hchat, huse⟩
  · obtain ⟨d, response, use, hchat, huse⟩ := h' name input outcome hmem
    exact ⟨d, response, use, List.mem_append_right es hchat, huse⟩

theorem asked_threaded {α : Type} {request : ChatRequest} {messages : α → List Message}
    {events : Conversation → α → List Event} (h : ∀ c a, Asked request (events c a))
    (c : Conversation) (as : List α) : Asked request (threaded messages events c as) := by
  intro name input outcome hmem
  obtain ⟨pre, a, post, hsplit, hmem⟩ := mem_threaded.mp hmem
  obtain ⟨d, response, use, hchat, huse⟩ := h _ a name input outcome hmem
  exact ⟨d, response, use, mem_threaded.mpr ⟨pre, a, post, hsplit, hchat⟩, huse⟩

theorem asked_round (request : ChatRequest) (c : Conversation) (r : Round) :
    Asked request (r.events request c) := by
  intro name input outcome hmem
  rcases List.mem_cons.mp hmem with heq | hmem
  · cases heq
  · rw [executions, ← List.map_uncurry_zip_eq_zipWith, List.mem_map] at hmem
    obtain ⟨⟨use, result⟩, hzip, hevent⟩ := hmem
    cases hevent
    exact ⟨c, r.response, use, List.mem_cons_self, (List.of_mem_zip hzip).1, rfl, rfl⟩

variable [Platform]

theorem asked_segment (request : ChatRequest) (c : Conversation) (s : Segment) :
    Asked request (s.events request c) := by
  apply asked_append (asked_threaded (asked_round request) c s.rounds)
  intro name input outcome hmem
  cases h : s.ending <;> simp [h, Ending.events] at hmem

theorem asked_attempts (request : ChatRequest) (c : Conversation) (as : Attempts) :
    Asked request (as.events request c) :=
  asked_append (asked_threaded (fun c a => asked_segment request c a.segment) c as.failed)
    (asked_segment request _ as.last)

/-- However typed tools are added to an agent, in every call each chat request
offers the first of each name under the schema of its parameters, and a tool's
function runs just for the executions whose input its parameters are read from. -/
theorem call_handles (provider : LlmProvider σ) (options : AgentOptions)
    (added : List (TypedTool σ)) (c : Call T) (s : Session σ) :
    ∃ es t, (((added.map TypedTool.tool).foldl Agent.addTool
        { provider := provider, options := options }).call c s).2 = t ∧
      t.trace = s.trace ++ es ∧ Handles provider added s.world es t.world ∧
      ∀ d request outcome, .chat d request outcome ∈ es → ∀ view, view ∈ request.tools ↔
        ∃ tool, firstTyped added view.name = some tool ∧
          view = ⟨tool.name, tool.description, tool.params.schema⟩ := by
  rw [addTools_eq]
  obtain ⟨es, hextends, hasks⟩ := Tools.call_asks (Agent.mk provider
    ((added.map TypedTool.tool).foldl ToolRegistry.add {}) options) c s
  refine ⟨es, _, rfl, hextends.trace, handles_of_replays hextends.replays, ?_⟩
  intro d request outcome hmem
  rw [hasks d request outcome hmem]
  exact offers_typed added

/-- Where the model keeps to the tools and the schemas that it is offered and these
say what can be read, every execution runs a function. -/
theorem call_runs {provider : LlmProvider σ} {added : List (TypedTool σ)}
    (honours : provider.HonoursTools
      ((added.map TypedTool.tool).foldl ToolRegistry.add {}).tools)
    (adequate : ∀ tool ∈ added, tool.params.Adequate) (options : AgentOptions) (c : Call T)
    (s : Session σ) :
    ∃ es, (((added.map TypedTool.tool).foldl Agent.addTool
        { provider := provider, options := options }).call c s).2.trace = s.trace ++ es ∧
      ∀ name input outcome, .execute name input outcome ∈ es →
        ∃ tool u v, firstTyped added name = some tool ∧ tool.Ran input u outcome v := by
  rw [addTools_eq]
  let agent := Agent.mk provider ((added.map TypedTool.tool).foldl ToolRegistry.add {}) options
  obtain ⟨as, _, hmade⟩ := Calls.call_made agent c s
  refine ⟨_, hmade.extends_.trace, ?_⟩
  intro name input outcome hmem
  apply handles_ran (handles_of_replays hmade.extends_.replays) _ hmem
  intro name input outcome hexecute
  obtain ⟨d, response, use, hchat, huse, rfl, rfl⟩ :=
    asked_attempts _ _ as name input outcome hexecute
  obtain ⟨u, x, hreply⟩ := hmade.extends_.replays.chat_mem hchat
  obtain ⟨view, hview, hname, hsatisfies⟩ := honours hreply rfl huse
  obtain ⟨tool, hfound, rfl⟩ := (offers_typed added view).mp hview
  obtain ⟨p, hp⟩ := adequate tool (List.mem_of_find?_eq_some hfound) _ hsatisfies
  rw [hname] at hfound
  exact ⟨tool, p, hfound, hp⟩

/-- Asks for the weather once and then has an answer. -/
def forecaster : LlmProvider Unit where
  chat c _ w :=
    if c.messages.length = 1 then
      (.ok { message := ⟨.assistant, [.toolUse ⟨str "1", str "get_weather",
        .object [(str "city", .string (str "Denver"))]⟩]⟩ }, w)
    else (.ok { message := .ofText .assistant (str "Sunny") }, w)

omit [Platform] in
theorem satisfies_denver : Satisfies ParamSchema.weatherParams.schema
    (.object [(str "city", .string (str "Denver"))]) := by
  refine .intro ?_ nofun ?_ ?_ nofun nofun
  · intro type htype
    cases Conformance.type_unique .object rfl htype
    exact ⟨_, rfl⟩
  · intro names members hnames _ name hname
    cases hnames
    cases List.mem_singleton.mp hname
    rfl
  · intro props k s v hprops hs hv
    cases hprops
    obtain ⟨members, hmembers, hfind⟩ := Json.index_ok.mp hv
    cases hmembers
    rw [Assoc.find?_cons] at hfind
    split at hfind
    · rename_i hcity
      cases hfind
      subst hcity
      cases hs
      refine .intro ?_ nofun nofun nofun nofun nofun
      intro type htype
      cases Conformance.type_unique .string rfl htype
      exact ⟨_, rfl⟩
    · cases hfind

omit [Platform] in
theorem call_runs_forecaster :
    letI := Platform.reference
    ∃ es, (([TypedTool.getWeather].map TypedTool.tool).foldl Agent.addTool
        { provider := forecaster, options := {} } |>.call
          (.run (str "What's the weather like in Denver?") {}) ⟨(), []⟩).2.trace = [] ++ es ∧
      ∀ name input outcome, .execute name input outcome ∈ es →
        ∃ tool u v, firstTyped [TypedTool.getWeather] name = some tool ∧
          tool.Ran input u outcome v := by
  let platform := Platform.reference
  apply call_runs
  · intro c request w response v use h _ huse
    by_cases hfirst : c.messages.length = 1
    · simp only [forecaster, hfirst, if_true] at h
      cases h
      cases List.mem_singleton.mp huse
      exact ⟨_, List.mem_cons_self, rfl, satisfies_denver⟩
    · simp only [forecaster, hfirst, if_false] at h
      cases h
      cases huse
  · intro tool htool
    cases List.mem_singleton.mp htool
    exact Conformance.weatherParams_adequate

end Forgeant.Proofs.TypedTools
