import Forgeant.Interchange
import Forgeant.Proofs.ReactLoop
import Forgeant.Proofs.Resending

namespace Forgeant.Proofs.Interchange
open JsonRoundTrip (lasting_array lasting_objectOf parse_lasting)

theorem message_hasToolUse {m m' : Message} (h : m.Alike m') : hasToolUse m = hasToolUse m' := by
  rw [Bool.eq_iff_iff, ReactLoop.hasToolUse_iff, ReactLoop.hasToolUse_iff, h.toolUses]

theorem extractLastText_alike {c c' : Conversation} (h : c.Alike c') :
    extractLastText c = extractLastText c' := by
  have hfirst (m : Message) : m.content.findSome? ContentBlock.text? = m.texts.head? := by
    rw [Message.texts, List.head?_filterMap]
  unfold extractLastText
  simp only [hfirst]
  have hmessages := List.rel_reverse h.messages
  generalize c.messages.reverse = ms at hmessages ⊢
  generalize c'.messages.reverse = ms' at hmessages ⊢
  congr 1
  induction hmessages with
  | nil => rfl
  | cons hm _ ih => rw [List.findSome?_cons, List.findSome?_cons, hm.role, hm.texts, ih]

section

variable {σ T : Type} [Platform]

/-- Texts leave no mark on a dispatch. -/
theorem foldl_others (registry : ToolRegistry σ) (blocks : List ContentBlock)
    (acc : List ContentBlock × Session σ) :
    (blocks.filter (fun block => block.text?.isNone)).foldl (dispatchBlock registry) acc =
      blocks.foldl (dispatchBlock registry) acc := by
  induction blocks generalizing acc with
  | nil => rfl
  | cons block blocks ih => cases block <;> exact ih _

theorem dispatchBlock_alike (registry : ToolRegistry σ) (block : ContentBlock)
    (results : List ContentBlock) {s s' : Session σ} (h : s.Alike s') :
    (dispatchBlock registry (results, s) block).1 =
        (dispatchBlock registry (results, s') block).1 ∧
      (dispatchBlock registry (results, s) block).2.Alike
        (dispatchBlock registry (results, s') block).2 := by
  cases block with
  | text b => exact ⟨rfl, h⟩
  | toolResult b => exact ⟨rfl, h⟩
  | toolUse call =>
    simp only [dispatchBlock, Session.execute, h.world]
    exact ⟨trivial, rfl, List.rel_append h.trace (.cons (.execute _ _ _) .nil)⟩

theorem foldl_alike (registry : ToolRegistry σ) (blocks results : List ContentBlock)
    {s s' : Session σ} (h : s.Alike s') :
    (blocks.foldl (dispatchBlock registry) (results, s)).1 =
        (blocks.foldl (dispatchBlock registry) (results, s')).1 ∧
      (blocks.foldl (dispatchBlock registry) (results, s)).2.Alike
        (blocks.foldl (dispatchBlock registry) (results, s')).2 := by
  induction blocks generalizing results s s' with
  | nil => exact ⟨rfl, h⟩
  | cons block blocks ih =>
    obtain ⟨hresults, hsession⟩ := dispatchBlock_alike registry block results h
    have := ih (dispatchBlock registry (results, s) block).1 hsession
    rw [List.foldl_cons, List.foldl_cons]
    rwa [Prod.mk.eta, hresults, Prod.mk.eta] at this

/-- The same calls are dispatched, in the same order, with the same answers. -/
theorem dispatchTools_alike (registry : ToolRegistry σ) {m m' : Message} (hm : m.Alike m')
    {s s' : Session σ} (h : s.Alike s') :
    (dispatchTools registry m s).1 = (dispatchTools registry m' s').1 ∧
      (dispatchTools registry m s).2.Alike (dispatchTools registry m' s').2 := by
  unfold dispatchTools
  have hothers := hm.others
  unfold Message.others at hothers
  rw [← foldl_others registry m.content, ← foldl_others registry m'.content, hothers]
  exact foldl_alike registry _ [] h

omit [Platform] in
theorem chat_alike {provider provider' : LlmProvider σ} (alike : provider.Alike provider')
    {c c' : Conversation} (hc : c.Alike c') (request : ChatRequest) {s s' : Session σ}
    (h : s.Alike s') :
    ChatAlike (s.chat provider c request).1 (s'.chat provider' c' request).1 ∧
      (s.chat provider c request).2.Alike (s'.chat provider' c' request).2 := by
  obtain ⟨houtcome, hworld⟩ := alike c c' request s.world hc
  unfold Session.chat
  rw [← h.world]
  exact ⟨houtcome, hworld, List.rel_append h.trace (.cons (.chat hc request houtcome) .nil)⟩

/-- What two loops hand on is alike. -/
def LoopsAlike (_ : Nat) (s s' : LoopState σ) : Prop :=
  s.working.Alike s'.working ∧ s.accumulated = s'.accumulated ∧ s.session.Alike s'.session

variable {agent agent' : Agent σ}

/-- Two agents that differ in their providers, which reply alike. -/
structure AgentsAlike (agent agent' : Agent σ) : Prop where
  provider : agent.provider.Alike agent'.provider
  registry : agent.registry = agent'.registry
  options : agent.options = agent'.options

theorem iterate_alike (alike : AgentsAlike agent agent') (schema : Option Json) (i : Nat)
    {s s' : LoopState σ} (h : LoopsAlike i s s') :
    Loop.Step.Related (LoopsAlike (i + 1)) (EndAlike LoopResult.Alike) (agent.iterate schema i s)
      (agent'.iterate schema i s') := by
  obtain ⟨working, accumulated, session⟩ := s
  obtain ⟨working', accumulated', session'⟩ := s'
  obtain ⟨hworking, haccumulated, hsession⟩ := h
  simp only at hworking haccumulated hsession
  subst haccumulated
  have hrequest : agent.request schema = agent'.request schema := by
    unfold Agent.request
    rw [alike.registry]
  obtain ⟨hchat, hafter⟩ :=
    chat_alike alike.provider hworking (agent'.request schema) hsession
  unfold Agent.iterate
  rw [hrequest]
  rcases hc : session.chat agent.provider working (agent'.request schema) with ⟨o, t⟩
  rcases hc' : session'.chat agent'.provider working' (agent'.request schema) with ⟨o', t'⟩
  rw [hc, hc'] at hchat hafter
  cases hchat with
  | error _ =>
    refine ⟨.error ?_, hafter⟩
    exact
      { kind := rfl
        message := fun hkind => absurd rfl hkind
        conversation := hworking
        usage := rfl
        iterations := rfl }
  | ok hresponse =>
    rename_i response response'
    have hadded := hworking.add hresponse.message
    simp only [hresponse.usage, message_hasToolUse hresponse.message]
    cases hu : hasToolUse response'.message with
    | false => exact ⟨.ok ⟨hadded, rfl, rfl⟩, hafter⟩
    | true =>
      obtain ⟨hresults, hdispatched⟩ :=
        dispatchTools_alike agent.registry hresponse.message hafter
      rw [alike.registry] at hresults hdispatched
      simp only [alike.registry, hresults]
      exact ⟨hadded.add (Message.Alike.refl _), rfl, hdispatched⟩

omit [Platform] in
theorem maxIterations_alike (alike : AgentsAlike agent agent') (overrides : RunOverrides) :
    agent.maxIterations overrides = agent'.maxIterations overrides := by
  unfold Agent.maxIterations
  rw [alike.options]

theorem executeLoop_alike (alike : AgentsAlike agent agent') {c c' : Conversation}
    (hc : c.Alike c') (overrides : RunOverrides) (schema : Option Json) {s s' : Session σ}
    (h : s.Alike s') :
    EndAlike LoopResult.Alike (agent.executeLoop c overrides schema s)
      (agent'.executeLoop c' overrides schema s') := by
  have hstart : LoopsAlike 0 ⟨c, 0, s⟩ ⟨c', 0, s'⟩ := ⟨hc, rfl, h⟩
  unfold Agent.executeLoop
  rw [maxIterations_alike alike]
  apply Loop.run_simulation LoopsAlike (EndAlike LoopResult.Alike) _ 0 0 hstart
  · intro k _ t t' ht
    rw [Nat.zero_add]
    exact iterate_alike alike schema k ht
  · intro t t' ht
    obtain ⟨hworking, haccumulated, hsession⟩ := ht
    refine ⟨.error ?_, hsession⟩
    exact
      { kind := rfl
        message := fun _ => rfl
        conversation := hworking
        usage := haccumulated
        iterations := rfl }

theorem executeText_alike (alike : AgentsAlike agent agent') {c c' : Conversation}
    (hc : c.Alike c') (overrides : RunOverrides) {s s' : Session σ} (h : s.Alike s') :
    EndAlike AgentResult.Alike (agent.executeText c overrides s)
      (agent'.executeText c' overrides s') := by
  obtain ⟨houtcome, hafter⟩ := executeLoop_alike alike hc overrides none h
  unfold Agent.executeText
  rcases he : agent.executeLoop c overrides none s with ⟨o, t⟩
  rcases he' : agent'.executeLoop c' overrides none s' with ⟨o', t'⟩
  rw [he, he'] at houtcome hafter
  cases houtcome with
  | error herror => exact ⟨.error herror, hafter⟩
  | ok hloop =>
    refine ⟨.ok ?_, hafter⟩
    exact
      { output := extractLastText_alike hloop.conversation
        conversation := hloop.conversation
        totalUsage := hloop.totalUsage
        iterations := hloop.iterations }

/-- What two retry loops hand on is alike. -/
def RetriesAlike (_ : Nat) (s s' : RetryState σ) : Prop :=
  s.working.Alike s'.working ∧ s.accumulated = s'.accumulated ∧
    s.totalIterations = s'.totalIterations ∧ s.lastError = s'.lastError ∧
    s.session.Alike s'.session

theorem attempt_alike (alike : AgentsAlike agent agent') (output : OutputType T)
    (overrides : RunOverrides) (cfg : StructuredConfig) (i : Nat) {s s' : RetryState σ}
    (h : RetriesAlike i s s') :
    Loop.Step.Related (RetriesAlike (i + 1)) (EndAlike AgentResult.Alike)
      (agent.attempt output overrides cfg i s) (agent'.attempt output overrides cfg i s') := by
  obtain ⟨working, accumulated, total, reason, error, session⟩ := s
  obtain ⟨working', accumulated', total', reason', error', session'⟩ := s'
  obtain ⟨hworking, haccumulated, htotal, herror, hsession⟩ := h
  simp only at hworking haccumulated htotal herror hsession
  subst haccumulated htotal herror
  obtain ⟨houtcome, hafter⟩ :=
    executeLoop_alike alike hworking overrides (some output.schema) hsession
  unfold Agent.attempt
  rcases he : agent.executeLoop working overrides (some output.schema) session with ⟨o, t⟩
  rcases he' : agent'.executeLoop working' overrides (some output.schema) session' with ⟨o', t'⟩
  rw [he, he'] at houtcome hafter
  cases houtcome with
  | error herror => exact ⟨.error herror, hafter⟩
  | ok hloop =>
    rename_i loop loop'
    simp only [extractLastText_alike hloop.conversation, hloop.totalUsage, hloop.iterations]
    cases output.decode (extractLastText loop'.conversation) with
    | ok value => exact ⟨.ok ⟨rfl, hloop.conversation, rfl, rfl⟩, hafter⟩
    | error e =>
      refine ⟨?_, rfl, rfl, rfl, hafter⟩
      by_cases hretry : i < cfg.maxRetries
      · simp only [hretry, if_true]
        exact hloop.conversation.add (Message.Alike.refl _)
      · simp only [hretry, if_false]
        exact hloop.conversation

theorem executeStructured_alike (alike : AgentsAlike agent agent') (output : OutputType T)
    {c c' : Conversation} (hc : c.Alike c') (overrides : RunOverrides) {s s' : Session σ}
    (h : s.Alike s') :
    EndAlike AgentResult.Alike (agent.executeStructured output c overrides s)
      (agent'.executeStructured output c' overrides s') := by
  have hstart : RetriesAlike 0 { working := c, session := s } { working := c', session := s' } :=
    ⟨hc, rfl, rfl, rfl, h⟩
  unfold Agent.executeStructured Agent.retryLoop
  apply Loop.run_simulation RetriesAlike (EndAlike AgentResult.Alike) _ 0 0 hstart
  · intro k _ t t' ht
    rw [Nat.zero_add]
    exact attempt_alike alike output overrides {} k ht
  · intro t t' ht
    obtain ⟨hworking, haccumulated, htotal, herror, hsession⟩ := ht
    refine ⟨.error ?_, hsession⟩
    exact
      { kind := rfl
        message := fun _ => by simp only [herror]
        conversation := hworking
        usage := haccumulated
        iterations := htotal }

omit [Platform] in
theorem applySystemPrompt_alike (alike : AgentsAlike agent agent') (c : Conversation)
    (overrides : RunOverrides) :
    (agent.applySystemPrompt c overrides).Alike (agent'.applySystemPrompt c overrides) := by
  unfold Agent.applySystemPrompt
  rw [alike.options]
  exact Conversation.Alike.refl _

omit [Platform] in
theorem promptConversation_alike (alike : AgentsAlike agent agent') (prompt : Str)
    (overrides : RunOverrides) :
    (agent.promptConversation prompt overrides).Alike
      (agent'.promptConversation prompt overrides) :=
  (applySystemPrompt_alike alike {} overrides).add (Message.Alike.refl _)

end

section

variable [Platform]

theorem deserializeUsage_encoded {inputKey outputKey : Str} {turn : ModelTurn} {json : Json}
    (h : HasUsage inputKey outputKey turn json) :
    deserializeUsage inputKey outputKey json = .ok turn.usage := by
  obtain ⟨usage, husage, hinput, houtput⟩ := h
  rw [deserializeUsage_of_index husage, Json.value_of_index hinput, Json.value_of_index houtput]
  simp only [Json.getInt, Int32.toInt32_toInt64]
  rfl

omit [Platform] in
theorem value_of_hasString {key : Str} {json : Json} (h : HasString key json) :
    ∃ s, json.value Json.getString key [] = .ok s := by
  obtain ⟨s, hs⟩ := h
  exact ⟨s, Json.value_of_index hs _ _⟩

omit [Platform] in
theorem textContent_eq (text : Str) : AnthropicProvider.textContent text =
    (OpenAiProvider.textBlocks text).map ContentBlock.toJson := by
  cases text <;> rfl

theorem message_decoded (turn : ModelTurn) :
    ∀ block ∈ turn.message.content, Resending.Decoded block := by
  intro block hblock
  rcases List.mem_append.mp hblock with hblock | hblock
  · cases ht : turn.text with
    | nil =>
      rw [ht] at hblock
      cases hblock
    | cons b bs =>
      rw [ht] at hblock
      cases List.mem_singleton.mp hblock
      exact .inl ⟨_, rfl⟩
  · obtain ⟨call, _, rfl⟩ := List.mem_map.mp hblock
    exact .inr ⟨_, rfl⟩

theorem anthropic_decodes {turn : ModelTurn} {json : Json}
    (h : AnthropicProvider.Encodes turn json) :
    ∃ response, AnthropicProvider.deserializeResponse json = .ok response ∧
      response.message.Alike turn.message ∧ response.usage = turn.usage := by
  obtain ⟨model, hmodel⟩ := value_of_hasString h.model
  obtain ⟨reason, hreason⟩ := value_of_hasString h.stopReason
  have hcontent : json.index (str "content") =
      .ok (.array (turn.message.content.map ContentBlock.toJson)) := by
    rw [h.content, textContent_eq, ModelTurn.message, List.map_append, List.map_map]
    rfl
  let other : LlmResponse := { model := model, finishReason := reason, usage := turn.usage }
  have sends : AnthropicProvider.Sends json _ other :=
    ⟨hmodel, hreason, deserializeUsage_encoded h.usage, hcontent⟩
  exact ⟨_, Resending.deserializeResponse_blocks (message_decoded turn) sends,
    Message.Alike.refl _, rfl⟩

variable {valid : Str → Prop}

/-- The arguments of a call survive being dumped to text. -/
theorem arguments_survive (glaze : ReadsTexts valid) (yields : YieldsStrings valid)
    (prints : PrintsDoubles) (cast : SaturatesCasts) (call : ToolCall)
    (finite : call.arguments.Finite) : Json.parse call.arguments.dump = .ok call.arguments := by
  obtain ⟨text, htext⟩ := call.parsed
  exact JsonRoundTrip.parse_dump_parse valid glaze yields prints cast htext finite

/-- With the text behind the calls, the message is alike. -/
theorem message_reordered (text : Str) (calls : List ToolCall) :
    Message.Alike
      ⟨.assistant, calls.map (fun call => .toolUse call.toolUse) ++
        OpenAiProvider.textBlocks text⟩
      ⟨.assistant, OpenAiProvider.textBlocks text ++
        calls.map (fun call => .toolUse call.toolUse)⟩ := by
  have htexts : (calls.map (fun call => ContentBlock.toolUse call.toolUse)).filterMap
      ContentBlock.text? = [] := by
    simp [List.filterMap_map, Function.comp_def, ContentBlock.text?]
  have hothers : (OpenAiProvider.textBlocks text).filter (fun block => block.text?.isNone) = [] := by
    cases text <;> rfl
  constructor
  · rfl
  · simp only [Message.texts, List.filterMap_append, htexts, List.nil_append, List.append_nil]
  · simp only [Message.others, List.filter_append, hothers, List.nil_append, List.append_nil]

theorem openAi_decodes (glaze : ReadsTexts valid) (yields : YieldsStrings valid)
    (prints : PrintsDoubles) (cast : SaturatesCasts) {turn : ModelTurn}
    (finite : ∀ call ∈ turn.calls, call.arguments.Finite) {json : Json}
    (h : OpenAiProvider.Encodes turn json) :
    ∃ response, OpenAiProvider.deserializeResponse json = .ok response ∧
      response.message.Alike turn.message ∧ response.usage = turn.usage := by
  obtain ⟨model, hmodel⟩ := value_of_hasString h.model
  obtain ⟨choice, rest, msg, hchoices, hfinish, hmessage, encodes⟩ := h.message
  obtain ⟨reason, hreason⟩ := value_of_hasString hfinish
  let other : LlmResponse := { model := model, finishReason := reason, usage := turn.usage }
  have sends : OpenAiProvider.Sends json msg other :=
    ⟨hmodel, deserializeUsage_encoded h.usage, choice, rest, hchoices, hreason, hmessage⟩
  have hcalls : msg.value Json.elements (str "tool_calls") [] =
      .ok ((turn.calls.map ToolCall.toolUse).map OpenAiProvider.toolCall) := by
    rw [encodes.toolCalls, List.map_map]
    rfl
  have hinputs : ∀ tool ∈ turn.calls.map ToolCall.toolUse,
      Json.parse tool.input.dump = .ok tool.input := by
    intro tool htool
    obtain ⟨call, hcall, rfl⟩ := List.mem_map.mp htool
    exact arguments_survive glaze yields prints cast call (finite call hcall)
  have htext : OpenAiProvider.contentText msg = turn.text := by
    rw [OpenAiProvider.contentText, encodes.content]
    cases turn.text <;> rfl
  refine ⟨_, Resending.deserializeResponse_message sends hcalls hinputs htext, ?_, rfl⟩
  rw [List.map_map]
  exact message_reordered turn.text turn.calls

theorem chat_gives {τ : Type} {replies : List Reply} {client : HttpClient (Unplayed replies × τ)}
    {encodes : ModelTurn → Json → Prop} (plays : client.Plays encodes)
    {deserialize : Json → Except StdException LlmResponse}
    (decodes : ∀ turn json, (Reply.turn turn).Finite → encodes turn json →
      ∃ response, deserialize json = .ok response ∧
        response.message.Alike turn.message ∧ response.usage = turn.usage)
    (finite : ∀ reply ∈ replies, reply.Finite)
    (api url : Str) (headers : HttpHeaders) (body : Json) (rest : Unplayed replies) (w : τ) :
    rest.next.Gives (client.chat api url headers (.ok body) deserialize (rest, w)).1 ∧
      (client.chat api url headers (.ok body) deserialize (rest, w)).2 = (rest.after, w) := by
  have hcarried := plays.carried url headers body.dump rest w
  have hworld := plays.world url headers body.dump rest w
  have hfinite : rest.next.Finite := by
    rcases rest.next_cases with hnext | hnext
    · exact finite _ hnext
    · rw [hnext]
      trivial
  unfold HttpClient.chat
  rcases hp : client.post url headers body.dump (rest, w) with ⟨o, v⟩
  rw [hp] at hcarried hworld
  simp only at hcarried hworld
  subst hworld
  generalize rest.next = reply at hcarried hfinite ⊢
  cases o with
  | error e =>
    cases reply with
    | turn sent => exact hcarried.elim
    | failure =>
      simp only [hp]
      exact ⟨trivial, trivial⟩
  | ok response =>
    cases reply with
    | failure =>
      simp only [Reply.CarriedBy] at hcarried
      simp only [hp, if_pos hcarried]
      exact ⟨trivial, trivial⟩
    | turn sent =>
      obtain ⟨⟨hlow, hhigh⟩, json, hjson, hencodes⟩ := hcarried
      have hstatus : ¬ (response.statusCode < 200 ∨ 300 ≤ response.statusCode) := by omega
      obtain ⟨decoded, hdecoded, hgives⟩ := decodes sent json hfinite hencodes
      have hbind : Json.parse response.body >>= deserialize = .ok decoded :=
        Except.bind_ok.mpr ⟨json, hjson, hdecoded⟩
      simp only [hp, if_neg hstatus, hbind]
      exact ⟨hgives, trivial⟩

/-- What two providers make of one reply is alike. -/
theorem gives_alike {reply : Reply} {o o' : Except StdException LlmResponse} (h : reply.Gives o)
    (h' : reply.Gives o') : ChatAlike o o' := by
  cases reply with
  | failure =>
    cases o with
    | ok response => exact h.elim
    | error e =>
      cases o' with
      | ok response => exact h'.elim
      | error e' => exact .error trivial
  | turn sent =>
    cases o with
    | error e => exact h.elim
    | ok response =>
      cases o' with
      | error e' => exact h'.elim
      | ok response' =>
        have hmessage := h.1
        have hmessage' := h'.1
        have halike : response.message.Alike response'.message :=
          { role := hmessage.role.trans hmessage'.role.symm
            texts := hmessage.texts.trans hmessage'.texts.symm
            others := hmessage.others.trans hmessage'.others.symm }
        exact .ok ⟨halike, h.2.trans h'.2.symm⟩

omit [Platform] in
/-- The schema that a request carries is the only thing that can keep either
provider from sending it. -/
theorem anthropic_request {σ : Type} (provider : AnthropicProvider σ) (c : Conversation)
    (request : ChatRequest) {schema : Option Json}
    (h : request.outputSchema.mapM closedSchema = .ok schema) :
    ∃ body, provider.serializeRequest c request = .ok body := by
  unfold AnthropicProvider.serializeRequest
  rw [h]
  exact ⟨_, rfl⟩

theorem openAi_request {σ : Type} (provider : OpenAiProvider σ) (c : Conversation)
    (request : ChatRequest) {schema : Option Json}
    (h : request.outputSchema.mapM closedSchema = .ok schema) :
    ∃ body, provider.serializeRequest c request = .ok body := by
  unfold OpenAiProvider.serializeRequest
  rw [h]
  exact ⟨_, rfl⟩

theorem providers_alike {τ : Type} (glaze : ReadsTexts valid) (yields : YieldsStrings valid)
    (prints : PrintsDoubles) (cast : SaturatesCasts) {replies : List Reply}
    (finite : ∀ reply ∈ replies, reply.Finite)
    {anthropic : AnthropicProvider (Unplayed replies × τ)}
    {openAi : OpenAiProvider (Unplayed replies × τ)}
    (hanthropic : anthropic.client.Plays AnthropicProvider.Encodes)
    (hopenAi : openAi.client.Plays OpenAiProvider.Encodes) :
    anthropic.chat.Alike openAi.chat := by
  intro c c' request w _
  obtain ⟨rest, w⟩ := w
  simp only [AnthropicProvider.chat, OpenAiProvider.chat]
  cases hs : request.outputSchema.mapM closedSchema with
  | error e =>
    have hbody : anthropic.serializeRequest c request = .error e := by
      unfold AnthropicProvider.serializeRequest
      rw [hs]
      rfl
    have hbody' : openAi.serializeRequest c' request = .error e := by
      unfold OpenAiProvider.serializeRequest
      rw [hs]
      rfl
    rw [hbody, hbody']
    exact ⟨.error trivial, rfl⟩
  | ok schema =>
    obtain ⟨body, hbody⟩ := anthropic_request anthropic c request hs
    obtain ⟨body', hbody'⟩ := openAi_request openAi c' request hs
    rw [hbody, hbody']
    obtain ⟨hgives, hworld⟩ := chat_gives hanthropic (fun _ _ _ h => anthropic_decodes h) finite
      (str "Anthropic") anthropic.endpointUrl anthropic.authHeaders body rest w
    obtain ⟨hgives', hworld'⟩ :=
      chat_gives hopenAi (fun _ _ hturn h => openAi_decodes glaze yields prints cast hturn h) finite
        (str "OpenAI") openAi.endpointUrl openAi.authHeaders body' rest w
    exact ⟨gives_alike hgives hgives', hworld.trans hworld'.symm⟩

/-- A run does not depend on which built-in provider carries it. -/
theorem runs_alike {τ : Type} (glaze : ReadsTexts valid) (yields : YieldsStrings valid)
    (prints : PrintsDoubles) (cast : SaturatesCasts) (replies : List Reply)
    (finite : ∀ reply ∈ replies, reply.Finite)
    (anthropic : AnthropicProvider (Unplayed replies × τ))
    (openAi : OpenAiProvider (Unplayed replies × τ))
    (hanthropic : anthropic.client.Plays AnthropicProvider.Encodes)
    (hopenAi : openAi.client.Plays OpenAiProvider.Encodes)
    (registry : ToolRegistry (Unplayed replies × τ)) (options : AgentOptions)
    (overrides : RunOverrides) (w : τ) :
    let agent : Agent (Unplayed replies × τ) := ⟨anthropic.chat, registry, options⟩
    let agent' : Agent (Unplayed replies × τ) := ⟨openAi.chat, registry, options⟩
    let session : Session (Unplayed replies × τ) := ⟨(⟨replies, List.suffix_rfl⟩, w), []⟩
    (∀ prompt, EndAlike AgentResult.Alike (agent.run prompt overrides session)
      (agent'.run prompt overrides session)) ∧
    (∀ c, EndAlike AgentResult.Alike (agent.runConversation c overrides session)
      (agent'.runConversation c overrides session)) ∧
    ∀ (T : Type) (output : OutputType T),
      (∀ prompt, EndAlike AgentResult.Alike (agent.runAs output prompt overrides session)
        (agent'.runAs output prompt overrides session)) ∧
      ∀ c, EndAlike AgentResult.Alike (agent.runConversationAs output c overrides session)
        (agent'.runConversationAs output c overrides session) := by
  intro agent agent' session
  have alike : AgentsAlike agent agent' :=
    ⟨providers_alike glaze yields prints cast finite hanthropic hopenAi, rfl, rfl⟩
  have hsession : session.Alike session := ⟨rfl, .nil⟩
  refine ⟨?_, ?_, ?_⟩
  · intro prompt
    exact executeText_alike alike (promptConversation_alike alike prompt overrides) overrides
      hsession
  · intro c
    exact executeText_alike alike (applySystemPrompt_alike alike c overrides) overrides hsession
  · intro T output
    constructor
    · intro prompt
      exact executeStructured_alike alike output (promptConversation_alike alike prompt overrides)
        overrides hsession
    · intro c
      exact executeStructured_alike alike output (applySystemPrompt_alike alike c overrides)
        overrides hsession

structure Legible (turn : ModelTurn) : Prop where
  text : turn.text.IsUtf8
  names : ∀ call ∈ turn.calls, call.id.IsUtf8 ∧ call.name.IsUtf8
  arguments : ∀ call ∈ turn.calls,
    call.arguments.Lasting Str.IsUtf8 ∧ call.arguments.dump.IsUtf8

def usageJson (inputKey outputKey : Str) (turn : ModelTurn) : Json :=
  .objectOf [(inputKey, .integer turn.inputTokens.toInt64),
    (outputKey, .integer turn.outputTokens.toInt64)]

def anthropicBody (turn : ModelTurn) : Json :=
  .objectOf [(str "model", .string (str "claude")), (str "stop_reason", .string (str "end_turn")),
    (str "content", .array (AnthropicProvider.textContent turn.text ++
      turn.calls.map AnthropicProvider.toolUseContent)),
    (str "usage", usageJson (str "input_tokens") (str "output_tokens") turn)]

def openAiBody (turn : ModelTurn) : Json :=
  .objectOf [(str "model", .string (str "gpt")),
    (str "choices", .array [.objectOf [(str "finish_reason", .string (str "stop")),
      (str "message", .objectOf [
        (str "content", if turn.text = [] then .null else .string turn.text),
        (str "tool_calls", .array (turn.calls.map OpenAiProvider.toolCallContent))])]]),
    (str "usage", usageJson (str "prompt_tokens") (str "completion_tokens") turn)]

theorem encodes_anthropicBody (turn : ModelTurn) :
    AnthropicProvider.Encodes turn (anthropicBody turn) where
  model := ⟨_, rfl⟩
  stopReason := ⟨_, rfl⟩
  content := rfl
  usage := ⟨_, rfl, rfl, rfl⟩

theorem encodes_openAiBody (turn : ModelTurn) :
    OpenAiProvider.Encodes turn (openAiBody turn) where
  model := ⟨_, rfl⟩
  message := ⟨_, _, _, rfl, ⟨_, rfl⟩, rfl, rfl, rfl⟩
  usage := ⟨_, rfl, rfl, rfl⟩

theorem lasting_anthropicBody {turn : ModelTurn} (h : Legible turn) :
    (anthropicBody turn).Lasting Str.IsUtf8 := by
  have hcalls : ∀ call ∈ turn.calls,
      (AnthropicProvider.toolUseContent call).Lasting Str.IsUtf8 := by
    intro call hcall
    simp [AnthropicProvider.toolUseContent, h.names call hcall, h.arguments call hcall]
  have htext : ∀ block ∈ AnthropicProvider.textContent turn.text, block.Lasting Str.IsUtf8 := by
    unfold AnthropicProvider.textContent
    split <;> simp [h.text]
  have hcontent : (Json.array (AnthropicProvider.textContent turn.text ++
      turn.calls.map AnthropicProvider.toolUseContent)).Lasting Str.IsUtf8 := by
    simp only [lasting_array, List.forall_mem_append, List.forall_mem_map]
    exact ⟨htext, hcalls⟩
  simp [anthropicBody, usageJson, hcontent]

theorem lasting_openAiBody {turn : ModelTurn} (h : Legible turn) :
    (openAiBody turn).Lasting Str.IsUtf8 := by
  have htext : (if turn.text = [] then .null else .string turn.text : Json).Lasting
      Str.IsUtf8 := by
    split <;> simp [h.text]
  have hcalls : (Json.array (turn.calls.map OpenAiProvider.toolCallContent)).Lasting
      Str.IsUtf8 := by
    simp only [lasting_array, List.forall_mem_map]
    intro call hcall
    simp [OpenAiProvider.toolCallContent, h.names call hcall, h.arguments call hcall]
  have hmessage : (Json.objectOf [
      (str "content", if turn.text = [] then .null else .string turn.text),
      (str "tool_calls", .array (turn.calls.map OpenAiProvider.toolCallContent))]).Lasting
      Str.IsUtf8 := by
    apply lasting_objectOf
    simp only [List.forall_mem_cons]
    exact ⟨⟨Str.isUtf8_str _, htext⟩, ⟨Str.isUtf8_str _, hcalls⟩, by simp⟩
  simp [openAiBody, usageJson, hmessage]

def answer (encode : ModelTurn → Json) : Reply → HttpResponse
  | .turn turn => { statusCode := 200, body := (encode turn).dump }
  | .failure => { statusCode := 503 }

/-- A client that sends each turn as the text of its encoding. -/
def playback {τ : Type} {replies : List Reply} (encode : ModelTurn → Json) :
    HttpClient (Unplayed replies × τ) where
  post _ _ _ world := (.ok (answer encode world.1.next), world.1.after, world.2)

theorem plays_playback {τ : Type} {replies : List Reply} {encode : ModelTurn → Json}
    {encodes : ModelTurn → Json → Prop} (glaze : ReadsTexts Str.IsUtf8) (prints : PrintsDoubles)
    (hencodes : ∀ turn, encodes turn (encode turn))
    (hlasting : ∀ turn, Legible turn → (encode turn).Lasting Str.IsUtf8)
    (legible : ∀ turn, .turn turn ∈ replies → Legible turn) :
    (playback encode : HttpClient (Unplayed replies × τ)).Plays encodes where
  carried := by
    intro url headers body rest w
    change rest.next.CarriedBy encodes (.ok (answer encode rest.next))
    have hnext := rest.next_cases
    cases hreply : rest.next with
    | failure => exact Or.inr (by simp [answer])
    | turn turn =>
      have hturn : Legible turn := by
        rw [hreply] at hnext
        exact legible turn (hnext.resolve_right (by simp))
      have hread := parse_lasting glaze prints (hlasting turn hturn)
      exact ⟨⟨by simp [answer], by simp [answer]⟩, encode turn, hread, hencodes turn⟩
  world := fun _ _ _ _ _ => rfl

end

def addArguments : Json := .objectOf [(str "terms", .string (str "2, 3"))]

theorem lasting_addArguments : @Json.Lasting .utf8 Str.IsUtf8 addArguments := by
  let platform := Platform.utf8
  simp [addArguments]

def addCall : @ToolCall .utf8 :=
  letI := Platform.utf8
  { id := str "t1", name := str "add", arguments := addArguments
    parsed := ⟨addArguments.dump, JsonRoundTrip.parse_utf8 lasting_addArguments⟩ }

/-- A turn that calls the tool, the answer, and a failure that no run gets to see. -/
def replies : List (@Reply .utf8) :=
  letI := Platform.utf8
  [.turn { text := str "Let me see.", calls := [addCall], inputTokens := 7, outputTokens := 3 },
    .turn { text := str "5", inputTokens := 12, outputTokens := 1 }, .failure]

theorem finite_replies : ∀ reply ∈ replies, @Reply.Finite .utf8 reply := by
  let platform := Platform.utf8
  have hcall : addCall.arguments.Finite := lasting_addArguments.finite
  simp [replies, Reply.Finite, hcall]

theorem legible_replies (turn : @ModelTurn .utf8) (h : @Reply.turn .utf8 turn ∈ replies) :
    @Legible .utf8 turn := by
  let platform := Platform.utf8
  simp only [replies, List.mem_cons, Reply.turn.injEq, reduceCtorEq, List.not_mem_nil,
    or_false] at h
  rcases h with rfl | rfl
  · refine ⟨by simp, by simp [addCall], ?_⟩
    intro call hcall
    cases List.mem_singleton.mp hcall
    exact ⟨lasting_addArguments, by decide +kernel⟩
  · exact ⟨by simp, by simp, by simp⟩

def config : ProviderConfig := { apiKey := str "key", model := str "model" }

/-- A tool that counts its calls. -/
def counting : ToolRegistry (@Unplayed .utf8 replies × Nat) :=
  ToolRegistry.add {}
    { name := str "add", description := [], parameters := .null
      execute := fun _ world => (.ok (.string (str "5")), world.1, world.2 + 1) }

theorem runs_alike_counting :
    letI := Platform.utf8
    let anthropic : AnthropicProvider (Unplayed replies × Nat) :=
      .make (playback anthropicBody) config
    let openAi : OpenAiProvider (Unplayed replies × Nat) := .make (playback openAiBody) config
    let session : Session (Unplayed replies × Nat) := ⟨(⟨replies, List.suffix_rfl⟩, 0), []⟩
    EndAlike AgentResult.Alike
      (Agent.run ⟨anthropic.chat, counting, {}⟩ (str "2 + 3?") {} session)
      (Agent.run ⟨openAi.chat, counting, {}⟩ (str "2 + 3?") {} session) := by
  let platform := Platform.utf8
  intro anthropic openAi session
  have glaze := Platform.utf8_readsTexts
  have prints := Platform.utf8_printsDoubles
  have hanthropic : anthropic.client.Plays AnthropicProvider.Encodes :=
    plays_playback glaze prints encodes_anthropicBody (fun _ => lasting_anthropicBody)
      legible_replies
  have hopenAi : openAi.client.Plays OpenAiProvider.Encodes :=
    plays_playback glaze prints encodes_openAiBody (fun _ => lasting_openAiBody) legible_replies
  exact (runs_alike glaze Platform.utf8_yieldsStrings prints Platform.utf8_saturatesCasts replies
    finite_replies anthropic openAi hanthropic hopenAi counting {} {} 0).1 _

end Forgeant.Proofs.Interchange
