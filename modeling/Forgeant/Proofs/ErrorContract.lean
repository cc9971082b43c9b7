import Forgeant.Proofs.NullMembers
import Forgeant.Throwing

namespace Forgeant.Proofs.ErrorContract
open Throwing

theorem std_bind {α β : Type} (x : Except StdException α) (f : α → Except StdException β) :
    std (x >>= f) = std x >>= fun a => std (f a) := by
  cases x <;> rfl

/-- The test before `choices[0]` leaves no empty array to it. -/
theorem firstChoice_checked (json : Json) :
    Throwing.firstChoice json = std (OpenAiProvider.firstChoice json) := by
  unfold Throwing.firstChoice choicesMissing OpenAiProvider.firstChoice
  cases hc : json.contains (str "choices") with
  | false => rfl
  | true =>
    obtain ⟨choices, hchoices⟩ := Json.index_of_contains hc
    rw [hchoices]
    cases choices with
    | array elems => cases elems <;> rfl
    | object members => cases members <;> rfl
    | _ => rfl

def TextsAndUses (_ : Json) (content : List ContentBlock) : Prop :=
  ∀ block ∈ content, (∃ b, block = .text b) ∨ ∃ b, block = .toolUse b

/-- Whatever the value, decoding it returns an assistant message of this shape
or throws a `std::exception`. -/
def DecodesSafely (decode : Json → Except Fault LlmResponse)
    (shape : Json → List ContentBlock → Prop) : Prop :=
  ∀ json,
    (∃ response, decode json = .ok response ∧ response.message.role = .assistant ∧
      shape json response.message.content) ∨
    ∃ e, decode json = .error (.std e)

theorem decodesSafely_std {decode : Json → Except StdException LlmResponse}
    {shape : Json → List ContentBlock → Prop}
    (h : ∀ json response, decode json = .ok response →
      response.message.role = .assistant ∧ shape json response.message.content) :
    DecodesSafely (fun json => std (decode json)) shape := by
  intro json
  cases hd : decode json with
  | ok response => exact .inl ⟨response, congrArg std hd, h json response hd⟩
  | error e => exact .inr ⟨e, congrArg std hd⟩

theorem textsAndUses_of_ok {json : Json} {response : LlmResponse}
    (h : AnthropicProvider.deserializeResponse json = .ok response) :
    TextsAndUses json response.message.content := by
  intro block hblock
  rcases AnthropicProvider.deserializeContent_ok.mp
      (AnthropicProvider.deserializeResponse_ok.mp h).content with
    ⟨_, hnil⟩ | ⟨blocks, parsed, _, hparsed, hcontent⟩
  · rw [hnil] at hblock
    cases hblock
  · rw [hcontent] at hblock
    obtain ⟨o, ho, heq⟩ := List.mem_filterMap.mp hblock
    obtain ⟨_, _, hread⟩ := Except.mapM_mem hparsed ho
    rcases AnthropicProvider.deserializeBlock_cases hread with rfl | ⟨b, rfl⟩ | ⟨b, rfl⟩
    · cases heq
    · cases heq
      exact .inl ⟨b, rfl⟩
    · cases heq
      exact .inr ⟨b, rfl⟩

def toolCallsPath : Path :=
  [.key (str "choices"), .index 0, .key (str "message"), .key (str "tool_calls")]

/-- The tool calls of a response, where it has them. -/
def toolCallsOf (json : Json) : List Json :=
  match json.node? toolCallsPath with
  | some (.array calls) => calls
  | _ => []

section

variable {σ : Type}

/-- A result or an `AgentRunError`, in the world that the session ends in. -/
def leaves {α : Type} (p : Except AgentRunError α × Session σ) : Except Fault α × σ :=
  (p.1.mapError .run, p.2.world)

/-- A run that returns or throws an `AgentRunError`, and nothing else. -/
def Documented {α : Type} (outcome : Except Fault α) : Prop :=
  (∃ result, outcome = .ok result) ∨ ∃ e, outcome = .error (.run e)

theorem documented_leaves {α : Type} (p : Except AgentRunError α × Session σ) :
    Documented (leaves p).1 := by
  obtain ⟨outcome, t⟩ := p
  cases outcome with
  | ok result => exact .inl ⟨result, rfl⟩
  | error e => exact .inr ⟨e, rfl⟩

end

section

variable {σ T : Type} [Platform]

/-- One tool use for each tool call, in their order, and then at most one text,
which is not empty. -/
def UsesThenText (json : Json) (content : List ContentBlock) : Prop :=
  ∃ (uses : List ToolUseBlock) (texts : List TextBlock),
    content = uses.map .toolUse ++ texts.map .text ∧
    List.Forall₂ (fun call use => OpenAiProvider.deserializeToolCall call = .ok (.toolUse use))
      (toolCallsOf json) uses ∧
    texts.length ≤ 1 ∧ ∀ b ∈ texts, b.text ≠ []

theorem usesThenText_of_ok {json : Json} {response : LlmResponse}
    (h : OpenAiProvider.deserializeResponse json = .ok response) :
    UsesThenText json response.message.content := by
  obtain ⟨choice, msg, blocks, texts, h⟩ := OpenAiProvider.deserializeResponse_ok.mp h
  have hnode : json.node? toolCallsPath = msg.node? [.key (str "tool_calls")] := by
    rw [← NullMembers.node?_message h]
    rfl
  obtain ⟨calls, uses, rfl, hcalls, huses⟩ :=
    OpenAiProvider.deserializeToolCalls_uses h.toolCalls
  have hcallsOf : toolCallsOf json = calls := by
    unfold toolCallsOf
    rw [hnode]
    rcases hcalls with ⟨hmissing, rfl⟩ | hindex
    · rw [Json.node?_of_missing hmissing]
    · rw [Json.node?_of_index hindex]
      rfl
  rw [← hcallsOf] at huses
  rw [h.content_eq]
  cases ht : OpenAiProvider.contentText msg with
  | nil => exact ⟨uses, [], by simp [OpenAiProvider.textBlocks], huses, by simp, by simp⟩
  | cons b bs =>
    exact ⟨uses, [⟨b :: bs⟩], by simp [OpenAiProvider.textBlocks], huses, by simp, by simp⟩

theorem deserializeOpenAi_eq (json : Json) :
    deserializeOpenAi json = std (OpenAiProvider.deserializeResponse json) := by
  unfold deserializeOpenAi OpenAiProvider.deserializeResponse
  simp only [std_bind, firstChoice_checked]
  rfl

/-- The call behaves as the model of the provider has it, which knows no fault
but an exception. -/
def Mirrors (chat : Conversation → ChatRequest → Effect σ LlmResponse) (provider : LlmProvider σ) :
    Prop :=
  ∀ c request w, (chat c request).run w =
    (std (provider.chat c request w).1, (provider.chat c request w).2)

theorem chat_eq (client : HttpClient σ) (api url : Str) (headers : HttpHeaders)
    (body : Except StdException Json) (deserialize : Json → Except StdException LlmResponse)
    (w : σ) :
    (Throwing.chat client api url headers body (fun json => std (deserialize json))).run w =
      (std (client.chat api url headers body deserialize w).1,
        (client.chat api url headers body deserialize w).2) := by
  unfold Throwing.chat HttpClient.chat
  cases body with
  | error e => rfl
  | ok body =>
    have hbody : (Effect.lift (std (.ok body))).run w = (.ok body, w) := rfl
    rw [Effect.run_bind_ok hbody]
    have hpost : (Effect.call (client.post url headers body.dump)).run w =
        (std (client.post url headers body.dump w).1, (client.post url headers body.dump w).2) :=
      rfl
    rcases hp : client.post url headers body.dump w with ⟨e | reply, v⟩
    · rw [hp] at hpost
      rw [Effect.run_bind_error hpost]
      simp only [hp]
      rfl
    · rw [hp] at hpost
      rw [Effect.run_bind_ok hpost]
      simp only [hp]
      by_cases hs : reply.statusCode < 200 ∨ 300 ≤ reply.statusCode
      · simp only [hs, if_true]
        rfl
      · simp only [hs, if_false]
        cases Json.parse reply.body with
        | error e => rfl
        | ok json => rfl

theorem chatOpenAi_mirrors (provider : OpenAiProvider σ) :
    Mirrors (chatOpenAi provider) provider.chat := by
  intro c request w
  unfold chatOpenAi
  rw [show deserializeOpenAi = _ from funext deserializeOpenAi_eq]
  exact chat_eq _ _ _ _ _ _ w

theorem chatAnthropic_mirrors (provider : AnthropicProvider σ) :
    Mirrors (chatAnthropic provider) provider.chat := by
  intro c request w
  exact chat_eq _ _ _ _ _ _ w

theorem dispatchTool_eq (registry : ToolRegistry σ) (call : ToolUseBlock) (s : Session σ) :
    (dispatchTool registry call).run s.world =
      (.ok (.toolResult (toolResult call (s.execute registry call.name call.input).1)),
        (s.execute registry call.name call.input).2.world) := by
  have hexecute : (Effect.call (registry.execute call.name call.input)).run s.world =
      (std (registry.execute call.name call.input s.world).1,
        (registry.execute call.name call.input s.world).2) := rfl
  unfold dispatchTool Session.execute
  rcases he : registry.execute call.name call.input s.world with ⟨e | output, v⟩
  · rw [he] at hexecute
    rw [Effect.run_catchStd_std (Effect.run_bind_error hexecute _)]
    rfl
  · rw [he] at hexecute
    rw [Effect.run_catchStd_ok ((Effect.run_bind_ok hexecute _).trans rfl)]
    rfl

theorem dispatchTools_eq (registry : ToolRegistry σ) (blocks results : List ContentBlock)
    (s : Session σ) :
    ∃ added t, blocks.foldl (dispatchBlock registry) (results, s) = (results ++ added, t) ∧
      (Throwing.dispatchTools registry blocks).run s.world = (.ok added, t.world) := by
  induction blocks generalizing results s with
  | nil => exact ⟨[], s, by simp, rfl⟩
  | cons block blocks ih =>
    cases block with
    | text b => exact ih results s
    | toolResult b => exact ih results s
    | toolUse call =>
      have hcall := dispatchTool_eq registry call s
      rcases he : s.execute registry call.name call.input with ⟨outcome, u⟩
      rw [he] at hcall
      obtain ⟨added, t, hfold, hadded⟩ := ih (results ++ [.toolResult (toolResult call outcome)]) u
      refine ⟨.toolResult (toolResult call outcome) :: added, t, ?_, ?_⟩
      · simp only [List.foldl_cons, dispatchBlock, he, hfold, List.append_assoc,
          List.singleton_append]
      · rw [Throwing.dispatchTools, Effect.run_bind_ok hcall, Effect.run_bind_ok hadded]
        rfl

variable {agent : Agent σ} {chat : Conversation → ChatRequest → Effect σ LlmResponse}

theorem iterations_eq (h : Mirrors chat agent.provider) (schema : Option Json) (cap : Int)
    (n i : Nat) (working : Conversation) (accumulated : Usage) (s : Session σ) :
    (iterations agent chat schema cap n i working accumulated).run s.world =
      leaves (Loop.run (agent.iterate schema)
        (fun s => (.error
          { kind := .maxIterations,
            message := str "max_iterations reached without a terminal response",
            conversation := s.working, usage := s.accumulated, iterations := cap,
            finishReason := str "max_iterations" }, s.session))
        n i ⟨working, accumulated, s⟩) := by
  induction n generalizing i working accumulated s with
  | zero => rfl
  | succ n ih =>
    rcases hc : s.chat agent.provider working (agent.request schema) with ⟨o, t⟩
    have hchat : (chat working (agent.request schema)).run s.world = (std o, t.world) := by
      rw [h]
      simp only [Session.chat, Prod.mk.injEq] at hc
      rw [← hc.1, ← hc.2]
    rw [iterations, Loop.run]
    simp only [Agent.iterate, hc]
    cases o with
    | error e =>
      rw [Effect.run_bind_error ((Effect.run_catchStd_std hchat).trans rfl)]
      rfl
    | ok response =>
      rw [Effect.run_bind_ok (Effect.run_catchStd_ok hchat)]
      cases hu : hasToolUse response.message with
      | false =>
        simp only [hu]
        rfl
      | true =>
        obtain ⟨results, u, hfold, hresults⟩ :=
          dispatchTools_eq agent.registry response.message.content [] t
        rw [List.nil_append] at hfold
        simp only [Bool.not_true, Bool.false_eq_true, if_false]
        rw [Effect.run_bind_ok hresults, ih]
        simp only [hu, dispatchTools, hfold, Bool.not_true, Bool.false_eq_true, if_false]

theorem executeLoop_eq (h : Mirrors chat agent.provider) (working : Conversation)
    (overrides : RunOverrides) (schema : Option Json) (s : Session σ) :
    (Throwing.executeLoop agent chat working overrides schema).run s.world =
      leaves (agent.executeLoop working overrides schema s) :=
  iterations_eq h schema _ _ 0 working 0 s

theorem executeText_eq (h : Mirrors chat agent.provider) (working : Conversation)
    (overrides : RunOverrides) (s : Session σ) :
    (Throwing.executeText agent chat working overrides).run s.world =
      leaves (agent.executeText working overrides s) := by
  have hloop := executeLoop_eq h working overrides none s
  unfold Throwing.executeText Agent.executeText
  rcases he : agent.executeLoop working overrides none s with ⟨e | loop, t⟩
  · rw [he] at hloop
    exact Effect.run_bind_error hloop _
  · rw [he] at hloop
    exact Effect.run_bind_ok hloop _

/-- The `try` block of the retry loop. -/
theorem tried_eq (output : OutputType T) (text : Str) (w : σ) :
    (Effect.catchStd
      (do
        let json ← .lift (std (Json.parse text))
        let value ← .lift (std (output.get json))
        return Except.ok value)
      (fun what => return Except.error what)).run w =
      (.ok ((output.decode text).mapError StdException.what), w) := by
  unfold OutputType.decode
  cases Json.parse text with
  | error e => rfl
  | ok json =>
    change _ = (Except.ok ((output.get json).mapError _), w)
    cases hvalue : output.get json with
    | error e =>
      have hget : (Effect.lift (std (output.get json))).run w = (.error (.std e), w) := by
        rw [hvalue]
        rfl
      exact Effect.run_catchStd_std
        ((Effect.run_bind_ok rfl _).trans (Effect.run_bind_error hget _))
    | ok value =>
      have hget : (Effect.lift (std (output.get json))).run w = (.ok value, w) := by
        rw [hvalue]
        rfl
      exact Effect.run_catchStd_ok ((Effect.run_bind_ok rfl _).trans (Effect.run_bind_ok hget _))

theorem attempts_eq (h : Mirrors chat agent.provider) (output : OutputType T)
    (overrides : RunOverrides) (cfg : StructuredConfig) (n i : Nat) (r : RetryState σ) :
    (attempts agent chat output overrides cfg n i r.working r.accumulated r.totalIterations
      r.lastFinishReason r.lastError).run r.session.world =
      leaves (Loop.run (agent.attempt output overrides cfg)
        (fun s => (.error
          { kind := .structuredParse, message := structuredParseMessage cfg s.lastError,
            conversation := s.working, usage := s.accumulated, iterations := s.totalIterations,
            finishReason := s.lastFinishReason }, s.session))
        n i r) := by
  induction n generalizing i r with
  | zero => rfl
  | succ n ih =>
    have hloop := executeLoop_eq h r.working overrides (some output.schema) r.session
    rw [attempts, Loop.run]
    rcases he : agent.executeLoop r.working overrides (some output.schema) r.session with
      ⟨e | loop, t⟩
    · rw [he] at hloop
      rw [Effect.run_bind_error hloop]
      simp only [Agent.attempt, he]
      rfl
    · rw [he] at hloop
      rw [Effect.run_bind_ok hloop]
      have htried := tried_eq output (extractLastText loop.conversation) t.world
      rw [Effect.run_bind_ok htried]
      cases hd : output.decode (extractLastText loop.conversation) with
      | ok value =>
        simp only [Agent.attempt, he, hd]
        rfl
      | error e =>
        simp only [Agent.attempt, he, hd]
        exact ih (i + 1)
          { working :=
              if i < cfg.maxRetries then loop.conversation.add (correctiveMessage e.what)
              else loop.conversation
            accumulated := r.accumulated + loop.totalUsage,
            totalIterations := r.totalIterations + loop.iterations,
            lastFinishReason := loop.finishReason, lastError := e.what, session := t }

theorem executeStructured_eq (h : Mirrors chat agent.provider) (output : OutputType T)
    (working : Conversation) (overrides : RunOverrides) (s : Session σ) :
    (Throwing.executeStructured agent chat output working overrides).run s.world =
      leaves (agent.executeStructured output working overrides s) :=
  attempts_eq h output overrides {} _ 0 { working := working, session := s }

/-- Every kind of run of the agent over this chat call is documented. -/
def RunsDocumented (agent : Agent σ) (chat : Conversation → ChatRequest → Effect σ LlmResponse) :
    Prop :=
  ∀ (T : Type) (output : OutputType T) (prompt : Str) (c : Conversation) (overrides : RunOverrides)
    (w : σ),
    Documented ((Throwing.run agent chat prompt overrides).run w).1 ∧
    Documented ((Throwing.runConversation agent chat c overrides).run w).1 ∧
    Documented ((Throwing.runAs agent chat output prompt overrides).run w).1 ∧
    Documented ((Throwing.runConversationAs agent chat output c overrides).run w).1

theorem runsDocumented_of_mirrors (h : Mirrors chat agent.provider) :
    RunsDocumented agent chat := by
  intro T output prompt c overrides w
  have htext (working : Conversation) :
      Documented ((Throwing.executeText agent chat working overrides).run w).1 := by
    rw [executeText_eq h working overrides ⟨w, []⟩]
    exact documented_leaves _
  have hstructured (working : Conversation) :
      Documented ((Throwing.executeStructured agent chat output working overrides).run w).1 := by
    rw [executeStructured_eq h output working overrides ⟨w, []⟩]
    exact documented_leaves _
  exact ⟨htext _, htext _, hstructured _, hstructured _⟩

/-- The decoders return an assistant message of texts and tool uses or throw a
`std::exception`, and reach no element that is not there. So the runs of an
agent on either provider return or throw an `AgentRunError`. -/
theorem only_documented_errors (anthropic : AnthropicProvider σ) (openAi : OpenAiProvider σ)
    (registry : ToolRegistry σ) (options : AgentOptions) :
    DecodesSafely deserializeOpenAi UsesThenText ∧
    DecodesSafely deserializeAnthropic TextsAndUses ∧
    RunsDocumented ⟨anthropic.chat, registry, options⟩ (chatAnthropic anthropic) ∧
    RunsDocumented ⟨openAi.chat, registry, options⟩ (chatOpenAi openAi) := by
  refine ⟨?_, ?_, runsDocumented_of_mirrors (chatAnthropic_mirrors anthropic),
    runsDocumented_of_mirrors (chatOpenAi_mirrors openAi)⟩
  · rw [show deserializeOpenAi = _ from funext deserializeOpenAi_eq]
    exact decodesSafely_std (fun json response h =>
      ⟨OpenAiProvider.deserializeResponse_role h, usesThenText_of_ok h⟩)
  · exact decodesSafely_std (fun json response h =>
      ⟨AnthropicProvider.deserializeResponse_role h, textsAndUses_of_ok h⟩)

end

end Forgeant.Proofs.ErrorContract
