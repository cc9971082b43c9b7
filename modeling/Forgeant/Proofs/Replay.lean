import Forgeant.Replay

namespace Forgeant.Proofs.Replay

section Replays

variable {σ : Type} {provider : LlmProvider σ} {registry : ToolRegistry σ} {w u v : σ}
  {es fs : List Event}

theorem replays_nil : Replays provider registry w [] v ↔ v = w := by
  constructor
  · intro h
    cases h
    rfl
  · rintro rfl
    exact .nil _

theorem replays_chat {c : Conversation} {request : ChatRequest}
    {outcome : Except StdException LlmResponse} :
    Replays provider registry w (.chat c request outcome :: es) v ↔
      ∃ u, provider.chat c request w = (outcome, u) ∧ Replays provider registry u es v := by
  constructor
  · intro h
    cases h with
    | chat h rest => exact ⟨_, h, rest⟩
  · intro ⟨u, h, rest⟩
    exact .chat h rest

theorem replays_execute {name : Str} {input : Json} {outcome : Except StdException Json} :
    Replays provider registry w (.execute name input outcome :: es) v ↔
      ∃ u, registry.execute name input w = (outcome, u) ∧ Replays provider registry u es v := by
  constructor
  · intro h
    cases h with
    | execute h rest => exact ⟨_, h, rest⟩
  · intro ⟨u, h, rest⟩
    exact .execute h rest

theorem replays_append :
    Replays provider registry w (es ++ fs) v ↔
      ∃ u, Replays provider registry w es u ∧ Replays provider registry u fs v := by
  induction es generalizing w with
  | nil => simp [replays_nil]
  | cons e es ih =>
    cases e with
    | chat c request outcome =>
      rw [List.cons_append, replays_chat]
      simp only [replays_chat, ih]
      constructor
      · intro ⟨x, hx, u, hu, hv⟩
        exact ⟨u, ⟨x, hx, hu⟩, hv⟩
      · intro ⟨u, ⟨x, hx, hu⟩, hv⟩
        exact ⟨x, hx, u, hu, hv⟩
    | execute name input outcome =>
      rw [List.cons_append, replays_execute]
      simp only [replays_execute, ih]
      constructor
      · intro ⟨x, hx, u, hu, hv⟩
        exact ⟨u, ⟨x, hx, hu⟩, hv⟩
      · intro ⟨u, ⟨x, hx, hu⟩, hv⟩
        exact ⟨x, hx, u, hu, hv⟩

end Replays

section Replayable

variable {σ σ' α β : Type} {agent : Agent σ} {agent' : Agent σ'}

theorem replayable_pure (a : α) : Replayable agent agent' (fun s => (a, s)) (fun s => (a, s)) := by
  intro s
  refine ⟨[], .refl s, ?_⟩
  intro s' v h
  rw [replays_nil.mp h, List.append_nil]

theorem replayable_chat (c : Conversation) (request : ChatRequest) :
    Replayable agent agent' (fun s => s.chat agent.provider c request)
      (fun s => s.chat agent'.provider c request) := by
  intro s
  refine ⟨[_], Session.chat_extends rfl, ?_⟩
  intro s' v h
  obtain ⟨u, hchat, hrest⟩ := replays_chat.mp h
  cases replays_nil.mp hrest
  simp only [Session.chat, hchat]

theorem replayable_execute (name : Str) (input : Json) :
    Replayable agent agent' (fun s => s.execute agent.registry name input)
      (fun s => s.execute agent'.registry name input) := by
  intro s
  refine ⟨[.execute name input (agent.registry.execute name input s.world).1],
    Session.execute_extends rfl, ?_⟩
  intro s' v h
  obtain ⟨u, hexecute, hrest⟩ := replays_execute.mp h
  cases replays_nil.mp hrest
  show ((agent'.registry.execute name input s'.world).1,
    (⟨(agent'.registry.execute name input s'.world).2,
      s'.trace ++ [.execute name input (agent'.registry.execute name input s'.world).1]⟩ :
      Session σ')) = _
  rw [hexecute]
  rfl

theorem replayable_bind {f : Session σ → α × Session σ} {f' : Session σ' → α × Session σ'}
    {g : α → Session σ → β × Session σ} {g' : α → Session σ' → β × Session σ'}
    (hf : Replayable agent agent' f f') (hg : ∀ a, Replayable agent agent' (g a) (g' a)) :
    Replayable agent agent' (fun s => g (f s).1 (f s).2) (fun s => g' (f' s).1 (f' s).2) := by
  intro s
  obtain ⟨es, hes, hf⟩ := hf s
  obtain ⟨fs, hfs, hg⟩ := hg (f s).1 (f s).2
  refine ⟨es ++ fs, hes.trans hfs, ?_⟩
  intro s' v h
  obtain ⟨u, hu, hv⟩ := replays_append.mp h
  show g' (f' s').1 (f' s').2 = _
  rw [hf s' u hu, hg ⟨u, s'.trace ++ es⟩ v hv, List.append_assoc]

/-- How a pass ends, as the loop has it: the session is part of the state. -/
def attach {δ S ρ : Type} (mk : δ → Session σ → S) :
    Loop.Step δ ρ × Session σ → Loop.Step S (ρ × Session σ)
  | (.again d, s) => .again (mk d s)
  | (.leave r, s) => .leave (r, s)

/-- A loop replays if its passes do. -/
theorem replayable_loop {δ S S' ρ : Type} (mk : δ → Session σ → S) (mk' : δ → Session σ' → S')
    (result : δ → ρ)
    {body : Nat → S → Loop.Step S (ρ × Session σ)} {exit : S → ρ × Session σ}
    {body' : Nat → S' → Loop.Step S' (ρ × Session σ')} {exit' : S' → ρ × Session σ'}
    {pass : Nat → δ → Session σ → Loop.Step δ ρ × Session σ}
    {pass' : Nat → δ → Session σ' → Loop.Step δ ρ × Session σ'}
    (hbody : ∀ i d s, body i (mk d s) = attach mk (pass i d s))
    (hbody' : ∀ i d s, body' i (mk' d s) = attach mk' (pass' i d s))
    (hexit : ∀ d s, exit (mk d s) = (result d, s)) (hexit' : ∀ d s, exit' (mk' d s) = (result d, s))
    (hpass : ∀ i d, Replayable agent agent' (pass i d) (pass' i d)) (n i : Nat) (d : δ) :
    Replayable agent agent' (fun s => Loop.run body exit n i (mk d s))
      (fun s => Loop.run body' exit' n i (mk' d s)) := by
  induction n generalizing i d with
  | zero =>
    simp only [Loop.run_zero, hexit, hexit']
    exact replayable_pure (result d)
  | succ n ih =>
    let rest (step : Loop.Step δ ρ) (s : Session σ) : ρ × Session σ :=
      match step with
      | .again d => Loop.run body exit n (i + 1) (mk d s)
      | .leave r => (r, s)
    let rest' (step : Loop.Step δ ρ) (s : Session σ') : ρ × Session σ' :=
      match step with
      | .again d => Loop.run body' exit' n (i + 1) (mk' d s)
      | .leave r => (r, s)
    have hrest (step : Loop.Step δ ρ) : Replayable agent agent' (rest step) (rest' step) := by
      cases step with
      | again d => exact ih (i + 1) d
      | leave r => exact replayable_pure r
    have hrun (s : Session σ) :
        Loop.run body exit (n + 1) i (mk d s) = rest (pass i d s).1 (pass i d s).2 := by
      rw [Loop.run, hbody]
      rcases pass i d s with ⟨d | r, t⟩ <;> rfl
    have hrun' (s : Session σ') :
        Loop.run body' exit' (n + 1) i (mk' d s) = rest' (pass' i d s).1 (pass' i d s).2 := by
      rw [Loop.run, hbody']
      rcases pass' i d s with ⟨d | r, t⟩ <;> rfl
    simp only [hrun, hrun']
    exact replayable_bind (hpass i d) hrest

variable [Platform]

theorem replayable_dispatch (blocks results : List ContentBlock) :
    Replayable agent agent' (fun s => blocks.foldl (dispatchBlock agent.registry) (results, s))
      (fun s => blocks.foldl (dispatchBlock agent'.registry) (results, s)) := by
  induction blocks generalizing results with
  | nil => exact replayable_pure results
  | cons block blocks ih =>
    cases block with
    | text b => exact ih results
    | toolResult b => exact ih results
    | toolUse call =>
      exact replayable_bind (replayable_execute call.name call.input)
        (fun outcome => ih (results ++ [.toolResult (toolResult call outcome)]))

omit [Platform] in
theorem request_eq (twins : Twins agent agent') (schema : Option Json) :
    agent'.request schema = agent.request schema := by
  rw [Agent.request, Agent.request, twins.tools]

omit [Platform] in
theorem maxIterations_eq (twins : Twins agent agent') (overrides : RunOverrides) :
    agent'.maxIterations overrides = agent.maxIterations overrides := by
  rw [Agent.maxIterations, Agent.maxIterations, twins.options]

omit [Platform] in
theorem applySystemPrompt_eq (twins : Twins agent agent') (c : Conversation)
    (overrides : RunOverrides) :
    agent'.applySystemPrompt c overrides = agent.applySystemPrompt c overrides := by
  rw [Agent.applySystemPrompt, Agent.applySystemPrompt, twins.options]

/-- What follows the chat call of an iteration. -/
def afterChat (agent : Agent σ) (i : Nat) (d : Conversation × Usage)
    (outcome : Except StdException LlmResponse) (s : Session σ) :
    Loop.Step (Conversation × Usage) (Except AgentRunError LoopResult) × Session σ :=
  match outcome with
  | .error e =>
    (.leave (.error
      { kind := .providerError, message := e.what, conversation := d.1, usage := d.2,
        iterations := i + 1, finishReason := str "error" }), s)
  | .ok response =>
    if !hasToolUse response.message then
      (.leave (.ok
        { conversation := d.1.add response.message, totalUsage := d.2 + response.usage,
          iterations := i + 1, finishReason := response.finishReason }), s)
    else
      (.again ((d.1.add response.message).add
          ⟨.tool, (dispatchTools agent.registry response.message s).1⟩, d.2 + response.usage),
        (dispatchTools agent.registry response.message s).2)

/-- An iteration on its locals and the session apart. -/
def iteration (agent : Agent σ) (schema : Option Json) (i : Nat) (d : Conversation × Usage)
    (s : Session σ) :
    Loop.Step (Conversation × Usage) (Except AgentRunError LoopResult) × Session σ :=
  afterChat agent i d (s.chat agent.provider d.1 (agent.request schema)).1
    (s.chat agent.provider d.1 (agent.request schema)).2

def loopState (d : Conversation × Usage) (s : Session σ) : LoopState σ := ⟨d.1, d.2, s⟩

theorem iterate_eq (agent : Agent σ) (schema : Option Json) (i : Nat) (d : Conversation × Usage)
    (s : Session σ) :
    agent.iterate schema i (loopState d s) = attach loopState (iteration agent schema i d s) := by
  rw [iteration, Agent.iterate]
  simp only [loopState]
  rcases s.chat agent.provider d.1 (agent.request schema) with ⟨e | response, t⟩
  · rfl
  · simp only [afterChat]
    split
    · rfl
    · rfl

theorem replayable_iteration (twins : Twins agent agent') (schema : Option Json) (i : Nat)
    (d : Conversation × Usage) :
    Replayable agent agent' (iteration agent schema i d) (iteration agent' schema i d) := by
  unfold iteration
  rw [request_eq twins]
  apply replayable_bind (replayable_chat d.1 (agent.request schema))
  intro outcome
  unfold afterChat
  cases outcome with
  | error e => exact replayable_pure _
  | ok response =>
    dsimp only
    cases hasToolUse response.message with
    | false => exact replayable_pure _
    | true =>
      let next (results : List ContentBlock) :
          Loop.Step (Conversation × Usage) (Except AgentRunError LoopResult) :=
        .again ((d.1.add response.message).add ⟨.tool, results⟩, d.2 + response.usage)
      exact replayable_bind (replayable_dispatch response.message.content [])
        (fun results => replayable_pure (next results))

/-- What follows the last iteration. -/
def outOfIterations (maxIterations : Int) (d : Conversation × Usage) :
    Except AgentRunError LoopResult :=
  .error
    { kind := .maxIterations, message := str "max_iterations reached without a terminal response",
      conversation := d.1, usage := d.2, iterations := maxIterations,
      finishReason := str "max_iterations" }

theorem replayable_executeLoop (twins : Twins agent agent') (c : Conversation)
    (overrides : RunOverrides) (schema : Option Json) :
    Replayable agent agent' (agent.executeLoop c overrides schema)
      (agent'.executeLoop c overrides schema) := by
  unfold Agent.executeLoop
  rw [maxIterations_eq twins]
  exact replayable_loop loopState loopState (outOfIterations (agent.maxIterations overrides))
    (iterate_eq agent schema) (iterate_eq agent' schema) (fun _ _ => rfl) (fun _ _ => rfl)
    (replayable_iteration twins schema) _ 0 (c, 0)

/-- What follows the loop of `execute<std::string>`. -/
def lastText (outcome : Except AgentRunError LoopResult) : Except AgentRunError (AgentResult Str) :=
  match outcome with
  | .error e => .error e
  | .ok loop => .ok
      { output := extractLastText loop.conversation, conversation := loop.conversation,
        totalUsage := loop.totalUsage, iterations := loop.iterations,
        finishReason := loop.finishReason }

theorem executeText_eq (agent : Agent σ) (c : Conversation) (overrides : RunOverrides)
    (s : Session σ) :
    agent.executeText c overrides s =
      (lastText (agent.executeLoop c overrides none s).1,
        (agent.executeLoop c overrides none s).2) := by
  rw [Agent.executeText]
  rcases agent.executeLoop c overrides none s with ⟨e | loop, t⟩ <;> rfl

theorem replayable_executeText (twins : Twins agent agent') (c : Conversation)
    (overrides : RunOverrides) :
    Replayable agent agent' (agent.executeText c overrides) (agent'.executeText c overrides) := by
  have h := replayable_bind (replayable_executeLoop twins c overrides none)
    (fun outcome => replayable_pure (lastText outcome))
  simpa only [← executeText_eq] using h

/-- A failed attempt as the next one has it, its session apart. -/
structure Failed where
  working : Conversation
  accumulated : Usage
  totalIterations : Int
  lastFinishReason : Str
  lastError : Str

def retryState (d : Failed) (s : Session σ) : RetryState σ :=
  { working := d.working, accumulated := d.accumulated, totalIterations := d.totalIterations,
    lastFinishReason := d.lastFinishReason, lastError := d.lastError, session := s }

/-- What follows the inner loop of an attempt. -/
def afterLoop {T : Type} (output : OutputType T) (cfg : StructuredConfig) (i : Nat) (d : Failed)
    (outcome : Except AgentRunError LoopResult) :
    Loop.Step Failed (Except AgentRunError (AgentResult T)) :=
  match outcome with
  | .error e => .leave (.error e)
  | .ok loop =>
    match output.decode (extractLastText loop.conversation) with
    | .ok value =>
      .leave (.ok
        { output := value, conversation := loop.conversation,
          totalUsage := d.accumulated + loop.totalUsage,
          iterations := d.totalIterations + loop.iterations, finishReason := loop.finishReason })
    | .error e =>
      .again
        { working :=
            if i < cfg.maxRetries then loop.conversation.add (correctiveMessage e.what)
            else loop.conversation
          accumulated := d.accumulated + loop.totalUsage,
          totalIterations := d.totalIterations + loop.iterations,
          lastFinishReason := loop.finishReason, lastError := e.what }

/-- An attempt on its locals and the session apart. -/
def attemptOn {T : Type} (agent : Agent σ) (output : OutputType T) (overrides : RunOverrides)
    (cfg : StructuredConfig) (i : Nat) (d : Failed) (s : Session σ) :
    Loop.Step Failed (Except AgentRunError (AgentResult T)) × Session σ :=
  (afterLoop output cfg i d (agent.executeLoop d.working overrides (some output.schema) s).1,
    (agent.executeLoop d.working overrides (some output.schema) s).2)

theorem attempt_eq {T : Type} (agent : Agent σ) (output : OutputType T) (overrides : RunOverrides)
    (cfg : StructuredConfig) (i : Nat) (d : Failed) (s : Session σ) :
    agent.attempt output overrides cfg i (retryState d s) =
      attach retryState (attemptOn agent output overrides cfg i d s) := by
  rw [attemptOn, Agent.attempt]
  simp only [retryState]
  rcases agent.executeLoop d.working overrides (some output.schema) s with ⟨e | loop, t⟩
  · rfl
  · simp only [afterLoop]
    cases output.decode (extractLastText loop.conversation) with
    | ok value => rfl
    | error e => rfl

theorem replayable_attemptOn {T : Type} (twins : Twins agent agent') (output : OutputType T)
    (overrides : RunOverrides) (cfg : StructuredConfig) (i : Nat) (d : Failed) :
    Replayable agent agent' (attemptOn agent output overrides cfg i d)
      (attemptOn agent' output overrides cfg i d) :=
  replayable_bind (replayable_executeLoop twins d.working overrides (some output.schema))
    (fun outcome => replayable_pure (afterLoop output cfg i d outcome))

/-- What follows the last attempt. -/
def outOfAttempts {T : Type} (cfg : StructuredConfig) (d : Failed) :
    Except AgentRunError (AgentResult T) :=
  .error
    { kind := .structuredParse, message := structuredParseMessage cfg d.lastError,
      conversation := d.working, usage := d.accumulated, iterations := d.totalIterations,
      finishReason := d.lastFinishReason }

theorem replayable_executeStructured {T : Type} (twins : Twins agent agent')
    (output : OutputType T) (c : Conversation) (overrides : RunOverrides) :
    Replayable agent agent' (agent.executeStructured output c overrides)
      (agent'.executeStructured output c overrides) := by
  unfold Agent.executeStructured Agent.retryLoop
  exact replayable_loop retryState retryState (outOfAttempts {})
    (attempt_eq agent output overrides {}) (attempt_eq agent' output overrides {})
    (fun _ _ => rfl) (fun _ _ => rfl) (replayable_attemptOn twins output overrides {}) _ 0
    ⟨c, 0, 0, [], []⟩

/-- A whole call replays. -/
theorem replayable_call {T : Type} (twins : Twins agent agent') (c : Call T) :
    Replayable agent agent' (agent.call c) (agent'.call c) := by
  cases c with
  | run prompt overrides =>
    show Replayable agent agent'
      (agent.executeText ((agent.applySystemPrompt {} overrides).add (.ofText .user prompt))
        overrides)
      (agent'.executeText ((agent'.applySystemPrompt {} overrides).add (.ofText .user prompt))
        overrides)
    rw [applySystemPrompt_eq twins]
    exact replayable_executeText twins _ overrides
  | runConversation conversation overrides =>
    show Replayable agent agent'
      (agent.executeText (agent.applySystemPrompt conversation overrides) overrides)
      (agent'.executeText (agent'.applySystemPrompt conversation overrides) overrides)
    rw [applySystemPrompt_eq twins]
    exact replayable_executeText twins _ overrides
  | runAs output prompt overrides =>
    show Replayable agent agent'
      (agent.executeStructured output
        ((agent.applySystemPrompt {} overrides).add (.ofText .user prompt)) overrides)
      (agent'.executeStructured output
        ((agent'.applySystemPrompt {} overrides).add (.ofText .user prompt)) overrides)
    rw [applySystemPrompt_eq twins]
    exact replayable_executeStructured twins output _ overrides
  | runConversationAs output conversation overrides =>
    show Replayable agent agent'
      (agent.executeStructured output (agent.applySystemPrompt conversation overrides) overrides)
      (agent'.executeStructured output (agent'.applySystemPrompt conversation overrides) overrides)
    rw [applySystemPrompt_eq twins]
    exact replayable_executeStructured twins output _ overrides

end Replayable

end Forgeant.Proofs.Replay
