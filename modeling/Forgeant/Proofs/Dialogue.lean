import Forgeant.Dialogue
import Forgeant.Proofs.RetryLoop

namespace Forgeant.Proofs.Dialogue
open ReactLoop RetryLoop

/-- Each chat call is made where the assistant is to speak. -/
def AllOpen (es : List Event) : Prop :=
  ∀ c request outcome, .chat c request outcome ∈ es → Open c.messages

/-- Each reply is an assistant message. -/
def Spoken (es : List Event) : Prop :=
  ∀ c request response, .chat c request (.ok response) ∈ es → response.message.role = .assistant

theorem AllOpen.append {es fs : List Event} (h : AllOpen es) (h' : AllOpen fs) :
    AllOpen (es ++ fs) := by
  intro c request outcome he
  rcases List.mem_append.mp he with he | he
  · exact h c request outcome he
  · exact h' c request outcome he

theorem Spoken.left {es fs : List Event} (h : Spoken (es ++ fs)) : Spoken es := by
  intro c request response he
  exact h c request response (List.mem_append_left _ he)

theorem Spoken.right {es fs : List Event} (h : Spoken (es ++ fs)) : Spoken fs := by
  intro c request response he
  exact h c request response (List.mem_append_right _ he)

/-- Parts that each start open and end open leave the whole open. -/
theorem threaded_open {α : Type} {messages : α → List Message}
    {events : Conversation → α → List Event}
    (step : ∀ c a, Open c.messages → Spoken (events c a) →
      AllOpen (events c a) ∧ Open (c.extend (messages a)).messages)
    (as : List α) {c : Conversation} (h : Open c.messages)
    (spoken : Spoken (threaded messages events c as)) :
    AllOpen (threaded messages events c as) ∧ Open (c.extend (as.flatMap messages)).messages := by
  induction as generalizing c with
  | nil =>
    constructor
    · intro d request outcome he
      cases he
    · simpa using h
  | cons a as ih =>
    obtain ⟨hfirst, hopen⟩ := step c a h spoken.left
    obtain ⟨hrest, hend⟩ := ih hopen spoken.right
    refine ⟨hfirst.append hrest, ?_⟩
    rw [Conversation.extend_extend] at hend
    exact hend

theorem allOpen_single {c : Conversation} (h : Open c.messages) (request : ChatRequest)
    (outcome : Except StdException LlmResponse) : AllOpen [.chat c request outcome] := by
  intro d request' outcome' he
  cases List.mem_singleton.mp he
  exact h

theorem allOpen_executions (calls : List ToolUseBlock)
    (outcomes : List (Except StdException Json)) : AllOpen (executions calls outcomes) := by
  intro c request outcome he
  have hmem : outcome ∈ chatOutcomes (executions calls outcomes) :=
    List.mem_filterMap.mpr ⟨_, he, rfl⟩
  rw [chatOutcomes_executions] at hmem
  cases hmem

variable {σ T : Type} {agent : Agent σ}

theorem spoken_of_extends (contract : agent.provider.RepliesAsAssistant) {s t : Session σ}
    {es : List Event} (h : Extends agent.provider agent.registry s es t) : Spoken es := by
  intro c request response he
  obtain ⟨u, x, hchat⟩ := h.replays.chat_mem he
  exact contract c request u response x hchat

theorem promptConversation_open (agent : Agent σ) (prompt : Str) (overrides : RunOverrides) :
    Open (agent.promptConversation prompt overrides).messages := by
  rw [Agent.promptConversation, Conversation.add_messages, Agent.applySystemPrompt_messages]
  exact Open.prompt prompt

theorem continued_open {c : Conversation} (h : Closed c.messages) (agent : Agent σ) (text : Str)
    (overrides : RunOverrides) :
    Open (agent.applySystemPrompt (c.add (.ofText .user text)) overrides).messages := by
  rw [Agent.applySystemPrompt_messages, Conversation.add_messages]
  exact h.reply text

/-- What a run from an open conversation keeps to: it calls on where the
assistant is to speak, and what it returns is closed. -/
structure Keeps {α : Type} (conversation : α → Conversation) (s : Session σ)
    (p : Except AgentRunError α × Session σ) : Prop where
  calls : ∃ es, p.2.trace = s.trace ++ es ∧ AllOpen es
  closes : ∀ a, p.1 = .ok a → Closed (conversation a).messages

/-- One more run of a chain keeps to what the chain kept to. -/
theorem keeps_next {s t : Session σ} {es : List Event} (htrace : t.trace = s.trace ++ es)
    (hopen : AllOpen es) {p : Except AgentRunError (AgentResult T) × Session σ}
    (h : Keeps AgentResult.conversation t p) :
    Keeps id s (p.1.map AgentResult.conversation, p.2) := by
  obtain ⟨⟨fs, htrace', hopen'⟩, hcloses⟩ := h
  refine ⟨⟨es ++ fs, by rw [htrace', htrace, List.append_assoc], hopen.append hopen'⟩, ?_⟩
  intro c hc
  cases hp : p.1 with
  | error e =>
    rw [hp] at hc
    cases hc
  | ok result =>
    rw [hp] at hc
    cases hc
    exact hcloses result hp

variable [Platform]

/-- The answers are tool results, one for each call and with its id. -/
theorem answers_results (calls : List ToolUseBlock) (outcomes : List (Except StdException Json))
    (h : outcomes.length = calls.length) :
    ∃ results : List ToolResultBlock, answers calls outcomes = results.map .toolResult ∧
      results.map ToolResultBlock.toolUseId = calls.map ToolUseBlock.id := by
  refine ⟨List.zipWith toolResult calls outcomes, ?_, ?_⟩
  · rw [answers, List.map_zipWith]
  · rw [List.map_zipWith]
    induction calls generalizing outcomes with
    | nil => rfl
    | cons call calls ih =>
      cases outcomes with
      | nil => cases h
      | cons outcome outcomes =>
        rw [List.zipWith_cons_cons, List.map_cons, ih outcomes (Nat.succ.inj h)]
        cases outcome <;> rfl

theorem round_open (request : ChatRequest) (c : Conversation) (r : Round) (h : Open c.messages)
    (spoken : Spoken (r.events request c)) :
    AllOpen (r.events request c) ∧ Open (c.extend r.messages).messages := by
  constructor
  · exact (allOpen_single h request _).append (allOpen_executions _ _)
  · obtain ⟨results, hanswers, hids⟩ :=
      answers_results r.response.message.toolUses r.outcomes r.answered
    rw [Conversation.extend_messages, Round.messages, Round.toolMessage, hanswers]
    exact h.tools (spoken c request r.response List.mem_cons_self) r.asks hids

/-- A segment that starts open makes its chat calls open, and closes if it is
complete. -/
theorem segment_open (request : ChatRequest) (c : Conversation) (s : Segment)
    (h : Open c.messages) (spoken : Spoken (s.events request c)) :
    AllOpen (s.events request c) ∧ (s.Complete → Closed (c.extend s.messages).messages) := by
  obtain ⟨rounds, ending⟩ := s
  obtain ⟨hrounds, hopen⟩ := threaded_open (round_open request) rounds h spoken.left
  constructor
  · apply AllOpen.append hrounds
    cases ending with
    | answered response final => exact allOpen_single hopen request _
    | failed e => exact allOpen_single hopen request _
    | capped =>
      intro d request' outcome he
      cases he
  · intro ⟨response, final, hending⟩
    simp only at hending
    subst hending
    refine ⟨_, response.message, ?_, hopen, ?_, final⟩
    · simp [Segment.messages, Ending.messages]
    · exact spoken.right _ request response List.mem_cons_self

theorem failed_open (request : ChatRequest) (c : Conversation) (a : FailedAttempt)
    (h : Open c.messages) (spoken : Spoken (a.events request c)) :
    AllOpen (a.events request c) ∧ Open (c.extend a.messages).messages := by
  obtain ⟨hevents, hclosed⟩ := segment_open request c a.segment h spoken
  refine ⟨hevents, ?_⟩
  have := (hclosed ⟨a.response, a.final, rfl⟩).reply
    (str "Your response did not match the required schema: " ++ a.error.what ++
      str ". Please respond with valid JSON matching the schema.")
  simpa [FailedAttempt.messages, correctiveMessage] using this

theorem attempts_open (request : ChatRequest) (c : Conversation) (as : Attempts)
    (h : Open c.messages) (spoken : Spoken (as.events request c)) :
    AllOpen (as.events request c) ∧
      (as.last.Complete → Closed (c.extend as.messages).messages) := by
  obtain ⟨hfailed, hopen⟩ := threaded_open (failed_open request) as.failed h spoken.left
  obtain ⟨hlast, hclosed⟩ := segment_open request _ as.last hopen spoken.right
  refine ⟨hfailed.append hlast, ?_⟩
  intro hcomplete
  have := hclosed hcomplete
  rwa [Conversation.extend_extend] at this

theorem executeText_keeps (contract : agent.provider.RepliesAsAssistant) {c : Conversation}
    (h : Open c.messages) (overrides : RunOverrides) (s : Session σ) :
    Keeps AgentResult.conversation s (agent.executeText c overrides s) := by
  obtain ⟨g, t, _, hrun, hext⟩ := executeLoop_spec agent c overrides none s
  obtain ⟨hevents, hclosed⟩ := segment_open _ c g h (spoken_of_extends contract hext)
  unfold Agent.executeText
  rw [hrun]
  cases ho : g.outcome c (agent.maxIterations overrides) with
  | error e =>
    refine ⟨⟨_, hext.trace, hevents⟩, ?_⟩
    intro a ha
    cases ha
  | ok loop =>
    refine ⟨⟨_, hext.trace, hevents⟩, ?_⟩
    intro a ha
    cases ha
    obtain ⟨rounds, response, final, rfl, hconv, _⟩ := complete_of_ok ho
    rw [hconv]
    exact hclosed ⟨response, final, rfl⟩

theorem executeStructured_keeps (contract : agent.provider.RepliesAsAssistant)
    (output : OutputType T) {c : Conversation} (h : Open c.messages) (overrides : RunOverrides)
    (s : Session σ) :
    Keeps AgentResult.conversation s (agent.executeStructured output c overrides s) := by
  obtain ⟨as, t, _, hrun, hext⟩ := retryLoop_spec agent output {} (by decide) c overrides s
  obtain ⟨hevents, hclosed⟩ := attempts_open _ c as h (spoken_of_extends contract hext)
  unfold Agent.executeStructured
  rw [hrun]
  refine ⟨⟨_, hext.trace, hevents⟩, ?_⟩
  intro a ha
  rcases outcome_cases as output {} (agent.maxIterations overrides) c with
    ⟨_, e, _, ho⟩ | ⟨rounds, response, final, value, hlast, _, ho⟩ | ⟨_, _, _, _, _, _, ho⟩
  · cases ho.symm.trans ha
  · cases ho.symm.trans ha
    exact hclosed ⟨response, final, by rw [hlast]⟩
  · cases ho.symm.trans ha

theorem chain_keeps {provider : LlmProvider σ} (contract : provider.RepliesAsAssistant)
    {s t : Session σ} {o : Except AgentRunError Conversation} (h : Chain provider s o t) :
    Keeps id s (o, t) := by
  have hstart : AllOpen [] := by
    intro c request outcome he
    cases he
  induction h with
  | run hp prompt overrides =>
    cases hp
    exact keeps_next (List.append_nil _).symm hstart
      (executeText_keeps contract (promptConversation_open _ prompt overrides) overrides s)
  | runAs hp output prompt overrides =>
    cases hp
    exact keeps_next (List.append_nil _).symm hstart
      (executeStructured_keeps contract output (promptConversation_open _ prompt overrides)
        overrides s)
  | runConversation _ hp text overrides ih =>
    cases hp
    obtain ⟨⟨es, htrace, hopen⟩, hcloses⟩ := ih
    exact keeps_next htrace hopen
      (executeText_keeps contract (continued_open (hcloses _ rfl) _ text overrides) overrides _)
  | runConversationAs _ hp output text overrides ih =>
    cases hp
    obtain ⟨⟨es, htrace, hopen⟩, hcloses⟩ := ih
    exact keeps_next htrace hopen
      (executeStructured_keeps contract output (continued_open (hcloses _ rfl) _ text overrides)
        overrides _)

/-- Along a chain of runs the provider is called only where the assistant is
to speak. -/
theorem chain_open {provider : LlmProvider σ} (contract : provider.RepliesAsAssistant)
    {s t : Session σ} {o : Except AgentRunError Conversation} (h : Chain provider s o t) :
    AllOpen (t.since s) := by
  obtain ⟨⟨es, htrace, hopen⟩, _⟩ := chain_keeps contract h
  rw [Session.since, htrace, List.drop_left]
  exact hopen

end Forgeant.Proofs.Dialogue
