import Forgeant.Proofs.RetryLoop

namespace Forgeant.Proofs.FinalTurn
open ReactLoop RetryLoop

/-- The first text of the last message. -/
def finalText (c : Conversation) : Option Str := c.messages.getLast?.bind (fun m => m.texts.head?)

/-- The output is the text of the final turn, or empty where that has none. -/
def OutputsFinalText (result : AgentResult Str) : Prop :=
  result.output = (finalText result.conversation).getD []

/-- The output is decoded from the text of the final turn. -/
def OutputsFinalValue {T : Type} [Platform] (output : OutputType T) (result : AgentResult T) :
    Prop :=
  ∃ text, finalText result.conversation = some text ∧ output.decode text = .ok result.output

/-- Some response that ends a turn without tool calls had no text either, in a
conversation whose last assistant text satisfies `P`. -/
def Wordless (es : List Event) (P : Str → Prop) : Prop :=
  ∃ d request response, .chat d request (.ok response) ∈ es ∧ response.message.toolUses = [] ∧
    response.message.texts = [] ∧ P (extractLastText d)

theorem extractLastText_snoc (c : Conversation) (ms : List Message) {m : Message}
    (h : m.role = .assistant) :
    extractLastText (c.extend (ms ++ [m])) =
      m.texts.head?.getD (extractLastText (c.extend ms)) := by
  have hm : m.content.findSome? ContentBlock.text? = m.texts.head? := by
    rw [Message.texts, List.head?_filterMap]
  unfold extractLastText
  simp only [Conversation.extend_messages, List.reverse_append, List.reverse_singleton,
    List.cons_append, List.findSome?_cons, h]
  rw [if_neg (by simp), hm]
  cases m.texts.head? <;> rfl

section

variable {σ T : Type} [Platform]

/-- The chat calls of a segment that came back without tool calls are that of
its ending. -/
theorem terminal_chat {s : Segment} {request request' : ChatRequest} {c d : Conversation}
    {response : LlmResponse} (final : response.message.toolUses = []) :
    .chat d request' (.ok response) ∈ s.events request c ↔
      s.ending = .answered response final ∧ d = c.extend (s.rounds.flatMap Round.messages) ∧
        request' = request := by
  constructor
  · intro h
    rcases List.mem_append.mp h with h | h
    · obtain ⟨pre, r, post, _, h⟩ := mem_threaded.mp h
      rcases List.mem_cons.mp h with h | h
      · cases h
        exact absurd final r.asks
      · unfold executions at h
        obtain ⟨i, hi, he⟩ := List.mem_iff_getElem.mp h
        simp at he
    · cases he : s.ending with
      | answered response' final' =>
        simp only [he, Ending.events, List.mem_singleton] at h
        cases h
        exact ⟨rfl, rfl, rfl⟩
      | failed e => simp [he, Ending.events] at h
      | capped => simp [he, Ending.events] at h
  · intro h
    obtain ⟨he, rfl, rfl⟩ := h
    apply List.mem_append_right
    simp [he, Ending.events]

theorem final_chat (rounds : List Round) (response : LlmResponse)
    (final : response.message.toolUses = []) (request : ChatRequest) (c : Conversation) :
    .chat (c.extend (rounds.flatMap Round.messages)) request (.ok response) ∈
      Segment.events request c ⟨rounds, .answered response final⟩ :=
  (terminal_chat final).mpr ⟨rfl, rfl, rfl⟩

/-- The text found in a complete segment is that of its last message, and only
where that has none the text found before it. -/
theorem complete_text (rounds : List Round) {response : LlmResponse}
    (final : response.message.toolUses = []) (c : Conversation)
    (h : response.message.role = .assistant) :
    finalText (c.extend (Segment.messages ⟨rounds, .answered response final⟩)) =
        response.message.texts.head? ∧
      extractLastText (c.extend (Segment.messages ⟨rounds, .answered response final⟩)) =
        response.message.texts.head?.getD
          (extractLastText (c.extend (rounds.flatMap Round.messages))) := by
  simp only [Segment.messages, Ending.messages]
  rw [extractLastText_snoc c _ h]
  simp [finalText]

theorem executeText_finalTurn {agent : Agent σ} (assistant : agent.provider.RepliesAsAssistant)
    {c : Conversation} {overrides : RunOverrides} {session t : Session σ}
    {result : AgentResult Str}
    (h : agent.executeText c overrides session = (.ok result, t)) :
    OutputsFinalText result ↔
      ¬ Wordless (t.since session) (fun text => text ≠ []) := by
  obtain ⟨s, u, _, hs, hext⟩ := executeLoop_spec agent c overrides none session
  unfold Agent.executeText at h
  rw [hs] at h
  cases ho : s.outcome c (agent.maxIterations overrides) with
  | error e => simp [ho] at h
  | ok loop =>
    simp only [ho, Prod.mk.injEq, Except.ok.injEq] at h
    obtain ⟨rfl, rfl⟩ := h
    obtain ⟨rounds, response, final, rfl, hconv, _⟩ := complete_of_ok ho
    have hchat := final_chat rounds response final (agent.request none) c
    obtain ⟨w, x, hw⟩ := hext.replays.chat_mem hchat
    obtain ⟨hfinal, htext⟩ := complete_text rounds final c (assistant _ _ _ _ _ hw)
    rw [OutputsFinalText, hext.since, hconv, hfinal, htext]
    constructor
    · intro hout hwordless
      obtain ⟨d, request, response', hd, final', hnone, hne⟩ := hwordless
      obtain ⟨hend, rfl, _⟩ := (terminal_chat final').mp hd
      cases hend
      simp only [hnone, List.head?_nil, Option.getD_none] at hout
      exact hne hout
    · intro hno
      cases htexts : response.message.texts with
      | cons text texts => simp
      | nil =>
        by_contra hne
        exact hno ⟨_, _, response, hchat, final, htexts, by simpa using hne⟩

/-- A terminal chat call of a structured run ends one of its segments. -/
theorem attempts_chat {as : Attempts} {request request' : ChatRequest} {c d : Conversation}
    {response : LlmResponse} (final : response.message.toolUses = [])
    (h : .chat d request' (.ok response) ∈ as.events request c) :
    (∃ pre a post, as.failed = pre ++ a :: post ∧ a.response = response ∧
      d = (Attempts.before c pre).extend (a.rounds.flatMap Round.messages)) ∨
    (as.last.ending = .answered response final ∧
      d = (Attempts.before c as.failed).extend (as.last.rounds.flatMap Round.messages)) := by
  rcases List.mem_append.mp h with h | h
  · left
    obtain ⟨pre, a, post, hf, h⟩ := mem_threaded.mp h
    obtain ⟨hend, rfl, _⟩ := (terminal_chat final).mp h
    cases hend
    exact ⟨pre, a, post, hf, rfl, rfl⟩
  · right
    obtain ⟨hend, rfl, _⟩ := (terminal_chat final).mp h
    exact ⟨hend, rfl⟩

/-- The text that was rejected where the turn of a failed attempt had none. -/
theorem rejected_without_text {output : OutputType T} {c : Conversation}
    {failed pre post : List FailedAttempt} {a : FailedAttempt}
    (h : Attempts.Rejected output c failed) (hf : failed = pre ++ a :: post)
    (assistant : a.response.message.role = .assistant) (hnone : a.response.message.texts = []) :
    output.decode (extractLastText ((Attempts.before c pre).extend
      (a.rounds.flatMap Round.messages))) = .error a.error := by
  obtain ⟨_, htext⟩ := complete_text a.rounds a.final (Attempts.before c pre) assistant
  have hrej := h pre a post hf
  rw [FailedAttempt.segment, htext, hnone] at hrej
  exact hrej

theorem executeStructured_finalTurn {agent : Agent σ}
    (assistant : agent.provider.RepliesAsAssistant) {output : OutputType T} {c : Conversation}
    {overrides : RunOverrides} {session t : Session σ} {result : AgentResult T}
    (h : agent.executeStructured output c overrides session = (.ok result, t)) :
    OutputsFinalValue output result ↔
      ¬ Wordless (t.since session) (fun text => ∃ value, output.decode text = .ok value) := by
  obtain ⟨as, u, hallowed, hrun, hext⟩ :=
    retryLoop_spec agent output {} (by decide) c overrides session
  unfold Agent.executeStructured at h
  rw [hrun] at h
  rcases outcome_cases as output {} (agent.maxIterations overrides) c with
    ⟨_, e, _, ho⟩ | ⟨rounds, response, final, value, hl, hd, ho⟩ | ⟨_, _, _, e, _, _, ho⟩
  · simp [ho] at h
  · simp only [ho, Prod.mk.injEq, Except.ok.injEq] at h
    obtain ⟨rfl, rfl⟩ := h
    obtain ⟨failed, last⟩ := as
    simp only at hl
    subst hl
    have hchat := final_chat rounds response final (agent.request (some output.schema))
      (Attempts.before c failed)
    obtain ⟨w, x, hw⟩ := hext.replays.chat_mem (List.mem_append_right _ hchat)
    obtain ⟨hfinal, htext⟩ := complete_text rounds final
      (Attempts.before c failed) (assistant _ _ _ _ _ hw)
    have hconv : c.extend (Attempts.messages ⟨failed, ⟨rounds, .answered response final⟩⟩) =
        (Attempts.before c failed).extend
          (Segment.messages ⟨rounds, .answered response final⟩) := by
      simp [Attempts.before, Attempts.messages]
    rw [Attempts.verdict, hconv, htext] at hd
    rw [OutputsFinalValue, hext.since, hconv, hfinal]
    constructor
    · intro hout hwordless
      obtain ⟨text, htexts, _⟩ := hout
      obtain ⟨d, request, response', hmem, final', hnone, value', hv⟩ := hwordless
      rcases attempts_chat final' hmem with ⟨pre, a, post, hf, rfl, rfl⟩ | ⟨hend, rfl⟩
      · obtain ⟨w', x', hw'⟩ := hext.replays.chat_mem hmem
        have hrej := rejected_without_text hallowed.rejected hf (assistant _ _ _ _ _ hw') hnone
        cases hrej.symm.trans hv
      · cases hend
        simp [hnone] at htexts
    · intro hno
      cases htexts : response.message.texts with
      | cons text texts =>
        simp only [htexts, List.head?_cons, Option.getD_some] at hd
        exact ⟨text, rfl, hd⟩
      | nil =>
        exfalso
        simp only [htexts, List.head?_nil, Option.getD_none] at hd
        exact hno ⟨_, _, response, List.mem_append_right _ hchat, final, htexts, value, hd⟩
  · simp [ho] at h

/-- A run that succeeds outputs its own final turn exactly when no terminal
response without text found something usable in an earlier assistant turn: any
text that is not empty, in a structured run any text that decodes. -/
theorem runs_output_finalTurn (agent : Agent σ) (assistant : agent.provider.RepliesAsAssistant)
    (output : OutputType T) (prompt : Str) (c : Conversation) (overrides : RunOverrides)
    (session t : Session σ) :
    (∀ result, agent.run prompt overrides session = (.ok result, t) →
      (OutputsFinalText result ↔ ¬ Wordless (t.since session) (fun text => text ≠ []))) ∧
    (∀ result, agent.runConversation c overrides session = (.ok result, t) →
      (OutputsFinalText result ↔ ¬ Wordless (t.since session) (fun text => text ≠ []))) ∧
    (∀ result, agent.runAs output prompt overrides session = (.ok result, t) →
      (OutputsFinalValue output result ↔
        ¬ Wordless (t.since session) (fun text => ∃ value, output.decode text = .ok value))) ∧
    (∀ result, agent.runConversationAs output c overrides session = (.ok result, t) →
      (OutputsFinalValue output result ↔
        ¬ Wordless (t.since session) (fun text => ∃ value, output.decode text = .ok value))) := by
  refine ⟨?_, ?_, ?_, ?_⟩
  · intro result h
    exact executeText_finalTurn assistant h
  · intro result h
    exact executeText_finalTurn assistant h
  · intro result h
    exact executeStructured_finalTurn assistant h
  · intro result h
    exact executeStructured_finalTurn assistant h

end

theorem runs_output_finalTurn_calculator :
    letI := Platform.reference
    ∃ result t, Transcript.calculator.run (str "What is 2 + 3?") {} ⟨Transcript.script, []⟩ =
        (.ok result, t) ∧
      (OutputsFinalText result ↔
        ¬ Wordless (t.since ⟨Transcript.script, []⟩) (fun text => text ≠ [])) := by
  let platform := Platform.reference
  refine ⟨_, _, rfl, ?_⟩
  have h := runs_output_finalTurn Transcript.calculator
    LlmProvider.scripted_repliesAsAssistant (⟨.null, Json.getInt⟩ : OutputType Int)
    (str "What is 2 + 3?") {} {} ⟨Transcript.script, []⟩
  exact (h _).1 _ rfl

/-- A conversation with an answer in it, continued by another question. -/
def secondQuestion : Conversation :=
  { messages := [.ofText .user (str "What is 2 + 3?"), .ofText .assistant (str "5"),
      .ofText .user (str "And 4 + 4?")] }

/-- The reply is an assistant message with no content; the run returns the
answer to the first question. -/
theorem not_outputsFinalText_secondQuestion :
    letI := Platform.reference
    ∃ result t, Transcript.calculator.runConversation secondQuestion {}
        ⟨[.ok { message := ⟨.assistant, []⟩ }], []⟩ = (.ok result, t) ∧
      result.output = str "5" ∧ ¬ OutputsFinalText result := by
  let platform := Platform.reference
  refine ⟨_, _, rfl, rfl, ?_⟩
  intro h
  exact absurd (show str "5" = [] from h) (by decide)

end Forgeant.Proofs.FinalTurn
