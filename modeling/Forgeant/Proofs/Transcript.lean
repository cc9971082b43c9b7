import Forgeant.Proofs.ReactLoop
import Forgeant.Json.Reference

namespace Forgeant.Proofs.Transcript
open ReactLoop

section

variable {σ : Type} [Platform]

theorem outcome_conversation (s : Segment) (c : Conversation) (cap : Int) :
    reported LoopResult.conversation AgentRunError.conversation (s.outcome c cap) =
      c.extend s.messages := by
  unfold Segment.outcome
  cases s.ending <;> rfl

theorem outcome_usage (s : Segment) (c : Conversation) (cap : Int) :
    reported LoopResult.totalUsage AgentRunError.usage (s.outcome c cap) = s.usage := by
  unfold Segment.outcome
  cases s.ending <;> rfl

theorem outcome_ending (s : Segment) (c : Conversation) (cap : Int) :
    s.ending.Tells (s.outcome c cap) := by
  unfold Segment.outcome
  cases s.ending with
  | answered response final => rfl
  | failed e => exact ⟨rfl, rfl⟩
  | capped => rfl

/-- The reply of each round is a chat event of the run. -/
theorem round_chat (request : ChatRequest) (c : Conversation) (rounds : List Round) :
    ∀ r ∈ rounds, ∃ d, .chat d request (.ok r.response) ∈ roundEvents request c rounds := by
  intro r hr
  obtain ⟨pre, post, rfl⟩ := List.append_of_mem hr
  refine ⟨c.extend (pre.flatMap Round.messages), mem_threaded.mpr ⟨pre, r, post, rfl, ?_⟩⟩
  simp [Round.events]

omit [Platform] in
theorem ending_chat (request : ChatRequest) (c : Conversation) (ending : Ending) :
    ∀ m ∈ ending.messages, ∃ response, m.toolUses = [] ∧ response.message = m ∧
      .chat c request (.ok response) ∈ ending.events request c := by
  intro m hm
  cases ending with
  | answered response final =>
    simp only [Ending.messages, List.mem_singleton] at hm
    exact ⟨response, hm ▸ final, hm.symm, by simp [Ending.events]⟩
  | failed e => simp [Ending.messages] at hm
  | capped => simp [Ending.messages] at hm

/-- The tool message of a round answers each tool call of its turn once, at
the place of the call and under its id. -/
theorem toolMessage_content (r : Round) :
    r.toolMessage.content.length = r.response.message.toolUses.length ∧
      ∀ (i : Nat) call, r.response.message.toolUses[i]? = some call →
        ∃ result block, r.outcomes[i]? = some result ∧
          r.toolMessage.content[i]? = some (.toolResult block) ∧ block.toolUseId = call.id ∧
          (∀ output, result = .ok output → block.content = output.dump ∧ block.isError = false) ∧
          ∀ e, result = .error e → block.content = e.what ∧ block.isError = true := by
  simp only [Round.toolMessage, answers, List.length_zipWith, r.answered, Nat.min_self, true_and]
  intro i call hcall
  have hi : i < r.outcomes.length := by
    rw [r.answered]
    exact (List.getElem?_eq_some_iff.mp hcall).1
  have hresult := List.getElem?_eq_getElem hi
  refine ⟨_, toolResult call r.outcomes[i], hresult, ?_, ?_, ?_, ?_⟩
  · simp [List.getElem?_zipWith, hcall, hresult]
  · cases r.outcomes[i] <;> rfl
  · intro output houtput
    rw [houtput]
    exact ⟨rfl, rfl⟩
  · intro e he
    rw [he]
    exact ⟨rfl, rfl⟩

/-- The transcript law of the loop: the conversation that its outcome carries,
its usage, and the calls made, by rounds and ending. -/
theorem executeLoop_transcript (agent : Agent σ) (assistant : agent.provider.RepliesAsAssistant)
    (c : Conversation) (overrides : RunOverrides) (schema : Option Json) (session : Session σ) :
    ∃ (rounds : List Round) (ending : Ending),
      let (outcome, t) := agent.executeLoop c overrides schema session
      (⟨rounds, ending⟩ : Segment).Fits (agent.maxIterations overrides).toNat ∧
      reported LoopResult.conversation AgentRunError.conversation outcome =
        c.extend (rounds.flatMap Round.messages ++ ending.messages) ∧
      ending.Tells outcome ∧
      (∀ r ∈ rounds, r.response.message.role = .assistant ∧
        r.response.message.toolUses ≠ [] ∧ r.toolMessage.role = .tool ∧
        r.toolMessage.content.length = r.response.message.toolUses.length ∧
        ∀ (i : Nat) call, r.response.message.toolUses[i]? = some call →
          ∃ result block, r.outcomes[i]? = some result ∧
            r.toolMessage.content[i]? = some (.toolResult block) ∧ block.toolUseId = call.id ∧
            (∀ output, result = .ok output → block.content = output.dump ∧ block.isError = false) ∧
            ∀ e, result = .error e → block.content = e.what ∧ block.isError = true) ∧
      (∀ m ∈ ending.messages, m.role = .assistant ∧ m.toolUses = []) ∧
      reported LoopResult.totalUsage AgentRunError.usage outcome =
        (rounds.map Round.usage).sum + ending.usage ∧
      Extends agent.provider agent.registry session
        (roundEvents (agent.request schema) c rounds ++
          ending.events (agent.request schema) (c.extend (rounds.flatMap Round.messages))) t := by
  obtain ⟨s, t, hfits, hs, hext⟩ := executeLoop_spec agent c overrides schema session
  refine ⟨s.rounds, s.ending, ?_⟩
  rw [hs]
  refine ⟨hfits, outcome_conversation s c _, outcome_ending s c _, ?_, ?_,
    outcome_usage s c _, hext⟩
  · intro r hr
    obtain ⟨d, hd⟩ := round_chat (agent.request schema) c s.rounds r hr
    obtain ⟨u, x, hchat⟩ := hext.replays.chat_mem (List.mem_append_left _ hd)
    exact ⟨assistant _ _ _ _ _ hchat, r.asks, rfl, toolMessage_content r⟩
  · intro m hm
    obtain ⟨response, final, rfl, he⟩ := ending_chat (agent.request schema) _ s.ending m hm
    obtain ⟨u, x, hchat⟩ := hext.replays.chat_mem (List.mem_append_right _ he)
    exact ⟨assistant _ _ _ _ _ hchat, final⟩

end

/-- A turn that talks, adds and asks for a tool that is not there, and then an
answer. -/
def script : List (Except StdException LlmResponse) :=
  [.ok
    { message := ⟨.assistant,
        [.text ⟨str "Let me see."⟩, .toolUse ⟨str "1", str "add", .array [.integer 2, .integer 3]⟩,
          .toolUse ⟨str "2", str "sub", .null⟩]⟩
      usage := { inputTokens := 10, outputTokens := 5 } },
    .ok { message := .ofText .assistant (str "5"), finishReason := str "end_turn" }]

def addTool {σ : Type} : Tool σ where
  name := str "add"
  description := str "Add numbers"
  parameters := .object []
  execute args w :=
    match args with
    | .array [.integer a, .integer b] => (.ok (.integer (a + b)), w)
    | _ => (.error .badVariantAccess, w)

def calculator : Agent (List (Except StdException LlmResponse)) :=
  { provider := .scripted, registry := ({} : ToolRegistry _).add addTool }

theorem executeLoop_transcript_calculator :
    letI := Platform.reference
    ∃ (rounds : List Round) (ending : Ending),
      let (outcome, _) := calculator.executeLoop {} {} none ⟨script, []⟩
      ending.Tells outcome ∧
      (∀ r ∈ rounds, r.toolMessage.content.length = r.response.message.toolUses.length) ∧
      (rounds.flatMap Round.messages ++ ending.messages).map Message.toolResults =
        [[], [{ toolUseId := str "1", content := str "5" },
          { toolUseId := str "2", content := str "unknown tool: sub", isError := true }], []] := by
  let platform := Platform.reference
  obtain ⟨rounds, ending, _, hconv, hends, hrounds, _⟩ := executeLoop_transcript calculator
    LlmProvider.scripted_repliesAsAssistant {} {} none ⟨script, []⟩
  refine ⟨rounds, ending, hends, fun r hr => (hrounds r hr).2.2.2.1, ?_⟩
  have hmessages : _ = rounds.flatMap Round.messages ++ ending.messages :=
    congrArg Conversation.messages hconv
  rw [← hmessages]
  rfl

end Forgeant.Proofs.Transcript
