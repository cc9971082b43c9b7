import Forgeant.Agent

namespace Forgeant

/-- A link of a chain: the messages added to the conversation, and the
overrides of the run on it. -/
structure Turn where
  added : List Message := []
  overrides : RunOverrides := {}

namespace Turn

def prompt (turn : Turn) : Option Str := turn.overrides.systemPrompt

/-- The same link with another choice of the prompt override. -/
def withPrompt (turn : Turn) (prompt : Option Str) : Turn :=
  { turn with overrides := { turn.overrides with systemPrompt := prompt } }

@[simp] theorem withPrompt_prompt (turn : Turn) (prompt : Option Str) :
    (turn.withPrompt prompt).prompt = prompt := rfl

end Turn

/-- The system prompts that the chat calls of a trace were handed. -/
def prompts (es : List Event) : List (Option Str) :=
  es.filterMap (fun e => match e with | .chat c _ _ => some c.systemPrompt | _ => none)

variable {σ : Type}

/-- The prompt of the options; an empty one is none. -/
def Agent.ownPrompt (agent : Agent σ) : Option Str :=
  if agent.options.systemPrompt ≠ [] then some agent.options.systemPrompt else none

theorem Agent.applySystemPrompt_systemPrompt (agent : Agent σ) (c : Conversation)
    (overrides : RunOverrides) :
    (agent.applySystemPrompt c overrides).systemPrompt =
      c.systemPrompt.or (overrides.systemPrompt.or agent.ownPrompt) := by
  unfold applySystemPrompt ownPrompt
  cases hc : c.systemPrompt with
  | some p => simp [hc]
  | none =>
    cases overrides.systemPrompt with
    | some p => simp [Conversation.setSystemPrompt]
    | none =>
      by_cases h : agent.options.systemPrompt = []
      · simp [h, hc]
      · simp [h, Conversation.setSystemPrompt]

/-- A run on a prompt starts as one on the conversation of that prompt does. -/
theorem Agent.promptConversation_eq (agent : Agent σ) (prompt : Str) (overrides : RunOverrides) :
    agent.promptConversation prompt overrides =
      agent.applySystemPrompt (({} : Conversation).add (.ofText .user prompt)) overrides := by
  unfold promptConversation applySystemPrompt
  cases overrides.systemPrompt with
  | some p => rfl
  | none =>
    by_cases h : agent.options.systemPrompt = []
    · simp [h]
    · simp [h, Conversation.setSystemPrompt, Conversation.add]

variable [Platform]

/-- Each of the four ways to run on a conversation, by the conversation that the
run returns or the error that it throws. -/
inductive Runs (agent : Agent σ) :
    Conversation → RunOverrides → Session σ → Except AgentRunError Conversation → Session σ → Prop
  | prompt {prompt : Str} {overrides : RunOverrides} {s t : Session σ}
      {outcome : Except AgentRunError (AgentResult Str)}
      (h : agent.run prompt overrides s = (outcome, t)) :
      Runs agent (({} : Conversation).add (.ofText .user prompt)) overrides s
        (outcome.map AgentResult.conversation) t
  | conversation {c : Conversation} {overrides : RunOverrides} {s t : Session σ}
      {outcome : Except AgentRunError (AgentResult Str)}
      (h : agent.runConversation c overrides s = (outcome, t)) :
      Runs agent c overrides s (outcome.map AgentResult.conversation) t
  | promptAs {T : Type} (output : OutputType T) {prompt : Str} {overrides : RunOverrides}
      {s t : Session σ} {outcome : Except AgentRunError (AgentResult T)}
      (h : agent.runAs output prompt overrides s = (outcome, t)) :
      Runs agent (({} : Conversation).add (.ofText .user prompt)) overrides s
        (outcome.map AgentResult.conversation) t
  | conversationAs {T : Type} (output : OutputType T) {c : Conversation} {overrides : RunOverrides}
      {s t : Session σ} {outcome : Except AgentRunError (AgentResult T)}
      (h : agent.runConversationAs output c overrides s = (outcome, t)) :
      Runs agent c overrides s (outcome.map AgentResult.conversation) t

/-- A chain from a conversation, by the calls that each of its runs made. Only
its last run may throw. -/
inductive RunChain (agent : Agent σ) :
    Conversation → Session σ → List Turn → List (List Event) → Prop
  | nil (c : Conversation) (s : Session σ) : RunChain agent c s [] []
  | last {c : Conversation} {s t : Session σ} {turn : Turn}
      {outcome : Except AgentRunError Conversation}
      (h : Runs agent (c.extend turn.added) turn.overrides s outcome t) :
      RunChain agent c s [turn] [t.since s]
  | cons {c c' : Conversation} {s t : Session σ} {turn : Turn} {turns : List Turn}
      {records : List (List Event)}
      (h : Runs agent (c.extend turn.added) turn.overrides s (.ok c') t)
      (rest : RunChain agent c' t turns records) :
      RunChain agent c s (turn :: turns) (t.since s :: records)

end Forgeant
