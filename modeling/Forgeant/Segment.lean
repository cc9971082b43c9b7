import Forgeant.Agent

namespace Forgeant

/-- What a call reports, whether it returns or throws. -/
def reported {α β : Type} (returned : α → β) (thrown : AgentRunError → β) :
    Except AgentRunError α → β
  | .ok r => returned r
  | .error e => thrown e

/-- The events of a sequence of parts, each of which starts in the conversation
that the messages of the parts before it have led to. -/
def threaded {α : Type} (messages : α → List Message) (events : Conversation → α → List Event)
    (c : Conversation) : List α → List Event
  | [] => []
  | a :: as => events c a ++ threaded messages events (c.extend (messages a)) as

section

variable {α : Type} {messages : α → List Message} {events : Conversation → α → List Event}

theorem threaded_snoc (c : Conversation) (as : List α) (a : α) :
    threaded messages events c (as ++ [a]) =
      threaded messages events c as ++ events (c.extend (as.flatMap messages)) a := by
  induction as generalizing c with
  | nil => simp [threaded]
  | cons b as ih => simp [threaded, ih]

theorem mem_threaded {e : Event} {c : Conversation} {as : List α} :
    e ∈ threaded messages events c as ↔
      ∃ pre a post, as = pre ++ a :: post ∧ e ∈ events (c.extend (pre.flatMap messages)) a := by
  induction as generalizing c with
  | nil => simp [threaded]
  | cons b as ih =>
    simp only [threaded, List.mem_append, ih]
    constructor
    · intro h
      rcases h with h | ⟨pre, a, post, rfl, h⟩
      · exact ⟨[], b, as, rfl, by simpa using h⟩
      · exact ⟨b :: pre, a, post, rfl, by simpa using h⟩
    · intro h
      obtain ⟨pre, a, post, has, h⟩ := h
      cases pre with
      | nil =>
        cases has
        exact .inl (by simpa using h)
      | cons q pre =>
        cases has
        exact .inr ⟨pre, a, post, rfl, by simpa using h⟩

end

/-- A round. There is one outcome for each call of the turn, in their order. -/
structure Round where
  response : LlmResponse
  outcomes : List (Except StdException Json)
  asks : response.message.toolUses ≠ []
  answered : outcomes.length = response.message.toolUses.length

/-- How the rounds end: by a turn without tool calls, by a chat call that
throws, or because the cap allows no further call. -/
inductive Ending where
  | answered (response : LlmResponse) (final : response.message.toolUses = [])
  | failed (e : StdException)
  | capped

/-- The ending that an outcome of the loop tells of. -/
def Ending.Tells [Platform] : Ending → Except AgentRunError LoopResult → Prop
  | .answered response _, .ok result => result.finishReason = response.finishReason
  | .failed e, .error error => error.kind = .providerError ∧ error.message = e.what
  | .capped, .error error => error.kind = .maxIterations
  | _, _ => False

/-- The abstract ReAct run: rounds of an assistant turn that asks for tools and
the answers to it, up to a turn that asks for none or to a failure. -/
structure Segment where
  rounds : List Round
  ending : Ending

/-- The executions of a list of calls. -/
def executions (calls : List ToolUseBlock) (outcomes : List (Except StdException Json)) :
    List Event :=
  List.zipWith (fun call outcome => .execute call.name call.input outcome) calls outcomes

def Ending.messages : Ending → List Message
  | .answered response _ => [response.message]
  | _ => []

def Ending.usage : Ending → Usage
  | .answered response _ => response.usage
  | _ => 0

def Ending.events (request : ChatRequest) (c : Conversation) : Ending → List Event
  | .answered response _ => [.chat c request (.ok response)]
  | .failed e => [.chat c request (.error e)]
  | .capped => []

def Round.usage (r : Round) : Usage := r.response.usage

variable [Platform]

/-- One tool result for each call, in the order of the calls. -/
def answers (calls : List ToolUseBlock) (outcomes : List (Except StdException Json)) :
    List ContentBlock :=
  List.zipWith (fun call outcome => .toolResult (toolResult call outcome)) calls outcomes

def Round.toolMessage (r : Round) : Message :=
  ⟨.tool, answers r.response.message.toolUses r.outcomes⟩

def Round.messages (r : Round) : List Message := [r.response.message, r.toolMessage]

/-- The chat call of a round is handed the conversation so far; the tools run
after it. -/
def Round.events (request : ChatRequest) (c : Conversation) (r : Round) : List Event :=
  .chat c request (.ok r.response) :: executions r.response.message.toolUses r.outcomes

def roundEvents (request : ChatRequest) (c : Conversation) (rounds : List Round) : List Event :=
  threaded Round.messages (Round.events request) c rounds

namespace Segment

def messages (s : Segment) : List Message := s.rounds.flatMap Round.messages ++ s.ending.messages

def usage (s : Segment) : Usage := (s.rounds.map Round.usage).sum + s.ending.usage

def events (request : ChatRequest) (c : Conversation) (s : Segment) : List Event :=
  roundEvents request c s.rounds ++
    s.ending.events request (c.extend (s.rounds.flatMap Round.messages))

/-- The segment ends with a turn that asks for no tool. -/
def Complete (s : Segment) : Prop := ∃ response final, s.ending = .answered response final

/-- A cap of `n` leaves room for the rounds of the segment and, unless the cap
itself ends it, for one more call. -/
def Fits (n : Nat) (s : Segment) : Prop :=
  match s.ending with
  | .capped => s.rounds.length = n
  | _ => s.rounds.length < n

/-- What the segment means to the caller of the loop. -/
def outcome (c : Conversation) (cap : Int) (s : Segment) : Except AgentRunError LoopResult :=
  match s.ending with
  | .answered response _ => .ok
    { conversation := c.extend s.messages, totalUsage := s.usage,
      iterations := s.rounds.length + 1, finishReason := response.finishReason }
  | .failed e => .error
    { kind := .providerError, message := e.what, conversation := c.extend s.messages,
      usage := s.usage, iterations := s.rounds.length + 1, finishReason := str "error" }
  | .capped => .error
    { kind := .maxIterations,
      message := str "max_iterations reached without a terminal response",
      conversation := c.extend s.messages, usage := s.usage, iterations := cap,
      finishReason := str "max_iterations" }

end Segment

def Ending.outcomes : Ending → List (Except StdException LlmResponse)
  | .answered response _ => [.ok response]
  | .failed e => [.error e]
  | .capped => []

def Segment.outcomes (s : Segment) : List (Except StdException LlmResponse) :=
  s.rounds.map (fun r => .ok r.response) ++ s.ending.outcomes

omit [Platform] in
theorem chatOutcomes_executions (calls : List ToolUseBlock)
    (outcomes : List (Except StdException Json)) :
    chatOutcomes (executions calls outcomes) = [] := by
  unfold executions
  induction calls generalizing outcomes with
  | nil => rfl
  | cons call calls ih =>
    cases outcomes with
    | nil => rfl
    | cons outcome outcomes => exact ih outcomes

omit [Platform] in
theorem chatOutcomes_threaded {α : Type} {messages : α → List Message}
    {events : Conversation → α → List Event} {f : α → List (Except StdException LlmResponse)}
    (h : ∀ c a, chatOutcomes (events c a) = f a) (c : Conversation) (as : List α) :
    chatOutcomes (threaded messages events c as) = as.flatMap f := by
  induction as generalizing c with
  | nil => rfl
  | cons a as ih => rw [threaded, chatOutcomes_append, h, ih, List.flatMap_cons]

theorem Segment.chatOutcomes_events (request : ChatRequest) (c : Conversation) (s : Segment) :
    chatOutcomes (s.events request c) = s.outcomes := by
  have hround : ∀ d (r : Round), chatOutcomes (r.events request d) = [.ok r.response] := by
    intro d r
    change Except.ok r.response :: chatOutcomes (executions _ _) = _
    rw [chatOutcomes_executions]
  have hending : ∀ d, chatOutcomes (s.ending.events request d) = s.ending.outcomes := by
    intro d
    cases s.ending <;> rfl
  rw [Segment.events, chatOutcomes_append, roundEvents, chatOutcomes_threaded hround, hending,
    Segment.outcomes, List.map_eq_flatMap]

omit [Platform] in
theorem Segment.Fits.outcomes_length {n : Nat} {s : Segment} (h : s.Fits n) :
    s.outcomes.length ≤ n := by
  obtain ⟨rounds, ending⟩ := s
  cases ending <;> simp [Segment.outcomes, Ending.outcomes, Segment.Fits] at h ⊢ <;> omega

end Forgeant
