import Forgeant.Segment

namespace Forgeant

structure FailedAttempt where
  rounds : List Round
  response : LlmResponse
  final : response.message.toolUses = []
  error : StdException

/-- The abstract structured run: complete segments whose text was rejected,
each with a corrective user turn after it, and then the last segment. -/
structure Attempts where
  failed : List FailedAttempt
  last : Segment

variable {T : Type} [Platform]

namespace FailedAttempt

def segment (a : FailedAttempt) : Segment := ⟨a.rounds, .answered a.response a.final⟩

def messages (a : FailedAttempt) : List Message :=
  a.segment.messages ++ [correctiveMessage a.error.what]

def usage (a : FailedAttempt) : Usage := a.segment.usage

def iterations (a : FailedAttempt) : Int := a.rounds.length + 1

def events (request : ChatRequest) (c : Conversation) (a : FailedAttempt) : List Event :=
  a.segment.events request c

end FailedAttempt

namespace Attempts

/-- The conversation that the attempt after these starts from. -/
def before (c : Conversation) (failed : List FailedAttempt) : Conversation :=
  c.extend (failed.flatMap FailedAttempt.messages)

def messages (as : Attempts) : List Message :=
  as.failed.flatMap FailedAttempt.messages ++ as.last.messages

def events (request : ChatRequest) (c : Conversation) (as : Attempts) : List Event :=
  threaded FailedAttempt.messages (FailedAttempt.events request) c as.failed ++
    as.last.events request (before c as.failed)

/-- The text of each failed attempt was rejected, with that attempt's error. -/
def Rejected (output : OutputType T) (c : Conversation) (failed : List FailedAttempt) : Prop :=
  ∀ pre a post, failed = pre ++ a :: post →
    output.decode (extractLastText ((before c pre).extend a.segment.messages)) = .error a.error

/-- What the text of the last attempt decodes to. -/
def verdict (output : OutputType T) (c : Conversation) (as : Attempts) : Except StdException T :=
  output.decode (extractLastText (c.extend as.messages))

/-- The attempts that `retries` allows: a last segment that is complete may be
rejected only when no attempt is left. -/
structure Allowed (output : OutputType T) (retries cap : Int) (c : Conversation) (as : Attempts) :
    Prop where
  bound : as.failed.length ≤ retries
  rejected : Rejected output c as.failed
  fits : ∀ a ∈ as.failed, a.segment.Fits cap.toNat
  lastFits : as.last.Fits cap.toNat
  exhausted : ∀ e, as.last.Complete → as.verdict output c = .error e → as.failed.length = retries

/-- What the attempts mean to the caller. An error of the last segment is
reported as that segment alone reports it. -/
def outcome (output : OutputType T) (cfg : StructuredConfig) (cap : Int) (c : Conversation)
    (as : Attempts) : Except AgentRunError (AgentResult T) :=
  match as.last.outcome (before c as.failed) cap with
  | .error e => .error e
  | .ok loop =>
    let usage := (as.failed.map FailedAttempt.usage).sum + loop.totalUsage
    let iterations := (as.failed.map FailedAttempt.iterations).sum + loop.iterations
    match output.decode (extractLastText loop.conversation) with
    | .ok value => .ok
      { output := value, conversation := loop.conversation, totalUsage := usage,
        iterations := iterations, finishReason := loop.finishReason }
    | .error e => .error
      { kind := .structuredParse, message := structuredParseMessage cfg e.what,
        conversation := loop.conversation, usage := usage, iterations := iterations,
        finishReason := loop.finishReason }

/-- The outcome of a structured run tells what became of its attempts. -/
structure Explains (output : OutputType T) (cfg : StructuredConfig) (c : Conversation)
    (as : Attempts) (outcome : Except AgentRunError (AgentResult T)) : Prop where
  conversation : reported AgentResult.conversation AgentRunError.conversation outcome =
    c.extend as.messages
  returns : (∃ result, outcome = .ok result) ↔
    as.last.Complete ∧ ∃ value, as.verdict output c = .ok value
  decoded : ∀ result, outcome = .ok result → as.verdict output c = .ok result.output
  rejects : (∃ error, outcome = .error error ∧ error.kind = .structuredParse) ↔
    as.failed.length = cfg.maxRetries ∧ as.last.Complete ∧ ∃ e, as.verdict output c = .error e
  lastError : ∀ error, outcome = .error error → error.kind = .structuredParse →
    ∃ e, as.verdict output c = .error e ∧ error.message = structuredParseMessage cfg e.what
  interrupted : ∀ error, outcome = .error error → error.kind ≠ .structuredParse →
    ¬ as.last.Complete ∧ as.last.ending.Tells (.error error)

@[simp] theorem before_nil (c : Conversation) : before c [] = c := by simp [before]

theorem before_snoc (c : Conversation) (failed : List FailedAttempt) (a : FailedAttempt) :
    before c (failed ++ [a]) = (before c failed).extend a.messages := by
  simp [before]

theorem Rejected.nil (output : OutputType T) (c : Conversation) : Rejected output c [] := by
  intro pre a post h
  simp at h

theorem Rejected.snoc {output : OutputType T} {c : Conversation} {failed : List FailedAttempt}
    (h : Rejected output c failed) {a : FailedAttempt}
    (ha : output.decode (extractLastText ((before c failed).extend a.segment.messages)) =
      .error a.error) : Rejected output c (failed ++ [a]) := by
  intro pre b post hsplit
  rcases List.eq_nil_or_concat post with rfl | ⟨rest, d, rfl⟩
  · obtain ⟨rfl, hb⟩ := List.append_inj' hsplit rfl
    cases hb
    exact ha
  · have hsplit' : failed ++ [a] = (pre ++ b :: rest) ++ [d] := by simpa using hsplit
    obtain ⟨rfl, _⟩ := List.append_inj' hsplit' rfl
    exact h pre b rest rfl

theorem chatOutcomes_events (request : ChatRequest) (c : Conversation) (as : Attempts) :
    chatOutcomes (as.events request c) =
      as.failed.flatMap (fun a => a.segment.outcomes) ++ as.last.outcomes := by
  rw [events, chatOutcomes_append, Segment.chatOutcomes_events]
  rw [chatOutcomes_threaded (fun d a => Segment.chatOutcomes_events request d a.segment)]

end Attempts

end Forgeant
