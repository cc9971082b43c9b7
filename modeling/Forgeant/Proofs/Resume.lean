import Forgeant.Proofs.Transcript

namespace Forgeant

/-- The same overrides with an iteration cap of `n`. -/
def RunOverrides.capped (overrides : RunOverrides) (n : Nat) : RunOverrides :=
  { overrides with maxIterations := some n }

/-- An error that also tells what an interrupted run before it had used. -/
def AgentRunError.after (e e' : AgentRunError) : AgentRunError :=
  { e' with usage := e.usage + e'.usage, iterations := e.iterations + e'.iterations }

def LoopResult.after (e : AgentRunError) (r : LoopResult) : LoopResult :=
  { r with totalUsage := e.usage + r.totalUsage, iterations := e.iterations + r.iterations }

def AgentResult.after {T : Type} (e : AgentRunError) (r : AgentResult T) : AgentResult T :=
  { r with totalUsage := e.usage + r.totalUsage, iterations := e.iterations + r.iterations }

/-- The outcome of the second of two runs, with the accounts of both. -/
def resumed {α : Type} (returned : AgentRunError → α → α) (e : AgentRunError) :
    Except AgentRunError α → Except AgentRunError α
  | .ok r => .ok (returned e r)
  | .error e' => .error (e.after e')

/-- A first run and, where the cap interrupts it, a second one that goes on
from the conversation that the first one's error carries. -/
def interrupted {σ α : Type} (returned : AgentRunError → α → α)
    (first : Except AgentRunError α × Session σ)
    (second : Conversation → Session σ → Except AgentRunError α × Session σ) :
    Except AgentRunError α × Session σ :=
  match first with
  | (.ok r, t) => (.ok r, t)
  | (.error e, t) =>
    if e.kind = .maxIterations then
      ((resumed returned e (second e.conversation t).1), (second e.conversation t).2)
    else (.error e, t)

namespace Proofs.Resume
open ReactLoop

section

variable {σ : Type} [Platform]

omit [Platform] in
theorem maxIterations_capped (agent : Agent σ) (overrides : RunOverrides) (n : Nat) :
    agent.maxIterations (overrides.capped n) = n := rfl

/-- Two passes over one conversation, of a run and of one resumed in it at
iteration `m`, that has its accounts to add to those of the first. -/
def Resumed (usage : Usage) (_ : Nat) (s s' : LoopState σ) : Prop :=
  s.working = s'.working ∧ s.accumulated = usage + s'.accumulated ∧ s.session = s'.session

def ResumedEnd (e : AgentRunError)
    (p p' : Except AgentRunError LoopResult × Session σ) : Prop :=
  p = (resumed LoopResult.after e p'.1, p'.2)

theorem iterate_resumed (agent : Agent σ) (schema : Option Json) (e : AgentRunError) {m : Nat}
    (he : e.iterations = m) (k : Nat) {s s' : LoopState σ} (h : Resumed e.usage k s s') :
    Loop.Step.Related (Resumed e.usage (k + 1)) (ResumedEnd e) (agent.iterate schema (m + k) s)
      (agent.iterate schema k s') := by
  obtain ⟨working, accumulated, session⟩ := s
  obtain ⟨working', accumulated', session'⟩ := s'
  simp only [Resumed] at h
  obtain ⟨rfl, rfl, rfl⟩ := h
  rcases hc : session.chat agent.provider working (agent.request schema) with ⟨o, t⟩
  cases o with
  | error x =>
    simp [Agent.iterate, hc, Loop.Step.Related, ResumedEnd, resumed, AgentRunError.after, he,
      Int.add_assoc]
  | ok response =>
    cases hu : hasToolUse response.message with
    | false =>
      simp [Agent.iterate, hc, hu, Loop.Step.Related, ResumedEnd, resumed, LoopResult.after, he,
        add_assoc]
    | true =>
      rcases hd : dispatchTools agent.registry response.message t with ⟨results, u⟩
      simp [Agent.iterate, hc, hu, hd, Loop.Step.Related, Resumed, add_assoc]

/-- A pass that leaves does so with a result or a provider error. -/
theorem interrupted_of_leave {agent : Agent σ} {schema : Option Json} {j : Nat} {s : LoopState σ}
    {r : Except AgentRunError LoopResult × Session σ}
    (h : agent.iterate schema j s = .leave r)
    (second : Conversation → Session σ → Except AgentRunError LoopResult × Session σ) :
    interrupted LoopResult.after r second = r := by
  rcases iterate_cases agent schema j s with
    ⟨e, t, _, hi⟩ | ⟨response, final, t, _, hi⟩ | ⟨q, t, _, hi⟩
  · cases hi.symm.trans h
    rfl
  · cases hi.symm.trans h
    rfl
  · cases hi.symm.trans h

/-- A loop with a cap of `m + n` is one with a cap of `m` that, where the cap
ends it, goes on from the carried conversation with a cap of `n`. -/
theorem executeLoop_add (agent : Agent σ) (c : Conversation) (overrides : RunOverrides)
    (schema : Option Json) (m n : Nat) (session : Session σ) :
    agent.executeLoop c (overrides.capped (m + n)) schema session =
      interrupted LoopResult.after (agent.executeLoop c (overrides.capped m) schema session)
        (fun d t => agent.executeLoop d (overrides.capped n) schema t) := by
  simp only [Agent.executeLoop, maxIterations_capped, Int.toNat_natCast]
  rcases Loop.run_cases m 0 (⟨c, 0, session⟩ : LoopState σ) with
    ⟨u, hp, hr⟩ | ⟨j, u, r, hj, hp, hl, hr⟩
  · rw [Nat.zero_add] at hp
    rw [hr, hp.run (k := n) (by omega)]
    refine Loop.run_simulation (Resumed u.accumulated) (ResumedEnd _) n m 0 ⟨rfl, by simp, rfl⟩ ?_ ?_
    · intro k _ s s' h
      rw [Nat.zero_add]
      exact iterate_resumed agent schema ⟨.maxIterations, _, u.working, u.accumulated, m, _⟩ rfl k h
    · intro s s' h
      obtain ⟨hworking, husage, hsession⟩ := h
      simp [ResumedEnd, resumed, AgentRunError.after, hworking, husage, hsession]
  · rw [hr, interrupted_of_leave hl]
    obtain ⟨k, hk⟩ : ∃ k, m + n = j + (k + 1) := ⟨m + n - j - 1, by omega⟩
    rw [hp.run (k := k + 1) (by omega), Loop.run_leave k hl]

theorem executeText_add (agent : Agent σ) (c : Conversation) (overrides : RunOverrides)
    (m n : Nat) (session : Session σ) :
    agent.executeText c (overrides.capped (m + n)) session =
      interrupted AgentResult.after (agent.executeText c (overrides.capped m) session)
        (fun d t => agent.executeText d (overrides.capped n) t) := by
  unfold Agent.executeText
  rw [executeLoop_add]
  rcases agent.executeLoop c (overrides.capped m) none session with ⟨_ | r, t⟩
  · rename_i e
    by_cases he : e.kind = .maxIterations
    · rcases hn : agent.executeLoop e.conversation (overrides.capped n) none t with ⟨_ | r, u⟩ <;>
        simp [interrupted, he, hn, resumed, LoopResult.after, AgentResult.after]
    · simp [interrupted, he]
  · rfl

omit [Platform] in
/-- The system prompt is applied once; applying it again changes nothing. -/
theorem applySystemPrompt_extend (agent : Agent σ) (c : Conversation) (overrides : RunOverrides)
    (n n' : Nat) (ms : List Message) :
    agent.applySystemPrompt ((agent.applySystemPrompt c (overrides.capped n)).extend ms)
        (overrides.capped n') = (agent.applySystemPrompt c (overrides.capped n)).extend ms := by
  cases hc : c.systemPrompt with
  | some prompt => simp [Agent.applySystemPrompt, hc]
  | none =>
    cases ho : overrides.systemPrompt with
    | some prompt =>
      simp [Agent.applySystemPrompt, hc, RunOverrides.capped, ho, Conversation.setSystemPrompt]
    | none =>
      by_cases hp : agent.options.systemPrompt = []
      · simp [Agent.applySystemPrompt, hc, RunOverrides.capped, ho, hp]
      · simp [Agent.applySystemPrompt, hc, RunOverrides.capped, ho, hp,
          Conversation.setSystemPrompt]

omit [Platform] in
theorem applySystemPrompt_capped (agent : Agent σ) (c : Conversation) (overrides : RunOverrides)
    (n n' : Nat) : agent.applySystemPrompt c (overrides.capped n) =
      agent.applySystemPrompt c (overrides.capped n') := rfl

/-- An error of a text run carries the conversation of a cut segment. -/
theorem executeText_error {agent : Agent σ} {c : Conversation} {overrides : RunOverrides}
    {session t : Session σ} {e : AgentRunError}
    (h : agent.executeText c overrides session = (.error e, t)) :
    ∃ s : Segment, s.outcome c (agent.maxIterations overrides) = .error e ∧
      e.conversation = c.extend s.messages ∧
      Extends agent.provider agent.registry session (s.events (agent.request none) c) t := by
  obtain ⟨s, u, _, hs, hext⟩ := executeLoop_spec agent c overrides none session
  unfold Agent.executeText at h
  rw [hs] at h
  cases ho : s.outcome c (agent.maxIterations overrides) with
  | ok loop => simp [ho] at h
  | error e' =>
    simp only [ho, Prod.mk.injEq, Except.error.injEq] at h
    obtain ⟨rfl, rfl⟩ := h
    have hconv := Transcript.outcome_conversation s c (agent.maxIterations overrides)
    rw [ho, reported] at hconv
    exact ⟨s, ho, hconv, hext⟩

theorem segment_events_head {s : Segment} {n : Nat} (hs : s.Fits n) (hn : 0 < n)
    (request : ChatRequest) (c : Conversation) :
    ∃ o es, s.events request c = .chat c request o :: es := by
  obtain ⟨rounds, ending⟩ := s
  cases rounds with
  | cons r rounds => exact ⟨_, _, rfl⟩
  | nil =>
    cases ending with
    | answered response final =>
      exact ⟨.ok response, [], by simp [Segment.events, roundEvents, threaded, Ending.events]⟩
    | failed e =>
      exact ⟨.error e, [], by simp [Segment.events, roundEvents, threaded, Ending.events]⟩
    | capped =>
      simp only [Segment.Fits, List.length_nil] at hs
      omega

theorem settled_of_error {agent : Agent σ} {c : Conversation} {overrides : RunOverrides} {m : Nat}
    {session t : Session σ} {e : AgentRunError}
    (h : agent.runConversation c (overrides.capped m) session = (.error e, t)) (k : Nat) :
    agent.applySystemPrompt e.conversation (overrides.capped k) = e.conversation := by
  obtain ⟨s, _, hconv, _⟩ := executeText_error h
  rw [hconv]
  exact applySystemPrompt_extend agent c overrides m k s.messages

theorem runConversation_add (agent : Agent σ) (c : Conversation) (overrides : RunOverrides)
    (m n : Nat) (session : Session σ) :
    agent.runConversation c (overrides.capped (m + n)) session =
      interrupted AgentResult.after (agent.runConversation c (overrides.capped m) session)
        (fun d t => agent.runConversation d (overrides.capped n) t) := by
  have hadd := executeText_add agent (agent.applySystemPrompt c (overrides.capped m))
    overrides m n session
  rw [Agent.runConversation, applySystemPrompt_capped agent c overrides (m + n) m, hadd]
  cases hfirst : agent.runConversation c (overrides.capped m) session with
  | mk outcome t =>
    have hstart := hfirst
    rw [Agent.runConversation] at hstart
    rw [hstart]
    cases outcome with
    | ok r => rfl
    | error e => simp only [interrupted, Agent.runConversation, settled_of_error hfirst n]

/-- A provider error carries the conversation of the call that failed, which is
the last one made. -/
theorem runConversation_failed {agent : Agent σ} {c : Conversation} {overrides : RunOverrides}
    {session t : Session σ} {e : AgentRunError}
    (h : agent.runConversation c overrides session = (.error e, t))
    (hkind : e.kind = .providerError) :
    ∃ es x, t.since session = es ++ [.chat e.conversation (agent.request none) (.error x)] ∧
      e.message = x.what := by
  obtain ⟨s, ho, _, hext⟩ := executeText_error h
  obtain ⟨rounds, ending⟩ := s
  rw [hext.since]
  cases ending with
  | answered response final => cases ho
  | capped =>
    cases ho
    cases hkind
  | failed x =>
    cases ho
    exact ⟨roundEvents (agent.request none) (agent.applySystemPrompt c overrides) rounds, x,
      by simp [Segment.events, Ending.events, Segment.messages, Ending.messages], rfl⟩

theorem executeText_head (agent : Agent σ) (c : Conversation) (overrides : RunOverrides)
    {k : Nat} (hk : 0 < k) (u : Session σ) :
    ∃ o es, (agent.executeText c (overrides.capped k) u).2.since u =
      .chat c (agent.request none) o :: es := by
  obtain ⟨s, t, hfits, hs, hext⟩ := executeLoop_spec agent c (overrides.capped k) none u
  have hpos : 0 < (agent.maxIterations (overrides.capped k)).toNat := by
    rwa [maxIterations_capped, Int.toNat_natCast]
  obtain ⟨o, es, hhead⟩ := segment_events_head hfits hpos (agent.request none) c
  have ht : (agent.executeText c (overrides.capped k) u).2 = t := by
    unfold Agent.executeText
    rw [hs]
    cases s.outcome c (agent.maxIterations (overrides.capped k)) <;> rfl
  exact ⟨o, es, by rw [ht, hext.since, hhead]⟩

/-- Interrupting and resuming composes: a run with a cap of `m + n` is a run with
a cap of `m`, resumed with a cap of `n` where its own cap ends it. A run resumed
after a provider error begins with the very call that failed. -/
theorem runConversation_resume (agent : Agent σ) (c : Conversation) (overrides : RunOverrides)
    (m n : Nat) (session : Session σ) :
    agent.runConversation c (overrides.capped (m + n)) session =
        interrupted AgentResult.after (agent.runConversation c (overrides.capped m) session)
          (fun d t => agent.runConversation d (overrides.capped n) t) ∧
      ∀ e t, agent.runConversation c (overrides.capped m) session = (.error e, t) →
        e.kind = .providerError →
        (∃ es x, t.since session = es ++ [.chat e.conversation (agent.request none) (.error x)] ∧
          e.message = x.what) ∧
        ∀ (k : Nat) (u : Session σ), 0 < k →
          ∃ o es, (agent.runConversation e.conversation (overrides.capped k) u).2.since u =
            .chat e.conversation (agent.request none) o :: es := by
  constructor
  · exact runConversation_add agent c overrides m n session
  · intro e t h hkind
    constructor
    · exact runConversation_failed h hkind
    · intro k u hk
      rw [Agent.runConversation, settled_of_error h k]
      exact executeText_head agent e.conversation overrides hk u

end

/-- A run whose provider fails at once, and a rerun from what its error carries. -/
theorem runConversation_resume_calculator :
    letI := Platform.reference
    ∃ e t, Transcript.calculator.runConversation {} (RunOverrides.capped {} 3)
        ⟨[.error (.runtimeError (str "503"))], []⟩ = (.error e, t) ∧
      ∃ o es, (Transcript.calculator.runConversation e.conversation (RunOverrides.capped {} 5)
        ⟨Transcript.script, []⟩).2.since ⟨Transcript.script, []⟩ =
          .chat e.conversation (Transcript.calculator.request none) o :: es := by
  let platform := Platform.reference
  refine ⟨_, _, rfl, ?_⟩
  have h := runConversation_resume Transcript.calculator {} {} 3 0
    ⟨[.error (.runtimeError (str "503"))], []⟩
  exact (h.2 _ _ rfl rfl).2 5 ⟨Transcript.script, []⟩ (by decide)

end Proofs.Resume

end Forgeant
