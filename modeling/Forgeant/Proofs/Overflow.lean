import Forgeant.Proofs.Accounting

namespace Forgeant

/-- The values of `int`. -/
def IsInt (n : Int) : Prop := -2 ^ 31 ≤ n ∧ n < 2 ^ 31

/-- Neither count is further than `n` from zero. -/
def Usage.Within (n : Nat) (u : Usage) : Prop :=
  u.inputTokens.natAbs ≤ n ∧ u.outputTokens.natAbs ≤ n

def Usage.IsInt (u : Usage) : Prop := Forgeant.IsInt u.inputTokens ∧ Forgeant.IsInt u.outputTokens

/-- What a reply reports is never further than `m` from zero. -/
def LlmProvider.Reports {σ : Type} (provider : LlmProvider σ) (m : Nat) : Prop :=
  ∀ {c request w response v}, provider.chat c request w = (.ok response, v) →
    response.usage.Within m

section

variable {σ T : Type} [Platform]

/-- The sums of one `execute_loop`: what its passes start with and what it
returns or throws. -/
structure Agent.LoopFits (agent : Agent σ) (working : Conversation) (overrides : RunOverrides)
    (schema : Option Json) (session : Session σ) : Prop where
  passes : ∀ i s, i ≤ (agent.maxIterations overrides).toNat →
    Loop.Passes (agent.iterate schema) 0 ⟨working, 0, session⟩ i s →
      IsInt i ∧ s.accumulated.IsInt
  returned : (reported LoopResult.totalUsage AgentRunError.usage
      (agent.executeLoop working overrides schema session).1).IsInt ∧
    IsInt (reported LoopResult.iterations AgentRunError.iterations
      (agent.executeLoop working overrides schema session).1)

/-- The sums of a structured run: those of the loop of each attempt, what the
attempts start with and what the run returns or throws. -/
structure Agent.RetriesFit (agent : Agent σ) (output : OutputType T) (working : Conversation)
    (overrides : RunOverrides) (session : Session σ) : Prop where
  attempts : ∀ (j : Nat) t, j ≤ ({} : StructuredConfig).maxRetries →
    Loop.Passes (agent.attempt output overrides {}) 0 { working, session } j t →
      t.accumulated.IsInt ∧ IsInt t.totalIterations ∧
        agent.LoopFits t.working overrides (some output.schema) t.session
  returned : (reported AgentResult.totalUsage AgentRunError.usage
      (agent.executeStructured output working overrides session).1).IsInt ∧
    IsInt (reported AgentResult.iterations AgentRunError.iterations
      (agent.executeStructured output working overrides session).1)

end

namespace Proofs.Overflow
open Accounting

theorem within_mono {u : Usage} {a b : Nat} (h : u.Within a) (hab : a ≤ b) : u.Within b :=
  ⟨h.1.trans hab, h.2.trans hab⟩

theorem within_zero (n : Nat) : (0 : Usage).Within n := ⟨Nat.zero_le n, Nat.zero_le n⟩

theorem within_add {u v : Usage} {a b : Nat} (hu : u.Within a) (hv : v.Within b) :
    (u + v).Within (a + b) := by
  constructor
  · exact (Int.natAbs_add_le _ _).trans (Nat.add_le_add hu.1 hv.1)
  · exact (Int.natAbs_add_le _ _).trans (Nat.add_le_add hu.2 hv.2)

theorem isInt_of_within {u : Usage} {n : Nat} (h : u.Within n) (hn : n < 2 ^ 31) : u.IsInt := by
  obtain ⟨hin, hout⟩ := h
  constructor <;> constructor <;> omega

/-- What some replies report together. -/
theorem spent_within {outcomes : List (Except StdException LlmResponse)} {m : Nat}
    (h : ∀ response, .ok response ∈ outcomes → response.usage.Within m) :
    (spent outcomes).Within (outcomes.length * m) := by
  induction outcomes with
  | nil => exact within_zero _
  | cons o outcomes ih =>
    have hrest := ih (fun response hmem => h response (List.mem_cons_of_mem o hmem))
    have hfirst : (outcomeUsage o).Within m := by
      cases o with
      | error e => exact within_zero m
      | ok response => exact h response List.mem_cons_self
    have hsum := within_add hfirst hrest
    rw [List.length_cons, Nat.succ_mul, Nat.add_comm]
    exact hsum

variable {σ T : Type} {provider : LlmProvider σ} {registry : ToolRegistry σ} {m : Nat}

theorem outcomes_within (reports : provider.Reports m) {s t : Session σ} {es : List Event}
    (h : Extends provider registry s es t) {response : LlmResponse}
    (hmem : .ok response ∈ chatOutcomes es) : response.usage.Within m := by
  obtain ⟨e, he, houtcome⟩ := List.mem_filterMap.mp hmem
  cases e with
  | execute name input outcome => cases houtcome
  | chat c request outcome =>
    cases houtcome
    obtain ⟨u, x, hchat⟩ := h.replays.chat_mem he
    exact reports hchat

variable [Platform]

theorem segment_within (reports : provider.Reports m) {s t : Session σ} {request : ChatRequest}
    {c : Conversation} {g : Segment} {n : Nat} (hfits : g.Fits n)
    (h : Extends provider registry s (g.events request c) t) : g.usage.Within (n * m) := by
  have houtcomes := Segment.chatOutcomes_events request c g
  have hspent := spent_within (fun response hmem => outcomes_within reports h (houtcomes ▸ hmem))
  rw [segment_usage]
  exact within_mono hspent (Nat.mul_le_mul_right m hfits.outcomes_length)

omit [Platform] in
theorem failed_length {failed : List FailedAttempt} {n : Nat}
    (hfits : ∀ a ∈ failed, a.segment.Fits n) :
    (failed.flatMap (fun a => a.segment.outcomes)).length ≤ failed.length * n := by
  induction failed with
  | nil => simp
  | cons a failed ih =>
    have hfirst := (hfits a List.mem_cons_self).outcomes_length
    have hrest := ih (fun b hb => hfits b (List.mem_cons_of_mem a hb))
    rw [List.flatMap_cons, List.length_append, List.length_cons, Nat.succ_mul]
    omega

theorem failed_within (reports : provider.Reports m) {s t : Session σ} {request : ChatRequest}
    {c : Conversation} {failed : List FailedAttempt} {n : Nat}
    (hfits : ∀ a ∈ failed, a.segment.Fits n)
    (h : Extends provider registry s
      (threaded FailedAttempt.messages (FailedAttempt.events request) c failed) t) :
    (failed.map FailedAttempt.usage).sum.Within (failed.length * (n * m)) := by
  have houtcomes : chatOutcomes (threaded FailedAttempt.messages (FailedAttempt.events request) c
      failed) = failed.flatMap (fun a => a.segment.outcomes) :=
    chatOutcomes_threaded (fun d a => Segment.chatOutcomes_events request d a.segment) c failed
  have hspent := spent_within (fun response hmem => outcomes_within reports h (houtcomes ▸ hmem))
  rw [failed_usage, ← Nat.mul_assoc]
  exact within_mono hspent (Nat.mul_le_mul_right m (failed_length hfits))

theorem outcome_iterations {g : Segment} {cap : Int} (hfits : g.Fits cap.toNat) (hcap : IsInt cap)
    (c : Conversation) :
    IsInt (reported LoopResult.iterations AgentRunError.iterations (g.outcome c cap)) := by
  obtain ⟨hlo, hhi⟩ := hcap
  obtain ⟨rounds, ending⟩ := g
  cases ending with
  | capped => exact ⟨hlo, hhi⟩
  | answered response final =>
    have hlt : rounds.length < cap.toNat := hfits
    have hcalls : IsInt (rounds.length + 1) := by
      constructor <;> omega
    exact hcalls
  | failed e =>
    have hlt : rounds.length < cap.toNat := hfits
    have hcalls : IsInt (rounds.length + 1) := by
      constructor <;> omega
    exact hcalls

variable {agent : Agent σ}

theorem loopFits (reports : agent.provider.Reports m) {overrides : RunOverrides}
    (hcap : IsInt (agent.maxIterations overrides))
    (hsum : (agent.maxIterations overrides).toNat * m < 2 ^ 31) (c : Conversation)
    (schema : Option Json) (session : Session σ) :
    agent.LoopFits c overrides schema session where
  passes := by
    intro i s hi h
    obtain ⟨rounds, hlen, _, husage, hextends⟩ := ReactLoop.passes_rounds h
    have hsegment : Segment.usage ⟨rounds, .capped⟩ = s.accumulated := by
      rw [husage]
      exact add_zero _
    have hevents : Segment.events (agent.request schema) c ⟨rounds, .capped⟩ =
      roundEvents (agent.request schema) c rounds := List.append_nil _
    rw [← hevents] at hextends
    have hfits : Segment.Fits i ⟨rounds, .capped⟩ := hlen
    have hwithin := segment_within reports hfits hextends
    rw [hsegment] at hwithin
    refine ⟨?_, isInt_of_within (within_mono hwithin (Nat.mul_le_mul_right m hi)) hsum⟩
    obtain ⟨_, hhi⟩ := hcap
    constructor <;> omega
  returned := by
    obtain ⟨g, t, hfits, hloop, hextends⟩ :=
      ReactLoop.executeLoop_spec agent c overrides schema session
    have hwithin := segment_within reports hfits hextends
    rw [hloop, Transcript.outcome_usage]
    exact ⟨isInt_of_within hwithin hsum, outcome_iterations hfits hcap c⟩

/-- What attempts report, within what three times the cap of replies do. -/
theorem attempts_fit {output : OutputType T} {as : Attempts} {c : Conversation} {cap : Int}
    (hallowed : as.Allowed output ({} : StructuredConfig).maxRetries cap c)
    (reports : ∀ response, .ok response ∈ as.failed.flatMap (fun a => a.segment.outcomes) ++
      as.last.outcomes → response.usage.Within m) (hcap : IsInt cap)
    (hsum : 3 * (cap.toNat * m) < 2 ^ 31) (hcalls : 3 * cap.toNat < 2 ^ 31) :
    (reported AgentResult.totalUsage AgentRunError.usage (as.outcome output {} cap c)).IsInt ∧
      IsInt (reported AgentResult.iterations AgentRunError.iterations
        (as.outcome output {} cap c)) := by
  have hlength : (as.failed.flatMap (fun a => a.segment.outcomes) ++ as.last.outcomes).length ≤
      3 * cap.toNat := by
    have hbound := RetryLoop.outcomes_length hallowed {} c
    have hretries : ({} : StructuredConfig).maxRetries = 2 := rfl
    rw [Attempts.chatOutcomes_events, hretries] at hbound
    omega
  have hlast := spent_within (fun response hmem => reports response (List.mem_append_right _ hmem))
  have hall := within_mono (spent_within reports) (Nat.mul_le_mul_right m hlength)
  rw [← segment_usage] at hlast
  rw [spent_append, ← failed_usage, ← segment_usage, Nat.mul_assoc] at hall
  rcases RetryLoop.outcome_cases as output {} cap c with
    ⟨_, e, he, houtcome⟩ | ⟨rounds, response, final, value, hl, _, houtcome⟩ |
    ⟨rounds, response, final, e, hl, _, houtcome⟩
  · have husage := Transcript.outcome_usage as.last (Attempts.before c as.failed) cap
    have hiterations := outcome_iterations hallowed.lastFits hcap (Attempts.before c as.failed)
    rw [he] at husage hiterations
    have hfits := Nat.mul_le_mul_right m hallowed.lastFits.outcomes_length
    rw [houtcome]
    refine ⟨?_, hiterations⟩
    show e.usage.IsInt
    rw [show e.usage = as.last.usage from husage]
    exact isInt_of_within (within_mono hlast hfits) (by omega)
  · have hiterations := complete_iterations hl
    rw [houtcome]
    refine ⟨isInt_of_within hall hsum, ?_⟩
    show IsInt ((as.failed.map FailedAttempt.iterations).sum + (rounds.length + 1))
    rw [hiterations]
    constructor <;> omega
  · have hiterations := complete_iterations hl
    rw [houtcome]
    refine ⟨isInt_of_within hall hsum, ?_⟩
    show IsInt ((as.failed.map FailedAttempt.iterations).sum + (rounds.length + 1))
    rw [hiterations]
    constructor <;> omega

theorem retriesFit (reports : agent.provider.Reports m) {overrides : RunOverrides}
    (hcap : IsInt (agent.maxIterations overrides))
    (hsum : 3 * ((agent.maxIterations overrides).toNat * m) < 2 ^ 31)
    (hcalls : 3 * (agent.maxIterations overrides).toNat < 2 ^ 31) (output : OutputType T)
    (c : Conversation) (session : Session σ) :
    agent.RetriesFit output c overrides session where
  attempts := by
    intro j t hj h
    obtain ⟨failed, hlen, _, hfits, _, husage, hiterations, hextends⟩ :=
      RetryLoop.passes_failed h hj
    have hretries : ({} : StructuredConfig).maxRetries = 2 := rfl
    have hfailed : failed.length ≤ 3 := by omega
    have hlength := (failed_length hfits).trans (Nat.mul_le_mul_right _ hfailed)
    refine ⟨?_, ?_, loopFits reports hcap (by omega) _ _ _⟩
    · have hwithin := failed_within reports hfits hextends
      rw [husage]
      exact isInt_of_within (within_mono hwithin (Nat.mul_le_mul_right _ hfailed)) hsum
    · rw [hiterations, failed_iterations]
      constructor <;> omega
  returned := by
    obtain ⟨as, t, hallowed, hloop, hextends⟩ :=
      RetryLoop.retryLoop_spec agent output {} (Int.zero_le_ofNat 2) c overrides session
    have houtcomes := as.chatOutcomes_events (agent.request (some output.schema)) c
    rw [Agent.executeStructured, hloop]
    exact attempts_fit hallowed
      (fun response hmem => outcomes_within reports hextends (houtcomes ▸ hmem)) hcap hsum hcalls

/-- Where no reply reports more than `m` tokens, no sum of a run leaves `int`, as
long as three times the cap of such replies do not. -/
theorem sums_fit (reports : agent.provider.Reports m) {overrides : RunOverrides}
    (hcap : IsInt (agent.maxIterations overrides))
    (hsum : 3 * ((agent.maxIterations overrides).toNat * m) < 2 ^ 31)
    (hcalls : 3 * (agent.maxIterations overrides).toNat < 2 ^ 31) (output : OutputType T)
    (c : Conversation) (session : Session σ) :
    agent.LoopFits c overrides none session ∧ agent.RetriesFit output c overrides session :=
  ⟨loopFits reports hcap (by omega) c none session,
    retriesFit reports hcap hsum hcalls output c session⟩

def meter : LlmProvider Unit where
  chat _ _ w := (.ok { message := .ofText .assistant (str "5"), usage := ⟨1200, 80⟩ }, w)

omit [Platform] in
theorem sums_fit_meter :
    letI := Platform.reference
    let agent : Agent Unit := { provider := meter }
    agent.LoopFits {} {} none ⟨(), []⟩ ∧
      agent.RetriesFit (⟨.null, Json.getInt⟩ : OutputType Int) {} {} ⟨(), []⟩ := by
  let platform := Platform.reference
  have hcap : ({ provider := meter } : Agent Unit).maxIterations {} = 10 := rfl
  intro agent
  apply sums_fit (m := 1200)
  · intro c request w response v h
    cases h
    exact ⟨Nat.le_refl _, by decide⟩
  · rw [hcap]
    constructor <;> decide
  · rw [hcap]
    decide
  · rw [hcap]
    decide

end Proofs.Overflow

end Forgeant
