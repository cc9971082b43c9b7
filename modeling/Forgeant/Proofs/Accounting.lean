import Forgeant.Proofs.RetryLoop
import Forgeant.Structured

namespace Forgeant.Proofs.Accounting
open ReactLoop RetryLoop

def outcomeUsage : Except StdException LlmResponse → Usage
  | .ok response => response.usage
  | .error _ => 0

def spent (outcomes : List (Except StdException LlmResponse)) : Usage :=
  (outcomes.map outcomeUsage).sum

/-- A call reports the usage of all responses it got and the number of chat
calls it made. -/
def Accounted {σ α : Type} (session : Session σ)
    (call : Except AgentRunError (AgentResult α) × Session σ) : Prop :=
  reported AgentResult.totalUsage AgentRunError.usage call.1 =
      spent (chatOutcomes (call.2.since session)) ∧
    reported AgentResult.iterations AgentRunError.iterations call.1 =
      (chatOutcomes (call.2.since session)).length

/-- The outcome is a response that asks for no tool. -/
def Terminal (outcome : Except StdException LlmResponse) : Prop :=
  ∃ response, outcome = .ok response ∧ response.message.toolUses = []

/-- Some chat call came back with a terminal response, but the last one did
not: an attempt was under way that a rejected answer had led to. -/
def CutShort (outcomes : List (Except StdException LlmResponse)) : Prop :=
  (∃ outcome ∈ outcomes, Terminal outcome) ∧
    ∀ outcome, outcomes.getLast? = some outcome → ¬ Terminal outcome

theorem spent_append (os ps : List (Except StdException LlmResponse)) :
    spent (os ++ ps) = spent os + spent ps := by
  simp [spent]

theorem segment_usage (s : Segment) : s.usage = spent s.outcomes := by
  obtain ⟨rounds, ending⟩ := s
  have hrounds : (rounds.map Round.usage).sum = spent (rounds.map (fun r => .ok r.response)) := by
    simp only [spent, List.map_map]
    rfl
  have hending : ending.usage = spent ending.outcomes := by
    cases ending <;> simp [spent, Ending.usage, Ending.outcomes, outcomeUsage]
  simp only [Segment.usage, Segment.outcomes]
  rw [hrounds, hending, spent_append]

/-- Every outcome of a segment but that of a final answer asks for tools or
is an error. -/
theorem terminal_outcome {s : Segment} {o : Except StdException LlmResponse}
    (ho : o ∈ s.outcomes) (ht : Terminal o) : s.Complete := by
  obtain ⟨rounds, ending⟩ := s
  obtain ⟨response, rfl, final⟩ := ht
  simp only [Segment.outcomes, List.mem_append, List.mem_map] at ho
  rcases ho with ⟨r, _, hr⟩ | ho
  · cases hr
    exact absurd final r.asks
  · cases ending with
    | answered response final => exact ⟨response, final, rfl⟩
    | failed e => simp [Ending.outcomes] at ho
    | capped => simp [Ending.outcomes] at ho

theorem getLast?_complete {s : Segment} (h : s.Complete) :
    ∃ o, s.outcomes.getLast? = some o ∧ Terminal o := by
  obtain ⟨rounds, ending⟩ := s
  obtain ⟨response, final, hending⟩ := h
  simp only at hending
  subst hending
  exact ⟨.ok response, by simp [Segment.outcomes, Ending.outcomes], response, rfl, final⟩

theorem failed_outcomes (a : FailedAttempt) :
    ∃ os, a.segment.outcomes = os ++ [.ok a.response] := by
  exact ⟨a.rounds.map (fun r => .ok r.response), rfl⟩

theorem failed_usage (failed : List FailedAttempt) :
    (failed.map FailedAttempt.usage).sum =
      spent (failed.flatMap (fun a => a.segment.outcomes)) := by
  induction failed with
  | nil => rfl
  | cons a failed ih =>
    rw [List.flatMap_cons, spent_append, List.map_cons, List.sum_cons, ih, FailedAttempt.usage,
      segment_usage]

theorem failed_iterations (failed : List FailedAttempt) :
    (failed.map FailedAttempt.iterations).sum =
      (failed.flatMap (fun a => a.segment.outcomes)).length := by
  induction failed with
  | nil => rfl
  | cons a failed ih =>
    simp only [List.flatMap_cons, List.length_append, List.map_cons, List.sum_cons, ih]
    simp [FailedAttempt.iterations, FailedAttempt.segment, Segment.outcomes, Ending.outcomes]

theorem complete_iterations {as : Attempts} {rounds : List Round} {response : LlmResponse}
    {final : response.message.toolUses = []} (h : as.last = ⟨rounds, .answered response final⟩) :
    (as.failed.map FailedAttempt.iterations).sum + (rounds.length + 1) =
      (as.failed.flatMap (fun a => a.segment.outcomes) ++ as.last.outcomes).length := by
  rw [failed_iterations]
  simp [h, Segment.outcomes, Ending.outcomes]

theorem spent_pos {as : Attempts} (hne : as.failed ≠ []) :
    as.last.outcomes.length < (as.failed.flatMap (fun a => a.segment.outcomes) ++
      as.last.outcomes).length := by
  cases hf : as.failed with
  | nil => exact absurd hf hne
  | cons a failed =>
    obtain ⟨os, ha⟩ := failed_outcomes a
    simp only [List.flatMap_cons, ha, List.length_append, List.length_cons]
    omega

section

variable {σ T : Type} [Platform]

theorem segment_iterations {s : Segment} {cap : Int} (hcap : 0 ≤ cap) (h : s.Fits cap.toNat)
    (c : Conversation) :
    reported LoopResult.iterations AgentRunError.iterations (s.outcome c cap) =
      s.outcomes.length := by
  obtain ⟨rounds, ending⟩ := s
  cases ending with
  | answered response final => simp [Segment.outcome, Segment.outcomes, Ending.outcomes, reported]
  | failed e => simp [Segment.outcome, Segment.outcomes, Ending.outcomes, reported]
  | capped =>
    simp only [Segment.Fits] at h
    simp [Segment.outcome, Segment.outcomes, Ending.outcomes, reported, h, hcap]

/-- A failed attempt took a chat call, so the cap leaves one to the last. -/
theorem last_outcomes_ne_nil {as : Attempts} {output : OutputType T} {retries cap : Int}
    {c : Conversation} (h : as.Allowed output retries cap c) (hne : as.failed ≠ []) :
    as.last.outcomes ≠ [] := by
  obtain ⟨a, ha⟩ := List.exists_mem_of_ne_nil _ hne
  have hfit := h.fits a ha
  have hlast := h.lastFits
  obtain ⟨failed, ⟨rounds, ending⟩⟩ := as
  intro hnil
  simp only [Segment.outcomes, List.append_eq_nil_iff, List.map_eq_nil_iff] at hnil
  obtain ⟨rfl, hend⟩ := hnil
  cases ending with
  | answered response final => simp [Ending.outcomes] at hend
  | failed e => simp [Ending.outcomes] at hend
  | capped =>
    simp only [Segment.Fits, FailedAttempt.segment, List.length_nil] at hfit hlast
    omega

/-- Attempts are cut short when the last one is incomplete and not the first. -/
theorem cutShort_iff {as : Attempts} {output : OutputType T} {retries cap : Int}
    {c : Conversation} (h : as.Allowed output retries cap c) :
    CutShort (as.failed.flatMap (fun a => a.segment.outcomes) ++ as.last.outcomes) ↔
      ¬ as.last.Complete ∧ as.failed ≠ [] := by
  constructor
  · intro hcut
    obtain ⟨⟨o, ho, ht⟩, hlast⟩ := hcut
    have hinc : ¬ as.last.Complete := by
      intro hc
      obtain ⟨o', ho', ht'⟩ := getLast?_complete hc
      exact hlast o' (by simp [List.getLast?_append, ho']) ht'
    refine ⟨hinc, ?_⟩
    intro hf
    simp only [hf, List.flatMap_nil, List.nil_append] at ho
    exact hinc (terminal_outcome ho ht)
  · intro hlast
    obtain ⟨hinc, hne⟩ := hlast
    obtain ⟨a, ha⟩ := List.exists_mem_of_ne_nil _ hne
    obtain ⟨os, hos⟩ := failed_outcomes a
    refine ⟨⟨.ok a.response, ?_, a.response, rfl, a.final⟩, ?_⟩
    · apply List.mem_append_left
      exact List.mem_flatMap.mpr ⟨a, ha, by simp [hos]⟩
    · intro o ho ht
      rw [List.getLast?_append_of_ne_nil _ (last_outcomes_ne_nil h hne)] at ho
      exact hinc (terminal_outcome (List.mem_of_getLast? ho) ht)

theorem attempts_accounted {as : Attempts} {output : OutputType T} {cfg : StructuredConfig}
    {cap : Int} (hcap : 0 ≤ cap) {c : Conversation} (h : as.Allowed output cfg.maxRetries cap c) :
    reported AgentResult.totalUsage AgentRunError.usage (as.outcome output cfg cap c) =
        spent (as.failed.flatMap (fun a => a.segment.outcomes) ++ as.last.outcomes) ∧
      reported AgentResult.iterations AgentRunError.iterations (as.outcome output cfg cap c) =
        (as.failed.flatMap (fun a => a.segment.outcomes) ++ as.last.outcomes).length ↔
    ¬ CutShort (as.failed.flatMap (fun a => a.segment.outcomes) ++ as.last.outcomes) := by
  have htotal : (as.failed.map FailedAttempt.usage).sum + as.last.usage =
      spent (as.failed.flatMap (fun a => a.segment.outcomes) ++ as.last.outcomes) := by
    rw [spent_append, failed_usage, segment_usage]
  rw [cutShort_iff h]
  rcases outcome_cases as output cfg cap c with
    ⟨hc, e, he, ho⟩ | ⟨rounds, response, final, value, hl, _, ho⟩ |
    ⟨rounds, response, final, e, hl, _, ho⟩
  · have husage := Transcript.outcome_usage as.last (Attempts.before c as.failed) cap
    have hiter := segment_iterations hcap h.lastFits (Attempts.before c as.failed)
    rw [he, reported] at husage hiter
    rw [ho, reported, reported, husage, hiter]
    by_cases hf : as.failed = []
    · simp [hc, hf, segment_usage]
    · have := spent_pos hf
      constructor
      · intro hboth
        obtain ⟨_, hlen⟩ := hboth
        omega
      · intro hn
        exact absurd ⟨hc, hf⟩ hn
  · have hc : as.last.Complete := ⟨response, final, by rw [hl]⟩
    rw [ho, reported, reported, htotal, complete_iterations hl]
    simp [hc]
  · have hc : as.last.Complete := ⟨response, final, by rw [hl]⟩
    rw [ho, reported, reported, htotal, complete_iterations hl]
    simp [hc]

/-- `structured<T>` keeps its accounts across its attempts. -/
theorem structured_passes {provider : LlmProvider σ} {output : OutputType T}
    {config : StructuredConfig} {c : Conversation} {session : Session σ} {j : Nat}
    {t : RetryState σ} (h : Loop.Passes (structuredAttempt provider output config) 0
      { working := c, session := session } j t) :
    ∃ es, Extends provider {} session es t.session ∧ t.accumulated = spent (chatOutcomes es) ∧
      (chatOutcomes es).length = j := by
  induction h with
  | refl => exact ⟨[], .refl session, rfl, rfl⟩
  | @snoc j u v _ hb ih =>
    obtain ⟨es, hext, husage, hlen⟩ := ih
    obtain ⟨o, x, hchat, ⟨e, rfl, hl⟩ | ⟨response, value, rfl, _, hl⟩ | ⟨response, e, rfl, _, hl⟩⟩ :=
      structuredAttempt_cases provider output config j u
    · cases hl.symm.trans hb
    · cases hl.symm.trans hb
    · cases hl.symm.trans hb
      refine ⟨_, hext.trans (Session.chat_extends hchat), ?_, ?_⟩
      · rw [chatOutcomes_append, spent_append, ← husage]
        simp [chatOutcomes, spent, outcomeUsage]
      · rw [chatOutcomes_append, List.length_append, hlen]
        rfl

theorem structured_accounted (provider : LlmProvider σ) (output : OutputType T)
    (c : Conversation) {config : StructuredConfig} (hcfg : 0 ≤ config.maxRetries)
    (session : Session σ) : Accounted session (structured provider output c config session) := by
  unfold structured
  rcases Loop.run_cases (config.maxRetries + 1).toNat 0
      ({ working := c, session := session } : RetryState σ) with
    ⟨u, hp, hr⟩ | ⟨j, u, r, hj, hp, hl, hr⟩
  · obtain ⟨es, hext, husage, hlen⟩ := structured_passes hp
    rw [hr]
    simp only [Accounted, reported, hext.since, husage, hlen, true_and]
    omega
  · obtain ⟨es, hext, husage, hlen⟩ := structured_passes hp
    rw [hr]
    obtain ⟨o, x, hchat, ⟨e, rfl, hb⟩ | ⟨response, value, rfl, _, hb⟩ | ⟨response, e, rfl, _, hb⟩⟩ :=
      structuredAttempt_cases provider output config j u
    · cases hb.symm.trans hl
      have hall := hext.trans (Session.chat_extends hchat)
      simp only [Accounted, reported, hall.since, chatOutcomes_append, spent_append, ← husage]
      simp [chatOutcomes, spent, outcomeUsage] at hlen ⊢
      omega
    · cases hb.symm.trans hl
      have hall := hext.trans (Session.chat_extends hchat)
      simp only [Accounted, reported, hall.since, chatOutcomes_append, spent_append, ← husage]
      simp [chatOutcomes, spent, outcomeUsage] at hlen ⊢
      omega
    · cases hb.symm.trans hl

theorem executeText_accounted (agent : Agent σ) (c : Conversation) {overrides : RunOverrides}
    (hcap : 0 ≤ agent.maxIterations overrides) (session : Session σ) :
    Accounted session (agent.executeText c overrides session) := by
  obtain ⟨s, t, hfits, hs, hext⟩ := executeLoop_spec agent c overrides none session
  have husage := Transcript.outcome_usage s c (agent.maxIterations overrides)
  have hiter := segment_iterations hcap hfits c
  unfold Agent.executeText
  rw [hs]
  cases ho : s.outcome c (agent.maxIterations overrides) with
  | error e =>
    rw [ho, reported] at husage hiter
    simp only [Accounted, reported, hext.since, Segment.chatOutcomes_events, husage, hiter,
      segment_usage, and_self]
  | ok loop =>
    rw [ho, reported] at husage hiter
    simp only [Accounted, reported, hext.since, Segment.chatOutcomes_events, husage, hiter,
      segment_usage, and_self]

theorem executeStructured_accounted (agent : Agent σ) (output : OutputType T) (c : Conversation)
    {overrides : RunOverrides} (hcap : 0 ≤ agent.maxIterations overrides) (session : Session σ) :
    let call := agent.executeStructured output c overrides session
    Accounted session call ↔ ¬ CutShort (chatOutcomes (call.2.since session)) := by
  obtain ⟨as, t, hallowed, hrun, hext⟩ :=
    retryLoop_spec agent output {} (by decide) c overrides session
  simp only [Agent.executeStructured, hrun, Accounted, hext.since, Attempts.chatOutcomes_events]
  exact attempts_accounted hcap hallowed

/-- No accounting is lost in a text run or in `structured<T>`. A structured run
of an agent accounts for everything exactly when no attempt after a rejected
one is cut short: the error of such an attempt tells of itself alone. -/
theorem calls_accounted (agent : Agent σ) (provider : LlmProvider σ) (output : OutputType T)
    (prompt : Str) (c : Conversation) (overrides : RunOverrides)
    (hcap : 0 ≤ agent.maxIterations overrides) (config : StructuredConfig)
    (hconfig : 0 ≤ config.maxRetries) (session : Session σ) :
    Accounted session (agent.run prompt overrides session) ∧
      Accounted session (agent.runConversation c overrides session) ∧
      Accounted session (structured provider output c config session) ∧
      (Accounted session (agent.runAs output prompt overrides session) ↔
        ¬ CutShort (chatOutcomes ((agent.runAs output prompt overrides session).2.since session))) ∧
      (Accounted session (agent.runConversationAs output c overrides session) ↔
        ¬ CutShort (chatOutcomes ((agent.runConversationAs output c overrides session).2.since session))) := by
  exact ⟨executeText_accounted agent _ hcap session, executeText_accounted agent _ hcap session,
    structured_accounted provider output c hconfig session,
    executeStructured_accounted agent output _ hcap session,
    executeStructured_accounted agent output _ hcap session⟩

end

def wholeNumber : OutputType Int := { schema := .null, get := Json.getInt }

theorem calls_accounted_calculator :
    letI := Platform.reference
    Accounted ⟨Transcript.script, []⟩
      (Transcript.calculator.run (str "What is 2 + 3?") {} ⟨Transcript.script, []⟩) := by
  let platform := Platform.reference
  exact (calls_accounted Transcript.calculator .scripted wholeNumber (str "What is 2 + 3?") {} {}
    (by decide) {} (by decide) ⟨Transcript.script, []⟩).1

/-- A first answer that is no number, and then a provider that is down. -/
def proseThenDown : List (Except StdException LlmResponse) :=
  [.ok
    { message := .ofText .assistant (str "five"),
      usage := { inputTokens := 10, outputTokens := 5 } },
    .error (.runtimeError (str "503"))]

/-- Two chat calls were made and 15 tokens used; the error tells of one call
and no tokens. -/
theorem not_accounted_proseThenDown :
    letI := Platform.reference
    ¬ Accounted ⟨proseThenDown, []⟩
      (Transcript.calculator.runAs wholeNumber (str "What is 2 + 3?") {} ⟨proseThenDown, []⟩) := by
  let platform := Platform.reference
  intro h
  have htold : reported AgentResult.iterations AgentRunError.iterations
      (Transcript.calculator.runAs wholeNumber (str "What is 2 + 3?") {} ⟨proseThenDown, []⟩).1 =
      1 := rfl
  have hmade : (chatOutcomes (Session.since (Transcript.calculator.runAs wholeNumber
      (str "What is 2 + 3?") {} ⟨proseThenDown, []⟩).2 ⟨proseThenDown, []⟩)).length = 2 := rfl
  have hcount := h.2
  rw [htold, hmade] at hcount
  exact absurd hcount (by decide)

end Forgeant.Proofs.Accounting
