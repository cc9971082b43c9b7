import Forgeant.Proofs.Transcript
import Forgeant.Retry

namespace Forgeant.Proofs.RetryLoop
open ReactLoop

variable {σ T : Type} [Platform] {agent : Agent σ} {output : OutputType T}
  {overrides : RunOverrides} {cfg : StructuredConfig}

/-- Everything one attempt can do: let an error of the loop through, return
what its text decodes to, or fail and go round again. -/
theorem attempt_cases (agent : Agent σ) (output : OutputType T) (overrides : RunOverrides)
    (cfg : StructuredConfig) (i : Nat) (s : RetryState σ) :
    ∃ (g : Segment) (t : Session σ), g.Fits (agent.maxIterations overrides).toNat ∧
      Extends agent.provider agent.registry s.session
        (g.events (agent.request (some output.schema)) s.working) t ∧
      ((∃ e, g.outcome s.working (agent.maxIterations overrides) = .error e ∧
        agent.attempt output overrides cfg i s = .leave (.error e, t)) ∨
      (∃ loop value, g.outcome s.working (agent.maxIterations overrides) = .ok loop ∧
        output.decode (extractLastText loop.conversation) = .ok value ∧
        agent.attempt output overrides cfg i s = .leave (.ok
          { output := value, conversation := loop.conversation,
            totalUsage := s.accumulated + loop.totalUsage,
            iterations := s.totalIterations + loop.iterations,
            finishReason := loop.finishReason }, t)) ∨
      (∃ loop e, g.outcome s.working (agent.maxIterations overrides) = .ok loop ∧
        output.decode (extractLastText loop.conversation) = .error e ∧
        agent.attempt output overrides cfg i s = .again
          { working :=
              if i < cfg.maxRetries then loop.conversation.add (correctiveMessage e.what)
              else loop.conversation
            accumulated := s.accumulated + loop.totalUsage,
            totalIterations := s.totalIterations + loop.iterations,
            lastFinishReason := loop.finishReason, lastError := e.what, session := t })) := by
  obtain ⟨g, t, hfits, he, hext⟩ :=
    executeLoop_spec agent s.working overrides (some output.schema) s.session
  refine ⟨g, t, hfits, hext, ?_⟩
  unfold Agent.attempt
  rw [he]
  cases ho : g.outcome s.working (agent.maxIterations overrides) with
  | error e => exact .inl ⟨e, rfl, rfl⟩
  | ok loop =>
    right
    cases hd : output.decode (extractLastText loop.conversation) with
    | ok value => exact .inl ⟨loop, value, rfl, hd, by simp [hd]⟩
    | error e => exact .inr ⟨loop, e, rfl, hd, by simp [hd]⟩

/-- A segment that the loop returns from is complete. -/
theorem complete_of_ok {g : Segment} {c : Conversation} {cap : Int} {loop : LoopResult}
    (h : g.outcome c cap = .ok loop) :
    ∃ rounds response final, g = ⟨rounds, .answered response final⟩ ∧
      loop.conversation = c.extend g.messages ∧ loop.totalUsage = g.usage ∧
      loop.iterations = rounds.length + 1 ∧ loop.finishReason = response.finishReason := by
  obtain ⟨rounds, ending⟩ := g
  cases ending with
  | answered response final =>
    cases h
    exact ⟨rounds, response, final, rfl, rfl, rfl, rfl, rfl⟩
  | failed e => simp [Segment.outcome] at h
  | capped => simp [Segment.outcome] at h

/-- The attempts that went round again with a corrective message. -/
theorem passes_failed {c : Conversation} {session : Session σ} {j : Nat} {t : RetryState σ}
    (h : Loop.Passes (agent.attempt output overrides cfg) 0
      { working := c, session := session } j t) (hj : j ≤ cfg.maxRetries) :
    ∃ failed : List FailedAttempt, failed.length = j ∧ Attempts.Rejected output c failed ∧
      (∀ a ∈ failed, a.segment.Fits (agent.maxIterations overrides).toNat) ∧
      t.working = Attempts.before c failed ∧
      t.accumulated = (failed.map FailedAttempt.usage).sum ∧
      t.totalIterations = (failed.map FailedAttempt.iterations).sum ∧
      Extends agent.provider agent.registry session
        (threaded FailedAttempt.messages
          (FailedAttempt.events (agent.request (some output.schema))) c failed) t.session := by
  induction h with
  | refl => exact ⟨[], rfl, .nil output c, by simp, by simp, rfl, rfl, .refl session⟩
  | @snoc j u v _ hb ih =>
    obtain ⟨failed, hlen, hrej, hfits, hw, hu, hi, hext⟩ := ih (by omega)
    obtain ⟨g, x, hg, hgx, ⟨e, _, ha⟩ | ⟨loop, value, _, _, ha⟩ | ⟨loop, e, ho, hd, ha⟩⟩ :=
      attempt_cases agent output overrides cfg j u
    · cases ha.symm.trans hb
    · cases ha.symm.trans hb
    · cases ha.symm.trans hb
      obtain ⟨rounds, response, final, rfl, hconv, husage, hiter, _⟩ := complete_of_ok ho
      rw [hw] at hconv hgx
      refine ⟨failed ++ [⟨rounds, response, final, e⟩], by simp [hlen], ?_, ?_, ?_, ?_, ?_, ?_⟩
      · exact hrej.snoc (by rw [hconv] at hd; exact hd)
      · intro a ha
        rcases List.mem_append.mp ha with ha | ha
        · exact hfits a ha
        · cases List.mem_singleton.mp ha
          exact hg
      · have hlt : (j : Int) < cfg.maxRetries := by omega
        simp [hlt, hconv, Attempts.before_snoc, FailedAttempt.messages, FailedAttempt.segment,
          Conversation.add_eq_extend]
      · simp [hu, husage, FailedAttempt.usage, FailedAttempt.segment]
      · simp [hi, hiter, FailedAttempt.iterations]
      · rw [threaded_snoc]
        exact hext.trans hgx

/-- The retry loop of the code is the abstract structured run. -/
theorem retryLoop_spec (agent : Agent σ) (output : OutputType T) (cfg : StructuredConfig)
    (hcfg : 0 ≤ cfg.maxRetries) (c : Conversation) (overrides : RunOverrides)
    (session : Session σ) :
    ∃ (as : Attempts) (t : Session σ),
      as.Allowed output cfg.maxRetries (agent.maxIterations overrides) c ∧
      agent.retryLoop output cfg c overrides session =
        (as.outcome output cfg (agent.maxIterations overrides) c, t) ∧
      Extends agent.provider agent.registry session
        (as.events (agent.request (some output.schema)) c) t := by
  obtain ⟨n, hn⟩ := Int.eq_ofNat_of_zero_le hcfg
  unfold Agent.retryLoop
  rw [show (cfg.maxRetries + 1).toNat = n + 1 by omega]
  rcases Loop.run_cases (n + 1) 0 ({ working := c, session := session } : RetryState σ) with
    ⟨u, hp, hr⟩ | ⟨j, u, r, hj, hp, hl, hr⟩
  · -- every attempt failed; the last of them added no corrective message
    rw [hr]
    rw [Nat.zero_add] at hp
    cases hp with
    | @snoc _ v _ hp hb =>
      obtain ⟨failed, hlen, hrej, hfits, hw, hu, hi, hext⟩ := passes_failed hp (by omega)
      obtain ⟨g, x, hg, hgx, ⟨e, _, ha⟩ | ⟨loop, value, _, _, ha⟩ | ⟨loop, e, ho, hd, ha⟩⟩ :=
        attempt_cases agent output overrides cfg n v
      · cases ha.symm.trans hb
      · cases ha.symm.trans hb
      · cases ha.symm.trans hb
        rw [hw] at ho hgx
        refine ⟨⟨failed, g⟩, x, ⟨by simp only; omega, hrej, hfits, hg, ?_⟩, ?_, hext.trans hgx⟩
        · intro _ _ _
          simp only
          omega
        · have hlt : ¬ (n : Int) < cfg.maxRetries := by omega
          simp [Attempts.outcome, ho, hd, hlt, hu, hi]
  · obtain ⟨failed, hlen, hrej, hfits, hw, hu, hi, hext⟩ := passes_failed hp (by omega)
    rw [hr]
    obtain ⟨g, x, hg, hgx, ⟨e, ho, ha⟩ | ⟨loop, value, ho, hd, ha⟩ | ⟨loop, e, _, _, ha⟩⟩ :=
      attempt_cases agent output overrides cfg j u
    · cases ha.symm.trans hl
      rw [hw] at ho hgx
      refine ⟨⟨failed, g⟩, x, ⟨by simp only; omega, hrej, hfits, hg, ?_⟩, ?_, hext.trans hgx⟩
      · intro _ hcomplete
        obtain ⟨response, final, hending⟩ := hcomplete
        simp only at hending
        simp [Segment.outcome, hending] at ho
      · simp [Attempts.outcome, ho]
    · cases ha.symm.trans hl
      rw [hw] at ho hgx
      refine ⟨⟨failed, g⟩, x, ⟨by simp only; omega, hrej, hfits, hg, ?_⟩, ?_, hext.trans hgx⟩
      · intro e _ hv
        obtain ⟨_, _, _, _, hconv, _⟩ := complete_of_ok ho
        simp only [Attempts.verdict, Attempts.messages, ← Conversation.extend_extend] at hv
        rw [hconv] at hd
        cases hd.symm.trans hv
      · simp [Attempts.outcome, ho, hd, hu, hi]
    · cases ha.symm.trans hl

theorem error_of_not_complete {g : Segment} (h : ¬ g.Complete) (c : Conversation) (cap : Int) :
    ∃ e, g.outcome c cap = .error e ∧ e.kind ≠ .structuredParse ∧
      e.conversation = c.extend g.messages ∧ g.ending.Tells (.error e) := by
  obtain ⟨rounds, ending⟩ := g
  cases ending with
  | answered response final => exact absurd ⟨response, final, rfl⟩ h
  | failed e => exact ⟨_, rfl, by simp, rfl, rfl, rfl⟩
  | capped => exact ⟨_, rfl, by simp, rfl, rfl⟩

/-- What attempts mean, by how the last one ends. -/
theorem outcome_cases (as : Attempts) (output : OutputType T) (cfg : StructuredConfig) (cap : Int)
    (c : Conversation) :
    (¬ as.last.Complete ∧ ∃ e, as.last.outcome (Attempts.before c as.failed) cap = .error e ∧
      as.outcome output cfg cap c = .error e) ∨
    (∃ rounds response final value, as.last = ⟨rounds, .answered response final⟩ ∧
      as.verdict output c = .ok value ∧
      as.outcome output cfg cap c = .ok
        { output := value, conversation := c.extend as.messages,
          totalUsage := (as.failed.map FailedAttempt.usage).sum + as.last.usage,
          iterations := (as.failed.map FailedAttempt.iterations).sum + (rounds.length + 1),
          finishReason := response.finishReason }) ∨
    (∃ rounds response final e, as.last = ⟨rounds, .answered response final⟩ ∧
      as.verdict output c = .error e ∧
      as.outcome output cfg cap c = .error
        { kind := .structuredParse, message := structuredParseMessage cfg e.what,
          conversation := c.extend as.messages,
          usage := (as.failed.map FailedAttempt.usage).sum + as.last.usage,
          iterations := (as.failed.map FailedAttempt.iterations).sum + (rounds.length + 1),
          finishReason := response.finishReason }) := by
  by_cases hc : as.last.Complete
  · right
    obtain ⟨failed, ⟨rounds, ending⟩⟩ := as
    obtain ⟨response, final, hending⟩ := hc
    simp only at hending
    subst hending
    have hconv : (Attempts.before c failed).extend
        (Segment.messages ⟨rounds, .answered response final⟩) =
        c.extend (Attempts.messages ⟨failed, ⟨rounds, .answered response final⟩⟩) := by
      simp [Attempts.before, Attempts.messages]
    cases hd : Attempts.verdict output c ⟨failed, ⟨rounds, .answered response final⟩⟩ with
    | ok value =>
      left
      refine ⟨rounds, response, final, value, rfl, rfl, ?_⟩
      simp only [Attempts.outcome, Segment.outcome, hconv]
      simp only [Attempts.verdict] at hd
      simp only [hd]
    | error e =>
      right
      refine ⟨rounds, response, final, e, rfl, rfl, ?_⟩
      simp only [Attempts.outcome, Segment.outcome, hconv]
      simp only [Attempts.verdict] at hd
      simp only [hd]
  · left
    obtain ⟨e, he, _⟩ := error_of_not_complete hc (Attempts.before c as.failed) cap
    exact ⟨hc, e, he, by simp only [Attempts.outcome, he]⟩

theorem outcome_conversation (as : Attempts) (output : OutputType T) (cfg : StructuredConfig)
    (cap : Int) (c : Conversation) :
    reported AgentResult.conversation AgentRunError.conversation (as.outcome output cfg cap c) =
      c.extend as.messages := by
  rcases outcome_cases as output cfg cap c with
    ⟨hc, e, he, ho⟩ | ⟨_, _, _, _, _, _, ho⟩ | ⟨_, _, _, _, _, _, ho⟩
  · have := Transcript.outcome_conversation as.last (Attempts.before c as.failed) cap
    rw [he] at this
    rw [ho]
    simpa [reported, Attempts.before, Attempts.messages] using this
  · rw [ho, reported]
  · rw [ho, reported]

theorem outcomes_length {as : Attempts} {output : OutputType T} {retries cap : Int}
    {c : Conversation} (h : as.Allowed output retries cap c) (request : ChatRequest)
    (d : Conversation) :
    (chatOutcomes (as.events request d)).length ≤ (retries + 1) * max 0 cap := by
  have hfailed (failed : List FailedAttempt) (hf : ∀ a ∈ failed, a.segment.Fits cap.toNat) :
      (failed.flatMap (fun a => a.segment.outcomes)).length ≤ failed.length * cap.toNat := by
    induction failed with
    | nil => simp
    | cons a failed ih =>
      have ha := (hf a (by simp)).outcomes_length
      have hrest := ih (fun b hb => hf b (by simp [hb]))
      simp only [List.flatMap_cons, List.length_append, List.length_cons, Nat.succ_mul]
      omega
  have hlast := h.lastFits.outcomes_length
  have hall := hfailed as.failed h.fits
  have hcap : (cap.toNat : Int) = max 0 cap := by omega
  rw [Attempts.chatOutcomes_events, List.length_append, ← hcap]
  calc ((_ + as.last.outcomes.length : Nat) : Int)
      ≤ ((as.failed.length * cap.toNat + cap.toNat : Nat) : Int) := by omega
    _ = (as.failed.length + 1) * (cap.toNat : Int) := by push_cast; ring
    _ ≤ (retries + 1) * (cap.toNat : Int) := by
      apply Int.mul_le_mul_of_nonneg_right _ (by omega)
      have := h.bound
      omega

theorem explains_outcome {as : Attempts} {output : OutputType T} {cfg : StructuredConfig}
    {cap : Int} {c : Conversation} (h : as.Allowed output cfg.maxRetries cap c) :
    as.Explains output cfg c (as.outcome output cfg cap c) := by
  have hconv := outcome_conversation as output cfg cap c
  rcases outcome_cases as output cfg cap c with
    ⟨hc, e, he, ho⟩ | ⟨rounds, response, final, value, hl, hd, ho⟩ |
    ⟨rounds, response, final, e, hl, hd, ho⟩
  · obtain ⟨e', he', hkind, _, htells⟩ :=
      error_of_not_complete hc (Attempts.before c as.failed) cap
    cases he.symm.trans he'
    rw [ho] at hconv ⊢
    exact ⟨hconv, by simp [hc], by simp, by simp [hc, hkind], by simp [hkind],
      fun error herror _ => by cases herror; exact ⟨hc, htells⟩⟩
  · have hc : as.last.Complete := ⟨response, final, by rw [hl]⟩
    rw [ho]
    exact ⟨rfl, by simp [hc, hd], by simp [hd], by simp [hd], by simp, by simp⟩
  · have hc : as.last.Complete := ⟨response, final, by rw [hl]⟩
    have hlen := h.exhausted e hc hd
    rw [ho]
    exact ⟨rfl, by simp [hd], by simp, by simp [hc, hd, hlen], by simp [hd], by simp⟩

end Forgeant.Proofs.RetryLoop
