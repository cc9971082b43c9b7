import Forgeant.Segment

namespace Forgeant.Proofs.ReactLoop

theorem hasToolUse_iff (m : Message) : hasToolUse m = true ↔ m.toolUses ≠ [] := by
  unfold hasToolUse Message.toolUses
  induction m.content with
  | nil => simp
  | cons block blocks ih => cases block <;> simp_all [ContentBlock.toolUse?]

variable {σ : Type} [Platform] {agent : Agent σ} {schema : Option Json}

/-- Dispatching answers the calls of a message one by one and in order; the
blocks that are no calls leave no mark. -/
theorem dispatch_blocks (provider : LlmProvider σ) (registry : ToolRegistry σ)
    (blocks results : List ContentBlock) (s : Session σ) :
    ∃ outcomes t, outcomes.length = (blocks.filterMap ContentBlock.toolUse?).length ∧
      blocks.foldl (dispatchBlock registry) (results, s) =
        (results ++ answers (blocks.filterMap ContentBlock.toolUse?) outcomes, t) ∧
      Extends provider registry s (executions (blocks.filterMap ContentBlock.toolUse?) outcomes)
        t := by
  induction blocks generalizing results s with
  | nil => exact ⟨[], s, rfl, by simp [answers], .refl s⟩
  | cons block blocks ih =>
    cases block with
    | text b => exact ih results s
    | toolResult b => exact ih results s
    | toolUse call =>
      rcases he : s.execute registry call.name call.input with ⟨outcome, u⟩
      obtain ⟨outcomes, t, hlen, hfold, hext⟩ :=
        ih (results ++ [.toolResult (toolResult call outcome)]) u
      refine ⟨outcome :: outcomes, t, by simpa [ContentBlock.toolUse?] using hlen, ?_, ?_⟩
      · simp [dispatchBlock, he, hfold, answers, ContentBlock.toolUse?]
      · exact (Session.execute_extends he).trans hext

theorem dispatch_spec (provider : LlmProvider σ) (registry : ToolRegistry σ) (m : Message)
    (s : Session σ) :
    ∃ outcomes t, outcomes.length = m.toolUses.length ∧
      dispatchTools registry m s = (answers m.toolUses outcomes, t) ∧
      Extends provider registry s (executions m.toolUses outcomes) t := by
  exact dispatch_blocks provider registry m.content [] s

/-- Everything one iteration can do: fail in the provider, end on a turn
without tool calls, or complete a round. -/
theorem iterate_cases (agent : Agent σ) (schema : Option Json) (i : Nat) (s : LoopState σ) :
    (∃ e t, Extends agent.provider agent.registry s.session
        (Ending.events (agent.request schema) s.working (.failed e)) t ∧
      agent.iterate schema i s = .leave (.error
        { kind := .providerError, message := e.what, conversation := s.working,
          usage := s.accumulated, iterations := i + 1, finishReason := str "error" }, t)) ∨
    (∃ response final t, Extends agent.provider agent.registry s.session
        (Ending.events (agent.request schema) s.working (.answered response final)) t ∧
      agent.iterate schema i s = .leave (.ok
        { conversation := s.working.extend [response.message],
          totalUsage := s.accumulated + response.usage, iterations := i + 1,
          finishReason := response.finishReason }, t)) ∨
    (∃ r t, Extends agent.provider agent.registry s.session
        (Round.events (agent.request schema) s.working r) t ∧
      agent.iterate schema i s =
        .again ⟨s.working.extend r.messages, s.accumulated + r.usage, t⟩) := by
  rcases hc : s.session.chat agent.provider s.working (agent.request schema) with ⟨outcome, u⟩
  have hchat : Extends agent.provider agent.registry s.session _ u := Session.chat_extends hc
  cases outcome with
  | error e => exact .inl ⟨e, u, hchat, by simp [Agent.iterate, hc]⟩
  | ok response =>
    right
    cases hu : hasToolUse response.message with
    | false =>
      have final : response.message.toolUses = [] := by
        by_contra hne
        simp [(hasToolUse_iff _).mpr hne] at hu
      exact .inl ⟨response, final, u, hchat, by simp [Agent.iterate, hc, hu]; rfl⟩
    | true =>
      obtain ⟨outcomes, t, hlen, hd, hext⟩ :=
        dispatch_spec agent.provider agent.registry response.message u
      refine .inr ⟨⟨response, outcomes, (hasToolUse_iff _).mp hu, hlen⟩, t, hchat.trans hext, ?_⟩
      simp [Agent.iterate, hc, hu, hd, Round.messages, Round.toolMessage, Round.usage,
        Conversation.add_eq_extend]

/-- The completed iterations of a run are rounds. -/
theorem passes_rounds {c : Conversation} {session : Session σ} {j : Nat} {t : LoopState σ}
    (h : Loop.Passes (agent.iterate schema) 0 ⟨c, 0, session⟩ j t) :
    ∃ rounds : List Round, rounds.length = j ∧
      t.working = c.extend (rounds.flatMap Round.messages) ∧
      t.accumulated = (rounds.map Round.usage).sum ∧
      Extends agent.provider agent.registry session
        (roundEvents (agent.request schema) c rounds) t.session := by
  induction h with
  | refl => exact ⟨[], rfl, by simp, rfl, .refl session⟩
  | snoc _ hb ih =>
    obtain ⟨rounds, hlen, hw, ha, hext⟩ := ih
    rcases iterate_cases agent schema _ _ with
      ⟨e, t, _, hi⟩ | ⟨response, final, t, _, hi⟩ | ⟨r, t, hr, hi⟩
    · cases hi.symm.trans hb
    · cases hi.symm.trans hb
    · cases hi.symm.trans hb
      refine ⟨rounds ++ [r], by simp [hlen], by simp [hw], by simp [ha], ?_⟩
      rw [roundEvents, threaded_snoc]
      rw [hw] at hr
      exact hext.trans hr

/-- The loop of the code is the abstract run: what it returns or throws, and
every call it makes on the way, is what some segment within the cap means. -/
theorem executeLoop_spec (agent : Agent σ) (c : Conversation) (overrides : RunOverrides)
    (schema : Option Json) (session : Session σ) :
    ∃ (s : Segment) (t : Session σ), s.Fits (agent.maxIterations overrides).toNat ∧
      agent.executeLoop c overrides schema session =
        (s.outcome c (agent.maxIterations overrides), t) ∧
      Extends agent.provider agent.registry session (s.events (agent.request schema) c) t := by
  unfold Agent.executeLoop
  rcases Loop.run_cases (agent.maxIterations overrides).toNat 0 (⟨c, 0, session⟩ : LoopState σ) with
    ⟨u, hp, hr⟩ | ⟨j, u, r, hj, hp, hl, hr⟩
  · obtain ⟨rounds, hlen, hw, ha, hext⟩ := passes_rounds hp
    refine ⟨⟨rounds, .capped⟩, u.session, by simpa [Segment.Fits] using hlen, ?_, ?_⟩
    · rw [hr]
      simp [Segment.outcome, Segment.messages, Segment.usage, Ending.messages, Ending.usage, hw, ha]
    · simpa [Segment.events, Ending.events] using hext
  · obtain ⟨rounds, hlen, hw, ha, hext⟩ := passes_rounds hp
    rcases iterate_cases agent schema j u with
      ⟨e, t, ht, hi⟩ | ⟨response, final, t, ht, hi⟩ | ⟨q, t, _, hi⟩
    · cases hi.symm.trans hl
      refine ⟨⟨rounds, .failed e⟩, t, by simp [Segment.Fits]; omega, ?_, ?_⟩
      · rw [hr]
        simp [Segment.outcome, Segment.messages, Segment.usage, Ending.messages, Ending.usage,
          hw, ha, hlen]
      · rw [hw] at ht
        exact hext.trans ht
    · cases hi.symm.trans hl
      refine ⟨⟨rounds, .answered response final⟩, t, by simp [Segment.Fits]; omega, ?_, ?_⟩
      · rw [hr]
        simp [Segment.outcome, Segment.messages, Segment.usage, Ending.messages, Ending.usage,
          hw, ha, hlen]
      · rw [hw] at ht
        exact hext.trans ht
    · cases hi.symm.trans hl

end Forgeant.Proofs.ReactLoop
