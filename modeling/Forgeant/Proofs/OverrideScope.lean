import Forgeant.RunChain
import Forgeant.Proofs.RetryLoop

namespace Forgeant.Proofs.OverrideScope
open ReactLoop RetryLoop

/-- Every chat call of the trace was handed the system prompt `p`. -/
def Shows (p : Option Str) (es : List Event) : Prop :=
  ∀ c request outcome, Event.chat c request outcome ∈ es → c.systemPrompt = p

theorem Shows.append {p : Option Str} {es fs : List Event} (h : Shows p es) (h' : Shows p fs) :
    Shows p (es ++ fs) := by
  intro c request outcome hmem
  rcases List.mem_append.mp hmem with hmem | hmem
  · exact h c request outcome hmem
  · exact h' c request outcome hmem

theorem Shows.prompts {p : Option Str} {es : List Event} (h : Shows p es) :
    prompts es = List.replicate (chatOutcomes es).length p := by
  induction es with
  | nil => rfl
  | cons e es ih =>
    have hrest := ih (fun c request outcome hmem =>
      h c request outcome (List.mem_cons_of_mem _ hmem))
    cases e with
    | chat c request outcome =>
      have hc := h c request outcome List.mem_cons_self
      change c.systemPrompt :: Forgeant.prompts es = p :: List.replicate (chatOutcomes es).length p
      rw [hc, hrest]
    | execute name input outcome => exact hrest

theorem mem_chatOutcomes {es : List Event} {c : Conversation} {request : ChatRequest}
    {outcome : Except StdException LlmResponse} (h : .chat c request outcome ∈ es) :
    outcome ∈ chatOutcomes es :=
  List.mem_filterMap.mpr ⟨_, h, rfl⟩

theorem shows_executions (p : Option Str) (calls : List ToolUseBlock)
    (outcomes : List (Except StdException Json)) : Shows p (executions calls outcomes) := by
  intro d request outcome hmem
  have hnone := mem_chatOutcomes hmem
  rw [chatOutcomes_executions] at hnone
  cases hnone

theorem shows_round (request : ChatRequest) (c : Conversation) (r : Round) :
    Shows c.systemPrompt (r.events request c) := by
  intro d request' outcome hmem
  rcases List.mem_cons.mp hmem with heq | hmem
  · cases heq
    rfl
  · exact shows_executions _ _ _ d request' outcome hmem

theorem shows_ending (request : ChatRequest) (c : Conversation) (ending : Ending) :
    Shows c.systemPrompt (ending.events request c) := by
  intro d request' outcome hmem
  cases ending with
  | answered response final =>
    cases List.mem_singleton.mp hmem
    rfl
  | failed e =>
    cases List.mem_singleton.mp hmem
    rfl
  | capped => cases hmem

theorem shows_threaded {α : Type} {messages : α → List Message}
    {events : Conversation → α → List Event} (h : ∀ c a, Shows c.systemPrompt (events c a))
    (c : Conversation) (as : List α) : Shows c.systemPrompt (threaded messages events c as) := by
  induction as generalizing c with
  | nil =>
    intro _ _ _ hmem
    cases hmem
  | cons a as ih => exact (h c a).append (ih (c.extend (messages a)))

/-- A segment makes a call just when the cap allows one. -/
theorem fits_calls {n : Nat} {g : Segment} (h : g.Fits n) : g.outcomes = [] ↔ n = 0 := by
  obtain ⟨rounds, ending⟩ := g
  cases ending with
  | answered response final =>
    have hlt : rounds.length < n := h
    apply iff_of_false
    · simp [Segment.outcomes, Ending.outcomes]
    · omega
  | failed e =>
    have hlt : rounds.length < n := h
    apply iff_of_false
    · simp [Segment.outcomes, Ending.outcomes]
    · omega
  | capped =>
    have heq : rounds.length = n := h
    simp [Segment.outcomes, Ending.outcomes, ← heq]

/-- What a run does with the system prompt `p` of the conversation it works on. -/
structure Keeps (p : Option Str) (cap : Int) (es : List Event)
    (outcome : Except AgentRunError Conversation) : Prop where
  shows : Shows p es
  calls : chatOutcomes es = [] ↔ cap ≤ 0
  returns : ∀ c, outcome = .ok c → c.systemPrompt = p ∧ 0 < cap

section

variable {σ T : Type} [Platform] {agent : Agent σ} {c : Conversation} {overrides : RunOverrides}
  {s t : Session σ}

theorem shows_segment (request : ChatRequest) (c : Conversation) (g : Segment) :
    Shows c.systemPrompt (g.events request c) :=
  (shows_threaded (shows_round request) c g.rounds).append (shows_ending request _ g.ending)

theorem shows_attempts (request : ChatRequest) (c : Conversation) (as : Attempts) :
    Shows c.systemPrompt (as.events request c) :=
  (shows_threaded (fun d (a : FailedAttempt) => shows_segment request d a.segment) c
    as.failed).append (shows_segment request _ as.last)

theorem executeText_keeps {outcome : Except AgentRunError (AgentResult Str)}
    (h : agent.executeText c overrides s = (outcome, t)) :
    Keeps c.systemPrompt (agent.maxIterations overrides) (t.since s)
      (outcome.map AgentResult.conversation) := by
  obtain ⟨g, u, hfits, hloop, hext⟩ := executeLoop_spec agent c overrides none s
  unfold Agent.executeText at h
  rw [hloop] at h
  have hcalls : chatOutcomes (u.since s) = [] ↔ agent.maxIterations overrides ≤ 0 := by
    rw [hext.since, Segment.chatOutcomes_events, fits_calls hfits]
    omega
  have hshows : Shows c.systemPrompt (u.since s) := by
    rw [hext.since]
    exact shows_segment _ c g
  cases ho : g.outcome c (agent.maxIterations overrides) with
  | error e =>
    rw [ho] at h
    cases h
    refine ⟨hshows, hcalls, ?_⟩
    intro d hd
    cases hd
  | ok loop =>
    rw [ho] at h
    cases h
    refine ⟨hshows, hcalls, ?_⟩
    intro d hd
    cases hd
    obtain ⟨rounds, response, final, rfl, hconv, _⟩ := complete_of_ok ho
    have hlt : rounds.length < (agent.maxIterations overrides).toNat := hfits
    refine ⟨?_, by omega⟩
    rw [hconv]
    rfl

theorem executeStructured_keeps {output : OutputType T}
    {outcome : Except AgentRunError (AgentResult T)}
    (h : agent.executeStructured output c overrides s = (outcome, t)) :
    Keeps c.systemPrompt (agent.maxIterations overrides) (t.since s)
      (outcome.map AgentResult.conversation) := by
  obtain ⟨as, u, hallowed, hrun, hext⟩ :=
    retryLoop_spec agent output {} (by decide) c overrides s
  cases hrun.symm.trans h
  refine ⟨?_, ?_, ?_⟩
  · rw [hext.since]
    exact shows_attempts _ c as
  · rw [hext.since, Attempts.chatOutcomes_events, List.append_eq_nil_iff,
      fits_calls hallowed.lastFits]
    constructor
    · intro ⟨_, hcap⟩
      omega
    · intro hcap
      refine ⟨List.flatMap_eq_nil_iff.mpr ?_, by omega⟩
      intro a ha
      exact (fits_calls (hallowed.fits a ha)).mpr (by omega)
  · intro d hd
    rcases outcome_cases as output {} (agent.maxIterations overrides) c with
      ⟨_, e, _, ho⟩ | ⟨rounds, response, final, value, hlast, _, ho⟩ | ⟨_, _, _, e, _, _, ho⟩
    · rw [ho] at hd
      cases hd
    · rw [ho] at hd
      cases hd
      have hfits := hallowed.lastFits
      rw [hlast] at hfits
      have hlt : rounds.length < (agent.maxIterations overrides).toNat := hfits
      exact ⟨rfl, by omega⟩
    · rw [ho] at hd
      cases hd

/-- Every call of a run is shown the prompt of the conversation, else that of
the overrides, else the agent's own, and that prompt is returned with the
conversation. -/
theorem runs_keeps {outcome : Except AgentRunError Conversation}
    (h : Runs agent c overrides s outcome t) :
    Keeps (c.systemPrompt.or (overrides.systemPrompt.or agent.ownPrompt))
      (agent.maxIterations overrides) (t.since s) outcome := by
  rw [← agent.applySystemPrompt_systemPrompt]
  cases h with
  | prompt h =>
    rw [Agent.run, Agent.promptConversation_eq] at h
    exact executeText_keeps h
  | conversation h => exact executeText_keeps h
  | promptAs output h =>
    rw [Agent.runAs, Agent.promptConversation_eq] at h
    exact executeStructured_keeps h
  | conversationAs output h => exact executeStructured_keeps h

end

/-- The first prompt that one of the links offers: its override, else the
agent's own. -/
def firstOffered (own : Option Str) : List Turn → Option Str
  | [] => none
  | turn :: turns => (turn.prompt.or own).or (firstOffered own turns)

/-- The prompt that each link shows after a conversation with the prompt `p`. -/
def shownBy (own : Option Str) : Option Str → List Turn → List (Option Str)
  | _, [] => []
  | p, turn :: turns =>
    p.or (turn.prompt.or own) :: shownBy own (p.or (turn.prompt.or own)) turns

theorem firstOffered_append (own : Option Str) (before after : List Turn) :
    firstOffered own (before ++ after) = (firstOffered own before).or (firstOffered own after) := by
  induction before with
  | nil => rfl
  | cons turn before ih =>
    rw [List.cons_append, firstOffered, ih, firstOffered]
    simp only [Option.or_assoc]

theorem firstOffered_ne_none {own : Option Str} {turns : List Turn} :
    ¬ firstOffered own turns = none ↔ ∃ turn ∈ turns, turn.prompt ≠ none ∨ own ≠ none := by
  induction turns with
  | nil => simp [firstOffered]
  | cons turn turns ih =>
    rw [firstOffered, Option.or_eq_none_iff, not_and_or, ih, Option.or_eq_none_iff, not_and_or]
    simp only [List.exists_mem_cons_iff, ne_eq]

theorem firstOffered_dropped (own : Option Str) (turns : List Turn) :
    firstOffered own (turns.map (fun turn => turn.withPrompt none)) =
      if turns = [] then none else own := by
  induction turns with
  | nil => rfl
  | cons turn turns ih =>
    rw [List.map_cons, firstOffered, ih, if_neg (List.cons_ne_nil _ _), Turn.withPrompt_prompt,
      Option.none_or]
    split
    · exact Option.or_none
    · exact Option.or_self

section

variable {σ : Type} [Platform] {agent : Agent σ} {c c' : Conversation} {s s' : Session σ}
  {turns : List Turn} {records records' : List (List Event)}

theorem chain_length (h : RunChain agent c s turns records) : records.length = turns.length := by
  induction h with
  | nil => rfl
  | last => rfl
  | cons _ _ ih => rw [List.length_cons, List.length_cons, ih]

theorem chain_shown (h : RunChain agent c s turns records) :
    records.map prompts = List.zipWith (fun outcomes p => List.replicate outcomes.length p)
      (records.map chatOutcomes) (shownBy agent.ownPrompt c.systemPrompt turns) := by
  induction h with
  | nil => rfl
  | last h =>
    have hshown := (runs_keeps h).shows.prompts
    simp only [List.map_cons, List.map_nil, shownBy, List.zipWith_cons_cons, List.zipWith_nil_left]
    rw [hshown]
    rfl
  | cons h _ ih =>
    have hkeeps := runs_keeps h
    obtain ⟨hprompt, _⟩ := hkeeps.returns _ rfl
    rw [List.map_cons, ih, hprompt, hkeeps.shows.prompts]
    rfl

/-- What is shown in the first run of a chain, and that the run makes no call
only where its cap allows none. -/
theorem chain_head {turn : Turn} {es : List Event}
    (h : RunChain agent c s (turn :: turns) (es :: records)) :
    Shows (c.systemPrompt.or (turn.prompt.or agent.ownPrompt)) es ∧
    (chatOutcomes es = [] ↔ agent.maxIterations turn.overrides ≤ 0) ∧
    (turns ≠ [] → 0 < agent.maxIterations turn.overrides) := by
  cases h with
  | last h => exact ⟨(runs_keeps h).shows, (runs_keeps h).calls, fun hne => absurd rfl hne⟩
  | cons h _ =>
    exact ⟨(runs_keeps h).shows, (runs_keeps h).calls, fun _ => ((runs_keeps h).returns _ rfl).2⟩

/-- A chain goes on from a conversation with the first prompt that was there or
offered. -/
theorem chain_split {before after : List Turn} (h : RunChain agent c s (before ++ after) records)
    (hne : after ≠ []) :
    ∃ d t rest, records.drop before.length = rest ∧ RunChain agent d t after rest ∧
      d.systemPrompt = c.systemPrompt.or (firstOffered agent.ownPrompt before) := by
  induction before generalizing c s records with
  | nil => exact ⟨c, s, records, rfl, h, by rw [firstOffered, Option.or_none]⟩
  | cons turn before ih =>
    cases hafter : before ++ after with
    | nil => exact absurd (List.append_eq_nil_iff.mp hafter).2 hne
    | cons next turns =>
      rw [List.cons_append, hafter] at h
      cases h with
      | cons hrun hrest =>
        rw [← hafter] at hrest
        obtain ⟨d, t, rest, hdrop, hchain, hprompt⟩ := ih hrest
        refine ⟨d, t, rest, hdrop, hchain, ?_⟩
        obtain ⟨hreturned, _⟩ := (runs_keeps hrun).returns _ rfl
        rw [hprompt, hreturned, firstOffered, Option.or_assoc]
        rfl

/-- Two chains of the same links and responses show the same prompts just when
they show the same in the first call, if any call is made. -/
theorem prompts_eq_iff (h : RunChain agent c s turns records)
    (h' : RunChain agent c' s' turns records')
    (same : records.map chatOutcomes = records'.map chatOutcomes) :
    records.map prompts = records'.map prompts ↔
      (∀ turn ∈ turns, agent.maxIterations turn.overrides ≤ 0) ∨
        c.systemPrompt.or ((turns.head?.bind Turn.prompt).or agent.ownPrompt) =
          c'.systemPrompt.or ((turns.head?.bind Turn.prompt).or agent.ownPrompt) := by
  cases turns with
  | nil =>
    cases h
    cases h'
    simp
  | cons next rest =>
    obtain ⟨es, tail, rfl⟩ := List.exists_cons_of_length_eq_add_one (chain_length h)
    obtain ⟨es', tail', rfl⟩ := List.exists_cons_of_length_eq_add_one (chain_length h')
    obtain ⟨hshows, hcalls, hmore⟩ := chain_head h
    obtain ⟨hshows', hcalls', _⟩ := chain_head h'
    obtain ⟨hhead, _⟩ := List.cons.inj same
    by_cases hcap : agent.maxIterations next.overrides ≤ 0
    · -- a run without a call returns nothing to go on from, so it is the last
      have hrest : rest = [] := by
        by_contra hne
        have := hmore hne
        omega
      subst hrest
      cases tail with
      | cons _ _ => cases chain_length h
      | nil =>
        cases tail' with
        | cons _ _ => cases chain_length h'
        | nil =>
          apply iff_of_true
          · rw [List.map_cons, List.map_cons, hshows.prompts, hshows'.prompts, hcalls.mpr hcap,
              hcalls'.mpr hcap]
            rfl
          · exact .inl (fun turn hturn => List.mem_singleton.mp hturn ▸ hcap)
    · constructor
      · intro heq
        obtain ⟨hprompts, _⟩ := List.cons.inj heq
        rw [hshows.prompts, hshows'.prompts, ← hhead] at hprompts
        have hne : (chatOutcomes es).length ≠ 0 := by
          rw [Ne, List.length_eq_zero_iff, hcalls]
          exact hcap
        exact .inr ((List.replicate_right_inj hne).mp hprompts)
      · intro hor
        rcases hor with hall | heq
        · exact absurd (hall next List.mem_cons_self) hcap
        · have hheq : c.systemPrompt.or (next.prompt.or agent.ownPrompt) =
              c'.systemPrompt.or (next.prompt.or agent.ownPrompt) := heq
          rw [chain_shown h, chain_shown h', same, shownBy, shownBy, hheq]

end

/-- The choice of one override does not matter after it. -/
theorem carried_eq_iff (p o o' own next : Option Str) :
    (p.or (o.or own)).or (next.or own) = (p.or (o'.or own)).or (next.or own) ↔
      p ≠ none ∨ o.or (own.or next) = o'.or (own.or next) := by
  cases p with
  | some p => simp
  | none => cases own <;> simp

/-- Every call of the run at the place `i` was shown the prompt `v`. -/
def Heeds (v : Str) (i : Nat) (records : List (List Event)) : Prop :=
  ∀ es, records[i]? = some es → Shows (some v) es

/-- No choice of an override in a chain changes what a later run shows where the
responses are the same. -/
def OverridesAreLocal {σ : Type} [Platform] (agent : Agent σ) : Prop :=
  ∀ (c : Conversation) (s s' : Session σ) (before after : List Turn) (turn : Turn)
    (o : Option Str) (records records' : List (List Event)),
    RunChain agent c s (before ++ turn :: after) records →
    RunChain agent c s' (before ++ turn.withPrompt o :: after) records' →
    records.map chatOutcomes = records'.map chatOutcomes →
    (records.drop (before.length + 1)).map prompts = (records'.drop (before.length + 1)).map prompts

section

variable {σ : Type} [Platform] {agent : Agent σ} {c : Conversation} {s s' : Session σ}
  {before after : List Turn} {turn : Turn} {o : Option Str} {records records' : List (List Event)}

theorem later_prompts_iff (h : RunChain agent c s (before ++ turn :: after) records)
    (h' : RunChain agent c s' (before ++ turn.withPrompt o :: after) records')
    (same : records.map chatOutcomes = records'.map chatOutcomes) :
    (records.drop (before.length + 1)).map prompts =
        (records'.drop (before.length + 1)).map prompts ↔
      (∀ later ∈ after, agent.maxIterations later.overrides ≤ 0) ∨
      (c.systemPrompt ≠ none ∨
        ∃ earlier ∈ before, earlier.prompt ≠ none ∨ agent.ownPrompt ≠ none) ∨
      turn.prompt.or (agent.ownPrompt.or (after.head?.bind Turn.prompt)) =
        o.or (agent.ownPrompt.or (after.head?.bind Turn.prompt)) := by
  have hlen (turn : Turn) : (before ++ [turn]).length = before.length + 1 := List.length_append
  cases hafter : after with
  | nil =>
    have hnil {turn : Turn} {s : Session σ} {records : List (List Event)}
        (h : RunChain agent c s (before ++ turn :: after) records) :
        records.drop (before.length + 1) = [] := by
      rw [List.drop_eq_nil_iff, chain_length h, hafter, hlen]
    rw [hnil h, hnil h']
    simp
  | cons next rest =>
    rw [← hafter]
    have hne : after ≠ [] := hafter ▸ List.cons_ne_nil _ _
    rw [List.append_cons] at h h'
    obtain ⟨d, t, tail, htail, hchain, hd⟩ := chain_split h hne
    obtain ⟨d', t', tail', htail', hchain', hd'⟩ := chain_split h' hne
    rw [hlen] at htail htail'
    have hsame : tail.map chatOutcomes = tail'.map chatOutcomes := by
      rw [← htail, ← htail', List.map_drop, List.map_drop, same]
    have hcarried (turn : Turn) :
        c.systemPrompt.or (firstOffered agent.ownPrompt (before ++ [turn])) =
          (c.systemPrompt.or (firstOffered agent.ownPrompt before)).or
            (turn.prompt.or agent.ownPrompt) := by
      rw [firstOffered_append, firstOffered, firstOffered, Option.or_none, Option.or_assoc]
    rw [htail, htail', prompts_eq_iff hchain hchain' hsame, hd, hd', hcarried, hcarried,
      Turn.withPrompt_prompt, carried_eq_iff, Ne, Option.or_eq_none_iff, not_and_or,
      ← Ne, firstOffered_ne_none]

theorem heeds_iff {v : Str} (hv : turn.prompt = some v)
    (h : RunChain agent c s (before ++ turn :: after) records) :
    Heeds v before.length records ↔ agent.maxIterations turn.overrides ≤ 0 ∨
      ∀ w, c.systemPrompt.or (firstOffered agent.ownPrompt before) = some w → w = v := by
  obtain ⟨d, t, tail, htail, hchain, hd⟩ := chain_split h (List.cons_ne_nil _ _)
  obtain ⟨es, rest, rfl⟩ := List.exists_cons_of_length_eq_add_one (chain_length hchain)
  obtain ⟨hshows, hcalls, _⟩ := chain_head hchain
  rw [hv, hd, Option.some_or] at hshows
  have hes : records[before.length]? = some es := by
    rw [← List.head?_drop, htail, List.head?_cons]
  have hheeds : Heeds v before.length records ↔ Shows (some v) es := by
    constructor
    · intro h
      exact h es hes
    · intro h es' hes'
      cases hes.symm.trans hes'
      exact h
  rw [hheeds, ← hcalls]
  constructor
  · intro hv
    by_cases hnil : chatOutcomes es = []
    · exact .inl hnil
    · right
      intro w hw
      have hprompts := hv.prompts.symm.trans hshows.prompts
      have hne : (chatOutcomes es).length ≠ 0 := mt List.length_eq_zero_iff.mp hnil
      have heq := (List.replicate_right_inj hne).mp hprompts
      rw [hw, Option.some_or] at heq
      exact (Option.some.inj heq).symm
  · intro hor c' request outcome hmem
    rcases hor with hnil | hall
    · have := mem_chatOutcomes hmem
      rw [hnil] at this
      cases this
    · rw [hshows c' request outcome hmem]
      cases hw : c.systemPrompt.or (firstOffered agent.ownPrompt before) with
      | none => rfl
      | some w => rw [hall w hw, Option.some_or]

/-- An override travels on with the conversation that its run returns: another
choice of it changes what a later call is prompted with, unless the conversation
had a prompt by then or both choices come to the same there. -/
theorem override_scope (h : RunChain agent c s (before ++ turn :: after) records)
    (h' : RunChain agent c s' (before ++ turn.withPrompt o :: after) records')
    (same : records.map chatOutcomes = records'.map chatOutcomes) :
    ((records.drop (before.length + 1)).map prompts =
        (records'.drop (before.length + 1)).map prompts ↔
      (∀ later ∈ after, agent.maxIterations later.overrides ≤ 0) ∨
      (c.systemPrompt ≠ none ∨
        ∃ earlier ∈ before, earlier.prompt ≠ none ∨ agent.ownPrompt ≠ none) ∨
      turn.prompt.or (agent.ownPrompt.or (after.head?.bind Turn.prompt)) =
        o.or (agent.ownPrompt.or (after.head?.bind Turn.prompt))) ∧
    ∀ (v : Str) (u : Session σ) (dropped : List (List Event)), turn.prompt = some v →
      RunChain agent c u (before.map (fun earlier => earlier.withPrompt none) ++ turn :: after)
        dropped →
      ((Heeds v before.length dropped → Heeds v before.length records) ↔
        agent.maxIterations turn.overrides ≤ 0 ∨ c.systemPrompt ≠ none ∨
        (before ≠ [] ∧ ∃ p, agent.ownPrompt = some p ∧ p ≠ v) ∨
        ∀ w, firstOffered agent.ownPrompt before = some w → w = v) := by
  refine ⟨later_prompts_iff h h' same, ?_⟩
  intro v u dropped hv hdropped
  have hheeds := heeds_iff hv hdropped
  rw [List.length_map, firstOffered_dropped] at hheeds
  rw [hheeds, heeds_iff hv h]
  cases c.systemPrompt with
  | some p => simp
  | none =>
    have hown : (∀ w, (if before = [] then none else agent.ownPrompt) = some w → w = v) ↔
        ¬ (before ≠ [] ∧ ∃ p, agent.ownPrompt = some p ∧ p ≠ v) := by
      by_cases hnil : before = []
      · simp [hnil]
      · simp [hnil]
    have hlogic {A X G : Prop} : ((A ∨ ¬ X) → A ∨ G) ↔ A ∨ X ∨ G := by tauto
    simp only [Option.none_or, hown, ne_eq, not_true_eq_false, false_or]
    exact hlogic

end

def chatter : Agent (List Str) :=
  { provider := .talking, registry := { tools_ := [], unique := List.nodup_nil } }

def pirate : Str := str "You are a pirate."

def firstTurn : Turn :=
  { added := [.ofText .user (str "Hi")], overrides := { systemPrompt := some pirate } }

def secondTurn : Turn := { added := [.ofText .user (str "And now?")] }

/-- Without an override of its own the second run is still shown the first one's. -/
theorem not_overridesAreLocal_chatter :
    letI := Platform.reference
    ¬ OverridesAreLocal chatter := by
  let platform := Platform.reference
  intro h
  have hpirate : RunChain chatter {} ⟨[str "Arr!", str "Arr."], []⟩ [firstTurn, secondTurn] _ :=
    .cons (.conversation rfl) (.cons (.conversation rfl) (.nil _ _))
  have hplain : RunChain chatter {} ⟨[str "Arr!", str "Arr."], []⟩
      [firstTurn.withPrompt none, secondTurn] _ :=
    .cons (.conversation rfl) (.cons (.conversation rfl) (.nil _ _))
  have heq := h _ _ _ [] [secondTurn] firstTurn none _ _ hpirate hplain rfl
  cases heq

/-- A second run with the same override is shown it either way. -/
theorem override_scope_chatter :
    letI := Platform.reference
    ∃ records records' : List (List Event),
      RunChain chatter {} ⟨[str "Arr!", str "Arr."], []⟩
        [firstTurn, secondTurn.withPrompt (some pirate)] records ∧
      RunChain chatter {} ⟨[str "Arr!", str "Arr."], []⟩
        [firstTurn.withPrompt none, secondTurn.withPrompt (some pirate)] records' ∧
      (records.drop 1).map prompts = (records'.drop 1).map prompts := by
  let platform := Platform.reference
  have hpirate : RunChain chatter {} ⟨[str "Arr!", str "Arr."], []⟩
      ([] ++ firstTurn :: [secondTurn.withPrompt (some pirate)]) _ :=
    .cons (.conversation rfl) (.cons (.conversation rfl) (.nil _ _))
  have hplain : RunChain chatter {} ⟨[str "Arr!", str "Arr."], []⟩
      ([] ++ firstTurn.withPrompt none :: [secondTurn.withPrompt (some pirate)]) _ :=
    .cons (.conversation rfl) (.cons (.conversation rfl) (.nil _ _))
  exact ⟨_, _, hpirate, hplain, (override_scope hpirate hplain rfl).1.mpr (.inr (.inr rfl))⟩

end Forgeant.Proofs.OverrideScope
