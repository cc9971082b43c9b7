import Forgeant.Growth
import Forgeant.Proofs.Calls
import Forgeant.Proofs.Recording
import Forgeant.Proofs.Requests
import Forgeant.Proofs.Tools

namespace Forgeant.Proofs.Growth

theorem chats_append (es fs : List Event) : chats (es ++ fs) = chats es ++ chats fs :=
  List.filterMap_append

theorem chats_executions (calls : List ToolUseBlock)
    (outcomes : List (Except StdException Json)) : chats (executions calls outcomes) = [] := by
  rw [chats, List.filterMap_eq_nil_iff]
  intro e he
  rw [executions, ← List.map_uncurry_zip_eq_zipWith, List.mem_map] at he
  obtain ⟨_, _, rfl⟩ := he
  rfl

theorem continues_refl (c : Conversation) : c.Continues c := ⟨[], (c.extend_nil).symm⟩

theorem continues_extend (c : Conversation) (ms : List Message) : (c.extend ms).Continues c :=
  ⟨ms, rfl⟩

theorem continues_trans {c d e : Conversation} (h : e.Continues d) (h' : d.Continues c) :
    e.Continues c := by
  obtain ⟨ms, rfl⟩ := h
  obtain ⟨ns, rfl⟩ := h'
  exact ⟨ns ++ ms, Conversation.extend_extend _ _ _⟩

theorem add_extend (c : Conversation) (m : Message) (ms : List Message) :
    (c.add m).extend ms = c.extend (m :: ms) := by
  rw [Conversation.add_eq_extend, Conversation.extend_extend]
  rfl

theorem resumes_on {p q r : Conversation × Except StdException LlmResponse} (h : Resumes p q)
    (hr : r.1.Continues q.1) : Resumes p r := by
  obtain ⟨response, houtcome, hq⟩ := h
  exact ⟨response, houtcome, continues_trans hr hq⟩

section

variable {c d e : Conversation} {es fs : List Event}

theorem unfolds_append (h : Spans c es d) (hd : d.Continues c) (h' : Unfolds d fs) :
    Unfolds c (es ++ fs) where
  resumes := by
    rw [chats_append, List.pairwise_append]
    refine ⟨h.resumes, h'.resumes, ?_⟩
    intro p hp q hq
    exact resumes_on (h.reaches p hp) (h'.continues q hq)
  continues := by
    intro p hp
    rw [chats_append, List.mem_append] at hp
    rcases hp with hp | hp
    · exact h.continues p hp
    · exact continues_trans (h'.continues p hp) hd

theorem spans_append (h : Spans c es d) (hd : d.Continues c) (h' : Spans d fs e)
    (he : e.Continues d) : Spans c (es ++ fs) e where
  toUnfolds := unfolds_append h hd h'.toUnfolds
  reaches := by
    intro p hp
    rw [chats_append, List.mem_append] at hp
    rcases hp with hp | hp
    · exact resumes_on (h.reaches p hp) he
    · exact h'.reaches p hp

theorem spans_threaded {α : Type} {messages : α → List Message}
    {events : Conversation → α → List Event}
    (h : ∀ c a, Spans c (events c a) (c.extend (messages a))) (c : Conversation) (as : List α) :
    Spans c (threaded messages events c as) (c.extend (as.flatMap messages)) := by
  induction as generalizing c with
  | nil =>
    exact ⟨⟨.nil, fun p hp => absurd hp List.not_mem_nil⟩, fun p hp => absurd hp List.not_mem_nil⟩
  | cons a as ih =>
    have hrest := ih (c.extend (messages a))
    rw [Conversation.extend_extend] at hrest
    exact spans_append (h c a) (continues_extend _ _) hrest
      ⟨as.flatMap messages, (Conversation.extend_extend _ _ _).symm⟩

end

theorem unfolds_chat (c : Conversation) (request : ChatRequest)
    (outcome : Except StdException LlmResponse) {es : List Event} (hes : chats es = []) :
    Unfolds c (.chat c request outcome :: es) ∧
      chats (.chat c request outcome :: es) = [(c, outcome)] := by
  have hchats : chats (.chat c request outcome :: es) = [(c, outcome)] := by
    rw [← hes]
    rfl
  refine ⟨⟨?_, ?_⟩, hchats⟩
  · rw [hchats]
    exact List.pairwise_singleton _ _
  · intro p hp
    rw [hchats] at hp
    cases List.mem_singleton.mp hp
    exact continues_refl c

theorem spans_chat (c : Conversation) (request : ChatRequest) (response : LlmResponse)
    {es : List Event} (hes : chats es = []) (ms : List Message) :
    Spans c (.chat c request (.ok response) :: es) (c.extend (response.message :: ms)) := by
  obtain ⟨hunfolds, hchats⟩ := unfolds_chat c request (.ok response) hes
  refine ⟨hunfolds, ?_⟩
  intro p hp
  rw [hchats] at hp
  cases List.mem_singleton.mp hp
  exact ⟨response, rfl, ms, (add_extend c response.message ms).symm⟩

variable [Platform]

theorem spans_rounds (request : ChatRequest) (c : Conversation) (rounds : List Round) :
    Spans c (roundEvents request c rounds) (c.extend (rounds.flatMap Round.messages)) := by
  apply spans_threaded
  intro c r
  exact spans_chat c request r.response (chats_executions _ _) [r.toolMessage]

theorem unfolds_segment (request : ChatRequest) (c : Conversation) (s : Segment) :
    Unfolds c (s.events request c) := by
  apply unfolds_append (spans_rounds request c s.rounds) (continues_extend _ _)
  cases s.ending with
  | answered response final => exact (unfolds_chat _ request _ rfl).1
  | failed e => exact (unfolds_chat _ request _ rfl).1
  | capped => exact ⟨.nil, fun p hp => absurd hp List.not_mem_nil⟩

theorem spans_failed (request : ChatRequest) (c : Conversation) (a : FailedAttempt) :
    Spans c (a.events request c) (c.extend a.messages) := by
  have hnone : chats [] = [] := rfl
  have hend := spans_chat (c.extend (a.rounds.flatMap Round.messages)) request a.response
    hnone [correctiveMessage a.error.what]
  have hmessages : (c.extend (a.rounds.flatMap Round.messages)).extend
      [a.response.message, correctiveMessage a.error.what] = c.extend a.messages := by
    rw [Conversation.extend_extend]
    exact congrArg c.extend (List.append_assoc _ [a.response.message] _).symm
  have hgoes := continues_extend (c.extend (a.rounds.flatMap Round.messages))
    [a.response.message, correctiveMessage a.error.what]
  rw [hmessages] at hend hgoes
  exact spans_append (spans_rounds request c a.rounds) (continues_extend _ _) hend hgoes

theorem unfolds_attempts (request : ChatRequest) (c : Conversation) (as : Attempts) :
    Unfolds c (as.events request c) :=
  unfolds_append (spans_threaded (spans_failed request) c as.failed) (continues_extend _ _)
    (unfolds_segment request _ as.last)

omit [Platform] in
theorem encoding_lists {μ : Type} {encoding : Encoding μ} (h : encoding.Faithful) {wire : Wire}
    {sent : Conversation → ChatRequest → Except StdException (Sent μ)} {said : Message → List μ}
    (hbody : ∀ c request, wire.body c request = (sent c request).map encoding.body)
    (hsent : ∀ c request s ms, sent c request = .ok s →
      sent (c.extend ms) request = .ok { s with messages := s.messages ++ ms.flatMap said }) :
    wire.Lists (fun m => (said m).map encoding.message) where
  appends := by
    intro c request body hok
    rw [hbody] at hok
    obtain ⟨s, hs, rfl⟩ := Except.map_ok_iff.mp hok
    obtain ⟨members, hmembers, hfind, hothers⟩ := Requests.body_messages h s
    refine ⟨members, _, hmembers, hfind, ?_⟩
    intro ms
    rw [hbody, hsent c request s ms hs, ← List.map_flatMap, ← List.map_append, ← hothers]
    rfl

omit [Platform] in
theorem anthropic_lists {σ : Type} (provider : AnthropicProvider σ) :
    provider.wire.Lists (fun m => [AnthropicProvider.serializeMessage m]) := by
  have hwrite : (fun m => [AnthropicProvider.serializeMessage m]) =
      fun m => [Message.sent m].map AnthropicProvider.encoding.message := by
    funext m
    rw [List.map_singleton, Requests.Anthropic.serializeMessage_sent]
  rw [hwrite]
  apply encoding_lists Requests.Anthropic.faithful
    (Requests.Anthropic.serializeRequest_sent provider)
  intro c request s ms hs
  obtain ⟨schema, hschema, hparts⟩ := Except.bind_ok.mp hs
  cases hparts
  unfold AnthropicProvider.sent
  rw [hschema, Conversation.extend_messages, List.map_append, ← List.map_eq_flatMap]
  rfl

theorem openAi_lists {σ : Type} (provider : OpenAiProvider σ) :
    provider.wire.Lists OpenAiProvider.wireMessages := by
  have hwrite : OpenAiProvider.wireMessages =
      fun m => (OpenAiProvider.heard m).map OpenAiProvider.encoding.message := by
    funext m
    exact (Requests.OpenAi.wire_heard m).symm
  rw [hwrite]
  apply encoding_lists Requests.OpenAi.faithful (Requests.OpenAi.serializeRequest_sent provider)
  intro c request s ms hs
  obtain ⟨schema, hschema, hparts⟩ := Except.bind_ok.mp hs
  cases hparts
  unfold OpenAiProvider.sent
  rw [hschema, Conversation.extend_messages, List.flatMap_append, ← List.append_assoc]
  rfl

section

variable {ν τ : Type} {wire : Wire} {write : Message → List Json}

/-- The log has what the chat calls posted, each with an answer that is read as
what the call came back with. -/
theorem replays_posting {registry : ToolRegistry τ} {client : HttpClient ν}
    {w v : (ν × List Exchange) × τ} {es : List Event}
    (h : Replays (wire.over (client.recording.beside τ)) (registry.beside (ν × List Exchange))
      w es v) :
    ∃ log, v.1.2 = w.1.2 ++ log ∧
      log.map (fun x => (x.request, wire.read x.outcome)) = es.filterMap wire.posting := by
  induction h with
  | nil w => exact ⟨[], (List.append_nil _).symm, rfl⟩
  | chat hchat rest ih =>
    rename_i w v u es c request outcome
    obtain ⟨log, hlog, hposting⟩ := ih
    cases hbody : wire.body c request with
    | error e =>
      rw [Recording.over_chat_error hbody] at hchat
      cases hchat
      refine ⟨log, hlog, ?_⟩
      rw [hposting, List.filterMap_cons, Wire.posting, hbody]
    | ok body =>
      rw [Recording.over_chat_ok hbody] at hchat
      cases hchat
      let exchange : Exchange := ⟨wire.url, wire.headers, body.dump,
        (client.post wire.url wire.headers body.dump w.1.1).1⟩
      refine ⟨exchange :: log, ?_, ?_⟩
      · rw [hlog]
        exact List.append_assoc w.1.2 [exchange] log
      · rw [List.map_cons, hposting, List.filterMap_cons, Wire.posting, hbody]
        rfl
  | execute hexecute rest ih =>
    rename_i w v u es name input outcome
    obtain ⟨log, hlog, hposting⟩ := ih
    obtain ⟨n, t⟩ := w
    rw [Recording.beside_execute] at hexecute
    cases hexecute
    exact ⟨log, hlog, hposting⟩

theorem posting_chat {e : Event} {p : (Str × HttpHeaders × Str) × Except StdException LlmResponse}
    (h : wire.posting e = some p) :
    ∃ c request body, e = .chat c request p.2 ∧ wire.body c request = .ok body ∧
      p.1 = (wire.url, wire.headers, body.dump) := by
  cases e with
  | execute name input outcome => cases h
  | chat c request outcome =>
    cases hbody : wire.body c request with
    | error e =>
      rw [Wire.posting, hbody] at h
      cases h
    | ok body =>
      rw [Wire.posting, hbody] at h
      cases h
      exact ⟨c, request, body, rfl, hbody, rfl⟩

theorem posting_appends (hlists : wire.Lists write) {request : ChatRequest} {es : List Event}
    (hasks : Tools.Asks request es) {c : Conversation} (hunfolds : Unfolds c es) :
    (es.filterMap wire.posting).Pairwise (fun p q => ∃ response members listed more,
      p.2 = .ok response ∧ Assoc.find? (str "messages") members = some (.array listed) ∧
      p.1 = (wire.url, wire.headers, (Json.object members).dump) ∧
      q.1 = (wire.url, wire.headers, (Json.object (Assoc.set (str "messages")
        (.array (listed ++ write response.message ++ more)) members)).dump)) := by
  have hresumes := hunfolds.resumes
  rw [chats, List.pairwise_filterMap] at hresumes
  rw [List.pairwise_filterMap]
  apply hresumes.imp_of_mem
  intro e e' he he' hchats p hp q hq
  obtain ⟨d, r, body, rfl, hbody, hpost⟩ := posting_chat hp
  obtain ⟨d', r', body', rfl, hbody', hpost'⟩ := posting_chat hq
  obtain ⟨response, hreply, ms, hd'⟩ := hchats _ rfl _ rfl
  obtain ⟨members, listed, rfl, hfind, happends⟩ := hlists.appends hbody
  have hnext := happends (response.message :: ms)
  have hgoes : d.extend (response.message :: ms) = d' :=
    (add_extend d response.message ms).symm.trans hd'.symm
  rw [hgoes, hasks d r _ he, ← hasks d' r' _ he', hbody'] at hnext
  cases hnext
  refine ⟨response, members, listed, ms.flatMap write, hreply, hfind, hpost, ?_⟩
  rw [hpost', List.flatMap_cons, List.append_assoc]

theorem posts_append (hlists : wire.Lists write) (registry : ToolRegistry τ)
    (options : AgentOptions) (client : HttpClient ν) {T : Type} (call : Call T) (n : ν) (t : τ) :
    ((wire.agent client.recording registry options).call call
      ⟨((n, []), t), []⟩).2.world.1.2.Pairwise (wire.Appends write) := by
  let agent := wire.agent client.recording registry options
  obtain ⟨as, _, hmade⟩ := Calls.call_made agent call ⟨((n, []), t), []⟩
  obtain ⟨log, hlog, hposting⟩ := replays_posting hmade.extends_.replays
  have happends := posting_appends hlists
    (Tools.asks_attempts (agent.request call.outputSchema) (agent.start call) as)
    (unfolds_attempts _ _ as)
  rw [← hposting, List.pairwise_map] at happends
  rw [hlog]
  exact happends

end

/-- In any call on a built-in provider each request that is posted repeats every
request before it, as the same object but for its messages, and these go on with
the reply to that request. -/
theorem requests_append {σ ν τ T : Type} (registry : ToolRegistry τ) (options : AgentOptions)
    (client : HttpClient ν) (call : Call T) (n : ν) (t : τ) :
    (∀ provider : AnthropicProvider σ,
      ((provider.wire.agent client.recording registry options).call call
        ⟨((n, []), t), []⟩).2.world.1.2.Pairwise
          (provider.wire.Appends (fun m => [AnthropicProvider.serializeMessage m]))) ∧
    ∀ provider : OpenAiProvider σ,
      ((provider.wire.agent client.recording registry options).call call
        ⟨((n, []), t), []⟩).2.world.1.2.Pairwise
          (provider.wire.Appends OpenAiProvider.wireMessages) :=
  ⟨fun provider => posts_append (anthropic_lists provider) registry options client call n t,
    fun provider => posts_append (openAi_lists provider) registry options client call n t⟩

end Forgeant.Proofs.Growth
