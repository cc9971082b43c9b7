import Forgeant.Create
import Forgeant.Json.Reference
import Forgeant.Proofs.Recording
import Forgeant.Proofs.Requests
import Forgeant.Proofs.Transfers
import Forgeant.Proofs.WireForm

namespace Forgeant.Proofs.Create
open CurlHttpClient PerformPost Lifetimes Transfers Registry Replay Recording
open WireForm (reply said)

variable {ν τ : Type} {H H' H'' : Heap Cell} {curl : Curl ν}
  {script : EasyRequest → ν → Script ν} {client : CurlHttpClient} {impl handle : Ptr}

theorem kept_refl (h : client.Holds H impl handle) : Kept H handle H where
  next := Nat.le_refl _
  easyAt := h.easyAt
  others _ _ := rfl

theorem kept_trans (h : Kept H handle H') (h' : Kept H' handle H'') : Kept H handle H'' where
  next := h.next.trans h'.next
  easyAt := h'.easyAt
  others q hq := (h'.others q hq).trans (h.others q hq)

theorem kept_holds (h : Kept H handle H') (hc : client.Holds H impl handle) :
    client.Holds H' impl handle := by
  obtain ⟨easy, heasy⟩ := hc.easyAt
  exact (alike_kept h heasy).holds hc

/-- A post of the client is a transfer. -/
theorem httpClient_post (hcurl : curl.Documented script) (h : client.Holds H impl handle)
    (hconfig : client.config_ = {}) (url : Str) (headers : HttpHeaders) {body : Str}
    (hsize : body.length < 2 ^ 63) (n : ν) (t : τ) :
    ∃ H', (client.httpClient curl).post url headers body (some ⟨H, n, t⟩) =
      (((curl.network script).post url headers body n).1,
        some ⟨H', ((curl.network script).post url headers body n).2, t⟩) ∧ Kept H handle H' := by
  obtain ⟨H', hrun, hkept⟩ := post_delivers hcurl h url headers hsize n t
  refine ⟨H', ?_, hkept⟩
  rw [hconfig] at hrun
  simp only [httpClient, Option.map_some, hrun, posted, Curl.network]
  by_cases hcode : (script (sent {} url headers body) n).code = CURLE_OK
  · simp only [if_pos hcode]
  · simp only [if_neg hcode, CurlHttpClient.failure]

section

variable [Platform] {wire : Wire} {registry : ToolRegistry τ} {options : AgentOptions}

omit [Platform] in
theorem inProgram_execute (w : CurlWorld ν τ) (name : Str) (input : Json) :
    (registry.mapTools (fun tool => tool.inProgram ν)).execute name input (some w) =
      ((registry.execute name input w.user).1,
        some { w with user := (registry.execute name input w.user).2 }) :=
  mapTools_execute (fun t => some { w with user := t }) (fun _ _ => rfl) name input

/-- The created agent, its parts named. -/
def owning (wire : Wire) (curl : Curl ν) (client : CurlHttpClient) (registry : ToolRegistry τ)
    (options : AgentOptions) : Agent (Option (CurlWorld ν τ)) where
  provider := wire.over (client.httpClient curl)
  registry := registry.mapTools (fun tool => tool.inProgram ν)
  options := options

theorem twins_owning (wire : Wire) (curl : Curl ν) (script : EasyRequest → ν → Script ν)
    (client : CurlHttpClient) (registry : ToolRegistry τ) (options : AgentOptions) :
    Twins (wire.agent (curl.network script) registry options)
      (owning wire curl client registry options) where
  options := rfl
  tools := (beside_tools ν registry).trans
    (mapTools_tools registry (f := fun tool => tool.inProgram ν) (fun _ => ⟨rfl, rfl, rfl⟩)).symm

/-- What happens on the network happens through the client, if what is sent fits
into a string. -/
theorem replays_owning (hcurl : curl.Documented script) (hconfig : client.config_ = {})
    {w v : ν × τ} {es : List Event}
    (hes : Replays (wire.over ((curl.network script).beside τ)) (registry.beside ν) w es v)
    (hsize : ∀ event ∈ es, ∀ request, wire.request event = some request →
      request.2.2.length < 2 ^ 63)
    (h : client.Holds H impl handle) :
    ∃ H', Replays (wire.over (client.httpClient curl))
        (registry.mapTools (fun tool => tool.inProgram ν)) (some ⟨H, w.1, w.2⟩) es
        (some ⟨H', v.1, v.2⟩) ∧ Kept H handle H' := by
  induction hes generalizing H with
  | nil w => exact ⟨H, .nil _, kept_refl h⟩
  | chat hchat rest ih =>
    rename_i w v u es c request outcome
    have hrest := fun event hevent => hsize event (List.mem_cons_of_mem _ hevent)
    cases hbody : wire.body c request with
    | error e =>
      rw [over_chat_error hbody] at hchat
      cases hchat
      obtain ⟨H', hes, hkept⟩ := ih hrest h
      exact ⟨H', .chat (over_chat_error hbody _) hes, hkept⟩
    | ok body =>
      have hfits : body.dump.length < 2 ^ 63 :=
        hsize _ List.mem_cons_self (wire.url, wire.headers, body.dump)
          (by simp only [Wire.request, hbody])
      rw [over_chat_ok hbody] at hchat
      cases hchat
      obtain ⟨H₁, hpost, hkept⟩ :=
        httpClient_post hcurl h hconfig wire.url wire.headers hfits w.1 w.2
      obtain ⟨H', hes, hkept'⟩ := ih hrest (kept_holds hkept h)
      refine ⟨H', .chat ?_ hes, kept_trans hkept hkept'⟩
      rw [over_chat_ok hbody, hpost]
      rfl
  | execute hexecute rest ih =>
    rename_i w v u es name input outcome
    have hrest := fun event hevent => hsize event (List.mem_cons_of_mem _ hevent)
    obtain ⟨n, t⟩ := w
    rw [beside_execute] at hexecute
    cases hexecute
    obtain ⟨H', hes, hkept⟩ := ih hrest h
    exact ⟨H', .execute (inProgram_execute ⟨H, n, t⟩ name input) hes, hkept⟩

theorem calls_owning (wire : Wire) (registry : ToolRegistry τ) (options : AgentOptions)
    (hcurl : curl.Documented script) (hconfig : client.config_ = {})
    (h : client.Holds H impl handle) (cs : List AnyCall) (n : ν) (t : τ)
    (hsize : wire.Sendable
      ((wire.agent (curl.network script) registry options).calls cs (n, t)).1) :
    ∃ H', (owning wire curl client registry options).calls cs (some ⟨H, n, t⟩) =
        (((wire.agent (curl.network script) registry options).calls cs (n, t)).1,
          some ⟨H', ((wire.agent (curl.network script) registry options).calls cs (n, t)).2.1,
            ((wire.agent (curl.network script) registry options).calls cs (n, t)).2.2⟩) ∧
      Kept H handle H' := by
  induction cs generalizing H n t with
  | nil => exact ⟨H, rfl, kept_refl h⟩
  | cons c cs ih =>
    obtain ⟨es, hextends, hreplay⟩ :=
      replayable_call (twins_owning wire curl script client registry options) c.call ⟨(n, t), []⟩
    have htrace := hextends.trace
    rw [List.nil_append] at htrace
    rw [Agent.calls_cons] at hsize
    have hfirst : ∀ event ∈ es, ∀ request, wire.request event = some request →
        request.2.2.length < 2 ^ 63 := by
      rw [← htrace]
      exact hsize _ List.mem_cons_self
    obtain ⟨H₁, hes, hkept⟩ := replays_owning hcurl hconfig hextends.replays hfirst h
    obtain ⟨H', hcalls, hkept'⟩ := ih (kept_holds hkept h) _ _
      (fun report hreport => hsize report (List.mem_cons_of_mem _ hreport))
    refine ⟨H', ?_, kept_trans hkept hkept'⟩
    rw [Agent.calls_cons, hreplay ⟨some ⟨H, n, t⟩, []⟩ _ hes, hcalls, Agent.calls_cons, htrace]
    rfl

/-- A provider's name settles its wire, and the client it is given its network. -/
theorem createProvider_eq {σ : Type} (client : HttpClient σ) (name : Str)
    (config : ProviderConfig) :
    Agent.createProvider client name config =
      (Wire.named name config).map (fun wire => wire.over client) := by
  unfold Agent.createProvider Wire.named
  by_cases hanthropic : name = str "anthropic"
  · rw [if_pos hanthropic, if_pos hanthropic]
    rfl
  · rw [if_neg hanthropic, if_neg hanthropic]
    by_cases hopenai : name = str "openai"
    · rw [if_pos hopenai, if_pos hopenai]
      rfl
    · rw [if_neg hopenai, if_neg hopenai]
      split
      · rfl
      · rfl

theorem addTools_owning (wire : Wire) (curl : Curl ν) (client : CurlHttpClient)
    (tools : List (Tool τ)) (options : AgentOptions) :
    (tools.map (fun tool => tool.inProgram ν)).foldl Agent.addTool
        { provider := wire.over (client.httpClient curl), options := options } =
      owning wire curl client (tools.foldl ToolRegistry.add {}) options := by
  rw [addTools_eq, owning,
    mapTools_addAll tools {} (f := fun tool => tool.inProgram ν) (fun _ => rfl)]
  rfl

section

variable {name : Str} {options : CreateOptions} {tools : List (Tool τ)} {cs : List AnyCall}
  {w v u x : CurlWorld ν τ}

theorem lifetime_throws {fault : Fault}
    (h : (Agent.create curl name options).run w = (.error fault, v)) :
    Agent.lifetime curl name options tools cs w = (.error fault, v) := by
  rw [Agent.lifetime, h]

theorem lifetime_returns {agent : Agent (Option (CurlWorld ν τ))} {reports : List Report}
    (hcreate : (Agent.create curl name options).run w = (.ok (client, agent), v))
    (hcalls : ((tools.map (fun tool => tool.inProgram ν)).foldl Agent.addTool agent).calls cs
      (some v) = (reports, some u))
    (hrelease : (client.release : CurlEffect ν τ Unit).run u = (.ok (), x)) :
    Agent.lifetime curl name options tools cs w = (.ok reports, x) := by
  simp only [Agent.lifetime, hcreate, hcalls, hrelease]

end

/-- An agent's lifetime is what its calls amount to on the network. It does
nothing undefined and leaves the memory as it was, also where it is not made. -/
theorem lifetime_refines (hcurl : curl.Documented script) (name : Str) (options : CreateOptions)
    (tools : List (Tool τ)) (cs : List AnyCall) (n : ν) (t : τ)
    (hsize : ∀ wire reports, Wire.named name options.providerConfig = .ok wire →
      (Agent.lifetimeOn curl script name options tools cs n t).1 = .ok reports →
      wire.Sendable reports) :
    ∃ H', Agent.lifetime curl name options tools cs ⟨H, n, t⟩ =
        ((Agent.lifetimeOn curl script name options tools cs n t).1.mapError .std,
          ⟨H', (Agent.lifetimeOn curl script name options tools cs n t).2.1,
            (Agent.lifetimeOn curl script name options tools cs n t).2.2⟩) ∧
      ∀ q, H'.cells q = H.cells q := by
  rcases hinit : curl.easyInit n with ⟨_ | _, m⟩
  · refine ⟨(H.alloc (.impl none)).free H.next, ?_, cells_construct_fails⟩
    rw [lifetime_throws (Effect.run_bind_error (run_construct_fails hinit {}) _)]
    simp only [Agent.lifetimeOn, hinit]
    rfl
  · have hnew := holds_withClient (H := H) {}
    have hmade := run_construct (H := H) (s := t) hinit {}
    have hcreate : (Agent.create curl name options).run ⟨H, n, t⟩ = _ :=
      Effect.run_bind_ok hmade _
    rw [createProvider_eq] at hcreate
    cases hwire : Wire.named name options.providerConfig with
    | error e =>
      rw [hwire] at hcreate
      refine ⟨((withClient H).free (H.next + 1)).free H.next, ?_, cells_released (kept_refl hnew)⟩
      rw [lifetime_throws (hcreate.trans (Effect.run_bind_ok (run_release hnew) _))]
      simp only [Agent.lifetimeOn, hinit, hwire]
      rfl
    | ok wire =>
      rw [hwire] at hcreate
      simp only [Agent.lifetimeOn, hinit, hwire] at hsize ⊢
      obtain ⟨H', hcalls, hkept⟩ := calls_owning wire (tools.foldl ToolRegistry.add {})
        options.toAgentOptions hcurl rfl hnew cs m t (hsize _ _ rfl rfl)
      refine ⟨(H'.free (H.next + 1)).free H.next, ?_, cells_released hkept⟩
      rw [← addTools_owning] at hcalls
      rw [lifetime_returns hcreate hcalls (run_release (kept_holds hkept hnew))]
      rfl

end

/-- A tool that counts its calls. -/
def counter : Tool Nat where
  name := str "add"
  description := []
  parameters := .null
  execute _ calls := (.ok (.string (str "5")), calls + 1)

/-- The transfer of a body in one chunk. -/
def answer (body : Str) (h : body.length < 2 ^ 64) : Script Unit where
  deliveries := [.data ⟨body, h⟩]
  code := CURLE_OK
  responseCode := 200
  network := ()

theorem network_answer (url : Str) (headers : HttpHeaders) (text body : Str)
    (h : body.length < 2 ^ 64) (network : List (Script Unit)) :
    (Curl.scripted.network Curl.scripted.next).post url headers text (answer body h :: network) =
      (.ok { statusCode := 200, body := body }, network) := by
  simp [Curl.network, Curl.scripted.next, answer, received, chunks]

def asks : Script Unit :=
  letI := Platform.utf8
  answer WireForm.anthropicTurn.dump (by decide +kernel)

def tells : Script Unit :=
  letI := Platform.utf8
  answer (said "5").dump (by decide +kernel)

def calculatorWire : Wire :=
  letI := Platform.utf8
  (AnthropicProvider.make .playback ({ model := str "m" } : CreateOptions).providerConfig).wire

/-- The agent on the network of the transfers. -/
def calculator : Agent (List (Script Unit) × Nat) :=
  letI := Platform.utf8
  calculatorWire.agent (Curl.scripted.network Curl.scripted.next) (ToolRegistry.add {} counter) {}

theorem chat_answer (c : Conversation) {j : Json} {response : LlmResponse} {h}
    (hlasting : @Json.Lasting .utf8 Str.IsUtf8 j)
    (hresponse : AnthropicProvider.deserializeResponse j = .ok response)
    (network : List (Script Unit)) (calls : Nat) :
    letI := Platform.utf8
    calculator.provider.chat c (calculator.request none) (answer j.dump h :: network, calls) =
      (.ok response, (network, calls)) := by
  let platform := Platform.utf8
  obtain ⟨body, hbody⟩ : ∃ body, calculatorWire.body c (calculator.request none) = .ok body :=
    ⟨_, rfl⟩
  have hread : calculatorWire.read (.ok { statusCode := 200, body := j.dump }) = .ok response := by
    change Json.parse j.dump >>= AnthropicProvider.deserializeResponse = _
    rw [JsonRoundTrip.parse_utf8 hlasting]
    exact hresponse
  change (calculatorWire.over
    ((Curl.scripted.network Curl.scripted.next).beside Nat)).chat _ _ _ = _
  rw [over_chat_ok hbody]
  simp only [HttpClient.beside, network_answer, hread]

def question : Conversation := { messages := [.ofText .user (str "2 + 3?")] }

def answered : Conversation :=
  (question.add WireForm.turn.message).add
    ⟨.tool, [.toolResult { toolUseId := str "t1", content := str "\"5\"" }]⟩

def calculatorEvents : List Event :=
  letI := Platform.utf8
  [.chat question (calculator.request none) (.ok WireForm.turn),
    .execute (str "add") (.object []) (.ok (.string (str "5"))),
    .chat answered (calculator.request none) (.ok (reply "5"))]

theorem calculator_run :
    letI := Platform.utf8
    calculator.call (.run (str "2 + 3?") {}) ⟨([asks, tells], 0), []⟩ =
      (.ok
        { output := str "5", conversation := answered.add (reply "5").message,
          totalUsage := 0, iterations := 2, finishReason := [] },
        ⟨([], 1), calculatorEvents⟩) := by
  let platform := Platform.utf8
  have hasks (c : Conversation) (calls : Nat) : calculator.provider.chat c
      (calculator.request none) ([asks, tells], calls) = (.ok WireForm.turn, ([tells], calls)) :=
    chat_answer c WireForm.lasting_anthropicTurn rfl _ _
  have htells (c : Conversation) (calls : Nat) : calculator.provider.chat c
      (calculator.request none) ([tells], calls) = (.ok (reply "5"), ([], calls)) :=
    chat_answer c (WireForm.lasting_said "5") rfl _ _
  have hagain : calculator.iterate none 0 ⟨question, 0, ⟨([asks, tells], 0), []⟩⟩ =
      .again ⟨answered, 0, ⟨([tells], 1), calculatorEvents.take 2⟩⟩ := by
    simp only [Agent.iterate, Session.chat, hasks]
    rfl
  have hleave : calculator.iterate none 1 ⟨answered, 0, ⟨([tells], 1), calculatorEvents.take 2⟩⟩ =
      .leave (.ok
        { conversation := answered.add (reply "5").message, totalUsage := 0, iterations := 2,
          finishReason := [] }, ⟨([], 1), calculatorEvents⟩) := by
    simp only [Agent.iterate, Session.chat, htells]
    rfl
  have hloop : calculator.executeLoop question {} none ⟨([asks, tells], 0), []⟩ =
      (.ok
        { conversation := answered.add (reply "5").message, totalUsage := 0, iterations := 2,
          finishReason := [] }, ⟨([], 1), calculatorEvents⟩) := by
    have hcap : (calculator.maxIterations {}).toNat = 10 := rfl
    unfold Agent.executeLoop
    simp only [hcap]
    rw [Loop.run_again 9 hagain, Loop.run_leave 8 hleave]
  have hstart : calculator.promptConversation (str "2 + 3?") {} = question := rfl
  simp only [Agent.call, Agent.run, Agent.executeText, hstart, hloop]
  rfl

theorem named_calculator :
    letI := Platform.utf8
    Wire.named (str "anthropic") ({ model := str "m" } : CreateOptions).providerConfig =
      .ok calculatorWire := rfl

/-- An agent for one prompt, which the model answers once it has called the tool. -/
theorem lifetime_refines_calculator :
    letI := Platform.utf8
    ∃ (result : AgentResult Str) (trace : List Event) (H' : Heap Cell),
      Agent.lifetime Curl.scripted (str "anthropic") { model := str "m" } [counter]
          [⟨.run (str "2 + 3?") {}⟩] ⟨.empty, [asks, tells], 0⟩ =
        (.ok [⟨.ok result, trace⟩], ⟨H', [], 1⟩) ∧
      result.output = str "5" ∧ ∀ q, H'.cells q = none := by
  let platform := Platform.utf8
  let result : AgentResult Str :=
    { output := str "5", conversation := answered.add (reply "5").message, totalUsage := 0,
      iterations := 2, finishReason := [] }
  have hlifetime : Agent.lifetimeOn Curl.scripted Curl.scripted.next (str "anthropic")
      { model := str "m" } [counter] [⟨.run (str "2 + 3?") {}⟩] [asks, tells] 0 =
      (.ok [⟨.ok result, calculatorEvents⟩], ([], 1)) := by
    have hcalls : calculator.calls [⟨.run (str "2 + 3?") {}⟩] ([asks, tells], 0) =
        ([⟨.ok result, calculatorEvents⟩], ([], 1)) := by
      rw [Agent.calls_cons, calculator_run]
      rfl
    have hinit : Curl.scripted.easyInit [asks, tells] = (true, [asks, tells]) := rfl
    have hagent : calculatorWire.agent (Curl.scripted.network Curl.scripted.next)
        ([counter].foldl ToolRegistry.add {})
        ({ model := str "m" } : CreateOptions).toAgentOptions = calculator := rfl
    simp only [Agent.lifetimeOn, hinit, named_calculator, Wire.calls, hagent, hcalls]
  have hsize : calculatorWire.Sendable [⟨Except.ok result, calculatorEvents⟩] := by
    intro report hreport event hevent request hrequest
    cases List.mem_singleton.mp hreport
    simp only [calculatorEvents, List.mem_cons, List.not_mem_nil, or_false] at hevent
    rcases hevent with rfl | rfl | rfl
    · cases Option.some.inj hrequest
      decide +kernel
    · cases hrequest
    · cases Option.some.inj hrequest
      decide +kernel
  obtain ⟨H', hrun, hcells⟩ := lifetime_refines (H := .empty) Curl.scripted_documented
    (str "anthropic") { model := str "m" } [counter] [⟨.run (str "2 + 3?") {}⟩] [asks, tells] 0
    (by
      intro wire reports hwire hreports
      cases named_calculator.symm.trans hwire
      rw [hlifetime] at hreports
      cases hreports
      exact hsize)
  rw [hlifetime] at hrun
  exact ⟨_, _, H', hrun, rfl, hcells⟩

theorem anthropic_settings {σ : Type} {provider : AnthropicProvider σ} {c : Conversation}
    {request : ChatRequest} {body : Json} (h : provider.serializeRequest c request = .ok body) :
    ∃ members, body = .object members ∧
      Assoc.find? (str "model") members = some (.string provider.config.model) ∧
      Assoc.find? (str "max_tokens") members =
        some (.integer (provider.config.maxTokens.getD 1024).toInt64) ∧
      Assoc.find? (str "temperature") members = provider.config.temperature.map .number := by
  rw [Requests.Anthropic.serializeRequest_sent] at h
  obtain ⟨sent, hsent, rfl⟩ := Except.map_ok_iff.mp h
  obtain ⟨schema, _, hparts⟩ := Except.bind_ok.mp hsent
  cases hparts
  exact Requests.body_settings Requests.Anthropic.faithful _

section

variable [Platform]

theorem openAi_settings {σ : Type} {provider : OpenAiProvider σ} {c : Conversation}
    {request : ChatRequest} {body : Json} (h : provider.serializeRequest c request = .ok body) :
    ∃ members, body = .object members ∧
      Assoc.find? (str "model") members = some (.string provider.config.model) ∧
      Assoc.find? (str "max_tokens") members =
        provider.config.maxTokens.map (fun n => .integer n.toInt64) ∧
      Assoc.find? (str "temperature") members = provider.config.temperature.map .number := by
  rw [Requests.OpenAi.serializeRequest_sent] at h
  obtain ⟨sent, hsent, rfl⟩ := Except.map_ok_iff.mp h
  obtain ⟨schema, _, hparts⟩ := Except.bind_ok.mp hsent
  cases hparts
  exact Requests.body_settings Requests.OpenAi.faithful _

theorem anthropic_settles {σ : Type} {provider : AnthropicProvider σ} {options : CreateOptions}
    (hconfig : provider.config =
      { options.providerConfig with baseUrl := options.locatedAt (str "anthropic") })
    {c : Conversation} {request : ChatRequest} {body : Json}
    (hbody : provider.serializeRequest c request = .ok body) :
    options.Settle (str "anthropic") (provider.endpointUrl, provider.authHeaders, body.dump) := by
  obtain ⟨members, rfl, hmodel, htokens, htemperature⟩ := anthropic_settings hbody
  rw [hconfig] at hmodel htokens htemperature
  exact
    { url := by rw [AnthropicProvider.endpointUrl, hconfig]; rfl
      headers := by rw [AnthropicProvider.authHeaders, hconfig]; rfl
      body := ⟨members, rfl, hmodel, htokens, htemperature⟩ }

theorem openAi_settles {σ : Type} {provider : OpenAiProvider σ} {options : CreateOptions}
    {name : Str} (hname : name ≠ str "anthropic")
    (hconfig : provider.config =
      { options.providerConfig with baseUrl := options.locatedAt name })
    {c : Conversation} {request : ChatRequest} {body : Json}
    (hbody : provider.serializeRequest c request = .ok body) :
    options.Settle name (provider.endpointUrl, provider.authHeaders, body.dump) := by
  obtain ⟨members, rfl, hmodel, htokens, htemperature⟩ := openAi_settings hbody
  rw [hconfig] at hmodel htokens htemperature
  refine ⟨?_, ?_, members, rfl, hmodel, ?_, htemperature⟩
  · rw [CreateOptions.endpointUrl, if_neg hname, OpenAiProvider.endpointUrl, hconfig]
  · rw [CreateOptions.authHeaders, if_neg hname, OpenAiProvider.authHeaders, hconfig]
    rfl
  · rw [CreateOptions.tokenLimit, if_neg hname]
    exact htokens

omit [Platform] in
theorem orBaseUrl_located {options : CreateOptions} {name url : Str}
    (h : options.baseUrl = [] → options.locatedAt name = url) :
    options.providerConfig.orBaseUrl url =
      { options.providerConfig with baseUrl := options.locatedAt name } := by
  unfold ProviderConfig.orBaseUrl
  split
  · rename_i hurl
    rw [h hurl]
  · rename_i hurl
    have hlocated : options.locatedAt name = options.baseUrl := if_pos hurl
    rw [hlocated]
    rfl

/-- Whatever request an event stands for says what the options say. -/
theorem named_settles {name : Str} {options : CreateOptions} {wire : Wire}
    (h : Wire.named name options.providerConfig = .ok wire) {c : Conversation}
    {request : ChatRequest} {body : Json} (hbody : wire.body c request = .ok body) :
    options.Settle name (wire.url, wire.headers, body.dump) := by
  unfold Wire.named at h
  by_cases hanthropic : name = str "anthropic"
  · rw [if_pos hanthropic] at h
    cases h
    subst hanthropic
    exact anthropic_settles (orBaseUrl_located
      (fun hurl => by rw [CreateOptions.locatedAt, if_neg (not_not.mpr hurl)]; rfl)) hbody
  · rw [if_neg hanthropic] at h
    have hlocal (hurl : options.baseUrl = []) : options.locatedAt name =
        if name = str "ollama" then str "http://localhost:11434"
        else str "https://api.openai.com" := by
      rw [CreateOptions.locatedAt, if_neg (not_not.mpr hurl), if_neg hanthropic]
    by_cases hopenai : name = str "openai"
    · rw [if_pos hopenai] at h
      cases h
      refine openAi_settles hanthropic (orBaseUrl_located (fun hurl => ?_)) hbody
      rw [hlocal hurl, hopenai]
      rfl
    · rw [if_neg hopenai] at h
      by_cases hollama : name = str "ollama"
      · rw [if_pos hollama] at h
        cases h
        -- the constructor finds the base URL set
        have hset :
            (options.providerConfig.orBaseUrl (str "http://localhost:11434")).baseUrl ≠ [] :=
          ProviderConfig.orBaseUrl_ne_nil _ (by decide)
        have hconfig : (options.providerConfig.orBaseUrl (str "http://localhost:11434")).orBaseUrl
            OpenAiProvider.defaultBaseUrl = _ := if_neg hset
        refine openAi_settles hanthropic (hconfig.trans (orBaseUrl_located (fun hurl => ?_))) hbody
        rw [hlocal hurl, if_pos hollama]
      · rw [if_neg hollama] at h
        cases h

/-- Every request that an agent made by name posts, in every call, goes where
its options say, with their key, model, token limit and temperature. -/
theorem created_settles {ν : Type} {client : HttpClient ν} {name : Str} {options : CreateOptions}
    {provider : LlmProvider ((ν × List Exchange) × τ)}
    (h : Agent.createProvider (client.recording.beside τ) name options.providerConfig =
      .ok provider) (registry : ToolRegistry τ) {T : Type} (c : Call T) (n : ν) (t : τ) :
    ∀ exchange ∈ ((Agent.mk provider (registry.beside (ν × List Exchange))
        options.toAgentOptions).call c ⟨((n, []), t), []⟩).2.world.1.2,
      options.Settle name exchange.request := by
  rw [createProvider_eq] at h
  cases hwire : Wire.named name options.providerConfig with
  | error e =>
    rw [hwire] at h
    cases h
  | ok wire =>
    rw [hwire] at h
    cases h
    obtain ⟨es, log, m, u, _, hlog, hrecorded, _⟩ :=
      call_logged wire registry options.toAgentOptions client c ⟨(n, t), []⟩
    intro exchange hexchange
    have hmem : exchange ∈ ((wire.agent client.recording registry options.toAgentOptions).call c
        ⟨((n, []), t), []⟩).2.world.1.2 := hexchange
    rw [hrecorded] at hmem
    have hrequest : exchange.request ∈ log.map Exchange.request := List.mem_map_of_mem hmem
    rw [hlog] at hrequest
    obtain ⟨event, _, hevent⟩ := List.mem_filterMap.mp hrequest
    cases event with
    | execute => cases hevent
    | chat conversation request outcome =>
      cases hbody : wire.body conversation request with
      | error e =>
        simp only [Wire.request, hbody] at hevent
        cases hevent
      | ok body =>
        simp only [Wire.request, hbody, Option.some.injEq] at hevent
        rw [← hevent]
        exact named_settles hwire hbody

end

theorem created_settles_openai :
    letI := Platform.reference
    ∃ body, ({ model := str "m" } : CreateOptions).Settle (str "openai")
      (str "https://api.openai.com/v1/chat/completions",
        [(str "Authorization", str "Bearer "), (str "content-type", str "application/json")],
        body) := by
  let platform := Platform.reference
  have hprovider : Agent.createProvider (HttpClient.playback.recording.beside Unit) (str "openai")
      ({ model := str "m" } : CreateOptions).providerConfig = .ok _ := rfl
  exact ⟨_, created_settles hprovider {} (.run (str "hi") {}) [] () _ List.mem_cons_self⟩

end Forgeant.Proofs.Create
