import Forgeant.Json.Path
import Forgeant.Provider.Anthropic
import Forgeant.Provider.OpenAi
import Forgeant.Proofs.JsonRoundTrip

namespace Forgeant.Proofs.FailureReports

/-- A provider of the library's own. -/
inductive BuiltIn (σ : Type) where
  | anthropic (provider : AnthropicProvider σ)
  | openAi (provider : OpenAiProvider σ)

/-- What the error message says in any case. -/
def statusText (api : Str) (status : Int) : Str :=
  api ++ str " API error (HTTP " ++ Str.ofInt status ++ str ")"

def errorPath : Path := [.key (str "error"), .key (str "message")]

variable {σ : Type} [Platform]

/-- The answer to a request, if there is one to send. -/
def sent (client : HttpClient σ) (url : Str) (headers : HttpHeaders)
    (requestBody : Except StdException Json) (w : σ) : Except StdException HttpResponse × σ :=
  match requestBody with
  | .error e => (.error e, w)
  | .ok body => client.post url headers body.dump w

namespace BuiltIn

def api : BuiltIn σ → Str
  | anthropic _ => str "Anthropic"
  | openAi _ => str "OpenAI"

def chat : BuiltIn σ → LlmProvider σ
  | anthropic provider => provider.chat
  | openAi provider => provider.chat

/-- The answer to the request that a chat call sends. -/
def post (provider : BuiltIn σ) (conversation : Conversation) (request : ChatRequest) :
    σ → Except StdException HttpResponse × σ :=
  match provider with
  | anthropic p =>
    sent p.client p.endpointUrl p.authHeaders (p.serializeRequest conversation request)
  | openAi p =>
    sent p.client p.endpointUrl p.authHeaders (p.serializeRequest conversation request)

end BuiltIn

/-- What of a body the message should name: the string at `error.message`, or
else all of it. -/
def cause (body : Str) : Str :=
  match Json.parse body with
  | .ok j =>
    match j.node? errorPath with
    | some (.string message) => message
    | _ => body
  | .error _ => body

/-- The body is a JSON text with nothing at `error.message`. -/
def Unexplained (body : Str) : Prop :=
  ∃ j, Json.parse body = .ok j ∧ j.node? errorPath = none

variable {body : Str} {j : Json}

theorem errorDetail_of_parse (h : Json.parse body = .ok j) :
    errorDetail body =
      match j.node? errorPath with
      | some v => some <$> v.getString
      | none => .ok none := by
  unfold errorDetail
  rw [h]
  show (if _ then _ else _) = _
  cases herror : j.contains (str "error") with
  | false =>
    rw [errorPath, Json.node?_of_missing herror]
    rfl
  | true =>
    obtain ⟨error, hindex⟩ := Json.index_of_contains herror
    rw [if_pos rfl, hindex, errorPath, Json.node?_of_index hindex]
    show (if _ then _ else _) = _
    cases hmessage : error.contains (str "message") with
    | false =>
      rw [Json.node?_of_missing hmessage]
      rfl
    | true =>
      obtain ⟨message, hindex'⟩ := Json.index_of_contains hmessage
      rw [if_pos rfl, hindex', Json.node?_of_index hindex']
      rfl

theorem errorDetail_of_unexplained (h : Unexplained body) : errorDetail body = .ok none := by
  obtain ⟨j, hj, hnode⟩ := h
  rw [errorDetail_of_parse hj, hnode]

/-- Whatever else the body is, the message goes on with its cause. -/
theorem apiErrorMessage_of_explained (api : Str) {response : HttpResponse}
    (hbody : response.body ≠ []) (h : ¬ Unexplained response.body) :
    apiErrorMessage api response =
      statusText api response.statusCode ++ str ": " ++ cause response.body := by
  unfold apiErrorMessage cause
  rw [if_neg hbody]
  cases hj : Json.parse response.body with
  | error e =>
    have hdetail : errorDetail response.body = .error e := by
      unfold errorDetail
      rw [hj]
      rfl
    rw [hdetail]
    rfl
  | ok j =>
    cases hnode : j.node? errorPath with
    | none => exact absurd ⟨j, hj, hnode⟩ h
    | some v =>
      simp only [errorDetail_of_parse hj, hnode]
      cases v <;> rfl

theorem apiErrorMessage_of_unexplained (api : Str) {response : HttpResponse}
    (h : Unexplained response.body) :
    apiErrorMessage api response = statusText api response.statusCode := by
  unfold apiErrorMessage
  rw [errorDetail_of_unexplained h]
  split <;> rfl

theorem cause_of_unexplained (h : Unexplained body) : cause body = body := by
  obtain ⟨j, hj, hnode⟩ := h
  simp only [cause, hj, hnode]

/-- A failed call reports its status, and of a body that is not empty the
cause. -/
def Reports (response : HttpResponse) (outcome : Except StdException LlmResponse) : Prop :=
  ∃ message, outcome = .error (.runtimeError message) ∧
    Str.ofInt response.statusCode <:+: (StdException.runtimeError message).what ∧
    (response.body ≠ [] → cause response.body <:+: (StdException.runtimeError message).what)

/-- The cause goes into the message, all of it, or is part of it anyway. -/
def Carried (api : Str) (response : HttpResponse) : Prop :=
  response.body = [] ∨ (¬ Unexplained response.body ∧ 0 ∉ cause response.body) ∨
    cause response.body <:+: statusText api response.statusCode

omit [Platform] in
/-- Neither NUL nor a brace is part of the text that is always there. -/
theorem notMem_statusText {b : UInt8} {api : Str} (h : b ∉ api) (hb : b = 0 ∨ b = 0x7b)
    (status : Int) : b ∉ statusText api status := by
  have hfixed : b ∉ str " API error (HTTP " ∧ b ∉ str ")" ∧ Str.isDigit b = false ∧ b ≠ 0x2d := by
    rcases hb with rfl | rfl <;> decide
  obtain ⟨hbefore, hafter, hdigit, hminus⟩ := hfixed
  simp [statusText, h, hbefore, hafter, Str.notMem_ofInt hdigit hminus]

omit [Platform] in
theorem status_infix (api : Str) (status : Int) (t : Str) :
    Str.ofInt status <:+: statusText api status ++ t :=
  ⟨api ++ str " API error (HTTP ", str ")" ++ t, by simp [statusText]⟩

theorem apiErrorMessage_prefix (api : Str) (response : HttpResponse) :
    ∃ t, apiErrorMessage api response = statusText api response.statusCode ++ t := by
  by_cases hbody : response.body = []
  · refine ⟨[], ?_⟩
    unfold apiErrorMessage
    rw [if_pos hbody]
    simp [statusText]
  · by_cases h : Unexplained response.body
    · exact ⟨[], by rw [apiErrorMessage_of_unexplained api h, List.append_nil]⟩
    · refine ⟨str ": " ++ cause response.body, ?_⟩
      rw [apiErrorMessage_of_explained api hbody h, List.append_assoc]

theorem status_reported {api : Str} (hapi : 0 ∉ api) (response : HttpResponse) :
    Str.ofInt response.statusCode <:+:
      (StdException.runtimeError (apiErrorMessage api response)).what := by
  obtain ⟨t, ht⟩ := apiErrorMessage_prefix api response
  rw [StdException.what, ht, Str.cstr_append (notMem_statusText hapi (.inl rfl) _)]
  exact status_infix api response.statusCode _

theorem cause_reported_iff {api : Str} (hapi : 0 ∉ api) (response : HttpResponse) :
    (response.body ≠ [] → cause response.body <:+:
        (StdException.runtimeError (apiErrorMessage api response)).what) ↔
      Carried api response := by
  have hstatus := notMem_statusText hapi (.inl rfl) response.statusCode
  rw [StdException.what, Carried]
  by_cases hbody : response.body = []
  · simp [hbody]
  · by_cases h : Unexplained response.body
    · rw [apiErrorMessage_of_unexplained api h, Str.cstr_eq_self hstatus]
      simp [hbody, h]
    · have hsep : 0 ∉ statusText api response.statusCode ++ str ": " := by
        have hcolon : 0 ∉ str ": " := by decide
        simp [hstatus, hcolon]
      rw [apiErrorMessage_of_explained api hbody h, Str.cstr_append hsep]
      by_cases hzero : 0 ∈ cause response.body
      · have hnot {s : Str} (hs : 0 ∉ s) : ¬ cause response.body <:+: s :=
          fun hpart => hs (hpart.subset hzero)
        have hread : 0 ∉ statusText api response.statusCode ++ str ": " ++
            (cause response.body).cstr := by
          rw [List.mem_append, not_or]
          exact ⟨hsep, Str.zero_notMem_cstr _⟩
        constructor
        · intro hreported
          exact absurd (hreported hbody) (hnot hread)
        · rintro (hnil | ⟨_, hfree⟩ | hpart)
          · exact absurd hnil hbody
          · exact absurd hzero hfree
          · exact absurd hpart (hnot hstatus)
      · rw [Str.cstr_eq_self hzero]
        constructor
        · intro _
          exact .inr (.inl ⟨h, hzero⟩)
        · intro _ _
          exact (List.suffix_append _ _).isInfix

omit [Platform] in
theorem BuiltIn.notMem_api {b : UInt8} (hb : b = 0 ∨ b = 0x7b) (provider : BuiltIn σ) :
    b ∉ provider.api := by
  cases provider <;>
  · rcases hb with rfl | rfl <;>
    · simp only [api]
      decide

theorem chat_of_sent {client : HttpClient σ} {api url : Str} {headers : HttpHeaders}
    {requestBody : Except StdException Json} {deserialize : Json → Except StdException LlmResponse}
    {w v : σ} {response : HttpResponse}
    (hsent : sent client url headers requestBody w = (.ok response, v))
    (hstatus : response.statusCode < 200 ∨ 300 ≤ response.statusCode) :
    client.chat api url headers requestBody deserialize w =
      (.error (.runtimeError (apiErrorMessage api response)), v) := by
  cases requestBody with
  | error e => simp [sent] at hsent
  | ok body =>
    have hpost : client.post url headers body.dump w = (.ok response, v) := hsent
    simp only [HttpClient.chat, hpost, if_pos hstatus]

theorem BuiltIn.chat_of_post {provider : BuiltIn σ} {conversation : Conversation}
    {request : ChatRequest} {w v : σ} {response : HttpResponse}
    (hpost : provider.post conversation request w = (.ok response, v))
    (hstatus : response.statusCode < 200 ∨ 300 ≤ response.statusCode) :
    provider.chat.chat conversation request w =
      (.error (.runtimeError (apiErrorMessage provider.api response)), v) := by
  cases provider with
  | anthropic p => exact chat_of_sent hpost hstatus
  | openAi p => exact chat_of_sent hpost hstatus

/-- A status that is no success is thrown as a `std::runtime_error` that names
it. The cause is reported just when the message carries it. -/
theorem chat_reports_iff {provider : BuiltIn σ} {conversation : Conversation}
    {request : ChatRequest} {w v : σ} {response : HttpResponse}
    (hpost : provider.post conversation request w = (.ok response, v))
    (hstatus : response.statusCode < 200 ∨ 300 ≤ response.statusCode) :
    (∃ message, provider.chat.chat conversation request w = (.error (.runtimeError message), v) ∧
      Str.ofInt response.statusCode <:+: (StdException.runtimeError message).what) ∧
    (Reports response (provider.chat.chat conversation request w).1 ↔
      Carried provider.api response) := by
  have hstated := status_reported (provider.notMem_api (.inl rfl)) response
  have hcause := cause_reported_iff (provider.notMem_api (.inl rfl)) response
  rw [BuiltIn.chat_of_post hpost hstatus]
  refine ⟨⟨_, rfl, hstated⟩, ?_⟩
  rw [← hcause]
  constructor
  · rintro ⟨message, hmessage, _, hreported⟩
    cases hmessage
    exact hreported
  · intro hreported
    exact ⟨_, rfl, hstated, hreported⟩

/-- A provider whose service answers every request so. -/
def answering (response : HttpResponse) : BuiltIn Unit :=
  .anthropic
    { client := { post := fun _ _ _ w => (.ok response, w) }
      config := { apiKey := [], model := [], baseUrl := str "http://localhost" }
      located := by simp [str, String.utf8EncodeChar] }

theorem answering_post (response : HttpResponse) :
    (answering response).post {} {} () = (.ok response, ()) := rfl

omit [Platform] in
theorem chat_reports_iff_unavailable :
    letI := Platform.reference
    Reports { statusCode := 503, body := str "unavailable" }
      ((answering { statusCode := 503, body := str "unavailable" }).chat.chat {} {} ()).1 ↔
    Carried (str "Anthropic") { statusCode := 503, body := str "unavailable" } := by
  let platform := Platform.reference
  exact (chat_reports_iff (answering_post _) (.inr (by decide))).2

/-- A service that names the cause in its own way. -/
def overloaded : Json := .object [(str "detail", .string (str "overloaded"))]

theorem overloaded_unexplained (glaze : ReadsTexts (fun _ => True)) (prints : PrintsDoubles) :
    Unexplained overloaded.dump := by
  have hlasting : overloaded.Lasting (fun _ => True) := by
    simp [overloaded, Assoc.Ordered]
  have hnode : overloaded.node? errorPath = none := by
    simp [overloaded, errorPath, Json.node?, Assoc.find?, str, String.utf8EncodeChar]
  exact ⟨overloaded, JsonRoundTrip.parse_lasting glaze prints hlasting, hnode⟩

theorem overloaded_brace : 0x7b ∈ overloaded.dump := by
  simp [overloaded, Json.dump, str, String.utf8EncodeChar]

theorem overloaded_dropped {api : Str} (hapi : ∀ b, b = 0 ∨ b = 0x7b → b ∉ api) (status : Int)
    (h : Unexplained overloaded.dump) :
    ¬ Reports ⟨status, overloaded.dump⟩
      (.error (.runtimeError (apiErrorMessage api ⟨status, overloaded.dump⟩))) := by
  rintro ⟨message, hmessage, _, hreported⟩
  cases hmessage
  have hpart := hreported (List.ne_nil_of_mem overloaded_brace)
  rw [StdException.what, apiErrorMessage_of_unexplained api h, cause_of_unexplained h,
    Str.cstr_eq_self (notMem_statusText (hapi _ (.inl rfl)) (.inl rfl) _)] at hpart
  exact notMem_statusText (hapi _ (.inr rfl)) (.inr rfl) _ (hpart.subset overloaded_brace)

omit [Platform] in
/-- The message ends after the status. -/
theorem not_chat_reports : ¬ ∀ [Platform] (σ : Type) (provider : BuiltIn σ)
    (conversation : Conversation) (request : ChatRequest) (w v : σ) (response : HttpResponse),
    provider.post conversation request w = (.ok response, v) →
    response.statusCode < 200 ∨ 300 ≤ response.statusCode →
      Reports response (provider.chat.chat conversation request w).1 := by
  intro h
  let platform := Platform.reference
  have hunexplained := overloaded_unexplained (Platform.reference_readsTexts _)
    Platform.reference_printsDoubles
  have hreports := @h platform Unit (answering ⟨500, overloaded.dump⟩) {} {} () () _
    (answering_post _) (.inr (by decide))
  rw [BuiltIn.chat_of_post (answering_post _) (.inr (by decide))] at hreports
  exact overloaded_dropped (fun b hb => BuiltIn.notMem_api hb _) 500 hunexplained hreports

end Forgeant.Proofs.FailureReports
