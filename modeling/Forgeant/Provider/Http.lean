import Forgeant.Library.Fallible
import Forgeant.Session

namespace Forgeant

structure ProviderConfig where
  apiKey : Str
  model : Str
  baseUrl : Str := []
  maxTokens : Option Int32 := none
  temperature : Option Double := none

/-- What the constructors of the providers do with an empty `base_url`. -/
def ProviderConfig.orBaseUrl (config : ProviderConfig) (defaultBaseUrl : Str) : ProviderConfig :=
  if config.baseUrl = [] then { config with baseUrl := defaultBaseUrl } else config

theorem ProviderConfig.orBaseUrl_ne_nil (config : ProviderConfig) {url : Str} (h : url ≠ []) :
    (config.orBaseUrl url).baseUrl ≠ [] := by
  unfold orBaseUrl
  split
  · exact h
  · assumption

/-- Of an HTTP response, what the providers read. -/
structure HttpResponse where
  statusCode : Int := 0
  body : Str := []

abbrev HttpHeaders := List (Str × Str)

structure HttpClient (σ : Type) where
  post : Str → HttpHeaders → Str → σ → Except StdException HttpResponse × σ

/-- The usage counters of a response, under the provider's names for them. -/
def deserializeUsage (inputKey outputKey : Str) (json : Json) : Except StdException Usage :=
  if json.contains (str "usage") then do
    let usage ← json.index (str "usage")
    let inputTokens ← usage.value Json.getInt inputKey 0
    let outputTokens ← usage.value Json.getInt outputKey 0
    return { inputTokens, outputTokens }
  else return {}

theorem deserializeUsage_of_index {inputKey outputKey : Str} {json usage : Json}
    (h : json.index (str "usage") = .ok usage) :
    deserializeUsage inputKey outputKey json = do
      let inputTokens ← usage.value Json.getInt inputKey 0
      let outputTokens ← usage.value Json.getInt outputKey 0
      return { inputTokens, outputTokens } := by
  unfold deserializeUsage
  rw [if_pos (Json.contains_of_index h), h]
  rfl

theorem deserializeUsage_of_missing {inputKey outputKey : Str} {json : Json}
    (h : json.contains (str "usage") = false) :
    deserializeUsage inputKey outputKey json = .ok {} := by
  unfold deserializeUsage
  rw [h]
  rfl

/-- The copy of an output schema that a request carries. -/
def closedSchema (schema : Json) : Except StdException Json := do
  let type ← schema.value Json.getString (str "type") []
  if type = str "object" then schema.assign (str "additionalProperties") (.boolean false)
  else return schema

/-- What is set after the messages of a request leaves them as they are. -/
theorem index_messages {tools format : Str} (ht : str "messages" ≠ tools)
    (hf : str "messages" ≠ format) (messages toolsJson : Json) (withTools : Bool)
    (formatJson : Option Json) (body : List (Str × Json)) :
    (Json.object (Assoc.setSome format formatJson
      (if withTools then Assoc.set tools toolsJson (Assoc.set (str "messages") messages body)
        else Assoc.set (str "messages") messages body))).index (str "messages") = .ok messages := by
  simp only [Json.index]
  rw [Assoc.find?_setSome_ne hf]
  cases withTools with
  | false =>
    simp only [Bool.false_eq_true, if_false]
    rw [Assoc.find?_set_self]
  | true =>
    simp only [if_true]
    rw [Assoc.find?_set_ne ht, Assoc.find?_set_self]

variable {σ : Type} [Platform]

/-- The string at `error.message`, if there are such members. -/
def errorDetail (body : Str) : Except StdException (Option Str) := do
  let errJson ← Json.parse body
  if errJson.contains (str "error") then
    let error ← errJson.index (str "error")
    if error.contains (str "message") then
      let message ← error.index (str "message")
      return some (← message.getString)
    else return none
  else return none

/-- The text of the error for a status code that is no success. -/
def apiErrorMessage (api : Str) (response : HttpResponse) : Str :=
  let errorMsg := api ++ str " API error (HTTP " ++ Str.ofInt response.statusCode ++ str ")"
  if response.body = [] then errorMsg
  else
    match errorDetail response.body with
    | .ok (some detail) => errorMsg ++ str ": " ++ detail
    | .ok none => errorMsg
    | .error _ => errorMsg ++ str ": " ++ response.body

/-- `chat`, but for what the two providers name and encode differently. -/
def HttpClient.chat (client : HttpClient σ) (api endpointUrl : Str) (authHeaders : HttpHeaders)
    (requestBody : Except StdException Json)
    (deserializeResponse : Json → Except StdException LlmResponse) (world : σ) :
    Except StdException LlmResponse × σ :=
  match requestBody with
  | .error e => (.error e, world)
  | .ok requestBody =>
    match client.post endpointUrl authHeaders requestBody.dump world with
    | (.error e, world) => (.error e, world)
    | (.ok response, world) =>
      if response.statusCode < 200 ∨ 300 ≤ response.statusCode then
        (.error (.runtimeError (apiErrorMessage api response)), world)
      else (Json.parse response.body >>= deserializeResponse, world)

/-- A reply that comes back was decoded from some body. -/
theorem HttpClient.chat_decoded {client : HttpClient σ} {api url : Str} {headers : HttpHeaders}
    {body : Except StdException Json} {deserialize : Json → Except StdException LlmResponse}
    {w v : σ} {response : LlmResponse}
    (h : client.chat api url headers body deserialize w = (.ok response, v)) :
    ∃ json, deserialize json = .ok response := by
  unfold HttpClient.chat at h
  cases body with
  | error e => simp at h
  | ok body =>
    rcases hp : client.post url headers body.dump w with ⟨e | reply, u⟩
    · simp [hp] at h
    · simp only [hp] at h
      by_cases hs : reply.statusCode < 200 ∨ 300 ≤ reply.statusCode
      · simp [hs] at h
      · simp only [hs, if_false, Prod.mk.injEq] at h
        cases hj : Json.parse reply.body with
        | error e =>
          rw [hj] at h
          cases h.1
        | ok json =>
          rw [hj] at h
          exact ⟨json, h.1⟩

end Forgeant
