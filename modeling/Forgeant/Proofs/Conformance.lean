import Forgeant.Conformance
import Forgeant.Proofs.Calls
import Forgeant.Proofs.FinalTurn
import Forgeant.Proofs.NumberConversion
import Forgeant.Proofs.Tools

namespace Forgeant.Proofs.Conformance

section

variable {schema j : Json}

theorem satisfies_type (type : JsonType) (h : Satisfies schema j)
    (htype : schema.index (str "type") = .ok (.string type.name)) : type.Holds j := by
  cases h with
  | intro types => exact types type htype

theorem satisfies_required (h : Satisfies schema j) {names : List Json}
    {members : List (Str × Json)} (hnames : schema.index (str "required") = .ok (.array names))
    (hj : j = .object members) {name : Str} (hname : .string name ∈ names) :
    j.contains name = true := by
  cases h with
  | intro _ _ required => exact required names members hnames hj name hname

theorem satisfies_property (h : Satisfies schema j) {props : List (Str × Json)} {k : Str}
    {s v : Json} (hprops : schema.index (str "properties") = .ok (.object props))
    (hs : Assoc.find? k props = some s) (hv : j.index k = .ok v) : Satisfies s v := by
  cases h with
  | intro _ _ _ property => exact property props k s v hprops hs hv

theorem closedSchema_cases {closed : Json} (h : closedSchema schema = .ok closed) :
    closed = schema ∨ ∃ members, schema = .object members ∧
      closed = .object (Assoc.set (str "additionalProperties") (.boolean false) members) := by
  unfold closedSchema at h
  obtain ⟨type, htype, hcopy⟩ := Except.bind_ok.mp h
  by_cases hobject : type = str "object"
  · rw [if_pos hobject] at hcopy
    rw [hobject, Json.value_getString_iff (by decide)] at htype
    obtain ⟨members, rfl, _⟩ := Json.index_ok.mp htype
    exact .inr ⟨members, rfl, (Except.ok.inj hcopy).symm⟩
  · rw [if_neg hobject] at hcopy
    exact .inl (Except.ok.inj hcopy).symm

/-- The copy that a request carries asks for more only. -/
theorem satisfies_of_closed {closed : Json} (h : closedSchema schema = .ok closed)
    (hj : Satisfies closed j) : Satisfies schema j := by
  rcases closedSchema_cases h with rfl | ⟨members, rfl, rfl⟩
  · exact hj
  · have hsame {key : Str} (hkey : key ≠ str "additionalProperties") :
        (Json.object (Assoc.set (str "additionalProperties") (.boolean false) members)).index key =
          (Json.object members).index key := by
      rw [Json.index, Json.index, Assoc.find?_set_ne hkey]
    have hfalse := Json.index_ok.mpr ⟨_, rfl, Assoc.find?_set_self (str "additionalProperties")
      (.boolean false) members⟩
    cases hj with
    | intro type enum required property item closed =>
      rw [hsame (by decide)] at type enum required property item
      refine .intro type enum required property item ?_
      intro _ k v hv
      obtain ⟨props, s, hprops, hs⟩ := closed hfalse k v hv
      rw [hsame (by decide)] at hprops
      exact ⟨props, s, hprops, hs⟩

end

theorem name_injective : JsonType.name.Injective := by
  intro type type' h
  cases type <;> cases type' <;> first | rfl | exact absurd h (by decide)

theorem type_unique (type : JsonType) {type' : JsonType} {schema : Json}
    (h : schema.index (str "type") = .ok (.string type.name))
    (h' : schema.index (str "type") = .ok (.string type'.name)) : type = type' :=
  name_injective (Json.string.inj (Except.ok.inj (h.symm.trans h')))

/-- A schema that only names a type asks for nothing else. -/
theorem satisfies_make (type : JsonType) {j : Json} :
    Satisfies (SchemaBuilder.make type.name).build j ↔ type.Holds j := by
  constructor
  · intro h
    exact satisfies_type type h rfl
  · intro h
    refine .intro ?_ nofun nofun nofun nofun nofun
    intro type' htype'
    cases type_unique type rfl htype'
    exact h

theorem getString_returns {j : Json} :
    (∃ s, ParamSchema.string.get j = .ok s) ↔ Satisfies ParamSchema.string.schema j := by
  exact (exists_congr (fun s => Json.getString_ok)).trans (satisfies_make .string).symm

theorem getBool_returns {j : Json} :
    (∃ b, ParamSchema.boolean.get j = .ok b) ↔ Satisfies ParamSchema.boolean.schema j := by
  exact (exists_congr (fun b => Json.getBool_ok)).trans (satisfies_make .boolean).symm

theorem getDouble_returns [Platform] {j : Json} :
    (∃ d, ParamSchema.double.get j = .ok d) ↔ Satisfies ParamSchema.double.schema j := by
  refine Iff.trans ?_ (satisfies_make .number).symm
  cases j <;> simp [ParamSchema.double, Json.getDouble, JsonType.Holds]

theorem number_out [Platform] {d d' : Double} (h : fromNumber d = .number d') :
    d = d' ∧ ¬ NumberConversion.InRange d := by
  constructor
  · unfold fromNumber at h
    split at h
    · cases h
    · exact Json.number.inj h
  · intro ⟨m, ⟨x, hd, hm⟩, hlo, hhi⟩
    subst hd
    obtain ⟨n, hn, _⟩ := (NumberConversion.converts_integral hm hlo hhi).integral
      ⟨m, ⟨x, rfl, hm⟩, hlo, hhi⟩
    cases h.symm.trans hn

/-- What is parsed and satisfies the schema of `int` is read, but for integers that
`std::int64_t` has not. -/
theorem getInt_returns [Platform] (g : Generic) :
    Satisfies ParamSchema.int.schema (fromGeneric g) ↔
      (∃ n, ParamSchema.int.get (fromGeneric g) = .ok n) ∨
      ∃ d m, g = .number d ∧ d.IsInteger m ∧ ¬ (-2 ^ 63 ≤ m ∧ m ≤ 2 ^ 63 - 1) := by
  refine (satisfies_make .integer).trans ?_
  constructor
  · rintro (⟨n, hn⟩ | ⟨d, m, hd, hm⟩)
    · exact .inl ⟨n.toInt32.toInt, by rw [hn]; rfl⟩
    · cases g with
      | number d' =>
        obtain ⟨rfl, hout⟩ := number_out hd
        exact .inr ⟨d', m, rfl, hm, fun hin => hout ⟨m, hm, hin⟩⟩
      | _ => cases hd
  · rintro (⟨n, hn⟩ | ⟨d, m, rfl, hm, _⟩)
    · cases hj : fromGeneric g with
      | integer n => exact .inl ⟨n, rfl⟩
      | _ =>
        rw [hj] at hn
        cases hn
    · show JsonType.integer.Holds (fromNumber d)
      unfold fromNumber
      split
      · exact .inl ⟨_, rfl⟩
      · exact .inr ⟨d, m, rfl, hm⟩

/-- What is parsed and satisfies the schema of a built-in type is read as that
type, and nothing else is, but for the integers that `std::int64_t` has not. -/
theorem builtIns_read [Platform] (g : Generic) :
    ((∃ s, ParamSchema.string.get (fromGeneric g) = .ok s) ↔
      Satisfies ParamSchema.string.schema (fromGeneric g)) ∧
    ((∃ b, ParamSchema.boolean.get (fromGeneric g) = .ok b) ↔
      Satisfies ParamSchema.boolean.schema (fromGeneric g)) ∧
    ((∃ d, ParamSchema.double.get (fromGeneric g) = .ok d) ↔
      Satisfies ParamSchema.double.schema (fromGeneric g)) ∧
    (Satisfies ParamSchema.int.schema (fromGeneric g) ↔
      (∃ n, ParamSchema.int.get (fromGeneric g) = .ok n) ∨
      ∃ d m, g = .number d ∧ d.IsInteger m ∧
        ¬ (-2 ^ 63 ≤ m ∧ m ≤ 2 ^ 63 - 1)) :=
  ⟨getString_returns, getBool_returns, getDouble_returns, getInt_returns g⟩

theorem weatherParams_adequate : ParamSchema.weatherParams.Adequate := by
  intro j h
  obtain ⟨members, hmembers⟩ := satisfies_type .object h rfl
  have hcontains := satisfies_required h rfl hmembers (List.mem_singleton_self _)
  obtain ⟨v, hv⟩ := Json.index_of_contains hcontains
  obtain ⟨city, rfl⟩ := satisfies_type .string (satisfies_property h rfl rfl hv) rfl
  have hcity := Json.stringAt_ok.mpr hv
  show ∃ params, WeatherParams.fromJson j = .ok params
  unfold WeatherParams.fromJson
  rw [hcity]
  cases hunit : j.contains (str "unit") with
  | false => exact ⟨{ city }, rfl⟩
  | true =>
    obtain ⟨u, hu⟩ := Json.index_of_contains hunit
    obtain ⟨unit, rfl⟩ := satisfies_type .string (satisfies_property h rfl rfl hu) rfl
    rw [Json.stringAt_ok.mpr hu]
    exact ⟨{ city, unit }, rfl⟩

section

variable {σ T : Type} [Platform] {agent : Agent σ} {output : OutputType T}

theorem honoured_decodes (assistant : agent.provider.RepliesAsAssistant)
    (honours : agent.provider.Honours output.schema) {closed : Json}
    (closes : closedSchema output.schema = .ok closed) (adequate : output.Adequate) {w v : σ}
    {request : ChatRequest} {d : Conversation} {response : LlmResponse}
    (hrequest : request.outputSchema = some output.schema)
    (hchat : agent.provider.chat d request w = (.ok response, v))
    (final : response.message.toolUses = []) (rounds : List Round) (c : Conversation) :
    ∃ value, output.decode (extractLastText (c.extend
      (Segment.messages ⟨rounds, .answered response final⟩))) = .ok value := by
  obtain ⟨text, j, htext, hparse, hj⟩ := honours hchat final hrequest closes
  obtain ⟨value, hvalue⟩ := adequate j (satisfies_of_closed closes hj)
  obtain ⟨_, hlast⟩ :=
    FinalTurn.complete_text rounds final c (assistant _ _ _ _ _ hchat)
  rw [hlast, htext]
  exact ⟨value, Except.bind_ok.mpr ⟨j, hparse, hvalue⟩⟩

/-- Where the provider honours the schema it is sent, a structured run makes one
attempt, with no corrective turn, and returns unless a chat call fails or the cap
is reached. -/
theorem honoured_at_once (assistant : agent.provider.RepliesAsAssistant)
    (honours : agent.provider.Honours output.schema) {closed : Json}
    (closes : closedSchema output.schema = .ok closed) (adequate : output.Adequate)
    (c : Conversation) (overrides : RunOverrides) (s : Session σ) :
    let (outcome, t) := agent.executeStructured output c overrides s
    ∃ segment : Segment,
      Calls.Made agent (agent.request (some output.schema)) c s ⟨[], segment⟩ (outcome, t) ∧
      ((∃ result, outcome = .ok result) ↔ segment.Complete) ∧
      ∀ e, outcome = .error e → e.kind ≠ .structuredParse := by
  obtain ⟨as, t, hallowed, hloop, hextends⟩ :=
    RetryLoop.retryLoop_spec agent output {} (Int.zero_le_ofNat 2) c overrides s
  have hdecodes {d : Conversation} {response : LlmResponse}
      (hmem : .chat d (agent.request (some output.schema)) (.ok response) ∈
        as.events (agent.request (some output.schema)) c)
      (final : response.message.toolUses = []) (rounds : List Round) (c' : Conversation) :
      ∃ value, output.decode (extractLastText (c'.extend
        (Segment.messages ⟨rounds, .answered response final⟩))) = .ok value := by
    obtain ⟨u, x, hchat⟩ := hextends.replays.chat_mem hmem
    exact honoured_decodes assistant honours closes adequate rfl hchat final rounds c'
  -- an attempt that failed would have ended with a reply that is decoded
  have hfailed : as.failed = [] := by
    rw [List.eq_nil_iff_forall_not_mem]
    intro a ha
    obtain ⟨pre, post, hsplit⟩ := List.append_of_mem ha
    have hchat := FinalTurn.final_chat a.rounds a.response a.final
      (agent.request (some output.schema)) (Attempts.before c pre)
    have hthreaded : _ ∈ threaded FailedAttempt.messages
        (FailedAttempt.events (agent.request (some output.schema))) c as.failed :=
      mem_threaded.mpr ⟨pre, a, post, hsplit, hchat⟩
    obtain ⟨value, hvalue⟩ := hdecodes (List.mem_append_left _ hthreaded) a.final a.rounds
      (Attempts.before c pre)
    cases (hallowed.rejected pre a post hsplit).symm.trans hvalue
  obtain ⟨failed, segment⟩ := as
  subst hfailed
  have hverdict (hcomplete : segment.Complete) :
      ∃ value, Attempts.verdict output c ⟨[], segment⟩ = .ok value := by
    obtain ⟨rounds, ending⟩ := segment
    obtain ⟨response, final, rfl⟩ := hcomplete
    have hchat := FinalTurn.final_chat rounds response final
      (agent.request (some output.schema)) (Attempts.before c [])
    exact hdecodes (List.mem_append_right _ hchat) final rounds c
  have hexplains := RetryLoop.explains_outcome hallowed
  rw [Agent.executeStructured, hloop]
  refine ⟨segment, ⟨hextends, hexplains.conversation⟩, ?_, ?_⟩
  · rw [hexplains.returns]
    exact ⟨And.left, fun hcomplete => ⟨hcomplete, hverdict hcomplete⟩⟩
  · intro e he hkind
    obtain ⟨_, hcomplete, error, herror⟩ := hexplains.rejects.mp ⟨e, he, hkind⟩
    obtain ⟨value, hvalue⟩ := hverdict hcomplete
    cases herror.symm.trans hvalue

end

def greeter : LlmProvider Unit where
  chat _ _ w := (.ok { message := .ofText .assistant (str "\"Hi\"") }, w)

theorem honoured_at_once_greeter :
    letI := Platform.reference
    let agent : Agent Unit := { provider := greeter }
    let (outcome, t) := agent.executeStructured ParamSchema.string {} {} ⟨(), []⟩
    ∃ segment : Segment,
      Calls.Made agent (agent.request (some ParamSchema.string.schema)) {} ⟨(), []⟩ ⟨[], segment⟩
        (outcome, t) ∧
      ((∃ result, outcome = .ok result) ↔ segment.Complete) ∧
      ∀ e, outcome = .error e → e.kind ≠ .structuredParse := by
  let platform := Platform.reference
  have closes : closedSchema ParamSchema.string.schema = .ok ParamSchema.string.schema := rfl
  refine honoured_at_once ?_ ?_ closes ?_ {} {} ⟨(), []⟩
  · intro c request w response v h
    cases h
    rfl
  · intro c request w response v closed h _ _ hclosed
    cases h
    cases hclosed
    exact ⟨_, .string (str "Hi"), rfl, rfl, (satisfies_make .string).mpr ⟨_, rfl⟩⟩
  · exact fun j => getString_returns.mpr

end Forgeant.Proofs.Conformance
