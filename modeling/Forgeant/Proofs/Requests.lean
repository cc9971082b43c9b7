import Forgeant.Requests
import Forgeant.Proofs.ConversationJson
import Forgeant.Proofs.OpenAiEncoding

namespace Forgeant.Proofs.Requests

section

variable {μ : Type} {encoding : Encoding μ} {sent sent' : Sent μ}

theorem fields_nodup (h : encoding.Faithful) (sent : Sent μ) :
    ((encoding.fields sent).map Prod.fst).Nodup := by
  have hkeys : (encoding.fields sent).map Prod.fst = Encoding.keys ++ [encoding.schemaKey] := rfl
  rw [hkeys, List.nodup_append_comm, List.singleton_append, List.nodup_cons]
  exact ⟨h.fresh, by decide⟩

/-- The member for a list that is left out when there is nothing on it. -/
theorem listed_injective {α : Type} {f : α → Json} (hf : f.Injective) :
    Function.Injective (fun as : List α =>
      if !as.isEmpty then some (Json.array (as.map f)) else none) := by
  intro as as' h
  cases as with
  | nil =>
    cases as' with
    | nil => rfl
    | cons a' as' => cases h
  | cons a as =>
    cases as' with
    | nil => cases h
    | cons a' as' => exact hf.list_map (Json.array.inj (Option.some.inj h))

theorem toInt64_injective : Function.Injective Int32.toInt64 := by
  intro n n' h
  rw [← Int32.toInt_inj, ← Int32.toInt_toInt64, h, Int32.toInt_toInt64]

theorem body_injective (h : encoding.Faithful) : encoding.body.Injective := by
  intro sent sent' hbody
  have hkeys : (encoding.fields sent).map Prod.fst = (encoding.fields sent').map Prod.fst := rfl
  have hfields := Assoc.setAll_injective (fields_nodup h sent) hkeys (Json.object.inj hbody)
  simp only [Encoding.fields, List.cons.injEq, Prod.mk.injEq, true_and, and_true, Option.some.injEq,
    Json.string.injEq, Json.array.injEq] at hfields
  obtain ⟨hmodel, htokens, hsystem, htemperature, hmessages, htools, hschema⟩ := hfields
  have hinteger : Function.Injective (fun n : Int32 => Json.integer n.toInt64) :=
    fun n n' hn => toInt64_injective (Json.integer.inj hn)
  cases sent
  cases sent'
  rw [Sent.mk.injEq]
  refine ⟨hmodel, Option.map_injective hinteger htokens, ?_, ?_, h.message.list_map hmessages,
    listed_injective h.tool htools, Option.map_injective h.schema hschema⟩
  · exact Option.map_injective (fun _ _ => Json.string.inj) hsystem
  · exact Option.map_injective (fun _ _ => Json.number.inj) htemperature

theorem body_settings (h : encoding.Faithful) (sent : Sent μ) :
    ∃ members, encoding.body sent = .object members ∧
      Assoc.find? (str "model") members = some (.string sent.model) ∧
      Assoc.find? (str "max_tokens") members =
        sent.maxTokens.map (fun n => .integer n.toInt64) ∧
      Assoc.find? (str "temperature") members = sent.temperature.map .number := by
  have hfind {k : Str} {o : Option Json} (hmem : (k, o) ∈ encoding.fields sent) :
      Assoc.find? k (Assoc.setAll (encoding.fields sent) []) = o :=
    Assoc.find?_setAll (fields_nodup h sent) hmem
  refine ⟨_, rfl, hfind ?_, hfind ?_, hfind ?_⟩ <;> simp [Encoding.fields]

/-- The messages are in one place of a body. -/
theorem body_messages (h : encoding.Faithful) (sent : Sent μ) :
    ∃ members, encoding.body sent = .object members ∧
      Assoc.find? (str "messages") members = some (.array (sent.messages.map encoding.message)) ∧
      ∀ messages, encoding.body { sent with messages } = .object
        (Assoc.set (str "messages") (.array (messages.map encoding.message)) members) := by
  let before := (encoding.fields sent).take 4
  let after := (encoding.fields sent).drop 5
  have hfields (messages : List μ) : encoding.fields { sent with messages } =
      before ++ (str "messages", some (.array (messages.map encoding.message))) :: after := rfl
  have hafter : str "messages" ∉ after.map Prod.fst := by
    have hnodup := fields_nodup h sent
    rw [hfields sent.messages, List.map_append] at hnodup
    exact (List.nodup_cons.mp (List.nodup_append.mp hnodup).2.1).1
  refine ⟨_, rfl, ?_, ?_⟩
  · apply Assoc.find?_setAll (fields_nodup h sent)
    rw [hfields sent.messages]
    exact List.mem_append_right before List.mem_cons_self
  · intro messages
    rw [Encoding.body, hfields messages, hfields sent.messages, Assoc.set_setAll _ _ hafter]

end

theorem setSome_tools (withTools : Bool) (toolsJson : Json) (members : List (Str × Json)) :
    (if withTools then Assoc.set (str "tools") toolsJson members else members) =
      Assoc.setSome (str "tools") (if withTools then some toolsJson else none) members := by
  cases withTools with
  | false => rfl
  | true => rfl

namespace Anthropic
open AnthropicProvider

theorem serializeMessage_sent (m : Message) :
    encoding.message m.sent = serializeMessage m := by
  unfold Message.sent
  by_cases h : m.role = .tool
  · simp [h, encoding, serializeMessage, wireRole, Role.toJson]
  · simp [h, encoding, serializeMessage]

theorem block_injective : ContentBlock.toJson.Injective := by
  intro block block' h
  have hread := ConversationJson.fromJson_block block
  rw [h, ConversationJson.fromJson_block] at hread
  exact (Except.ok.inj hread).symm

theorem message_injective : encoding.message.Injective := by
  intro ⟨role, content, spoken⟩ ⟨role', content', spoken'⟩ h
  have hmembers : [(str "content", Json.array (content.map ContentBlock.toJson)),
      (str "role", wireRole role)] = [(str "content", .array (content'.map ContentBlock.toJson)),
      (str "role", wireRole role')] := Json.object.inj h
  simp only [wireRole, spoken, spoken', if_false, List.cons.injEq, Prod.mk.injEq, true_and,
    and_true, Json.array.injEq] at hmembers
  obtain ⟨hcontent, hrole⟩ := hmembers
  cases OpenAiEncoding.toJson_injective hrole
  cases block_injective.list_map hcontent
  rfl

theorem faithful : encoding.Faithful where
  message := message_injective
  tool := by
    intro ⟨name, description, parameters⟩ ⟨name', description', parameters'⟩ h
    have hmembers : [(str "description", Json.string description), (str "input_schema", parameters),
        (str "name", .string name)] = [(str "description", .string description'),
        (str "input_schema", parameters'), (str "name", .string name')] := Json.object.inj h
    simpa [and_assoc, and_comm, and_left_comm] using hmembers
  schema := by
    intro schema schema' h
    have hmembers : [(str "format", Json.object [(str "schema", schema),
        (str "type", .string (str "json_schema"))])] = [(str "format", .object [(str "schema",
        schema'), (str "type", .string (str "json_schema"))])] := Json.object.inj h
    simpa using hmembers
  fresh := by decide

theorem serializeRequest_sent {σ : Type} (provider : AnthropicProvider σ) (c : Conversation)
    (request : ChatRequest) :
    provider.serializeRequest c request = (provider.sent c request).map encoding.body := by
  unfold serializeRequest sent
  cases request.outputSchema.mapM closedSchema with
  | error e => rfl
  | ok schema =>
    have hlisted : c.messages.map serializeMessage =
        (c.messages.map Message.sent).map encoding.message := by
      rw [List.map_map]
      exact List.map_congr_left (fun m _ => (serializeMessage_sent m).symm)
    show Except.ok _ = Except.ok _
    rw [hlisted, setSome_tools]
    rfl

end Anthropic

namespace OpenAi
open OpenAiProvider OpenAiEncoding

theorem carries_wire (said : Said) : Carries said said.wire := by
  cases said with
  | result id content => exact ⟨rfl, rfl, rfl⟩
  | turn role spoken text calls =>
    cases calls with
    | nil => exact ⟨rfl, .inl rfl, [], rfl, .nil⟩
    | cons call calls =>
      refine ⟨rfl, ?_, (call :: calls).map SaidCall.wire, rfl, ?_⟩
      · cases text with
        | nil => exact .inr ⟨rfl, rfl⟩
        | cons b bs => exact .inl rfl
      · rw [List.forall₂_map_right_iff, List.forall₂_same]
        intro call _
        exact ⟨rfl, _, rfl, rfl, rfl⟩

theorem wire_injective : Said.wire.Injective := by
  intro said said' h
  exact carries_leftUnique (carries_wire said) (h ▸ carries_wire said')

theorem wire_prompted (c : Conversation) :
    (prompted c).map Said.wire = (c.systemPrompt.map systemMessage).toList := by
  unfold prompted
  cases c.systemPrompt with
  | none => rfl
  | some prompt => rfl

theorem faithful : encoding.Faithful where
  message := wire_injective
  tool := by
    intro ⟨name, description, parameters⟩ ⟨name', description', parameters'⟩ h
    have hmembers : [(str "function", Json.object [(str "description", .string description),
        (str "name", .string name), (str "parameters", parameters)]),
        (str "type", .string (str "function"))] = [(str "function", .object [(str "description",
        .string description'), (str "name", .string name'), (str "parameters", parameters')]),
        (str "type", .string (str "function"))] := Json.object.inj h
    simpa [and_assoc, and_comm, and_left_comm] using hmembers
  schema := by
    intro schema schema' h
    have hmembers : [(str "json_schema", Json.object [(str "name", .string (str "response")),
        (str "schema", schema), (str "strict", .boolean true)]),
        (str "type", .string (str "json_schema"))] = [(str "json_schema", .object [(str "name",
        .string (str "response")), (str "schema", schema'), (str "strict", .boolean true)]),
        (str "type", .string (str "json_schema"))] := Json.object.inj h
    simpa using hmembers
  fresh := by decide

variable [Platform]

theorem wire_heard (m : Message) : (heard m).map Said.wire = wireMessages m := by
  unfold heard wireMessages
  by_cases h : m.role = .tool
  · rw [dif_pos h, if_pos h, List.map_map]
    rfl
  · have hfold := foldl_serializeBlock m.content [] []
    rw [List.nil_append, ← Message.texts, ← Message.toolUses, ← lastText] at hfold
    rw [dif_neg h, if_neg h, List.map_singleton, serializeMessage, hfold]
    cases m.toolUses with
    | nil => rfl
    | cons use uses =>
      simp only [Said.wire, List.map_cons, List.map_map]
      rfl

theorem serializeRequest_sent {σ : Type} (provider : OpenAiProvider σ) (c : Conversation)
    (request : ChatRequest) :
    provider.serializeRequest c request = (provider.sent c request).map encoding.body := by
  unfold serializeRequest sent
  cases request.outputSchema.mapM closedSchema with
  | error e => rfl
  | ok schema =>
    have hlisted : serializeMessages c =
        (prompted c ++ c.messages.flatMap heard).map encoding.message := by
      have hheard : c.messages.flatMap wireMessages =
          c.messages.flatMap (fun m => (heard m).map Said.wire) :=
        List.flatMap_congr (fun m _ => (wire_heard m).symm)
      rw [serializeMessages, hheard, ← wire_prompted, List.map_append, List.map_flatMap]
      rfl
    show Except.ok _ = Except.ok _
    rw [hlisted, setSome_tools]
    rfl

end OpenAi

/-- Two requests to a provider have the same body, or fail alike, exactly when
what is sent is the same: the settings, the prompt, every message as it is sent,
the tools and the closed schema. -/
theorem serializeRequest_determined {σ : Type} [Platform] (c c' : Conversation)
    (request request' : ChatRequest) :
    (∀ provider provider' : AnthropicProvider σ,
      provider.serializeRequest c request = provider'.serializeRequest c' request' ↔
        provider.sent c request = provider'.sent c' request') ∧
    ∀ provider provider' : OpenAiProvider σ,
      provider.serializeRequest c request = provider'.serializeRequest c' request' ↔
        provider.sent c request = provider'.sent c' request' := by
  constructor
  · intro provider provider'
    rw [Anthropic.serializeRequest_sent, Anthropic.serializeRequest_sent,
      (Except.map_injective (body_injective Anthropic.faithful)).eq_iff]
  · intro provider provider'
    rw [OpenAi.serializeRequest_sent, OpenAi.serializeRequest_sent,
      (Except.map_injective (body_injective OpenAi.faithful)).eq_iff]

end Forgeant.Proofs.Requests
