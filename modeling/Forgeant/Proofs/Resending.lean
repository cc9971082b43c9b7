import Forgeant.Proofs.JsonRoundTrip
import Forgeant.Provider.Anthropic
import Forgeant.Provider.OpenAi

namespace Forgeant

/-- A response with this message in its first choice, the rest of which is read
as what `other` says. -/
structure OpenAiProvider.Sends (json msg : Json) (other : LlmResponse) : Prop where
  model : json.value Json.getString (str "model") [] = .ok other.model
  usage : deserializeUsage (str "prompt_tokens") (str "completion_tokens") json = .ok other.usage
  message : ∃ choice rest, json.index (str "choices") = .ok (.array (choice :: rest)) ∧
    choice.value Json.getString (str "finish_reason") [] = .ok other.finishReason ∧
    choice.index (str "message") = .ok msg

/-- A response with this content, the rest of which is read as what `other`
says. -/
structure AnthropicProvider.Sends (json content : Json) (other : LlmResponse) : Prop where
  model : json.value Json.getString (str "model") [] = .ok other.model
  finishReason : json.value Json.getString (str "stop_reason") [] = .ok other.finishReason
  usage : deserializeUsage (str "input_tokens") (str "output_tokens") json = .ok other.usage
  content : json.index (str "content") = .ok content

namespace Proofs.Resending

section Anthropic
open AnthropicProvider

/-- The blocks that a response can hold. -/
def Decoded (block : ContentBlock) : Prop :=
  (∃ b, block = .text b) ∨ ∃ b, block = .toolUse b

theorem decoded_of_ok {json : Json} {response : LlmResponse}
    (h : deserializeResponse json = .ok response) :
    ∀ block ∈ response.message.content, Decoded block := by
  intro block hblock
  rcases deserializeContent_ok.mp (deserializeResponse_ok.mp h).content with
    ⟨_, hnil⟩ | ⟨blocks, parsed, _, hparsed, hcontent⟩
  · rw [hnil] at hblock
    cases hblock
  · rw [hcontent] at hblock
    obtain ⟨o, ho, hsome⟩ := List.mem_filterMap.mp hblock
    obtain rfl : o = some block := hsome
    obtain ⟨json, _, hjson⟩ := Except.mapM_mem hparsed ho
    rcases deserializeBlock_cases hjson with hnone | ⟨b, hb⟩ | ⟨b, hb⟩
    · cases hnone
    · cases hb
      exact .inl ⟨b, rfl⟩
    · cases hb
      exact .inr ⟨b, rfl⟩

theorem deserializeBlock_toJson {block : ContentBlock} (h : Decoded block) :
    deserializeBlock block.toJson = .ok (some block) := by
  rcases h with ⟨b, rfl⟩ | ⟨b, rfl⟩
  · rw [deserializeBlock_text rfl]
    rfl
  · rw [deserializeBlock_toolUse rfl]
    rfl

theorem deserializeContent_toJson {json : Json} {blocks : List ContentBlock}
    (h : ∀ block ∈ blocks, Decoded block)
    (hcontent : json.index (str "content") = .ok (.array (blocks.map ContentBlock.toJson))) :
    deserializeContent json = .ok blocks := by
  have hblocks : (blocks.map ContentBlock.toJson).mapM deserializeBlock =
      .ok (blocks.map some) :=
    Except.mapM_map (fun block hblock => deserializeBlock_toJson (h block hblock))
  rw [deserializeContent_of_index hcontent, hblocks]
  simp [Except.map, List.filterMap_map]

theorem deserializeResponse_blocks {json : Json} {blocks : List ContentBlock} {other : LlmResponse}
    (h : ∀ block ∈ blocks, Decoded block)
    (sends : Sends json (.array (blocks.map ContentBlock.toJson)) other) :
    deserializeResponse json = .ok { other with message := ⟨.assistant, blocks⟩ } := by
  have hcontent := deserializeContent_toJson h sends.content
  apply deserializeResponse_ok.mpr
  exact
    { model := sends.model
      finishReason := sends.finishReason
      usage := sends.usage
      content := hcontent
      role := rfl }

/-- The content of a message that was decoded is decoded to that message. -/
theorem anthropic_resent {json json' : Json} {response other : LlmResponse}
    (h : deserializeResponse json = .ok response)
    (sends : Sends json' (.array (response.message.content.map ContentBlock.toJson)) other) :
    deserializeResponse json' = .ok { other with message := response.message } := by
  rw [deserializeResponse_blocks (decoded_of_ok h) sends, ← deserializeResponse_role h]

end Anthropic

section OpenAi
open OpenAiProvider

variable [Platform] {valid : Str → Prop}

/-- The arguments of a call: what a text is read as, the text that is none, or
an empty object. -/
theorem deserializeArguments_cases {func args : Json} (h : deserializeArguments func = .ok args) :
    (∃ text, Json.parse text = .ok args) ∨
    (∃ text, func.index (str "arguments") = .ok (.string text) ∧
      args = .objectOf [(str "_raw", .string text)]) ∨
    args = .object [] := by
  unfold deserializeArguments at h
  split at h
  · obtain ⟨v, hv, h⟩ := Except.bind_ok.mp h
    cases v with
    | string text =>
      cases hp : Json.parse text with
      | ok parsed =>
        simp only [hp] at h
        cases h
        exact .inl ⟨text, hp⟩
      | error e =>
        simp only [hp] at h
        cases h
        exact .inr (.inl ⟨text, hv, rfl⟩)
    | _ =>
      cases h
      exact .inr (.inr rfl)
  · cases h
    exact .inr (.inr rfl)

theorem arguments_settled (cast : SaturatesCasts) {func args : Json}
    (h : deserializeArguments func = .ok args) : args.Ordered ∧ args.reread = args := by
  rcases deserializeArguments_cases h with ⟨text, hparse⟩ | ⟨text, _, rfl⟩ | rfl
  · exact JsonRoundTrip.parse_settled cast hparse
  · exact ⟨⟨Assoc.ordered_ofList _, trivial, trivial⟩, rfl⟩
  · exact ⟨⟨List.Pairwise.nil, trivial⟩, rfl⟩

/-- A tool use is sent as a call that is decoded to it, if its input survives
the text. -/
theorem deserializeToolCall_toolCall {tool : ToolUseBlock}
    (h : Json.parse tool.input.dump = .ok tool.input) :
    deserializeToolCall (toolCall tool) = .ok (.toolUse tool) := by
  apply deserializeToolCall_ok.mpr
  exact ⟨_, tool.input, tool.id, tool.name, rfl, deserializeArguments_of_parse rfl h, rfl, rfl, rfl⟩

theorem deserializeToolCalls_toolCall {msg : Json} {tools : List ToolUseBlock}
    (hcalls : msg.value Json.elements (str "tool_calls") [] = .ok (tools.map toolCall))
    (h : ∀ tool ∈ tools, Json.parse tool.input.dump = .ok tool.input) :
    deserializeToolCalls msg = .ok (tools.map .toolUse) := by
  cases hc : msg.contains (str "tool_calls") with
  | false =>
    rw [Json.value_of_missing hc, Except.ok.injEq, List.nil_eq, List.map_eq_nil_iff] at hcalls
    rw [deserializeToolCalls_of_missing hc, hcalls]
    rfl
  | true =>
    obtain ⟨v, hv⟩ := Json.index_of_contains hc
    rw [Json.value_of_index hv, Json.elements_ok] at hcalls
    subst hcalls
    rw [deserializeToolCalls_of_index hv]
    exact Except.mapM_map (fun tool htool => deserializeToolCall_toolCall (h tool htool))

theorem deserializeResponse_message {json msg : Json} {tools : List ToolUseBlock} {text : Str}
    {other : LlmResponse} (sends : Sends json msg other)
    (hcalls : msg.value Json.elements (str "tool_calls") [] = .ok (tools.map toolCall))
    (h : ∀ tool ∈ tools, Json.parse tool.input.dump = .ok tool.input)
    (htext : contentText msg = text) :
    deserializeResponse json =
      .ok { other with message := ⟨.assistant, tools.map .toolUse ++ textBlocks text⟩ } := by
  obtain ⟨choice, rest, hchoices, hfinish, hmessage⟩ := sends.message
  apply deserializeResponse_ok.mpr
  refine ⟨choice, msg, tools.map .toolUse, textBlocks text, ?_⟩
  exact
    { model := sends.model
      usage := sends.usage
      first := firstChoice_ok.mpr ⟨rest, hchoices⟩
      finishReason := hfinish
      message := hmessage
      toolCalls := deserializeToolCalls_toolCall hcalls h
      text := by rw [deserializeText_eq, htext]
      content := rfl }

theorem contentText_serializeMessage (m : Message) :
    contentText (serializeMessage m) = lastText m := by
  unfold contentText
  rw [(serializeMessage_fields m).2.1]
  by_cases h : m.toolUses ≠ [] ∧ lastText m = []
  · rw [if_pos h, h.2]
  · rw [if_neg h]

/-- Tool uses before a text that is not empty, if there is one. -/
theorem decoded_content {json : Json} {response : LlmResponse}
    (h : deserializeResponse json = .ok response) :
    ∃ text, response.message.content =
        response.message.toolUses.map .toolUse ++ textBlocks text ∧
      lastText response.message = text ∧
      ∀ u ∈ response.message.toolUses, ∃ func, deserializeArguments func = .ok u.input := by
  obtain ⟨choice, msg, blocks, texts, h⟩ := deserializeResponse_ok.mp h
  obtain ⟨calls, uses, rfl, _, huses⟩ := deserializeToolCalls_uses h.toolCalls
  have htoolUses : response.message.toolUses = uses := by
    rw [Message.toolUses, h.content_eq]
    cases contentText msg <;>
      simp [textBlocks, List.filterMap_map, Function.comp_def, ContentBlock.toolUse?]
  refine ⟨contentText msg, ?_, ?_, ?_⟩
  · rw [htoolUses, h.content_eq]
  · rw [lastText, Message.texts, h.content_eq]
    cases contentText msg <;>
      simp [textBlocks, List.filterMap_map, Function.comp_def, ContentBlock.text?]
  · rw [htoolUses]
    intro u hu
    have hblocks : calls.mapM deserializeToolCall = .ok (uses.map .toolUse) :=
      Except.mapM_ok.mpr (List.forall₂_map_right_iff.mpr huses)
    obtain ⟨call, _, hcall⟩ := Except.mapM_mem hblocks (List.mem_map_of_mem hu)
    obtain ⟨func, args, _, _, _, hargs, _, _, heq⟩ := deserializeToolCall_ok.mp hcall
    cases heq
    exact ⟨func, hargs⟩

/-- The message that is sent for one that was decoded is decoded to that message. -/
theorem openAi_resent (glaze : ReadsTexts valid) (prints : PrintsDoubles) (cast : SaturatesCasts)
    {json json' : Json} {response other : LlmResponse} (h : deserializeResponse json = .ok response)
    (legible : ∀ u ∈ response.message.toolUses,
      u.input.Leaves (JsonRoundTrip.Legible valid) valid)
    (sends : Sends json' (serializeMessage response.message) other) :
    deserializeResponse json' = .ok { other with message := response.message } := by
  obtain ⟨text, hcontent, htext, huses⟩ := decoded_content h
  have hinputs : ∀ u ∈ response.message.toolUses, Json.parse u.input.dump = .ok u.input := by
    intro u hu
    obtain ⟨func, hargs⟩ := huses u hu
    obtain ⟨ho, hreread⟩ := arguments_settled cast hargs
    exact JsonRoundTrip.parse_dump_reread glaze prints ho hreread (legible u hu)
  have htextJson : contentText (serializeMessage response.message) = text := by
    rw [contentText_serializeMessage, htext]
  rw [deserializeResponse_message sends (serializeMessage_fields _).2.2 hinputs htextJson,
    ← hcontent, ← deserializeResponse_role h]

end OpenAi

/-- What a provider decoded is decoded again from what is sent for it. Where glaze
reads every string, the inputs need nothing but finite numbers. -/
theorem resent_survives [Platform] {valid : Str → Prop} (glaze : ReadsTexts valid)
    (prints : PrintsDoubles) (cast : SaturatesCasts) :
    (∀ json response, OpenAiProvider.deserializeResponse json = .ok response →
      (∀ u ∈ response.message.toolUses, u.input.Leaves (JsonRoundTrip.Legible valid) valid) →
      ∀ json' other,
        OpenAiProvider.Sends json' (OpenAiProvider.serializeMessage response.message) other →
        OpenAiProvider.deserializeResponse json' =
          .ok { other with message := response.message }) ∧
    (∀ json response, AnthropicProvider.deserializeResponse json = .ok response →
      ∀ (σ : Type) (provider : AnthropicProvider σ) c request body,
        provider.serializeRequest c request = .ok body →
      ∀ i : Nat, c.messages[i]? = some response.message →
      ∃ wires wire content, body.index (str "messages") = .ok (.array wires) ∧
        wires[i]? = some wire ∧ wire.index (str "content") = .ok content ∧
        ∀ json' other, AnthropicProvider.Sends json' content other →
          AnthropicProvider.deserializeResponse json' =
            .ok { other with message := response.message }) := by
  constructor
  · intro json response h legible json' other sends
    exact openAi_resent glaze prints cast h legible sends
  · intro json response h σ provider c request body hbody i hi
    refine ⟨_, AnthropicProvider.serializeMessage response.message, _,
      AnthropicProvider.serializeRequest_messages hbody, ?_, rfl, ?_⟩
    · rw [List.getElem?_map, hi]
      rfl
    · intro json' other sends
      exact anthropic_resent h sends

/-- A reply of a text, a call whose arguments are no JSON and one whose arguments
are no object. -/
def oddReply : Json :=
  .objectOf [(str "choices", .array [.objectOf [(str "message", .objectOf [
    (str "content", .string (str "ok")),
    (str "tool_calls", .array [
      .objectOf [(str "id", .string (str "t1")), (str "function", .objectOf [
        (str "name", .string (str "add")), (str "arguments", .string (str "["))])],
      .objectOf [(str "id", .string (str "t2")), (str "function", .objectOf [
        (str "name", .string (str "not")), (str "arguments", .string (str "true"))])]])])]])]

def oddMessage : Message :=
  ⟨.assistant, [.toolUse ⟨str "t1", str "add", .objectOf [(str "_raw", .string (str "["))]⟩,
    .toolUse ⟨str "t2", str "not", .boolean true⟩, .text ⟨str "ok"⟩]⟩

theorem deserialize_oddReply :
    letI := Platform.reference
    OpenAiProvider.deserializeResponse oddReply = .ok { message := oddMessage } := rfl

def offline : AnthropicProvider Unit :=
  .make ⟨fun _ _ _ w => (.error (.other (str "offline")), w)⟩
    { apiKey := str "key", model := str "claude" }

def oddConversation : Conversation := { messages := [.ofText .user (str "1 + 1?"), oddMessage] }

theorem resent_survives_oddReply :
    letI := Platform.reference
    OpenAiProvider.deserializeResponse (.objectOf [(str "choices", .array [.objectOf
      [(str "message", OpenAiProvider.serializeMessage oddMessage)]])]) =
        .ok { message := oddMessage } ∧
    ∃ body wires wire content, offline.serializeRequest oddConversation {} = .ok body ∧
      body.index (str "messages") = .ok (.array wires) ∧ wires[1]? = some wire ∧
      wire.index (str "content") = .ok content ∧
      AnthropicProvider.deserializeResponse (.objectOf [(str "content", content)]) =
        .ok { message := oddMessage } := by
  let platform := Platform.reference
  obtain ⟨hopenAi, hanthropic⟩ := resent_survives (Platform.reference_readsTexts (fun _ => True))
    Platform.reference_printsDoubles Platform.reference_saturatesCasts
  constructor
  · apply hopenAi _ _ deserialize_oddReply _ _ {} ⟨rfl, rfl, _, _, rfl, rfl, rfl⟩
    intro u hu
    rcases List.mem_pair.mp hu with rfl | rfl
    · exact ⟨trivial, ⟨by simp, by simp⟩, trivial⟩
    · exact ⟨by simp, by simp⟩
  · have hdecoded : AnthropicProvider.deserializeResponse
        (.objectOf [(str "content", .array (oddMessage.content.map ContentBlock.toJson))]) =
          .ok { message := oddMessage } := rfl
    obtain ⟨wires, wire, content, hwires, hwire, hcontent, hagain⟩ :=
      hanthropic _ _ hdecoded Unit offline oddConversation {} _ rfl 1 rfl
    exact ⟨_, wires, wire, content, rfl, hwires, hwire, hcontent,
      hagain _ {} ⟨rfl, rfl, rfl, rfl⟩⟩

end Proofs.Resending

end Forgeant
