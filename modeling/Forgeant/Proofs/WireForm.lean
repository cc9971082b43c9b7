import Forgeant.Proofs.Dialogue
import Forgeant.Proofs.JsonRoundTrip
import Forgeant.Provider.Anthropic
import Forgeant.Provider.OpenAi

namespace Forgeant

def HasRole (role : Str) (wire : Json) : Prop := wire.index (str "role") = .ok (.string role)

/-- At `key` each value has the id at its place, as a string. -/
def HasIds (key : Str) (values : List Json) (ids : List Str) : Prop :=
  values.map (fun v => v.index key) = ids.map (fun id => .ok (.string id))

/-- A block of a content array is of the given type. -/
def hasType (type : Str) (block : Json) : Bool :=
  match block.index (str "type") with
  | .ok (.string t) => t == type
  | _ => false

namespace AnthropicProvider

/-- The tool uses of a message are those with the given ids, in order. -/
def Asks (ids : List Str) (wire : Json) : Prop :=
  ∃ blocks, wire.index (str "content") = .ok (.array blocks) ∧
    HasIds (str "id") (blocks.filter (hasType (str "tool_use"))) ids

/-- A message holds one tool result for each id, in order, and nothing else. -/
def Answers (ids : List Str) (wire : Json) : Prop :=
  ∃ blocks, wire.index (str "content") = .ok (.array blocks) ∧
    (∀ b ∈ blocks, hasType (str "tool_result") b) ∧ HasIds (str "tool_use_id") blocks ids

/-- Messages of the user and the assistant in turn, the first and the last
from the user; what asks for tools is answered by the next message. -/
def WellFormed (wires : List Json) : Prop :=
  ∃ (first : Json) (pairs : List (Json × Json)),
    wires = first :: pairs.flatMap (fun p => [p.1, p.2]) ∧ HasRole (str "user") first ∧
    ∀ p ∈ pairs, HasRole (str "assistant") p.1 ∧ HasRole (str "user") p.2 ∧
      ∃ ids, Asks ids p.1 ∧ (ids ≠ [] → Answers ids p.2)

end AnthropicProvider

namespace OpenAiProvider

def Asks (ids : List Str) (wire : Json) : Prop :=
  ∃ calls, wire.value Json.elements (str "tool_calls") [] = .ok calls ∧
    HasIds (str "id") calls ids

/-- A message that is no tool message, with the tool messages that answer it: for
one of the assistant, one for each of its calls, in order. -/
def Answered (group : Json × List Json) : Prop :=
  (∀ wire ∈ group.2, HasRole (str "tool") wire) ∧
  (HasRole (str "user") group.1 ∧ group.2 = [] ∨
    HasRole (str "assistant") group.1 ∧
      ∃ ids, Asks ids group.1 ∧ HasIds (str "tool_call_id") group.2 ids)

def Ended (wires : List Json) : Prop :=
  ∃ last, wires.getLast? = some last ∧ (HasRole (str "user") last ∨ HasRole (str "tool") last)

def flatten (groups : List (Json × List Json)) : List Json :=
  groups.flatMap (fun g => g.1 :: g.2)

/-- After a system message, if there is one, come messages each followed by its
answers, and the last is of the user or a tool. -/
def WellFormed (wires : List Json) : Prop :=
  ∃ leading groups, wires = leading ++ flatten groups ∧ leading.length ≤ 1 ∧
    (∀ wire ∈ leading, HasRole (str "system") wire) ∧ (∀ g ∈ groups, Answered g) ∧ Ended wires

end OpenAiProvider

namespace Proofs.WireForm

theorem hasIds_map {α : Type} {key : Str} {f : α → Json} {id : α → Str} (as : List α)
    (h : ∀ a ∈ as, (f a).index key = .ok (.string (id a))) : HasIds key (as.map f) (as.map id) := by
  unfold HasIds
  rw [List.map_map, List.map_map]
  apply List.map_congr_left
  intro a ha
  exact h a ha

theorem answers_toolUseId {results : List ToolResultBlock} {calls : List ToolUseBlock}
    (answers : results.map ToolResultBlock.toolUseId = calls.map ToolUseBlock.id) :
    results = [] ↔ calls = [] := by
  rw [← List.map_eq_nil_iff, answers, List.map_eq_nil_iff]

section Anthropic
open AnthropicProvider

theorem hasType_text (b : TextBlock) :
    ¬ hasType (str "tool_use") (ContentBlock.text b).toJson := by
  change ¬ (str "text" == str "tool_use") = true
  decide

theorem hasType_toolResult (b : ToolResultBlock) :
    ¬ hasType (str "tool_use") (ContentBlock.toolResult b).toJson := by
  change ¬ (str "tool_result" == str "tool_use") = true
  decide

theorem filter_toolUse (blocks : List ContentBlock) :
    (blocks.map ContentBlock.toJson).filter (hasType (str "tool_use")) =
      (blocks.filterMap ContentBlock.toolUse?).map ToolUseBlock.toJson := by
  induction blocks with
  | nil => rfl
  | cons block blocks ih =>
    rw [List.map_cons]
    cases block with
    | text b =>
      rw [List.filter_cons_of_neg (hasType_text b), ih]
      rfl
    | toolUse u =>
      rw [List.filter_cons_of_pos rfl, ih]
      rfl
    | toolResult r =>
      rw [List.filter_cons_of_neg (hasType_toolResult r), ih]
      rfl

theorem anthropic_asks (m : Message) :
    Asks (m.toolUses.map ToolUseBlock.id) (serializeMessage m) := by
  refine ⟨_, rfl, ?_⟩
  rw [filter_toolUse]
  apply hasIds_map
  intro u _
  rfl

theorem anthropic_answers {results : List ToolResultBlock} {calls : List ToolUseBlock}
    (answers : results.map ToolResultBlock.toolUseId = calls.map ToolUseBlock.id) :
    Answers (calls.map ToolUseBlock.id) (serializeMessage ⟨.tool, results.map .toolResult⟩) := by
  refine ⟨_, rfl, ?_, ?_⟩
  · intro b hb
    rw [List.map_map] at hb
    obtain ⟨r, _, rfl⟩ := List.mem_map.mp hb
    rfl
  · rw [← answers, List.map_map]
    apply hasIds_map
    intro r _
    rfl

theorem anthropic_role {m : Message} (h : m.role = .assistant) :
    HasRole (str "assistant") (serializeMessage m) := by
  obtain ⟨role, content⟩ := m
  cases h
  rfl

theorem anthropic_append {wires : List Json} (h : WellFormed wires) {turn reply : Json}
    {ids : List Str} (hturn : HasRole (str "assistant") turn) (hreply : HasRole (str "user") reply)
    (asks : Asks ids turn) (answers : ids ≠ [] → Answers ids reply) :
    WellFormed (wires ++ [turn, reply]) := by
  obtain ⟨first, pairs, rfl, hfirst, hpairs⟩ := h
  refine ⟨first, pairs ++ [(turn, reply)], by simp, hfirst, ?_⟩
  intro p hp
  rcases List.mem_append.mp hp with hp | hp
  · exact hpairs p hp
  · cases List.mem_singleton.mp hp
    exact ⟨hturn, hreply, ids, asks, answers⟩

/-- A dialogue is sent to Anthropic as well-formed messages. -/
theorem anthropic_wellFormed {ms : List Message} (h : Open ms) :
    WellFormed (ms.map serializeMessage) := by
  induction h with
  | prompt text => exact ⟨_, [], rfl, rfl, by simp⟩
  | tools _ assistant asks answers ih =>
    rw [List.map_append]
    refine anthropic_append ih (anthropic_role assistant) ?_ (anthropic_asks _) ?_
    · rfl
    · intro _
      exact anthropic_answers answers
  | reply _ assistant final text ih =>
    rw [List.map_append]
    refine anthropic_append ih (anthropic_role assistant) ?_ (anthropic_asks _) ?_
    · rfl
    · intro hne
      rw [final] at hne
      exact absurd rfl hne

end Anthropic

section OpenAi
open OpenAiProvider

theorem openAi_append {wires : List Json} (h : WellFormed wires) {groups : List (Json × List Json)}
    (answered : ∀ g ∈ groups, Answered g) (ended : Ended (flatten groups)) :
    WellFormed (wires ++ flatten groups) := by
  obtain ⟨leading, before, rfl, hlen, hleading, hbefore, _⟩ := h
  refine ⟨leading, before ++ groups, by simp [flatten], hlen, hleading, ?_, ?_⟩
  · intro g hg
    rcases List.mem_append.mp hg with hg | hg
    · exact hbefore g hg
    · exact answered g hg
  · obtain ⟨last, hlast, hrole⟩ := ended
    exact ⟨last, by rw [List.getLast?_append, hlast]; rfl, hrole⟩

theorem ended_results (wires : List Json) {results : List ToolResultBlock} (hne : results ≠ []) :
    Ended (wires ++ results.map toolResultMessage) := by
  refine ⟨toolResultMessage (results.getLast hne), ?_, .inr rfl⟩
  rw [List.getLast?_append, List.getLast?_map, List.getLast?_eq_getLast_of_ne_nil hne]
  rfl

variable [Platform]

theorem openAi_asks (m : Message) : Asks (m.toolUses.map ToolUseBlock.id) (serializeMessage m) := by
  refine ⟨_, (serializeMessage_fields m).2.2, ?_⟩
  apply hasIds_map
  intro u _
  rfl

theorem openAi_role {m : Message} (h : m.role = .assistant) :
    HasRole (str "assistant") (serializeMessage m) := by
  rw [HasRole, (serializeMessage_fields m).1, h]
  rfl

theorem answered_user (text : Str) : Answered (serializeMessage (.ofText .user text), []) := by
  refine ⟨?_, .inl ⟨?_, rfl⟩⟩
  · intro wire hwire
    cases hwire
  · rw [HasRole, (serializeMessage_fields _).1]
    rfl

theorem answered_turn {turn : Message} (assistant : turn.role = .assistant)
    {results : List ToolResultBlock}
    (answers : results.map ToolResultBlock.toolUseId = turn.toolUses.map ToolUseBlock.id) :
    Answered (serializeMessage turn, results.map toolResultMessage) := by
  refine ⟨?_, .inr ⟨openAi_role assistant, _, openAi_asks turn, ?_⟩⟩
  · intro wire hwire
    obtain ⟨r, _, rfl⟩ := List.mem_map.mp hwire
    rfl
  · rw [← answers]
    apply hasIds_map
    intro r _
    rfl

theorem wireMessages_turn {turn : Message} (assistant : turn.role = .assistant) :
    wireMessages turn = [serializeMessage turn] := by
  rw [wireMessages, assistant]
  rfl

theorem wireMessages_results (results : List ToolResultBlock) :
    wireMessages ⟨.tool, results.map .toolResult⟩ = results.map toolResultMessage := by
  simp [wireMessages, serializeToolResultMessages, Message.toolResults, List.filterMap_map,
    Function.comp_def, ContentBlock.toolResult?]

theorem ended_user {wires : List Json} (text : Str)
    (h : wires.getLast? = some (serializeMessage (.ofText .user text))) : Ended wires := by
  refine ⟨_, h, .inl ?_⟩
  rw [HasRole, (serializeMessage_fields _).1]
  rfl

theorem openAi_prompt (prompt : Option Str) (text : Str) :
    WellFormed ((prompt.map systemMessage).toList ++
      [Message.ofText .user text].flatMap wireMessages) := by
  refine ⟨_, [(serializeMessage (.ofText .user text), [])], rfl, ?_, ?_, ?_, ?_⟩
  · cases prompt <;> simp
  · intro wire hwire
    obtain ⟨text, _, rfl⟩ := Option.map_eq_some_iff.mp (Option.mem_toList.mp hwire)
    rfl
  · intro g hg
    cases List.mem_singleton.mp hg
    exact answered_user text
  · apply ended_user text
    rw [List.getLast?_append]
    rfl

theorem openAi_tools {wires : List Json} (h : WellFormed wires) {turn : Message}
    (assistant : turn.role = .assistant) (asks : turn.toolUses ≠ [])
    {results : List ToolResultBlock}
    (answers : results.map ToolResultBlock.toolUseId = turn.toolUses.map ToolUseBlock.id) :
    WellFormed (wires ++ [turn, ⟨.tool, results.map .toolResult⟩].flatMap wireMessages) := by
  have hwires : [turn, ⟨.tool, results.map .toolResult⟩].flatMap wireMessages =
      flatten [(serializeMessage turn, results.map toolResultMessage)] := by
    simp [flatten, wireMessages_turn assistant, wireMessages_results]
  rw [hwires]
  apply openAi_append h
  · intro g hg
    cases List.mem_singleton.mp hg
    exact answered_turn assistant answers
  · have hne : results ≠ [] := by
      intro hnil
      exact asks ((answers_toolUseId answers).mp hnil)
    have := ended_results [serializeMessage turn] hne
    simpa [flatten] using this

theorem openAi_reply {wires : List Json} (h : WellFormed wires) {turn : Message}
    (assistant : turn.role = .assistant) (final : turn.toolUses = []) (text : Str) :
    WellFormed (wires ++ [turn, .ofText .user text].flatMap wireMessages) := by
  have hwires : [turn, .ofText .user text].flatMap wireMessages =
      flatten [(serializeMessage turn, []), (serializeMessage (.ofText .user text), [])] := by
    simp [flatten, wireMessages_turn assistant]
    rfl
  rw [hwires]
  apply openAi_append h
  · intro g hg
    rcases List.mem_cons.mp hg with rfl | hg
    · have hnone : [].map ToolResultBlock.toolUseId = turn.toolUses.map ToolUseBlock.id := by
        rw [final]
        rfl
      exact answered_turn assistant hnone
    · cases List.mem_singleton.mp hg
      exact answered_user text
  · exact ended_user text rfl

/-- A dialogue is sent to OpenAI as well-formed messages. -/
theorem openAi_wellFormed {c : Conversation} (h : Open c.messages) :
    WellFormed (serializeMessages c) := by
  obtain ⟨prompt, ms⟩ := c
  simp only [serializeMessages] at h ⊢
  induction h with
  | prompt text => exact openAi_prompt prompt text
  | tools _ assistant asks answers ih =>
    rw [List.flatMap_append, ← List.append_assoc]
    exact openAi_tools ih assistant asks answers
  | reply _ assistant final text ih =>
    rw [List.flatMap_append, ← List.append_assoc]
    exact openAi_reply ih assistant final text

end OpenAi

/-- Every request body of a chain of runs on a built-in provider is well
formed. -/
theorem chain_wellFormed {σ : Type} [Platform] (session : Session σ) :
    (∀ (provider : AnthropicProvider σ) o t, Chain provider.chat session o t →
      ∀ c request outcome, .chat c request outcome ∈ t.since session →
      ∀ body, provider.serializeRequest c request = .ok body →
      ∃ wires, body.index (str "messages") = .ok (.array wires) ∧
        AnthropicProvider.WellFormed wires) ∧
    (∀ (provider : OpenAiProvider σ) o t, Chain provider.chat session o t →
      ∀ c request outcome, .chat c request outcome ∈ t.since session →
      ∀ body, provider.serializeRequest c request = .ok body →
      ∃ wires, body.index (str "messages") = .ok (.array wires) ∧
        OpenAiProvider.WellFormed wires) := by
  constructor
  · intro provider o t chain c request outcome he body hbody
    have hopen := Dialogue.chain_open provider.chat_repliesAsAssistant chain c request outcome he
    exact ⟨_, AnthropicProvider.serializeRequest_messages hbody, anthropic_wellFormed hopen⟩
  · intro provider o t chain c request outcome he body hbody
    have hopen := Dialogue.chain_open provider.chat_repliesAsAssistant chain c request outcome he
    exact ⟨_, OpenAiProvider.serializeRequest_messages hbody, openAi_wellFormed hopen⟩

/-- A client that plays back bodies until it has none left. -/
def playback : HttpClient (List Str) where
  post _ _ _ bodies :=
    match bodies with
    | [] => (.error (.runtimeError (str "HTTP request failed")), [])
    | body :: bodies => (.ok { statusCode := 200, body := body }, bodies)

def config : ProviderConfig := { apiKey := str "key", model := str "model" }

def anthropic : AnthropicProvider (List Str) := .make playback config

def openAi : OpenAiProvider (List Str) := .make playback config

/-- A turn that calls a tool, as the two backends send it. -/
def anthropicTurn : Json :=
  .object [(str "content", .array [.object [(str "id", .string (str "t1")),
    (str "name", .string (str "add")), (str "type", .string (str "tool_use"))]])]

def openAiTurn : Json :=
  .object [(str "choices", .array [.object [(str "message", .object [(str "tool_calls",
    .array [.object [(str "function", .object [(str "name", .string (str "add"))]),
      (str "id", .string (str "t1"))]])])]])]

def turn : LlmResponse :=
  { message := ⟨.assistant, [.toolUse ⟨str "t1", str "add", .object []⟩]⟩ }

def prompt : Conversation := { messages := [.ofText .user (str "2 + 3?")] }

/-- A turn that is a text, as Anthropic sends it. -/
def said (text : String) : Json :=
  .object [(str "content", .array [.object [(str "text", .string (str text)),
    (str "type", .string (str "text"))]])]

def reply (text : String) : LlmResponse := { message := ⟨.assistant, [.text ⟨str text⟩]⟩ }

theorem lasting_anthropicTurn : @Json.Lasting .utf8 Str.IsUtf8 anthropicTurn := by
  let platform := Platform.utf8
  simp +decide [anthropicTurn, Assoc.Ordered]

theorem lasting_openAiTurn : @Json.Lasting .utf8 Str.IsUtf8 openAiTurn := by
  let platform := Platform.utf8
  simp +decide [openAiTurn, Assoc.Ordered]

theorem lasting_said (text : String) : @Json.Lasting .utf8 Str.IsUtf8 (said text) := by
  let platform := Platform.utf8
  simp +decide [said, Assoc.Ordered]

/-- After the turn that calls a tool, the provider is called again. -/
theorem run_calls_again [Platform] {provider : LlmProvider (List Str)} {body : Str}
    (asks : provider.chat prompt {} [body] = (.ok turn, []))
    (fails : ∀ c, ∃ e, provider.chat c {} [] = (.error e, [])) :
    ∃ c e, .chat c {} (.error e) ∈
      (({ provider := provider } : Agent (List Str)).run (str "2 + 3?") {} ⟨[body], []⟩).2.since
        ⟨[body], []⟩ ∧ c.messages.length = 3 := by
  let agent : Agent (List Str) := { provider := provider }
  have hchat : Session.chat ⟨[body], []⟩ provider prompt {} =
      (.ok turn, ⟨[], [.chat prompt {} (.ok turn)]⟩) := by
    rw [Session.chat, asks]
    rfl
  obtain ⟨c, u, trace, hagain, hlen⟩ : ∃ c u trace,
      agent.iterate none 0 ⟨prompt, 0, ⟨[body], []⟩⟩ = .again ⟨c, u, ⟨[], trace⟩⟩ ∧
        c.messages.length = 3 := by
    have hrequest : agent.request none = {} := rfl
    simp only [Agent.iterate, hrequest, hchat, agent]
    exact ⟨_, _, _, rfl, rfl⟩
  obtain ⟨e, he⟩ := fails c
  obtain ⟨r, hleave⟩ : ∃ r, agent.iterate none 1 ⟨c, u, ⟨[], trace⟩⟩ =
      .leave (.error r, ⟨[], trace ++ [.chat c {} (.error e)]⟩) := by
    have hrequest : agent.request none = {} := rfl
    simp only [Agent.iterate, hrequest, Session.chat, agent, he]
    exact ⟨_, rfl⟩
  have hloop : agent.executeLoop prompt {} none ⟨[body], []⟩ =
      (.error r, ⟨[], trace ++ [.chat c {} (.error e)]⟩) := by
    have hcap : (agent.maxIterations {}).toNat = 10 := rfl
    unfold Agent.executeLoop
    simp only [hcap]
    rw [Loop.run_again 9 hagain, Loop.run_leave 8 hleave]
  have hrun : (agent.run (str "2 + 3?") {} ⟨[body], []⟩).2 =
      ⟨[], trace ++ [.chat c {} (.error e)]⟩ := by
    change (agent.executeText prompt {} ⟨[body], []⟩).2 = _
    rw [Agent.executeText, hloop]
  refine ⟨c, e, ?_, hlen⟩
  rw [hrun]
  simp [Session.since]

/-- The second request of a run, sent after the tool has answered. -/
theorem chain_wellFormed_playback :
    letI := Platform.utf8
    (∃ c body wires, c.messages.length = 3 ∧ anthropic.serializeRequest c {} = .ok body ∧
      body.index (str "messages") = .ok (.array wires) ∧ AnthropicProvider.WellFormed wires) ∧
    (∃ c body wires, c.messages.length = 3 ∧ openAi.serializeRequest c {} = .ok body ∧
      body.index (str "messages") = .ok (.array wires) ∧ OpenAiProvider.WellFormed wires) := by
  let platform := Platform.utf8
  constructor
  · have asks : anthropic.chat.chat prompt {} [anthropicTurn.dump] = (.ok turn, []) := by
      change (Json.parse anthropicTurn.dump >>= AnthropicProvider.deserializeResponse,
        ([] : List Str)) = _
      rw [JsonRoundTrip.parse_utf8 lasting_anthropicTurn]
      rfl
    obtain ⟨c, e, he, hlen⟩ := run_calls_again asks (fun c => ⟨_, rfl⟩)
    have hagent : ({ provider := anthropic.chat } : Agent (List Str)).provider = anthropic.chat := rfl
    have chain := Chain.run (s := ⟨[anthropicTurn.dump], []⟩) hagent (str "2 + 3?") {}
    obtain ⟨wires, hwires, hform⟩ := (chain_wellFormed _).1 anthropic _ _ chain c {} _ he _ rfl
    exact ⟨c, _, wires, hlen, rfl, hwires, hform⟩
  · have asks : openAi.chat.chat prompt {} [openAiTurn.dump] = (.ok turn, []) := by
      change (Json.parse openAiTurn.dump >>= OpenAiProvider.deserializeResponse,
        ([] : List Str)) = _
      rw [JsonRoundTrip.parse_utf8 lasting_openAiTurn]
      rfl
    obtain ⟨c, e, he, hlen⟩ := run_calls_again asks (fun c => ⟨_, rfl⟩)
    have hagent : ({ provider := openAi.chat } : Agent (List Str)).provider = openAi.chat := rfl
    have chain := Chain.run (s := ⟨[openAiTurn.dump], []⟩) hagent (str "2 + 3?") {}
    obtain ⟨wires, hwires, hform⟩ := (chain_wellFormed _).2 openAi _ _ chain c {} _ he _ rfl
    exact ⟨c, _, wires, hlen, rfl, hwires, hform⟩

end Proofs.WireForm

end Forgeant
